import Text2Cypher.Library.Decimal
import Text2Cypher.Python

/-!
# Decimal numbers as texts

The texts that Python's `Decimal` reads: blanks around the number and underscores in it are
dropped, Unicode decimal digits count as digits, and a number is read exactly or not at all.
-/

/-- What a numeric text denotes. -/
inductive Number
  | finite (value : Decimal)
  | infinite (negative : Bool)
  | nan
  deriving DecidableEq, Repr

namespace Python

/-- `str.strip`. -/
def strip (s : Text) : Text := ((s.dropWhile isSpace).reverse.dropWhile isSpace).reverse

/-- Where the ranges of ten decimal digits start in the Unicode database. -/
def digitStarts : List ℕ :=
  [0x30, 0x660, 0x6f0, 0x7c0, 0x966, 0x9e6, 0xa66, 0xae6, 0xb66, 0xbe6, 0xc66, 0xce6, 0xd66, 0xde6,
    0xe50, 0xed0, 0xf20, 0x1040, 0x1090, 0x17e0, 0x1810, 0x1946, 0x19d0, 0x1a80, 0x1a90, 0x1b50,
    0x1bb0, 0x1c40, 0x1c50, 0xa620, 0xa8d0, 0xa900, 0xa9d0, 0xa9f0, 0xaa50, 0xabf0, 0xff10,
    0x104a0, 0x10d30, 0x11066, 0x110f0, 0x11136, 0x111d0, 0x112f0, 0x11450, 0x114d0, 0x11650,
    0x116c0, 0x11730, 0x118e0, 0x11950, 0x11c50, 0x11d50, 0x11da0, 0x11f50, 0x16a60, 0x16ac0,
    0x16b50, 0x1d7ce, 0x1d7d8, 0x1d7e2, 0x1d7ec, 0x1d7f6, 0x1e140, 0x1e2f0, 0x1e4f0, 0x1e950,
    0x1fbf0]

/-- The value of a decimal digit. -/
def digit? (c : Char) : Option ℕ :=
  (digitStarts.find? fun start => start ≤ c.toNat ∧ c.toNat < start + 10).map
    fun start => c.toNat - start

def isDigit (c : Char) : Bool := (digit? c).isSome

end Python

namespace Decimal

/-- The largest exponent of a number that is read exactly. -/
def maxEmax : ℤ := 999999999999999999

/-- The smallest one, for the last digit of a subnormal number. -/
def minEtiny : ℤ := -1999999999999999997

/-- The number that a list of digits denotes. -/
def ofDigits (digits : List ℕ) : ℕ := digits.foldl (fun n digit => 10 * n + digit) 0

/-- The digits in front of a text, and what follows them. -/
def spanDigits : Text → List ℕ × Text
  | [] => ([], [])
  | c :: rest =>
      match Python.digit? c with
      | some digit => (digit :: (spanDigits rest).1, (spanDigits rest).2)
      | none => ([], c :: rest)

/-- A sign, if there is one, and what follows it. -/
def spanSign : Text → Bool × Text
  | '-' :: rest => (true, rest)
  | '+' :: rest => (false, rest)
  | rest => (false, rest)

/-- The exponent behind a coefficient. -/
def readExponent : Text → Option ℤ
  | [] => some 0
  | c :: rest =>
      if c = 'e' ∨ c = 'E' then
        let (negative, rest) := spanSign rest
        match spanDigits rest with
        | ([], _) => none
        | (digits, []) => some (if negative then -(ofDigits digits : ℤ) else ofDigits digits)
        | (_, _ :: _) => none
      else none

/-- A number that the arithmetic can hold. -/
def ifHeld (a : Decimal) : Option Decimal :=
  if minEtiny ≤ a.exponent ∧ a.exponent + digits a.coefficient - 1 ≤ maxEmax then some a else none

/-- A coefficient, with a point in it or not, and an exponent. -/
def readFinite (negative : Bool) (s : Text) : Option Decimal :=
  let (whole, rest) := spanDigits s
  let (fraction, rest) := match rest with
    | '.' :: rest => spanDigits rest
    | rest => ([], rest)
  if whole = [] ∧ fraction = [] then none
  else
    (readExponent rest).bind fun exponent =>
      ifHeld ⟨negative, ofDigits (whole ++ fraction), exponent - fraction.length⟩

/-- `Decimal(s)`; `none` is `InvalidOperation`. -/
def read (s : Text) : Option Number :=
  let (negative, s) := spanSign ((Python.strip s).filter (· ≠ '_'))
  let word := s.map Char.toLower
  if word = "inf".toList ∨ word = "infinity".toList then some (.infinite negative)
  else if (word.take 3 = "nan".toList ∧ (spanDigits (s.drop 3)).2 = []) ∨
      (word.take 4 = "snan".toList ∧ (spanDigits (s.drop 4)).2 = []) then some .nan
  else (readFinite negative s).map .finite

example : read "  -1_234.50e3\n".toList = some (.finite ⟨true, 123450, 1⟩) := by decide +kernel

/-- An integer. -/
def ofInt (n : ℤ) : Decimal := ⟨decide (n < 0), n.natAbs, 0⟩

theorem toRat_ofInt (n : ℤ) : (ofInt n).toRat = n := by
  have hsigned : (ofInt n).signed = n := by
    unfold signed ofInt
    by_cases hneg : n < 0
    · simp only [hneg, decide_true, if_true]
      omega
    · simp only [hneg, decide_false, Bool.false_eq_true, if_false]
      omega
  rw [toRat, hsigned]
  simp [ofInt]

end Decimal
