import Mathlib.Data.Char

/-!
# Python text

The few facts about `str` that the guards and validators rest on.  A `str` is modelled by the list
of its characters where the code scans it, and by `String` where the code only compares it.

Python takes `\w` from the Unicode database of the interpreter; a `WordClass` is any such
classification that agrees with the documented one on ASCII.
-/

/-- A `str` that is scanned character by character. -/
abbrev Text := List Char

instance lawfulBEqText : LawfulBEq Text := inferInstance

namespace Python

/-- The characters of `str.isspace`, which `str.strip` removes and `\s` accepts. -/
def isSpace (c : Char) : Bool :=
  c.toNat ∈ [0x09, 0x0a, 0x0b, 0x0c, 0x0d, 0x1c, 0x1d, 0x1e, 0x1f, 0x20, 0x85, 0xa0, 0x1680,
    0x2000, 0x2001, 0x2002, 0x2003, 0x2004, 0x2005, 0x2006, 0x2007, 0x2008, 0x2009, 0x200a,
    0x2028, 0x2029, 0x202f, 0x205f, 0x3000]

theorem toNat_of_isAlpha {c : Char} (h : c.isAlpha = true) : 65 ≤ c.toNat ∧ c.toNat ≤ 122 := by
  change (decide (c.val ≥ 65 ∧ c.val ≤ 90) ||
    (decide (c.val ≥ 97) && decide (c.val ≤ 122))) = true at h
  simp only [Bool.or_eq_true, Bool.and_eq_true, decide_eq_true_eq, ge_iff_le,
    UInt32.le_iff_toNat_le] at h
  simp only [Char.toNat]
  rcases h with ⟨h1, h2⟩ | ⟨h1, h2⟩
  · exact ⟨h1, Nat.le_trans h2 (by decide)⟩
  · exact ⟨Nat.le_trans (by decide) h1, h2⟩

theorem isSpace_of_isAlpha {c : Char} (h : c.isAlpha = true) : isSpace c = false := by
  have hrange := toNat_of_isAlpha h
  rw [Bool.eq_false_iff]
  intro hspace
  simp only [isSpace, List.mem_cons, List.not_mem_nil, or_false, decide_eq_true_eq] at hspace
  omega

end Python

/-- What the code reads of an exception. -/
structure PyException where
  typeName : String
  message : String
  sqlstate : Option String
  deriving DecidableEq, Repr

/-- What the regular expression class `\w` accepts. -/
structure WordClass where
  isWord : Char → Bool
  ascii : ∀ c : Char, c.toNat < 128 → isWord c = (c.isAlphanum || c == '_')
  space : ∀ c : Char, Python.isSpace c = true → isWord c = false

namespace WordClass

/-- The word characters of ASCII text. -/
def asciiOnly : WordClass where
  isWord c := decide (c.toNat < 128) && ((c.isAlphanum || c == '_') && !Python.isSpace c)
  ascii c h := by
    cases hc : Python.isSpace c with
    | false => simp [h]
    | true =>
      simp only [Python.isSpace, List.mem_cons, List.not_mem_nil, or_false,
        decide_eq_true_eq] at hc
      have hword : (Char.ofNat c.toNat).isAlphanum = false ∧ Char.ofNat c.toNat ≠ '_' := by
        obtain hc | hc | hc | hc | hc | hc | hc | hc | hc | hc | hc :
            c.toNat = 9 ∨ c.toNat = 10 ∨ c.toNat = 11 ∨ c.toNat = 12 ∨ c.toNat = 13 ∨
              c.toNat = 28 ∨ c.toNat = 29 ∨ c.toNat = 30 ∨ c.toNat = 31 ∨ c.toNat = 32 ∨
              128 ≤ c.toNat := by omega
        all_goals first | omega | (rw [hc]; decide)
      rw [Char.ofNat_toNat] at hword
      simp [hword]
  space c h := by simp [h]

end WordClass

namespace Python

/-- `re.IGNORECASE` on one character of a pattern, written in capitals: three letters also match a
letter outside ASCII. -/
def matchesIgnoreCase (k c : Char) : Bool :=
  c.toUpper == k || (k == 'I' && (c == 'İ' || c == 'ı')) || (k == 'K' && c.toNat == 0x212a) ||
    (k == 'S' && c == 'ſ')

/-- A text matches a keyword, ignoring case. -/
def matchesKeyword : Text → Text → Bool
  | [], [] => true
  | k :: ks, c :: cs => matchesIgnoreCase k c && matchesKeyword ks cs
  | _, _ => false

end Python
