import Text2Cypher.Composition.BomShortage
import Text2Cypher.Library.ContextRounding

/-!
# Numeric literals

`normalize_numeric_literal` turns a text such as `3억 5천만` or `6,373.00` into the literal that a
number from the database is normalised to.  It drops all blanks and all commas, adds up parts with
Korean units, and leaves a text that is no number as it is.

* `LiteralOf`: the well-formed literals, each with the number that it denotes;
* `NumericLiteral`: what `NUMERIC_LITERAL_SOURCE` matches, which need not be so well formed;
* `normalize_numeral`: the normal form of the text of a number;
* `normalize_base`, `normalize_scaled`: the normal form of a well-formed literal.
-/

namespace Answer

open Composition Decimal Python

/-- The units of `_KOREAN_SCALE`. -/
inductive KoreanUnit
  | thousand
  | tenThousand
  | tenMillion
  | hundredMillion
  deriving DecidableEq, Repr

namespace KoreanUnit

def text : KoreanUnit → Text
  | thousand => ['천']
  | tenThousand => ['만']
  | tenMillion => ['천', '만']
  | hundredMillion => ['억']

/-- `_KOREAN_SCALE`. -/
def scale : KoreanUnit → ℕ
  | thousand => 1000
  | tenThousand => 10000
  | tenMillion => 10000000
  | hundredMillion => 100000000

end KoreanUnit

/-- `_KOREAN_UNIT_SOURCE`, in front of a text. -/
def spanUnit : Text → Option (KoreanUnit × Text)
  | '천' :: '만' :: rest => some (.tenMillion, rest)
  | '억' :: rest => some (.hundredMillion, rest)
  | '만' :: rest => some (.tenThousand, rest)
  | '천' :: rest => some (.thousand, rest)
  | _ => none

/-- The sign that a number may begin with, and what follows it. -/
def signPrefix : Text → Text × Text
  | '-' :: rest => (['-'], rest)
  | '+' :: rest => (['+'], rest)
  | rest => ([], rest)

/-- `BASE_NUMBER_SOURCE`, in front of a text without commas. -/
def spanBaseNumber (s : Text) : Option (Text × Text) :=
  let (sign, s) := signPrefix s
  let whole := s.takeWhile isDigit
  let rest := s.dropWhile isDigit
  if whole = [] then none
  else
    match rest with
    | '.' :: tail =>
        let fraction := tail.takeWhile isDigit
        if fraction = [] then some (sign ++ whole, rest)
        else some (sign ++ (whole ++ '.' :: fraction), tail.dropWhile isDigit)
    | _ => some (sign ++ whole, rest)

/-- `_SCALED_PART.finditer`, if the matches cover the text.  A shorter number than the longest one
is never followed by a unit, so there is no backtracking. -/
def scaledParts : ℕ → Text → Option (List (Text × KoreanUnit))
  | _, [] => some []
  | 0, _ :: _ => none
  | n + 1, s => do
      let (number, rest) ← spanBaseNumber s
      let (unit, rest) ← spanUnit rest
      let parts ← scaledParts n rest
      return (number, unit) :: parts

/-- `InvalidOperation` is caught, the other signal is not. -/
def catchInvalid : Except Signal Decimal → Except PyException (Option Decimal)
  | .ok a => .ok (some a)
  | .error .invalidOperation => .ok none
  | .error .overflow => signalled (.error .overflow)

/-- The sum of the scaled parts; `none` if it is an invalid operation. -/
def scaledSum : Decimal → List (Text × KoreanUnit) → Except PyException (Option Decimal)
  | sum, [] => .ok (some sum)
  | sum, (number, unit) :: rest =>
      match Decimal.read number with
      | some (.finite value) =>
          match catchInvalid (mul context value ⟨false, unit.scale, 0⟩) with
          | .error exception => .error exception
          | .ok none => .ok none
          | .ok (some product) =>
              match catchInvalid (add context sum product) with
              | .error exception => .error exception
              | .ok none => .ok none
              | .ok (some sum) => scaledSum sum rest
      | _ => .ok none

/-- `str.removeprefix("+")`. -/
def removePlus : Text → Text
  | '+' :: rest => rest
  | s => s

/-- How a `Decimal` that is not a number is printed: its sign, its kind and its payload. -/
def nanText (s : Text) : Text :=
  let (negative, s) := spanSign ((strip s).filter (· ≠ '_'))
  let (word, payload) :=
    if (s.take 1).map Char.toLower = ['s'] then ("sNaN".toList, s.drop 4)
    else ("NaN".toList, s.drop 3)
  signText negative ++
    (word ++ ((spanDigits payload).1.dropWhile (· = 0)).map Nat.digitChar)

/-- `_format_decimal(Decimal(s))`, for a text that is read as the number. -/
def formatNumber (s : Text) : Number → Text
  | .finite value => removePlus (plainText value)
  | .infinite negative => signText negative ++ "Infinity".toList
  | .nan => nanText s

/-- The text without blanks and commas. -/
def compact (value : Text) : Text := (value.filter fun c => !isSpace c).filter (· ≠ ',')

/-- The branch for a text without units. -/
def normalizeUnscaled (compact : Text) : Text :=
  let unscaled := removePlus compact
  match Decimal.read unscaled with
  | some number => formatNumber unscaled number
  | none => unscaled

/-- `normalize_numeric_literal`. -/
def normalizeNumericLiteral (value : Text) : Except PyException Text :=
  let compact := compact value
  match scaledParts compact.length compact with
  | some (part :: parts) =>
      match scaledSum Decimal.zero (part :: parts) with
      | .error exception => .error exception
      | .ok none => .ok (removePlus compact)
      | .ok (some sum) => .ok (removePlus (plainText sum))
  | _ => .ok (normalizeUnscaled compact)

example : normalizeNumericLiteral "3억 5천만".toList = .ok "350000000".toList := by decide +kernel

example : normalizeNumericLiteral "6,373.00".toList = .ok "6373".toList := by decide +kernel

/-! ### Well-formed literals -/

/-- Digits with separators: groups of three, the first of which may be shorter. -/
inductive Separated : Text → List ℕ → Prop
  | first {s : Text} {l : List ℕ} (digits : IsDigits s l) (ne_nil : l ≠ []) (short : l.length ≤ 3) :
      Separated s l
  | group {s t : Text} {l m : List ℕ} (front : Separated s l) (digits : IsDigits t m)
      (three : m.length = 3) : Separated (s ++ ',' :: t) (l ++ m)

/-- The digits in front of the point, with or without separators. -/
def IsWhole (s : Text) (l : List ℕ) : Prop := IsDigits s l ∧ l ≠ [] ∨ Separated s l

/-- A number without a unit: an optional sign, digits, optional decimals. -/
inductive BaseNumber (IsWhole : Text → List ℕ → Prop) : Text → ℚ → Prop
  | whole {sign s : Text} {negative : Bool} {l : List ℕ} (sign_ok : IsSign sign negative)
      (digits : IsWhole s l) : BaseNumber IsWhole (sign ++ s) (valueOf negative l [])
  | point {sign s t : Text} {negative : Bool} {l m : List ℕ} (sign_ok : IsSign sign negative)
      (digits : IsWhole s l) (decimals : IsDigits t m) (ne_nil : m ≠ []) :
      BaseNumber IsWhole (sign ++ (s ++ '.' :: t)) (valueOf negative l m)

/-- Numbers with units, that add up; blanks may stand around the units. -/
inductive ScaledNumber : Text → ℚ → Prop
  | last {s blanks : Text} {q : ℚ} (number : BaseNumber IsWhole s q)
      (blank : ∀ c ∈ blanks, isSpace c = true) (unit : KoreanUnit) :
      ScaledNumber (s ++ (blanks ++ unit.text)) (q * unit.scale)
  | part {s blanks blanks' t : Text} {q r : ℚ} (number : BaseNumber IsWhole s q)
      (blank : ∀ c ∈ blanks, isSpace c = true) (unit : KoreanUnit)
      (blank' : ∀ c ∈ blanks', isSpace c = true) (rest : ScaledNumber t r) :
      ScaledNumber (s ++ (blanks ++ (unit.text ++ (blanks' ++ t)))) (q * unit.scale + r)

/-- **Well-formed literals**, with the numbers that they denote. -/
inductive LiteralOf : Text → ℚ → Prop
  | base {s : Text} {q : ℚ} (number : BaseNumber IsWhole s q) : LiteralOf s q
  | scaled {s : Text} {q : ℚ} (number : ScaledNumber s q) : LiteralOf s q

/-- `\d+(?:,\d{3})*`: digits, and groups of three behind commas. -/
inductive Grouped : Text → List ℕ → Prop
  | digits {s : Text} {l : List ℕ} (digits : IsDigits s l) (ne_nil : l ≠ []) : Grouped s l
  | group {s t : Text} {l m : List ℕ} (front : Grouped s l) (digits : IsDigits t m)
      (three : m.length = 3) : Grouped (s ++ ',' :: t) (l ++ m)

/-- Numbers with units, as `NUMERIC_LITERAL_SOURCE` has them. -/
inductive ScaledLiteral : Text → ℚ → Prop
  | last {s blanks : Text} {q : ℚ} (number : BaseNumber Grouped s q)
      (blank : ∀ c ∈ blanks, isSpace c = true) (unit : KoreanUnit) :
      ScaledLiteral (s ++ (blanks ++ unit.text)) (q * unit.scale)
  | part {s blanks blanks' t : Text} {q r : ℚ} (number : BaseNumber Grouped s q)
      (blank : ∀ c ∈ blanks, isSpace c = true) (unit : KoreanUnit)
      (blank' : ∀ c ∈ blanks', isSpace c = true) (rest : ScaledLiteral t r) :
      ScaledLiteral (s ++ (blanks ++ (unit.text ++ (blanks' ++ t)))) (q * unit.scale + r)

/-- **`NUMERIC_LITERAL_SOURCE`**, with the numbers that its matches denote. -/
inductive NumericLiteral : Text → ℚ → Prop
  | base {s : Text} {q : ℚ} (number : BaseNumber Grouped s q) : NumericLiteral s q
  | scaled {s : Text} {q : ℚ} (number : ScaledLiteral s q) : NumericLiteral s q

theorem IsWhole.grouped {s : Text} {l : List ℕ} (h : IsWhole s l) : Grouped s l := by
  rcases h with ⟨hdigits, hne⟩ | h
  · exact .digits hdigits hne
  · induction h with
    | first hdigits hne _ => exact .digits hdigits hne
    | group _ hdigits hthree ih => exact .group ih hdigits hthree

theorem BaseNumber.mono {W W' : Text → List ℕ → Prop} (hmono : ∀ s l, W s l → W' s l) {s : Text}
    {q : ℚ} (h : BaseNumber W s q) : BaseNumber W' s q := by
  cases h with
  | whole hsign hdigits => exact .whole hsign (hmono _ _ hdigits)
  | point hsign hdigits hdecimals hne => exact .point hsign (hmono _ _ hdigits) hdecimals hne

theorem ScaledNumber.scaledLiteral {s : Text} {q : ℚ} (h : ScaledNumber s q) :
    ScaledLiteral s q := by
  induction h with
  | last hnumber hblank unit => exact .last (hnumber.mono fun _ _ => IsWhole.grouped) hblank unit
  | part hnumber hblank unit hblank' _ ih =>
    exact .part (hnumber.mono fun _ _ => IsWhole.grouped) hblank unit hblank' ih

/-! ### Compact literals -/

/-- Digits without separators. -/
def IsPlain (s : Text) (l : List ℕ) : Prop := IsDigits s l ∧ l ≠ []

theorem compact_append (s t : Text) : compact (s ++ t) = compact s ++ compact t := by
  unfold compact
  rw [List.filter_append, List.filter_append]

theorem compact_blanks {blanks : Text} (h : ∀ c ∈ blanks, isSpace c = true) :
    compact blanks = [] := by
  have hnone : blanks.filter (fun c => !isSpace c) = [] :=
    List.filter_eq_nil_iff.2 fun c hc => by simp [h c hc]
  rw [compact, hnone, List.filter_nil]

theorem compact_eq_self {s : Text} (h : ∀ c ∈ s, isSpace c = false ∧ c ≠ ',') :
    compact s = s := by
  have hspaces : s.filter (fun c => !isSpace c) = s :=
    List.filter_eq_self.2 fun c hc => by simp [(h c hc).1]
  rw [compact, hspaces]
  exact List.filter_eq_self.2 fun c hc => by simpa using (h c hc).2

/-- Digits are neither blanks nor commas. -/
theorem not_space_of_digit? {c : Char} {d : ℕ} (h : digit? c = some d) :
    isSpace c = false ∧ c ≠ ',' := by
  have hfar : ∀ start ∈ digitStarts, ∀ n ∈ [0x09, 0x0a, 0x0b, 0x0c, 0x0d, 0x1c, 0x1d, 0x1e, 0x1f,
      0x20, 0x85, 0xa0, 0x1680, 0x2000, 0x2001, 0x2002, 0x2003, 0x2004, 0x2005, 0x2006, 0x2007,
      0x2008, 0x2009, 0x200a, 0x2028, 0x2029, 0x202f, 0x205f, 0x3000, 0x2c],
        ¬ (start ≤ n ∧ n < start + 10) := by decide
  obtain ⟨start, hstart, -⟩ := Option.map_eq_some_iff.1 h
  have hrange : start ≤ c.toNat ∧ c.toNat < start + 10 := by simpa using List.find?_some hstart
  have hmem := List.mem_of_find?_eq_some hstart
  constructor
  · rw [← Bool.not_eq_true]
    intro hspace
    rw [isSpace, decide_eq_true_eq] at hspace
    exact hfar start hmem c.toNat (List.mem_append_left [0x2c] hspace) hrange
  · rintro rfl
    exact hfar start hmem 0x2c (by decide) hrange

theorem compact_digits {s : Text} {l : List ℕ} (h : IsDigits s l) : compact s = s := by
  refine compact_eq_self fun c hc => ?_
  obtain ⟨d, hd⟩ : ∃ d, digit? c = some d := by
    induction h with
    | nil => cases hc
    | cons hd _ ih =>
      rcases List.mem_cons.1 hc with rfl | hc
      · exact ⟨_, hd⟩
      · exact ih hc
  exact not_space_of_digit? hd

theorem compact_grouped {s : Text} {l : List ℕ} (h : Grouped s l) : IsPlain (compact s) l := by
  induction h with
  | digits hdigits hne =>
    rw [compact_digits hdigits]
    exact ⟨hdigits, hne⟩
  | group _ hdigits _ ih =>
    have hcomma : compact [','] = [] := by decide
    rw [← List.singleton_append, compact_append, compact_append, hcomma, List.nil_append,
      compact_digits hdigits]
    exact ⟨List.rel_append ih.1 hdigits, by simp [ih.2]⟩

theorem compact_sign {sign : Text} {negative : Bool} (h : IsSign sign negative) :
    compact sign = sign := by
  cases h <;> decide

theorem compact_base {s : Text} {q : ℚ} (h : BaseNumber Grouped s q) :
    BaseNumber IsPlain (compact s) q := by
  cases h with
  | whole hsign hdigits =>
    rw [compact_append, compact_sign hsign]
    exact .whole hsign (compact_grouped hdigits)
  | point hsign hdigits hdecimals hne =>
    have hpoint : compact ['.'] = ['.'] := by decide
    rw [compact_append, compact_append, compact_sign hsign, ← List.singleton_append, compact_append,
      hpoint, compact_digits hdecimals]
    exact .point hsign (compact_grouped hdigits) hdecimals hne

/-! ### Plain numbers -/

theorem fixedValue?_plain {s : Text} {q : ℚ} (h : BaseNumber IsPlain s q) :
    fixedValue? s = some q := by
  cases h with
  | whole hsign hdigits => exact fixedValue?_whole hsign hdigits.1 hdigits.2
  | point hsign hdigits hdecimals hne =>
    exact fixedValue?_point hsign hdigits.1 hdigits.2 hdecimals hne

/-- A text behind a number that does not go on with it. -/
def Ends (rest : Text) : Prop :=
  ∀ c, rest.head? = some c → isDigit c = false ∧ c ≠ '.'

theorem takeWhile_digits {s : Text} {l : List ℕ} (h : IsDigits s l) (rest : Text)
    (hrest : ∀ c, rest.head? = some c → isDigit c = false) :
    (s ++ rest).takeWhile isDigit = s ∧ (s ++ rest).dropWhile isDigit = rest := by
  induction h with
  | nil =>
    cases rest with
    | nil => exact ⟨rfl, rfl⟩
    | cons c rest =>
      have hc := hrest c rfl
      exact ⟨List.takeWhile_cons_of_neg (by simp [hc]), List.dropWhile_cons_of_neg (by simp [hc])⟩
  | @cons c d s l hd _ ih =>
    have hc : isDigit c = true := Option.isSome_iff_exists.2 ⟨d, hd⟩
    rw [List.cons_append, List.takeWhile_cons_of_pos hc, List.dropWhile_cons_of_pos hc, ih.1, ih.2]
    exact ⟨rfl, rfl⟩

theorem signPrefix_append {sign : Text} {negative : Bool} (h : IsSign sign negative) {s : Text}
    {l : List ℕ} (hs : IsDigits s l) (hl : l ≠ []) (rest : Text) :
    signPrefix (sign ++ (s ++ rest)) = (sign, s ++ rest) := by
  cases h with
  | plus => rfl
  | minus => rfl
  | none =>
    cases hs with
    | nil => exact absurd rfl hl
    | @cons c d s l hc _ =>
      unfold signPrefix
      split
      · rename_i heq
        obtain ⟨rfl, -⟩ := List.cons.inj heq
        cases hc
      · rename_i heq
        obtain ⟨rfl, -⟩ := List.cons.inj heq
        cases hc
      · rfl

/-- A number is matched up to its end. -/
theorem spanBaseNumber_plain {s : Text} {q : ℚ} (h : BaseNumber IsPlain s q) {rest : Text}
    (hrest : Ends rest) : spanBaseNumber (s ++ rest) = some (s, rest) := by
  cases h with
  | @whole sign s negative l hsign hdigits =>
    have hs : s ≠ [] := by
      rintro rfl
      cases hdigits.1
      exact hdigits.2 rfl
    obtain ⟨htake, hdrop⟩ := takeWhile_digits hdigits.1 rest fun c hc => (hrest c hc).1
    rw [List.append_assoc, spanBaseNumber, signPrefix_append hsign hdigits.1 hdigits.2]
    simp only [htake, hdrop, if_neg hs]
    split
    · exact absurd rfl (hrest '.' rfl).2
    · rfl
  | @point sign s t negative l m hsign hdigits hdecimals hne =>
    have hs : s ≠ [] := by
      rintro rfl
      cases hdigits.1
      exact hdigits.2 rfl
    have ht : t ≠ [] := by
      rintro rfl
      cases hdecimals
      exact hne rfl
    obtain ⟨htake, hdrop⟩ := takeWhile_digits hdigits.1 ('.' :: (t ++ rest)) fun c hc => by
      obtain rfl := Option.some.inj hc
      decide
    obtain ⟨htake', hdrop'⟩ := takeWhile_digits hdecimals rest fun c hc => (hrest c hc).1
    rw [List.append_assoc, List.append_assoc, List.cons_append, spanBaseNumber,
      signPrefix_append hsign hdigits.1 hdigits.2]
    simp only [htake, hdrop, if_neg hs, htake', hdrop', if_neg ht]

/-- The characters of a plain number. -/
theorem mem_plain {s : Text} {q : ℚ} (h : BaseNumber IsPlain s q) {c : Char} (hc : c ∈ s) :
    c = '+' ∨ c = '-' ∨ c = '.' ∨ ∃ d, digit? c = some d := by
  have hsigns : ∀ {sign negative}, IsSign sign negative → c ∈ sign → c = '+' ∨ c = '-' := by
    intro sign negative hsign hmem
    cases hsign
    · exact Or.inl (List.mem_singleton.1 hmem)
    · exact Or.inr (List.mem_singleton.1 hmem)
    · cases hmem
  have hdigits : ∀ {s : Text} {l}, IsDigits s l → c ∈ s → ∃ d, digit? c = some d := by
    intro s l hs hmem
    induction hs with
    | nil => cases hmem
    | cons hd _ ih =>
      rcases List.mem_cons.1 hmem with rfl | hmem
      · exact ⟨_, hd⟩
      · exact ih hmem
  cases h with
  | whole hsign hwhole =>
    rcases List.mem_append.1 hc with hc | hc
    · rcases hsigns hsign hc with rfl | rfl <;> simp
    · exact Or.inr (Or.inr (Or.inr (hdigits hwhole.1 hc)))
  | point hsign hwhole hdecimals _ =>
    rcases List.mem_append.1 hc with hc | hc
    · rcases hsigns hsign hc with rfl | rfl <;> simp
    · rcases List.mem_append.1 hc with hc | hc
      · exact Or.inr (Or.inr (Or.inr (hdigits hwhole.1 hc)))
      · rcases List.mem_cons.1 hc with rfl | hc
        · simp
        · exact Or.inr (Or.inr (Or.inr (hdigits hdecimals hc)))

theorem strip_eq_self {s : Text} (h : ∀ c ∈ s, isSpace c = false) : strip s = s := by
  have hdrop : ∀ t : Text, (∀ c ∈ t, isSpace c = false) → t.dropWhile isSpace = t := by
    intro t ht
    cases t with
    | nil => rfl
    | cons c t => exact List.dropWhile_cons_of_neg (by simp [ht c List.mem_cons_self])
  rw [strip, hdrop s h, hdrop s.reverse fun c hc => h c (List.mem_reverse.1 hc),
    List.reverse_reverse]

/-- No digit begins a word. -/
theorem toLower_digit {c : Char} {d : ℕ} (h : digit? c = some d) :
    c.toLower ≠ 'i' ∧ c.toLower ≠ 'n' ∧ c.toLower ≠ 's' := by
  have hfar : ∀ start ∈ digitStarts, ∀ n, 65 ≤ n ∧ n ≤ 90 ∨ 97 ≤ n ∧ n ≤ 122 →
      ¬ (start ≤ n ∧ n < start + 10) := by
    intro start hstart n hn hrange
    have hstarts : ∀ start ∈ digitStarts, start + 10 ≤ 65 ∨ 122 < start := by decide
    have := hstarts start hstart
    omega
  obtain ⟨start, hstart, -⟩ := Option.map_eq_some_iff.1 h
  have hrange : start ≤ c.toNat ∧ c.toNat < start + 10 := by simpa using List.find?_some hstart
  have hletter := hfar start (List.mem_of_find?_eq_some hstart) c.toNat
  have hkept : c.toLower = c := by
    unfold Char.toLower
    rw [dif_neg]
    rintro ⟨hge, hle⟩
    exact hletter (Or.inl ⟨hge, hle⟩) hrange
  rw [hkept]
  refine ⟨?_, ?_, ?_⟩ <;> rintro rfl <;> exact hletter (Or.inr (by decide)) hrange

/-- A text that begins with a digit is read as a finite number or not at all. -/
theorem read_digits {sign : Text} {negative : Bool} (hsign : IsSign sign negative) {s : Text}
    {l : List ℕ} (hs : IsDigits s l) (hl : l ≠ []) (rest : Text)
    (hspace : ∀ c ∈ sign ++ (s ++ rest), isSpace c = false ∧ c ≠ '_') :
    Decimal.read (sign ++ (s ++ rest)) = (readFinite negative (s ++ rest)).map .finite := by
  have hstrip := strip_eq_self fun c hc => (hspace c hc).1
  have hfilter : (sign ++ (s ++ rest)).filter (· ≠ '_') = sign ++ (s ++ rest) :=
    List.filter_eq_self.2 fun c hc => by simpa using (hspace c hc).2
  unfold Decimal.read
  rw [hstrip, hfilter, spanSign_append hsign hs hl]
  dsimp only
  cases hs with
  | nil => exact absurd rfl hl
  | @cons c d s l hd _ =>
    obtain ⟨hi, hn, hs'⟩ := toLower_digit hd
    rw [if_neg, if_neg]
    · rintro (⟨hword, -⟩ | ⟨hword, -⟩)
      · exact hn (List.cons.inj hword).1
      · exact hs' (List.cons.inj hword).1
    · rintro (hword | hword)
      · exact hi (List.cons.inj hword).1
      · exact hi (List.cons.inj hword).1

/-- Digits are read as an integer, if it can be held. -/
theorem read_whole {sign : Text} {negative : Bool} (hsign : IsSign sign negative) {s : Text}
    {l : List ℕ} (hs : IsDigits s l) (hl : l ≠ [])
    (hspace : ∀ c ∈ sign ++ s, isSpace c = false ∧ c ≠ '_') :
    Decimal.read (sign ++ s) = (ifHeld ⟨negative, ofDigits l, 0⟩).map .finite := by
  have hread := read_digits hsign hs hl [] (by simpa using hspace)
  have hspan := spanDigits_append hs []
  simp only [List.append_nil, spanDigits] at hread hspan
  have hfinite : readFinite negative s = ifHeld ⟨negative, ofDigits l, 0⟩ := by
    simp only [readFinite, hspan, hl, false_and, if_false, readExponent, Option.bind_some]
    simp
  rw [hread, hfinite]

/-- Digits with a point in them are read as a number with so many places, if it can be held. -/
theorem read_point {sign : Text} {negative : Bool} (hsign : IsSign sign negative) {s t : Text}
    {l m : List ℕ} (hs : IsPlain s l) (ht : IsDigits t m)
    (hspace : ∀ c ∈ sign ++ (s ++ '.' :: t), isSpace c = false ∧ c ≠ '_') :
    Decimal.read (sign ++ (s ++ '.' :: t)) =
      (ifHeld ⟨negative, ofDigits (l ++ m), -m.length⟩).map .finite := by
  have hread := read_digits hsign hs.1 hs.2 ('.' :: t) hspace
  have hspan := spanDigits_append hs.1 ('.' :: t)
  have hspan' := spanDigits_append ht []
  have hpoint : spanDigits ('.' :: t) = ([], '.' :: t) := rfl
  rw [hpoint] at hspan
  simp only [List.append_nil, spanDigits] at hspan hspan'
  have hfinite : readFinite negative (s ++ '.' :: t) =
      ifHeld ⟨negative, ofDigits (l ++ m), -m.length⟩ := by
    simp only [readFinite, hspan, hspan', hs.2, false_and, if_false, readExponent,
      Option.bind_some]
    simp
  rw [hread, hfinite]

theorem not_space_plain {s : Text} {q : ℚ} (h : BaseNumber IsPlain s q) :
    ∀ c ∈ s, isSpace c = false ∧ c ≠ '_' := by
  intro c hc
  rcases mem_plain h hc with rfl | rfl | rfl | ⟨d, hd⟩
  · decide
  · decide
  · decide
  · refine ⟨(not_space_of_digit? hd).1, ?_⟩
    rintro rfl
    cases hd

/-- A plain number is read as the number that it denotes, if it can be held. -/
theorem read_plain {s : Text} {q : ℚ} (h : BaseNumber IsPlain s q) :
    Decimal.read s = none ∨ ∃ a, Decimal.read s = some (.finite a) ∧ a.toRat = q := by
  have hspace := not_space_plain h
  have hheld : ∀ a : Decimal, (ifHeld a).map Number.finite = none ∨
      ∃ b, (ifHeld a).map Number.finite = some (.finite b) ∧ b.toRat = a.toRat := by
    intro a
    unfold ifHeld
    split_ifs
    · exact Or.inr ⟨a, rfl, rfl⟩
    · exact Or.inl rfl
  cases h with
  | whole hsign hdigits =>
    rw [read_whole hsign hdigits.1 hdigits.2 hspace, valueOf, List.append_nil]
    exact hheld _
  | point hsign hdigits hdecimals hne =>
    rw [read_point hsign hdigits hdecimals hspace]
    exact hheld _

theorem spanDigits_ne_nil {s : Text} {q : ℚ} (h : fixedValue? s = some q) :
    (spanDigits (spanSign s).2).1 ≠ [] := by
  intro hnil
  unfold fixedValue? at h
  dsimp only at h
  rw [show spanDigits (spanSign s).2 = ([], (spanDigits (spanSign s).2).2) from
    Prod.ext hnil rfl] at h
  cases h

theorem spanSign_of_digits {s : Text} (h : (spanDigits s).1 ≠ []) : spanSign s = (false, s) := by
  unfold spanSign
  split
  · exact absurd rfl h
  · exact absurd rfl h
  · rfl

/-- A plus in front makes no difference. -/
theorem fixedValue?_removePlus {s : Text} {q : ℚ} (h : fixedValue? s = some q) :
    fixedValue? (removePlus s) = some q := by
  unfold removePlus
  split
  · rename_i rest
    have hsign : spanSign rest = (false, rest) := spanSign_of_digits (spanDigits_ne_nil h)
    rw [← h]
    unfold fixedValue?
    rw [hsign]
    rfl
  · exact h

/-! ### Normal forms -/

theorem removePlus_digits {s : Text} {l : List ℕ} (h : IsPlain s l) (rest : Text) :
    removePlus (s ++ rest) = s ++ rest := by
  unfold removePlus
  split
  · rename_i heq
    obtain ⟨hdigits, hne⟩ := h
    cases hdigits with
    | nil => exact absurd rfl hne
    | cons hd _ =>
      obtain ⟨rfl, -⟩ := List.cons.inj heq
      cases hd
  · rfl

/-- Without a plus in front, a plain number is the same number, and is read as the same. -/
theorem removePlus_plain {s : Text} {q : ℚ} (h : BaseNumber IsPlain s q) :
    BaseNumber IsPlain (removePlus s) q ∧ Decimal.read (removePlus s) = Decimal.read s ∧
      removePlus (removePlus s) = removePlus s ∧
      ∀ rest, removePlus (s ++ rest) = removePlus s ++ rest := by
  have hspace := not_space_plain h
  cases h with
  | @whole sign s negative l hsign hdigits =>
    have hkept := removePlus_digits hdigits
    have hkept' := hkept []
    rw [List.append_nil] at hkept'
    cases hsign with
    | plus =>
      have hread := read_whole .none hdigits.1 hdigits.2 fun c hc =>
        hspace c (List.mem_append_right _ hc)
      exact ⟨.whole .none hdigits, hread.trans (read_whole .plus hdigits.1 hdigits.2 hspace).symm,
        hkept', fun _ => rfl⟩
    | minus => exact ⟨.whole .minus hdigits, rfl, rfl, fun _ => rfl⟩
    | none =>
      rw [List.nil_append, hkept', hkept']
      exact ⟨.whole .none hdigits, rfl, rfl, hkept⟩
  | @point sign s t negative l m hsign hdigits hdecimals hne =>
    have hkept := fun rest => removePlus_digits hdigits ('.' :: t ++ rest)
    have hkept' := removePlus_digits hdigits ('.' :: t)
    cases hsign with
    | plus =>
      have hread := read_point .none hdigits hdecimals fun c hc =>
        hspace c (List.mem_append_right _ hc)
      exact ⟨.point .none hdigits hdecimals hne,
        hread.trans (read_point .plus hdigits hdecimals hspace).symm, hkept', fun _ => rfl⟩
    | minus => exact ⟨.point .minus hdigits hdecimals hne, rfl, rfl, fun _ => rfl⟩
    | none =>
      rw [List.nil_append, hkept', hkept']
      refine ⟨.point .none hdigits hdecimals hne, rfl, rfl, fun rest => ?_⟩
      rw [List.append_assoc, hkept]

/-- The normal form of a plain number denotes the same number. -/
theorem fixedValue?_normalizeUnscaled {s : Text} {q : ℚ} (h : BaseNumber IsPlain s q) :
    fixedValue? (normalizeUnscaled s) = some q := by
  have hplain := (removePlus_plain h).1
  unfold normalizeUnscaled
  rcases read_plain hplain with hread | ⟨a, hread, hvalue⟩
  · simp only [hread]
    exact fixedValue?_plain hplain
  · simp only [hread, formatNumber]
    rw [← hvalue]
    exact fixedValue?_removePlus (fixedValue?_plainText a)

/-- A number without a unit has no parts. -/
theorem scaledParts_plain {s : Text} {q : ℚ} (h : BaseNumber IsPlain s q) (n : ℕ) :
    scaledParts n s = none := by
  have hends : Ends [] := fun c hc => by cases hc
  have hspan := spanBaseNumber_plain h hends
  rw [List.append_nil] at hspan
  cases s with
  | nil => cases hspan
  | cons c rest =>
    cases n with
    | zero => rfl
    | succ n => simp [scaledParts, hspan, spanUnit]

theorem normalize_of_base {s : Text} {q : ℚ} (h : BaseNumber Grouped s q) :
    normalizeNumericLiteral s = .ok (normalizeUnscaled (compact s)) := by
  unfold normalizeNumericLiteral
  dsimp only
  rw [scaledParts_plain (compact_base h)]

/-- **A number without a unit** is normalised to a text that denotes it. -/
theorem normalize_base {s : Text} {q : ℚ} (h : BaseNumber Grouped s q) :
    ∃ t, normalizeNumericLiteral s = .ok t ∧ fixedValue? t = some q :=
  ⟨_, normalize_of_base h, fixedValue?_normalizeUnscaled (compact_base h)⟩

/-! ### Texts of numbers -/

/-- The value of a number that has one. -/
def numberValue : Number → Option ℚ
  | .finite a => some a.toRat
  | _ => none

/-- A text as `str` writes a number: ASCII without blanks and commas, that `Decimal` reads. -/
def IsNumeral (t : Text) (x : Number) : Prop :=
  Decimal.read t = some x ∧ ∀ c ∈ t, c.toNat < 128 ∧ isSpace c = false ∧ c ≠ ','

theorem dropWhile_subset {p : Char → Bool} (s : Text) : s.dropWhile p ⊆ s :=
  (List.dropWhile_suffix p).subset

theorem spanBaseNumber_subset {s number rest : Text} (h : spanBaseNumber s = some (number, rest)) :
    rest ⊆ s := by
  have hsign : (signPrefix s).2 ⊆ s := by
    unfold signPrefix
    split
    · exact List.subset_cons_self _ _
    · exact List.subset_cons_self _ _
    · exact List.Subset.refl _
  unfold spanBaseNumber at h
  dsimp only at h
  split_ifs at h
  have hdrop := dropWhile_subset (p := isDigit) (signPrefix s).2
  split at h
  · rename_i tail htail
    rw [htail] at hdrop
    split_ifs at h
    · obtain ⟨-, rfl⟩ := Prod.mk.inj (Option.some.inj h)
      rw [htail]
      exact List.Subset.trans hdrop hsign
    · obtain ⟨-, rfl⟩ := Prod.mk.inj (Option.some.inj h)
      exact List.Subset.trans (dropWhile_subset tail)
        (List.Subset.trans (List.subset_cons_self '.' tail) (List.Subset.trans hdrop hsign))
  · obtain ⟨-, rfl⟩ := Prod.mk.inj (Option.some.inj h)
    exact List.Subset.trans hdrop hsign

theorem spanUnit_ascii {s : Text} (h : ∀ c ∈ s, c.toNat < 128) : spanUnit s = none := by
  unfold spanUnit
  split
  · exact absurd (h '천' List.mem_cons_self) (by decide)
  · exact absurd (h '억' List.mem_cons_self) (by decide)
  · exact absurd (h '만' List.mem_cons_self) (by decide)
  · exact absurd (h '천' List.mem_cons_self) (by decide)
  · rfl

/-- ASCII text has no parts with units. -/
theorem scaledParts_ascii {s : Text} (h : ∀ c ∈ s, c.toNat < 128) (n : ℕ) (part : Text × KoreanUnit)
    (parts : List (Text × KoreanUnit)) : scaledParts n s ≠ some (part :: parts) := by
  intro hparts
  cases s with
  | nil => simp [scaledParts] at hparts
  | cons c s =>
    cases n with
    | zero => cases hparts
    | succ n =>
      simp only [scaledParts, Option.bind_eq_bind, Option.bind_eq_some_iff] at hparts
      obtain ⟨⟨number, rest⟩, hspan, ⟨unit, rest'⟩, hunit, -⟩ := hparts
      have hascii : ∀ c ∈ rest, c.toNat < 128 := fun c hc => h c (spanBaseNumber_subset hspan hc)
      rw [spanUnit_ascii hascii] at hunit
      cases hunit

/-- A plus in front of a number is not read. -/
theorem read_removePlus {t : Text} {x : Number} (h : Decimal.read t = some x)
    (hspace : ∀ c ∈ t, isSpace c = false) : Decimal.read (removePlus t) = some x := by
  unfold removePlus
  split
  · rename_i rest
    have hspace' : ∀ c ∈ rest, isSpace c = false := fun c hc => hspace c (List.mem_cons_of_mem _ hc)
    unfold Decimal.read at h ⊢
    rw [strip_eq_self hspace] at h
    rw [strip_eq_self hspace']
    have hfilter : ('+' :: rest).filter (· ≠ '_') = '+' :: rest.filter (· ≠ '_') :=
      List.filter_cons_of_pos (by decide)
    rw [hfilter] at h
    have hsign : spanSign (rest.filter (· ≠ '_')) = (false, rest.filter (· ≠ '_')) := by
      have hminus : digit? '-' = none := by decide
      have hplus : digit? '+' = none := by decide
      generalize rest.filter (· ≠ '_') = u at h
      -- two signs are not read
      unfold spanSign
      split
      · exact absurd h (by simp [spanSign, readFinite, spanDigits, hminus])
      · exact absurd h (by simp [spanSign, readFinite, spanDigits, hplus])
      · rfl
    rw [hsign]
    exact h
  · exact h

theorem fixedValue?_formatNumber (s : Text) (x : Number) :
    fixedValue? (formatNumber s x) = numberValue x := by
  have hword : ∀ (negative : Bool) (c : Char) (word : Text), digit? c = none → c ≠ '+' → c ≠ '-' →
      fixedValue? (signText negative ++ c :: word) = none := by
    intro negative c word hc hplus hminus
    have hspan : spanDigits (c :: word) = ([], c :: word) := by rw [spanDigits, hc]
    cases negative with
    | true => simp [fixedValue?, signText, spanSign, hspan]
    | false =>
      have hsign : spanSign (c :: word) = (false, c :: word) := by
        unfold spanSign
        split
        · rename_i heq
          exact absurd (List.cons.inj heq).1 hminus
        · rename_i heq
          exact absurd (List.cons.inj heq).1 hplus
        · rfl
      simp [fixedValue?, signText, hsign, hspan]
  cases x with
  | finite a => exact fixedValue?_removePlus (fixedValue?_plainText a)
  | infinite negative => exact hword negative 'I' _ (by decide) (by decide) (by decide)
  | nan =>
    simp only [formatNumber, nanText]
    split_ifs
    · exact hword _ 's' _ (by decide) (by decide) (by decide)
    · exact hword _ 'N' _ (by decide) (by decide) (by decide)

/-- **The text of a number** is normalised to a text that denotes the number, if it has a value. -/
theorem normalize_numeral {t : Text} {x : Number} (h : IsNumeral t x) :
    ∃ t', normalizeNumericLiteral t = .ok t' ∧ fixedValue? t' = numberValue x := by
  have hcompact : compact t = t := compact_eq_self fun c hc => (h.2 c hc).2
  have hread := read_removePlus h.1 fun c hc => (h.2 c hc).2.1
  refine ⟨formatNumber (removePlus t) x, ?_, fixedValue?_formatNumber _ x⟩
  unfold normalizeNumericLiteral
  rw [hcompact]
  dsimp only
  split
  · rename_i heq
    exact absurd heq (scaledParts_ascii (fun c hc => (h.2 c hc).1) _ _ _)
  · rw [normalizeUnscaled, hread]

/-! ### Numbers with units -/

/-- The parts of a number with units, with what each contributes. -/
def PartsOf (parts : List (Text × KoreanUnit)) (values : List ℚ) : Prop :=
  List.Forall₂ (fun part value => ∃ q, BaseNumber IsPlain part.1 q ∧ value = q * part.2.scale)
    parts values

theorem spanUnit_text (unit : KoreanUnit) {rest : Text} (h : rest.head? ≠ some '만') :
    spanUnit (unit.text ++ rest) = some (unit, rest) := by
  cases unit with
  | thousand =>
    cases rest with
    | nil => rfl
    | cons c rest =>
      have hc : c ≠ '만' := by simpa using h
      show spanUnit ('천' :: c :: rest) = _
      unfold spanUnit
      split
      · rename_i heq
        exact absurd (List.cons.inj (List.cons.inj heq).2).1 hc
      · rename_i heq
        exact absurd (List.cons.inj heq).1 (by decide)
      · rename_i heq
        exact absurd (List.cons.inj heq).1 (by decide)
      · rename_i heq
        rw [(List.cons.inj heq).2]
      · rename_i hno
        exact absurd rfl (hno _)
  | tenThousand => rfl
  | tenMillion => rfl
  | hundredMillion => rfl

theorem ends_unit (unit : KoreanUnit) (rest : Text) : Ends (unit.text ++ rest) := by
  intro c hc
  cases unit <;> obtain rfl := Option.some.inj hc <;> decide +kernel

theorem head_plain {s : Text} {q : ℚ} (h : BaseNumber IsPlain s q) (rest : Text) :
    (s ++ rest).head? ≠ some '만' := by
  intro hhead
  have hs : s ≠ [] := by
    rintro rfl
    have hvalue := fixedValue?_plain h
    cases hvalue
  obtain ⟨c, s', rfl⟩ := List.exists_cons_of_ne_nil hs
  obtain rfl : c = '만' := by simpa using hhead
  rcases mem_plain h List.mem_cons_self with hc | hc | hc | ⟨d, hd⟩
  · revert hc; decide
  · revert hc; decide
  · revert hc; decide
  · revert hd; decide +revert

/-- Parts, one behind the other. -/
def partsText : List (Text × KoreanUnit) → Text
  | [] => []
  | (number, unit) :: parts => number ++ (unit.text ++ partsText parts)

theorem head_partsText {parts : List (Text × KoreanUnit)} {values : List ℚ}
    (h : PartsOf parts values) : (partsText parts).head? ≠ some '만' := by
  cases h with
  | nil => simp [partsText]
  | cons hpart _ =>
    obtain ⟨q, hplain, -⟩ := hpart
    exact head_plain hplain _

/-- The parts of a number with units are found. -/
theorem scaledParts_partsText {parts : List (Text × KoreanUnit)} {values : List ℚ}
    (h : PartsOf parts values) (n : ℕ) (hn : (partsText parts).length ≤ n) :
    scaledParts n (partsText parts) = some parts := by
  induction h generalizing n with
  | nil => cases n <;> rfl
  | @cons part value parts values hpart hparts ih =>
    obtain ⟨number, unit⟩ := part
    obtain ⟨q, hplain, -⟩ := hpart
    have hspan := spanBaseNumber_plain hplain (ends_unit unit (partsText parts))
    have hpos : 0 < unit.text.length := by cases unit <;> decide
    simp only [partsText, List.length_append] at hn ⊢
    cases n with
    | zero => omega
    | succ n =>
      have hne : number ++ (unit.text ++ partsText parts) ≠ [] := by
        intro hnil
        have hlength := congrArg List.length hnil
        rw [List.length_append, List.length_append, List.length_nil] at hlength
        omega
      obtain ⟨c, t, ht⟩ := List.exists_cons_of_ne_nil hne
      rw [ht] at hspan ⊢
      have htail := ih n (by omega)
      simp only [scaledParts, hspan, spanUnit_text unit (head_partsText hparts), htail,
        Option.bind_eq_bind, Option.bind_some, Option.pure_def]

theorem compact_unit (unit : KoreanUnit) : compact unit.text = unit.text := by
  cases unit <;> decide +kernel

/-- A number with units is made of parts. -/
theorem exists_parts {s : Text} {q : ℚ} (h : ScaledLiteral s q) :
    ∃ parts values, parts ≠ [] ∧ PartsOf parts values ∧ values.sum = q ∧
      compact s = partsText parts := by
  induction h with
  | @last s blanks q hnumber hblank unit =>
    refine ⟨[(compact s, unit)], [q * unit.scale], by simp,
      .cons ⟨q, compact_base hnumber, rfl⟩ .nil, by simp, ?_⟩
    rw [compact_append, compact_append, compact_blanks hblank, compact_unit, List.nil_append,
      partsText,
      partsText, List.append_nil]
  | @part s blanks blanks' t q r hnumber hblank unit hblank' _ ih =>
    obtain ⟨parts, values, -, hparts, hsum, htext⟩ := ih
    refine ⟨(compact s, unit) :: parts, q * unit.scale :: values, by simp,
      .cons ⟨q, compact_base hnumber, rfl⟩ hparts, by simp [hsum], ?_⟩
    rw [compact_append, compact_append, compact_append, compact_append, compact_blanks hblank,
      compact_blanks hblank', compact_unit, htext, List.nil_append, List.nil_append, partsText]

/-- Every product and every partial sum fits the context. -/
def SumFits : ℚ → List ℚ → Prop
  | _, [] => True
  | sum, value :: values =>
      Fits context value ∧ Fits context (sum + value) ∧ SumFits (sum + value) values

/-- Sums that fit are not rounded. -/
theorem SumFits.roundedSum_eq {sum : ℚ} {values : List ℚ} (h : SumFits sum values) :
    context.roundedSum sum values = some (sum + values.sum) := by
  induction values generalizing sum with
  | nil => rw [Context.roundedSum, List.sum_nil, add_zero]
  | cons value values ih =>
    obtain ⟨hvalue, hsum, hrest⟩ := h
    obtain ⟨hvalue, hvalue'⟩ := rounded_of_fits hvalue
    obtain ⟨hsum, hsum'⟩ := rounded_of_fits hsum
    rw [Context.roundedSum, hvalue, hsum, if_neg (not_or.2 ⟨hvalue', hsum'⟩), ih hrest,
      List.sum_cons, add_assoc]

/-- **The sum of parts** that can be read is the sum of their values, every one and every sum
rounded; no sum becomes a zero with a minus. -/
theorem scaledSum_value {parts : List (Text × KoreanUnit)} {values : List ℚ}
    (h : PartsOf parts values) (hread : ∀ part ∈ parts, Decimal.read part.1 ≠ none)
    (sum : Decimal) :
    (∃ total, scaledSum sum parts = .ok (some total) ∧
        context.roundedSum sum.toRat values = some total.toRat ∧
        (context.etiny ≤ sum.exponent → ¬ IsZeroSign sum → ¬ IsZeroSign total)) ∨
      (∃ exception, scaledSum sum parts = .error exception) ∧
        context.roundedSum sum.toRat values = none := by
  induction h generalizing sum with
  | nil => exact Or.inl ⟨sum, rfl, rfl, fun _ hsign => hsign⟩
  | @cons part value parts values hpart _ ih =>
    obtain ⟨q, hplain, rfl⟩ := hpart
    have hunit : toRat ⟨false, part.2.scale, 0⟩ = part.2.scale := by simp [toRat, signed]
    rcases read_plain hplain with hnone | ⟨a, ha, rfl⟩
    · exact absurd hnone (hread _ List.mem_cons_self)
    have hmul := mul_value context a ⟨false, part.2.scale, 0⟩
    rw [hunit] at hmul
    rcases hmul with ⟨product, hmul, hproduct, hfits⟩ | ⟨hmul, hoverflow⟩
    · have hadd := add_value context sum product
      rw [hproduct] at hadd
      rcases hadd with ⟨next, hadd, hnext, hfits'⟩ | ⟨hadd, hoverflow⟩
      · have hstep : scaledSum sum (part :: parts) = scaledSum next parts := by
          simp only [scaledSum, ha, hmul, catchInvalid, hadd]
        rw [hstep, Context.roundedSum, if_neg (not_or.2 ⟨hfits, hfits'⟩), ← hnext]
        rcases ih (fun part' hpart' => hread part' (List.mem_cons_of_mem _ hpart')) next with
          ⟨total, htotal, hvalue, hsign⟩ | hfailed
        · refine Or.inl ⟨total, htotal, hvalue, fun hexponent hnonneg => ?_⟩
          exact hsign (exponent_of_finalize hadd)
            (not_isZeroSign_add hnonneg hexponent (exponent_of_finalize hmul) hadd)
        · exact Or.inr hfailed
      · rw [Context.roundedSum, if_pos (Or.inr hoverflow)]
        exact Or.inr ⟨⟨_, by simp only [scaledSum, ha, hmul, catchInvalid, hadd]; rfl⟩, rfl⟩
    · rw [Context.roundedSum, if_pos (Or.inl hoverflow)]
      exact Or.inr ⟨⟨_, by simp only [scaledSum, ha, hmul, catchInvalid]; rfl⟩, rfl⟩

/-- The normal form of a text is computed without rounding: every part with a unit can be read, and
every product and every sum has room in the arithmetic. -/
def Unrounded (s : Text) : Prop :=
  ∀ parts values, scaledParts (compact s).length (compact s) = some parts → PartsOf parts values →
    (∀ part ∈ parts, Decimal.read part.1 ≠ none) ∧ SumFits 0 values

/-- **A number with units** is normalised to a text that denotes it, if nothing is rounded. -/
theorem normalize_scaled {s : Text} {q : ℚ} (h : ScaledLiteral s q) (hunrounded : Unrounded s) :
    ∃ t, normalizeNumericLiteral s = .ok t ∧ fixedValue? t = some q := by
  obtain ⟨parts, values, hne, hparts, hsum, htext⟩ := exists_parts h
  have hfound := scaledParts_partsText hparts _ le_rfl
  rw [← htext] at hfound
  obtain ⟨hread, hfits⟩ := hunrounded parts values hfound hparts
  have hexact := hfits.roundedSum_eq
  rw [zero_add, hsum, ← toRat_zero] at hexact
  rcases scaledSum_value hparts hread Decimal.zero with ⟨total, htotal, hvalue, -⟩ | ⟨-, hnone⟩
  · rw [hexact, Option.some.injEq] at hvalue
    refine ⟨removePlus (plainText total), ?_, ?_⟩
    · obtain ⟨part, rest, rfl⟩ := List.exists_cons_of_ne_nil hne
      simp only [normalizeNumericLiteral, hfound, htotal]
    · rw [fixedValue?_removePlus (fixedValue?_plainText total), hvalue]
  · rw [hexact] at hnone
    cases hnone

/-- **A well-formed literal** is normalised to a text that denotes the same number, if nothing is
rounded. -/
theorem normalize_literal {s : Text} {q : ℚ} (h : LiteralOf s q) (hunrounded : Unrounded s) :
    ∃ t, normalizeNumericLiteral s = .ok t ∧ fixedValue? t = some q := by
  cases h with
  | base hnumber => exact normalize_base (hnumber.mono fun _ _ => IsWhole.grouped)
  | scaled hnumber => exact normalize_scaled hnumber.scaledLiteral hunrounded

/-- The characters of a well-formed literal. -/
theorem mem_base {s : Text} {q : ℚ} (h : BaseNumber IsWhole s q) {c : Char} (hc : c ∈ s) :
    isSpace c = false := by
  have hdigits : ∀ {s : Text} {l}, IsDigits s l → c ∈ s → isSpace c = false := by
    intro s l hs hmem
    induction hs with
    | nil => cases hmem
    | cons hd _ ih =>
      rcases List.mem_cons.1 hmem with rfl | hmem
      · exact (not_space_of_digit? hd).1
      · exact ih hmem
  have hwhole : ∀ {s : Text} {l}, IsWhole s l → c ∈ s → isSpace c = false := by
    intro s l hs hmem
    rcases hs with ⟨hs, -⟩ | hs
    · exact hdigits hs hmem
    · induction hs with
      | first hs _ _ => exact hdigits hs hmem
      | group _ hs _ ih =>
        rcases List.mem_append.1 hmem with hmem | hmem
        · exact ih hmem
        · rcases List.mem_cons.1 hmem with rfl | hmem
          · decide
          · exact hdigits hs hmem
  have hsign : ∀ {sign negative}, IsSign sign negative → c ∈ sign → isSpace c = false := by
    intro sign negative hs hmem
    cases hs with
    | plus =>
      obtain rfl := List.mem_singleton.1 hmem
      decide
    | minus =>
      obtain rfl := List.mem_singleton.1 hmem
      decide
    | none => cases hmem
  cases h with
  | whole hs hdigit =>
    rcases List.mem_append.1 hc with hc | hc
    · exact hsign hs hc
    · exact hwhole hdigit hc
  | point hs hdigit hdecimals _ =>
    rcases List.mem_append.1 hc with hc | hc
    · exact hsign hs hc
    · rcases List.mem_append.1 hc with hc | hc
      · exact hwhole hdigit hc
      · rcases List.mem_cons.1 hc with rfl | hc
        · decide
        · exact hdigits hdecimals hc

/-- A literal with a blank in it has a unit. -/
theorem exists_unit {s : Text} {q : ℚ} (h : LiteralOf s q) {c : Char} (hc : c ∈ s)
    (hspace : isSpace c = true) : ∃ unit : KoreanUnit, unit.text ⊆ s := by
  cases h with
  | base hnumber =>
    rw [mem_base hnumber hc] at hspace
    cases hspace
  | scaled hnumber =>
    cases hnumber with
    | last _ _ unit =>
      refine ⟨unit, fun d hd => ?_⟩
      simp [hd]
    | part _ _ unit _ _ =>
      refine ⟨unit, fun d hd => ?_⟩
      simp [hd]

end Answer
