import Text2Cypher.Answer.Literals

/-!
# Faithful normal forms

When two numeric literals have one normal form exactly if they denote one number.

* `normalize_idem`: a normal form is its own normal form, for every literal;
* `Exact`: the literals that the arithmetic has room for, other than a zero with a minus;
* **`normalize_eq_ok_iff`**: these are the literals whose normal form is the text of their number;
* **`normalForm_faithful_iff`**: among them normal forms are faithful, and no other literal can be
  added.

A zero with a minus keeps it if there is no unit, a sum of parts is rounded to 28 digits, and one
that is too large for the arithmetic raises what is not caught.
-/

namespace Answer

open Composition Decimal Python

/-! ### The text of a number -/

theorem plain_of_fixedValue? {t : Text} {q : ℚ} (h : fixedValue? t = some q) :
    BaseNumber IsPlain t q := by
  obtain ⟨sign, negative, whole, l, hsign, hwhole, hl, hparts⟩ := exists_parts_of_fixedValue? h
  rcases hparts with ⟨rfl, rfl⟩ | ⟨fraction, m, hfraction, hm, rfl, rfl⟩
  · exact .whole hsign ⟨hwhole, hl⟩
  · exact .point hsign ⟨hwhole, hl⟩ hfraction hm

theorem plain_plainText (a : Decimal) : BaseNumber IsPlain (plainText a) a.toRat :=
  plain_of_fixedValue? (fixedValue?_plainText a)

theorem grouped_of_plain {t : Text} {q : ℚ} (h : BaseNumber IsPlain t q) : BaseNumber Grouped t q :=
  h.mono fun _ _ hdigits => .digits hdigits.1 hdigits.2

theorem compact_plain {t : Text} {q : ℚ} (h : BaseNumber IsPlain t q) : compact t = t := by
  refine compact_eq_self fun c hc => ?_
  rcases mem_plain h hc with rfl | rfl | rfl | ⟨d, hd⟩
  · decide
  · decide
  · decide
  · exact not_space_of_digit? hd

/-- No number is written with a plus. -/
theorem removePlus_plainText (a : Decimal) : removePlus (plainText a) = plainText a := by
  have hdigits : ∀ {s : Text} {l : List ℕ}, IsDigits s l → '+' ∉ s := by
    intro s l hs
    induction hs with
    | nil => exact List.not_mem_nil
    | cons hd _ ih =>
      rintro (_ | ⟨_, hmem⟩)
      · cases hd
      · exact ih hmem
  have hsign : '+' ∉ signText a.negative := by cases a.negative <;> decide
  have hfixed : '+' ∉ fixedText a := by
    by_cases he : 0 ≤ a.exponent
    · obtain ⟨l, hl, -⟩ := exists_isDigits_toDigits
        (if a.coefficient = 0 then 0 else a.coefficient * 10 ^ a.exponent.toNat)
      rw [fixedText, if_pos he, List.mem_append]
      exact not_or.2 ⟨hsign, hdigits hl⟩
    · obtain ⟨whole, fraction, l, m, hwhole, hfraction, -, -, -, htext⟩ := exists_fixedText he
      rw [htext, List.mem_append, List.mem_append, List.mem_cons]
      exact not_or.2 ⟨hsign, not_or.2 ⟨hdigits hwhole, not_or.2 ⟨by decide, hdigits hfraction⟩⟩⟩
  have hstrip : ∀ (c : Char) (s : Text), '+' ∉ s → '+' ∉ rstrip c s := by
    intro c s hs hmem
    exact hs (List.mem_reverse.1 ((List.dropWhile_suffix _).subset (List.mem_reverse.1 hmem)))
  have hplain : '+' ∉ plainText a := by
    unfold plainText
    split_ifs
    · exact hstrip _ _ (hstrip _ _ hfixed)
    · exact hfixed
  unfold removePlus
  split
  · rename_i heq
    exact absurd (heq ▸ List.mem_cons_self) hplain
  · rfl

/-! ### Numbers without a unit -/

/-- What a number without a unit is normalised to. -/
theorem normalizeUnscaled_cases {s : Text} {q : ℚ} (h : BaseNumber IsPlain s q) :
    Decimal.read (removePlus s) = none ∧ normalizeUnscaled s = removePlus s ∨
      ∃ a, Decimal.read (removePlus s) = some (.finite a) ∧ a.toRat = q ∧
        normalizeUnscaled s = plainText a := by
  unfold normalizeUnscaled
  rcases read_plain (removePlus_plain h).1 with hread | ⟨a, hread, hvalue⟩
  · exact Or.inl ⟨hread, by simp only [hread]⟩
  · exact Or.inr ⟨a, hread, hvalue, by simp only [hread, formatNumber, removePlus_plainText]⟩

/-- The text of a number is its own normal form. -/
theorem normalize_plainText (a : Decimal) :
    normalizeNumericLiteral (plainText a) = .ok (plainText a) := by
  have hplain := plain_plainText a
  by_cases hsign : IsZeroSign a
  · rw [plainText_of_isZeroSign hsign]
    decide +kernel
  by_cases hzero : a.toRat = 0
  · rw [plainText_of_toRat_eq_zero hzero hsign]
    decide +kernel
  rw [normalize_of_base (grouped_of_plain hplain), compact_plain hplain]
  rcases normalizeUnscaled_cases hplain with ⟨-, hkept⟩ | ⟨b, -, hvalue, htext⟩
  · rw [hkept, removePlus_plainText]
  · have hsign' : ¬ IsZeroSign b := not_isZeroSign_of_ne (hvalue ▸ hzero)
    rw [htext, (plainText_eq_iff hsign).2 ⟨hvalue, hsign'⟩]

/-! ### Numbers with units -/

/-- What a part with a unit contributes. -/
def partValue (part : Text × KoreanUnit) : ℚ := (fixedValue? part.1).getD 0 * part.2.scale

theorem PartsOf.eq_map {parts : List (Text × KoreanUnit)} {values : List ℚ}
    (h : PartsOf parts values) : values = parts.map partValue := by
  induction h with
  | nil => rfl
  | cons hpart _ ih =>
    obtain ⟨q, hplain, rfl⟩ := hpart
    rw [List.map_cons, partValue, fixedValue?_plain hplain, Option.getD_some, ih]

/-- A part that cannot be read ends the sum. -/
theorem scaledSum_unread {parts : List (Text × KoreanUnit)}
    (h : ∃ part ∈ parts, Decimal.read part.1 = none) (sum : Decimal) :
    scaledSum sum parts = .ok none ∨ ∃ exception, scaledSum sum parts = .error exception := by
  induction parts generalizing sum with
  | nil =>
    obtain ⟨part, hmem, -⟩ := h
    cases hmem
  | cons first parts ih =>
    rw [scaledSum]
    split
    · rename_i value hvalue
      have hrest : ∃ part ∈ parts, Decimal.read part.1 = none := by
        obtain ⟨part, hmem, hnone⟩ := h
        rcases List.mem_cons.1 hmem with rfl | hmem
        · rw [hvalue] at hnone
          cases hnone
        · exact ⟨part, hmem, hnone⟩
      split
      · exact Or.inr ⟨_, rfl⟩
      · exact Or.inl rfl
      · split
        · exact Or.inr ⟨_, rfl⟩
        · exact Or.inl rfl
        · exact ih hrest _
    · exact Or.inl rfl

/-- Units are letters. -/
theorem unit_letters (unit : KoreanUnit) : ∀ c ∈ unit.text,
    isSpace c = false ∧ c ≠ ',' ∧ c ≠ '+' ∧ c ≠ '-' ∧ c ≠ '.' ∧ digit? c = none := by
  cases unit <;> simp only [KoreanUnit.text, List.forall_mem_cons, List.not_mem_nil, false_imp_iff,
    implies_true, and_true] <;> decide +kernel

/-- A literal with units keeps one without its blanks. -/
theorem exists_unit_compact {s : Text} {q : ℚ} (h : ScaledLiteral s q) :
    ∃ unit : KoreanUnit, unit.text ⊆ compact s := by
  have hkept : ∀ (unit : KoreanUnit) {c : Char}, c ∈ unit.text → c ∈ s → c ∈ compact s := by
    intro unit c hc hmem
    obtain ⟨hspace, hcomma, -⟩ := unit_letters unit c hc
    refine List.mem_filter.2 ⟨List.mem_filter.2 ⟨hmem, ?_⟩, ?_⟩
    · simp [hspace]
    · simpa using hcomma
  cases h with
  | last _ _ unit => exact ⟨unit, fun c hc => hkept unit hc (by simp [hc])⟩
  | part _ _ unit _ _ => exact ⟨unit, fun c hc => hkept unit hc (by simp [hc])⟩

/-- A literal with units is not the text of a number. -/
theorem compact_ne_plainText {s : Text} {q : ℚ} (h : ScaledLiteral s q) (a : Decimal) :
    removePlus (compact s) ≠ plainText a := by
  intro heq
  obtain ⟨unit, hunit⟩ := exists_unit_compact h
  obtain ⟨c, hc⟩ := List.exists_mem_of_ne_nil unit.text (by cases unit <;> decide)
  obtain ⟨-, -, hplus, hminus, hpoint, hdigit⟩ := unit_letters unit c hc
  have hmem : c ∈ removePlus (compact s) := by
    unfold removePlus
    split
    · rename_i rest hrest
      have hmem := hunit hc
      rw [hrest] at hmem
      exact (List.mem_cons.1 hmem).resolve_left hplus
    · exact hunit hc
  rw [heq] at hmem
  rcases mem_plain (plain_plainText a) hmem with heq | heq | heq | ⟨d, hd⟩
  · exact hplus heq
  · exact hminus heq
  · exact hpoint heq
  · rw [hdigit] at hd
    cases hd

/-- What a literal with units is normalised to. -/
theorem normalize_of_parts {s : Text} {part : Text × KoreanUnit} {parts : List (Text × KoreanUnit)}
    (h : scaledParts (compact s).length (compact s) = some (part :: parts)) :
    normalizeNumericLiteral s =
      match scaledSum Decimal.zero (part :: parts) with
      | .error exception => .error exception
      | .ok none => .ok (removePlus (compact s))
      | .ok (some sum) => .ok (plainText sum) := by
  rcases hsum : scaledSum Decimal.zero (part :: parts) with exception | _ | sum <;>
    simp only [normalizeNumericLiteral, h, hsum, removePlus_plainText]

/-! ### Literals that are normalised exactly -/

/-- The text is written as numbers are, without a plus and without zeros that could be left out. -/
def IsNormal (t : Text) : Prop := ∃ a : Decimal, ¬ IsZeroSign a ∧ t = plainText a

/-- **The literals that the arithmetic has room for**, other than a zero with a minus.  Parts with
units can be read, none of the sums is too large, and the roundings of the products and the sums
leave the sum of the parts as it is.  A number without a unit that is too long to be read is written
as numbers are. -/
def Exact (s : Text) : Prop :=
  match scaledParts (compact s).length (compact s) with
  | some (part :: parts) =>
      (∀ p ∈ part :: parts, Decimal.read p.1 ≠ none) ∧
        context.roundedSum 0 ((part :: parts).map partValue) =
          some ((part :: parts).map partValue).sum
  | _ =>
      match Decimal.read (removePlus (compact s)) with
      | some (.finite a) => ¬ IsZeroSign a
      | _ => IsNormal (removePlus (compact s))

/-- **Exactness** is that the normal form is the text of the number. -/
theorem normalize_eq_ok_iff {s : Text} {a : Decimal} (h : NumericLiteral s a.toRat)
    (hsign : ¬ IsZeroSign a) : normalizeNumericLiteral s = .ok (plainText a) ↔ Exact s := by
  generalize hq : a.toRat = q at h
  cases h with
  | base hnumber =>
    have hplain := compact_base hnumber
    rw [normalize_of_base hnumber, Except.ok.injEq, Exact, scaledParts_plain hplain]
    rcases normalizeUnscaled_cases hplain with ⟨hread, hkept⟩ | ⟨b, hread, hvalue, htext⟩
    · simp only [hread, hkept]
      constructor
      · intro heq
        exact ⟨a, hsign, heq⟩
      · rintro ⟨b, hsign', heq⟩
        have hvalue := fixedValue?_plain (removePlus_plain hplain).1
        rw [heq, fixedValue?_plainText, Option.some.injEq, ← hq] at hvalue
        rw [heq, (plainText_eq_iff hsign).2 ⟨hvalue, hsign'⟩]
    · simp only [hread, htext]
      rw [plainText_eq_iff hsign, and_iff_right (hvalue.trans hq.symm)]
  | scaled hnumber =>
    obtain ⟨parts, values, hne, hparts, hsum, htext⟩ := exists_parts hnumber
    obtain ⟨part, rest, rfl⟩ := List.exists_cons_of_ne_nil hne
    have hfound := scaledParts_partsText hparts _ le_rfl
    rw [← htext] at hfound
    have hnormal := normalize_of_parts hfound
    simp only [Exact, hfound]
    rw [← hparts.eq_map, hsum]
    by_cases hread : ∀ p ∈ part :: rest, Decimal.read p.1 ≠ none
    · rw [and_iff_right hread]
      rcases scaledSum_value hparts hread Decimal.zero with ⟨total, htotal, hvalue, hnonneg⟩ |
        ⟨⟨exception, herror⟩, hnone⟩
      · rw [toRat_zero] at hvalue
        have hsign' : ¬ IsZeroSign total := hnonneg (by decide) (by decide)
        rw [hnormal, htotal, hvalue, Except.ok.injEq, plainText_eq_iff hsign,
          and_iff_left hsign', hq, Option.some.injEq]
      · rw [toRat_zero] at hnone
        rw [hnormal, herror, hnone]
        simp
    · rw [iff_false_right fun hexact => hread hexact.1]
      push Not at hread
      rcases scaledSum_unread hread Decimal.zero with hnone | ⟨exception, herror⟩
      · rw [hnormal, hnone, Except.ok.injEq]
        exact compact_ne_plainText hnumber a
      · rw [hnormal, herror]
        simp

theorem Unrounded.exact {s : Text} {q : ℚ} (h : ScaledLiteral s q) (hunrounded : Unrounded s) :
    Exact s := by
  obtain ⟨parts, values, hne, hparts, -, htext⟩ := exists_parts h
  obtain ⟨part, rest, rfl⟩ := List.exists_cons_of_ne_nil hne
  have hfound := scaledParts_partsText hparts _ le_rfl
  rw [← htext] at hfound
  obtain ⟨hread, hfits⟩ := hunrounded _ _ hfound hparts
  simp only [Exact, hfound]
  rw [← hparts.eq_map, hfits.roundedSum_eq, zero_add]
  exact ⟨hread, rfl⟩

/-! ### Normal forms of normal forms -/

theorem compact_partsText {parts : List (Text × KoreanUnit)} {values : List ℚ}
    (h : PartsOf parts values) : compact (partsText parts) = partsText parts := by
  induction h with
  | nil => rfl
  | @cons part value parts values hpart _ ih =>
    obtain ⟨q, hplain, -⟩ := hpart
    rw [partsText, compact_append, compact_append, compact_plain hplain, compact_unit, ih]

/-- **A normal form is its own normal form**, for every literal that has one. -/
theorem normalize_idem {s t : Text} {q : ℚ} (h : NumericLiteral s q)
    (hnormal : normalizeNumericLiteral s = .ok t) : normalizeNumericLiteral t = .ok t := by
  cases h with
  | base hnumber =>
    rw [normalize_of_base hnumber, Except.ok.injEq] at hnormal
    rcases normalizeUnscaled_cases (compact_base hnumber) with ⟨hread, hkept⟩ | ⟨a, -, -, htext⟩
    · obtain ⟨hplain, -, htwice, -⟩ := removePlus_plain (compact_base hnumber)
      rw [hkept] at hnormal
      rw [hnormal] at hplain hread htwice
      rw [normalize_of_base (grouped_of_plain hplain), compact_plain hplain]
      rcases normalizeUnscaled_cases hplain with ⟨-, hkept⟩ | ⟨a, hread', -⟩
      · rw [hkept, htwice]
      · rw [htwice, hread] at hread'
        cases hread'
    · rw [← hnormal, htext, normalize_plainText]
  | scaled hnumber =>
    obtain ⟨parts, values, hne, hparts, -, htext⟩ := exists_parts hnumber
    obtain ⟨⟨number, unit⟩, rest, rfl⟩ := List.exists_cons_of_ne_nil hne
    have hfound := scaledParts_partsText hparts _ le_rfl
    rw [← htext] at hfound
    rw [normalize_of_parts hfound] at hnormal
    split at hnormal
    · cases hnormal
    · rename_i hnone
      cases hparts with
      | @cons _ value _ values hpart hrest =>
        -- the text that is kept has the same parts, without a plus in front
        obtain ⟨r, hplain, hvalue⟩ := hpart
        obtain ⟨hplain', hread, htwice, hfront⟩ := removePlus_plain hplain
        have hparts' : PartsOf ((removePlus number, unit) :: rest) (value :: values) :=
          .cons ⟨r, hplain', hvalue⟩ hrest
        have ht : t = partsText ((removePlus number, unit) :: rest) := by
          rw [← Except.ok.inj hnormal, htext, partsText, hfront, partsText]
        have hcompact := compact_partsText hparts'
        have hfound' := scaledParts_partsText hparts' _ le_rfl
        rw [← ht] at hcompact hfound'
        have hsum : scaledSum Decimal.zero ((removePlus number, unit) :: rest) = .ok none := by
          rw [← hnone, scaledSum, hread, scaledSum]
        rw [← hcompact] at hfound'
        rw [normalize_of_parts hfound', hsum, hcompact, ht, partsText]
        exact congrArg Except.ok ((removePlus_plain hplain').2.2.2 _ |>.trans (by rw [htwice]))
    · rename_i sum hsum
      rw [← Except.ok.inj hnormal, normalize_plainText]

/-! ### Faithfulness -/

/-- Every literal denotes what some number that is no zero with a minus is. -/
theorem exists_decimal {s : Text} {q : ℚ} (h : NumericLiteral s q) :
    ∃ a : Decimal, a.toRat = q ∧ ¬ IsZeroSign a := by
  have hbase : ∀ {s : Text} {q : ℚ}, BaseNumber Grouped s q → ∃ a : Decimal, a.toRat = q := by
    intro s q hnumber
    cases hnumber with
    | whole => exact ⟨_, rfl⟩
    | point => exact ⟨_, rfl⟩
  have hpart : ∀ {s : Text} {q : ℚ} (unit : KoreanUnit), BaseNumber Grouped s q →
      ∃ a : Decimal, a.toRat = q * unit.scale := by
    intro s q unit hnumber
    obtain ⟨a, rfl⟩ := hbase hnumber
    refine ⟨_, (toRat_product a ⟨false, unit.scale, 0⟩).trans ?_⟩
    simp [toRat, signed]
  have hvalue : ∃ a : Decimal, a.toRat = q := by
    cases h with
    | base hnumber => exact hbase hnumber
    | scaled hnumber =>
      induction hnumber with
      | last hnumber _ unit => exact hpart unit hnumber
      | part hnumber _ unit _ _ ih =>
        obtain ⟨a, ha⟩ := hpart unit hnumber
        obtain ⟨b, hb⟩ := ih
        exact ⟨exactSum a b, by rw [toRat_exactSum, ha, hb]⟩
  obtain ⟨a, rfl⟩ := hvalue
  by_cases hzero : a.toRat = 0
  · exact ⟨Decimal.zero, by rw [toRat_zero, hzero], by decide⟩
  · exact ⟨a, rfl, not_isZeroSign_of_ne hzero⟩

/-- **Faithful normal forms**: a literal has a normal form, which is its own one and which it shares
with the exact literals of the same number and no others, exactly if it is exact itself. -/
theorem normalForm_faithful_iff {s : Text} {q : ℚ} (h : NumericLiteral s q) :
    ((∃ t, normalizeNumericLiteral s = .ok t ∧ normalizeNumericLiteral t = .ok t) ∧
        ∀ s' q', NumericLiteral s' q' → Exact s' →
          (normalizeNumericLiteral s = normalizeNumericLiteral s' ↔ q = q')) ↔
      Exact s := by
  obtain ⟨a, rfl, hsign⟩ := exists_decimal h
  have hexact := normalize_eq_ok_iff h hsign
  constructor
  · rintro ⟨-, hfaithful⟩
    -- the text of the number is an exact literal of the same number
    have hliteral : NumericLiteral (plainText a) a.toRat :=
      .base (grouped_of_plain (plain_plainText a))
    have hnormal := normalize_plainText a
    have hexact' := (normalize_eq_ok_iff hliteral hsign).1 hnormal
    rw [← hexact, (hfaithful _ _ hliteral hexact').2 rfl, hnormal]
  · intro hs
    have hnormal := hexact.2 hs
    refine ⟨⟨_, hnormal, normalize_plainText a⟩, fun s' q' h' hs' => ?_⟩
    obtain ⟨b, rfl, hsign'⟩ := exists_decimal h'
    rw [hnormal, (normalize_eq_ok_iff h' hsign').2 hs', Except.ok.injEq, plainText_eq_iff hsign',
      and_iff_left hsign]

/-- A digit is a number. -/
theorem grouped_digit {c : Char} {d : ℕ} (hdigit : digit? c = some d) :
    BaseNumber Grouped [c] d := by
  have hvalue : valueOf false [d] [] = d := by simp [valueOf, toRat, signed, ofDigits]
  rw [← hvalue]
  exact .whole .none (.digits (.cons hdigit .nil) (by simp))

theorem normalForm_faithful_iff_units :
    (∃ t, normalizeNumericLiteral "3억 5천만".toList = .ok t ∧ normalizeNumericLiteral t = .ok t) ∧
      ∀ s' q', NumericLiteral s' q' → Exact s' →
        (normalizeNumericLiteral "3억 5천만".toList = normalizeNumericLiteral s' ↔
          350000000 = q') := by
  have hlast := ScaledLiteral.last (grouped_digit (show digit? '5' = some 5 from rfl))
    (show ∀ c ∈ [], isSpace c = true by simp) .tenMillion
  have hliteral := ScaledLiteral.part (grouped_digit (show digit? '3' = some 3 from rfl))
    (show ∀ c ∈ [], isSpace c = true by simp) .hundredMillion
    (List.forall_mem_singleton.2 (show isSpace ' ' = true from rfl)) hlast
  have hvalue : ((3 : ℕ) : ℚ) * (KoreanUnit.hundredMillion.scale : ℕ) +
      ((5 : ℕ) : ℚ) * (KoreanUnit.tenMillion.scale : ℕ) = toRat ⟨false, 350000000, 0⟩ := by
    norm_num [KoreanUnit.scale, toRat, signed]
  have hq : toRat ⟨false, 350000000, 0⟩ = 350000000 := by norm_num [toRat, signed]
  rw [hvalue] at hliteral
  have hexact := (normalize_eq_ok_iff (.scaled hliteral) (by decide)).1 (by decide +kernel)
  rw [hq] at hliteral
  exact (normalForm_faithful_iff (.scaled hliteral)).2 hexact

/-- A zero with a minus keeps it. -/
theorem not_normalForm_faithful_minus :
    ¬ ∀ s s' q q', NumericLiteral s q → NumericLiteral s' q' →
      (normalizeNumericLiteral s = normalizeNumericLiteral s' ↔ q = q') := by
  intro h
  have hzero : BaseNumber Grouped "0".toList 0 := by
    simpa using grouped_digit (show digit? '0' = some 0 from rfl)
  have hminus : BaseNumber Grouped "-0".toList 0 := by
    have hvalue : valueOf true [0] [] = 0 := by simp [valueOf, toRat, signed, ofDigits]
    rw [← hvalue]
    exact .whole .minus (.digits (.cons rfl .nil) (by simp))
  have hsame := (h _ _ 0 0 (.base hminus) (.base hzero)).2 rfl
  revert hsame
  decide +kernel

/-- Parts are rounded to 28 digits. -/
example : normalizeNumericLiteral "12345678901234567890123456789천".toList =
    .ok "12345678901234567890123456790000".toList := by decide +kernel

end Answer
