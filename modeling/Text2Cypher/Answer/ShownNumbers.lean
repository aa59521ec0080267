import Text2Cypher.Answer.PythonFloats

/-!
# Values as they are shown

`_format_metric_value` reads every number, and every text that `float` accepts, as a float and
prints the float.  Codes that look like numbers change, and so do integers and decimal numbers with
more digits than a float holds.

* `formatMetricValue_eq`: what is shown of a value that is no price;
* **`meaningKept_iff`**: when it keeps the meaning of a grounded value.
-/

namespace Answer

open Binary64 Composition Decimal Python

section

variable {V : Type} [PyValue V] [PyStr V]

/-! ### Meaning -/

/-- The unit behind a number that counts something. -/
def shownUnit (label : String) (value : V) : String :=
  match asNumber binaryFloats value with
  | .ok (some _) => (countUnitLabels.lookup label).getD ""
  | _ => ""

/-- Two texts that denote the same number. -/
def SameNumber (s t : Text) : Prop :=
  ∃ x y, readExact s = some x ∧ readExact t = some y ∧
    (x = y ∨ ∃ a b : Decimal, x = .finite a ∧ y = .finite b ∧ a.toRat = b.toRat)

/-- What a grounded value has to be shown as: a text of the rows verbatim, any other text as the
same number, an integer as a literal of it, and a float as a literal that is read as the float. -/
def ShownAs (textValues : List String) (value : V) (plain : String) : Prop :=
  match PyValue.kind value with
  | .str s => if s ∈ textValues then plain = s else plain = s ∨ SameNumber plain.toList s.toList
  | .int n => ∃ a, readExact plain.toList = some (.finite a) ∧ a.toRat = n
  | .float x => readFloat plain.toList = some (binaryFloats.ofNumber x)
  | _ => True

/-- The value is formatted, and shown as it has to be, up to its unit. -/
def MeaningKept (textValues : List String) (label : String) (value : V) : Prop :=
  ∃ plain, formatMetricValue binaryFloats label value = .ok (plain ++ shownUnit label value) ∧
    ShownAs textValues value plain

/-- An integer with 53 binary digits that count, in the range of floats. -/
def DoubleInt (n : ℤ) : Prop := |n| < 2 ^ 1024 ∧ ∃ (m : ℤ) (k : ℕ), |m| < 2 ^ 53 ∧ n = m * 2 ^ k

/-- A text as Python prints a float: such an integer, or `str(x)` of a float that is none. -/
def FloatLiteral (s : String) : Prop :=
  (∃ n : ℤ, DoubleInt n ∧ s = toString n) ∨
    ∃ x, binaryFloats.isInteger x = false ∧ s = binaryFloats.text x

/-- A number that Python prints for a float: such an integer, or the shortest number that is read
as a float that is none. -/
def FloatNumber : Number → Prop
  | .finite a => (∃ n : ℤ, DoubleInt n ∧ a.toRat = n) ∨
      ∃ q, Representable q ∧ q.den ≠ 1 ∧ a.toRat = (shortest q).toRat
  | _ => True

/-- The values that a float keeps. -/
def KeptByFloat (textValues : List String) (value : V) : Prop :=
  match PyValue.kind value with
  | .str s => readExact s.toList = none ∨
      if s ∈ textValues then FloatLiteral s else ∀ x ∈ readExact s.toList, FloatNumber x
  | .int n => DoubleInt n
  | _ => True

/-! ### What is shown -/

theorem doubleInt_iff (n : ℤ) : DoubleInt n ↔ Representable n := (representable_int n).symm

/-- What is shown of a value that is no price: the float, or the text of the value. -/
theorem formatMetricValue_eq {label : String} (hlabel : label ∉ currencyLabels) (value : V) :
    formatMetricValue binaryFloats label value = match asNumber binaryFloats value with
      | .ok (some x) => .ok (floatText x ++ shownUnit label value)
      | .ok none => PyStr.str value
      | .error exception => .error exception := by
  unfold formatMetricValue shownUnit
  cases asNumber binaryFloats value with
  | error exception => rfl
  | ok number =>
    cases number with
    | none => rfl
    | some x => exact if_neg hlabel

/-- A value that is read as a float keeps its meaning just if the text of the float has it. -/
theorem meaningKept_float {textValues : List String} {label : String}
    (hlabel : label ∉ currencyLabels) {value : V} {x : Double}
    (hx : asNumber binaryFloats value = .ok (some x)) :
    MeaningKept textValues label value ↔ ShownAs textValues value (floatText x) := by
  unfold MeaningKept
  rw [formatMetricValue_eq hlabel, hx]
  constructor
  · rintro ⟨plain, htext, hshown⟩
    exact (String.append_left_inj _).1 (Except.ok.inj htext) ▸ hshown
  · exact fun hshown => ⟨_, rfl, hshown⟩

/-! ### Integers -/

/-- The double of an integer is an integer. -/
theorem exists_round_eq (n : ℤ) : ∃ k : ℤ, Binary64.round n = k := by
  unfold Binary64.round
  by_cases hplace : 0 ≤ lastPlace n
  · obtain ⟨k, hk⟩ := Int.eq_ofNat_of_zero_le hplace
    rw [hk]
    refine ⟨nearest (n / 2 ^ (k : ℤ)) * 2 ^ k, ?_⟩
    push_cast
    rw [zpow_natCast]
  · obtain ⟨k, hk⟩ := Int.eq_ofNat_of_zero_le (show 0 ≤ -lastPlace n by omega)
    have hscaled : (n : ℚ) / 2 ^ lastPlace n = ((n * 2 ^ k : ℤ) : ℚ) := by
      rw [show lastPlace n = -(k : ℤ) by omega, zpow_neg, div_inv_eq_mul, zpow_natCast]
      push_cast
      rfl
    rw [hscaled, nearest_intCast, ← hscaled]
    exact ⟨n, div_mul_cancel₀ _ (two_zpow_pos _).ne'⟩

theorem den_of_eq_int {q : ℚ} {n : ℤ} (h : q = n) : q.den = 1 := by
  rw [h, Rat.den_intCast]

/-- The text of a double, and the number that it denotes. -/
theorem readExact_floatText {q : ℚ} (h : Representable q) :
    ∃ a, readExact (floatText (.finite q h)).toList = some (.finite a) ∧
      a.toRat = if q.den = 1 then q else (shortest q).toRat := by
  unfold floatText
  by_cases hden : q.den = 1
  · obtain ⟨a, hread, hvalue⟩ := readExact_toString q.num
    refine ⟨a, ?_, ?_⟩
    · rw [if_pos (show binaryFloats.isInteger (.finite q h) = true from decide_eq_true hden)]
      exact hread
    · rw [if_pos hden, hvalue, num_of_den_eq_one hden]
  · obtain ⟨a, hread, hvalue⟩ := readExact_roundedText 16 (shortest q)
    refine ⟨a, ?_, ?_⟩
    · rw [if_neg (show ¬ binaryFloats.isInteger (.finite q h) = true by
        simpa [binaryFloats] using hden)]
      show readExact (String.ofList (roundedText 16 (shortest q))).toList = _
      rw [String.toList_ofList, hread]
    · rw [if_neg hden, hvalue]

/-- An integer is kept just if it is a double. -/
theorem meaningKept_int {textValues : List String} {label : String}
    (hlabel : label ∉ currencyLabels) {value : V} {n : ℤ} (hkind : PyValue.kind value = .int n) :
    MeaningKept textValues label value ↔ DoubleInt n := by
  have hasNumber : asNumber binaryFloats value = match binaryFloats.ofInt n with
      | some x => .ok (some x)
      | none => .error ⟨"OverflowError", "int too large to convert to float", none⟩ := by
    simp only [asNumber, hkind]
    cases binaryFloats.ofInt n <;> rfl
  rw [doubleInt_iff]
  by_cases hlarge : floatOverflow ≤ n.natAbs
  · have hoverflow := (binaryFloats.ofInt_eq_none n).2 hlarge
    rw [hoverflow] at hasNumber
    refine iff_of_false ?_ fun h => not_lt.2 hlarge ((abs_lt_overflow_iff n).1 h.lt_overflow)
    rintro ⟨plain, htext, -⟩
    rw [formatMetricValue_eq hlabel, hasNumber] at htext
    cases htext
  · have hlt := (abs_lt_overflow_iff n).2 (not_le.1 hlarge)
    have hfinite : ofRat n = .finite (Binary64.round n) (representable_round hlt) := dif_pos hlt
    have hdouble := (ofInt_of_lt hlt).trans (congrArg some hfinite)
    rw [hdouble] at hasNumber
    rw [meaningKept_float hlabel hasNumber, ShownAs, hkind]
    obtain ⟨k, hk⟩ := exists_round_eq n
    obtain ⟨a, hread, hvalue⟩ := readExact_floatText (representable_round hlt)
    rw [if_pos (den_of_eq_int hk)] at hvalue
    constructor
    · rintro ⟨b, hread', hvalue'⟩
      obtain rfl := Number.finite.inj (Option.some.inj (hread.symm.trans hread'))
      rw [← hvalue', hvalue]
      exact representable_round hlt
    · intro h
      exact ⟨a, hread, hvalue.trans (round_of_representable h)⟩

/-! ### Texts -/

theorem floatText_integer {n : ℤ} (h : Representable n) : floatText (.finite n h) = toString n := by
  unfold floatText
  rw [if_pos (show binaryFloats.isInteger (.finite n h) = true from
    decide_eq_true (Rat.den_intCast n))]
  exact congrArg toString (Rat.num_intCast n)

/-- A text of the rows is the text of its float just if it is a literal as Python prints it. -/
theorem floatText_eq_iff {s : String} {x : Double} (hx : readFloat s.toList = some x) :
    floatText x = s ↔ FloatLiteral s := by
  constructor
  · intro h
    by_cases hinteger : binaryFloats.isInteger x = true
    · left
      cases x with
      | finite q hq =>
        have hden : q.den = 1 := of_decide_eq_true hinteger
        refine ⟨q.num, (doubleInt_iff _).2 (num_of_den_eq_one hden ▸ hq), ?_⟩
        rw [← h, floatText, if_pos hinteger]
        rfl
      | infinite negative => cases hinteger
      | nan => cases hinteger
    · right
      refine ⟨x, Bool.eq_false_iff.2 hinteger, ?_⟩
      rw [← h, floatText, if_neg hinteger]
  · rintro (⟨n, hn, rfl⟩ | ⟨y, hy, rfl⟩)
    · have hrep := (doubleInt_iff n).1 hn
      have hread := readFloat_floatText (.finite n hrep)
      rw [floatText_integer hrep, hx] at hread
      rw [Option.some.inj hread, floatText_integer hrep]
    · have htext : floatText y = binaryFloats.text y := if_neg (by simp [hy])
      have hread := readFloat_floatText y
      rw [htext, hx] at hread
      rw [Option.some.inj hread, htext]

/-- Another text denotes the number of its float just if Python prints the number for a float. -/
theorem sameNumber_iff {s : String} {number : Number} (hnumber : readExact s.toList = some number) :
    SameNumber (floatText (Binary64.ofNumber number)).toList s.toList ↔ FloatNumber number := by
  cases number with
  | infinite negative =>
    refine iff_of_true ?_ trivial
    have hread : readExact (floatText (.infinite negative)).toList = some (.infinite negative) := by
      cases negative
      · decide +kernel
      · decide +kernel
    exact ⟨_, _, hread, hnumber, Or.inl rfl⟩
  | nan =>
    refine iff_of_true ?_ trivial
    have hread : readExact (floatText .nan).toList = some .nan := by decide +kernel
    exact ⟨_, _, hread, hnumber, Or.inl rfl⟩
  | finite b =>
    have hsame : ∀ {a : Decimal} {x : Double},
        readExact (floatText x).toList = some (.finite a) →
          (SameNumber (floatText x).toList s.toList ↔ a.toRat = b.toRat) := by
      intro a x hread
      constructor
      · rintro ⟨y, z, hy, hz, hyz⟩
        obtain rfl := Option.some.inj (hread.symm.trans hy)
        obtain rfl := Option.some.inj (hnumber.symm.trans hz)
        rcases hyz with hyz | ⟨a', b', ha, hb, hvalue⟩
        · rw [Number.finite.inj hyz]
        · rw [Number.finite.inj ha, Number.finite.inj hb, hvalue]
      · exact fun hvalue => ⟨_, _, hread, hnumber, Or.inr ⟨a, b, rfl, rfl, hvalue⟩⟩
    by_cases hlt : |b.toRat| < overflow
    · have hround := representable_round hlt
      have hdouble : Binary64.ofNumber (.finite b) = .finite (Binary64.round b.toRat) hround := by
        rw [Binary64.ofNumber, ofRat, dif_pos hlt]
      obtain ⟨a, hread, hvalue⟩ := readExact_floatText hround
      rw [hdouble, hsame hread, hvalue]
      constructor
      · intro heq
        by_cases hden : (Binary64.round b.toRat).den = 1
        · left
          rw [if_pos hden] at heq
          refine ⟨(Binary64.round b.toRat).num, ?_, heq.symm.trans (num_of_den_eq_one hden).symm⟩
          rw [doubleInt_iff, num_of_den_eq_one hden]
          exact hround
        · rw [if_neg hden] at heq
          exact Or.inr ⟨_, hround, hden, heq.symm⟩
      · rintro (⟨n, hn, hb⟩ | ⟨q, hq, hden, hb⟩)
        · have hrep : Representable b.toRat := by
            rw [hb]
            exact (doubleInt_iff n).1 hn
          rw [round_of_representable hrep, if_pos (den_of_eq_int hb)]
        · -- the double of a shortest number is the double that it is printed for
          have hback := ofRat_shortest hq
          rw [← hb, ofRat, dif_pos hlt] at hback
          have hq' : Binary64.round b.toRat = q := Double.finite.inj hback
          rw [hq', if_neg hden, hb]
    · have hinfinite : Binary64.ofNumber (.finite b) = .infinite (decide (b.toRat < 0)) := by
        rw [Binary64.ofNumber, ofRat, dif_neg hlt]
      refine iff_of_false ?_ ?_
      · have hread : ∀ negative, readExact (floatText (.infinite negative)).toList =
            some (.infinite negative) := by
          decide +kernel
        rw [hinfinite]
        rintro ⟨y, z, hy, hz, hyz⟩
        obtain rfl := Option.some.inj ((hread _).symm.trans hy)
        obtain rfl := Option.some.inj (hnumber.symm.trans hz)
        rcases hyz with hyz | ⟨a', b', ha, -⟩
        · cases hyz
        · cases ha
      · rintro (⟨n, hn, hb⟩ | ⟨q, hq, -, hb⟩)
        · have hrep : Representable b.toRat := by
            rw [hb]
            exact (doubleInt_iff n).1 hn
          exact hlt hrep.lt_overflow
        · exact hlt (hb ▸ (readsAs_shortestFrom hq 17 1).1)

/-- A text keeps its meaning just if no float is read from it, or the float prints it. -/
theorem meaningKept_str {textValues : List String} {label : String}
    (hlabel : label ∉ currencyLabels) {value : V} {s : String} (hkind : PyValue.kind value = .str s) :
    MeaningKept textValues label value ↔ readExact s.toList = none ∨
      if s ∈ textValues then FloatLiteral s else ∀ x ∈ readExact s.toList, FloatNumber x := by
  have hasNumber : asNumber binaryFloats value = .ok (readFloat s.toList) := by
    simp only [asNumber, hkind]
    rfl
  cases hread : readExact s.toList with
  | none =>
    have hfloat : readFloat s.toList = none := by
      rw [readFloat, hread]
      rfl
    rw [hfloat] at hasNumber
    refine iff_of_true ⟨s, ?_, ?_⟩ (Or.inl rfl)
    · rw [formatMetricValue_eq hlabel, shownUnit, hasNumber]
      exact (PyStr.str_text hkind).trans (congrArg Except.ok String.append_empty.symm)
    · rw [ShownAs, hkind]
      dsimp only
      split_ifs
      · rfl
      · exact Or.inl rfl
  | some number =>
    have hfloat : readFloat s.toList = some (Binary64.ofNumber number) := by
      rw [readFloat, hread, Option.map_some]
    rw [hfloat] at hasNumber
    rw [meaningKept_float hlabel hasNumber, ShownAs, hkind]
    dsimp only
    split_ifs with hmem
    · rw [floatText_eq_iff hfloat]
      exact (or_iff_right nofun).symm
    · constructor
      · intro h
        refine Or.inr fun x hx => ?_
        obtain rfl := Option.some.inj hx
        rcases h with heq | hsame
        · refine (sameNumber_iff hread).1 ⟨number, number, ?_, hread, Or.inl rfl⟩
          rw [heq, hread]
        · exact (sameNumber_iff hread).1 hsame
      · rintro (h | h)
        · cases h
        · exact Or.inr ((sameNumber_iff hread).2 (h number rfl))

/-- **A grounded value that is no price keeps its meaning exactly if** it is a float, an integer with
53 binary digits at most that count, a text that `float` does not accept, or one that Python prints
for a float; a text that stands for a number only has to denote one that Python prints. -/
theorem meaningKept_iff {textValues : List String} {numericLiterals : List Text} {label : String}
    {value : V} (hlabel : label ∉ currencyLabels)
    (hgrounded : metricIsGrounded value textValues numericLiterals = .ok true) :
    MeaningKept textValues label value ↔ KeptByFloat textValues value := by
  unfold metricIsGrounded at hgrounded
  unfold KeptByFloat
  cases hkind : PyValue.kind value with
  | int n => exact meaningKept_int hlabel hkind
  | str s => exact meaningKept_str hlabel hkind
  | float x =>
    have hasNumber : asNumber binaryFloats value = .ok (some (binaryFloats.ofNumber x)) := by
      simp only [asNumber, hkind]
    rw [meaningKept_float hlabel hasNumber, ShownAs, hkind]
    exact iff_of_true (readFloat_floatText _) trivial
  | none => rw [hkind] at hgrounded; cases hgrounded
  | bool b => rw [hkind] at hgrounded; cases hgrounded
  | decimal x => rw [hkind] at hgrounded; cases hgrounded
  | list items => rw [hkind] at hgrounded; cases hgrounded
  | dict fields => rw [hkind] at hgrounded; cases hgrounded
  | other => rw [hkind] at hgrounded; cases hgrounded

end

/-- The number of a product is shown as it is. -/
theorem meaningKept_productNumber :
    MeaningKept ["BK-R93R-62"] "제품번호" (Cell.mk (.str "BK-R93R-62")) :=
  (meaningKept_iff (by decide +kernel)
    (show metricIsGrounded _ _ [] = .ok true by rfl)).2
    (Or.inl (by decide +kernel))

/-- A code with leading zeros is shown without them. -/
theorem not_meaningKept_code :
    metricIsGrounded (Cell.mk (.str "007")) ["007"] [] = .ok true ∧
      ¬ MeaningKept ["007"] "제품번호" (Cell.mk (.str "007")) := by
  refine ⟨by rfl, ?_⟩
  have hseven : Representable ((7 : ℤ) : ℚ) := by
    refine (representable_int 7).2 ⟨?_, 7, 0, by norm_num, by norm_num⟩
    exact lt_of_lt_of_le (by norm_num : |(7 : ℤ)| < 2 ^ 3)
      (pow_le_pow_right₀ (by norm_num) (by omega))
  have hread : readExact "007".toList = some (.finite ⟨false, 7, 0⟩) := by decide +kernel
  have hvalue : toRat ⟨false, 7, 0⟩ = ((7 : ℤ) : ℚ) := by norm_num [toRat, signed]
  have hasNumber : asNumber binaryFloats (Cell.mk (.str "007")) =
      .ok (some (.finite ((7 : ℤ) : ℚ) hseven)) := by
    have hfloat : readFloat "007".toList = some (.finite ((7 : ℤ) : ℚ) hseven) := by
      rw [readFloat, hread, Option.map_some, Binary64.ofNumber, hvalue,
        ofRat_of_representable hseven]
    exact congrArg Except.ok hfloat
  rw [meaningKept_float (by decide +kernel) hasNumber, floatText_integer]
  intro h
  have hequal : toString (7 : ℤ) = "007" := h
  exact absurd hequal (by decide +kernel)

end Answer
