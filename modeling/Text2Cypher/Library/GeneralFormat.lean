import Mathlib.Data.List.TakeWhile
import Text2Cypher.Library.DecimalFormat

/-!
# Decimal numbers in general notation

`round(x, n)` rounds to a number of places, and `format(x, "g")` to a number of significant digits;
it writes large and small numbers with an exponent.

* `abs_toRat_roundPlaces_sub_le`, `abs_toRat_significant_sub_le`: how far rounding goes;
* `generalValue?_generalText`: what is written is read back as the rounded number.
-/

namespace Decimal

open Python

/-! ### Rounding -/

theorem roundHalfEven_error (n : ℕ) {d : ℕ} (hd : 0 < d) :
    2 * n ≤ 2 * (roundHalfEven n d * d) + d ∧ 2 * (roundHalfEven n d * d) ≤ 2 * n + d := by
  have hdiv : d * (n / d) + n % d = n := Nat.div_add_mod n d
  have hmod : n % d < d := Nat.mod_lt n hd
  rw [mul_comm] at hdiv
  unfold roundHalfEven
  split_ifs with hlow hhigh
  · constructor <;> omega
  · rw [add_mul, one_mul]
    constructor <;> omega
  · -- a tie, to either side
    rcases Nat.mod_two_eq_zero_or_one (n / d) with h | h
    · rw [h, add_zero]
      constructor <;> omega
    · rw [h, add_mul, one_mul]
      constructor <;> omega

/-- Rounding a quotient, as a rational number. -/
theorem abs_roundHalfEven_sub_le (n : ℕ) {d : ℕ} (hd : 0 < d) :
    |(roundHalfEven n d : ℚ) - n / d| ≤ 1 / 2 := by
  obtain ⟨hlow, hhigh⟩ := roundHalfEven_error n hd
  have hpos : (0 : ℚ) < d := by exact_mod_cast hd
  have hlow' : (2 * n : ℚ) ≤ 2 * (roundHalfEven n d * d) + d := by exact_mod_cast hlow
  have hhigh' : (2 * (roundHalfEven n d * d) : ℚ) ≤ 2 * n + d := by exact_mod_cast hhigh
  rw [abs_le, neg_le_sub_iff_le_add, sub_le_iff_le_add, div_le_iff₀ hpos]
  constructor
  · linarith
  · rw [← sub_le_iff_le_add', le_div_iff₀ hpos]
    linarith

/-- `round(q, places)`. -/
def roundPlaces (places : ℕ) (q : ℚ) : Decimal :=
  let scaled := |q| * 10 ^ places
  ⟨decide (q < 0), roundHalfEven scaled.num.natAbs scaled.den, -places⟩

theorem toRat_mk (negative : Bool) (coefficient : ℕ) (exponent : ℤ) :
    toRat ⟨negative, coefficient, exponent⟩ =
      (if negative then -1 else 1) * (coefficient * 10 ^ exponent) := by
  cases negative <;> simp [toRat, signed]

theorem abs_toRat_roundPlaces_sub_le (places : ℕ) (q : ℚ) :
    |(roundPlaces places q).toRat - q| ≤ 1 / 2 * 10 ^ (-places : ℤ) := by
  have hscaled : 0 ≤ |q| * 10 ^ places := by positivity
  have hquotient : ((|q| * 10 ^ places).num.natAbs : ℚ) / (|q| * 10 ^ places).den =
      |q| * 10 ^ places := by
    have hnum : ((|q| * 10 ^ places).num.natAbs : ℤ) = (|q| * 10 ^ places).num :=
      Int.natAbs_of_nonneg (Rat.num_nonneg.2 hscaled)
    rw [← Int.cast_natCast, hnum, Rat.num_div_den]
  have herror := abs_roundHalfEven_sub_le (|q| * 10 ^ places).num.natAbs
    (Rat.den_pos (|q| * 10 ^ places))
  rw [hquotient] at herror
  have hten : (10 : ℚ) ^ places * 10 ^ (-places : ℤ) = 1 := by
    rw [zpow_neg, zpow_natCast, mul_inv_cancel₀ (by positivity)]
  have hsign : q = (if decide (q < 0) then -1 else 1) * |q| := by
    by_cases h : q < 0
    · simp [h, abs_of_neg h]
    · simp [h, abs_of_nonneg (not_lt.1 h)]
  have hsplit : (roundPlaces places q).toRat - q = (if decide (q < 0) then -1 else 1) *
      ((roundHalfEven (|q| * 10 ^ places).num.natAbs (|q| * 10 ^ places).den -
        |q| * 10 ^ places) * 10 ^ (-places : ℤ)) := by
    rw [roundPlaces, toRat_mk, sub_mul, mul_assoc |q|, hten, mul_one, mul_sub]
    congr 1
  rw [hsplit, abs_mul, abs_mul, abs_of_pos (ten_zpow_pos (-places : ℤ))]
  have hone : |(if decide (q < 0) then -1 else 1 : ℚ)| = 1 := by split_ifs <;> simp
  rw [hone, one_mul]
  exact mul_le_mul_of_nonneg_right herror (ten_zpow_pos _).le

/-- A number with so many significant digits. -/
def significant (precision : ℕ) (a : Decimal) : Decimal :=
  let excess := digits a.coefficient - precision
  if excess = 0 then a
  else ⟨a.negative, roundHalfEven a.coefficient (10 ^ excess), a.exponent + excess⟩

theorem abs_toRat_significant_sub_le {precision : ℕ} (hprecision : 0 < precision) (a : Decimal) :
    |(significant precision a).toRat - a.toRat| ≤ |a.toRat| / (2 * 10 ^ (precision - 1)) := by
  by_cases hexcess : digits a.coefficient - precision = 0
  · rw [significant, if_pos hexcess, sub_self, abs_zero]
    positivity
  · set excess := digits a.coefficient - precision
    have hpow : 0 < 10 ^ excess := by positivity
    have hdigits : digits a.coefficient - 1 = excess + (precision - 1) := by omega
    have hne : a.coefficient ≠ 0 := by
      rintro h
      have hone : digits a.coefficient = 1 := by rw [h]; rfl
      omega
    have hlarge : (10 : ℚ) ^ excess * 10 ^ (precision - 1) ≤ a.coefficient := by
      have h := pow_digits_le hne
      rw [hdigits, pow_add] at h
      exact_mod_cast h
    have herror := abs_roundHalfEven_sub_le a.coefficient hpow
    push_cast at herror
    have hsplit : (significant precision a).toRat - a.toRat = (if a.negative then -1 else 1) *
        ((roundHalfEven a.coefficient (10 ^ excess) - a.coefficient / 10 ^ excess) *
          10 ^ (a.exponent + excess)) := by
      have hquotient : (a.coefficient : ℚ) / 10 ^ excess * 10 ^ (a.exponent + excess) =
          a.coefficient * 10 ^ a.exponent := by
        rw [zpow_add₀ (by norm_num), zpow_natCast]
        field_simp
      rw [significant, if_neg hexcess, toRat_mk, show a.toRat = toRat ⟨a.negative, a.coefficient,
        a.exponent⟩ from rfl, toRat_mk, sub_mul, hquotient, mul_sub]
    have hone : |(if a.negative then -1 else 1 : ℚ)| = 1 := by split_ifs <;> simp
    have hscale := ten_zpow_pos (a.exponent + excess)
    calc |(significant precision a).toRat - a.toRat|
        = |(roundHalfEven a.coefficient (10 ^ excess) : ℚ) - a.coefficient / 10 ^ excess| *
            10 ^ (a.exponent + excess) := by
          rw [hsplit, abs_mul, abs_mul, hone, one_mul, abs_of_pos hscale]
      _ ≤ 1 / 2 * 10 ^ (a.exponent + excess) := mul_le_mul_of_nonneg_right herror hscale.le
      _ = 10 ^ excess * 10 ^ (precision - 1) * 10 ^ a.exponent / (2 * 10 ^ (precision - 1)) := by
          rw [zpow_add₀ (by norm_num), zpow_natCast]
          field_simp
      _ ≤ |a.toRat| / (2 * 10 ^ (precision - 1)) := by
          rw [abs_toRat]
          have hmul := mul_le_mul_of_nonneg_right hlarge (ten_zpow_pos a.exponent).le
          gcongr

/-! ### Notation -/

/-- An exponent with a sign and two digits at least. -/
def exponentText (exponent : ℤ) : Text :=
  let digits := Nat.toDigits 10 exponent.natAbs
  (if exponent < 0 then '-' else '+') :: (List.replicate (2 - digits.length) '0' ++ digits)

/-- `format(a, "g")` of a number that is rounded already, and is not zero. -/
def roundedText (precision : ℕ) (a : Decimal) : Text :=
  let leading : ℤ := a.exponent + digits a.coefficient - 1
  if -4 ≤ leading ∧ leading < precision then plainText a
  else
    plainText ⟨a.negative, a.coefficient, -(digits a.coefficient - 1 : ℕ)⟩ ++
      'e' :: exponentText leading

/-- `format(a, ".…g")`, with so many significant digits. -/
def generalText (precision : ℕ) (a : Decimal) : Text := roundedText precision (significant precision a)

example : generalText 6 ⟨false, 123456789, -2⟩ = "1.23457e+06".toList := by decide +kernel
example : generalText 6 ⟨true, 1234567, -2⟩ = "-12345.7".toList := by decide +kernel

/-- The number that a text denotes, which may have an exponent. -/
def generalValue? (s : Text) : Option ℚ :=
  let mantissa := s.takeWhile (· ≠ 'e')
  (fixedValue? mantissa).bind fun q =>
    (readExponent (s.drop mantissa.length)).map fun exponent => q * 10 ^ exponent

/-! ### Reading -/

theorem spanDigits_spec (s : Text) :
    ∃ front, s = front ++ (spanDigits s).2 ∧ ∀ c ∈ front, digit? c ≠ none := by
  induction s with
  | nil => exact ⟨[], rfl, by simp⟩
  | cons c s ih =>
    rw [spanDigits]
    cases hdigit : digit? c with
    | none => exact ⟨[], rfl, by simp⟩
    | some d =>
      obtain ⟨front, heq, hfront⟩ := ih
      refine ⟨c :: front, congrArg (c :: ·) heq, List.forall_mem_cons.2 ⟨?_, hfront⟩⟩
      rw [hdigit]
      exact Option.some_ne_none d

theorem spanSign_spec (s : Text) :
    ∃ sign, s = sign ++ (spanSign s).2 ∧ ∀ c ∈ sign, c = '-' ∨ c = '+' := by
  unfold spanSign
  split
  · exact ⟨['-'], rfl, by simp⟩
  · exact ⟨['+'], rfl, by simp⟩
  · exact ⟨[], rfl, by simp⟩

/-- The characters of a number in fixed notation. -/
theorem not_mem_of_fixedValue? {s : Text} {q : ℚ} (h : fixedValue? s = some q) {c : Char}
    (hdigit : digit? c = none) (hsign : c ≠ '-' ∧ c ≠ '+' ∧ c ≠ '.') : c ∉ s := by
  obtain ⟨sign, hs, hsigns⟩ := spanSign_spec s
  obtain ⟨whole, hw, hwhole⟩ := spanDigits_spec (spanSign s).2
  have hnot : ∀ front : Text, (∀ c ∈ front, digit? c ≠ none) → c ∉ front :=
    fun front hfront hmem => hfront c hmem hdigit
  have hnotSign : c ∉ sign := fun hmem => by
    rcases hsigns c hmem with rfl | rfl
    · exact hsign.1 rfl
    · exact hsign.2.1 rfl
  rw [hs, hw, List.mem_append, List.mem_append]
  rintro (hmem | hmem | hmem)
  · exact hnotSign hmem
  · exact hnot whole hwhole hmem
  · unfold fixedValue? at h
    simp only at h
    split at h
    · cases h
    · next hspan =>
      rw [hspan] at hmem
      cases hmem
    · next rest _ hspan =>
      rw [hspan] at hmem
      obtain ⟨fraction, hf, hfraction⟩ := spanDigits_spec rest
      split at h
      · next hspan' =>
        rw [hspan', List.append_nil] at hf
        split_ifs at h with hpoint
        rcases List.mem_cons.1 hmem with rfl | hmem
        · exact hsign.2.2 hpoint
        · exact hnot fraction hfraction (hf ▸ hmem)
      · cases h

theorem readExponent_exponentText (exponent : ℤ) :
    readExponent ('e' :: exponentText exponent) = some exponent := by
  obtain ⟨l, hl, hvalue⟩ := exists_isDigits_toDigits exponent.natAbs
  set zeros := 2 - (Nat.toDigits 10 exponent.natAbs).length
  have hdigits : IsDigits (List.replicate zeros '0' ++ Nat.toDigits 10 exponent.natAbs)
      (List.replicate zeros 0 ++ l) := List.rel_append (IsDigits.replicate zeros) hl
  have hspan := spanDigits_append hdigits []
  rw [List.append_nil, spanDigits, List.append_nil] at hspan
  have hne : List.replicate zeros 0 ++ l ≠ [] :=
    List.append_ne_nil_of_right_ne_nil _ (hl.ne_nil Nat.toDigits_ne_nil)
  have hsign : spanSign (exponentText exponent) =
      (decide (exponent < 0), List.replicate zeros '0' ++ Nat.toDigits 10 exponent.natAbs) := by
    unfold exponentText
    by_cases hneg : exponent < 0
    · simp only [hneg, if_true, decide_true, spanSign, zeros]
    · simp only [hneg, if_false, decide_false, spanSign, zeros]
  rw [readExponent, if_pos (Or.inl rfl), hsign]
  simp only [hspan]
  cases hl' : List.replicate zeros 0 ++ l with
  | nil => exact absurd hl' hne
  | cons d l' =>
    simp only [← hl', ofDigits_replicate_append, hvalue, decide_eq_true_eq]
    by_cases hneg : exponent < 0
    · rw [if_pos hneg]
      congr 1
      omega
    · rw [if_neg hneg]
      congr 1
      omega

theorem generalValue?_of_fixedValue? {s : Text} {q : ℚ} (h : fixedValue? s = some q) :
    generalValue? s = some q := by
  have hnot : 'e' ∉ s := not_mem_of_fixedValue? h (by decide +kernel) (by decide)
  have htake : s.takeWhile (· ≠ 'e') = s := by
    rw [List.takeWhile_eq_self_iff]
    rintro c hc
    exact decide_eq_true fun heq => hnot (heq ▸ hc)
  rw [generalValue?, htake, h, List.drop_length]
  simp [readExponent]

theorem generalValue?_exponent {s : Text} {q : ℚ} (h : fixedValue? s = some q) (exponent : ℤ) :
    generalValue? (s ++ 'e' :: exponentText exponent) = some (q * 10 ^ exponent) := by
  have hnot : 'e' ∉ s := not_mem_of_fixedValue? h (by decide +kernel) (by decide)
  have htake : (s ++ 'e' :: exponentText exponent).takeWhile (· ≠ 'e') = s := by
    have hplain : ∀ c ∈ s, decide (c ≠ 'e') = true := fun c hc =>
      decide_eq_true fun heq => hnot (heq ▸ hc)
    rw [List.takeWhile_append_of_pos hplain]
    simp
  rw [generalValue?, htake, h, List.drop_left, Option.bind_some, readExponent_exponentText,
    Option.map_some]

theorem generalValue?_roundedText (precision : ℕ) (a : Decimal) :
    generalValue? (roundedText precision a) = some a.toRat := by
  unfold roundedText
  simp only
  split_ifs
  · exact generalValue?_of_fixedValue? (fixedValue?_plainText a)
  · rw [generalValue?_exponent (fixedValue?_plainText _)]
    have hpow : (10 : ℚ) ^ (-(digits a.coefficient - 1 : ℕ) : ℤ) *
        10 ^ (a.exponent + digits a.coefficient - 1) = 10 ^ a.exponent := by
      rw [← zpow_add₀ (by norm_num)]
      congr 1
      have hdigits : 0 < digits a.coefficient := Nat.succ_pos _
      omega
    have ha : a = ⟨a.negative, a.coefficient, a.exponent⟩ := rfl
    rw [ha, toRat_mk, toRat_mk, mul_assoc, mul_assoc, hpow]

/-- **What is written is read back as the rounded number.** -/
theorem generalValue?_generalText (precision : ℕ) (a : Decimal) :
    generalValue? (generalText precision a) = some (significant precision a).toRat :=
  generalValue?_roundedText precision _

theorem not_mem_exponentText {c : Char} (hdigit : digit? c = none) (hsign : c ≠ '-' ∧ c ≠ '+')
    (exponent : ℤ) : c ∉ exponentText exponent := by
  obtain ⟨l, hl, -⟩ := exists_isDigits_toDigits exponent.natAbs
  have hnot : ∀ {s : Text} {l : List ℕ}, IsDigits s l → c ∉ s := by
    intro s l h hmem
    induction h with
    | nil => cases hmem
    | cons hc _ ih =>
      rcases List.mem_cons.1 hmem with rfl | hmem
      · rw [hdigit] at hc
        cases hc
      · exact ih hmem
  unfold exponentText
  rw [List.mem_cons, List.mem_append]
  rintro (rfl | hmem | hmem)
  · split_ifs at hsign with hneg
    · exact hsign.1 rfl
    · exact hsign.2 rfl
  · exact hnot (IsDigits.replicate _) hmem
  · exact hnot hl hmem

/-- The characters of a number in general notation. -/
theorem not_mem_generalText {c : Char} (hdigit : digit? c = none)
    (hsign : c ≠ '-' ∧ c ≠ '+' ∧ c ≠ '.') (hexponent : c ≠ 'e') (precision : ℕ) (a : Decimal) :
    c ∉ generalText precision a := by
  have hplain : ∀ a, c ∉ plainText a := fun a =>
    not_mem_of_fixedValue? (fixedValue?_plainText a) hdigit hsign
  unfold generalText roundedText
  simp only
  split_ifs
  · exact hplain _
  · rw [List.mem_append, List.mem_cons]
    rintro (hmem | rfl | hmem)
    · exact hplain _ hmem
    · exact hexponent rfl
    · exact not_mem_exponentText hdigit ⟨hsign.1, hsign.2.1⟩ _ hmem

end Decimal
