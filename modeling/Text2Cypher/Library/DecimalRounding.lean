import Text2Cypher.Library.Binary64

/-!
# How far decimal arithmetic rounds

The results of an operation and of `quantize`, next to the exact numbers that they round.

* `nearest_mono`: rounding to integers keeps the order;
* `quantize_eq_ok`: a number that is quantized is the nearest multiple of the unit;
* **`finalize_error`**: the result of an operation is the exact one, or nearest to it with all the
  digits that there can be;
* **`quantize_sub`**: a difference that is quantized is less than one unit away from the exact one.
-/

namespace Binary64

open Decimal

theorem nearest_mono {q r : ℚ} (h : q ≤ r) : nearest q ≤ nearest r := by
  have hq := abs_le.1 (abs_nearest_sub_le q)
  have hr := abs_le.1 (abs_nearest_sub_le r)
  rcases h.eq_or_lt with rfl | hlt
  · exact le_rfl
  · have hlt' : (nearest q : ℚ) < nearest r + 1 := by linarith
    have : nearest q < nearest r + 1 := by exact_mod_cast hlt'
    omega

theorem nearest_neg (q : ℚ) : nearest (-q) = -nearest q := by
  unfold nearest
  rcases lt_trichotomy q 0 with hneg | rfl | hpos
  · rw [if_neg (by linarith), if_pos hneg]
    simp
  · simp [roundHalfEven]
  · rw [if_pos (by linarith), if_neg (by linarith)]
    simp

end Binary64

namespace Decimal

open Binary64

/-- The numbers with no digit beyond the place of `e`. -/
def IsMultiple (e : ℤ) (q : ℚ) : Prop := ∃ n : ℤ, q = n * 10 ^ e

theorem IsMultiple.of_le {e f : ℤ} {q : ℚ} (h : IsMultiple f q) (hle : e ≤ f) :
    IsMultiple e q := by
  obtain ⟨n, rfl⟩ := h
  refine ⟨n * 10 ^ (f - e).toNat, ?_⟩
  rw [← zpow_toNat hle]
  push_cast
  ring

theorem IsMultiple.sub {e : ℤ} {q r : ℚ} (hq : IsMultiple e q) (hr : IsMultiple e r) :
    IsMultiple e (q - r) := by
  obtain ⟨n, rfl⟩ := hq
  obtain ⟨m, rfl⟩ := hr
  exact ⟨n - m, by push_cast; ring⟩

/-- Multiples of a unit that are less than one unit apart are equal. -/
theorem IsMultiple.eq_of_abs_sub_lt {e : ℤ} {q r : ℚ} (hq : IsMultiple e q) (hr : IsMultiple e r)
    (h : |q - r| < 10 ^ e) : q = r := by
  obtain ⟨n, hn⟩ := hq.sub hr
  have hpos := ten_zpow_pos e
  rw [hn, abs_mul, abs_of_pos hpos, mul_lt_iff_lt_one_left hpos] at h
  have hlt : |n| < 1 := by exact_mod_cast h
  rw [Int.abs_lt_one_iff.1 hlt, Int.cast_zero, zero_mul] at hn
  exact sub_eq_zero.1 hn

/-- Multiples of a unit that are less than two units apart are at most one apart. -/
theorem IsMultiple.abs_sub_le {e : ℤ} {q r : ℚ} (hq : IsMultiple e q) (hr : IsMultiple e r)
    (h : |q - r| < 2 * 10 ^ e) : |q - r| ≤ 10 ^ e := by
  obtain ⟨n, hn⟩ := hq.sub hr
  have hpos := ten_zpow_pos e
  rw [hn, abs_mul, abs_of_pos hpos] at h ⊢
  have hlt : |(n : ℚ)| < 2 := lt_of_mul_lt_mul_right h hpos.le
  have hlt' : |n| < 2 := by exact_mod_cast hlt
  have hle : |n| ≤ 1 := by omega
  have hle' : |(n : ℚ)| ≤ 1 := by exact_mod_cast hle
  nlinarith

theorem IsMultiple.le_of_pos {e : ℤ} {q : ℚ} (h : IsMultiple e q) (hpos : 0 < q) :
    10 ^ e ≤ q := by
  obtain ⟨n, rfl⟩ := h
  have hunit := ten_zpow_pos e
  have hn : 0 < (n : ℚ) := (mul_pos_iff_of_pos_right hunit).1 hpos
  have hone : (1 : ℚ) ≤ n := by exact_mod_cast hn
  nlinarith

/-! ### Rounding to a given place -/

/-- The nearest number with no digit beyond the place of `e`. -/
def toPlace (e : ℤ) (q : ℚ) : ℚ := nearest (q / 10 ^ e) * 10 ^ e

theorem isMultiple_toPlace (e : ℤ) (q : ℚ) : IsMultiple e (toPlace e q) := ⟨_, rfl⟩

theorem toPlace_of_isMultiple {e : ℤ} {q : ℚ} (h : IsMultiple e q) : toPlace e q = q := by
  obtain ⟨n, rfl⟩ := h
  rw [toPlace, mul_div_cancel_right₀ _ (ten_zpow_pos e).ne', nearest_intCast]

theorem toPlace_mono {e : ℤ} {q r : ℚ} (h : q ≤ r) : toPlace e q ≤ toPlace e r := by
  have hpos := ten_zpow_pos e
  have hle : (nearest (q / 10 ^ e) : ℚ) ≤ nearest (r / 10 ^ e) := by
    exact_mod_cast nearest_mono ((div_le_div_iff_of_pos_right hpos).2 h)
  exact mul_le_mul_of_nonneg_right hle hpos.le

theorem abs_toPlace_sub_le (e : ℤ) (q : ℚ) : |toPlace e q - q| ≤ 1 / 2 * 10 ^ e := by
  have hpos := ten_zpow_pos e
  have hsplit : toPlace e q - q = (nearest (q / 10 ^ e) - q / 10 ^ e) * 10 ^ e := by
    rw [toPlace, sub_mul, div_mul_cancel₀ _ hpos.ne']
  rw [hsplit, abs_mul, abs_of_pos hpos]
  exact mul_le_mul_of_nonneg_right (abs_nearest_sub_le _) hpos.le

/-- The sign and the size of a number. -/
theorem toRat_eq_neg_abs {a : Decimal} (h : a.negative = true) : a.toRat = -|a.toRat| := by
  rw [abs_toRat, toRat, signed, if_pos h]
  push_cast
  ring

theorem toRat_eq_abs {a : Decimal} (h : a.negative = false) : a.toRat = |a.toRat| := by
  rw [abs_toRat, toRat, signed, h]
  simp

/-- **What `quantize` returns** is the nearest number with no digit beyond the place. -/
theorem quantize_eq_ok {ctx : Context} {a b : Decimal} {e : ℤ} (h : quantize ctx a e = .ok b) :
    b.toRat = toPlace e a.toRat ∧ |b.toRat| < 10 ^ (ctx.precision + e : ℤ) := by
  have hpos := ten_zpow_pos e
  have hnonneg : 0 ≤ |a.toRat| / 10 ^ e := by positivity
  simp only [quantize] at h
  split_ifs at h with hsize
  simp only [Except.ok.injEq] at h
  generalize hc : roundHalfEven (|a.toRat| / 10 ^ e).num.natAbs (|a.toRat| / 10 ^ e).den = c at *
  have hnearest : nearest (|a.toRat| / 10 ^ e) = c := by
    rw [nearest, if_neg (not_lt.2 hnonneg), hc]
  have hvalue : b.toRat = (if a.negative then -1 else 1) * (c * 10 ^ e) := by
    rw [← h, toRat_mk]
  constructor
  · rw [hvalue, toPlace]
    cases hsign : a.negative with
    | true =>
      rw [toRat_eq_neg_abs hsign, neg_div, nearest_neg, hnearest]
      simp
    | false =>
      rw [toRat_eq_abs hsign, hnearest]
      simp
  · have habs : |b.toRat| = c * 10 ^ e := by
      rw [abs_toRat, ← h]
    have hlt : (c : ℚ) < 10 ^ ctx.precision := by exact_mod_cast not_le.1 hsize
    rw [habs, zpow_add₀ (by norm_num), zpow_natCast]
    exact mul_lt_mul_of_pos_right hlt hpos

/-! ### Rounding to the digits that there are -/

theorem div_le_roundHalfEven (n d : ℕ) : n / d ≤ roundHalfEven n d := by
  unfold roundHalfEven
  split_ifs <;> omega

/-- Rounding, and the check of the exponent behind it.  A carry into one digit more does not change
what rounding gives. -/
theorem finalize_eq (ctx : Context) {a : Decimal} (hzero : a.coefficient ≠ 0) :
    ∃ b : Decimal, b.toRat = (if a.negative then -1 else 1) *
        (roundHalfEven a.coefficient (10 ^ excess ctx a) * 10 ^ (a.exponent + excess ctx a)) ∧
      a.exponent + excess ctx a ≤ b.exponent ∧
      (b.coefficient = 0 → roundHalfEven a.coefficient (10 ^ excess ctx a) = 0 ∧
        b.exponent = a.exponent + excess ctx a) ∧
      finalize ctx a =
        if ctx.emax < b.exponent + digits b.coefficient - 1 then .error .overflow else .ok b := by
  by_cases hcarry : roundHalfEven a.coefficient (10 ^ excess ctx a) = 10 ^ ctx.precision
  · refine ⟨⟨a.negative, 10 ^ (ctx.precision - 1), a.exponent + excess ctx a + 1⟩, ?_, ?_, ?_, ?_⟩
    · have hpow : (10 : ℚ) ^ ctx.precision = 10 ^ (ctx.precision - 1) * 10 := by
        rw [← pow_succ, Nat.sub_add_cancel ctx.precision_pos]
      rw [toRat_mk, hcarry, zpow_add_one₀ (by norm_num)]
      push_cast
      rw [hpow]
      ring
    · show _ ≤ a.exponent + excess ctx a + 1
      omega
    · intro hnone
      exact absurd hnone (by positivity)
    · simp only [finalize, if_neg hzero, if_pos hcarry]
  · refine ⟨⟨a.negative, roundHalfEven a.coefficient (10 ^ excess ctx a),
      a.exponent + excess ctx a⟩, toRat_mk _ _ _, le_rfl, fun hnone => ⟨hnone, rfl⟩, ?_⟩
    simp only [finalize, if_neg hzero, if_neg hcarry]

theorem toRat_finalize {ctx : Context} {a b : Decimal} (hzero : a.coefficient ≠ 0)
    (h : finalize ctx a = .ok b) :
    b.toRat = (if a.negative then -1 else 1) *
      (roundHalfEven a.coefficient (10 ^ excess ctx a) * 10 ^ (a.exponent + excess ctx a)) := by
  obtain ⟨b', hvalue, -, -, heq⟩ := finalize_eq ctx hzero
  rw [heq] at h
  split_ifs at h
  obtain rfl := Except.ok.inj h
  exact hvalue

/-- **The result of an operation** is the exact one, or it is a multiple of a unit and no further
from the exact one than half of it; there is no digit left then, or no smaller exponent. -/
theorem finalize_error {ctx : Context} {a b : Decimal} (h : finalize ctx a = .ok b) :
    b.toRat = a.toRat ∨ ∃ f : ℤ, IsMultiple f b.toRat ∧ |b.toRat - a.toRat| ≤ 1 / 2 * 10 ^ f ∧
      (f = ctx.etiny ∨ (10 : ℚ) ^ (ctx.precision - 1 + f) ≤ |b.toRat|) := by
  have hten : (10 : ℚ) ≠ 0 := by norm_num
  have hprecision := ctx.precision_pos
  by_cases hzero : a.coefficient = 0
  · left
    simp only [finalize, if_pos hzero, Except.ok.injEq] at h
    rw [← h]
    simp [toRat, signed, hzero]
  have hvalue := toRat_finalize hzero h
  have hk : excess ctx a = max (digits a.coefficient - ctx.precision)
      (ctx.etiny - a.exponent).toNat := rfl
  generalize excess ctx a = k at *
  have hpow : (10 : ℚ) ^ k * 10 ^ a.exponent = 10 ^ (a.exponent + k) := by
    rw [zpow_add₀ hten, zpow_natCast, mul_comm]
  have hexact : a.toRat = (if a.negative then -1 else 1) *
      ((a.coefficient : ℚ) / (10 ^ k : ℕ) * 10 ^ (a.exponent + k)) := by
    have hpos : (10 : ℚ) ^ k ≠ 0 := by positivity
    have hmk : a.toRat = (if a.negative then -1 else 1) * (a.coefficient * 10 ^ a.exponent) :=
      toRat_mk a.negative a.coefficient a.exponent
    rw [hmk, ← hpow]
    push_cast
    rw [← mul_assoc ((a.coefficient : ℚ) / 10 ^ k), div_mul_cancel₀ _ hpos]
  have hone : |(if a.negative then -1 else 1 : ℚ)| = 1 := by split_ifs <;> simp
  by_cases hk0 : k = 0
  · left
    have hround := roundHalfEven_mul a.coefficient 1 one_pos
    rw [mul_one] at hround
    rw [hvalue, hexact, hk0, pow_zero, hround]
    simp
  right
  refine ⟨a.exponent + k, ?_, ?_, ?_⟩
  · rw [hvalue]
    refine ⟨(if a.negative then -1 else 1) * roundHalfEven a.coefficient (10 ^ k), ?_⟩
    split_ifs <;> push_cast <;> ring
  · have herror := abs_roundHalfEven_sub_le a.coefficient (show 0 < 10 ^ k by positivity)
    rw [hvalue, hexact, ← mul_sub, ← sub_mul, abs_mul, hone, one_mul, abs_mul,
      abs_of_pos (ten_zpow_pos _)]
    exact mul_le_mul_of_nonneg_right herror (ten_zpow_pos _).le
  · rcases le_or_gt (digits a.coefficient - ctx.precision) (ctx.etiny - a.exponent).toNat
      with htiny | hdigits
    · left
      omega
    · right
      have hsplit : digits a.coefficient - 1 = ctx.precision - 1 + k := by omega
      have hlow : 10 ^ (ctx.precision - 1) ≤ a.coefficient / 10 ^ k := by
        rw [Nat.le_div_iff_mul_le (by positivity), ← pow_add, ← hsplit]
        exact pow_digits_le hzero
      have hround := hlow.trans (div_le_roundHalfEven a.coefficient (10 ^ k))
      have hround' : (10 : ℚ) ^ (ctx.precision - 1) ≤ roundHalfEven a.coefficient (10 ^ k) := by
        exact_mod_cast hround
      have hcast : (10 : ℚ) ^ ((ctx.precision : ℤ) - 1) = 10 ^ (ctx.precision - 1) := by
        rw [← zpow_natCast]
        congr 1
        omega
      rw [hvalue, abs_mul, hone, one_mul, abs_mul, Nat.abs_cast, abs_of_pos (ten_zpow_pos _),
        zpow_add₀ hten, hcast]
      exact mul_le_mul_of_nonneg_right hround' (ten_zpow_pos _).le

/-- The same of a difference. -/
theorem sub_error {ctx : Context} {a b c : Decimal} (h : sub ctx a b = .ok c) :
    c.toRat = a.toRat - b.toRat ∨ ∃ f : ℤ, IsMultiple f c.toRat ∧
      |c.toRat - (a.toRat - b.toRat)| ≤ 1 / 2 * 10 ^ f ∧
      (f = ctx.etiny ∨ (10 : ℚ) ^ (ctx.precision - 1 + f) ≤ |c.toRat|) := by
  have herror := finalize_error h
  rwa [toRat_exactSum, toRat_opposite, ← sub_eq_add_neg] at herror

/-- A difference is not rounded up to a positive number. -/
theorem lt_of_sub_pos {ctx : Context} {a b c : Decimal} (h : sub ctx a b = .ok c)
    (hpos : 0 < c.toRat) : b.toRat < a.toRat := by
  rcases sub_error h with hexact | ⟨f, hmultiple, herror, -⟩
  · linarith
  · have hle := hmultiple.le_of_pos hpos
    have hunit := ten_zpow_pos f
    have := (abs_le.1 herror).2
    linarith

/-- **A difference that is rounded twice**, to the digits that there are and to a given place.  The
first rounding is finer than the second one, since what `quantize` returns has not too many
digits. -/
theorem quantize_sub {ctx : Context} {a b difference shown : Decimal} {e : ℤ}
    (hetiny : ctx.etiny ≤ e) (hsub : sub ctx a b = .ok difference)
    (hshown : quantize ctx difference e = .ok shown) :
    |shown.toRat - (a.toRat - b.toRat)| < 10 ^ e ∧
      (IsMultiple e (a.toRat - b.toRat) → shown.toRat = a.toRat - b.toRat) := by
  obtain ⟨hplace, hdigits⟩ := quantize_eq_ok hshown
  have hunit := ten_zpow_pos e
  have hround := abs_toPlace_sub_le e difference.toRat
  rcases sub_error hsub with hexact | ⟨f, hmultiple, herror, hlast⟩
  · rw [hexact] at hplace hround
    rw [hplace]
    exact ⟨by linarith, toPlace_of_isMultiple⟩
  have hfine : f ≤ e := by
    rcases hlast with rfl | hlarge
    · exact hetiny
    by_contra hcoarse
    have hle : e ≤ f := by omega
    rw [hplace, toPlace_of_isMultiple (hmultiple.of_le hle)] at hdigits
    have hpow := hlarge.trans_lt hdigits
    have hexponent := (zpow_lt_zpow_iff_right₀ (by norm_num : (1 : ℚ) < 10)).1 hpow
    omega
  constructor
  · rcases hfine.eq_or_lt with rfl | hfiner
    · rw [hplace, toPlace_of_isMultiple hmultiple]
      linarith
    · have htenth : (10 : ℚ) ^ f ≤ 10 ^ e / 10 := by
        rw [div_eq_mul_inv, ← zpow_sub_one₀ (by norm_num)]
        exact zpow_le_zpow_right₀ (by norm_num) (by omega)
      have htriangle := abs_sub_le shown.toRat difference.toRat (a.toRat - b.toRat)
      rw [← hplace] at hround
      linarith
  · intro hdifference
    have hsame : difference.toRat = a.toRat - b.toRat := by
      refine hmultiple.eq_of_abs_sub_lt (hdifference.of_le hfine) ?_
      have := ten_zpow_pos f
      linarith
    rw [hplace, hsame, toPlace_of_isMultiple hdifference]

end Decimal
