import Mathlib.Algebra.Order.Field.Power
import Mathlib.Data.Nat.Log
import Mathlib.Data.Rat.Floor
import Mathlib.Tactic.FieldSimp
import Mathlib.Tactic.Linarith
import Mathlib.Tactic.NormNum
import Mathlib.Tactic.Positivity
import Mathlib.Tactic.Ring

/-!
# Decimal arithmetic with a context

Finite decimal numbers with a sign, a coefficient and an exponent, as in the General Decimal
Arithmetic specification.  An operation computes its exact result and then rounds it, half to even,
to the precision of the context; it signals what the context does not take.

* `finalize_exact`: a result that fits the context is not changed;
* `mul_exact`, `add_exact`, `sub_exact`: operations whose exact results fit return them;
* `foldlM_mul_exact`, `foldlM_add_exact`: so do loops of them;
* `quantize_congr`: rounding to a given exponent depends on the value and its sign only.
-/

/-- `(-1) ^ negative * coefficient * 10 ^ exponent`. -/
structure Decimal where
  negative : Bool
  coefficient : ℕ
  exponent : ℤ
  deriving DecidableEq, Repr

namespace Decimal

/-- The limits of the arithmetic. -/
structure Context where
  precision : ℕ
  emax : ℤ
  emin : ℤ
  precision_pos : 0 < precision
  emin_le : emin ≤ 0
  emax_ge : precision ≤ emax

/-! The limits of the context that Python starts with. -/

theorem default_precision_pos : 0 < 28 := by decide

theorem default_emin_le : (-999999 : ℤ) ≤ 0 := by decide

theorem default_emax_ge : ((28 : ℕ) : ℤ) ≤ 999999 := by decide

/-- The exponent of the smallest subnormal number. -/
def Context.etiny (ctx : Context) : ℤ := ctx.emin - (ctx.precision - 1)

/-- The signals that are trapped. -/
inductive Signal
  | overflow
  | invalidOperation
  deriving DecidableEq, Repr

/-- The coefficient with its sign. -/
def signed (a : Decimal) : ℤ := if a.negative then -a.coefficient else a.coefficient

def toRat (a : Decimal) : ℚ := a.signed * 10 ^ a.exponent

def zero : Decimal := ⟨false, 0, 0⟩

/-- `n / d`, rounded half to even. -/
def roundHalfEven (n d : ℕ) : ℕ :=
  if 2 * (n % d) < d then n / d
  else if d < 2 * (n % d) then n / d + 1
  else n / d + n / d % 2

/-- The number of digits. -/
def digits (n : ℕ) : ℕ := Nat.log 10 n + 1

/-- How many digits of a number that is not zero have to go. -/
def excess (ctx : Context) (a : Decimal) : ℕ :=
  max (digits a.coefficient - ctx.precision) (ctx.etiny - a.exponent).toNat

/-- Round an exact result to the context. -/
def finalize (ctx : Context) (a : Decimal) : Except Signal Decimal :=
  if a.coefficient = 0 then
    .ok { a with exponent := max ctx.etiny (min a.exponent ctx.emax) }
  else
    let coefficient := roundHalfEven a.coefficient (10 ^ excess ctx a)
    let exponent := a.exponent + excess ctx a
    -- rounding up may have carried into one digit more
    let carried := coefficient = 10 ^ ctx.precision
    let coefficient := if carried then 10 ^ (ctx.precision - 1) else coefficient
    let exponent := if carried then exponent + 1 else exponent
    if ctx.emax < exponent + digits coefficient - 1 then .error .overflow
    else .ok ⟨a.negative, coefficient, exponent⟩

def mul (ctx : Context) (a b : Decimal) : Except Signal Decimal :=
  finalize ctx
    ⟨a.negative != b.negative, a.coefficient * b.coefficient, a.exponent + b.exponent⟩

/-- The exact sum; a sum of zeros is negative only if both are. -/
def exactSum (a b : Decimal) : Decimal :=
  let exponent := min a.exponent b.exponent
  let sum := a.signed * 10 ^ (a.exponent - exponent).toNat +
    b.signed * 10 ^ (b.exponent - exponent).toNat
  ⟨if sum = 0 then a.negative && b.negative else decide (sum < 0), sum.natAbs, exponent⟩

def add (ctx : Context) (a b : Decimal) : Except Signal Decimal := finalize ctx (exactSum a b)

/-- The other sign, without rounding. -/
def opposite (a : Decimal) : Decimal := { a with negative := !a.negative }

def sub (ctx : Context) (a b : Decimal) : Except Signal Decimal := add ctx a (opposite b)

/-- Round to a given exponent. -/
def quantize (ctx : Context) (a : Decimal) (exponent : ℤ) : Except Signal Decimal :=
  let scaled := |a.toRat| / 10 ^ exponent
  let coefficient := roundHalfEven scaled.num.natAbs scaled.den
  if 10 ^ ctx.precision ≤ coefficient then .error .invalidOperation
  else .ok ⟨a.negative, coefficient, exponent⟩

/-! ### Values -/

theorem ten_zpow_pos (e : ℤ) : (0 : ℚ) < 10 ^ e := by positivity

theorem abs_signed (a : Decimal) : |(a.signed : ℚ)| = a.coefficient := by
  unfold signed
  split_ifs <;> simp

theorem abs_toRat (a : Decimal) : |a.toRat| = a.coefficient * 10 ^ a.exponent := by
  rw [toRat, abs_mul, abs_signed, abs_of_pos (ten_zpow_pos _)]

theorem toRat_zero : zero.toRat = 0 := by simp [toRat, signed, zero]

theorem toRat_opposite (a : Decimal) : (opposite a).toRat = -a.toRat := by
  unfold toRat signed opposite
  cases a.negative <;> simp

theorem toRat_product (a b : Decimal) :
    toRat ⟨a.negative != b.negative, a.coefficient * b.coefficient, a.exponent + b.exponent⟩ =
      a.toRat * b.toRat := by
  unfold toRat signed
  rw [zpow_add₀ (by norm_num : (10 : ℚ) ≠ 0)]
  cases a.negative <;> cases b.negative <;> simp <;> ring

theorem zpow_toNat {e e' : ℤ} (h : e ≤ e') :
    ((10 : ℚ) ^ (e' - e).toNat) * 10 ^ e = 10 ^ e' := by
  rw [← zpow_natCast, ← zpow_add₀ (by norm_num : (10 : ℚ) ≠ 0), Int.toNat_of_nonneg (by omega)]
  congr 1
  omega

theorem signed_ofInt (sum e : ℤ) (negative : Bool) :
    signed ⟨if sum = 0 then negative else decide (sum < 0), sum.natAbs, e⟩ = sum := by
  unfold signed
  by_cases hzero : sum = 0
  · simp [hzero]
  · by_cases hneg : sum < 0
    · simp only [if_neg hzero, hneg, decide_true, if_true]
      omega
    · simp only [if_neg hzero, hneg, decide_false, Bool.false_eq_true, if_false]
      omega

theorem toRat_exactSum (a b : Decimal) : (exactSum a b).toRat = a.toRat + b.toRat := by
  have hsigned : ((exactSum a b).signed : ℚ) =
      a.signed * 10 ^ (a.exponent - min a.exponent b.exponent).toNat +
        b.signed * 10 ^ (b.exponent - min a.exponent b.exponent).toNat := by
    rw [exactSum, signed_ofInt]
    push_cast
    rfl
  have hexponent : (exactSum a b).exponent = min a.exponent b.exponent := rfl
  rw [toRat, hsigned, hexponent, add_mul, mul_assoc, mul_assoc, zpow_toNat (min_le_left _ _),
    zpow_toNat (min_le_right _ _)]
  rfl

/-! ### Results that fit -/

/-- A number that the context holds without rounding. -/
def Fits (ctx : Context) (q : ℚ) : Prop :=
  ∃ n : ℕ, ∃ e : ℤ, |q| = n * 10 ^ e ∧ n < 10 ^ ctx.precision ∧ ctx.etiny ≤ e ∧
    e + ctx.precision - 1 ≤ ctx.emax

theorem lt_pow_digits (n : ℕ) : n < 10 ^ digits n := Nat.lt_pow_succ_log_self (by omega) n

theorem pow_digits_le {n : ℕ} (h : n ≠ 0) : 10 ^ (digits n - 1) ≤ n := Nat.pow_log_le_self 10 h

theorem digits_le_of_lt {n p : ℕ} (hp : 0 < p) (h : n < 10 ^ p) : digits n ≤ p := by
  unfold digits
  by_cases hn : n = 0
  · rw [hn, Nat.log_zero_right]
    omega
  · have := Nat.log_lt_of_lt_pow hn h
    omega

theorem roundHalfEven_mul (n d : ℕ) (hd : 0 < d) : roundHalfEven (n * d) d = n := by
  rw [roundHalfEven, Nat.mul_mod_left, if_pos (by omega), Nat.mul_div_cancel n hd]

/-- What has to go from a number that fits are zeros. -/
theorem exists_coefficient {ctx : Context} {a : Decimal} (hzero : a.coefficient ≠ 0)
    (h : Fits ctx a.toRat) :
    ∃ n : ℕ, a.coefficient = n * 10 ^ excess ctx a ∧ n < 10 ^ ctx.precision ∧
      a.exponent + excess ctx a + digits n - 1 ≤ ctx.emax := by
  obtain ⟨m, f, hvalue, hm, htiny, hmax⟩ := h
  rw [abs_toRat] at hvalue
  have hten : (10 : ℚ) ≠ 0 := by norm_num
  have hk : excess ctx a = max (digits a.coefficient - ctx.precision)
      (ctx.etiny - a.exponent).toNat := rfl
  generalize excess ctx a = k at *
  generalize a.coefficient = c at *
  generalize a.exponent = e at *
  have hlow := pow_digits_le hzero
  have hpos : 0 < digits c := Nat.succ_pos _
  -- the leading digit stands no further to the left than the context allows
  have hlead : e + digits c - 1 < ctx.precision + f := by
    have hlt : (10 : ℚ) ^ (e + digits c - 1) < 10 ^ (ctx.precision + f : ℤ) := by
      calc (10 : ℚ) ^ (e + digits c - 1) = ((10 ^ (digits c - 1) : ℕ) : ℚ) * 10 ^ e := by
            push_cast
            rw [← zpow_natCast, ← zpow_add₀ hten]
            congr 1
            omega
        _ ≤ c * 10 ^ e := by
            have := ten_zpow_pos e
            gcongr
        _ = m * 10 ^ f := hvalue
        _ < ((10 ^ ctx.precision : ℕ) : ℚ) * 10 ^ f := by
            have := ten_zpow_pos f
            gcongr
        _ = 10 ^ (ctx.precision + f : ℤ) := by
            push_cast
            rw [← zpow_natCast, ← zpow_add₀ hten]
    exact (zpow_lt_zpow_iff_right₀ (by norm_num)).1 hlt
  obtain ⟨n, rfl⟩ : ∃ n, c = n * 10 ^ k := by
    by_cases hk0 : k = 0
    · exact ⟨c, by rw [hk0, pow_zero, mul_one]⟩
    · have hle : e + k ≤ f := by omega
      refine ⟨m * 10 ^ (f - (e + k)).toNat, ?_⟩
      have hc : (c : ℚ) = m * 10 ^ (f - (e + k)).toNat * 10 ^ k := by
        have he := (ten_zpow_pos e).ne'
        refine mul_right_cancel₀ he ?_
        rw [hvalue, mul_assoc, mul_assoc, mul_comm ((10 : ℚ) ^ k), ← zpow_natCast (10 : ℚ) k,
          ← zpow_add₀ hten, zpow_toNat hle]
      exact_mod_cast hc
  have hn : n ≠ 0 := by
    rintro rfl
    exact hzero (zero_mul _)
  have hhigh := lt_pow_digits (n * 10 ^ k)
  have hk_lt : k < digits (n * 10 ^ k) := by
    have hle : 10 ^ k ≤ n * 10 ^ k := Nat.le_mul_of_pos_left _ (Nat.pos_of_ne_zero hn)
    exact (Nat.pow_lt_pow_iff_right (by omega)).1 (hle.trans_lt hhigh)
  have hn_lt : n < 10 ^ (digits (n * 10 ^ k) - k) := by
    refine Nat.lt_of_mul_lt_mul_right (a := 10 ^ k) (hhigh.trans_eq ?_)
    rw [← pow_add]
    congr 1
    omega
  have hdigits : digits n ≤ digits (n * 10 ^ k) - k := digits_le_of_lt (by omega) hn_lt
  refine ⟨n, rfl, hn_lt.trans_le (Nat.pow_le_pow_right (by omega) (by omega)), ?_⟩
  omega

/-- **A result that fits** the context is not changed. -/
theorem finalize_exact {ctx : Context} {a : Decimal} (h : Fits ctx a.toRat) :
    ∃ b, finalize ctx a = .ok b ∧ b.toRat = a.toRat := by
  by_cases hzero : a.coefficient = 0
  · refine ⟨_, by rw [finalize, if_pos hzero], ?_⟩
    simp [toRat, signed, hzero]
  · obtain ⟨n, hn, hlt, hemax⟩ := exists_coefficient hzero h
    have hround : roundHalfEven a.coefficient (10 ^ excess ctx a) = n := by
      rw [hn, roundHalfEven_mul n _ (by positivity)]
    refine ⟨⟨a.negative, n, a.exponent + excess ctx a⟩, ?_, ?_⟩
    · simp only [finalize, if_neg hzero, hround, if_neg hlt.ne, if_neg (not_lt.2 hemax)]
    · have hten : ((10 : ℚ) ^ excess ctx a) * 10 ^ a.exponent =
          10 ^ (a.exponent + excess ctx a) := by
        rw [zpow_add₀ (by norm_num : (10 : ℚ) ≠ 0), zpow_natCast, mul_comm]
      unfold toRat signed
      dsimp only
      rw [← hten, hn]
      split_ifs <;> push_cast <;> ring

theorem mul_exact {ctx : Context} {a b : Decimal} (h : Fits ctx (a.toRat * b.toRat)) :
    ∃ c, mul ctx a b = .ok c ∧ c.toRat = a.toRat * b.toRat := by
  rw [← toRat_product] at h ⊢
  exact finalize_exact h

theorem add_exact {ctx : Context} {a b : Decimal} (h : Fits ctx (a.toRat + b.toRat)) :
    ∃ c, add ctx a b = .ok c ∧ c.toRat = a.toRat + b.toRat := by
  rw [← toRat_exactSum] at h ⊢
  exact finalize_exact h

/-- A loop of additions whose sums all fit. -/
theorem foldlM_add_exact {ctx : Context} {a : Decimal} {l : List Decimal}
    (h : ∀ prior, prior <+: l.map toRat → Fits ctx (a.toRat + prior.sum)) :
    ∃ c, l.foldlM (fun sum v => add ctx sum v) a = .ok c ∧
      c.toRat = a.toRat + (l.map toRat).sum := by
  induction l generalizing a with
  | nil => exact ⟨a, rfl, by simp⟩
  | cons v l ih =>
    have hfirst : Fits ctx (a.toRat + v.toRat) := by
      simpa using h [v.toRat] ⟨l.map toRat, rfl⟩
    obtain ⟨b, hb, hvalue⟩ := add_exact hfirst
    have hrest : ∀ prior, prior <+: l.map toRat → Fits ctx (b.toRat + prior.sum) := by
      intro prior hprior
      rw [hvalue, add_assoc, ← List.sum_cons]
      exact h _ ((List.prefix_cons_inj _).2 hprior)
    obtain ⟨c, hc, hsum⟩ := ih hrest
    refine ⟨c, ?_, ?_⟩
    · rw [List.foldlM_cons, hb]
      exact hc
    · rw [hsum, hvalue, List.map_cons, List.sum_cons, add_assoc]

/-- A loop of multiplications whose products all fit. -/
theorem foldlM_mul_exact {ctx : Context} {a : Decimal} {l : List Decimal}
    (h : ∀ prior, prior <+: l.map toRat → Fits ctx (a.toRat * prior.prod)) :
    ∃ c, l.foldlM (fun product v => mul ctx product v) a = .ok c ∧
      c.toRat = a.toRat * (l.map toRat).prod := by
  induction l generalizing a with
  | nil => exact ⟨a, rfl, by simp⟩
  | cons v l ih =>
    have hfirst : Fits ctx (a.toRat * v.toRat) := by
      simpa using h [v.toRat] ⟨l.map toRat, rfl⟩
    obtain ⟨b, hb, hvalue⟩ := mul_exact hfirst
    have hrest : ∀ prior, prior <+: l.map toRat → Fits ctx (b.toRat * prior.prod) := by
      intro prior hprior
      rw [hvalue, mul_assoc, ← List.prod_cons]
      exact h _ ((List.prefix_cons_inj _).2 hprior)
    obtain ⟨c, hc, hproduct⟩ := ih hrest
    refine ⟨c, ?_, ?_⟩
    · rw [List.foldlM_cons, hb]
      exact hc
    · rw [hproduct, hvalue, List.map_cons, List.prod_cons, mul_assoc]

theorem sub_exact {ctx : Context} {a b : Decimal} (h : Fits ctx (a.toRat - b.toRat)) :
    ∃ c, sub ctx a b = .ok c ∧ c.toRat = a.toRat - b.toRat := by
  rw [sub_eq_add_neg, ← toRat_opposite] at h ⊢
  exact add_exact h

/-- Rounding to a given exponent depends on the value and its sign only. -/
theorem quantize_congr {ctx : Context} {a b : Decimal} (hvalue : a.toRat = b.toRat)
    (hsign : a.negative = b.negative) (e : ℤ) : quantize ctx a e = quantize ctx b e := by
  simp only [quantize, hvalue, hsign]

theorem negative_of_pos {a : Decimal} (h : 0 < a.toRat) : a.negative = false := by
  by_contra hsign
  rw [Bool.not_eq_false] at hsign
  have hle : a.toRat ≤ 0 := by
    rw [toRat, signed, if_pos hsign]
    have := ten_zpow_pos a.exponent
    push_cast
    nlinarith [Nat.cast_nonneg (α := ℚ) a.coefficient]
  exact hle.not_gt h

end Decimal
