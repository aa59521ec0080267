import Text2Cypher.Library.DecimalRounding

/-!
# What decimal arithmetic does to values

The value of a result depends on the exact value only, not on the coefficient and the exponent that
it comes with.

* `Context.rounded`: the number with the digits that there are that is nearest to a number;
* `Context.Overflows`: the exact values that the context signals;
* **`finalize_value`**: what an operation returns has the rounded value;
* `Context.roundedSum`: a loop of additions on values, every summand and every sum rounded;
* `IsZeroSign`: the zero with a minus, which no sum is that starts without one;
* **`plainText_eq_iff`**: apart from it, numbers with one value have one text, and no others.
-/

namespace Binary64

open Decimal

theorem roundHalfEven_mul_mul (n d : ℕ) {k : ℕ} (hk : 0 < k) :
    roundHalfEven (n * k) (d * k) = roundHalfEven n d := by
  have hbelow : 2 * (n % d * k) < d * k ↔ 2 * (n % d) < d := by
    rw [← mul_assoc]
    exact Nat.mul_lt_mul_right hk
  have habove : d * k < 2 * (n % d * k) ↔ d < 2 * (n % d) := by
    rw [← mul_assoc]
    exact Nat.mul_lt_mul_right hk
  simp only [roundHalfEven, Nat.mul_mod_mul_right, Nat.mul_div_mul_right n d hk, hbelow, habove]

/-- A fraction need not be reduced before it is rounded. -/
theorem nearest_div (n : ℕ) {d : ℕ} (hd : 0 < d) : nearest (n / d) = roundHalfEven n d := by
  have hnonneg : (0 : ℚ) ≤ n / d := by positivity
  have hd' : (d : ℤ) ≠ 0 := by exact_mod_cast hd.ne'
  obtain ⟨c, hn, hden⟩ := Rat.exists_eq_mul_div_num_and_eq_mul_div_den (n : ℤ) hd'
  simp only [Int.cast_natCast] at hn hden
  rw [nearest, if_neg (not_lt.2 hnonneg)]
  have hnum := Rat.num_nonneg.2 hnonneg
  generalize (n / d : ℚ).num = p at *
  have hq := (n / d : ℚ).den_pos
  generalize (n / d : ℚ).den = q at *
  have hc : 0 < c := by
    have : 0 < c * (q : ℤ) := by omega
    exact pos_of_mul_pos_left this (by omega)
  obtain ⟨k, rfl⟩ := Int.eq_ofNat_of_zero_le hc.le
  obtain ⟨m, rfl⟩ := Int.eq_ofNat_of_zero_le hnum
  have hn' : n = m * k := by
    rw [mul_comm]
    exact_mod_cast hn
  have hden' : d = q * k := by
    rw [mul_comm]
    exact_mod_cast hden
  rw [hn', hden', roundHalfEven_mul_mul _ _ (by exact_mod_cast hc), Int.natAbs_natCast]

end Binary64

namespace Decimal

open Binary64

namespace Context

variable (ctx : Context)

/-- The exponent of the last digit that there is near a number. -/
def place (q : ℚ) : ℤ := max ctx.etiny (Int.log 10 |q| + 1 - ctx.precision)

/-- The nearest number with the digits that there are. -/
def rounded (q : ℚ) : ℚ := toPlace (ctx.place q) q

/-- The context takes no number that is as large. -/
def Overflows (q : ℚ) : Prop := (10 : ℚ) ^ (ctx.emax + 1) ≤ |ctx.rounded q|

instance (q : ℚ) : Decidable (ctx.Overflows q) := inferInstanceAs (Decidable (_ ≤ _))

/-- The sum of the values, if every value and every sum on the way is rounded; `none` if one of them
overflows. -/
def roundedSum : ℚ → List ℚ → Option ℚ
  | sum, [] => some sum
  | sum, value :: values =>
      if ctx.Overflows value ∨ ctx.Overflows (sum + ctx.rounded value) then none
      else roundedSum (ctx.rounded (sum + ctx.rounded value)) values

theorem etiny_le_emax : ctx.etiny ≤ ctx.emax := by
  have hmin := ctx.emin_le
  have hmax := ctx.emax_ge
  have hpos := ctx.precision_pos
  unfold etiny
  omega

end Context

/-! ### Rounding depends on the value -/

theorem log_abs_toRat {a : Decimal} (hzero : a.coefficient ≠ 0) :
    Int.log 10 |a.toRat| = a.exponent + digits a.coefficient - 1 := by
  have hten : (10 : ℚ) ≠ 0 := by norm_num
  have hone : (1 : ℕ) < 10 := by omega
  have hunit := ten_zpow_pos a.exponent
  have hcoefficient : (0 : ℚ) < a.coefficient := by exact_mod_cast Nat.pos_of_ne_zero hzero
  have hpos : 0 < |a.toRat| := by
    rw [abs_toRat]
    positivity
  have hdigits : 0 < digits a.coefficient := Nat.succ_pos _
  apply le_antisymm
  · have hlt : |a.toRat| < ((10 : ℕ) : ℚ) ^ (a.exponent + digits a.coefficient) := by
      have hhigh : (a.coefficient : ℚ) < 10 ^ digits a.coefficient := by
        exact_mod_cast lt_pow_digits a.coefficient
      rw [abs_toRat, add_comm, Nat.cast_ofNat, zpow_add₀ hten, zpow_natCast]
      exact mul_lt_mul_of_pos_right hhigh hunit
    have := (Int.lt_zpow_iff_log_lt hone hpos).1 hlt
    omega
  · apply (Int.zpow_le_iff_le_log hone hpos).1
    have hlow : (10 : ℚ) ^ (digits a.coefficient - 1) ≤ a.coefficient := by
      exact_mod_cast pow_digits_le hzero
    have hsplit : a.exponent + digits a.coefficient - 1 =
        ((digits a.coefficient - 1 : ℕ) : ℤ) + a.exponent := by omega
    rw [abs_toRat, hsplit, Nat.cast_ofNat, zpow_add₀ hten, zpow_natCast]
    exact mul_le_mul_of_nonneg_right hlow hunit.le

/-- The place that a number is rounded to. -/
theorem exponent_add_excess {ctx : Context} {a : Decimal} (hzero : a.coefficient ≠ 0) :
    a.exponent + excess ctx a = max a.exponent (ctx.place a.toRat) := by
  rw [Context.place, log_abs_toRat hzero, excess]
  omega

theorem toRat_eq_zero_iff {a : Decimal} : a.toRat = 0 ↔ a.coefficient = 0 := by
  have hunit := (ten_zpow_pos a.exponent).ne'
  rw [← abs_eq_zero, abs_toRat, mul_eq_zero, or_iff_left hunit, Nat.cast_eq_zero]

theorem rounded_zero (ctx : Context) : ctx.rounded 0 = 0 := by
  apply toPlace_of_isMultiple
  exact ⟨0, by simp⟩

/-- What the digits that are left denote. -/
theorem rounded_toRat {ctx : Context} {a : Decimal} (hzero : a.coefficient ≠ 0) :
    ctx.rounded a.toRat = (if a.negative then -1 else 1) *
      (roundHalfEven a.coefficient (10 ^ excess ctx a) * 10 ^ (a.exponent + excess ctx a)) := by
  have hplace := @exponent_add_excess ctx a hzero
  have hvalue : a.toRat = (if a.negative then -1 else 1) * (a.coefficient * 10 ^ a.exponent) :=
    toRat_mk a.negative a.coefficient a.exponent
  rcases Nat.eq_zero_or_pos (excess ctx a) with hk | hk
  · -- nothing has to go
    have hround := roundHalfEven_mul a.coefficient 1 one_pos
    rw [mul_one] at hround
    rw [Context.rounded, toPlace_of_isMultiple, hvalue, hk, pow_zero, hround, Nat.cast_zero,
      add_zero]
    refine IsMultiple.of_le ⟨a.signed, rfl⟩ ?_
    omega
  · have hplace' : ctx.place a.toRat = a.exponent + excess ctx a := by omega
    have hten : (10 : ℚ) ^ (a.exponent + excess ctx a) = 10 ^ a.exponent * 10 ^ excess ctx a := by
      rw [zpow_add₀ (by norm_num), zpow_natCast]
    have hunit := (ten_zpow_pos a.exponent).ne'
    have hdiv : a.coefficient * (10 : ℚ) ^ a.exponent / 10 ^ (a.exponent + excess ctx a) =
        a.coefficient / (10 ^ excess ctx a : ℕ) := by
      rw [hten, mul_comm, mul_div_mul_left _ _ hunit]
      push_cast
      rfl
    have hnearest := nearest_div a.coefficient (show 0 < 10 ^ excess ctx a by positivity)
    rw [Context.rounded, toPlace, hplace', hvalue]
    split_ifs
    · rw [neg_one_mul, neg_div, hdiv, nearest_neg, hnearest]
      push_cast
      ring
    · rw [one_mul, hdiv, hnearest]
      push_cast
      ring

/-- A number that is rounded to zero has too small an exponent. -/
theorem exponent_of_roundHalfEven_eq_zero {ctx : Context} {a : Decimal} (hzero : a.coefficient ≠ 0)
    (h : roundHalfEven a.coefficient (10 ^ excess ctx a) = 0) :
    a.exponent < ctx.etiny ∧ a.exponent + excess ctx a = ctx.etiny := by
  have hpos := ctx.precision_pos
  have hdivision := div_le_roundHalfEven a.coefficient (10 ^ excess ctx a)
  have hlt : a.coefficient < 10 ^ excess ctx a := by
    rw [h] at hdivision
    exact Nat.lt_of_div_eq_zero (by positivity) (Nat.le_zero.1 hdivision)
  have hle : digits a.coefficient ≤ excess ctx a := by
    have hlow := (pow_digits_le hzero).trans_lt hlt
    have := (Nat.pow_lt_pow_iff_right (by omega)).1 hlow
    omega
  have hdigits : 0 < digits a.coefficient := Nat.succ_pos _
  unfold excess at *
  omega

/-- **The result of an operation** has the rounded value; a value that overflows is signalled. -/
theorem finalize_value (ctx : Context) (a : Decimal) :
    (∃ b, finalize ctx a = .ok b ∧ b.toRat = ctx.rounded a.toRat ∧ ¬ ctx.Overflows a.toRat) ∨
      finalize ctx a = .error .overflow ∧ ctx.Overflows a.toRat := by
  by_cases hzero : a.coefficient = 0
  · have hvalue : a.toRat = 0 := toRat_eq_zero_iff.2 hzero
    refine Or.inl ⟨_, if_pos hzero, ?_, ?_⟩
    · rw [hvalue, rounded_zero]
      exact toRat_eq_zero_iff.2 hzero
    · rw [Context.Overflows, hvalue, rounded_zero, abs_zero, not_le]
      exact ten_zpow_pos _
  · obtain ⟨b, hvalue, -, hsmall, heq⟩ := finalize_eq ctx hzero
    rw [← rounded_toRat hzero] at hvalue
    have hoverflow : ctx.Overflows a.toRat ↔ ctx.emax < b.exponent + digits b.coefficient - 1 := by
      rw [Context.Overflows, ← hvalue]
      by_cases hb : b.coefficient = 0
      · have hle := ctx.etiny_le_emax
        obtain ⟨hround, hexponent⟩ := hsmall hb
        have htiny := (exponent_of_roundHalfEven_eq_zero hzero hround).2
        rw [toRat_eq_zero_iff.2 hb, abs_zero, hb, show digits 0 = 1 by simp [digits]]
        have hpos := ten_zpow_pos (ctx.emax + 1)
        constructor
        · intro hle
          exact absurd hle (not_le.2 hpos)
        · intro hlt
          omega
      · have hpos : 0 < |b.toRat| := abs_pos.2 fun h => hb (toRat_eq_zero_iff.1 h)
        have hlog := Int.zpow_le_iff_le_log (show 1 < 10 by omega) hpos (x := ctx.emax + 1)
        rw [Nat.cast_ofNat] at hlog
        rw [hlog, log_abs_toRat hb]
        omega
    rw [heq, hoverflow]
    split_ifs with hlarge
    · exact Or.inr ⟨rfl, hlarge⟩
    · exact Or.inl ⟨b, rfl, hvalue, hlarge⟩

/-! ### Operations -/

theorem mul_value (ctx : Context) (a b : Decimal) :
    (∃ c, mul ctx a b = .ok c ∧ c.toRat = ctx.rounded (a.toRat * b.toRat) ∧
        ¬ ctx.Overflows (a.toRat * b.toRat)) ∨
      mul ctx a b = .error .overflow ∧ ctx.Overflows (a.toRat * b.toRat) := by
  rw [← toRat_product]
  exact finalize_value ctx _

theorem add_value (ctx : Context) (a b : Decimal) :
    (∃ c, add ctx a b = .ok c ∧ c.toRat = ctx.rounded (a.toRat + b.toRat) ∧
        ¬ ctx.Overflows (a.toRat + b.toRat)) ∨
      add ctx a b = .error .overflow ∧ ctx.Overflows (a.toRat + b.toRat) := by
  rw [← toRat_exactSum]
  exact finalize_value ctx _

/-- A value that fits is not changed. -/
theorem rounded_of_fits {ctx : Context} {q : ℚ} (h : Fits ctx q) :
    ctx.rounded q = q ∧ ¬ ctx.Overflows q := by
  obtain ⟨n, e, hvalue, -⟩ := id h
  obtain ⟨a, rfl⟩ : ∃ a : Decimal, a.toRat = q := by
    rcases abs_eq_abs.1 (hvalue.trans (abs_of_nonneg (by positivity)).symm) with hq | hq
    · exact ⟨⟨false, n, e⟩, by simp [toRat, signed, hq]⟩
    · exact ⟨⟨true, n, e⟩, by simp [toRat, signed, hq]⟩
  obtain ⟨b, hb, hexact⟩ := finalize_exact h
  rcases finalize_value ctx a with ⟨c, hc, hrounded, hoverflow⟩ | ⟨herror, -⟩
  · rw [hb, Except.ok.injEq] at hc
    rw [← hrounded, ← hc]
    exact ⟨hexact, hoverflow⟩
  · rw [hb] at herror
    cases herror

/-! ### Zeros with a sign -/

/-- A zero that is written with a minus. -/
def IsZeroSign (a : Decimal) : Prop := a.negative = true ∧ a.coefficient = 0

instance (a : Decimal) : Decidable (IsZeroSign a) := inferInstanceAs (Decidable (_ ∧ _))

theorem exponent_of_finalize {ctx : Context} {a b : Decimal} (h : finalize ctx a = .ok b) :
    ctx.etiny ≤ b.exponent := by
  by_cases hzero : a.coefficient = 0
  · rw [finalize, if_pos hzero, Except.ok.injEq] at h
    rw [← h]
    exact le_max_left _ _
  · obtain ⟨b', -, hexponent, -, heq⟩ := finalize_eq ctx hzero
    rw [heq] at h
    split_ifs at h
    obtain rfl := Except.ok.inj h
    have hplace := @exponent_add_excess ctx a hzero
    have := le_max_left ctx.etiny (Int.log 10 |a.toRat| + 1 - ctx.precision)
    unfold Context.place at hplace
    omega

/-- A sum with a number that has no minus, or is not zero, is no zero with a minus. -/
theorem not_isZeroSign_add {ctx : Context} {a b c : Decimal} (ha : ¬ IsZeroSign a)
    (hexponent : ctx.etiny ≤ a.exponent) (hexponent' : ctx.etiny ≤ b.exponent)
    (h : add ctx a b = .ok c) : ¬ IsZeroSign c := by
  rintro ⟨hnegative, hcoefficient⟩
  have hmin : (exactSum a b).exponent = min a.exponent b.exponent := rfl
  by_cases hzero : (exactSum a b).coefficient = 0
  · rw [add, finalize, if_pos hzero, Except.ok.injEq] at h
    have hsigns : (exactSum a b).negative = true := by rw [← hnegative, ← h]
    simp only [exactSum, Int.natAbs_eq_zero] at hzero hsigns
    rw [if_pos hzero, Bool.and_eq_true] at hsigns
    refine ha ⟨hsigns.1, ?_⟩
    -- two numbers with a minus whose sum is zero
    rw [signed, signed, if_pos hsigns.1, if_pos hsigns.2] at hzero
    have hleft := Int.mul_nonneg (Int.natCast_nonneg a.coefficient)
      (pow_nonneg (by omega : (0 : ℤ) ≤ 10) (a.exponent - min a.exponent b.exponent).toNat)
    have hright := Int.mul_nonneg (Int.natCast_nonneg b.coefficient)
      (pow_nonneg (by omega : (0 : ℤ) ≤ 10) (b.exponent - min a.exponent b.exponent).toNat)
    have hproduct : (a.coefficient : ℤ) *
        10 ^ (a.exponent - min a.exponent b.exponent).toNat = 0 := by
      rw [neg_mul, neg_mul] at hzero
      omega
    have hpow : (10 : ℤ) ^ (a.exponent - min a.exponent b.exponent).toNat ≠ 0 := by positivity
    exact_mod_cast (mul_eq_zero.1 hproduct).resolve_right hpow
  · obtain ⟨b', -, -, hsmall, heq⟩ := finalize_eq ctx hzero
    rw [add, heq] at h
    split_ifs at h
    obtain rfl := Except.ok.inj h
    have := (exponent_of_roundHalfEven_eq_zero hzero (hsmall hcoefficient).1).1
    omega

theorem not_isZeroSign_of_ne {a : Decimal} (h : a.toRat ≠ 0) : ¬ IsZeroSign a :=
  fun hsign => h (toRat_eq_zero_iff.2 hsign.2)

/-- Apart from zeros with a minus, the value determines the sign. -/
theorem negative_congr {a b : Decimal} (hvalue : a.toRat = b.toRat) (ha : ¬ IsZeroSign a)
    (hb : ¬ IsZeroSign b) : a.negative = b.negative := by
  have hclash : ∀ {a b : Decimal}, a.toRat = b.toRat → ¬ IsZeroSign a → a.negative = true →
      b.negative = false → False := by
    intro a b hvalue ha hneg hpos
    have hleft := toRat_eq_neg_abs hneg
    have hright := toRat_eq_abs hpos
    have hnonneg := abs_nonneg a.toRat
    have hnonneg' := abs_nonneg b.toRat
    exact ha ⟨hneg, toRat_eq_zero_iff.1 (by linarith)⟩
  cases hneg : a.negative with
  | true =>
    cases hneg' : b.negative with
    | true => rfl
    | false => exact (hclash hvalue ha hneg hneg').elim
  | false =>
    cases hneg' : b.negative with
    | true => exact (hclash hvalue.symm hb hneg' hneg).elim
    | false => rfl

/-- A zero with a minus is written with it. -/
theorem plainText_of_isZeroSign {a : Decimal} (h : IsZeroSign a) : plainText a = "-0".toList := by
  have hvalue : a.toRat = toRat ⟨true, 0, 0⟩ := by
    rw [toRat_eq_zero_iff.2 h.2]
    exact (toRat_eq_zero_iff.2 rfl).symm
  exact plainText_congr hvalue h.1

theorem plainText_of_toRat_eq_zero {a : Decimal} (h : a.toRat = 0) (hsign : ¬ IsZeroSign a) :
    plainText a = "0".toList := by
  have hvalue : a.toRat = zero.toRat := by rw [h, toRat_zero]
  exact plainText_congr hvalue (negative_congr hvalue hsign (by decide))

/-- **Two numbers have one text** exactly if they have one value, apart from zeros with a minus. -/
theorem plainText_eq_iff {a b : Decimal} (hb : ¬ IsZeroSign b) :
    plainText a = plainText b ↔ a.toRat = b.toRat ∧ ¬ IsZeroSign a := by
  constructor
  · intro heq
    have hvalue : a.toRat = b.toRat := by
      apply Option.some.inj
      rw [← fixedValue?_plainText, heq, fixedValue?_plainText]
    refine ⟨hvalue, fun ha => ?_⟩
    have hzero : b.toRat = 0 := hvalue ▸ toRat_eq_zero_iff.2 ha.2
    rw [plainText_of_isZeroSign ha, plainText_of_toRat_eq_zero hzero hb] at heq
    exact absurd heq (by decide)
  · rintro ⟨hvalue, ha⟩
    exact plainText_congr hvalue (negative_congr hvalue ha hb)

end Decimal
