import Mathlib.Algebra.Order.Floor.Ring
import Mathlib.Data.Int.Log
import Mathlib.Data.Nat.Prime.Basic
import Text2Cypher.Library.GeneralFormat

/-!
# Doubles

The double nearest to a rational number, the even one of two, and the shortest decimal number that
is read as a double.

* `representable_round`, `round_of_representable`: rounding gives a double and keeps doubles;
* `representable_int`: the integers that are doubles;
* **`ofRat_shortest`**: the shortest decimal number is read back.
-/

namespace Binary64

open Decimal Python

/-! ### Finite doubles -/

/-- The value of a finite double. -/
def Representable (q : ℚ) : Prop :=
  ∃ m e : ℤ, |m| < 2 ^ 53 ∧ -1074 ≤ e ∧ q = m * 2 ^ e ∧ |q| < 2 ^ 1024

/-- From here on, a number is nearer to where the next double would be than to the last one. -/
def overflow : ℚ := 2 ^ 1024 - 2 ^ 970

/-- The nearest integer, and the even one of two. -/
def nearest (q : ℚ) : ℤ :=
  if q < 0 then -(roundHalfEven q.num.natAbs q.den : ℤ) else roundHalfEven q.num.natAbs q.den

/-- The exponent of the last binary digit that a double has near a number. -/
def lastPlace (q : ℚ) : ℤ := max (Int.log 2 |q| - 52) (-1074)

/-- The value of the nearest double, unless the number is too large. -/
def round (q : ℚ) : ℚ := nearest (q / 2 ^ lastPlace q) * 2 ^ lastPlace q

theorem two_zpow_pos (e : ℤ) : (0 : ℚ) < 2 ^ e := by positivity

theorem two_zpow_le {e e' : ℤ} (h : e ≤ e') : (2 : ℚ) ^ e ≤ 2 ^ e' :=
  zpow_le_zpow_right₀ (by norm_num) h

/-! Powers that are too large to be evaluated, in units of half the last place of the largest
doubles. -/

theorem two_pow_1024 : (2 : ℚ) ^ 1024 = 2 ^ 54 * 2 ^ (970 : ℤ) := by
  rw [← zpow_natCast, ← zpow_natCast, ← zpow_add₀ (by norm_num)]
  rfl

theorem two_zpow_971 : (2 : ℚ) ^ (971 : ℤ) = 2 * 2 ^ (970 : ℤ) := by
  rw [← zpow_one_add₀ (by norm_num)]
  rfl

theorem overflow_eq : overflow = (2 ^ 54 - 1) * 2 ^ (970 : ℤ) := by
  have hnat : (2 : ℚ) ^ (970 : ℤ) = 2 ^ 970 := zpow_natCast 2 970
  rw [overflow, two_pow_1024, hnat, sub_mul, one_mul]

theorem nearest_intCast (n : ℤ) : nearest n = n := by
  unfold nearest
  have hround : roundHalfEven (n : ℚ).num.natAbs (n : ℚ).den = n.natAbs := by
    rw [Rat.num_intCast, Rat.den_intCast]
    simpa using roundHalfEven_mul n.natAbs 1 one_pos
  rw [hround]
  by_cases hneg : n < 0
  · rw [if_pos (by exact_mod_cast hneg)]
    omega
  · rw [if_neg (by exact_mod_cast hneg)]
    omega

theorem abs_nearest_sub_le (q : ℚ) : |(nearest q : ℚ) - q| ≤ 1 / 2 := by
  have herror := abs_roundHalfEven_sub_le q.num.natAbs (Rat.den_pos q)
  have habs : (q.num.natAbs : ℚ) / q.den = |q| := by
    rw [← Int.cast_natCast, Int.natCast_natAbs, Int.cast_abs]
    conv_rhs => rw [← Rat.num_div_den q, abs_div, Nat.abs_cast]
  rw [habs] at herror
  unfold nearest
  split_ifs with hneg
  · rw [abs_of_neg hneg] at herror
    rw [← abs_neg]
    convert herror using 2
    push_cast
    ring
  · rw [abs_of_nonneg (not_lt.1 hneg)] at herror
    exact_mod_cast herror

/-- An integer near a number below an integer is not above it. -/
theorem abs_nearest_le {q : ℚ} {n : ℕ} (h : |q| < n) : |nearest q| ≤ n := by
  have herror := abs_nearest_sub_le q
  have htriangle : |(nearest q : ℚ)| ≤ |(nearest q : ℚ) - q| + |q| := by
    simpa using abs_add_le ((nearest q : ℚ) - q) q
  have hlt : |(nearest q : ℚ)| < (n : ℚ) + 1 := by linarith
  have hlt' : |nearest q| < (n : ℤ) + 1 := by exact_mod_cast hlt
  omega

/-- A number near which the last place is `e` has 53 binary digits there at most. -/
theorem abs_div_lastPlace_lt (q : ℚ) : |q / 2 ^ lastPlace q| < 2 ^ 53 := by
  have hpos := two_zpow_pos (lastPlace q)
  rw [abs_div, abs_of_pos hpos, div_lt_iff₀ hpos]
  have hlt : |q| < (2 : ℚ) ^ (Int.log 2 |q| + 1) := by
    exact_mod_cast Int.lt_zpow_succ_log_self (b := 2) (by omega) |q|
  refine hlt.trans_le ?_
  have hle : Int.log 2 |q| + 1 ≤ 53 + lastPlace q := by
    unfold lastPlace
    omega
  calc (2 : ℚ) ^ (Int.log 2 |q| + 1) ≤ 2 ^ (53 + lastPlace q) := two_zpow_le hle
    _ = 2 ^ 53 * 2 ^ lastPlace q := by rw [zpow_add₀ (by norm_num)]; norm_num

/-- **Rounding gives a double**, unless the number is too large. -/
theorem representable_round {q : ℚ} (h : |q| < overflow) : Representable (round q) := by
  have hpos := two_zpow_pos (lastPlace q)
  have hm : |nearest (q / 2 ^ lastPlace q)| ≤ 2 ^ 53 := by
    exact_mod_cast abs_nearest_le (n := 2 ^ 53) (by exact_mod_cast abs_div_lastPlace_lt q)
  have hlast : -1074 ≤ lastPlace q := le_max_right _ _
  have habs : |round q| = |(nearest (q / 2 ^ lastPlace q) : ℚ)| * 2 ^ lastPlace q := by
    rw [round, abs_mul, abs_of_pos hpos]
  have hrange : |round q| < 2 ^ 1024 := by
    rw [habs]
    by_cases hplace : lastPlace q ≤ 970
    · calc |(nearest (q / 2 ^ lastPlace q) : ℚ)| * 2 ^ lastPlace q ≤ 2 ^ 53 * 2 ^ (970 : ℤ) := by
            gcongr
            · exact_mod_cast hm
            · norm_num
        _ < 2 ^ 1024 := by
            rw [two_pow_1024]
            exact mul_lt_mul_of_pos_right (by norm_num) (two_zpow_pos 970)
    · -- the number is below the last double by half of its last place at least
      have hlog : lastPlace q = Int.log 2 |q| - 52 := by
        unfold lastPlace at hplace ⊢
        omega
      have hq : 0 < |q| := by
        by_contra hzero
        rw [Int.log_of_right_le_zero _ (not_lt.1 hzero)] at hlog
        omega
      have hupper : Int.log 2 |q| < 1024 := by
        refine (Int.lt_zpow_iff_log_lt (by omega) hq).1 (h.trans_le ?_)
        have hnat : ((2 : ℕ) : ℚ) ^ (1024 : ℤ) = 2 ^ 1024 := zpow_natCast _ 1024
        rw [hnat, overflow_eq, two_pow_1024]
        exact mul_le_mul_of_nonneg_right (by norm_num) (two_zpow_pos 970).le
      have hplace : lastPlace q = 971 := by omega
      rw [hplace]
      have hscaled : |q / 2 ^ (971 : ℤ)| < 2 ^ 53 - 1 / 2 := by
        rw [abs_div, abs_of_pos (two_zpow_pos 971), div_lt_iff₀ (two_zpow_pos 971)]
        refine h.trans_eq ?_
        rw [overflow_eq, two_zpow_971]
        ring
      have herror := abs_nearest_sub_le (q / 2 ^ (971 : ℤ))
      have htriangle : |(nearest (q / 2 ^ (971 : ℤ)) : ℚ)| ≤
          |(nearest (q / 2 ^ (971 : ℤ)) : ℚ) - q / 2 ^ (971 : ℤ)| + |q / 2 ^ (971 : ℤ)| := by
        simpa using abs_add_le ((nearest (q / 2 ^ (971 : ℤ)) : ℚ) - q / 2 ^ (971 : ℤ))
          (q / 2 ^ (971 : ℤ))
      calc |(nearest (q / 2 ^ (971 : ℤ)) : ℚ)| * 2 ^ (971 : ℤ) < 2 ^ 53 * 2 ^ (971 : ℤ) :=
            mul_lt_mul_of_pos_right (by linarith) (two_zpow_pos 971)
        _ = 2 ^ 1024 := by
            rw [two_zpow_971, two_pow_1024]
            ring
  by_cases hcarry : |nearest (q / 2 ^ lastPlace q)| < 2 ^ 53
  · exact ⟨_, lastPlace q, hcarry, hlast, rfl, hrange⟩
  · -- the number is rounded to a power of two
    have hfull : |nearest (q / 2 ^ lastPlace q)| = 2 ^ 53 := le_antisymm hm (not_lt.1 hcarry)
    have hdouble : ∀ n : ℤ, |n| = 2 ^ 53 → ∃ m : ℤ, |m| < 2 ^ 53 ∧ n = m * 2 := by
      intro n hn
      rcases abs_eq (by norm_num) |>.1 hn with rfl | rfl
      · exact ⟨2 ^ 52, by norm_num, by norm_num⟩
      · exact ⟨-2 ^ 52, by norm_num, by norm_num⟩
    obtain ⟨m, hm, heq⟩ := hdouble _ hfull
    refine ⟨m, lastPlace q + 1, hm, by omega, ?_, hrange⟩
    rw [round, heq, zpow_add₀ (by norm_num), zpow_one]
    push_cast
    ring

/-- **Doubles stay as they are.** -/
theorem round_of_representable {q : ℚ} (h : Representable q) : round q = q := by
  obtain ⟨m, e, hm, he, rfl, -⟩ := h
  by_cases hzero : m = 0
  · subst hzero
    unfold round
    rw [Int.cast_zero, zero_mul, zero_div]
    have : nearest 0 = 0 := by exact_mod_cast nearest_intCast 0
    rw [this]
    simp
  · have hpos : 0 < |(m : ℚ) * 2 ^ e| := by
      rw [abs_pos]
      exact mul_ne_zero (by exact_mod_cast hzero) (two_zpow_pos e).ne'
    -- all binary digits stand before the last place
    have hle : lastPlace (m * 2 ^ e) ≤ e := by
      have hlt : |(m : ℚ) * 2 ^ e| < (2 : ℚ) ^ (53 + e) := by
        rw [abs_mul, abs_of_pos (two_zpow_pos e), zpow_add₀ (by norm_num)]
        refine mul_lt_mul_of_pos_right ?_ (two_zpow_pos e)
        exact_mod_cast hm
      have hlog : Int.log 2 |(m : ℚ) * 2 ^ e| < 53 + e :=
        (Int.lt_zpow_iff_log_lt (by omega) hpos).1 (by exact_mod_cast hlt)
      unfold lastPlace
      omega
    obtain ⟨k, hk⟩ := Int.eq_ofNat_of_zero_le (sub_nonneg.2 hle)
    have hsplit : (2 : ℚ) ^ e = 2 ^ k * 2 ^ lastPlace (m * 2 ^ e) := by
      rw [← zpow_natCast, ← zpow_add₀ (by norm_num)]
      congr 1
      omega
    have hdiv : (m : ℚ) * 2 ^ e / 2 ^ lastPlace (m * 2 ^ e) = ((m * 2 ^ k : ℤ) : ℚ) := by
      rw [div_eq_iff (two_zpow_pos _).ne']
      conv_lhs => rw [hsplit]
      push_cast
      ring
    unfold round
    rw [hdiv, nearest_intCast]
    conv_rhs => rw [hsplit]
    push_cast
    ring

theorem Representable.lt_overflow {q : ℚ} (h : Representable q) : |q| < overflow := by
  obtain ⟨m, e, hm, -, rfl, hrange⟩ := h
  rw [abs_mul, abs_of_pos (two_zpow_pos e)] at hrange ⊢
  by_cases he : e ≤ 970
  · have hm' : |(m : ℚ)| ≤ 2 ^ 53 := by exact_mod_cast hm.le
    calc |(m : ℚ)| * 2 ^ e ≤ 2 ^ 53 * 2 ^ (970 : ℤ) := by
          gcongr
          norm_num
      _ < overflow := by
          rw [overflow_eq]
          exact mul_lt_mul_of_pos_right (by norm_num) (two_zpow_pos 970)
  · obtain ⟨k, hk⟩ := Int.eq_ofNat_of_zero_le (show 0 ≤ e - 971 by omega)
    have hsplit : |(m : ℚ)| * 2 ^ e = ((|m| * 2 ^ k : ℤ) : ℚ) * 2 ^ (971 : ℤ) := by
      rw [show e = (k : ℤ) + 971 by omega, zpow_add₀ (by norm_num), zpow_natCast,
        Int.cast_mul, Int.cast_abs, Int.cast_pow, Int.cast_ofNat, mul_assoc]
    rw [hsplit] at hrange ⊢
    have hlt : ((|m| * 2 ^ k : ℤ) : ℚ) < 2 ^ 53 := by
      refine lt_of_mul_lt_mul_right (hrange.trans_eq ?_) (two_zpow_pos 971).le
      rw [two_zpow_971, two_pow_1024]
      ring
    have hlt' : |m| * 2 ^ k < (2 : ℤ) ^ 53 := by exact_mod_cast hlt
    have hle : ((|m| * 2 ^ k : ℤ) : ℚ) ≤ 2 ^ 53 - 1 := by
      have : |m| * 2 ^ k ≤ (2 : ℤ) ^ 53 - 1 := by omega
      exact_mod_cast this
    calc ((|m| * 2 ^ k : ℤ) : ℚ) * 2 ^ (971 : ℤ) ≤ (2 ^ 53 - 1) * 2 ^ (971 : ℤ) :=
          mul_le_mul_of_nonneg_right hle (two_zpow_pos 971).le
      _ < overflow := by
          rw [overflow_eq, two_zpow_971, ← mul_assoc]
          exact mul_lt_mul_of_pos_right (by norm_num) (two_zpow_pos 970)

/-- **The integers that are doubles**: those below the range with 53 binary digits that count. -/
theorem representable_int (n : ℤ) :
    Representable n ↔ |n| < 2 ^ 1024 ∧ ∃ (m : ℤ) (k : ℕ), |m| < 2 ^ 53 ∧ n = m * 2 ^ k := by
  constructor
  · rintro ⟨m, e, hm, -, hn, hrange⟩
    refine ⟨(Int.cast_lt (R := ℚ)).1 ?_, ?_⟩
    · rwa [Int.cast_abs, Int.cast_pow, Int.cast_ofNat]
    by_cases he : 0 ≤ e
    · obtain ⟨k, rfl⟩ := Int.eq_ofNat_of_zero_le he
      refine ⟨m, k, hm, ?_⟩
      exact_mod_cast hn
    · refine ⟨n, 0, ?_, by simp⟩
      have hle : |(n : ℚ)| ≤ |(m : ℚ)| := by
        rw [hn, abs_mul, abs_of_pos (two_zpow_pos e)]
        exact mul_le_of_le_one_right (abs_nonneg _) (zpow_le_one_of_nonpos₀ (by norm_num) (by omega))
      have hle' : |n| ≤ |m| := by exact_mod_cast hle
      exact hle'.trans_lt hm
  · rintro ⟨hrange, m, k, hm, rfl⟩
    refine ⟨m, k, hm, by omega, by push_cast; rw [zpow_natCast], ?_⟩
    have hcast := (Int.cast_lt (R := ℚ)).2 hrange
    rwa [Int.cast_abs, Int.cast_pow 2 1024, Int.cast_ofNat] at hcast

/-! ### Doubles -/

/-- A double, with one zero only. -/
inductive Double
  | finite (value : ℚ) (representable : Representable value)
  | infinite (negative : Bool)
  | nan

/-- The double nearest to a number. -/
def ofRat (q : ℚ) : Double :=
  if h : |q| < overflow then .finite (round q) (representable_round h)
  else .infinite (decide (q < 0))

theorem ofRat_of_representable {q : ℚ} (h : Representable q) : ofRat q = .finite q h := by
  have hlt := h.lt_overflow
  simp only [ofRat, dif_pos hlt, round_of_representable h]

/-- The double that a number denotes. -/
def ofNumber : Number → Double
  | .finite a => ofRat a.toRat
  | .infinite negative => .infinite negative
  | .nan => .nan

/-! ### The shortest decimal number -/

/-- A decimal number is read as the double. -/
def ReadsAs (a : Decimal) (q : ℚ) : Prop := |a.toRat| < overflow ∧ round a.toRat = q

instance (a : Decimal) (q : ℚ) : Decidable (ReadsAs a q) := by
  unfold ReadsAs
  infer_instance

/-- The numbers with so many digits directly below and above. -/
def neighbours (digits : ℕ) (q : ℚ) : Decimal × Decimal :=
  let exponent := Int.log 10 |q| + 1 - digits
  let coefficient := (|q| / 10 ^ exponent).floor.natAbs
  (⟨decide (q < 0), coefficient, exponent⟩, ⟨decide (q < 0), coefficient + 1, exponent⟩)

/-- The nearer one of two numbers, and the even one if both are equally near. -/
def nearer (q : ℚ) (low high : Decimal) : Decimal :=
  if |low.toRat - q| < |high.toRat - q| then low
  else if |high.toRat - q| < |low.toRat - q| then high
  else if low.coefficient % 2 = 0 then low else high

/-- The nearest number with so many digits that is read as the double. -/
def withDigits (digits : ℕ) (q : ℚ) : Option Decimal :=
  let (low, high) := neighbours digits q
  if ReadsAs low q then some (if ReadsAs high q then nearer q low high else low)
  else if ReadsAs high q then some high else none

/-- All digits of a double: its denominator is a power of two. -/
def allDigits (q : ℚ) : Decimal :=
  let places := Nat.log 2 q.den
  ⟨decide (q < 0), q.num.natAbs * 5 ^ places, -places⟩

/-- The first number that is found, with more digits each time. -/
def shortestFrom (q : ℚ) : ℕ → ℕ → Decimal
  | 0, _ => allDigits q
  | n + 1, digits => (withDigits digits q).getD (shortestFrom q n (digits + 1))

/-- The shortest decimal number that is read as the double.  Seventeen digits are always enough. -/
def shortest (q : ℚ) : Decimal := shortestFrom q 17 1

theorem readsAs_withDigits {digits : ℕ} {q : ℚ} {a : Decimal} (h : withDigits digits q = some a) :
    ReadsAs a q := by
  unfold withDigits at h
  simp only at h
  split_ifs at h with hlow hhigh hhigh
  · obtain rfl := Option.some.inj h
    unfold nearer
    split_ifs
    · exact hlow
    · exact hhigh
    · exact hlow
    · exact hhigh
  · exact Option.some.inj h ▸ hlow
  · exact Option.some.inj h ▸ hhigh

theorem exists_den_eq {q : ℚ} (h : Representable q) : ∃ k, q.den = 2 ^ k := by
  obtain ⟨m, e, -, -, rfl, -⟩ := h
  by_cases he : 0 ≤ e
  · obtain ⟨k, rfl⟩ := Int.eq_ofNat_of_zero_le he
    refine ⟨0, ?_⟩
    have hint : (m : ℚ) * 2 ^ (k : ℤ) = ((m * 2 ^ k : ℤ) : ℚ) := by
      push_cast
      rw [zpow_natCast]
    rw [hint, Rat.den_intCast, pow_zero]
  · obtain ⟨k, hk⟩ := Int.eq_ofNat_of_zero_le (show 0 ≤ -e by omega)
    have hquotient : (m : ℚ) * 2 ^ e = m / ((2 ^ k : ℤ) : ℚ) := by
      rw [show e = -(k : ℤ) by omega, zpow_neg, zpow_natCast]
      push_cast
      rfl
    have hdvd : (((m : ℚ) * 2 ^ e).den : ℤ) ∣ 2 ^ k := by
      rw [hquotient, ← Rat.divInt_eq_div]
      exact Rat.den_dvd m (2 ^ k)
    have hdvd' : ((m : ℚ) * 2 ^ e).den ∣ 2 ^ k := by exact_mod_cast hdvd
    obtain ⟨j, -, hj⟩ := (Nat.dvd_prime_pow Nat.prime_two).1 hdvd'
    exact ⟨j, hj⟩

theorem toRat_allDigits {q : ℚ} (h : Representable q) : (allDigits q).toRat = q := by
  obtain ⟨k, hk⟩ := exists_den_eq h
  have hten : (5 : ℚ) ^ k * 10 ^ (-k : ℤ) = 1 / 2 ^ k := by
    rw [zpow_neg, zpow_natCast, show (10 : ℚ) = 5 * 2 by norm_num, mul_pow]
    field_simp
  have habs : (q.num.natAbs : ℚ) / 2 ^ k = |q| := by
    have hden : (q.den : ℚ) = 2 ^ k := by exact_mod_cast hk
    rw [← Int.cast_natCast, Int.natCast_natAbs, Int.cast_abs, ← hden]
    conv_rhs => rw [← Rat.num_div_den q, abs_div, Nat.abs_cast]
  rw [allDigits, toRat_mk, hk, Nat.log_pow (by omega)]
  push_cast
  rw [mul_assoc (q.num.natAbs : ℚ), hten, mul_one_div, habs]
  by_cases hneg : q < 0
  · simp [hneg, abs_of_neg hneg]
  · simp [hneg, abs_of_nonneg (not_lt.1 hneg)]

theorem readsAs_shortestFrom {q : ℚ} (h : Representable q) (n digits : ℕ) :
    ReadsAs (shortestFrom q n digits) q := by
  induction n generalizing digits with
  | zero =>
    rw [shortestFrom, ReadsAs, toRat_allDigits h]
    exact ⟨h.lt_overflow, round_of_representable h⟩
  | succ n ih =>
    rw [shortestFrom]
    cases hdigits : withDigits digits q with
    | none => exact ih (digits + 1)
    | some a => exact readsAs_withDigits hdigits

/-- **The shortest decimal number is read back.** -/
theorem ofRat_shortest {q : ℚ} (h : Representable q) : ofRat (shortest q).toRat = .finite q h := by
  obtain ⟨hlt, hround⟩ := readsAs_shortestFrom h 17 1
  unfold shortest
  simp only [ofRat, dif_pos hlt, hround]

/-- `repr(x)`; zeros and the point are left out behind an integer. -/
def reprText : Double → Text
  | .finite q _ => roundedText 16 (shortest q)
  | .infinite negative => signText negative ++ "inf".toList
  | .nan => "nan".toList

end Binary64
