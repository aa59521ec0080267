import Mathlib.Data.List.Sort
import Mathlib.Order.Lattice

/-!
# Sorting records by several fields

Records are compared field by field, each field in its direction; a record without the field comes
last in both directions.  Comparison results are integers, as hand-written comparators return them.

* `TotalPreorder`: what a comparator has to satisfy;
* `totalPreorder_compareBy`: the comparison by fields does;
* `sortBy_perm`: sorting with such a comparator forgets the order of the list, if records that
  compare equal are equal.
-/

namespace FieldOrder

variable {κ ρ : Type}

/-- A comparator orders all records, up to records that compare equal. -/
structure TotalPreorder (compare : ρ → ρ → ℤ) : Prop where
  refl : ∀ a, compare a a = 0
  swap : ∀ a b, compare b a = -compare a b
  trans : ∀ a b c, compare a b ≤ 0 → compare b c ≤ 0 → compare a c ≤ 0

/-! ### One field -/

variable [LinearOrder κ]

/-- Compare two values of a field, of which either may be missing. -/
def compareField (descending : Bool) : Option κ → Option κ → ℤ
  | none, none => 0
  | none, some _ => 1
  | some _, none => -1
  | some a, some b =>
    if a = b then 0
    else
      let result := if a < b then -1 else 1
      if descending then -result else result

/-- A value comes before another one in its direction. -/
def Before (descending : Bool) (a b : κ) : Prop := if descending then b < a else a < b

theorem before_asymm {descending : Bool} {a b : κ} (h : Before descending a b) :
    ¬ Before descending b a := by
  cases descending with
  | false => exact lt_asymm (show a < b from h)
  | true => exact lt_asymm (show b < a from h)

theorem before_trans {descending : Bool} {a b c : κ} (h : Before descending a b)
    (h' : Before descending b c) : Before descending a c := by
  cases descending with
  | false => exact lt_trans (show a < b from h) h'
  | true => exact lt_trans (show c < b from h') h

/-- The three results for values that are there. -/
theorem compareField_some_cases (descending : Bool) (a b : κ) :
    a = b ∧ compareField descending (some a) (some b) = 0 ∨
      Before descending a b ∧ compareField descending (some a) (some b) = -1 ∨
        Before descending b a ∧ compareField descending (some a) (some b) = 1 := by
  rcases lt_trichotomy a b with h | rfl | h
  · cases descending with
    | false => exact Or.inr (Or.inl ⟨h, by simp [compareField, h.ne, h]⟩)
    | true => exact Or.inr (Or.inr ⟨h, by simp [compareField, h.ne, h]⟩)
  · exact Or.inl ⟨rfl, by simp [compareField]⟩
  · cases descending with
    | false => exact Or.inr (Or.inr ⟨h, by simp [compareField, h.ne', h.not_gt]⟩)
    | true => exact Or.inr (Or.inl ⟨h, by simp [compareField, h.ne', h.not_gt]⟩)

theorem compareField_swap (descending : Bool) (x y : Option κ) :
    compareField descending y x = -compareField descending x y := by
  cases x with
  | none => cases y <;> rfl
  | some a =>
    cases y with
    | none => rfl
    | some b =>
      rcases compareField_some_cases descending a b with ⟨rfl, h⟩ | ⟨hab, h⟩ | ⟨hba, h⟩
      · omega
      · rcases compareField_some_cases descending b a with ⟨rfl, -⟩ | ⟨hba, -⟩ | ⟨-, h'⟩
        · exact absurd hab (before_asymm hab)
        · exact absurd hba (before_asymm hab)
        · omega
      · rcases compareField_some_cases descending b a with ⟨rfl, -⟩ | ⟨-, h'⟩ | ⟨hab, -⟩
        · exact absurd hba (before_asymm hba)
        · omega
        · exact absurd hab (before_asymm hba)

theorem compareField_eq_zero {descending : Bool} {x y : Option κ} :
    compareField descending x y = 0 ↔ x = y := by
  cases x with
  | none => cases y <;> simp [compareField]
  | some a =>
    cases y with
    | none => simp [compareField]
    | some b =>
      rcases compareField_some_cases descending a b with ⟨rfl, h⟩ | ⟨hab, h⟩ | ⟨hba, h⟩
      · exact iff_of_true h rfl
      · refine iff_of_false (by omega) ?_
        rintro heq
        obtain rfl := Option.some.inj heq
        exact before_asymm hab hab
      · refine iff_of_false (by omega) ?_
        rintro heq
        obtain rfl := Option.some.inj heq
        exact before_asymm hba hba

theorem compareField_neg_iff {descending : Bool} {a b : κ} :
    compareField descending (some a) (some b) < 0 ↔ Before descending a b := by
  rcases compareField_some_cases descending a b with ⟨rfl, h⟩ | ⟨hab, h⟩ | ⟨hba, h⟩
  · exact iff_of_false (by omega) fun hab => before_asymm hab hab
  · exact iff_of_true (by omega) hab
  · exact iff_of_false (by omega) (before_asymm hba)

theorem compareField_trans {descending : Bool} {x y z : Option κ}
    (h : compareField descending x y < 0) (h' : compareField descending y z < 0) :
    compareField descending x z < 0 := by
  cases x with
  | none => cases y <;> simp [compareField] at h
  | some a =>
    cases z with
    | none => exact Int.negSucc_lt_zero 0
    | some c =>
      cases y with
      | none => simp [compareField] at h'
      | some b =>
        rw [compareField_neg_iff] at h h' ⊢
        exact before_trans h h'

/-! ### Several fields -/

/-- Compare records by fields, each with its direction. -/
def compareBy : List ((ρ → Option κ) × Bool) → ρ → ρ → ℤ
  | [], _, _ => 0
  | (field, descending) :: rest, a, b =>
    if compareField descending (field a) (field b) = 0 then compareBy rest a b
    else compareField descending (field a) (field b)

theorem compareBy_swap (fields : List ((ρ → Option κ) × Bool)) (a b : ρ) :
    compareBy fields b a = -compareBy fields a b := by
  induction fields with
  | nil => rfl
  | cons field rest ih =>
    rw [compareBy, compareBy, compareField_swap, ih]
    split_ifs <;> omega

/-- **The comparison by fields is a total preorder.** -/
theorem totalPreorder_compareBy (fields : List ((ρ → Option κ) × Bool)) :
    TotalPreorder (compareBy fields) := by
  refine ⟨fun a => ?_, compareBy_swap fields, fun a b c hab hbc => ?_⟩
  · have hswap := compareBy_swap fields a a
    omega
  · induction fields with
    | nil => exact le_rfl
    | cons field rest ih =>
      obtain ⟨field, descending⟩ := field
      rw [compareBy] at hab hbc ⊢
      by_cases hzero : compareField descending (field a) (field b) = 0
      · rw [if_pos hzero] at hab
        rw [compareField_eq_zero.1 hzero]
        by_cases hzero' : compareField descending (field b) (field c) = 0
        · rw [if_pos hzero'] at hbc ⊢
          exact ih hab hbc
        · rw [if_neg hzero'] at hbc ⊢
          exact hbc
      · rw [if_neg hzero] at hab
        by_cases hzero' : compareField descending (field b) (field c) = 0
        · rw [← compareField_eq_zero.1 hzero', if_neg hzero]
          exact hab
        · rw [if_neg hzero'] at hbc
          have htrans : compareField descending (field a) (field c) < 0 :=
            compareField_trans (y := field b) (by omega) (by omega)
          rw [if_neg (by omega)]
          omega

/-! ### Sorting -/

/-- A stable sort with a comparator. -/
def sortBy (compare : ρ → ρ → ℤ) (records : List ρ) : List ρ :=
  records.insertionSort fun a b => compare a b ≤ 0

theorem sortBy_perm_self (compare : ρ → ρ → ℤ) (records : List ρ) :
    (sortBy compare records).Perm records := List.perm_insertionSort _ _

theorem TotalPreorder.pairwise_sortBy {compare : ρ → ρ → ℤ} (h : TotalPreorder compare)
    (records : List ρ) : (sortBy compare records).Pairwise fun a b => compare a b ≤ 0 := by
  have : Std.Total fun a b => compare a b ≤ 0 := ⟨fun a b => by
    have hswap := h.swap a b
    omega⟩
  have : IsTrans ρ fun a b => compare a b ≤ 0 := ⟨h.trans⟩
  exact List.pairwise_insertionSort _ _

/-- **Sorting forgets the order of the list**, if records that compare equal are equal. -/
theorem TotalPreorder.sortBy_perm {compare : ρ → ρ → ℤ} (h : TotalPreorder compare)
    {records records' : List ρ} (hperm : records.Perm records')
    (hties : ∀ a ∈ records, ∀ b ∈ records, compare a b = 0 → a = b) :
    sortBy compare records = sortBy compare records' := by
  have hsame : (sortBy compare records).Perm (sortBy compare records') :=
    (sortBy_perm_self compare records).trans
      (hperm.trans (sortBy_perm_self compare records').symm)
  refine hsame.eq_of_pairwise (fun a b ha hb hab hba => ?_) (h.pairwise_sortBy records)
    (h.pairwise_sortBy records')
  have hmem : b ∈ records :=
    hperm.mem_iff.2 ((sortBy_perm_self compare records').mem_iff.1 hb)
  refine hties a ((sortBy_perm_self compare records).mem_iff.1 ha) b hmem ?_
  have hswap := h.swap a b
  omega

end FieldOrder
