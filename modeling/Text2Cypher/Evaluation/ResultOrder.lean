import Mathlib
import Text2Cypher.Evaluation.Normalization

/-!
# The order of normalised rows

The comparator of the rows compares numbers, lists and texts in one column, with missing values at
the end.  It is a comparison by fields over a linear order of keys, so sorting forgets the order in
which a database has returned the rows.

* `linearOrderKey`: the keys that `_comparable` makes are linearly ordered;
* `totalPreorder_compareRows`: the comparator is a total preorder;
* **`normalizeRows_orderFree`**: the normal form of a result does not depend on the order of its
  rows, if rows that compare equal are equal.
-/

namespace Normalization

open Checks FieldOrder

/-! ### Keys -/

mutual

theorem Key.compare_eq_iff : ∀ a b : Key, a.compare b = .eq ↔ a = b
  | .number a, .number b => by simp [Key.compare]
  | .text a, .text b => by
    rcases lt_trichotomy a b with h | rfl | h
    · simp [Key.compare, h, h.ne]
    · simp [Key.compare]
    · simp [Key.compare, h, h.ne', h.not_gt]
  | .list as, .list bs => by rw [Key.compare, Key.compareItems_eq_iff as bs, Key.list.injEq]
  | .number _, .list _ | .number _, .text _ | .list _, .text _ => by simp [Key.compare]
  | .list _, .number _ | .text _, .number _ | .text _, .list _ => by simp [Key.compare]

theorem Key.compareItems_eq_iff : ∀ as bs : List Key, Key.compareItems as bs = .eq ↔ as = bs
  | [], [] => by simp [Key.compareItems]
  | [], _ :: _ => by simp [Key.compareItems]
  | _ :: _, [] => by simp [Key.compareItems]
  | a :: as, b :: bs => by
    rw [List.cons.injEq, ← Key.compare_eq_iff a b, ← Key.compareItems_eq_iff as bs,
      Key.compareItems]
    cases a.compare b <;> simp

end

mutual

theorem Key.compare_swap : ∀ a b : Key, b.compare a = (a.compare b).swap
  | .number a, .number b => by rw [Key.compare, Key.compare, cmp_swap]
  | .text a, .text b => by
    rcases lt_trichotomy a b with h | rfl | h
    · simp [Key.compare, h, h.not_gt]
    · simp [Key.compare]
    · simp [Key.compare, h, h.not_gt]
  | .list as, .list bs => by rw [Key.compare, Key.compare, Key.compareItems_swap as bs]
  | .number _, .list _ | .number _, .text _ | .list _, .text _ => rfl
  | .list _, .number _ | .text _, .number _ | .text _, .list _ => rfl

theorem Key.compareItems_swap :
    ∀ as bs : List Key, Key.compareItems bs as = (Key.compareItems as bs).swap
  | [], [] => rfl
  | [], _ :: _ => rfl
  | _ :: _, [] => rfl
  | a :: as, b :: bs => by
    rw [Key.compareItems, Key.compareItems, Key.compare_swap a b]
    cases a.compare b with
    | eq => exact Key.compareItems_swap as bs
    | lt => rfl
    | gt => rfl

end

/-- The comparison of two tuples is decided at the first difference. -/
theorem Key.compareItems_cons_lt {a b : Key} {as bs : List Key} :
    Key.compareItems (a :: as) (b :: bs) = .lt ↔
      a.compare b = .lt ∨ a = b ∧ Key.compareItems as bs = .lt := by
  rw [Key.compareItems, ← Key.compare_eq_iff]
  cases a.compare b <;> simp

mutual

theorem Key.compare_trans :
    ∀ a b c : Key, a.compare b = .lt → b.compare c = .lt → a.compare c = .lt
  | .number a, .number b, .number c => by
    simp only [Key.compare, cmp_eq_lt_iff]
    exact lt_trans
  | .text a, .text b, .text c => by
    have hlt : ∀ s t : Text, (Key.text s).compare (.text t) = .lt ↔ s < t := by
      intro s t
      by_cases h : s < t
      · simp [Key.compare, h]
      · by_cases h' : t < s <;> simp [Key.compare, h, h']
    rw [hlt, hlt, hlt]
    exact lt_trans
  | .list as, .list bs, .list cs => by
    simp only [Key.compare]
    exact Key.compareItems_trans as bs cs
  | .number _, _, .list _ | .number _, _, .text _ | .list _, _, .text _ => fun _ _ => rfl
  | .number _, .list _, .number _ | .number _, .text _, .number _ => fun _ h => by
    simp [Key.compare] at h
  | .list _, .text _, .list _ => fun _ h => by simp [Key.compare] at h
  | .list _, .number _, _ | .text _, .number _, _ | .text _, .list _, _ => fun h => by
    simp [Key.compare] at h
  | .list _, .list _, .number _ | .list _, .text _, .number _ | .text _, .text _, .number _ |
    .text _, .text _, .list _ => fun _ h => by simp [Key.compare] at h

theorem Key.compareItems_trans : ∀ as bs cs : List Key, Key.compareItems as bs = .lt →
    Key.compareItems bs cs = .lt → Key.compareItems as cs = .lt
  | [], _, [] => fun h h' => by
    rename_i bs
    cases bs <;> simp [Key.compareItems] at h h'
  | [], _, _ :: _ => fun _ _ => rfl
  | _ :: _, [], _ => fun h => by simp [Key.compareItems] at h
  | _ :: _, _ :: _, [] => fun _ h => by simp [Key.compareItems] at h
  | a :: as, b :: bs, c :: cs => by
    rw [Key.compareItems_cons_lt, Key.compareItems_cons_lt, Key.compareItems_cons_lt]
    rintro (hab | ⟨rfl, has⟩) (hbc | ⟨rfl, hbs⟩)
    · exact Or.inl (Key.compare_trans a b c hab hbc)
    · exact Or.inl hab
    · exact Or.inl hbc
    · exact Or.inr ⟨rfl, Key.compareItems_trans as bs cs has hbs⟩

end

theorem strictTotalOrder_key : IsStrictTotalOrder Key fun a b => a.compare b = .lt where
  trichotomous a b hab hba := by
    rw [Key.compare_swap a b] at hba
    rw [← Key.compare_eq_iff]
    cases h : a.compare b with
    | eq => rfl
    | lt => exact absurd h hab
    | gt =>
      rw [h] at hba
      exact absurd rfl hba
  irrefl a h := by
    rw [(Key.compare_eq_iff a a).2 rfl] at h
    cases h
  trans := Key.compare_trans

/-- **The keys are linearly ordered.** -/
instance linearOrderKey : LinearOrder Key :=
  have := strictTotalOrder_key
  linearOrderOfSTO fun a b => a.compare b = .lt

theorem Key.lt_iff {a b : Key} : a < b ↔ a.compare b = .lt := Iff.rfl

/-! ### Rows -/

/-- What a row is compared by. -/
def keyOf (field : Text) (row : Row) : Option Key := (fieldOf row field).map comparable

theorem compareRows_eq_compareBy (parsed : List (Text × Bool)) (left right : Row) :
    compareRows parsed left right =
      compareBy (parsed.map fun order => (keyOf order.1, order.2)) left right := by
  induction parsed with
  | nil => rfl
  | cons order rest ih =>
    obtain ⟨field, descending⟩ := order
    rw [compareRows, List.map_cons, compareBy, ih]
    unfold keyOf
    cases fieldOf left field with
    | none => cases fieldOf right field <;> rfl
    | some leftValue =>
      cases fieldOf right field with
      | none => rfl
      | some rightValue =>
        simp only [Option.map_some, compareField, Key.lt_iff, ← Key.compare_eq_iff]
        cases h : (comparable leftValue).compare (comparable rightValue) <;>
          cases descending <;> simp

/-- **The comparator is a total preorder.** -/
theorem totalPreorder_compareRows (parsed : List (Text × Bool)) :
    TotalPreorder (compareRows parsed) := by
  have h := totalPreorder_compareBy (parsed.map fun order => (keyOf order.1, order.2))
  constructor
  · intro a
    rw [compareRows_eq_compareBy]
    exact h.refl a
  · intro a b
    rw [compareRows_eq_compareBy, compareRows_eq_compareBy]
    exact h.swap a b
  · intro a b c
    rw [compareRows_eq_compareBy, compareRows_eq_compareBy, compareRows_eq_compareBy]
    exact h.trans a b c

/-! ### The normal form -/

section

variable (w : WordClass) (casefold : Char → Text) (requiredOutputs : List Text)
  (aliases : Text → List Text) (strictRequiredOutputs : Bool)

/-- Rows that the comparator does not tell apart are the same row. -/
def TiesEqual (ordering : List Text) (rows : List (Dict Text Raw)) : Prop :=
  ∀ row ∈ rows, ∀ row' ∈ rows, ∀ normal normal' parsed,
    normalizeRow w casefold requiredOutputs aliases strictRequiredOutputs row = .ok normal →
    normalizeRow w casefold requiredOutputs aliases strictRequiredOutputs row' = .ok normal' →
    parseOrdering ordering = .ok parsed →
    compareRows parsed normal normal' = 0 → normal = normal'

/-- A missing value comes last, in both directions. -/
def NullsLast : Prop :=
  ∀ field descending rest, ∀ left right : Row, fieldOf left field = none →
    fieldOf right field ≠ none →
    compareRows ((field, descending) :: rest) left right = 1 ∧
      compareRows ((field, descending) :: rest) right left = -1

theorem nullsLast_compareRows : NullsLast := by
  intro field descending rest left right hleft hright
  obtain ⟨value, hvalue⟩ := Option.ne_none_iff_exists'.1 hright
  constructor
  · rw [compareRows, hleft, hvalue]
  · rw [compareRows, hleft, hvalue]

variable {w casefold requiredOutputs aliases strictRequiredOutputs} in
theorem normalizeRows_eq_ok {ordering : List Text} {rows : List (Dict Text Raw)}
    {result : List Row} :
    normalizeRows w casefold requiredOutputs aliases strictRequiredOutputs ordering rows =
        .ok result ↔
      ∃ parsed normals, parseOrdering ordering = .ok parsed ∧
        each (normalizeRow w casefold requiredOutputs aliases strictRequiredOutputs) rows =
          .ok normals ∧ FieldOrder.sortBy (compareRows parsed) normals = result := by
  simp only [normalizeRows, sortRows, bind_eq_ok, pure_eq_ok]
  constructor
  · rintro ⟨normals, h, parsed, hparsed, hresult⟩
    exact ⟨parsed, normals, hparsed, h, hresult⟩
  · rintro ⟨parsed, normals, hparsed, h, hresult⟩
    exact ⟨normals, h, parsed, hparsed, hresult⟩

/-- An ordering that is not understood is an error for all rows. -/
theorem normalizeRows_error_of_ordering {ordering : List Text} {e : ResultContractError}
    (hparsed : parseOrdering ordering = .error e) (rows : List (Dict Text Raw)) :
    ∃ e, normalizeRows w casefold requiredOutputs aliases strictRequiredOutputs ordering rows =
      .error e := by
  cases h : normalizeRows w casefold requiredOutputs aliases strictRequiredOutputs ordering rows
    with
  | error e => exact ⟨e, rfl⟩
  | ok result =>
    obtain ⟨parsed, -, h, -⟩ := normalizeRows_eq_ok.1 h
    rw [hparsed] at h
    cases h

/-- **The normal form of a result does not depend on the order of its rows**: of two results with
the same rows, either both are rejected, or both have the same normal form and the same hash. -/
theorem normalizeRows_orderFree (sha256 : Text → String) (ordering : List Text)
    (rows rows' : List (Dict Text Raw)) (hperm : rows.Perm rows')
    (hties : TiesEqual w casefold requiredOutputs aliases strictRequiredOutputs ordering rows) :
    let normal :=
      normalizeRows w casefold requiredOutputs aliases strictRequiredOutputs ordering
    ((∃ result, normal rows = .ok result ∧ normal rows' = .ok result) ∨
      (∃ e, normal rows = .error e) ∧ ∃ e, normal rows' = .error e) ∧
    (normal rows).toOption.map (normalizedSha256 sha256) =
      (normal rows').toOption.map (normalizedSha256 sha256) ∧
    (∀ parsed, TotalPreorder (compareRows parsed)) ∧ NullsLast := by
  intro normal
  have hparts : (∃ result, normal rows = .ok result ∧ normal rows' = .ok result) ∨
      (∃ e, normal rows = .error e) ∧ ∃ e, normal rows' = .error e := by
    cases hparsed : parseOrdering ordering with
    | error e =>
      exact Or.inr ⟨normalizeRows_error_of_ordering w casefold requiredOutputs aliases
        strictRequiredOutputs hparsed rows, normalizeRows_error_of_ordering w casefold
        requiredOutputs aliases strictRequiredOutputs hparsed rows'⟩
    | ok parsed =>
      rcases each_perm (f := normalizeRow w casefold requiredOutputs aliases
        strictRequiredOutputs) hperm with ⟨normals, normals', h, h', hsame⟩ | ⟨⟨e, h⟩, e', h'⟩
      · left
        refine ⟨FieldOrder.sortBy (compareRows parsed) normals, ?_, ?_⟩
        · exact normalizeRows_eq_ok.2 ⟨parsed, normals, hparsed, h, rfl⟩
        · refine normalizeRows_eq_ok.2 ⟨parsed, normals', hparsed, h', ?_⟩
          symm
          refine (totalPreorder_compareRows parsed).sortBy_perm hsame fun a ha b hb hab => ?_
          obtain ⟨row, hrow, hnormal⟩ := exists_of_forall₂ (forall₂_of_each h) ha
          obtain ⟨row', hrow', hnormal'⟩ := exists_of_forall₂ (forall₂_of_each h) hb
          exact hties row hrow row' hrow' a b parsed hnormal hnormal' hparsed hab
      · right
        exact ⟨⟨e, by show normalizeRows _ _ _ _ _ _ _ = _; rw [normalizeRows, h]; rfl⟩,
          e', by show normalizeRows _ _ _ _ _ _ _ = _; rw [normalizeRows, h']; rfl⟩
  refine ⟨hparts, ?_, totalPreorder_compareRows, nullsLast_compareRows⟩
  rcases hparts with ⟨result, h, h'⟩ | ⟨⟨e, h⟩, e', h'⟩
  · rw [h, h']
  · rw [h, h']
    rfl

end

/-- Two rows of `test_ordering_produces_the_same_hash_for_different_input_order`, in both orders. -/
theorem normalizeRows_orderFree_products :
    let row (n : ℤ) : Dict Text Raw := Dict.ofEntries [("productId".toList, .int n)]
    let normal := normalizeRows WordClass.asciiOnly (fun c => [c.toLower]) ["productId".toList]
      (fun _ => []) false ["productId ASC".toList]
    let hash := "88a16f1a28e4d54cbb052846634ebcb472a175d39e09302af27a4f332973922d"
    ((∃ result, normal [row 2, row 1] = .ok result ∧ normal [row 1, row 2] = .ok result) ∨
      (∃ e, normal [row 2, row 1] = .error e) ∧ ∃ e, normal [row 1, row 2] = .error e) ∧
    (normal [row 2, row 1]).toOption.map (normalizedSha256 fun _ => hash) =
      (normal [row 1, row 2]).toOption.map (normalizedSha256 fun _ => hash) := by
  intro row normal hash
  suffices hties : TiesEqual WordClass.asciiOnly (fun c => [c.toLower]) ["productId".toList]
      (fun _ => []) false ["productId ASC".toList] [row 2, row 1] by
    obtain ⟨hparts, hhash, -⟩ := normalizeRows_orderFree WordClass.asciiOnly
      (fun c => [c.toLower]) ["productId".toList] (fun _ => []) false (fun _ => hash)
      ["productId ASC".toList] [row 2, row 1] [row 1, row 2] (.swap _ _ _) hties
    exact ⟨hparts, hhash⟩
  have hnormal : ∀ n, normalizeRow WordClass.asciiOnly (fun c => [c.toLower]) ["productId".toList]
      (fun _ => []) false (row n) = .ok (Dict.ofEntries [("productId".toList, .int n)]) :=
    fun _ => rfl
  have hparse : parseOrdering ["productId ASC".toList] = .ok [("productId".toList, false)] := rfl
  have hties : ∀ m n, ∀ left right parsed, normalizeRow WordClass.asciiOnly (fun c => [c.toLower])
      ["productId".toList] (fun _ => []) false (row m) = .ok left → normalizeRow WordClass.asciiOnly
      (fun c => [c.toLower]) ["productId".toList] (fun _ => []) false (row n) = .ok right →
      parseOrdering ["productId ASC".toList] = .ok parsed → compareRows parsed left right = 0 →
      left = right := by
    intro m n left right parsed hleft hright hparsed hzero
    obtain rfl := Except.ok.inj ((hnormal m).symm.trans hleft)
    obtain rfl := Except.ok.inj ((hnormal n).symm.trans hright)
    obtain rfl := Except.ok.inj (hparse.symm.trans hparsed)
    have hkey : ∀ k : ℤ, keyOf "productId".toList (Dict.ofEntries [("productId".toList, .int k)]) =
        some (.number k) := fun _ => rfl
    rw [compareRows_eq_compareBy, List.map_singleton, compareBy, hkey, hkey] at hzero
    have hsame : compareField false (some (Key.number m)) (some (.number n)) = 0 := by
      by_contra hne
      rw [if_neg hne] at hzero
      exact hne hzero
    rw [compareField_eq_zero, Option.some_inj, Key.number.injEq, Int.cast_inj] at hsame
    rw [hsame]
  intro left hleft right hright
  simp only [List.mem_cons, List.not_mem_nil, or_false] at hleft hright
  rcases hleft with rfl | rfl <;> rcases hright with rfl | rfl <;> exact hties _ _

end Normalization
