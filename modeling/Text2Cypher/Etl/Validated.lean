import Text2Cypher.Etl.StructuredSpec

/-!
# What the validation before the write establishes

* `RowsOf`: the rows of a specification, each with its key, no key twice and none of them null;
* **`validated_nodes`, `validated_relationships`**: what `validate_before_write` accepts.
-/

namespace Structured

open Checks

theorem column_eq_ok {row : Row} {column : String} {v : Value} :
    row.column column = .ok v ↔ row.get? column = some v := by
  rw [Row.column]
  cases row.get? column with
  | none => exact iff_of_false (fun h => by cases h) fun h => by cases h
  | some w => simp

theorem Value.hashed_of_isKey {v : Value} (h : v.IsKey) : v.hashed = v := by
  cases v with
  | null => rfl
  | integer z => rfl
  | text s => rfl
  | boolean b => exact h.elim
  | real q => exact h.elim
  | temporal function text => exact h.elim

/-- Cypher's `=` on keys. -/
theorem Value.same_of_isKey {a b : Value} (ha : a.IsKey) (hb : b.IsKey) (hne : a ≠ .null) :
    a.same b = decide (a = b) := by
  cases a with
  | null => exact absurd rfl hne
  | integer z =>
    cases b with
    | integer w => simp [Value.same, Value.number?]
    | null => rfl
    | text s => rfl
    | _ => exact hb.elim
  | text s =>
    cases b with
    | text t => simp [Value.same, Value.number?]
    | null => rfl
    | integer w => rfl
    | _ => exact hb.elim
  | boolean b => exact ha.elim
  | real q => exact ha.elim
  | temporal function text => exact ha.elim

/-- The key of a row, and of no other one. -/
structure RowsOf (columns : List String) (rows : List Row) (keys : List (List Value)) : Prop where
  keyed : List.Forall₂ (fun row key => keyOf columns row = .ok key) rows keys
  nonnull : ∀ key ∈ keys, ∀ v ∈ key, v ≠ .null
  distinct : (keys.map (List.map Value.hashed)).Nodup

theorem anyNull_eq_ok_false {row : Row} {columns : List String}
    (h : findRowsWithNullKey.anyNull row columns = .ok false) {key : List Value}
    (hkey : keyOf columns row = .ok key) : ∀ v ∈ key, v ≠ .null := by
  have hall := forall₂_of_each hkey
  clear hkey
  induction hall with
  | nil => simp
  | @cons column v columns key hv _ ih =>
    rw [findRowsWithNullKey.anyNull, hv, ok_bind] at h
    split_ifs at h with hnull
    · cases h
    · exact List.forall_mem_cons.2 ⟨hnull, ih h⟩

theorem findRowsWithNullKey_eq_nil {columns : List String} {rows : List Row}
    (h : findRowsWithNullKey columns rows = .ok []) :
    ∀ row ∈ rows, findRowsWithNullKey.anyNull row columns = .ok false := by
  induction rows with
  | nil => simp
  | cons row rows ih =>
    simp only [findRowsWithNullKey, bind_eq_ok, pure_eq_ok] at h
    obtain ⟨null, hnull, rest, hrest, hnil⟩ := h
    split_ifs at hnil with hcase
    subst hnil
    refine List.forall_mem_cons.2 ⟨?_, ih hrest⟩
    rw [hnull]
    simpa using hcase

/-- **What passes the checks of the keys.** -/
theorem exists_rowsOf {name : String} {columns : List String} {rows : List Row}
    (h : keyFailures name columns rows = .ok []) :
    rows ≠ [] ∧ ∃ keys, RowsOf columns rows keys := by
  rw [keyFailures] at h
  split_ifs at h with hempty
  · cases h
  · refine ⟨hempty, ?_⟩
    obtain ⟨nullRows, hnull, h⟩ := bind_eq_ok.1 h
    split_ifs at h with hnil
    · cases h
    · obtain ⟨duplicates, hduplicates, h⟩ := bind_eq_ok.1 h
      split_ifs at h with hnodup
      · cases h
      · rw [ne_eq, not_not] at hnil hnodup
        subst hnil hnodup
        obtain ⟨keys, hkeys, hcounts⟩ := bind_eq_ok.1 hduplicates
        have hkeyed := forall₂_of_each hkeys
        refine ⟨keys, hkeyed, fun key hkey => ?_, ?_⟩
        · obtain ⟨row, hrow, hkey⟩ := exists_of_forall₂ hkeyed hkey
          exact anyNull_eq_ok_false (findRowsWithNullKey_eq_nil hnull row hrow) hkey
        · rw [← Dict.filter_tally_eq_nil]
          exact List.map_eq_nil_iff.1 (pure_eq_ok.1 hcounts)

/-- The ends of a row refer to nodes. -/
structure Refers (fromKey toKey : String) (fromIds toIds : List Value) (row : Row) : Prop where
  source : ∃ v, row.get? fromKey = some v ∧ v.hashed ∈ fromIds.map Value.hashed
  target : ∃ v, row.get? toKey = some v ∧ v.hashed ∈ toIds.map Value.hashed

theorem refers_of_isDangling {fromKey toKey : String} {fromIds toIds : List Value} {row : Row}
    (h : isDangling fromKey toKey fromIds toIds row = .ok false) :
    Refers fromKey toKey fromIds toIds row := by
  obtain ⟨v, hv, h⟩ := bind_eq_ok.1 h
  split_ifs at h with hfrom
  · obtain ⟨w, hw, h⟩ := bind_eq_ok.1 h
    have hto := of_decide_eq_false (pure_eq_ok.1 h)
    exact ⟨⟨v, column_eq_ok.1 hv, hfrom⟩, w, column_eq_ok.1 hw, not_not.1 hto⟩
  · cases h

theorem refers_of_dangling {fromKey toKey : String} {fromIds toIds : List Value} {rows : List Row}
    (h : findDanglingRelationshipRows fromKey toKey fromIds toIds rows = .ok []) :
    ∀ row ∈ rows, Refers fromKey toKey fromIds toIds row := by
  induction rows with
  | nil => simp
  | cons row rows ih =>
    obtain ⟨dangling, hdangling, h⟩ := bind_eq_ok.1 h
    obtain ⟨rest, hrest, h⟩ := bind_eq_ok.1 h
    have hnil := pure_eq_ok.1 h
    split_ifs at hnil with hcase
    subst hnil
    refine List.forall_mem_cons.2 ⟨refers_of_isDangling ?_, ih hrest⟩
    rw [hdangling]
    simpa using hcase

/-- What every specification gives is empty if all of it is. -/
theorem each_of_flatten_eq_nil {ε α β : Type} {f : α → Except ε (List β)} {l : List α}
    {results : List (List β)} (h : each f l = .ok results) (hnil : results.flatten = []) :
    ∀ a ∈ l, f a = .ok [] := by
  have hall := forall₂_of_each h
  clear h
  induction hall with
  | nil => simp
  | cons hab _ ih =>
    rw [List.flatten_cons, List.append_eq_nil_iff] at hnil
    exact List.forall_mem_cons.2 ⟨hnil.1 ▸ hab, ih hnil.2⟩

/-- **What `validate_before_write` accepts**: the rows of every node specification, and those of
every relationship specification with their references. -/
theorem validated {nodes rels : Dict String (List Row)}
    (h : validateBeforeWrite nodes rels = .ok []) :
    (∀ spec ∈ nodeSpecs,
      keyFailures spec.label [spec.uniqueKey] ((nodes.get? spec.label).getD []) = .ok []) ∧
    ∃ nodeIdSets, each (fun spec => return (spec.label, ← nodeIds nodes spec)) nodeSpecs =
        .ok nodeIdSets ∧
      ∀ spec ∈ relationshipSpecs, relationshipFailures nodeIdSets rels spec = .ok [] := by
  obtain ⟨nodeFailures, hnodes, h⟩ := bind_eq_ok.1 h
  obtain ⟨nodeIdSets, hsets, h⟩ := bind_eq_ok.1 h
  obtain ⟨relFailures, hrels, h⟩ := bind_eq_ok.1 h
  obtain ⟨hnil, hnil'⟩ := List.append_eq_nil_iff.1 (pure_eq_ok.1 h)
  exact ⟨each_of_flatten_eq_nil hnodes hnil, nodeIdSets, hsets, each_of_flatten_eq_nil hrels hnil'⟩

end Structured
