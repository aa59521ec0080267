import Text2Cypher.Composition.BomShortage

/-!
# Reading the rows of a BOM shortage

Whether a row of the graph or of the stock is read, and as what, depends on the row alone: the
number of the row is only in the texts of errors.

* `collectGraph_eq_ok`: the loop over the graph reads every row and enters what has been read;
* `collectSql_eq_ok`: the loop over the stock reads every row, and takes every component once.
-/

namespace Composition

open Checks

variable {V : Type} [PyValue V]

/-! ### One row of the graph -/

theorem identifier_alike (value : V) (label label' : String) :
    ReturnsAlike (identifier value label) (identifier value label') := by
  unfold identifier
  split
  · exact ReturnsAlike.rfl
  · exact returnsAlike_error _ _

theorem name_alike (value : V) (label label' : String) :
    ReturnsAlike (name value label) (name value label') := by
  unfold name
  dsimp only
  split
  · split_ifs
    · exact returnsAlike_error _ _
    · exact ReturnsAlike.rfl
  · exact returnsAlike_error _ _

theorem decimal_alike (value : V) (label label' : String) (positive : Bool) :
    ReturnsAlike (decimal value label positive) (decimal value label' positive) := by
  unfold decimal
  dsimp only
  split
  · exact returnsAlike_error _ _
  · exact returnsAlike_error _ _
  · rename_i result _
    by_cases hpositive : positive = true ∧ result.toRat ≤ 0
    · rw [if_pos hpositive, if_pos hpositive]
      exact returnsAlike_error _ _
    · rw [if_neg hpositive, if_neg hpositive]
      exact ReturnsAlike.rfl
  · exact returnsAlike_error _ _

theorem listItems_alike (value : V) (label label' : String) :
    ReturnsAlike (listItems value label) (listItems value label') := by
  unfold listItems
  split
  · exact ReturnsAlike.rfl
  · exact returnsAlike_error _ _

theorem readDepth_alike (value : V) (label label' : String) :
    ReturnsAlike (readDepth value label) (readDepth value label') := by
  unfold readDepth
  dsimp only
  split
  · split_ifs
    · exact returnsAlike_error _ _
    · exact ReturnsAlike.rfl
  · exact returnsAlike_error _ _

theorem readSupplier_alike (row : Dict String V) (label label' : String) :
    ReturnsAlike (readSupplier row label) (readSupplier row label') := by
  unfold readSupplier
  refine ReturnsAlike.rfl.bind fun supplierIdRaw => ReturnsAlike.rfl.bind fun supplierNameRaw => ?_
  refine (returnsAlike_require _ _).bind fun _ => ?_
  split_ifs
  · exact ReturnsAlike.rfl
  · exact (identifier_alike _ _ _).bind fun _ => (name_alike _ _ _).bind fun _ => ReturnsAlike.rfl

/-- The number of a row does not matter for what is read. -/
theorem readGraphRow_alike (required : List String) (i j : ℕ) (row : Dict String V) :
    ReturnsAlike (readGraphRow required i row) (readGraphRow required j row) := by
  unfold readGraphRow
  refine (returnsAlike_require _ _).bind fun _ => ?_
  refine ReturnsAlike.rfl.bind fun _ => (identifier_alike _ _ _).bind fun finishedId => ?_
  refine ReturnsAlike.rfl.bind fun _ => (name_alike _ _ _).bind fun finishedName => ?_
  refine ReturnsAlike.rfl.bind fun _ => (identifier_alike _ _ _).bind fun componentId => ?_
  refine ReturnsAlike.rfl.bind fun _ => (name_alike _ _ _).bind fun componentName => ?_
  refine ReturnsAlike.rfl.bind fun _ => (readDepth_alike _ _ _).bind fun depth => ?_
  refine ReturnsAlike.rfl.bind fun rawPath => ReturnsAlike.rfl.bind fun rawQuantities => ?_
  refine (listItems_alike _ _ _).bind fun pathItems => ?_
  refine (listItems_alike _ _ _).bind fun quantityItems => ?_
  refine (returnsAlike_numbered (fun _ _ (v : V) => identifier_alike v _ _) _ _ _).bind fun path => ?_
  refine (returnsAlike_numbered (fun _ _ (v : V) => decimal_alike v _ _ _) _ _ _).bind
    fun quantities => ?_
  refine (returnsAlike_require _ _).bind fun _ => (returnsAlike_require _ _).bind fun _ => ?_
  refine (returnsAlike_require _ _).bind fun _ => (readSupplier_alike _ _ _).bind fun _ => ?_
  exact ReturnsAlike.rfl

/-- What a row of the graph is read as. -/
def ReadsGraphRow (required : List String) (row : Dict String V) (read : GraphRow) : Prop :=
  readGraphRow required 0 row = .ok read

theorem readsGraphRow_unique (required : List String) :
    Relator.RightUnique (ReadsGraphRow (V := V) required) :=
  fun _ _ _ h h' => Except.ok.inj (h.symm.trans h')

theorem decimal_pos {value : V} {label : String} {q : Decimal}
    (h : decimal value label true = .ok q) : 0 < q.toRat := by
  unfold decimal at h
  dsimp only at h
  split at h
  · cases h
  · cases h
  · rename_i result _
    by_cases hpositive : true = true ∧ result.toRat ≤ 0
    · rw [if_pos hpositive] at h
      cases h
    · rw [if_neg hpositive, Except.ok.injEq] at h
      rw [← h]
      exact not_le.1 fun hle => hpositive ⟨rfl, hle⟩
  · cases h

/-- The quantities along a path are positive. -/
theorem ReadsGraphRow.quantities_pos {required : List String} {row : Dict String V}
    {read : GraphRow} (h : ReadsGraphRow required row read) : ∀ q ∈ read.quantities, 0 < q.toRat := by
  unfold ReadsGraphRow readGraphRow at h
  simp only [bind_eq_ok, pure_eq_ok] at h
  obtain ⟨_, -, _, -, _, -, _, -, _, -, _, -, _, -, _, -, _, -, _, -, _, -, _, -, _, -, _, -, _, -,
    _, -, quantities, hquantities, _, -, _, -, _, -, _, -, rfl⟩ := h
  intro q hq
  obtain ⟨value, -, i, hvalue⟩ := exists_of_forall₂ (forall₂_of_numbered hquantities) hq
  exact decimal_pos hvalue

/-- **The loop over the graph** reads every row, and enters what has been read. -/
theorem collectGraph_eq_ok {production : Decimal} {required : List String} {n : ℕ}
    {s s' : Collected} {rows : List (Dict String V)} :
    collectGraph production required n s rows = .ok s' ↔
      ∃ graph, List.Forall₂ (ReadsGraphRow required) rows graph ∧
        graph.foldlM (enterRow production) s = .ok s' := by
  induction rows generalizing n s with
  | nil =>
    simp only [collectGraph, List.forall₂_nil_left_iff, exists_eq_left, List.foldlM_nil]
    rfl
  | cons row rows ih =>
    simp only [collectGraph, bind_eq_ok, ih]
    constructor
    · rintro ⟨read, hread, next, hnext, graph, hgraph, hrest⟩
      refine ⟨read :: graph, .cons ((readGraphRow_alike required n 0 row read).1 hread) hgraph, ?_⟩
      rw [List.foldlM_cons, hnext]
      exact hrest
    · rintro ⟨graph, hgraph, hrun⟩
      cases hgraph with
      | cons hread hrest =>
        rw [List.foldlM_cons] at hrun
        obtain ⟨next, hnext, hrun⟩ := bind_eq_ok.1 hrun
        exact ⟨_, (readGraphRow_alike required n 0 row _).2 hread, next, hnext, _, hrest, hrun⟩

/-! ### One row of the stock -/

/-- A component with its make flag and its stock. -/
abbrev StockRow := ℤ × Bool × Decimal

/-- What a row of SQL is read as. -/
def ReadsSqlRow (required : List String) (row : Dict String V) (read : StockRow) : Prop :=
  readSqlRow required [] 0 row = .ok read

theorem readsSqlRow_unique (required : List String) :
    Relator.RightUnique (ReadsSqlRow (V := V) required) :=
  fun _ _ _ h h' => Except.ok.inj (h.symm.trans h')

/-- What the row must have, without its number. -/
theorem readSqlRow_eq_ok_iff {required : List String} {known : List ℤ} {n : ℕ}
    {row : Dict String V} {componentId : ℤ} {makeFlag : Bool} {stock : Decimal} :
    readSqlRow required known n row = .ok (componentId, makeFlag, stock) ↔
      requireFields row required "" = .ok () ∧
      (∃ v, field row "componentId" = .ok v ∧ identifier v "" = .ok componentId) ∧
      componentId ∉ known ∧
      (∃ v, field row "makeFlag" = .ok v ∧ PyValue.kind v = .bool makeFlag) ∧
      ∃ v, field row "actualStock" = .ok v ∧ decimal v "" false = .ok stock := by
  have hfields : ∀ label, requireFields row required label = .ok () ↔
      requireFields row required "" = .ok () := fun label => returnsAlike_require _ _ ()
  unfold readSqlRow
  simp only [bind_eq_ok]
  constructor
  · rintro ⟨⟨⟩, hrequired, rawId, hrawId, id, hid, h⟩
    split_ifs at h with hknown
    · obtain ⟨text, -, h⟩ := bind_eq_ok.1 h
      obtain ⟨_, h, -⟩ := bind_eq_ok.1 h
      cases h
    · obtain ⟨rawFlag, hrawFlag, h⟩ := bind_eq_ok.1 h
      split at h
      · rename_i flag hflag
        simp only [bind_eq_ok, pure_eq_ok] at h
        obtain ⟨_, rfl, rawStock, hrawStock, actualStock, hstock, h⟩ := h
        cases h
        exact ⟨(hfields _).1 hrequired, ⟨rawId, hrawId, (identifier_alike _ _ _ _).1 hid⟩, hknown,
          ⟨rawFlag, hrawFlag, hflag⟩, rawStock, hrawStock, (decimal_alike _ _ _ _ _).1 hstock⟩
      · obtain ⟨_, h, -⟩ := bind_eq_ok.1 h
        cases h
  · rintro ⟨hrequired, ⟨rawId, hrawId, hid⟩, hknown, ⟨rawFlag, hrawFlag, hflag⟩, rawStock,
      hrawStock, hstock⟩
    refine ⟨(), (hfields _).2 hrequired, rawId, hrawId, componentId,
      (identifier_alike _ _ _ _).2 hid, ?_⟩
    rw [if_neg hknown]
    refine bind_eq_ok.2 ⟨rawFlag, hrawFlag, ?_⟩
    rw [hflag]
    simp only [bind_eq_ok, pure_eq_ok]
    exact ⟨makeFlag, rfl, rawStock, hrawStock, stock, (decimal_alike _ _ _ _ _).2 hstock, rfl⟩

/-- A row is read if it is read by itself, and its component has not been there. -/
theorem readSqlRow_eq_ok {required : List String} {known : List ℤ} {n : ℕ} {row : Dict String V}
    {read : StockRow} :
    readSqlRow required known n row = .ok read ↔
      ReadsSqlRow required row read ∧ read.1 ∉ known := by
  obtain ⟨componentId, makeFlag, stock⟩ := read
  rw [ReadsSqlRow, readSqlRow_eq_ok_iff, readSqlRow_eq_ok_iff]
  simp only [List.not_mem_nil, not_false_iff, true_and]
  tauto

/-- **The loop over the stock** reads every row, and takes every component once. -/
theorem collectSql_eq_ok {required : List String} {n : ℕ} {stocks stocks' : Dict ℤ (Bool × Decimal)}
    {rows : List (Dict String V)} :
    collectSql required n stocks rows = .ok stocks' ↔
      ∃ sql : List StockRow, List.Forall₂ (ReadsSqlRow required) rows sql ∧
        stocks'.entries = stocks.entries ++ sql := by
  induction rows generalizing n stocks with
  | nil =>
    simp only [collectSql, Except.ok.injEq, List.forall₂_nil_left_iff, exists_eq_left,
      List.append_nil]
    exact ⟨fun h => by rw [h], fun h => (Dict.ext h).symm⟩
  | cons row rows ih =>
    simp only [collectSql, bind_eq_ok, readSqlRow_eq_ok, ih]
    constructor
    · rintro ⟨read, ⟨hread, hnew⟩, sql, hsql, hentries⟩
      refine ⟨read :: sql, .cons hread hsql, ?_⟩
      rw [hentries, Dict.entries_set_of_not_mem hnew, List.append_assoc]
      rfl
    · rintro ⟨sql, hsql, hentries⟩
      cases hsql with
      | @cons _ read _ sql hread hrest =>
        have hnodup := stocks'.nodup
        rw [hentries, List.map_append, List.nodup_append] at hnodup
        have hnew : read.1 ∉ stocks.keys := fun hmem =>
          hnodup.2.2 _ hmem _ (by simp) rfl
        refine ⟨read, ⟨hread, hnew⟩, sql, hrest, ?_⟩
        rw [hentries, Dict.entries_set_of_not_mem hnew, List.append_assoc]
        rfl

end Composition
