import Text2Cypher.Etl.Validated

/-!
# The load of one specification after the other

The columns that the validation looks at are the ones by which the clauses of a specification find
and create its nodes and relationships.  Rows with different keys therefore do not meet, in one
batch or in several.

* `NodeSpec.Coherent`, `RelationshipSpec.Coherent`: what a specification says three times agrees;
* `loadRows_rule`: what every batch keeps, a load keeps;
* **`loadRows_nodes`, `loadRows_relationships`**: one node or relationship for each row.
-/

namespace Structured

open PropertyGraph Checks

/-- The properties by which nodes and relationships are found. -/
def keyProps : List String := nodeSpecs.map NodeSpec.uniqueKey ++ ["supplyKey", "bomId"]

/-- The node that stands for a row is found by the column that is validated, and the assignments
leave its key alone. -/
def NodeSpec.Coherent (spec : NodeSpec) : Prop :=
  ∃ sets, spec.mergeCypher =
      .mergeNode "n" spec.label spec.uniqueKey (.column spec.uniqueKey) :: sets ∧
    ∀ clause ∈ sets, ∃ prop value, clause = .set "n" prop value ∧ prop ∉ keyProps

/-- The ends of a relationship are found by the columns that are validated, in the nodes of the
labels that are validated, and so is the relationship. -/
structure RelationshipSpec.Coherent (spec : RelationshipSpec) (fromSpec toSpec : NodeSpec)
    (source target : String) (key : Option (String × Expr)) (sets : List Clause) : Prop where
  query : spec.mergeCypher =
    .matchNode source spec.fromLabel fromSpec.uniqueKey (.column spec.fromKey) ::
      .matchNode target spec.toLabel toSpec.uniqueKey (.column spec.toKey) ::
        .mergeRelationship source "r" spec.relType key target :: sets
  sets : ∀ clause ∈ sets, ∃ prop value, clause = .set "r" prop value ∧ prop ∉ keyProps
  ends : source ≠ target
  source : fromSpec ∈ nodeSpecs ∧ fromSpec.label = spec.fromLabel
  target : toSpec ∈ nodeSpecs ∧ toSpec.label = spec.toLabel
  merge : key = none ∧ spec.mergeKeyColumns = [spec.fromKey, spec.toKey] ∨
    ∃ prop ∈ keyProps, key = some (prop, .column prop) ∧ spec.mergeKeyColumns = [prop]

theorem coherent_nodes {spec : NodeSpec} (h : spec ∈ nodeSpecs) : spec.Coherent := by
  simp only [nodeSpecs, List.mem_cons, List.not_mem_nil, or_false] at h
  rcases h with rfl | rfl | rfl | rfl | rfl | rfl
  all_goals
    refine ⟨_, rfl, ?_⟩
    simp [keyProps, nodeSpecs]

theorem coherent_relationships {spec : RelationshipSpec} (h : spec ∈ relationshipSpecs) :
    ∃ fromSpec toSpec source target key sets,
      spec.Coherent fromSpec toSpec source target key sets := by
  -- the specifications of the nodes, in their order
  let specAt : Fin 6 → NodeSpec := nodeSpecs.get
  have hmem : ∀ i, specAt i ∈ nodeSpecs := fun i => List.get_mem nodeSpecs i
  simp only [relationshipSpecs, List.mem_cons, List.not_mem_nil, or_false] at h
  rcases h with rfl | rfl | rfl | rfl | rfl | rfl
  · exact ⟨specAt 1, specAt 0, _, _, _, _, rfl, by simp [keyProps, nodeSpecs], by decide, ⟨hmem 1, rfl⟩,
      ⟨hmem 0, rfl⟩, Or.inr ⟨"supplyKey", by decide, rfl, rfl⟩⟩
  · exact ⟨specAt 0, specAt 0, _, _, _, _, rfl, by simp [keyProps, nodeSpecs], by decide, ⟨hmem 0, rfl⟩,
      ⟨hmem 0, rfl⟩, Or.inr ⟨"bomId", by decide, rfl, rfl⟩⟩
  · exact ⟨specAt 2, specAt 0, _, _, _, _, rfl, by simp [keyProps, nodeSpecs], by decide, ⟨hmem 2, rfl⟩,
      ⟨hmem 0, rfl⟩, Or.inl ⟨rfl, rfl⟩⟩
  · exact ⟨specAt 2, specAt 3, _, _, _, _, rfl, by simp [keyProps, nodeSpecs], by decide, ⟨hmem 2, rfl⟩,
      ⟨hmem 3, rfl⟩, Or.inl ⟨rfl, rfl⟩⟩
  · exact ⟨specAt 3, specAt 4, _, _, _, _, rfl, by simp [keyProps, nodeSpecs], by decide, ⟨hmem 3, rfl⟩,
      ⟨hmem 4, rfl⟩, Or.inl ⟨rfl, rfl⟩⟩
  · exact ⟨specAt 2, specAt 5, _, _, _, _, rfl, by simp [keyProps, nodeSpecs], by decide, ⟨hmem 2, rfl⟩,
      ⟨hmem 5, rfl⟩, Or.inl ⟨rfl, rfl⟩⟩

/-! ### Nodes -/

/-- The key by which the node of a row is found. -/
def NodeSpec.key (spec : NodeSpec) (row : Row) : Value := row.cypher spec.uniqueKey

/-- The outline of the node that stands for a row. -/
def NodeSpec.outline (spec : NodeSpec) (syncRunId : String) (row : Row) :
    String × (String → Option Value) :=
  (newNode (context syncRunId) spec.label spec.uniqueKey (spec.key row)).outline keyProps

/-- Rows with a key each, and none twice. -/
structure Keyed {α : Type} (key : α → Value) (rows : List α) : Prop where
  isKey : ∀ row ∈ rows, (key row).IsKey
  nonnull : ∀ row ∈ rows, key row ≠ .null
  distinct : (rows.map key).Nodup

theorem Keyed.ne {α : Type} {key : α → Value} {done batch : List α} (h : Keyed key (done ++ batch))
    {a b : α} (ha : a ∈ done) (hb : b ∈ batch) : key a ≠ key b := by
  have hdistinct := h.distinct
  rw [List.map_append, List.nodup_append] at hdistinct
  exact hdistinct.2.2 _ (List.mem_map_of_mem ha) _ (List.mem_map_of_mem hb)

/-- Cypher's `=` between the keys of different rows. -/
theorem Keyed.same_eq_false {α : Type} {key : α → Value} {done batch : List α}
    (h : Keyed key (done ++ batch)) {a b : α} (ha : a ∈ done) (hb : b ∈ batch) :
    (key a).same (key b) = false := by
  have ha' := List.mem_append_left batch ha
  rw [Value.same_of_isKey (h.isKey a ha') (h.isKey b (List.mem_append_right done hb))
    (h.nonnull a ha'), decide_eq_false_iff_not]
  exact h.ne ha hb

theorem Keyed.append_left {α : Type} {key : α → Value} {done batch : List α}
    (h : Keyed key (done ++ batch)) : Keyed key done := by
  refine ⟨fun a ha => h.isKey a (List.mem_append_left batch ha),
    fun a ha => h.nonnull a (List.mem_append_left batch ha), ?_⟩
  have hdistinct := h.distinct
  rw [List.map_append, List.nodup_append] at hdistinct
  exact hdistinct.1

theorem Keyed.append_right {α : Type} {key : α → Value} {done batch : List α}
    (h : Keyed key (done ++ batch)) : Keyed key batch := by
  refine ⟨fun a ha => h.isKey a (List.mem_append_right done ha),
    fun a ha => h.nonnull a (List.mem_append_right done ha), ?_⟩
  have hdistinct := h.distinct
  rw [List.map_append, List.nodup_append] at hdistinct
  exact hdistinct.2.1

theorem Keyed.pairwise {α : Type} {key : α → Value} {rows : List α} (h : Keyed key rows) :
    rows.Pairwise fun a b => (key a).same (key b) = false := by
  have hdistinct := List.pairwise_map.1 h.distinct
  refine hdistinct.imp_of_mem fun {a b} ha hb hne => ?_
  rw [Value.same_of_isKey (h.isKey a ha) (h.isKey b hb) (h.nonnull a ha), decide_eq_false_iff_not]
  exact hne

theorem outline_eq {spec : NodeSpec} (hspec : spec ∈ nodeSpecs) (syncRunId : String) (row : Row) :
    (spec.outline syncRunId row).1 = spec.label ∧
      (spec.outline syncRunId row).2 spec.uniqueKey = some (spec.key row) := by
  refine ⟨rfl, mask_eq_some.2 ⟨List.mem_append_left _ (List.mem_map_of_mem hspec), ?_⟩⟩
  simp [newNode]

theorem uniqueKey_mem {spec : NodeSpec} (h : spec ∈ nodeSpecs) : spec.uniqueKey ∈ keyProps :=
  List.mem_append_left _ (List.mem_map_of_mem h)

/-- One batch of nodes. -/
theorem runBatch_nodes {spec : NodeSpec} (hspec : spec ∈ nodeSpecs) (syncRunId : String)
    {g : Graph Value} {before : List (String × (String → Option Value))} {done batch : List Row}
    (hview : g.nodeView keyProps = before ++ done.map (spec.outline syncRunId))
    (hbefore : ∀ o ∈ before, o.1 ≠ spec.label) (hkeyed : Keyed spec.key (done ++ batch)) :
    ∃ g', runBatch syncRunId spec.mergeCypher g batch = some g' ∧
      g'.nodeView keyProps = before ++ (done ++ batch).map (spec.outline syncRunId) ∧
      g'.relationshipView keyProps = g.relationshipView keyProps := by
  obtain ⟨sets, hquery, hsets⟩ := coherent_nodes hspec
  have hrow : ∀ s ∈ unwind (batch.map Row.cypher), ∃ row ∈ batch,
      s.row spec.uniqueKey = spec.key row := by
    intro s hs
    obtain ⟨values, hvalues, rfl⟩ := List.mem_map.1 hs
    obtain ⟨row, hmem, rfl⟩ := List.mem_map.1 hvalues
    exact ⟨row, hmem, rfl⟩
  have hnull : ∀ s ∈ unwind (batch.map Row.cypher),
      (context syncRunId).isNull (s.row spec.uniqueKey) = false := by
    intro s hs
    obtain ⟨row, hmem, hvalue⟩ := hrow s hs
    rw [hvalue]
    exact decide_eq_false (hkeyed.append_right.nonnull row hmem)
  have hfresh : ∀ s ∈ unwind (batch.map Row.cypher), ∀ n ∈ g.nodes,
      n.answers (context syncRunId) spec.label spec.uniqueKey (s.row spec.uniqueKey) = false := by
    intro s hs n hn
    obtain ⟨row, hmem, hvalue⟩ := hrow s hs
    rw [hvalue]
    have houtline : n.outline keyProps ∈ before ++ done.map (spec.outline syncRunId) := by
      rw [← hview]
      exact List.mem_map_of_mem hn
    rcases List.mem_append.1 houtline with hother | hdone
    · have hlabel : n.label ≠ spec.label := hbefore _ hother
      simp [Node.answers, hlabel]
    · obtain ⟨row', hmem', hsame⟩ := List.mem_map.1 hdone
      have hprop := (outline_eq hspec syncRunId row').2
      rw [hsame] at hprop
      have hkey : n.props spec.uniqueKey = spec.key row' := (mask_eq_some.1 hprop).2
      rw [Node.answers, hkey, show (context syncRunId).same = Value.same from rfl,
        hkeyed.same_eq_false hmem' hmem,
        Bool.and_false]
  have hapart : (unwind (batch.map Row.cypher)).Pairwise fun s t =>
      (context syncRunId).same (s.row spec.uniqueKey) (t.row spec.uniqueKey) = false := by
    refine List.pairwise_map.2 (List.pairwise_map.2 ?_)
    exact hkeyed.append_right.pairwise
  obtain ⟨g₁, table', heach, hnodes, hrels, hbound⟩ := each_mergeNode (context syncRunId) "n"
    (.column spec.uniqueKey) hnull hfresh hapart
  have hvars : ∀ s ∈ table', ∃ e, s.vars "n" = some e := by
    intro s hs
    obtain ⟨s', -, i, rfl⟩ := exists_of_forall₂ hbound hs
    exact ⟨_, Scope.bind_vars_self ..⟩
  obtain ⟨g', hrun, halike⟩ := runQuery_sets (context syncRunId) hsets g₁ hvars
  refine ⟨g', ?_, ?_, halike.relationships.trans (congrArg (List.map _) hrels)⟩
  · rw [runBatch, hquery, runQuery, heach]
    simp only [Option.bind_eq_bind, Option.bind_some, hrun, Option.map_some]
  · rw [halike.nodes, Graph.nodeView, hnodes, List.map_append, List.map_append, ← List.append_assoc,
      ← hview, unwind, List.map_map, List.map_map, List.map_map]
    rfl

/-! ### Batches -/

/-- The batches of `chunk_rows` make up the rows. -/
theorem flatten_chunkRows (rows : List Row) {batchSize : ℕ} (h : 0 < batchSize) :
    (chunkRows rows batchSize).flatten = rows := by
  have htake : ∀ k, ((List.range k).map fun i => (rows.drop (i * batchSize)).take batchSize).flatten =
      rows.take (k * batchSize) := by
    intro k
    induction k with
    | zero => simp
    | succ k ih =>
      rw [List.range_succ, List.map_append, List.flatten_append, ih, List.map_singleton,
        List.flatten_singleton, Nat.succ_mul, List.take_add]
  rw [chunkRows, htake, List.take_of_length_le]
  have hdiv := Nat.lt_div_mul_add (a := rows.length + batchSize - 1) h
  omega

/-- What every batch keeps, the load of all rows keeps. -/
theorem loadRows_rule {syncRunId : String} {mergeCypher : List Clause}
    (holds : List Row → Graph Value → Prop) (ok : List Row → Prop)
    (hearlier : ∀ done batch, ok (done ++ batch) → ok done)
    (hbatch : ∀ done batch g, ok (done ++ batch) → holds done g →
      ∃ g', runBatch syncRunId mergeCypher g batch = some g' ∧ holds (done ++ batch) g')
    {batchSize : ℕ} (hsize : 0 < batchSize) {rows : List Row} (hok : ok rows) {g : Graph Value}
    (h : holds [] g) :
    ∃ g', loadRows syncRunId batchSize mergeCypher g rows = some g' ∧ holds rows g' := by
  have hfold : ∀ (batches : List (List Row)) (done : List Row) (g : Graph Value),
      ok (done ++ batches.flatten) → holds done g →
      ∃ g', batches.foldlM (runBatch syncRunId mergeCypher) g = some g' ∧
        holds (done ++ batches.flatten) g' := by
    intro batches
    induction batches with
    | nil =>
      intro done g _ hdone
      rw [List.flatten_nil, List.append_nil]
      exact ⟨g, rfl, hdone⟩
    | cons batch batches ih =>
      intro done g hok hdone
      rw [List.flatten_cons, ← List.append_assoc] at hok ⊢
      obtain ⟨g₁, hrun, hg₁⟩ := hbatch done batch g (hearlier _ _ hok) hdone
      obtain ⟨g₂, hrest, hg₂⟩ := ih (done ++ batch) g₁ hok hg₁
      refine ⟨g₂, ?_, hg₂⟩
      simp only [List.foldlM_cons, hrun, Option.bind_eq_bind, Option.bind_some, hrest]
  have hload := hfold (chunkRows rows batchSize) [] g
  rw [List.nil_append, flatten_chunkRows rows hsize] at hload
  exact hload hok h

/-- **The load of one node specification**: one node for each row. -/
theorem loadRows_nodes {spec : NodeSpec} (hspec : spec ∈ nodeSpecs) (syncRunId : String)
    {batchSize : ℕ} (hsize : 0 < batchSize) {g : Graph Value} {rows : List Row}
    (hother : ∀ o ∈ g.nodeView keyProps, o.1 ≠ spec.label) (hkeyed : Keyed spec.key rows) :
    ∃ g', loadRows syncRunId batchSize spec.mergeCypher g rows = some g' ∧
      g'.nodeView keyProps = g.nodeView keyProps ++ rows.map (spec.outline syncRunId) ∧
      g'.relationshipView keyProps = g.relationshipView keyProps := by
  refine loadRows_rule (fun done g' =>
    g'.nodeView keyProps = g.nodeView keyProps ++ done.map (spec.outline syncRunId) ∧
      g'.relationshipView keyProps = g.relationshipView keyProps) (Keyed spec.key)
    (fun _ _ h => h.append_left) (fun done batch g₁ hok hdone => ?_) hsize hkeyed ⟨?_, rfl⟩
  · obtain ⟨g₂, hrun, hnodes, hrels⟩ := runBatch_nodes hspec syncRunId hdone.1 hother hok
    exact ⟨g₂, hrun, hnodes, hrels.trans hdone.2⟩
  · rw [List.map_nil, List.append_nil]

/-! ### Relationships -/

/-- A node that stands for a value of the key, seen by its number. -/
def EndsAt (g : Graph Value) (spec : NodeSpec) (i : ℕ) (v : Value) : Prop :=
  ∃ o, (g.nodeView keyProps)[i]? = some o ∧ o.1 = spec.label ∧ o.2 spec.uniqueKey = some v

/-- The pattern of a node specification finds one node for a value. -/
def Finds (syncRunId : String) (g : Graph Value) (spec : NodeSpec) (v : Value) : Prop :=
  ∃ i, g.nodeMatches (context syncRunId) spec.label spec.uniqueKey v = [i] ∧ EndsAt g spec i v

theorem EndsAt.eq {g : Graph Value} {spec : NodeSpec} {i : ℕ} {v w : Value}
    (hv : EndsAt g spec i v) (hw : EndsAt g spec i w) : v = w := by
  obtain ⟨o, ho, -, hv⟩ := hv
  obtain ⟨o', ho', -, hw⟩ := hw
  obtain rfl := Option.some.inj (ho.symm.trans ho')
  exact Option.some.inj (hv.symm.trans hw)

/-- The outline of a relationship that stands for a row: of its type, between the nodes that the row
names, and with the key of the row. -/
structure StandsFor (g : Graph Value) (spec : RelationshipSpec) (fromSpec toSpec : NodeSpec)
    (row : Row) (o : String × ℕ × ℕ × (String → Option Value)) : Prop where
  type : o.1 = spec.relType
  source : EndsAt g fromSpec o.2.1 (row.cypher spec.fromKey)
  target : EndsAt g toSpec o.2.2.1 (row.cypher spec.toKey)
  merge : ∀ prop ∈ keyProps, spec.mergeKeyColumns = [prop] → o.2.2.2 prop = some (row.cypher prop)

/-- The values of the columns that are validated. -/
def RelationshipSpec.mergeKey (spec : RelationshipSpec) (row : Row) : List Value :=
  spec.mergeKeyColumns.map row.cypher

/-- The rows of a relationship specification that may be loaded. -/
structure Loadable (syncRunId : String) (g : Graph Value) (spec : RelationshipSpec)
    (fromSpec toSpec : NodeSpec) (rows : List Row) : Prop where
  source : ∀ row ∈ rows, Finds syncRunId g fromSpec (row.cypher spec.fromKey)
  target : ∀ row ∈ rows, Finds syncRunId g toSpec (row.cypher spec.toKey)
  isKey : ∀ row ∈ rows, ∀ v ∈ spec.mergeKey row, v.IsKey ∧ v ≠ .null
  distinct : (rows.map spec.mergeKey).Nodup

theorem EndsAt.of_view {g g' : Graph Value} (h : g'.nodeView keyProps = g.nodeView keyProps)
    {spec : NodeSpec} {i : ℕ} {v : Value} (hends : EndsAt g spec i v) : EndsAt g' spec i v := by
  rwa [EndsAt, h]

theorem StandsFor.of_view {g g' : Graph Value} (h : g'.nodeView keyProps = g.nodeView keyProps)
    {spec : RelationshipSpec} {fromSpec toSpec : NodeSpec} {row : Row}
    {o : String × ℕ × ℕ × (String → Option Value)} (hstands : StandsFor g spec fromSpec toSpec row o) :
    StandsFor g' spec fromSpec toSpec row o :=
  ⟨hstands.type, hstands.source.of_view h, hstands.target.of_view h, hstands.merge⟩

theorem Finds.of_view {g g' : Graph Value} (h : g'.nodeView keyProps = g.nodeView keyProps)
    {syncRunId : String} {spec : NodeSpec} (hspec : spec ∈ nodeSpecs) {v : Value}
    (hfinds : Finds syncRunId g spec v) : Finds syncRunId g' spec v := by
  obtain ⟨i, hi, hends⟩ := hfinds
  exact ⟨i, by rwa [nodeMatches_eq_of_nodeView h _ (uniqueKey_mem hspec)], hends.of_view h⟩

theorem Loadable.of_view {g g' : Graph Value} (h : g'.nodeView keyProps = g.nodeView keyProps)
    {syncRunId : String} {spec : RelationshipSpec} {fromSpec toSpec : NodeSpec}
    (hfrom : fromSpec ∈ nodeSpecs) (hto : toSpec ∈ nodeSpecs) {rows : List Row}
    (hload : Loadable syncRunId g spec fromSpec toSpec rows) :
    Loadable syncRunId g' spec fromSpec toSpec rows :=
  ⟨fun row hrow => (hload.source row hrow).of_view h hfrom,
    fun row hrow => (hload.target row hrow).of_view h hto, hload.isKey, hload.distinct⟩

theorem Loadable.append_left {syncRunId : String} {g : Graph Value} {spec : RelationshipSpec}
    {fromSpec toSpec : NodeSpec} {done batch : List Row}
    (h : Loadable syncRunId g spec fromSpec toSpec (done ++ batch)) :
    Loadable syncRunId g spec fromSpec toSpec done := by
  refine ⟨fun row hrow => h.source row (List.mem_append_left batch hrow),
    fun row hrow => h.target row (List.mem_append_left batch hrow),
    fun row hrow => h.isKey row (List.mem_append_left batch hrow), ?_⟩
  have hdistinct := h.distinct
  rw [List.map_append, List.nodup_append] at hdistinct
  exact hdistinct.1

variable {spec : RelationshipSpec} {fromSpec toSpec : NodeSpec} {source target : String}
  {key : Option (String × Expr)} {sets : List Clause}

/-- A relationship that stands for one row does not answer the pattern of another. -/
theorem StandsFor.answers_eq_false
    (hcoherent : spec.Coherent fromSpec toSpec source target key sets) {syncRunId : String}
    {g : Graph Value} {row row' : Row} {r : Relationship Value}
    (h : StandsFor g spec fromSpec toSpec row' (r.outline keyProps)) {i j : ℕ}
    (hi : EndsAt g fromSpec i (row.cypher spec.fromKey))
    (hj : EndsAt g toSpec j (row.cypher spec.toKey)) (hne : spec.mergeKey row' ≠ spec.mergeKey row)
    (hkeys : ∀ v ∈ spec.mergeKey row, v.IsKey ∧ v ≠ .null)
    (hkeys' : ∀ v ∈ spec.mergeKey row', v.IsKey ∧ v ≠ .null) :
    r.answers (context syncRunId) spec.relType key i j row.cypher = false := by
  by_contra hanswers
  rw [Bool.not_eq_false, Relationship.answers, Bool.and_eq_true, decide_eq_true_eq] at hanswers
  obtain ⟨⟨-, rfl, rfl⟩, hmerge⟩ := hanswers
  apply hne
  rcases hcoherent.merge with ⟨-, hcolumns⟩ | ⟨prop, hprop, rfl, hcolumns⟩
  · rw [RelationshipSpec.mergeKey, RelationshipSpec.mergeKey, hcolumns, List.map_cons,
      List.map_cons, List.map_cons, List.map_cons, h.source.eq hi, h.target.eq hj]
    rfl
  · rw [RelationshipSpec.mergeKey, hcolumns, List.map_singleton] at hkeys hkeys' ⊢
    rw [RelationshipSpec.mergeKey, hcolumns, List.map_singleton]
    have hvalue : r.props prop = row'.cypher prop := (mask_eq_some.1 (h.merge prop hprop hcolumns)).2
    obtain ⟨hkey, -⟩ := hkeys _ (List.mem_singleton_self _)
    obtain ⟨hkey', hnull'⟩ := hkeys' _ (List.mem_singleton_self _)
    have hsame : (r.props prop).same (row.cypher prop) = true := hmerge
    rw [hvalue, Value.same_of_isKey hkey' hkey hnull', decide_eq_true_eq] at hsame
    rw [hsame]

/-- A relationship that is created for a row stands for it. -/
theorem standsFor_newRelationship
    (hcoherent : spec.Coherent fromSpec toSpec source target key sets) {syncRunId : String}
    {g : Graph Value} {row : Row} {i j : ℕ} (hi : EndsAt g fromSpec i (row.cypher spec.fromKey))
    (hj : EndsAt g toSpec j (row.cypher spec.toKey)) :
    StandsFor g spec fromSpec toSpec row
      ((newRelationship (context syncRunId) spec.relType key i j row.cypher).outline keyProps) := by
  refine ⟨rfl, hi, hj, fun prop hprop hcolumns => mask_eq_some.2 ⟨hprop, ?_⟩⟩
  rcases hcoherent.merge with ⟨-, hcolumns'⟩ | ⟨prop', -, rfl, hcolumns'⟩
  · rw [hcolumns'] at hcolumns
    cases hcolumns
  · obtain rfl : prop' = prop := by simpa using hcolumns'.symm.trans hcolumns
    simp [newRelationship, Expr.eval]

/-- The scopes behind the two patterns: the row, and the nodes that it names. -/
def Bound (g : Graph Value) (spec : RelationshipSpec) (fromSpec toSpec : NodeSpec)
    (source target : String) (row : Row) (s : Scope Value) : Prop :=
  s.row = row.cypher ∧ ∃ i j, s.vars source = some (.node i) ∧ s.vars target = some (.node j) ∧
    EndsAt g fromSpec i (row.cypher spec.fromKey) ∧ EndsAt g toSpec j (row.cypher spec.toKey)

/-- The two patterns bind the nodes that each row names. -/
theorem each_patterns (hcoherent : spec.Coherent fromSpec toSpec source target key sets)
    {syncRunId : String} {g : Graph Value} {batch : List Row}
    (hsource : ∀ row ∈ batch, Finds syncRunId g fromSpec (row.cypher spec.fromKey))
    (htarget : ∀ row ∈ batch, Finds syncRunId g toSpec (row.cypher spec.toKey)) :
    ∃ table table',
      (Clause.matchNode source spec.fromLabel fromSpec.uniqueKey (.column spec.fromKey)).each
        (context syncRunId) g (unwind (batch.map Row.cypher)) = some (g, table) ∧
      (Clause.matchNode target spec.toLabel toSpec.uniqueKey (.column spec.toKey)).each
        (context syncRunId) g table = some (g, table') ∧
      List.Forall₂ (Bound g spec fromSpec toSpec source target) batch table' := by
  have hlabel := hcoherent.source.2
  have hlabel' := hcoherent.target.2
  have hfirst : ∀ s ∈ unwind (batch.map Row.cypher), ∃ i,
      g.nodeMatches (context syncRunId) spec.fromLabel fromSpec.uniqueKey (s.row spec.fromKey) =
        [i] := by
    intro s hs
    obtain ⟨values, hvalues, rfl⟩ := List.mem_map.1 hs
    obtain ⟨row, hrow, rfl⟩ := List.mem_map.1 hvalues
    obtain ⟨i, hi, -⟩ := hsource row hrow
    exact ⟨i, hlabel ▸ hi⟩
  obtain ⟨table, heach, hall⟩ := each_matchNode (context syncRunId) source
    (.column spec.fromKey) hfirst
  rw [unwind, List.forall₂_map_left_iff, List.forall₂_map_left_iff] at hall
  have hall' := (List.forall₂_and_left _ _).2
    ⟨htarget, (List.forall₂_and_left _ _).2 ⟨hsource, hall⟩⟩
  have hsecond : ∀ s ∈ table, ∃ i,
      g.nodeMatches (context syncRunId) spec.toLabel toSpec.uniqueKey (s.row spec.toKey) =
        [i] := by
    intro s hs
    obtain ⟨row, hrow, ⟨j, hj, -⟩, -, i, -, rfl⟩ := exists_of_forall₂ hall' hs
    exact ⟨j, hlabel' ▸ hj⟩
  obtain ⟨table', heach', hbound⟩ := each_matchNode (context syncRunId) target
    (.column spec.toKey) hsecond
  refine ⟨table, table', heach, heach', forall₂_trans (fun row s s' hs hs' => ?_) hall' hbound⟩
  obtain ⟨⟨j, hj, htarget⟩, ⟨i, hi, hsource⟩, i', hi', rfl⟩ := hs
  obtain ⟨j', hj', rfl⟩ := hs'
  obtain rfl : i = i' := by
    rw [hlabel] at hi
    exact (List.cons.inj (hi.symm.trans hi')).1
  obtain rfl : j = j' := by
    rw [hlabel'] at hj
    exact (List.cons.inj (hj.symm.trans hj')).1
  refine ⟨rfl, i, j, ?_, Scope.bind_vars_self .., hsource, htarget⟩
  rw [Scope.bind_vars_of_ne _ hcoherent.ends, Scope.bind_vars_self]

theorem Loadable.ne {syncRunId : String} {g : Graph Value} {done batch : List Row}
    (h : Loadable syncRunId g spec fromSpec toSpec (done ++ batch)) {row row' : Row}
    (hrow' : row' ∈ done) (hrow : row ∈ batch) : spec.mergeKey row' ≠ spec.mergeKey row := by
  have hdistinct := h.distinct
  rw [List.map_append, List.nodup_append] at hdistinct
  exact hdistinct.2.2 _ (List.mem_map_of_mem hrow') _ (List.mem_map_of_mem hrow)

/-- One batch of relationships. -/
theorem runBatch_relationships (hcoherent : spec.Coherent fromSpec toSpec source target key sets)
    {syncRunId : String} {g : Graph Value}
    {before created : List (String × ℕ × ℕ × (String → Option Value))} {done batch : List Row}
    (hview : g.relationshipView keyProps = before ++ created)
    (hbefore : ∀ o ∈ before, o.1 ≠ spec.relType)
    (hcreated : List.Forall₂ (StandsFor g spec fromSpec toSpec) done created)
    (hload : Loadable syncRunId g spec fromSpec toSpec (done ++ batch)) :
    ∃ g' created', runBatch syncRunId spec.mergeCypher g batch = some g' ∧
      g'.nodeView keyProps = g.nodeView keyProps ∧
      g'.relationshipView keyProps = before ++ created' ∧
      List.Forall₂ (StandsFor g spec fromSpec toSpec) (done ++ batch) created' := by
  obtain ⟨table, table', heach, heach', hbound⟩ := each_patterns hcoherent
    (fun row hrow => hload.source row (List.mem_append_right done hrow))
    (fun row hrow => hload.target row (List.mem_append_right done hrow))
  have hbound' := (List.forall₂_and_left (p := fun row => row ∈ batch) _ _).2
    ⟨fun _ h => h, hbound⟩
  have hkeys : ∀ row ∈ batch, ∀ v ∈ spec.mergeKey row, v.IsKey ∧ v ≠ .null :=
    fun row hrow => hload.isKey row (List.mem_append_right done hrow)
  -- the numbers that a scope binds are those of the ends of its row
  have hends : ∀ row s i j, Bound g spec fromSpec toSpec source target row s →
      s.vars source = some (.node i) → s.vars target = some (.node j) →
      s.row = row.cypher ∧ EndsAt g fromSpec i (row.cypher spec.fromKey) ∧
        EndsAt g toSpec j (row.cypher spec.toKey) := by
    rintro row s i j ⟨hrow, i', j', hi', hj', hsource, htarget⟩ hi hj
    obtain rfl : i' = i := by simpa using hi'.symm.trans hi
    obtain rfl : j' = j := by simpa using hj'.symm.trans hj
    exact ⟨hrow, hsource, htarget⟩
  have hboth : ∀ s ∈ table', ∃ i j,
      s.vars source = some (.node i) ∧ s.vars target = some (.node j) := by
    intro s hs
    obtain ⟨row, -, -, i, j, hi, hj, -⟩ := exists_of_forall₂ hbound hs
    exact ⟨i, j, hi, hj⟩
  have hnull : ∀ s ∈ table', ∀ k ∈ key,
      (context syncRunId).isNull (k.2.eval (context syncRunId) s.row) = false := by
    intro s hs k hk
    obtain ⟨row, -, hrow, hs⟩ := exists_of_forall₂ hbound' hs
    rcases hcoherent.merge with ⟨rfl, -⟩ | ⟨prop, -, rfl, hcolumns⟩
    · cases hk
    · obtain rfl := Option.some.inj hk
      refine decide_eq_false (?_ : (Expr.column prop).eval _ s.row ≠ .null)
      rw [hs.1]
      exact (hkeys row hrow _ (by rw [RelationshipSpec.mergeKey, hcolumns]; simp [Expr.eval])).2
  have hfresh : ∀ s ∈ table', ∀ i j, s.vars source = some (.node i) →
      s.vars target = some (.node j) → ∀ r ∈ g.relationships,
        r.answers (context syncRunId) spec.relType key i j s.row = false := by
    intro s hs i j hi hj r hr
    obtain ⟨row, -, hrow, hs⟩ := exists_of_forall₂ hbound' hs
    obtain ⟨hvalues, hi, hj⟩ := hends row s i j hs hi hj
    rw [hvalues]
    have houtline : r.outline keyProps ∈ before ++ created := by
      rw [← hview]
      exact List.mem_map_of_mem hr
    rcases List.mem_append.1 houtline with hother | hmem
    · have htype : r.type ≠ spec.relType := hbefore _ hother
      simp [Relationship.answers, htype]
    · obtain ⟨row', hrow', hstands⟩ := exists_of_forall₂ hcreated hmem
      exact hstands.answers_eq_false hcoherent hi hj (hload.ne hrow' hrow) (hkeys row hrow)
        (hload.isKey row' (List.mem_append_left batch hrow'))
  have hdistinct : batch.Pairwise fun row row' => spec.mergeKey row ≠ spec.mergeKey row' := by
    have hnodup := hload.distinct
    rw [List.map_append, List.nodup_append] at hnodup
    exact List.pairwise_map.1 hnodup.2.1
  have hapart : table'.Pairwise fun s t => ∀ i j, t.vars source = some (.node i) →
      t.vars target = some (.node j) → ∀ i' j', s.vars source = some (.node i') →
      s.vars target = some (.node j') →
      (newRelationship (context syncRunId) spec.relType key i' j' s.row).answers
        (context syncRunId) spec.relType key i j t.row = false := by
    refine pairwise_of_forall₂ (fun row row' s t hs ht hne i j hi hj i' j' hi' hj' => ?_) hbound'
      hdistinct
    obtain ⟨hvalues, hi, hj⟩ := hends row' t i j ht.2 hi hj
    obtain ⟨hvalues', hi', hj'⟩ := hends row s i' j' hs.2 hi' hj'
    rw [hvalues, hvalues']
    exact (standsFor_newRelationship hcoherent hi' hj').answers_eq_false hcoherent hi hj hne
      (hkeys row' ht.1) (hkeys row hs.1)
  obtain ⟨g₁, new, table'', hmerge, hnodes, hrels, hnew, hvars⟩ := each_mergeRelationship
    (context syncRunId) "r" hboth hnull hfresh hapart
  obtain ⟨g', hrun, halike⟩ := runQuery_sets (context syncRunId) hcoherent.sets g₁ hvars
  refine ⟨g', created ++ new.map (Relationship.outline keyProps), ?_, ?_, ?_, ?_⟩
  · rw [runBatch, hcoherent.query]
    simp only [runQuery, heach, heach', hmerge, hrun, Option.bind_eq_bind, Option.bind_some,
      Option.map_some]
  · rw [halike.nodes, Graph.nodeView, hnodes]
    rfl
  · rw [halike.relationships, Graph.relationshipView, hrels, List.map_append, ← List.append_assoc,
      ← hview]
    rfl
  · refine List.rel_append hcreated (List.forall₂_map_right_iff.2 ?_)
    refine forall₂_trans (fun row s r hs hr => ?_) hbound hnew
    obtain ⟨i, j, hi, hj, rfl⟩ := hr
    obtain ⟨hvalues, hi, hj⟩ := hends row s i j hs hi hj
    rw [hvalues]
    exact standsFor_newRelationship hcoherent hi hj

/-- **The load of one relationship specification**: one relationship for each row. -/
theorem loadRows_relationships (hcoherent : spec.Coherent fromSpec toSpec source target key sets)
    {syncRunId : String} {batchSize : ℕ} (hsize : 0 < batchSize) {g : Graph Value}
    {rows : List Row} (hother : ∀ o ∈ g.relationshipView keyProps, o.1 ≠ spec.relType)
    (hload : Loadable syncRunId g spec fromSpec toSpec rows) :
    ∃ g' created, loadRows syncRunId batchSize spec.mergeCypher g rows = some g' ∧
      g'.nodeView keyProps = g.nodeView keyProps ∧
      g'.relationshipView keyProps = g.relationshipView keyProps ++ created ∧
      List.Forall₂ (StandsFor g spec fromSpec toSpec) rows created := by
  let holds (done : List Row) (g' : Graph Value) : Prop :=
    g'.nodeView keyProps = g.nodeView keyProps ∧ ∃ created,
      g'.relationshipView keyProps = g.relationshipView keyProps ++ created ∧
        List.Forall₂ (StandsFor g spec fromSpec toSpec) done created
  have hbatch : ∀ done batch g₁, Loadable syncRunId g spec fromSpec toSpec (done ++ batch) →
      holds done g₁ → ∃ g₂, runBatch syncRunId spec.mergeCypher g₁ batch = some g₂ ∧
        holds (done ++ batch) g₂ := by
    rintro done batch g₁ hok ⟨hnodes, created, hrels, hall⟩
    have hback := hnodes.symm
    obtain ⟨g₂, created', hrun, hnodes', hrels', hall'⟩ := runBatch_relationships hcoherent hrels
      hother (hall.imp fun _ _ h => h.of_view hnodes)
      (hok.of_view hnodes hcoherent.source.1 hcoherent.target.1)
    exact ⟨g₂, hrun, hnodes'.trans hnodes, created', hrels', hall'.imp fun _ _ h => h.of_view hback⟩
  have hstart : holds [] g := ⟨rfl, [], (List.append_nil _).symm, .nil⟩
  obtain ⟨g', hrun, hnodes, created, hrels, hall⟩ := loadRows_rule holds _
    (fun _ _ h => h.append_left) hbatch hsize hload hstart
  exact ⟨g', created, hrun, hnodes, hrels, hall⟩

/-! ### All specifications -/

/-- The rows of a specification. -/
def rowsOf (extracted : Dict String (List Row)) (name : String) : List Row :=
  (extracted.get? name).getD []

/-- The loop over the node specifications. -/
theorem loadSpecs_nodes {syncRunId : String} {batchSize : ℕ} (hsize : 0 < batchSize)
    {nodes : Dict String (List Row)} {specs : List NodeSpec} (hspecs : ∀ spec ∈ specs, spec ∈ nodeSpecs)
    (hlabels : (specs.map NodeSpec.label).Nodup)
    (hrows : ∀ spec ∈ specs, nodes.get? spec.label = some (rowsOf nodes spec.label) ∧
      Keyed spec.key (rowsOf nodes spec.label)) {g : Graph Value}
    (hother : ∀ spec ∈ specs, ∀ o ∈ g.nodeView keyProps, o.1 ≠ spec.label) :
    ∃ g', loadSpecs syncRunId batchSize nodes
        (specs.map fun spec => (spec.label, spec.mergeCypher)) g =
        some (g', specs.map fun spec => (spec.label, (rowsOf nodes spec.label).length)) ∧
      g'.nodeView keyProps = g.nodeView keyProps ++ specs.flatMap (fun spec =>
        (rowsOf nodes spec.label).map (spec.outline syncRunId)) ∧
      g'.relationshipView keyProps = g.relationshipView keyProps := by
  induction specs generalizing g with
  | nil => exact ⟨g, rfl, (List.append_nil _).symm, rfl⟩
  | cons spec specs ih =>
    obtain ⟨hget, hkeyed⟩ := hrows spec List.mem_cons_self
    obtain ⟨hlabel, hlabels⟩ := List.nodup_cons.1 hlabels
    obtain ⟨g₁, hload, hnodes, hrels⟩ := loadRows_nodes (hspecs spec List.mem_cons_self) syncRunId
      hsize (hother spec List.mem_cons_self) hkeyed
    obtain ⟨g₂, hrest, hnodes', hrels'⟩ := ih (g := g₁)
      (fun s hs => hspecs s (List.mem_cons_of_mem _ hs)) hlabels
      (fun s hs => hrows s (List.mem_cons_of_mem _ hs)) (by
        intro s hs o ho
        rw [hnodes, List.mem_append] at ho
        rcases ho with ho | ho
        · exact hother s (List.mem_cons_of_mem _ hs) o ho
        · obtain ⟨row, -, rfl⟩ := List.mem_map.1 ho
          intro heq
          exact hlabel (List.mem_map.2 ⟨s, hs, heq.symm⟩))
    refine ⟨g₂, ?_, ?_, hrels'.trans hrels⟩
    · simp only [List.map_cons, loadSpecs, hget, hload, hrest, Option.bind_eq_bind,
        Option.bind_some]
      rfl
    · rw [hnodes', hnodes, List.append_assoc, List.flatMap_cons]

/-- The loop over the relationship specifications. -/
theorem loadSpecs_relationships {syncRunId : String} {batchSize : ℕ} (hsize : 0 < batchSize)
    {rels : Dict String (List Row)} {specs : List RelationshipSpec}
    (htypes : (specs.map RelationshipSpec.relType).Nodup) {g : Graph Value}
    (hrows : ∀ spec ∈ specs, rels.get? spec.relType = some (rowsOf rels spec.relType) ∧
      ∃ fromSpec toSpec source target key sets,
        spec.Coherent fromSpec toSpec source target key sets ∧
          Loadable syncRunId g spec fromSpec toSpec (rowsOf rels spec.relType))
    (hother : ∀ spec ∈ specs, ∀ o ∈ g.relationshipView keyProps, o.1 ≠ spec.relType) :
    ∃ g' created, loadSpecs syncRunId batchSize rels
        (specs.map fun spec => (spec.relType, spec.mergeCypher)) g =
        some (g', specs.map fun spec => (spec.relType, (rowsOf rels spec.relType).length)) ∧
      g'.nodeView keyProps = g.nodeView keyProps ∧
      g'.relationshipView keyProps = g.relationshipView keyProps ++ created ∧
      (∀ o ∈ created, o.1 ∈ specs.map RelationshipSpec.relType) ∧
      ∀ spec ∈ specs, ∃ fromSpec toSpec source target key sets,
        spec.Coherent fromSpec toSpec source target key sets ∧
          List.Forall₂ (StandsFor g spec fromSpec toSpec) (rowsOf rels spec.relType)
            (created.filter fun o => o.1 = spec.relType) := by
  induction specs generalizing g with
  | nil => exact ⟨g, [], rfl, rfl, (List.append_nil _).symm, by simp, by simp⟩
  | cons spec specs ih =>
    obtain ⟨hget, fromSpec, toSpec, source, target, key, sets, hcoherent, hload⟩ :=
      hrows spec List.mem_cons_self
    obtain ⟨htype, htypes⟩ := List.nodup_cons.1 htypes
    have hne : ∀ s ∈ specs, s.relType ≠ spec.relType :=
      fun s hs heq => htype (List.mem_map.2 ⟨s, hs, heq⟩)
    obtain ⟨g₁, created, hrun, hnodes, hrels, hall⟩ :=
      loadRows_relationships hcoherent hsize (hother spec List.mem_cons_self) hload
    have hcreated : ∀ o ∈ created, o.1 = spec.relType := by
      intro o ho
      obtain ⟨row, -, hstands⟩ := exists_of_forall₂ hall ho
      exact hstands.type
    have hrows₁ : ∀ s ∈ specs, rels.get? s.relType = some (rowsOf rels s.relType) ∧
        ∃ fromSpec toSpec source target key sets,
          s.Coherent fromSpec toSpec source target key sets ∧
            Loadable syncRunId g₁ s fromSpec toSpec (rowsOf rels s.relType) := by
      intro s hs
      obtain ⟨hget, fromSpec, toSpec, source, target, key, sets, hcoherent, hload⟩ :=
        hrows s (List.mem_cons_of_mem _ hs)
      exact ⟨hget, fromSpec, toSpec, source, target, key, sets, hcoherent,
        hload.of_view hnodes hcoherent.source.1 hcoherent.target.1⟩
    have hother₁ : ∀ s ∈ specs, ∀ o ∈ g₁.relationshipView keyProps, o.1 ≠ s.relType := by
      intro s hs o ho
      rw [hrels, List.mem_append] at ho
      rcases ho with ho | ho
      · exact hother s (List.mem_cons_of_mem _ hs) o ho
      · rw [hcreated o ho]
        exact (hne s hs).symm
    obtain ⟨g₂, created', hrest, hnodes', hrels', htypes', hall'⟩ := ih htypes hrows₁ hother₁
    refine ⟨g₂, created ++ created', ?_, hnodes'.trans hnodes, ?_, fun o ho => ?_, fun s hs => ?_⟩
    · simp only [List.map_cons, loadSpecs, hget, hrun, hrest, Option.bind_eq_bind,
        Option.bind_some]
      rfl
    · rw [hrels', hrels, List.append_assoc]
    · rcases List.mem_append.1 ho with ho | ho
      · rw [hcreated o ho]
        exact List.mem_cons_self
      · exact List.mem_cons_of_mem _ (htypes' o ho)
    · rw [List.filter_append]
      rcases List.mem_cons.1 hs with rfl | hs
      · have hfirst : created.filter (fun o => o.1 = s.relType) = created :=
          List.filter_eq_self.2 fun o ho => decide_eq_true (hcreated o ho)
        have hsecond : created'.filter (fun o => o.1 = s.relType) = [] := by
          refine List.filter_eq_nil_iff.2 fun o ho => ?_
          obtain ⟨s', hs', heq⟩ := List.mem_map.1 (htypes' o ho)
          simpa [← heq] using hne s' hs'
        rw [hfirst, hsecond, List.append_nil]
        exact ⟨fromSpec, toSpec, source, target, key, sets, hcoherent, hall⟩
      · have hfirst : created.filter (fun o => o.1 = s.relType) = [] := by
          refine List.filter_eq_nil_iff.2 fun o ho => ?_
          rw [hcreated o ho]
          simpa using (hne s hs).symm
        rw [hfirst, List.nil_append]
        obtain ⟨fromSpec, toSpec, source, target, key, sets, hcoherent, hall⟩ := hall' s hs
        exact ⟨fromSpec, toSpec, source, target, key, sets, hcoherent,
          hall.imp fun _ _ h => h.of_view hnodes.symm⟩

end Structured
