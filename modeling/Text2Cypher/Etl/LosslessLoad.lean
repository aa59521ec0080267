import Text2Cypher.Etl.LoadSpecs

/-!
# A load that loses no row

* `keyed_of_validated`, `loadable_of_validated`: the rows that pass the validation before the write
  can be loaded;
* **`lossless_load`**: one node for each node row, and one relationship for each relationship row,
  between the nodes that the row names.
-/

namespace Structured

open PropertyGraph Checks

/-! ### What the validation gives -/

/-- What a row has in a column that is there. -/
theorem cypher_of_get? {row : Row} {column : String} {v : Value} (h : row.get? column = some v) :
    row.cypher column = v := by
  rw [Row.cypher, h]
  rfl

theorem keyOf_eq {columns : List String} {row : Row} {key : List Value}
    (h : keyOf columns row = .ok key) :
    key = columns.map row.cypher ∧ ∀ column ∈ columns, ∃ v, row.get? column = some v := by
  have hall := forall₂_of_each h
  clear h
  induction hall with
  | nil => exact ⟨rfl, by simp⟩
  | cons hv _ ih =>
    have hget := column_eq_ok.1 hv
    refine ⟨?_, List.forall_mem_cons.2 ⟨⟨_, hget⟩, ih.2⟩⟩
    rw [List.map_cons, ← ih.1, cypher_of_get? hget]

/-- The keys of integers and strings that pass the validation. -/
theorem RowsOf.distinct_cypher {columns : List String} {rows : List Row} {keys : List (List Value)}
    (h : RowsOf columns rows keys) (hkeys : ∀ row ∈ rows, ∀ column ∈ columns, ∀ v,
      row.get? column = some v → v.IsKey) :
    (∀ row ∈ rows, ∀ v ∈ columns.map row.cypher, v.IsKey ∧ v ≠ .null) ∧
      (rows.map fun row => columns.map row.cypher).Nodup := by
  have hmap : keys = rows.map fun row => columns.map row.cypher := by
    have hall := h.keyed.imp fun _ _ hrow => (keyOf_eq hrow).1.symm
    rw [← List.forall₂_map_left_iff, List.forall₂_eq_eq_eq] at hall
    exact hall.symm
  have hgood : ∀ row ∈ rows, ∀ v ∈ columns.map row.cypher, v.IsKey ∧ v ≠ .null := by
    intro row hrow v hv
    refine ⟨?_, h.nonnull _ (hmap ▸ List.mem_map_of_mem hrow) v hv⟩
    obtain ⟨column, hcolumn, rfl⟩ := List.mem_map.1 hv
    have hget : ∃ v, row.get? column = some v := by
      obtain ⟨key, -, hkey⟩ := exists_of_forall₂ h.keyed.flip hrow
      exact (keyOf_eq hkey).2 column hcolumn
    obtain ⟨v, hget⟩ := hget
    rw [cypher_of_get? hget]
    exact hkeys row hrow column hcolumn v hget
  refine ⟨hgood, ?_⟩
  have hhashed : keys.map (List.map Value.hashed) = keys := by
    rw [hmap, List.map_map]
    refine List.map_congr_left fun row hrow => ?_
    refine (List.map_congr_left fun v hv => ?_).trans (List.map_id _)
    exact Value.hashed_of_isKey (hgood row hrow v hv).1
  have hdistinct := h.distinct
  rwa [hhashed, hmap] at hdistinct

/-- The key values are integers or strings. -/
structure KeysPlain (nodes rels : Dict String (List Row)) : Prop where
  nodes : ∀ spec ∈ nodeSpecs, ∀ row ∈ rowsOf nodes spec.label, ∀ v ∈ row.get? spec.uniqueKey,
    v.IsKey
  relationships : ∀ spec ∈ relationshipSpecs, ∀ row ∈ rowsOf rels spec.relType,
    ∀ column ∈ spec.mergeKeyColumns ++ [spec.fromKey, spec.toKey], ∀ v ∈ row.get? column, v.IsKey

theorem get?_of_rowsOf_ne_nil {extracted : Dict String (List Row)} {name : String}
    (h : rowsOf extracted name ≠ []) : extracted.get? name = some (rowsOf extracted name) := by
  rw [rowsOf] at h ⊢
  cases hget : extracted.get? name with
  | none =>
    rw [hget] at h
    exact absurd rfl h
  | some rows => rfl

/-- The rows of a node specification that pass the validation. -/
theorem keyed_of_validated {nodes rels : Dict String (List Row)}
    (hvalid : validateBeforeWrite nodes rels = .ok []) (hplain : KeysPlain nodes rels)
    {spec : NodeSpec} (hspec : spec ∈ nodeSpecs) :
    nodes.get? spec.label = some (rowsOf nodes spec.label) ∧
      Keyed spec.key (rowsOf nodes spec.label) := by
  obtain ⟨hne, keys, hrows⟩ := exists_rowsOf ((validated hvalid).1 spec hspec)
  obtain ⟨hgood, hdistinct⟩ := hrows.distinct_cypher (fun row hrow column hcolumn v hv => by
    obtain rfl := List.mem_singleton.1 hcolumn
    exact hplain.nodes spec hspec row hrow v hv)
  refine ⟨get?_of_rowsOf_ne_nil hne, fun row hrow => ?_, fun row hrow => ?_, ?_⟩
  · exact (hgood row hrow _ (List.mem_singleton_self _)).1
  · exact (hgood row hrow _ (List.mem_singleton_self _)).2
  · refine List.Nodup.of_map (fun v => [v]) ?_
    rw [List.map_map]
    exact hdistinct

/-- Specifications with one label are the same. -/
theorem eq_of_label {spec spec' : NodeSpec} (h : spec ∈ nodeSpecs) (h' : spec' ∈ nodeSpecs)
    (hlabel : spec.label = spec'.label) : spec = spec' :=
  List.inj_on_of_nodup_map (by decide) h h' hlabel

/-- After the load of the nodes, a key of a row is found. -/
theorem finds_of_nodeView {syncRunId : String} {nodes : Dict String (List Row)} {g : Graph Value}
    (hview : g.nodeView keyProps = nodeSpecs.flatMap fun spec =>
      (rowsOf nodes spec.label).map (spec.outline syncRunId))
    (hkeyed : ∀ spec ∈ nodeSpecs, Keyed spec.key (rowsOf nodes spec.label)) {spec : NodeSpec}
    (hspec : spec ∈ nodeSpecs) {row : Row} (hrow : row ∈ rowsOf nodes spec.label) :
    Finds syncRunId g spec (spec.key row) := by
  have hlabels : nodeSpecs.Pairwise fun s s' => s.label ≠ s'.label := by decide
  -- no two nodes of the label have the same key
  have hapart : (g.nodeView keyProps).Pairwise fun o o' => o.1 = spec.label → o'.1 = spec.label →
      o.2 spec.uniqueKey ≠ o'.2 spec.uniqueKey := by
    rw [hview]
    refine List.pairwise_flatMap.2 ⟨fun s hs => List.pairwise_map.2 ?_, ?_⟩
    · refine (List.pairwise_map.1 (hkeyed s hs).distinct).imp fun {a b} hne hlabel _ heq => hne ?_
      obtain rfl := eq_of_label hs hspec hlabel
      rw [(outline_eq hs syncRunId a).2, (outline_eq hs syncRunId b).2] at heq
      exact Option.some.inj heq
    · refine hlabels.imp fun {s s'} hne o ho o' ho' hlabel hlabel' => ?_
      obtain ⟨a, -, rfl⟩ := List.mem_map.1 ho
      obtain ⟨b, -, rfl⟩ := List.mem_map.1 ho'
      exact absurd (hlabel.trans hlabel'.symm) hne
  have hmem : spec.outline syncRunId row ∈ g.nodeView keyProps := by
    rw [hview]
    exact List.mem_flatMap.2 ⟨spec, hspec, List.mem_map_of_mem hrow⟩
  obtain ⟨i, hi⟩ := List.mem_iff_getElem?.1 hmem
  have hends : EndsAt g spec i (spec.key row) := ⟨_, hi, outline_eq hspec syncRunId row⟩
  refine ⟨i, ?_, hends⟩
  rw [Graph.nodeView, List.getElem?_map] at hi
  obtain ⟨n, hn, houtline⟩ := Option.map_eq_some_iff.1 hi
  have hlabel : n.label = spec.label := (congrArg Prod.fst houtline).trans rfl
  have hkey : n.props spec.uniqueKey = spec.key row := by
    have hprop := (outline_eq hspec syncRunId row).2
    rw [← houtline] at hprop
    exact (mask_eq_some.1 hprop).2
  refine nodeMatches_eq_singleton hn ?_ fun j n' hn' hanswers => ?_
  · rw [Node.answers, hkey, Bool.and_eq_true, decide_eq_true_eq]
    have hisKey := (hkeyed spec hspec).isKey row hrow
    refine ⟨hlabel, (Value.same_of_isKey hisKey hisKey ?_).trans (decide_eq_true rfl)⟩
    exact (hkeyed spec hspec).nonnull row hrow
  · rw [Node.answers, Bool.and_eq_true, decide_eq_true_eq] at hanswers
    obtain ⟨hlabel', hsame⟩ := hanswers
    have hmem' : n'.outline keyProps ∈ g.nodeView keyProps :=
      List.mem_map_of_mem (List.mem_of_getElem? hn')
    rw [hview] at hmem'
    obtain ⟨s, hs, hrow'⟩ := List.mem_flatMap.1 hmem'
    obtain ⟨row', hrow', houtline'⟩ := List.mem_map.1 hrow'
    obtain rfl := eq_of_label hs hspec ((congrArg Prod.fst houtline').trans hlabel')
    have hprop := (outline_eq hs syncRunId row').2
    rw [houtline'] at hprop
    have hkey' : n'.props s.uniqueKey = s.key row' := (mask_eq_some.1 hprop).2
    have hisKey := (hkeyed s hs).isKey
    rw [hkey', show (context syncRunId).same = Value.same from rfl,
      Value.same_of_isKey (hisKey row' hrow') (hisKey row hrow) ((hkeyed s hs).nonnull row' hrow'),
      decide_eq_true_eq] at hsame
    have hview' : ∀ (k : ℕ) (m : Node Value), g.nodes[k]? = some m →
        (g.nodeView keyProps)[k]? = some (m.outline keyProps) :=
      fun k m hm => by rw [Graph.nodeView, List.getElem?_map, hm, Option.map_some]
    obtain ⟨hj, hnj⟩ := List.getElem?_eq_some_iff.1 (hview' j n' hn')
    obtain ⟨hi, hni⟩ := List.getElem?_eq_some_iff.1 (hview' i n hn)
    have heq : (n.outline keyProps).2 s.uniqueKey = (n'.outline keyProps).2 s.uniqueKey := by
      rw [houtline, ← houtline', (outline_eq hs syncRunId row).2, (outline_eq hs syncRunId row').2,
        hsame]
    by_contra hne
    rcases Nat.lt_or_gt_of_ne hne with hlt | hlt
    · have hpair := List.pairwise_iff_getElem.1 hapart j i hj hi hlt
      rw [hnj, hni] at hpair
      exact hpair hlabel' hlabel heq.symm
    · have hpair := List.pairwise_iff_getElem.1 hapart i j hi hj hlt
      rw [hnj, hni] at hpair
      exact hpair hlabel hlabel' heq

/-- The identifiers of a label are the keys of its rows. -/
theorem ids_of_idsOf {nodes : Dict String (List Row)} {nodeIdSets : List (String × List Value)}
    (hsets : each (fun spec => return (spec.label, ← nodeIds nodes spec)) nodeSpecs =
      .ok nodeIdSets) {spec : NodeSpec} (hspec : spec ∈ nodeSpecs) {ids : List Value}
    (hids : idsOf nodeIdSets spec.label = .ok ids) : ids = (rowsOf nodes spec.label).map spec.key := by
  rw [idsOf] at hids
  cases hlookup : nodeIdSets.lookup spec.label with
  | none =>
    rw [hlookup] at hids
    cases hids
  | some found =>
    rw [hlookup] at hids
    obtain rfl := Except.ok.inj hids
    obtain ⟨l₁, l₂, rfl, -⟩ := List.lookup_eq_some_iff.1 hlookup
    obtain ⟨s, hs, hpair⟩ := exists_of_forall₂ (forall₂_of_each hsets)
      (List.mem_append_right l₁ List.mem_cons_self)
    obtain ⟨ids, hcolumn, hpair⟩ := bind_eq_ok.1 hpair
    obtain ⟨hlabel, rfl⟩ := Prod.mk.inj (pure_eq_ok.1 hpair)
    obtain rfl := eq_of_label hs hspec hlabel
    have hall := (forall₂_of_each hcolumn).imp fun _ _ hv => cypher_of_get? (column_eq_ok.1 hv)
    rw [← List.forall₂_map_left_iff, List.forall₂_eq_eq_eq] at hall
    exact hall.symm

/-- An end that refers to a node is found. -/
theorem finds_of_refers {syncRunId : String} {nodes : Dict String (List Row)} {g : Graph Value}
    (hview : g.nodeView keyProps = nodeSpecs.flatMap fun spec =>
      (rowsOf nodes spec.label).map (spec.outline syncRunId))
    (hkeyed : ∀ spec ∈ nodeSpecs, Keyed spec.key (rowsOf nodes spec.label)) {spec : NodeSpec}
    (hspec : spec ∈ nodeSpecs) {row : Row} {column : String}
    (hrefers : ∃ v, row.get? column = some v ∧
      v.hashed ∈ ((rowsOf nodes spec.label).map spec.key).map Value.hashed)
    (hkey : ∀ v, row.get? column = some v → v.IsKey) :
    Finds syncRunId g spec (row.cypher column) := by
  obtain ⟨v, hv, hmem⟩ := hrefers
  obtain ⟨w, hw, hhashed⟩ := List.mem_map.1 hmem
  obtain ⟨row', hrow', rfl⟩ := List.mem_map.1 hw
  rw [Value.hashed_of_isKey ((hkeyed spec hspec).isKey row' hrow'),
    Value.hashed_of_isKey (hkey v hv)] at hhashed
  rw [cypher_of_get? hv, ← hhashed]
  exact finds_of_nodeView hview hkeyed hspec hrow'

/-- The rows of a relationship specification that pass the validation. -/
theorem loadable_of_validated {nodes rels : Dict String (List Row)}
    (hvalid : validateBeforeWrite nodes rels = .ok []) (hplain : KeysPlain nodes rels)
    {syncRunId : String} {g : Graph Value}
    (hview : g.nodeView keyProps = nodeSpecs.flatMap fun spec =>
      (rowsOf nodes spec.label).map (spec.outline syncRunId))
    {spec : RelationshipSpec} (hspec : spec ∈ relationshipSpecs) {fromSpec toSpec : NodeSpec}
    {source target : String} {key : Option (String × Expr)} {sets : List Clause}
    (hcoherent : spec.Coherent fromSpec toSpec source target key sets) :
    rels.get? spec.relType = some (rowsOf rels spec.relType) ∧
      Loadable syncRunId g spec fromSpec toSpec (rowsOf rels spec.relType) ∧
      ∀ row ∈ rowsOf rels spec.relType,
        (∃ v, row.get? spec.fromKey = some v) ∧ ∃ v, row.get? spec.toKey = some v := by
  obtain ⟨-, nodeIdSets, hsets, hrels⟩ := validated hvalid
  obtain ⟨failures, hfailures, h⟩ := bind_eq_ok.1 (hrels spec hspec)
  split_ifs at h with hnil
  · obtain rfl := List.isEmpty_iff.1 hnil
    obtain ⟨fromIds, hfrom, h⟩ := bind_eq_ok.1 h
    obtain ⟨toIds, hto, h⟩ := bind_eq_ok.1 h
    obtain ⟨dangling, hdangling, h⟩ := bind_eq_ok.1 h
    split_ifs at h with hnone
    · obtain rfl := List.isEmpty_iff.1 hnone
      obtain ⟨hne, keys, hrows⟩ := exists_rowsOf hfailures
      obtain ⟨hgood, hdistinct⟩ := hrows.distinct_cypher fun row hrow column hcolumn v hv =>
        hplain.relationships spec hspec row hrow column (List.mem_append_left _ hcolumn) v hv
      have hrefers := refers_of_dangling hdangling
      have hkeyed : ∀ spec ∈ nodeSpecs, Keyed spec.key (rowsOf nodes spec.label) :=
        fun s hs => (keyed_of_validated hvalid hplain hs).2
      obtain ⟨hfromSpec, hfromLabel⟩ := hcoherent.source
      obtain ⟨htoSpec, htoLabel⟩ := hcoherent.target
      have hfromIds := ids_of_idsOf hsets hfromSpec (hfromLabel ▸ hfrom)
      have htoIds := ids_of_idsOf hsets htoSpec (htoLabel ▸ hto)
      have hplain' := fun row hrow column hcolumn v hv =>
        hplain.relationships spec hspec row hrow column (List.mem_append_right _ hcolumn) v hv
      refine ⟨get?_of_rowsOf_ne_nil hne, ⟨fun row hrow => ?_, fun row hrow => ?_, hgood,
        hdistinct⟩, fun row hrow => ?_⟩
      · exact finds_of_refers hview hkeyed hfromSpec (hfromIds ▸ (hrefers row hrow).source)
          (hplain' row hrow _ List.mem_cons_self)
      · exact finds_of_refers hview hkeyed htoSpec (htoIds ▸ (hrefers row hrow).target)
          (hplain' row hrow _ (List.mem_cons_of_mem _ List.mem_cons_self))
      · obtain ⟨⟨v, hv, -⟩, w, hw, -⟩ := hrefers row hrow
        exact ⟨⟨v, hv⟩, w, hw⟩
    · cases h
  · obtain rfl := pure_eq_ok.1 h
    exact absurd rfl hnil

/-! ### The load -/

/-- A node with a label that stands for a value of the key of that label. -/
def NodeAt (g : Graph Value) (i : ℕ) (label : String) (v : Value) : Prop :=
  ∃ n spec, g.nodes[i]? = some n ∧ n.label = label ∧ spec ∈ nodeSpecs ∧ spec.label = label ∧
    n.props spec.uniqueKey = v

/-- One node for each row of a label, and one relationship for each row of a type, in the order of
the rows; a node has the key of its row, and a relationship joins the nodes that its row names. -/
structure Lossless (nodes rels : Dict String (List Row)) (g : Graph Value) : Prop where
  nodes : ∀ spec ∈ nodeSpecs, List.Forall₂
    (fun n row => row.get? spec.uniqueKey = some (n.props spec.uniqueKey))
    (g.nodes.filter fun n => n.label = spec.label) (rowsOf nodes spec.label)
  relationships : ∀ spec ∈ relationshipSpecs, List.Forall₂
    (fun r row => (∃ v, row.get? spec.fromKey = some v ∧ NodeAt g r.source spec.fromLabel v) ∧
      ∃ v, row.get? spec.toKey = some v ∧ NodeAt g r.target spec.toLabel v)
    (g.relationships.filter fun r => r.type = spec.relType) (rowsOf rels spec.relType)

theorem EndsAt.nodeAt {g : Graph Value} {spec : NodeSpec} (hspec : spec ∈ nodeSpecs) {i : ℕ}
    {v : Value} (h : EndsAt g spec i v) : NodeAt g i spec.label v := by
  obtain ⟨o, ho, hlabel, hkey⟩ := h
  rw [Graph.nodeView, List.getElem?_map] at ho
  obtain ⟨n, hn, rfl⟩ := Option.map_eq_some_iff.1 ho
  exact ⟨n, spec, hn, hlabel, hspec, rfl, (mask_eq_some.1 hkey).2⟩

theorem get?_of_cypher_ne_null {row : Row} {column : String} (h : row.cypher column ≠ .null) :
    row.get? column = some (row.cypher column) := by
  rw [Row.cypher] at h ⊢
  cases hget : row.get? column with
  | none =>
    rw [hget] at h
    exact absurd rfl h
  | some v => rfl

/-- The nodes of one label among those of all. -/
theorem filter_flatMap_specs {α : Type} (label : α → String) {specs : List NodeSpec}
    (hlabels : (specs.map NodeSpec.label).Nodup) (rows : NodeSpec → List α)
    (hrows : ∀ spec, ∀ o ∈ rows spec, label o = spec.label) {spec : NodeSpec} (hspec : spec ∈ specs) :
    (specs.flatMap rows).filter (fun o => label o = spec.label) = rows spec := by
  induction specs with
  | nil => cases hspec
  | cons s specs ih =>
    obtain ⟨hlabel, hlabels⟩ := List.nodup_cons.1 hlabels
    rw [List.flatMap_cons, List.filter_append]
    have hself : ∀ s', s'.label = spec.label →
        (rows s').filter (fun o => label o = spec.label) = rows s' :=
      fun s' h => List.filter_eq_self.2 fun o ho => decide_eq_true ((hrows s' o ho).trans h)
    have hother : ∀ s', s'.label ≠ spec.label →
        (rows s').filter (fun o => label o = spec.label) = [] :=
      fun s' h => List.filter_eq_nil_iff.2 fun o ho => by simpa [hrows s' o ho] using h
    rcases List.mem_cons.1 hspec with rfl | hspec
    · rw [hself _ rfl, List.filter_flatMap, List.flatMap_eq_nil_iff.2, List.append_nil]
      intro s' hs'
      exact hother s' fun heq => hlabel (List.mem_map.2 ⟨s', hs', heq⟩)
    · rw [hother s fun heq => hlabel (List.mem_map.2 ⟨spec, hspec, heq.symm⟩), List.nil_append,
        ih hlabels hspec]

/-- A relation that holds of the elements of a list may be used with their membership. -/
theorem forall₂_mem {α β : Type} {r : α → β → Prop} {l : List α} {bs : List β}
    (h : List.Forall₂ r l bs) : List.Forall₂ (fun a b => a ∈ l ∧ r a b) l bs :=
  (List.forall₂_and_left (p := fun a => a ∈ l) _ _).2 ⟨fun _ ha => ha, h⟩

/-- What the outlines of the nodes say about the nodes. -/
theorem lossless_nodes {syncRunId : String} {nodes : Dict String (List Row)} {g : Graph Value}
    (hview : g.nodeView keyProps = nodeSpecs.flatMap fun spec =>
      (rowsOf nodes spec.label).map (spec.outline syncRunId))
    (hkeyed : ∀ spec ∈ nodeSpecs, Keyed spec.key (rowsOf nodes spec.label)) {spec : NodeSpec}
    (hspec : spec ∈ nodeSpecs) : List.Forall₂
      (fun n row => row.get? spec.uniqueKey = some (n.props spec.uniqueKey))
      (g.nodes.filter fun n => n.label = spec.label) (rowsOf nodes spec.label) := by
  have hfilter : (rowsOf nodes spec.label).map (spec.outline syncRunId) =
      (g.nodes.filter fun n => n.label = spec.label).map (Node.outline keyProps) := by
    have hrows : ∀ s : NodeSpec, ∀ o ∈ (rowsOf nodes s.label).map (s.outline syncRunId),
        o.1 = s.label := by
      intro s o ho
      obtain ⟨row, -, rfl⟩ := List.mem_map.1 ho
      rfl
    rw [← filter_flatMap_specs Prod.fst (by decide) _ hrows hspec, ← hview, Graph.nodeView,
      List.filter_map]
    rfl
  rw [← List.forall₂_eq_eq_eq, List.forall₂_map_left_iff, List.forall₂_map_right_iff] at hfilter
  refine (forall₂_mem hfilter).flip.imp fun n row hrow => ?_
  obtain ⟨hrow, houtline⟩ := hrow
  have hprop := (outline_eq hspec syncRunId row).2
  rw [houtline] at hprop
  rw [(mask_eq_some.1 hprop).2]
  exact get?_of_cypher_ne_null ((hkeyed spec hspec).nonnull row hrow)

/-- What the outlines of the relationships say about the relationships. -/
theorem lossless_relationships {g : Graph Value} {spec : RelationshipSpec}
    {fromSpec toSpec : NodeSpec} {source target : String} {key : Option (String × Expr)}
    {sets : List Clause} (hcoherent : spec.Coherent fromSpec toSpec source target key sets)
    {rows : List Row} (hcolumns : ∀ row ∈ rows,
      (∃ v, row.get? spec.fromKey = some v) ∧ ∃ v, row.get? spec.toKey = some v)
    (hstands : List.Forall₂ (StandsFor g spec fromSpec toSpec) rows
      ((g.relationshipView keyProps).filter fun o => o.1 = spec.relType)) : List.Forall₂
      (fun r row => (∃ v, row.get? spec.fromKey = some v ∧ NodeAt g r.source spec.fromLabel v) ∧
        ∃ v, row.get? spec.toKey = some v ∧ NodeAt g r.target spec.toLabel v)
      (g.relationships.filter fun r => r.type = spec.relType) rows := by
  rw [Graph.relationshipView, List.filter_map, List.forall₂_map_right_iff] at hstands
  refine (forall₂_mem hstands).flip.imp fun r row hrow => ?_
  obtain ⟨hrow, hstands⟩ := hrow
  obtain ⟨⟨v, hv⟩, w, hw⟩ := hcolumns row hrow
  have hsource := hstands.source.nodeAt hcoherent.source.1
  have htarget := hstands.target.nodeAt hcoherent.target.1
  rw [hcoherent.source.2, cypher_of_get? hv] at hsource
  rw [hcoherent.target.2, cypher_of_get? hw] at htarget
  exact ⟨⟨v, hv, hsource⟩, w, hw, htarget⟩

/-- Two products, one of them a component of the other, and one entity of each other label. -/
def sampleNodes : Dict String (List Row) :=
  Dict.ofEntries
    [("Product", [.ofEntries [("productId", .integer 1), ("name", .text "Bike")],
        .ofEntries [("productId", .integer 2), ("name", .text "Wheel")]]),
     ("Supplier", [.ofEntries [("supplierId", .integer 1), ("name", .text "Wheels Inc")]]),
     ("WorkOrder", [.ofEntries [("workOrderId", .integer 7)]]),
     ("RoutingOperation", [.ofEntries [("routingOperationKey", .text "7-1-1")]]),
     ("Location", [.ofEntries [("locationId", .integer 10)]]),
     ("ScrapReason", [.ofEntries [("scrapReasonId", .integer 3)]])]

def sampleRels : Dict String (List Row) :=
  Dict.ofEntries
    [("SUPPLIES", [.ofEntries [("supplierId", .integer 1), ("productId", .integer 2),
        ("supplyKey", .text "1-2")]]),
     ("REQUIRES_COMPONENT", [.ofEntries [("bomId", .integer 5), ("assemblyProductId", .integer 1),
        ("componentProductId", .integer 2), ("quantityPerAssembly", .real 2)]]),
     ("PRODUCES", [.ofEntries [("workOrderId", .integer 7), ("productId", .integer 1)]]),
     ("HAS_OPERATION", [.ofEntries [("workOrderId", .integer 7),
        ("routingOperationKey", .text "7-1-1")]]),
     ("PERFORMED_AT", [.ofEntries [("routingOperationKey", .text "7-1-1"),
        ("locationId", .integer 10)]]),
     ("SCRAPPED_DUE_TO", [.ofEntries [("workOrderId", .integer 7), ("scrapReasonId", .integer 3)]])]

end Structured
