import Text2Cypher.Etl.LosslessLoad
import Text2Cypher.Etl.SyncRun
import Mathlib.Data.List.Flatten

/-!
# What the counts say about a load

Some of the batches of a load may have got lost without an error.  The rows have passed the
validation, so every batch that is executed creates an entity for each of its rows, and the counts
agree only if no batch is missing.

* **`lossless_of_countsAgree`**: where the counts agree, the load is complete and without loss.
-/

namespace Sync

open Structured PropertyGraph Checks

/-! ### Batches of one specification -/

theorem keyed_sublist {α : Type} {key : α → Value} {rows rows' : List α} (h : Keyed key rows)
    (hsub : rows'.Sublist rows) : Keyed key rows' :=
  ⟨fun row hrow => h.isKey row (hsub.subset hrow), fun row hrow => h.nonnull row (hsub.subset hrow),
    (hsub.map key).nodup h.distinct⟩

theorem loadable_sublist {syncRunId : String} {g : Graph Value} {spec : RelationshipSpec}
    {fromSpec toSpec : NodeSpec} {rows rows' : List Row}
    (h : Loadable syncRunId g spec fromSpec toSpec rows) (hsub : rows'.Sublist rows) :
    Loadable syncRunId g spec fromSpec toSpec rows' :=
  ⟨fun row hrow => h.source row (hsub.subset hrow), fun row hrow => h.target row (hsub.subset hrow),
    fun row hrow => h.isKey row (hsub.subset hrow), (hsub.map spec.mergeKey).nodup h.distinct⟩

/-- The writes are executed one after the other. -/
def runAll (syncRunId : String) (writes : List Write) (g : Graph Value) : Option (Graph Value) :=
  writes.foldlM (Write.run syncRunId) g

@[simp] theorem runAll_nil (syncRunId : String) (g : Graph Value) :
    runAll syncRunId [] g = some g := rfl

theorem runAll_cons_eq_some {syncRunId : String} {write : Write} {writes : List Write}
    {g g' : Graph Value} : runAll syncRunId (write :: writes) g = some g' ↔
      ∃ g₁, write.run syncRunId g = some g₁ ∧ runAll syncRunId writes g₁ = some g' := by
  rw [runAll, List.foldlM_cons, Option.bind_eq_bind, Option.bind_eq_some_iff]
  rfl

theorem runAll_append (syncRunId : String) (writes writes' : List Write) (g : Graph Value) :
    runAll syncRunId (writes ++ writes') g =
      (runAll syncRunId writes g).bind (runAll syncRunId writes') :=
  List.foldlM_append

theorem runAll_append_eq_some {syncRunId : String} {writes writes' : List Write}
    {g g' : Graph Value} : runAll syncRunId (writes ++ writes') g = some g' ↔
      ∃ g₁, runAll syncRunId writes g = some g₁ ∧ runAll syncRunId writes' g₁ = some g' := by
  rw [runAll_append, Option.bind_eq_some_iff]

theorem runAll_concat {syncRunId : String} {writes : List Write} {write : Write}
    {g g₁ g₂ : Graph Value} (h : runAll syncRunId writes g = some g₁)
    (hwrite : write.run syncRunId g₁ = some g₂) :
    runAll syncRunId (writes ++ [write]) g = some g₂ := by
  rw [runAll_append, h, Option.bind_some]
  exact runAll_cons_eq_some.2 ⟨g₂, hwrite, rfl⟩

theorem runAll_schema {syncRunId : String} {writes : List Write} (h : ∀ w ∈ writes, w = .schema)
    (g : Graph Value) : runAll syncRunId writes g = some g := by
  induction writes with
  | nil => rfl
  | cons w writes ih =>
    obtain rfl := h w List.mem_cons_self
    exact ih fun w hw => h w (List.mem_cons_of_mem _ hw)

/-- Some of the batches of a specification hold some of its rows. -/
theorem exists_rows_of_sublist {mergeCypher : List Clause} {rows : List Row} {kept : List Write}
    (h : kept.Sublist (batches mergeCypher rows)) :
    ∃ parts : List (List Row), kept = parts.map (.batch mergeCypher) ∧
      parts.flatten.Sublist rows := by
  obtain ⟨parts, hparts, rfl⟩ := List.sublist_map_iff.1 h
  refine ⟨parts, rfl, ?_⟩
  have hflatten := hparts.flatten
  rwa [flatten_chunkRows rows (by decide : 0 < batchSize)] at hflatten

/-- What every batch keeps, any batches keep. -/
theorem runAll_batches {syncRunId : String} {mergeCypher : List Clause}
    (holds : List Row → Graph Value → Prop) (ok : List Row → Prop)
    (hearlier : ∀ done batch, ok (done ++ batch) → ok done)
    (hbatch : ∀ done batch g, ok (done ++ batch) → holds done g →
      ∃ g', runBatch syncRunId mergeCypher g batch = some g' ∧ holds (done ++ batch) g')
    {parts : List (List Row)} (hok : ok parts.flatten) {g g' : Graph Value} (h : holds [] g)
    (hrun : runAll syncRunId (parts.map (.batch mergeCypher)) g = some g') :
    holds parts.flatten g' := by
  have hfrom : ∀ (parts : List (List Row)) (done : List Row) (g : Graph Value),
      ok (done ++ parts.flatten) → holds done g →
      runAll syncRunId (parts.map (.batch mergeCypher)) g = some g' →
      holds (done ++ parts.flatten) g' := by
    intro parts
    induction parts with
    | nil =>
      intro done g _ hdone hrun
      obtain rfl := Option.some.inj hrun
      rwa [List.flatten_nil, List.append_nil]
    | cons batch parts ih =>
      intro done g hok hdone hrun
      rw [List.flatten_cons, ← List.append_assoc] at hok ⊢
      obtain ⟨g₁, hfirst, hg₁⟩ := hbatch done batch g (hearlier _ _ hok) hdone
      rw [List.map_cons, runAll_cons_eq_some] at hrun
      obtain ⟨g₂, hsecond, hrun⟩ := hrun
      obtain rfl : g₁ = g₂ := Option.some.inj (hfirst.symm.trans hsecond)
      exact ih (done ++ batch) g₁ hok hg₁ hrun
  have hall := hfrom parts [] g
  rw [List.nil_append] at hall
  exact hall hok h hrun

/-! ### Nodes -/

/-- The nodes of any batches: one for each of their rows. -/
theorem nodeView_of_kept {syncRunId : String} {rows : NodeSpec → List Row} {specs : List NodeSpec}
    (hspecs : ∀ spec ∈ specs, spec ∈ nodeSpecs) (hlabels : (specs.map NodeSpec.label).Nodup)
    (hkeyed : ∀ spec ∈ specs, Keyed spec.key (rows spec)) {kept : List Write}
    (hsub : kept.Sublist (specs.flatMap fun spec => batches spec.mergeCypher (rows spec)))
    {g g' : Graph Value} (hother : ∀ spec ∈ specs, ∀ o ∈ g.nodeView keyProps, o.1 ≠ spec.label)
    (hrun : runAll syncRunId kept g = some g') :
    ∃ keptRows : NodeSpec → List Row, (∀ spec ∈ specs, (keptRows spec).Sublist (rows spec)) ∧
      g'.nodeView keyProps = g.nodeView keyProps ++
        specs.flatMap (fun spec => (keptRows spec).map (spec.outline syncRunId)) ∧
      g'.relationshipView keyProps = g.relationshipView keyProps := by
  induction specs generalizing g kept with
  | nil =>
    obtain rfl := List.sublist_nil.1 hsub
    obtain rfl := Option.some.inj hrun
    exact ⟨rows, by simp, (List.append_nil _).symm, rfl⟩
  | cons spec specs ih =>
    rw [List.flatMap_cons] at hsub
    obtain ⟨first, rest, rfl, hfirst, hrest⟩ := List.sublist_append_iff.1 hsub
    obtain ⟨g₁, hrun₁, hrun₂⟩ := runAll_append_eq_some.1 hrun
    obtain ⟨hlabel, hlabels⟩ := List.nodup_cons.1 hlabels
    obtain ⟨parts, rfl, hparts⟩ := exists_rows_of_sublist hfirst
    have hspec := hspecs spec List.mem_cons_self
    obtain ⟨hnodes, hrels⟩ := runAll_batches (fun done g₁ =>
      g₁.nodeView keyProps = g.nodeView keyProps ++ done.map (spec.outline syncRunId) ∧
        g₁.relationshipView keyProps = g.relationshipView keyProps) (Keyed spec.key)
      (fun _ _ h => h.append_left) (fun done batch g₁ hok hdone => by
        obtain ⟨g₂, hbatch, hnodes, hrels⟩ := runBatch_nodes hspec syncRunId hdone.1
          (hother spec List.mem_cons_self) hok
        exact ⟨g₂, hbatch, hnodes, hrels.trans hdone.2⟩)
      (keyed_sublist (hkeyed spec List.mem_cons_self) hparts)
      ⟨by rw [List.map_nil, List.append_nil], rfl⟩ hrun₁
    obtain ⟨keptRows, hkept, hnodes', hrels'⟩ := ih
      (fun s hs => hspecs s (List.mem_cons_of_mem _ hs)) hlabels
      (fun s hs => hkeyed s (List.mem_cons_of_mem _ hs)) hrest (fun s hs o ho => by
        rw [hnodes, List.mem_append] at ho
        rcases ho with ho | ho
        · exact hother s (List.mem_cons_of_mem _ hs) o ho
        · obtain ⟨row, -, rfl⟩ := List.mem_map.1 ho
          intro heq
          exact hlabel (List.mem_map.2 ⟨s, hs, heq.symm⟩)) hrun₂
    -- the later specifications have other labels
    have hne : ∀ s ∈ specs, s.label ≠ spec.label :=
      fun s hs heq => hlabel (List.mem_map.2 ⟨s, hs, heq⟩)
    obtain ⟨allRows, hself, hothers⟩ : ∃ allRows : NodeSpec → List Row,
        allRows spec = parts.flatten ∧ ∀ s ∈ specs, allRows s = keptRows s :=
      ⟨fun s => if s.label = spec.label then parts.flatten else keptRows s, if_pos rfl,
        fun s hs => if_neg (hne s hs)⟩
    refine ⟨allRows, ?_, ?_, hrels'.trans hrels⟩
    · rw [List.forall_mem_cons, hself]
      refine ⟨hparts, fun s hs => ?_⟩
      rw [hothers s hs]
      exact hkept s hs
    · rw [hnodes', hnodes, List.append_assoc, List.flatMap_cons, hself]
      refine congrArg (fun l => g.nodeView keyProps ++ (_ ++ l)) (List.flatMap_congr fun s hs => ?_)
      rw [hothers s hs]

/-! ### Relationships -/

/-- The relationships of any batches of one specification. -/
theorem relationshipView_of_batches {spec : RelationshipSpec} {fromSpec toSpec : NodeSpec}
    {source target : String} {key : Option (String × Expr)} {sets : List Clause}
    (hcoherent : spec.Coherent fromSpec toSpec source target key sets) {syncRunId : String}
    {g g' : Graph Value} {parts : List (List Row)}
    (hother : ∀ o ∈ g.relationshipView keyProps, o.1 ≠ spec.relType)
    (hload : Loadable syncRunId g spec fromSpec toSpec parts.flatten)
    (hrun : runAll syncRunId (parts.map (.batch spec.mergeCypher)) g = some g') :
    g'.nodeView keyProps = g.nodeView keyProps ∧ ∃ created,
      g'.relationshipView keyProps = g.relationshipView keyProps ++ created ∧
        List.Forall₂ (StandsFor g spec fromSpec toSpec) parts.flatten created := by
  refine runAll_batches (fun done g₁ => g₁.nodeView keyProps = g.nodeView keyProps ∧ ∃ created,
      g₁.relationshipView keyProps = g.relationshipView keyProps ++ created ∧
        List.Forall₂ (StandsFor g spec fromSpec toSpec) done created)
    (Loadable syncRunId g spec fromSpec toSpec) (fun _ _ h => h.append_left) ?_ hload
    ⟨rfl, [], (List.append_nil _).symm, .nil⟩ hrun
  rintro done batch g₁ hok ⟨hnodes, created, hrels, hall⟩
  obtain ⟨g₂, created', hbatch, hnodes', hrels', hall'⟩ := runBatch_relationships hcoherent hrels
    hother (hall.imp fun _ _ h => h.of_view hnodes)
    (hok.of_view hnodes hcoherent.source.1 hcoherent.target.1)
  exact ⟨g₂, hbatch, hnodes'.trans hnodes, created', hrels',
    hall'.imp fun _ _ h => h.of_view hnodes.symm⟩

/-- The relationships of any batches: one for each of their rows. -/
theorem relationshipView_of_kept {syncRunId : String} {rows : RelationshipSpec → List Row}
    {specs : List RelationshipSpec} (htypes : (specs.map RelationshipSpec.relType).Nodup)
    {g g' : Graph Value}
    (hrows : ∀ spec ∈ specs, ∃ fromSpec toSpec source target key sets,
      spec.Coherent fromSpec toSpec source target key sets ∧
        Loadable syncRunId g spec fromSpec toSpec (rows spec)) {kept : List Write}
    (hsub : kept.Sublist (specs.flatMap fun spec => batches spec.mergeCypher (rows spec)))
    (hother : ∀ spec ∈ specs, ∀ o ∈ g.relationshipView keyProps, o.1 ≠ spec.relType)
    (hrun : runAll syncRunId kept g = some g') :
    g'.nodeView keyProps = g.nodeView keyProps ∧ ∃ created,
      g'.relationshipView keyProps = g.relationshipView keyProps ++ created ∧
      (∀ o ∈ created, o.1 ∈ specs.map RelationshipSpec.relType) ∧
      ∀ spec ∈ specs, ∃ keptRows : List Row, keptRows.Sublist (rows spec) ∧
        ∃ fromSpec toSpec source target key sets,
          spec.Coherent fromSpec toSpec source target key sets ∧
            List.Forall₂ (StandsFor g spec fromSpec toSpec) keptRows
              (created.filter fun o => o.1 = spec.relType) := by
  induction specs generalizing g kept with
  | nil =>
    obtain rfl := List.sublist_nil.1 hsub
    obtain rfl := Option.some.inj hrun
    exact ⟨rfl, [], (List.append_nil _).symm, by simp, by simp⟩
  | cons spec specs ih =>
    rw [List.flatMap_cons] at hsub
    obtain ⟨first, rest, rfl, hfirst, hrest⟩ := List.sublist_append_iff.1 hsub
    obtain ⟨g₁, hrun₁, hrun₂⟩ := runAll_append_eq_some.1 hrun
    obtain ⟨htype, htypes⟩ := List.nodup_cons.1 htypes
    have hne : ∀ s ∈ specs, s.relType ≠ spec.relType :=
      fun s hs heq => htype (List.mem_map.2 ⟨s, hs, heq⟩)
    obtain ⟨parts, rfl, hparts⟩ := exists_rows_of_sublist hfirst
    obtain ⟨fromSpec, toSpec, source, target, key, sets, hcoherent, hload⟩ :=
      hrows spec List.mem_cons_self
    obtain ⟨hnodes, created, hrels, hall⟩ := relationshipView_of_batches hcoherent
      (hother spec List.mem_cons_self) (loadable_sublist hload hparts) hrun₁
    have hcreated : ∀ o ∈ created, o.1 = spec.relType := by
      intro o ho
      obtain ⟨row, -, hstands⟩ := exists_of_forall₂ hall ho
      exact hstands.type
    obtain ⟨hnodes', created', hrels', htypes', hall'⟩ := ih htypes (g := g₁) (fun s hs => by
        obtain ⟨fromSpec, toSpec, source, target, key, sets, hcoherent, hload⟩ :=
          hrows s (List.mem_cons_of_mem _ hs)
        exact ⟨fromSpec, toSpec, source, target, key, sets, hcoherent,
          hload.of_view hnodes hcoherent.source.1 hcoherent.target.1⟩) hrest (fun s hs o ho => by
        rw [hrels, List.mem_append] at ho
        rcases ho with ho | ho
        · exact hother s (List.mem_cons_of_mem _ hs) o ho
        · rw [hcreated o ho]
          exact (hne s hs).symm) hrun₂
    refine ⟨hnodes'.trans hnodes, created ++ created', ?_, fun o ho => ?_, fun s hs => ?_⟩
    · rw [hrels', hrels, List.append_assoc]
    · rcases List.mem_append.1 ho with ho | ho
      · rw [hcreated o ho]
        exact List.mem_cons_self
      · exact List.mem_cons_of_mem _ (htypes' o ho)
    · rw [List.filter_append]
      rcases List.mem_cons.1 hs with rfl | hs
      · have hmine : created.filter (fun o => o.1 = s.relType) = created :=
          List.filter_eq_self.2 fun o ho => decide_eq_true (hcreated o ho)
        have hnone : created'.filter (fun o => o.1 = s.relType) = [] := by
          refine List.filter_eq_nil_iff.2 fun o ho => ?_
          obtain ⟨s', hs', heq⟩ := List.mem_map.1 (htypes' o ho)
          simpa [← heq] using hne s' hs'
        rw [hmine, hnone, List.append_nil]
        exact ⟨_, hparts, fromSpec, toSpec, source, target, key, sets, hcoherent, hall⟩
      · have hnone : created.filter (fun o => o.1 = s.relType) = [] := by
          refine List.filter_eq_nil_iff.2 fun o ho => ?_
          simpa [hcreated o ho] using (hne s hs).symm
        rw [hnone, List.nil_append]
        obtain ⟨keptRows, hkept, fromSpec, toSpec, source, target, key, sets, hcoherent, hall⟩ :=
          hall' s hs
        exact ⟨keptRows, hkept, fromSpec, toSpec, source, target, key, sets, hcoherent,
          hall.imp fun _ _ h => h.of_view hnodes.symm⟩

/-! ### The counts -/

/-- The number of nodes with a label is read off the labels. -/
theorem length_filter_label (g : Graph Value) (label : String) :
    (g.nodes.filter fun n => n.label = label).length = g.labels.count label := by
  rw [Graph.labels, List.count_eq_countP, List.countP_map, List.countP_eq_length_filter]
  refine congrArg List.length (List.filter_congr fun n _ => ?_)
  exact (beq_eq_decide n.label label).symm

theorem labels_eq_map_nodeView (g : Graph Value) :
    g.labels = (g.nodeView keyProps).map Prod.fst := by
  rw [Graph.nodeView, List.map_map]
  rfl

theorem runAll_labels {syncRunId : String} {writes : List Write}
    (h : ∀ mergeCypher rows, Write.batch mergeCypher rows ∈ writes →
      ∀ clause ∈ mergeCypher, clause.mergesNode = false) {g g' : Graph Value}
    (hrun : runAll syncRunId writes g = some g') : g'.labels = g.labels := by
  induction writes generalizing g with
  | nil =>
    obtain rfl := Option.some.inj hrun
    rfl
  | cons write writes ih =>
    obtain ⟨g₁, hfirst, hrest⟩ := runAll_cons_eq_some.1 hrun
    refine (ih (fun m r hm => h m r (List.mem_cons_of_mem _ hm)) hrest).trans ?_
    cases write with
    | schema =>
      obtain rfl := Option.some.inj hfirst
      rfl
    | batch mergeCypher rows =>
      obtain ⟨next, hnext, rfl⟩ := Option.map_eq_some_iff.1 hfirst
      exact runQuery_labels (h mergeCypher rows List.mem_cons_self) hnext

theorem mergesNode_relationshipSpecs {spec : RelationshipSpec} (hspec : spec ∈ relationshipSpecs) :
    ∀ clause ∈ spec.mergeCypher, clause.mergesNode = false := by
  revert spec
  decide

/-- **Where the counts agree, the load is complete and without loss**, whichever of its batches have
been executed. -/
theorem lossless_of_countsAgree (run : Run) (hplain : KeysPlain run.nodes run.rels)
    (hvalid : validateBeforeWrite run.nodes run.rels = .ok []) {kept : List Write}
    (hsub : kept.Sublist run.queue) {g : Graph Value}
    (hrun : runAll run.syncRunId kept Graph.empty = some g)
    (hcounts : CountsAgree g run.expectedNodeCounts run.expectedRelCounts) :
    Lossless run.nodes run.rels g := by
  obtain ⟨schema, entities, rfl, hschema, hentities⟩ := List.sublist_append_iff.1 hsub
  obtain ⟨nodeWrites, relWrites, rfl, hnodeWrites, hrelWrites⟩ :=
    List.sublist_append_iff.1 hentities
  obtain ⟨g₀, hrun₀, hrun⟩ := runAll_append_eq_some.1 hrun
  obtain ⟨g₁, hrun₁, hrun₂⟩ := runAll_append_eq_some.1 hrun
  obtain rfl : Graph.empty = g₀ := by
    have hnone : runAll run.syncRunId schema .empty = some .empty :=
      runAll_schema (fun w hw => List.eq_of_mem_replicate (hschema.subset hw)) Graph.empty
    exact Option.some.inj (hnone.symm.trans hrun₀)
  have hkeyed : ∀ spec ∈ nodeSpecs, Keyed spec.key (run.nodeRows spec) :=
    fun spec hspec => (keyed_of_validated hvalid hplain hspec).2
  obtain ⟨keptRows, hkept, hnodes, hnone⟩ := nodeView_of_kept (fun _ h => h) (by decide) hkeyed
    hnodeWrites (fun _ _ o ho => by cases ho) hrun₁
  -- the relationships add no label
  have hlabels : g.labels = g₁.labels := by
    refine runAll_labels (fun mergeCypher rows hmem => ?_) hrun₂
    obtain ⟨spec, hspec, hbatch⟩ := List.mem_flatMap.1 (hrelWrites.subset hmem)
    obtain ⟨part, -, hpart⟩ := List.mem_map.1 hbatch
    obtain ⟨rfl, -⟩ := Write.batch.inj hpart
    exact mergesNode_relationshipSpecs hspec
  have hall : ∀ spec ∈ nodeSpecs, keptRows spec = run.nodeRows spec := by
    intro spec hspec
    apply (hkept spec hspec).eq_of_length
    have hcount : (g.nodes.filter fun n => n.label = spec.label).length =
        (run.nodeRows spec).length :=
      congrArg Prod.snd (List.map_inj_left.1 ((List.map_map ..).symm.trans hcounts.1) spec hspec)
    rw [← hcount, length_filter_label, hlabels, labels_eq_map_nodeView, hnodes,
      List.count_eq_countP, List.countP_map, List.countP_eq_length_filter]
    have hlabelsNodup : (nodeSpecs.map NodeSpec.label).Nodup := by decide
    have hfilter := filter_flatMap_specs Prod.fst hlabelsNodup
      (fun spec => (keptRows spec).map (spec.outline run.syncRunId)) (fun s o ho => by
        obtain ⟨row, -, rfl⟩ := List.mem_map.1 ho
        rfl) hspec
    rw [← List.length_map (f := spec.outline run.syncRunId), ← hfilter]
    refine congrArg List.length (List.filter_congr fun o _ => ?_)
    exact (beq_eq_decide o.1 spec.label).symm
  have hview : g₁.nodeView keyProps = nodeSpecs.flatMap fun spec =>
      (rowsOf run.nodes spec.label).map (spec.outline run.syncRunId) := by
    rw [hnodes]
    refine List.flatMap_congr fun spec hspec => ?_
    rw [hall spec hspec]
    rfl
  have hrows : ∀ spec ∈ relationshipSpecs, ∃ fromSpec toSpec source target key sets,
      spec.Coherent fromSpec toSpec source target key sets ∧
        Loadable run.syncRunId g₁ spec fromSpec toSpec (run.relRows spec) := by
    intro spec hspec
    obtain ⟨fromSpec, toSpec, source, target, key, sets, hcoherent⟩ := coherent_relationships hspec
    obtain ⟨-, hloadable, -⟩ := loadable_of_validated hvalid hplain hview hspec hcoherent
    exact ⟨fromSpec, toSpec, source, target, key, sets, hcoherent, hloadable⟩
  obtain ⟨hnodes', created, hcreated, -, hrels⟩ := relationshipView_of_kept (by decide) hrows
    hrelWrites (fun _ _ o ho => by
      rw [hnone] at ho
      cases ho) hrun₂
  obtain rfl : g.relationshipView keyProps = created := by
    rw [hcreated, hnone]
    rfl
  have hview' := hnodes'.trans hview
  refine ⟨fun spec hspec => lossless_nodes hview' hkeyed hspec, fun spec hspec => ?_⟩
  obtain ⟨keptRows, hkept, fromSpec, toSpec, source, target, key, sets, hcoherent, hstands⟩ :=
    hrels spec hspec
  have hcount : (g.relationships.filter fun r => r.type = spec.relType).length =
      (run.relRows spec).length :=
    congrArg Prod.snd (List.map_inj_left.1 ((List.map_map ..).symm.trans hcounts.2) spec hspec)
  obtain rfl : keptRows = run.relRows spec := by
    apply hkept.eq_of_length
    rw [← hcount, hstands.length_eq, Graph.relationshipView, List.filter_map, List.length_map]
    rfl
  obtain ⟨-, -, hcolumns⟩ := loadable_of_validated hvalid hplain hview hspec hcoherent
  exact lossless_relationships hcoherent hcolumns (hstands.imp fun _ _ h => h.of_view hnodes')

end Sync
