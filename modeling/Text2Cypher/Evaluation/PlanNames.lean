import Mathlib.Data.List.Dedup
import Text2Cypher.Evaluation.Contracts
import Text2Cypher.Planning.Agreement

/-!
# Names of subqueries in the score of a plan

The score of a plan is meant not to depend on the names of its subqueries.  The matching of names
looks for the ID of a step before its tool, and does not ask whether the ID is taken: a plan whose
names cross those of the contract is matched wrongly.

* `idMapping_entries`: without crossing names the steps are matched by their tools;
* `sameScore_of_uncrossed`: so a renaming between plans without crossing names keeps the score.
-/

namespace PlanScoring

open Planning

/-- A consistent renaming of IDs. -/
structure IdRenaming where
  name : String → String
  injective : Function.Injective name
  safe : ∀ id, isSafeIdentifier id = true → isSafeIdentifier (name id) = true

/-- The source of a binding after a renaming. -/
def renameSource (ρ : IdRenaming) (source : String) : String :=
  match splitDot source with
  | some (sourceId, output) => ρ.name sourceId ++ "." ++ output
  | none => source

def renameStep (ρ : IdRenaming) (item : Subquery) : Subquery :=
  { item with
    id := ρ.name item.id
    dependsOn := item.dependsOn.map ρ.name
    inputBindings := item.inputBindings.mapValues (renameSource ρ) }

def renamePlan (ρ : IdRenaming) (plan : List Subquery) : List Subquery := plan.map (renameStep ρ)

/-- The step of the plan for a tool. -/
def toolStep? (plan : List Subquery) (tool : ToolName) : Option Subquery :=
  plan.find? (·.tool = tool)

/-- No step of the plan has the ID of a contract step for another tool. -/
def Uncrossed (contract : EvaluationContract) (plan : List Subquery) : Prop :=
  ∀ expected ∈ contract.subqueries, ∀ item ∈ plan, item.id = expected.id →
    item.tool = expected.tool

/-- The steps of the plan have different IDs and different tools. -/
structure Distinct (plan : List Subquery) : Prop where
  ids : (plan.map Subquery.id).Nodup
  tools : (plan.map Subquery.tool).Nodup

theorem Generated.distinct {plan : List Subquery} (h : Generated plan) : Distinct plan := by
  rcases h with rfl | ⟨h, -⟩
  · exact ⟨List.nodup_nil, List.nodup_nil⟩
  · exact ⟨h.ids, h.tools⟩

theorem Distinct.rename {plan : List Subquery} (h : Distinct plan) (ρ : IdRenaming) :
    Distinct (renamePlan ρ plan) := by
  constructor
  · have hids : (renamePlan ρ plan).map Subquery.id = (plan.map Subquery.id).map ρ.name := by
      rw [renamePlan, List.map_map, List.map_map]
      rfl
    rw [hids]
    exact h.ids.map ρ.injective
  · have htools : (renamePlan ρ plan).map Subquery.tool = plan.map Subquery.tool := by
      rw [renamePlan, List.map_map]
      rfl
    rw [htools]
    exact h.tools

/-! ### Finding steps -/

theorem byId?_eq_some {plan : List Subquery} (h : Distinct plan) {id : String} {item : Subquery} :
    byId? plan id = some item ↔ item ∈ plan ∧ item.id = id := by
  constructor
  · intro hfind
    exact ⟨List.mem_reverse.1 (List.mem_of_find?_eq_some hfind),
      by simpa using List.find?_some hfind⟩
  · rintro ⟨hmem, rfl⟩
    have hnodup : (plan.reverse.map Subquery.id).Nodup := by
      rw [List.map_reverse, List.nodup_reverse]
      exact h.ids
    exact find?_id hnodup (List.mem_reverse.2 hmem)

theorem toolStep?_eq_some {plan : List Subquery} (h : Distinct plan) {tool : ToolName}
    {item : Subquery} : toolStep? plan tool = some item ↔ item ∈ plan ∧ item.tool = tool := by
  constructor
  · intro hfind
    exact ⟨List.mem_of_find?_eq_some hfind, by simpa using List.find?_some hfind⟩
  · rintro ⟨hmem, rfl⟩
    cases hfind : toolStep? plan item.tool with
    | none => simpa using List.find?_eq_none.1 hfind item hmem
    | some other =>
      have htool : other.tool = item.tool := by simpa using List.find?_some hfind
      rw [List.inj_on_of_nodup_map h.tools (List.mem_of_find?_eq_some hfind) hmem htool]

theorem toolStep?_eq_none {plan : List Subquery} {tool : ToolName} :
    toolStep? plan tool = none ↔ ∀ item ∈ plan, item.tool ≠ tool := by
  simp [toolStep?]

/-- Looking up a renamed ID in the renamed plan. -/
theorem byId?_rename (ρ : IdRenaming) (plan : List Subquery) (id : String) :
    byId? (renamePlan ρ plan) (ρ.name id) = (byId? plan id).map (renameStep ρ) := by
  rw [byId?, renamePlan, ← List.map_reverse, List.find?_map]
  congr 2
  funext item
  exact decide_eq_decide.2 ρ.injective.eq_iff

theorem toolStep?_rename (ρ : IdRenaming) (plan : List Subquery) (tool : ToolName) :
    toolStep? (renamePlan ρ plan) tool = (toolStep? plan tool).map (renameStep ρ) := by
  rw [toolStep?, renamePlan, List.find?_map]
  rfl

/-- The steps for a tool are the one that `toolStep?` finds. -/
theorem filter_tool {plan : List Subquery} (h : Distinct plan) (tool : ToolName) :
    plan.filter (·.tool = tool) = (toolStep? plan tool).toList := by
  cases hstep : toolStep? plan tool with
  | none =>
    rw [Option.toList_none, List.filter_eq_nil_iff]
    simpa using toolStep?_eq_none.1 hstep
  | some item =>
    obtain ⟨hmem, htool⟩ := (toolStep?_eq_some h).1 hstep
    have hnodup : (plan.filter (·.tool = tool)).Nodup := h.ids.of_map.filter _
    rw [Option.toList_some]
    refine (List.perm_singleton.1 ((List.perm_ext_iff_of_nodup hnodup
      (List.nodup_singleton _)).2 fun other => ?_))
    rw [List.mem_filter, List.mem_singleton, decide_eq_true_eq, ← toolStep?_eq_some h, hstep,
      Option.some.injEq]
    exact eq_comm

/-! ### The matching -/

/-- The entry of the mapping for a contract step that is matched by its tool. -/
def matchedByTool (plan : List Subquery) (expected : ExpectedSubquery) : Option (String × String) :=
  (toolStep? plan expected.tool).map fun item => (expected.id, item.id)

/-- One round of the matching, for a step whose ID is not crossed. -/
theorem matchStep_eq {plan : List Subquery} (h : Distinct plan)
    {state : Dict String String × List String} {expected : ExpectedSubquery}
    (huncrossed : ∀ item ∈ plan, item.id = expected.id → item.tool = expected.tool)
    (hused : ∀ item ∈ plan, item.tool = expected.tool → item.id ∉ state.2) :
    matchStep plan state expected =
      match toolStep? plan expected.tool with
      | some item => (state.1.set expected.id item.id, state.2 ++ [item.id])
      | none => state := by
  unfold matchStep
  cases hfind : byId? plan expected.id with
  | some item =>
    obtain ⟨hmem, hid⟩ := (byId?_eq_some h).1 hfind
    rw [(toolStep?_eq_some h).2 ⟨hmem, huncrossed item hmem hid⟩, ← hid]
  | none =>
    have hfilter : (plan.filter fun item => item.tool = expected.tool ∧ item.id ∉ state.2) =
        plan.filter (·.tool = expected.tool) := by
      refine List.filter_congr fun item hmem => decide_eq_decide.2 (and_iff_left_of_imp ?_)
      exact hused item hmem
    rw [hfilter, filter_tool h]
    cases toolStep? plan expected.tool with
    | none => rfl
    | some item => rfl

/-- **Without crossing names the steps are matched by their tools.** -/
theorem idMapping_entries {contract : EvaluationContract} {plan : List Subquery}
    (h : Distinct plan) (huncrossed : Uncrossed contract plan) :
    (idMapping contract plan).entries = contract.subqueries.filterMap (matchedByTool plan) := by
  have hids : (contract.subqueries.map ExpectedSubquery.id).Nodup := by
    have hvalid := contract.valid.ids
    rwa [List.map_map] at hvalid
  have htools : (contract.subqueries.map ExpectedSubquery.tool).Nodup := by
    have hvalid := contract.valid.tools
    rwa [List.map_map] at hvalid
  -- the mapping and the used IDs after the steps of a first part
  have hfold : ∀ (rest before : List ExpectedSubquery) (state : Dict String String × List String),
      before ++ rest = contract.subqueries →
      state.1.entries = before.filterMap (matchedByTool plan) → state.2 = state.1.values →
      (rest.foldl (matchStep plan) state).1.entries =
        contract.subqueries.filterMap (matchedByTool plan) := by
    intro rest
    induction rest with
    | nil =>
      intro before state happend hentries _
      rw [List.append_nil] at happend
      rw [← happend]
      exact hentries
    | cons expected rest ih =>
      intro before state happend hentries hvalues
      have hmem : expected ∈ contract.subqueries := by
        rw [← happend]
        exact List.mem_append_right _ List.mem_cons_self
      rw [← happend, List.map_append, List.map_cons, List.nodup_append] at hids htools
      have hused : ∀ item ∈ plan, item.tool = expected.tool → item.id ∉ state.2 := by
        intro item hitem htool hin
        rw [hvalues, Dict.values, hentries, List.mem_map] at hin
        obtain ⟨entry, hentry, hid⟩ := hin
        obtain ⟨earlier, hearlier, hmatched⟩ := List.mem_filterMap.1 hentry
        obtain ⟨other, hother, rfl⟩ := Option.map_eq_some_iff.1 hmatched
        obtain ⟨hotherMem, hotherTool⟩ := (toolStep?_eq_some h).1 hother
        have hsame : other = item := List.inj_on_of_nodup_map h.ids hotherMem hitem hid
        rw [hsame, htool] at hotherTool
        exact htools.2.2 _ (List.mem_map_of_mem hearlier) _ List.mem_cons_self hotherTool.symm
      have hfresh : expected.id ∉ state.1.keys := by
        intro hkey
        rw [Dict.keys, hentries, List.mem_map] at hkey
        obtain ⟨entry, hentry, hid⟩ := hkey
        obtain ⟨earlier, hearlier, hmatched⟩ := List.mem_filterMap.1 hentry
        obtain ⟨other, -, rfl⟩ := Option.map_eq_some_iff.1 hmatched
        exact hids.2.2 _ (List.mem_map_of_mem hearlier) _ List.mem_cons_self hid
      have hstep : matchStep plan state expected = _ :=
        matchStep_eq h (huncrossed expected hmem) hused
      rw [List.foldl_cons, hstep]
      refine ih (before ++ [expected]) _ ?_ ?_ ?_
      · rw [List.append_assoc, List.singleton_append, happend]
      · rw [List.filterMap_append, ← hentries]
        cases htool : toolStep? plan expected.tool with
        | none => simp [matchedByTool, htool]
        | some item => simp [matchedByTool, htool, Dict.entries_set_of_not_mem hfresh]
      · cases htool : toolStep? plan expected.tool with
        | none => exact hvalues
        | some item =>
          show state.2 ++ [item.id] = (state.1.set expected.id item.id).values
          rw [hvalues, Dict.values, Dict.values, Dict.entries_set_of_not_mem hfresh,
            List.map_append, List.map_singleton]
  exact hfold contract.subqueries [] (.empty, []) rfl rfl rfl

/-- A renaming that crosses no names renames what the steps are matched with. -/
theorem idMapping_rename {contract : EvaluationContract} {plan : List Subquery}
    (h : Distinct plan) (huncrossed : Uncrossed contract plan) (ρ : IdRenaming)
    (huncrossed' : Uncrossed contract (renamePlan ρ plan)) :
    idMapping contract (renamePlan ρ plan) = (idMapping contract plan).mapValues ρ.name := by
  apply Dict.ext
  show (idMapping contract (renamePlan ρ plan)).entries =
    (idMapping contract plan).entries.map fun entry => (entry.1, ρ.name entry.2)
  rw [idMapping_entries (h.rename ρ) huncrossed', idMapping_entries h huncrossed,
    List.map_filterMap]
  congr 1
  funext expected
  rw [matchedByTool, toolStep?_rename, Option.map_map, matchedByTool, Option.map_map]
  rfl

/-- What a contract step is matched with. -/
theorem get?_idMapping {contract : EvaluationContract} {plan : List Subquery} (h : Distinct plan)
    (huncrossed : Uncrossed contract plan) {expected : ExpectedSubquery}
    (hmem : expected ∈ contract.subqueries) :
    (idMapping contract plan).get? expected.id =
      (toolStep? plan expected.tool).map Subquery.id := by
  ext id
  rw [Dict.get?_eq_some_iff, idMapping_entries h huncrossed, List.mem_filterMap,
    Option.map_eq_some_iff]
  constructor
  · rintro ⟨other, hother, hmatched⟩
    obtain ⟨item, hitem, heq⟩ := Option.map_eq_some_iff.1 hmatched
    obtain ⟨hid, rfl⟩ := Prod.mk.inj heq
    have hids : (contract.subqueries.map ExpectedSubquery.id).Nodup := by
      have hvalid := contract.valid.ids
      rwa [List.map_map] at hvalid
    obtain rfl := List.inj_on_of_nodup_map hids hother hmem hid
    exact ⟨item, hitem, rfl⟩
  · rintro ⟨item, hitem, rfl⟩
    exact ⟨expected, hmem, by rw [matchedByTool, hitem, Option.map_some]⟩

/-- Contract steps are matched with IDs of the plan, and only with those. -/
theorem mem_of_get?_idMapping {contract : EvaluationContract} {plan : List Subquery}
    (h : Distinct plan) (huncrossed : Uncrossed contract plan) {expectedId id : String}
    (hget : (idMapping contract plan).get? expectedId = some id) :
    ∃ item ∈ plan, item.id = id := by
  rw [Dict.get?_eq_some_iff, idMapping_entries h huncrossed, List.mem_filterMap] at hget
  obtain ⟨expected, -, hmatched⟩ := hget
  obtain ⟨item, hitem, heq⟩ := Option.map_eq_some_iff.1 hmatched
  exact ⟨item, ((toolStep?_eq_some h).1 hitem).1, (Prod.mk.inj heq).2⟩

/-- **Without crossing names no two contract steps are matched with one step of the plan.** -/
theorem idMapping_injective {contract : EvaluationContract} {plan : List Subquery}
    (h : Distinct plan) (huncrossed : Uncrossed contract plan) :
    (idMapping contract plan).values.Nodup := by
  have htools : (contract.subqueries.map ExpectedSubquery.tool).Nodup := by
    have hvalid := contract.valid.tools
    rwa [List.map_map] at hvalid
  have hvalues : (idMapping contract plan).values =
      (contract.subqueries.map ExpectedSubquery.tool).filterMap
        fun tool => (toolStep? plan tool).map Subquery.id := by
    rw [Dict.values, idMapping_entries h huncrossed, List.map_filterMap, List.filterMap_map]
    congr 1
    funext expected
    rw [matchedByTool, Option.map_map]
    rfl
  rw [hvalues]
  refine htools.filterMap fun tool tool' id hid hid' => ?_
  obtain ⟨item, hitem, rfl⟩ := Option.map_eq_some_iff.1 hid
  obtain ⟨item', hitem', hsame⟩ := Option.map_eq_some_iff.1 hid'
  obtain ⟨hmem, rfl⟩ := (toolStep?_eq_some h).1 hitem
  obtain ⟨hmem', rfl⟩ := (toolStep?_eq_some h).1 hitem'
  rw [List.inj_on_of_nodup_map h.ids hmem' hmem hsame]

/-! ### Sources of bindings -/

/-- A source that names an ID and an output. -/
def SafeSource (source : String) : Prop :=
  ∃ sourceId output, isSafeIdentifier sourceId = true ∧ source = sourceId ++ "." ++ output

theorem splitDot_append {sourceId : String} (h : isSafeIdentifier sourceId = true)
    (output : String) : splitDot (sourceId ++ "." ++ output) = some (sourceId, output) := by
  have hnot : '.' ∉ sourceId.toList := by
    intro hdot
    unfold isSafeIdentifier at h
    split at h
    · cases h
    · next c rest hlist =>
      rw [hlist] at hdot
      rw [Bool.and_eq_true, List.all_eq_true] at h
      rcases List.mem_cons.1 hdot with rfl | hrest
      · exact absurd h.1 (by decide)
      · exact absurd (h.2 _ hrest) (by decide)
  have hlist : (sourceId ++ "." ++ output).toList = sourceId.toList ++ '.' :: output.toList := by
    simp
  rw [splitDot, hlist, splitDotFrom_append hnot, Option.map_some, String.ofList_toList,
    String.ofList_toList]

theorem renameSource_append (ρ : IdRenaming) {sourceId : String}
    (h : isSafeIdentifier sourceId = true) (output : String) :
    renameSource ρ (sourceId ++ "." ++ output) = ρ.name sourceId ++ "." ++ output := by
  rw [renameSource, splitDot_append h]

/-- Different sources stay different. -/
theorem renameSource_inj (ρ : IdRenaming) {source source' : String} (h : SafeSource source)
    (h' : SafeSource source') :
    renameSource ρ source = renameSource ρ source' ↔ source = source' := by
  obtain ⟨sourceId, output, hsafe, rfl⟩ := h
  obtain ⟨sourceId', output', hsafe', rfl⟩ := h'
  refine ⟨fun heq => ?_, fun heq => by rw [heq]⟩
  rw [renameSource_append ρ hsafe, renameSource_append ρ hsafe'] at heq
  have hsplit := congrArg splitDot heq
  rw [splitDot_append (ρ.safe _ hsafe), splitDot_append (ρ.safe _ hsafe'), Option.some.injEq,
    Prod.mk.injEq] at hsplit
  rw [ρ.injective hsplit.1, hsplit.2]

theorem splitDotFrom_eq_some {source a b : Text} (h : splitDotFrom source = some (a, b)) :
    source = a ++ '.' :: b := by
  induction source generalizing a with
  | nil => cases h
  | cons c rest ih =>
    rw [splitDotFrom] at h
    split_ifs at h with hc
    · obtain ⟨rfl, rfl⟩ := Prod.mk.inj (Option.some.inj h)
      rw [hc, List.nil_append]
    · obtain ⟨⟨a', b'⟩, hrest, heq⟩ := Option.map_eq_some_iff.1 h
      obtain ⟨rfl, rfl⟩ := Prod.mk.inj heq
      rw [List.cons_append, ← ih hrest]

theorem splitDot_eq_some {source sourceId output : String}
    (h : splitDot source = some (sourceId, output)) : source = sourceId ++ "." ++ output := by
  obtain ⟨⟨a, b⟩, hsplit, heq⟩ := Option.map_eq_some_iff.1 h
  obtain ⟨rfl, rfl⟩ := Prod.mk.inj heq
  rw [← String.toList_inj, splitDotFrom_eq_some hsplit]
  simp

/-- What the matching and the checks rest on. -/
structure Named (plan : List Subquery) : Prop extends Distinct plan where
  safe : ∀ item ∈ plan, isSafeIdentifier item.id = true
  sources : ∀ item ∈ plan, ∀ source ∈ item.inputBindings.values, SafeSource source

/-- A source of an accepted plan names one of its steps. -/
theorem exists_sourceId {plan : List Subquery} (h : ValidPlan plan) {item : Subquery}
    (hitem : item ∈ plan) {source : String} (hsource : source ∈ item.inputBindings.values) :
    ∃ producer ∈ plan, ∃ output, splitDot source = some (producer.id, output) := by
  obtain ⟨_, output, producer, hsplit, -, hmem, rfl, -⟩ := (h.wired item hitem).bound source hsource
  exact ⟨producer, hmem, output, hsplit⟩

theorem Generated.named {plan : List Subquery} (h : Generated plan) : Named plan := by
  refine ⟨h.distinct, ?_, ?_⟩
  · rcases h with rfl | ⟨-, hitems⟩
    · exact fun item hmem => absurd hmem List.not_mem_nil
    · exact fun item hmem => (hitems item hmem).id
  · rcases h with rfl | ⟨hvalid, hitems⟩
    · exact fun item hmem => absurd hmem List.not_mem_nil
    · intro item hmem source hsource
      obtain ⟨producer, hproducer, output, hsplit⟩ := exists_sourceId hvalid hmem hsource
      exact ⟨producer.id, output, (hitems producer hproducer).id, splitDot_eq_some hsplit⟩

/-! ### The checks of one step -/

theorem subset_map_iff {α β : Type} {f : α → β} {l l' : List α}
    (h : ∀ a ∈ l, ∀ b ∈ l', f a = f b → a = b) : l.map f ⊆ l'.map f ↔ l ⊆ l' := by
  refine ⟨fun hsub a ha => ?_, List.map_subset f⟩
  obtain ⟨b, hb, heq⟩ := List.mem_map.1 (hsub (List.mem_map_of_mem ha))
  exact h a ha b hb heq.symm ▸ hb

theorem all_congr_of_mem {α : Type} {l : List α} {p q : α → Bool} (h : ∀ a ∈ l, p a = q a) :
    l.all p = l.all q := by
  rw [Bool.eq_iff_iff, List.all_eq_true, List.all_eq_true]
  exact forall₂_congr fun a ha => by rw [h a ha]

theorem sameStringSet_map (ρ : IdRenaming) (value expected : List String) :
    sameStringSet (value.map ρ.name) (expected.map ρ.name) = sameStringSet value expected := by
  have hinj : ∀ a b, ρ.name a = ρ.name b → a = b := fun a b h => ρ.injective h
  rw [sameStringSet, sameStringSet, decide_eq_decide.2 (List.nodup_map_iff ρ.injective),
    decide_eq_decide.2 (subset_map_iff fun a _ b _ => hinj a b),
    decide_eq_decide.2 (subset_map_iff fun a _ b _ => hinj a b)]

theorem sameBindings_mapValues {f : String → String} {bindings bindings' : Dict String String}
    (h : ∀ a ∈ bindings.values, ∀ b ∈ bindings'.values, f a = f b → a = b) :
    sameBindings (bindings.mapValues f) (bindings'.mapValues f) =
      sameBindings bindings bindings' := by
  have hentries : ∀ a ∈ bindings.entries, ∀ b ∈ bindings'.entries,
      (a.1, f a.2) = (b.1, f b.2) → a = b := by
    intro a ha b hb heq
    obtain ⟨hkey, hvalue⟩ := Prod.mk.inj heq
    exact Prod.ext hkey (h _ (List.mem_map_of_mem ha) _ (List.mem_map_of_mem hb) hvalue)
  have hentries' : ∀ a ∈ bindings'.entries, ∀ b ∈ bindings.entries,
      (a.1, f a.2) = (b.1, f b.2) → a = b :=
    fun a ha b hb heq => (hentries b hb a ha heq.symm).symm
  rw [sameBindings, sameBindings]
  exact congrArg₂ _ (decide_eq_decide.2 (subset_map_iff hentries))
    (decide_eq_decide.2 (subset_map_iff hentries'))

theorem safe_ne_empty {id : String} (h : isSafeIdentifier id = true) : id ≠ "" := by
  rintro rfl
  exact absurd h (by decide)

section

variable (t : TextData) {V : Type} (isBool : V → Bool) (str : V → Text)

/-- The check of a step does not see the renaming. -/
theorem stepCheck_rename {contract : EvaluationContract} {plan : List Subquery}
    (h : Named plan) (huncrossed : Uncrossed contract plan) (case : EvaluationCase V)
    (ρ : IdRenaming) (expected : ExpectedSubquery) :
    stepCheck t isBool str contract case (renamePlan ρ plan)
        ((idMapping contract plan).mapValues ρ.name) expected =
      stepCheck t isBool str contract case plan (idMapping contract plan) expected := by
  have hdependencies :
      (expected.dependsOn.filterMap ((idMapping contract plan).mapValues ρ.name).get?).filter
          (· ≠ "") =
        ((expected.dependsOn.filterMap (idMapping contract plan).get?).filter (· ≠ "")).map
          ρ.name := by
    have hsafe : ∀ id ∈ expected.dependsOn.filterMap (idMapping contract plan).get?,
        isSafeIdentifier id = true := by
      intro id hid
      obtain ⟨expectedId, -, hget⟩ := List.mem_filterMap.1 hid
      obtain ⟨item, hmem, rfl⟩ := mem_of_get?_idMapping h.toDistinct huncrossed hget
      exact h.safe item hmem
    have hmap : expected.dependsOn.filterMap ((idMapping contract plan).mapValues ρ.name).get? =
        (expected.dependsOn.filterMap (idMapping contract plan).get?).map ρ.name := by
      rw [List.map_filterMap]
      congr 1
      funext expectedId
      exact Dict.get?_mapValues ..
    rw [hmap, List.filter_eq_self.2, List.filter_eq_self.2]
    · exact fun id hid => by simpa using safe_ne_empty (hsafe id hid)
    · intro id hid
      obtain ⟨id', hid', rfl⟩ := List.mem_map.1 hid
      simpa using safe_ne_empty (ρ.safe _ (hsafe id' hid'))
  have hactual : (((idMapping contract plan).mapValues ρ.name).get? expected.id).bind
        (byId? (renamePlan ρ plan)) =
      (((idMapping contract plan).get? expected.id).bind (byId? plan)).map (renameStep ρ) := by
    rw [Dict.get?_mapValues]
    cases (idMapping contract plan).get? expected.id with
    | none => rfl
    | some id => exact byId?_rename ρ plan id
  rw [stepCheck, stepCheck, hactual, Option.map_map]
  congr 2
  funext actual
  simp only [Function.comp_apply, hdependencies]
  rw [show (renameStep ρ actual).dependsOn = actual.dependsOn.map ρ.name from rfl,
    sameStringSet_map]
  rfl

end

theorem outputsCheck_rename (ρ : IdRenaming) (expected : ExpectedSubquery)
    (actual : Option Subquery) :
    outputsCheck expected (actual.map (renameStep ρ)) = outputsCheck expected actual := by
  cases actual <;> rfl

/-- Every step of the contract is matched. -/
def AllMatched (contract : EvaluationContract) (plan : List Subquery) : Prop :=
  ∀ expected ∈ contract.subqueries, toolStep? plan expected.tool ≠ none

theorem mapValues_congr {f g : String → String} {d : Dict String String}
    (h : ∀ v ∈ d.values, f v = g v) : d.mapValues f = d.mapValues g := by
  apply Dict.ext
  refine List.map_congr_left fun entry hentry => ?_
  rw [h entry.2 (List.mem_map_of_mem hentry)]

/-- A binding of the contract names a step of the contract. -/
theorem exists_expected {contract : EvaluationContract} {expected : ExpectedSubquery}
    (hmem : expected ∈ contract.subqueries) {source : String}
    (hsource : source ∈ expected.inputBindings.values) :
    ∃ producer ∈ contract.subqueries, ∃ output, splitDot source = some (producer.id, output) := by
  obtain ⟨shape, hshape, output, hsplit⟩ :=
    exists_sourceId contract.valid (List.mem_map_of_mem hmem) hsource
  obtain ⟨producer, hproducer, rfl⟩ := List.mem_map.1 hshape
  exact ⟨producer, hproducer, output, hsplit⟩

/-- The bindings of a step do not see the renaming, once every step is matched. -/
theorem bindingsCheck_rename {contract : EvaluationContract} {plan : List Subquery}
    (h : Named plan) (huncrossed : Uncrossed contract plan) (hmatched : AllMatched contract plan)
    (ρ : IdRenaming) {expected : ExpectedSubquery} (hmem : expected ∈ contract.subqueries)
    {actual : Option Subquery} (hactual : ∀ item ∈ actual, item ∈ plan) :
    (bindingsCheck ((idMapping contract plan).mapValues ρ.name) expected
        (actual.map (renameStep ρ))).pass =
      (bindingsCheck (idMapping contract plan) expected actual).pass := by
  have htranslated : ∀ source ∈ expected.inputBindings.values, ∃ id output,
      isSafeIdentifier id = true ∧
        translateSource (idMapping contract plan) source = id ++ "." ++ output ∧
        translateSource ((idMapping contract plan).mapValues ρ.name) source =
          ρ.name id ++ "." ++ output := by
    intro source hsource
    obtain ⟨producer, hproducer, output, hsplit⟩ := exists_expected hmem hsource
    obtain ⟨item, hitem⟩ := Option.ne_none_iff_exists'.1 (hmatched producer hproducer)
    have hget : (idMapping contract plan).get? producer.id = some item.id := by
      rw [get?_idMapping h.toDistinct huncrossed hproducer, hitem, Option.map_some]
    refine ⟨item.id, output, h.safe item ((toolStep?_eq_some h.toDistinct).1 hitem).1, ?_, ?_⟩
    · rw [translateSource, hsplit]
      simp only [hget, Option.getD_some]
    · rw [translateSource, hsplit]
      simp only [Dict.get?_mapValues, hget, Option.map_some, Option.getD_some]
  have hexpected : expected.inputBindings.mapValues
        (translateSource ((idMapping contract plan).mapValues ρ.name)) =
      (expected.inputBindings.mapValues (translateSource (idMapping contract plan))).mapValues
        (renameSource ρ) := by
    rw [Dict.mapValues_mapValues]
    refine mapValues_congr fun source hsource => ?_
    obtain ⟨id, output, hsafe, hsource, hrenamed⟩ := htranslated source hsource
    rw [Function.comp_apply, hsource, hrenamed, renameSource_append ρ hsafe]
  cases actual with
  | none => rfl
  | some item =>
    show sameBindings (item.inputBindings.mapValues (renameSource ρ)) (expected.inputBindings.mapValues
        (translateSource ((idMapping contract plan).mapValues ρ.name))) =
      sameBindings item.inputBindings
        (expected.inputBindings.mapValues (translateSource (idMapping contract plan)))
    rw [hexpected]
    refine sameBindings_mapValues fun source hsource source' hsource' => ?_
    refine (renameSource_inj ρ (h.sources item (hactual item rfl) source hsource) ?_).1
    rw [Dict.values, Dict.mapValues, List.map_map, List.mem_map] at hsource'
    obtain ⟨entry, hentry, rfl⟩ := hsource'
    obtain ⟨id, output, hsafe, hsource, -⟩ := htranslated entry.2 (List.mem_map_of_mem hentry)
    exact ⟨id, output, hsafe, hsource⟩

/-! ### The score of a plan -/

/-- The verdicts on a plan. -/
structure Score where
  routing : Bool
  split : Bool
  transform : Bool
  requiredOutputs : Bool
  requiredOutputsExact : Bool
  binding : Bool
  deriving DecidableEq, Repr

section

variable (t : TextData) {V : Type} [BEq V] (isBool : V → Bool) (str : V → Text)
  (contract : EvaluationContract) (case : EvaluationCase V) (toolPlan : Option (List ToolName))
  (resultTransform : Option (ResultTransform V))

/-- The verdicts of the two comparisons, the second one with the mapping of the first. -/
def score (plan : List Subquery) : Score :=
  let comparison :=
    compareExecutionContract t isBool str contract case toolPlan plan resultTransform
  let planComparison := compareExecutionPlanContract contract plan comparison.idMapping
  { routing := comparison.routingPass
    split := comparison.splitPass
    transform := comparison.transformPass
    requiredOutputs := planComparison.requiredOutputsPass
    requiredOutputsExact := planComparison.requiredOutputsExactPass
    binding := planComparison.bindingPass }

/-- The renaming keeps the score, and each time no two contract steps are matched with one step of
the plan. -/
structure SameScore (plan : List Subquery) (ρ : IdRenaming) : Prop where
  score : score t isBool str contract case toolPlan resultTransform (renamePlan ρ plan) =
    score t isBool str contract case toolPlan resultTransform plan
  injective : (idMapping contract plan).values.Nodup
  injective' : (idMapping contract (renamePlan ρ plan)).values.Nodup

/-- A plan whose steps are not as many as those of the contract fails, whatever they are called. -/
theorem score_of_length {plan : List Subquery}
    (h : plan.length ≠ contract.subqueries.length) (ρ : IdRenaming) :
    score t isBool str contract case toolPlan resultTransform (renamePlan ρ plan) =
      score t isBool str contract case toolPlan resultTransform plan := by
  have hlength : (renamePlan ρ plan).length = plan.length := List.length_map _
  simp [score, compareExecutionContract, compareExecutionPlanContract, hlength, h]

theorem length_dedup_ids {plan : List Subquery} (h : Distinct plan) :
    (plan.map Subquery.id).dedup.length = plan.length := by
  rw [List.dedup_eq_self.2 h.ids, List.length_map]

/-- What the plan has for a step of the contract, under a renaming. -/
theorem actual_rename {contract : EvaluationContract} {plan : List Subquery} (ρ : IdRenaming)
    (id : String) :
    (((idMapping contract plan).mapValues ρ.name).get? id).bind (byId? (renamePlan ρ plan)) =
      (((idMapping contract plan).get? id).bind (byId? plan)).map (renameStep ρ) := by
  rw [Dict.get?_mapValues]
  cases (idMapping contract plan).get? id with
  | none => rfl
  | some id => exact byId?_rename ρ plan id

/-- An unmatched step of the contract fails the bindings. -/
theorem all_binding_eq_false {contract : EvaluationContract} {plan : List Subquery}
    (h : Distinct plan) (huncrossed : Uncrossed contract plan)
    (hmatched : ¬ AllMatched contract plan) :
    ((contract.subqueries.map (planStep plan (idMapping contract plan))).all
      fun step => step.inputBindings.pass) = false := by
  obtain ⟨expected, hexpected⟩ := not_forall.1 hmatched
  obtain ⟨hmem, hnone⟩ := Classical.not_imp.1 hexpected
  rw [not_not] at hnone
  rw [List.all_eq_false]
  refine ⟨_, List.mem_map_of_mem hmem, ?_⟩
  rw [planStep, get?_idMapping h huncrossed hmem, hnone]
  simp [bindingsCheck]

/-- **A renaming between plans without crossing names keeps the score.** -/
theorem sameScore_of_uncrossed {plan : List Subquery} (hplan : Generated plan) (ρ : IdRenaming)
    (huncrossed : Uncrossed contract plan) (huncrossed' : Uncrossed contract (renamePlan ρ plan)) :
    SameScore t isBool str contract case toolPlan resultTransform plan ρ := by
  have h := hplan.named
  have hrename := idMapping_rename h.toDistinct huncrossed ρ huncrossed'
  refine ⟨?_, idMapping_injective h.toDistinct huncrossed,
    idMapping_injective (h.toDistinct.rename ρ) huncrossed'⟩
  have hlength : (renamePlan ρ plan).length = plan.length := List.length_map _
  have hids : decide ((renamePlan ρ plan).map Subquery.id).Nodup =
      decide (plan.map Subquery.id).Nodup :=
    decide_eq_decide.2 (iff_of_true (h.toDistinct.rename ρ).ids h.ids)
  have hdedup := length_dedup_ids (h.toDistinct.rename ρ)
  rw [hlength, ← length_dedup_ids h.toDistinct] at hdedup
  have hsteps : contract.subqueries.map (stepCheck t isBool str contract case (renamePlan ρ plan)
        (idMapping contract (renamePlan ρ plan))) =
      contract.subqueries.map (stepCheck t isBool str contract case plan
        (idMapping contract plan)) := by
    rw [hrename]
    exact List.map_congr_left fun expected _ =>
      stepCheck_rename t isBool str h huncrossed case ρ expected
  have houtputs : ∀ expected,
      (planStep (renamePlan ρ plan) (idMapping contract (renamePlan ρ plan))
          expected).requiredOutputs =
        (planStep plan (idMapping contract plan) expected).requiredOutputs := by
    intro expected
    rw [planStep, planStep, hrename, actual_rename]
    exact outputsCheck_rename ρ expected _
  have hbinding : ((contract.subqueries.map (planStep (renamePlan ρ plan)
        (idMapping contract (renamePlan ρ plan)))).all fun step => step.inputBindings.pass) =
      (contract.subqueries.map (planStep plan (idMapping contract plan))).all
        fun step => step.inputBindings.pass := by
    by_cases hmatched : AllMatched contract plan
    · rw [List.all_map, List.all_map]
      refine all_congr_of_mem fun expected hmem => ?_
      show (bindingsCheck (idMapping contract (renamePlan ρ plan)) expected _).pass =
        (bindingsCheck (idMapping contract plan) expected _).pass
      rw [hrename, actual_rename]
      refine bindingsCheck_rename h huncrossed hmatched ρ hmem fun item hitem => ?_
      obtain ⟨id, -, hfound⟩ := Option.bind_eq_some_iff.1 hitem
      exact ((byId?_eq_some h.toDistinct).1 hfound).1
    · rw [all_binding_eq_false h.toDistinct huncrossed hmatched,
        all_binding_eq_false (h.toDistinct.rename ρ) huncrossed']
      intro hall
      refine hmatched fun expected hmem hnone => hall expected hmem ?_
      rw [toolStep?_rename, hnone, Option.map_none]
  have hall : ∀ pass : OutputsCheck → Bool, ((contract.subqueries.map (planStep (renamePlan ρ plan)
        (idMapping contract (renamePlan ρ plan)))).all fun step => pass step.requiredOutputs) =
      (contract.subqueries.map (planStep plan (idMapping contract plan))).all
        fun step => pass step.requiredOutputs := by
    intro pass
    rw [List.all_map, List.all_map]
    exact all_congr_of_mem fun expected _ => congrArg pass (houtputs expected)
  simp only [score, compareExecutionContract, compareExecutionPlanContract, hsteps, hlength, hids,
    hdedup, hbinding, hall OutputsCheck.pass, hall OutputsCheck.exactPass]

end

end PlanScoring
