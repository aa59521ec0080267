import Text2Cypher.Planning.Outputs

/-!
# Do the two validators agree?

A route that `validate_route_subqueries` has accepted is completed with outputs and read by
`validate_subqueries`.  The completion itself never fails, and keeps what it should; the second
validator, however, also asks for one dot in every binding source, for distinct generator rules and
for output names that are not blank, which nobody has checked before.

* `planRoute_spec`: the finalizer never raises, and what the planned subqueries contain;
* `agrees_iff`: the planned list is accepted exactly when the route and the selections are `Clean`.
-/

namespace Planning

open Checks

variable {repr : Json → String} {catalog : QuerySemanticCatalog}

/-! ### Outgoing bindings -/

theorem splitDotFrom_append {a : Text} (h : '.' ∉ a) (b : Text) :
    splitDotFrom (a ++ '.' :: b) = some (a, b) := by
  induction a with
  | nil => rfl
  | cons c a ih =>
    simp only [List.mem_cons, not_or] at h
    obtain ⟨hc, ha⟩ := h
    rw [List.cons_append, splitDotFrom, if_neg (Ne.symm hc), ih ha]
    rfl

/-- A compiled source with a single dot is taken apart where it was put together. -/
theorem splitDot_of_countDots {sourceId sourceOutput : String}
    (h : countDots (sourceId ++ "." ++ sourceOutput) = 1) :
    splitDot (sourceId ++ "." ++ sourceOutput) = some (sourceId, sourceOutput) := by
  have hlist : (sourceId ++ "." ++ sourceOutput).toList =
      sourceId.toList ++ '.' :: sourceOutput.toList := by
    rw [String.toList_append, String.toList_append, List.append_assoc]
    rfl
  rw [countDots, hlist, List.count_append, List.count_cons_self] at h
  have hnot : '.' ∉ sourceId.toList := List.count_eq_zero.1 (by omega)
  rw [splitDot, hlist, splitDotFrom_append hnot, Option.map_some, String.ofList_toList,
    String.ofList_toList]

theorem get?_noOutputs_from (route : List RouteSubquery) (d : Dict String (List String))
    (id : String) :
    (route.foldl (fun result item => result.set item.id []) d).get? id =
      if id ∈ route.map RouteSubquery.id then some [] else d.get? id := by
  induction route generalizing d with
  | nil => rfl
  | cons item route ih =>
    rw [List.foldl_cons, ih, Dict.get?_set, List.map_cons]
    simp only [List.mem_cons]
    split_ifs with h1 h2 h3 h4 h5
    · rfl
    · exact absurd (Or.inr h1) h2
    · rfl
    · exact absurd (Or.inl h3) h4
    · exact absurd h5 (not_or.2 ⟨h3, h1⟩)
    · rfl

theorem get?_noOutputs {route : List RouteSubquery} {item : RouteSubquery} (h : item ∈ route) :
    (noOutputs route).get? item.id = some [] := by
  rw [noOutputs, get?_noOutputs_from, if_pos (List.mem_map_of_mem h)]

/-- The outputs of every source that is there after some binding sources were noted. -/
def Noted (result result' : Dict String (List String)) (sources : List String) : Prop :=
  ∀ id outputs, result.get? id = some outputs → ∃ outputs', result'.get? id = some outputs' ∧
    (outputs.Nodup → outputs'.Nodup) ∧ ∀ name, name ∈ outputs' ↔
      name ∈ outputs ∨ ∃ source ∈ sources, splitDot source = some (id, name)

theorem Noted.cons {result result' result'' : Dict String (List String)} {source : String}
    {sources : List String} (h : Noted result result' [source])
    (h' : Noted result' result'' sources) : Noted result result'' (source :: sources) := by
  intro id outputs hid
  obtain ⟨outputs', hid', hnodup, hmem⟩ := h id outputs hid
  obtain ⟨outputs'', hid'', hnodup', hmem'⟩ := h' id outputs' hid'
  refine ⟨outputs'', hid'', hnodup' ∘ hnodup, fun name => ?_⟩
  rw [hmem', hmem]
  simp only [List.mem_cons, List.not_mem_nil, or_false, exists_eq_left, or_and_right, exists_or,
    or_assoc]

/-- Noting one source of a known producer. -/
theorem noteOutgoing_spec (repr : Json → String) {result : Dict String (List String)}
    {source sourceId output : String}
    {noted : List String} (hsplit : splitDot source = some (sourceId, output))
    (hnoted : result.get? sourceId = some noted) :
    ∃ result', noteOutgoing repr result source = .ok result' ∧ Noted result result' [source] := by
  refine ⟨result.set sourceId (addNew noted output), by simp only [noteOutgoing, hsplit, hnoted],
    fun id outputs hid => ?_⟩
  simp only [List.mem_singleton, exists_eq_left, hsplit, Option.some.injEq, Prod.mk.injEq,
    Dict.get?_set]
  by_cases hsame : id = sourceId
  · subst hsame
    obtain rfl := Option.some.inj (hid.symm.trans hnoted)
    refine ⟨addNew outputs output, if_pos rfl, nodup_addNew, fun name => ?_⟩
    have hnew : name ∈ [output].foldl addNew outputs ↔ name ∈ outputs ∨ name ∈ [output] :=
      mem_foldl_addNew
    simpa [eq_comm] using hnew
  · refine ⟨outputs, by rw [if_neg hsame, hid], fun hnodup => hnodup, fun name => ?_⟩
    simp [Ne.symm hsame]

/-- Noting sources of known producers never fails. -/
theorem noteAllOutgoing_spec (repr : Json → String) {result : Dict String (List String)}
    {sources : List String}
    (h : ∀ source ∈ sources, ∃ sourceId output outputs,
      splitDot source = some (sourceId, output) ∧ result.get? sourceId = some outputs) :
    ∃ result', noteAllOutgoing repr result sources = .ok result' ∧
      Noted result result' sources := by
  induction sources generalizing result with
  | nil =>
    exact ⟨result, rfl, fun id outputs hid => ⟨outputs, hid, fun hnodup => hnodup, by simp⟩⟩
  | cons source sources ih =>
    obtain ⟨⟨sourceId, output, noted, hsplit, hnoted⟩, hrest⟩ := List.forall_mem_cons.1 h
    obtain ⟨next, hnext, hstep⟩ := noteOutgoing_spec repr hsplit hnoted
    obtain ⟨result', hrun, hsteps⟩ : ∃ result', noteAllOutgoing repr next sources = .ok result' ∧
        Noted next result' sources := by
      refine ih fun source hsource => ?_
      obtain ⟨id, output, outputs, hsplit, hid⟩ := hrest source hsource
      obtain ⟨outputs', hid', -⟩ := hstep id outputs hid
      exact ⟨id, output, outputs', hsplit, hid'⟩
    exact ⟨result', by simp only [noteAllOutgoing, hnext]; exact hrun, hstep.cons hsteps⟩

/-- **The outputs that later bindings read**, source by source. -/
theorem outgoing_spec (repr : Json → String) {route : List RouteSubquery}
    (h : ValidRoute catalog route) :
    ∃ outgoing, outgoingBindingOutputs repr route = .ok outgoing ∧ ∀ item ∈ route, ∃ outputs,
      outgoing.get? item.id = some outputs ∧ outputs.Nodup ∧ ∀ name, name ∈ outputs ↔
        ∃ later ∈ route, ∃ source ∈ later.inputBindings.values,
          splitDot source = some (item.id, name) := by
  have hknown : ∀ source ∈ route.flatMap fun item => item.inputBindings.values,
      ∃ sourceId output outputs, splitDot source = some (sourceId, output) ∧
        (noOutputs route).get? sourceId = some outputs := by
    intro source hsource
    obtain ⟨item, hitem, hvalue⟩ := List.mem_flatMap.1 hsource
    obtain ⟨sourceId, output, producer, hsplit, -, hproducer, rfl, -⟩ :=
      (h.wired item hitem).bound source hvalue
    exact ⟨producer.id, output, [], hsplit, get?_noOutputs hproducer⟩
  obtain ⟨outgoing, hrun, hnoted⟩ := noteAllOutgoing_spec repr hknown
  refine ⟨outgoing, hrun, fun item hitem => ?_⟩
  obtain ⟨outputs, hget, hnodup, hmem⟩ := hnoted item.id [] (get?_noOutputs hitem)
  refine ⟨outputs, hget, hnodup List.nodup_nil, fun name => (hmem name).trans ?_⟩
  simp only [List.not_mem_nil, false_or, List.mem_flatMap]
  constructor
  · rintro ⟨source, ⟨later, hlater, hsource⟩, hsplit⟩
    exact ⟨later, hlater, source, hsource, hsplit⟩
  · rintro ⟨later, hlater, source, hsource, hsplit⟩
    exact ⟨source, ⟨later, hlater, hsource⟩, hsplit⟩

/-! ### The finalizer -/

theorem checkOwned_eq_ok {tool : ToolName} {fieldName : String} {aliases : List String}
    {u : Unit} :
    checkOwned catalog tool fieldName aliases = .ok u ↔
      aliases.Nodup ∧ aliases ⊆ catalog.allowedAliases tool := by
  simp only [checkOwned, bind_eq_ok, require_eq_ok, exists_const, List.filter_eq_nil_iff,
    decide_eq_true_eq, not_not]
  rfl

/-- The finalizer only refuses repeated aliases and aliases of another source. -/
theorem finalizeRequiredOutputs_eq_ok {selected joinKeys outgoing outputs : List String}
    {tool : ToolName} :
    finalizeRequiredOutputs selected joinKeys outgoing catalog tool = .ok outputs ↔
      (∀ aliases ∈ [selected, joinKeys, outgoing],
        aliases.Nodup ∧ aliases ⊆ catalog.allowedAliases tool) ∧
      orderedUnion [selected, joinKeys, outgoing] = outputs := by
  simp only [finalizeRequiredOutputs, bind_eq_ok, checkOwned_eq_ok, pure_eq_ok, exists_const,
    List.forall_mem_cons, List.not_mem_nil, false_implies, implies_true, and_true, and_assoc]

/-- What a source is planned with: its outputs are made of the selection and its roles, of the join
keys, and of what later bindings read, in this order. -/
structure Planned (repr : Json → String) (catalog : QuerySemanticCatalog)
    (route : List RouteSubquery) (item : RouteSubquery) (plan : SemanticOutputPlan)
    (outputs rules : List String) : Prop where
  outputs_nodup : outputs.Nodup
  outputs_ne_nil : outputs ≠ []
  selection : plan.requiredOutputs <+: outputs
  mem_outputs : ∀ name, name ∈ outputs ↔ name ∈ plan.requiredOutputs ∨
    (∃ roleId ∈ plan.displayEntities, name ∈ roleAliases catalog item.tool roleId) ∨
    name ∈ item.joinKeys ∨ ∃ later ∈ route, ∃ source ∈ later.inputBindings.values,
      splitDot source = some (item.id, name)
  rules : StringsOk rules ↔ (roleRules repr catalog item.tool plan.displayEntities).Nodup

/-- Planning one source of an accepted route never raises. -/
theorem planOne_spec {route : List RouteSubquery} (h : ValidRoute catalog route)
    {outgoing : Dict String (List String)} {item : RouteSubquery} (hitem : item ∈ route)
    {plan : SemanticOutputPlan} (hplan : Parsed catalog item.tool plan)
    {sources : List String} (hsources : outgoing.get? item.id = some sources)
    (hnodup : sources.Nodup)
    (hmem : ∀ name, name ∈ sources ↔ ∃ later ∈ route, ∃ source ∈ later.inputBindings.values,
      splitDot source = some (item.id, name)) :
    ∃ outputs rules, planOne repr catalog outgoing plan item =
        .ok (withRequiredOutputs item outputs rules) ∧
      Planned repr catalog route item plan outputs rules := by
  obtain ⟨rules, hrules, hrulesOk⟩ := generatorRules_spec repr hplan
  have hkeys := (h.items item hitem).joinKeys.2
  have hshared : item.joinKeys ⊆ catalog.allowedAliases item.tool := fun key hkey =>
    QuerySemanticCatalog.shared_subset_allowed item.tool ((h.items item hitem).shared key hkey)
  have howned : sources ⊆ catalog.allowedAliases item.tool := by
    intro name hname
    obtain ⟨later, hlater, source, hsource, hsplit⟩ := (hmem name).1 hname
    obtain ⟨sourceId, output, producer, hsplit', -, hproducer, hid, hallowed⟩ :=
      (h.wired later hlater).bound source hsource
    obtain ⟨rfl, rfl⟩ := Prod.mk.inj (Option.some.inj (hsplit'.symm.trans hsplit))
    rwa [List.inj_on_of_nodup_map h.ids hproducer hitem hid] at hallowed
  have hfinal : finalizeRequiredOutputs (selectedOutputs catalog item.tool plan) item.joinKeys
      sources catalog item.tool =
        .ok (orderedUnion [selectedOutputs catalog item.tool plan, item.joinKeys, sources]) := by
    refine finalizeRequiredOutputs_eq_ok.2 ⟨?_, rfl⟩
    simp only [List.forall_mem_cons, List.not_mem_nil, false_implies, implies_true, and_true]
    exact ⟨⟨nodup_orderedUnion _, hplan.selectedOutputs_subset⟩, ⟨hkeys, hshared⟩, hnodup, howned⟩
  refine ⟨orderedUnion [selectedOutputs catalog item.tool plan, item.joinKeys, sources], rules,
    ?_, nodup_orderedUnion _, ?_, ?_, fun name => ?_, hrulesOk⟩
  · refine bind_eq_ok.2 ⟨_, hplan.compile_eq, bind_eq_ok.2 ⟨_, hrules, ?_⟩⟩
    rw [hsources]
    exact bind_eq_ok.2 ⟨_, hfinal, rfl⟩
  · obtain ⟨name, hname⟩ := List.exists_mem_of_ne_nil _ hplan.selectedOutputs_ne_nil
    exact List.ne_nil_of_mem (mem_orderedUnion.2 ⟨_, List.mem_cons_self, hname⟩)
  · exact (prefix_orderedUnion hplan.requiredOutputs.2 _).trans
      (prefix_orderedUnion (nodup_orderedUnion _) _)
  · simp only [mem_orderedUnion, List.mem_cons, List.not_mem_nil, or_false, exists_eq_or_imp,
      exists_eq_left, Parsed.mem_selectedOutputs, hmem, or_assoc]

/-- The planned source, if its outputs and rules are these. -/
def completed (outputs rules : RouteSubquery → List String) (item : RouteSubquery) : Subquery :=
  withRequiredOutputs item (outputs item) (rules item)

/-- **Planning an accepted route never raises**, and plans every source as `Planned` says. -/
theorem planRoute_spec (repr : Json → String) {route : List RouteSubquery}
    (h : ValidRoute catalog route) {plans : String → SemanticOutputPlan}
    (hplans : ∀ item ∈ route, Parsed catalog item.tool (plans item.id)) :
    ∃ outputs rules : RouteSubquery → List String,
      planRoute repr catalog route plans = .ok (route.map (completed outputs rules)) ∧
      ∀ item ∈ route,
        Planned repr catalog route item (plans item.id) (outputs item) (rules item) := by
  obtain ⟨outgoing, hrun, houtgoing⟩ := outgoing_spec repr h
  have hone : ∀ item ∈ route, ∃ outputs rules,
      planOne repr catalog outgoing (plans item.id) item =
        .ok (withRequiredOutputs item outputs rules) ∧
      Planned repr catalog route item (plans item.id) outputs rules := by
    intro item hitem
    obtain ⟨sources, hget, hnodup, hmem⟩ := houtgoing item hitem
    exact planOne_spec h hitem (hplans item hitem) hget hnodup hmem
  choose! outputs rules hplan hplanned using hone
  exact ⟨outputs, rules, bind_eq_ok.2 ⟨outgoing, hrun, each_eq_map fun item hitem =>
    hplan item hitem⟩, hplanned⟩

/-! ### When the planned list is accepted -/

/-- What `validate_subqueries` asks for, and nobody before it. -/
structure Clean (repr : Json → String) (catalog : QuerySemanticCatalog)
    (route : List RouteSubquery) (plans : String → SemanticOutputPlan) : Prop where
  /-- no source ID has a dot -/
  sources : ∀ item ∈ route, ∀ source ∈ item.inputBindings.values, countDots source = 1
  /-- no two predicates of the selected roles read the same -/
  rules : ∀ item ∈ route,
    (roleRules repr catalog item.tool (plans item.id).displayEntities).Nodup
  /-- no key or label of a selected role is blank -/
  aliases : ∀ item ∈ route, ∀ roleId ∈ (plans item.id).displayEntities,
    ∀ name ∈ roleAliases catalog item.tool roleId, isBlank name = false

/-- The planning step keeps what was routed and selected: nothing raises, the second validator
returns the planned list as it is, and every source has all the outputs it needs. -/
def Agrees (repr : Json → String) (catalog : QuerySemanticCatalog) (route : List RouteSubquery)
    (plans : String → SemanticOutputPlan) : Prop :=
  ∃ planned, planRoute repr catalog route plans = .ok planned ∧
    validateSubqueries repr false (.array (planned.map Subquery.toJson)) = .ok planned ∧
    List.Forall₂ (fun item subquery =>
      subquery.id = item.id ∧ subquery.requiredOutputs.Nodup ∧
      (plans item.id).requiredOutputs <+: subquery.requiredOutputs ∧
      item.joinKeys ⊆ subquery.requiredOutputs ∧
      ∀ later ∈ route, ∀ source ∈ later.inputBindings.values, ∀ name,
        splitDot source = some (item.id, name) → name ∈ subquery.requiredOutputs) route planned

theorem isBlank_of_isSafeIdentifier {s : String} (h : isSafeIdentifier s = true) :
    isBlank s = false := by
  unfold isSafeIdentifier at h
  unfold isBlank
  split at h
  · cases h
  · rename_i c rest hlist
    rw [Bool.and_eq_true, Bool.or_eq_true] at h
    rw [hlist, List.all_cons, Bool.and_eq_false_iff]
    rcases h.1 with hc | hc
    · exact Or.inl (Python.isSpace_of_isAlpha hc)
    · obtain rfl : c = '_' := by simpa using hc
      exact Or.inl (by decide)

section

variable {route : List RouteSubquery} {plans : String → SemanticOutputPlan}
  {outputs rules : RouteSubquery → List String}

/-- With one dot in the sources, what a later binding reads is a safe identifier. -/
theorem isBlank_of_read (h : ValidRoute catalog route) (hclean : Clean repr catalog route plans)
    {later : RouteSubquery} (hlater : later ∈ route) {source id name : String}
    (hsource : source ∈ later.inputBindings.values) (hsplit : splitDot source = some (id, name)) :
    isBlank name = false := by
  have hdots := hclean.sources later hlater source hsource
  obtain ⟨entry, hentry, rfl⟩ := List.mem_map.1 hsource
  obtain ⟨-, sourceId, sourceOutput, heq, hsafe⟩ := (h.items later hlater).bindings entry hentry
  rw [heq] at hdots hsplit
  rw [splitDot_of_countDots hdots, Option.some.injEq, Prod.mk.injEq] at hsplit
  rw [← hsplit.2]
  exact isBlank_of_isSafeIdentifier hsafe

/-- Clean sources pass the second validator by themselves. -/
theorem itemOk_completed (h : ValidRoute catalog route)
    (hplans : ∀ item ∈ route, Parsed catalog item.tool (plans item.id))
    (hclean : Clean repr catalog route plans) {item : RouteSubquery} (hitem : item ∈ route)
    (hplanned : Planned repr catalog route item (plans item.id) (outputs item) (rules item)) :
    ItemOk (completed outputs rules item) := by
  have hok := h.items item hitem
  refine ⟨hok.id, hok.question, hok.dependsOn, ⟨fun name hname => ?_, hplanned.outputs_nodup⟩,
    hplanned.outputs_ne_nil, hok.joinKeys, fun key hkey => ?_, fun entry hentry => ?_,
    hplanned.rules.2 (hclean.rules item hitem)⟩
  · rcases (hplanned.mem_outputs name).1 hname with hname | ⟨roleId, hrole, hname⟩ | hname |
      ⟨later, hlater, source, hsource, hsplit⟩
    · exact (hplans item hitem).requiredOutputs.1 name hname
    · exact hclean.aliases item hitem roleId hrole name hname
    · exact hok.joinKeys.1 name hname
    · exact isBlank_of_read h hclean hlater hsource hsplit
  · exact (hplanned.mem_outputs key).2 (Or.inr (Or.inr (Or.inl hkey)))
  · exact ⟨(hok.bindings entry hentry).1,
      hclean.sources item hitem entry.2 (List.mem_map_of_mem hentry)⟩

/-- What the second validator has seen in every source was clean. -/
theorem clean_of_itemOk
    (hplanned : ∀ item ∈ route,
      Planned repr catalog route item (plans item.id) (outputs item) (rules item))
    (hok : ∀ item ∈ route, ItemOk (completed outputs rules item)) :
    Clean repr catalog route plans where
  sources item hitem source hsource := by
    obtain ⟨entry, hentry, rfl⟩ := List.mem_map.1 hsource
    exact ((hok item hitem).bindings entry hentry).2
  rules item hitem := (hplanned item hitem).rules.1 (hok item hitem).generatorRules
  aliases item hitem roleId hrole name hname :=
    (hok item hitem).requiredOutputs.1 name
      (((hplanned item hitem).mem_outputs name).2 (Or.inr (Or.inl ⟨roleId, hrole, hname⟩)))

theorem map_id_completed :
    (route.map (completed outputs rules)).map Subquery.id = route.map RouteSubquery.id :=
  List.map_map

/-- Completing a route does not change its order. -/
theorem order_completed (h : ValidRoute catalog route) :
    Waves.order Subquery.id Subquery.dependsOn cyclicDependency
      (route.map (completed outputs rules)) = .ok (route.map (completed outputs rules)) := by
  rw [Waves.order_map]
  exact congrArg (Except.map (List.map (completed outputs rules))) h.order

/-- A completed route is wired as the route was: producers return what is read from them. -/
theorem validPlan_completed (h : ValidRoute catalog route)
    (hplanned : ∀ item ∈ route,
      Planned repr catalog route item (plans item.id) (outputs item) (rules item)) :
    ValidPlan (route.map (completed outputs rules)) := by
  have hids : ((route.map (completed outputs rules)).map Subquery.id).Nodup :=
    map_id_completed ▸ h.ids
  refine ⟨?_, ?_, hids, ?_, ?_, (Waves.order_spec hids (order_completed h)).2.1, ?_⟩
  · simpa using h.nonempty
  · simpa using h.length
  · rw [List.map_map]
    exact h.tools
  · intro subquery hsubquery
    obtain ⟨item, hitem, rfl⟩ := List.mem_map.1 hsubquery
    obtain ⟨hother, hknown, hbound, hcovered⟩ := h.wired item hitem
    refine ⟨hother, fun d hd => map_id_completed ▸ hknown d hd, ?_, hcovered⟩
    intro source hsource
    obtain ⟨dependencyId, output, producer, hsplit, hdep, hproducer, rfl, -⟩ :=
      hbound source hsource
    exact ⟨producer.id, output, completed outputs rules producer, hsplit, hdep,
      List.mem_map_of_mem hproducer, rfl, ((hplanned producer hproducer).mem_outputs output).2
        (Or.inr (Or.inr (Or.inr ⟨item, hitem, source, hsource, hsplit⟩)))⟩
  · rw [List.map_map]
    exact h.joinKeys

/-- For an accepted route and accepted selections, the validators agree on what is clean. -/
theorem agrees_iff_of_valid (h : ValidRoute catalog route)
    (hparsed : ∀ item ∈ route, Parsed catalog item.tool (plans item.id)) :
    Agrees repr catalog route plans ↔ Clean repr catalog route plans := by
  obtain ⟨outputs, rules, hplan, hplanned⟩ := planRoute_spec repr h hparsed
  have horder : Waves.order Subquery.id Subquery.dependsOn cyclicDependency
      (route.map (completed outputs rules)) = .ok (route.map (completed outputs rules)) :=
    order_completed h
  constructor
  · rintro ⟨planned, hrun, haccepted, -⟩
    obtain rfl := Except.ok.inj (hplan.symm.trans hrun)
    obtain ⟨⟨-, hok⟩, -⟩ := (validateSubqueries_toJson horder).1 haccepted
    exact clean_of_itemOk hplanned fun item hitem => hok _ (List.mem_map_of_mem hitem)
  · intro hclean
    refine ⟨_, hplan,
      (validateSubqueries_toJson horder).2 ⟨⟨validPlan_completed h hplanned, ?_⟩, rfl⟩, ?_⟩
    · intro subquery hsubquery
      obtain ⟨item, hitem, rfl⟩ := List.mem_map.1 hsubquery
      exact itemOk_completed h hparsed hclean hitem (hplanned item hitem)
    · rw [List.forall₂_map_right_iff, List.forall₂_same]
      intro item hitem
      have hmem := (hplanned item hitem).mem_outputs
      refine ⟨rfl, (hplanned item hitem).outputs_nodup, (hplanned item hitem).selection,
        fun key hkey => (hmem key).2 (Or.inr (Or.inr (Or.inl hkey))), ?_⟩
      exact fun later hlater source hsource name hsplit =>
        (hmem name).2 (Or.inr (Or.inr (Or.inr ⟨later, hlater, source, hsource, hsplit⟩)))

end

/-- **When the validators agree.**  For a route that the first validator has accepted and
selections that the parser has accepted, planning succeeds, with all the outputs that it needs and
in the same order, exactly when the route and the selections are clean. -/
theorem agrees_iff {draft : Json} {route : List RouteSubquery} {contents : String → Json}
    {plans : String → SemanticOutputPlan}
    (hroute : validateRouteSubqueries repr catalog.sharedJoinAliases (some catalog) draft =
      .ok route)
    (hplans : ∀ item ∈ route,
      parseOutputPlan (contents item.id) item.tool catalog = .ok (plans item.id)) :
    Agrees repr catalog route plans ↔ Clean repr catalog route plans :=
  agrees_iff_of_valid (validRoute_of_validateRouteSubqueries hroute) fun item hitem =>
    parsed_of_parseOutputPlan (hplans item hitem)

/-! ### A role with a predicate, once and twice -/

/-- A catalog of one identity and one role with the given predicates. -/
def plainCatalog (predicates : List TypedPredicate) : QuerySemanticCatalog where
  byTool _ := ⟨[("productId", ⟨none⟩)], List.nodup_singleton _⟩
  identityAliases _ := ["productId"]
  sharedJoinAliases := ["productId"]
  entityRoles := ⟨[("product", ⟨fun _ => some ⟨["productId"], []⟩, fun _ => predicates⟩)],
    List.nodup_singleton _⟩
  identity_subset _ := List.Subset.refl _
  shared_iff _ := (and_self_iff).symm
  projection_spec role hrole tool projection hprojection := by
    obtain rfl := List.mem_singleton.1 hrole
    obtain rfl := Option.some.inj hprojection
    exact ⟨List.cons_ne_nil _ _, List.Subset.refl _⟩

def oneProduct : TypedPredicate := ⟨"productId", "equals", .str "P-1"⟩

def plainRepr : Json → String
  | .str s => "'" ++ s ++ "'"
  | _ => ""

def plainDraft : Json :=
  .array [.object [("id", .str "q1"), ("tool", .str "sql"), ("question", .str "stock?"),
    ("dependsOn", .array []), ("joinKeys", .array []), ("inputBindings", .array [])]]

def plainRoute : List RouteSubquery := [⟨"q1", .sql, "stock?", [], [], .empty⟩]

def plainContents (_ : String) : Json :=
  .object [("requiredOutputs", .array [.str "productId"]),
    ("displayEntities", .array [.str "product"])]

def plainPlans (_ : String) : SemanticOutputPlan := ⟨["productId"], ["product"]⟩

theorem validate_plainDraft (predicates : List TypedPredicate) :
    validateRouteSubqueries plainRepr (plainCatalog predicates).sharedJoinAliases
      (some (plainCatalog predicates)) plainDraft = .ok plainRoute := by
  rfl

theorem parse_plainContents (predicates : List TypedPredicate) {item : RouteSubquery}
    (h : item ∈ plainRoute) :
    parseOutputPlan (plainContents item.id) item.tool (plainCatalog predicates) =
      .ok (plainPlans item.id) := by
  obtain rfl := List.mem_singleton.1 h
  rfl

theorem agrees_plain : Agrees plainRepr (plainCatalog [oneProduct]) plainRoute plainPlans := by
  refine (agrees_iff (validate_plainDraft _) fun item hitem => parse_plainContents _ hitem).2
    ⟨?_, ?_, ?_⟩
  · intro item hitem source hsource
    obtain rfl := List.mem_singleton.1 hitem
    cases hsource
  · intro item hitem
    obtain rfl := List.mem_singleton.1 hitem
    exact List.nodup_singleton _
  · intro item hitem roleId hrole name hname
    obtain rfl := List.mem_singleton.1 hitem
    obtain rfl := List.mem_singleton.1 hrole
    obtain rfl := List.mem_singleton.1 hname
    decide +kernel

/-- A role that lists one predicate twice is planned with a repeated rule. -/
theorem not_agrees_repeated :
    validateRouteSubqueries plainRepr (plainCatalog [oneProduct, oneProduct]).sharedJoinAliases
        (some (plainCatalog [oneProduct, oneProduct])) plainDraft = .ok plainRoute ∧
      (∀ item ∈ plainRoute, parseOutputPlan (plainContents item.id) item.tool
        (plainCatalog [oneProduct, oneProduct]) = .ok (plainPlans item.id)) ∧
      ¬ Agrees plainRepr (plainCatalog [oneProduct, oneProduct]) plainRoute plainPlans := by
  have hroute := validate_plainDraft [oneProduct, oneProduct]
  have hplans : ∀ item ∈ plainRoute, parseOutputPlan (plainContents item.id) item.tool
      (plainCatalog [oneProduct, oneProduct]) = .ok (plainPlans item.id) :=
    fun item hitem => parse_plainContents _ hitem
  refine ⟨hroute, hplans, fun hagrees => ?_⟩
  have hclean := (agrees_iff_of_valid (validRoute_of_validateRouteSubqueries hroute)
    fun item hitem => parsed_of_parseOutputPlan (hplans item hitem)).1 hagrees
  have hrules := hclean.rules _ List.mem_cons_self
  exact (List.nodup_cons.1 hrules).1 List.mem_cons_self

end Planning
