import Text2Cypher.Planning.ResultShapes

/-!
# Completing plans by closure

What a contract completes should not depend on the order in which its groups and roles are declared:
it is the closure of the plan under groups that are touched.  The one pass of the code reaches the
closure only as far as the plan itself touches the groups, and the roles are looked up before the
outputs are completed.

* `conform_keeps`: an accepted plan is kept, with what the contract adds, and stays as it is;
* **`orderFreeClosure_iff`**: the pass is the closure, in every order, just for plans that the
  closure rejects or that one round completes.
-/

namespace Planning

variable {repr : Json → String} {catalog : QuerySemanticCatalog} {tool : ToolName}
  {plan result : SemanticOutputPlan} {contract contract' : ResultShapeSourceSpec}

/-! ### Contracts that are met -/

/-- The outputs of a contract are among some outputs, and its roles are selected or have a key among
some others. -/
structure Meets (catalog : QuerySemanticCatalog) (tool : ToolName) (plan : SemanticOutputPlan)
    (contract : ResultShapeSourceSpec) (outputs keys : Set String) : Prop where
  outputs : ∀ name ∈ contract.requiredOutputs, name ∈ outputs
  roles : ∀ roleId ∈ contract.displayEntities, RoleKnown catalog tool plan keys roleId

theorem RoleKnown.mono {roleId : String} {s t : Set String}
    (h : RoleKnown catalog tool plan s roleId) (hsub : s ⊆ t) :
    RoleKnown catalog tool plan t roleId :=
  h.imp_right fun ⟨key, hkey, hs⟩ => ⟨key, hkey, hsub hs⟩

theorem Meets.mono {outputs outputs' keys keys' : Set String}
    (h : Meets catalog tool plan contract outputs keys) (houtputs : outputs ⊆ outputs')
    (hkeys : keys ⊆ keys') : Meets catalog tool plan contract outputs' keys' :=
  ⟨fun name hname => houtputs (h.outputs name hname), fun roleId hrole =>
    (h.roles roleId hrole).mono hkeys⟩

/-- A contract with its groups and roles in another order. -/
structure Reordered (contract contract' : ResultShapeSourceSpec) : Prop where
  roles : contract'.displayEntities.Perm contract.displayEntities
  outputs : contract'.requiredOutputs = contract.requiredOutputs
  groups : contract'.completionGroups.Perm contract.completionGroups

theorem Reordered.admitted (h : Reordered contract contract')
    (hcontract : Admitted catalog tool contract) : Admitted catalog tool contract' where
  roles := List.Subset.trans h.roles.subset hcontract.roles
  roles_nodup := h.roles.nodup_iff.2 hcontract.roles_nodup
  outputs := h.outputs ▸ hcontract.outputs
  groups group hgroup := h.outputs ▸ hcontract.groups group (h.groups.subset hgroup)

/-- A plan is accepted just if the pass meets the contract. -/
theorem exists_conform_iff (hcontract : Admitted catalog tool contract) :
    (∃ result, conformOutputPlanToShape repr plan (some contract) catalog tool = .ok result) ↔
      Meets catalog tool plan contract (Completion.pass contract.completionGroups plan.own)
        plan.own := by
  constructor
  · rintro ⟨result, hresult⟩
    obtain ⟨⟨hroles, houtputs⟩, -⟩ := (conformOutputPlanToShape_eq_ok hcontract).1 hresult
    exact ⟨houtputs, hroles⟩
  · intro h
    exact ⟨_, (conformOutputPlanToShape_eq_ok hcontract).2 ⟨⟨h.roles, h.outputs⟩, rfl⟩⟩

/-! ### What an accepted plan becomes -/

/-- The selection of the model is kept, nothing comes from outside of the contract, and the plan is
accepted as it is when it is conformed again. -/
structure Keeps (repr : Json → String) (catalog : QuerySemanticCatalog) (tool : ToolName)
    (plan result : SemanticOutputPlan) (contract : ResultShapeSourceSpec) : Prop where
  outputs : plan.requiredOutputs <+: result.requiredOutputs
  roles : plan.displayEntities <+: result.displayEntities
  new_outputs : ∀ name ∈ result.requiredOutputs,
    name ∈ plan.requiredOutputs ∨ name ∈ contract.requiredOutputs
  new_roles : ∀ roleId ∈ result.displayEntities,
    roleId ∈ plan.displayEntities ∨ roleId ∈ contract.displayEntities
  again : conformOutputPlanToShape repr result (some contract) catalog tool = .ok result

theorem completedOutputs_subset (hcontract : Admitted catalog tool contract) {name : String}
    (h : name ∈ completedOutputs plan contract.completionGroups) :
    name ∈ plan.requiredOutputs ∨ name ∈ contract.requiredOutputs := by
  rcases Completion.pass_subset_union (mem_completedOutputs.1 h) with hname | ⟨group, hgroup, hname⟩
  · exact Or.inl hname
  · exact Or.inr (hcontract.groups group hgroup hname)

theorem conform_keeps (hcontract : Admitted catalog tool contract)
    (hplan : plan.requiredOutputs.Nodup)
    (h : conformOutputPlanToShape repr plan (some contract) catalog tool = .ok result) :
    Keeps repr catalog tool plan result contract := by
  obtain ⟨⟨hroles, houtputs⟩, rfl⟩ := (conformOutputPlanToShape_eq_ok hcontract).1 h
  obtain ⟨hfront, hnodup⟩ := @prefix_foldl_completeGroup contract.completionGroups
    plan.requiredOutputs plan.requiredOutputs hplan
  have hcompleted : ∀ name ∈ contract.requiredOutputs,
      name ∈ completedOutputs plan contract.completionGroups := fun name hname =>
    mem_completedOutputs.2 (houtputs name hname)
  have hselected : ∀ roleId ∈ contract.displayEntities, roleId ∈ plan.displayEntities ++
      addedRoles catalog tool plan contract.displayEntities := by
    intro roleId hrole
    by_cases hown : roleId ∈ plan.displayEntities
    · exact List.mem_append_left _ hown
    · refine List.mem_append_right _ (List.mem_filter.2 ⟨hrole, decide_eq_true ⟨hown, ?_⟩⟩)
      exact (hroles roleId hrole).resolve_left hown
  refine ⟨hfront, List.prefix_append _ _, fun name hname =>
    completedOutputs_subset hcontract hname, fun roleId hrole => ?_, ?_⟩
  · rcases List.mem_append.1 hrole with hrole | hrole
    · exact Or.inl hrole
    · exact Or.inr (List.mem_filter.1 hrole).1
  · rw [conformOutputPlanToShape_eq_ok hcontract]
    refine ⟨⟨fun roleId hrole => Or.inl (hselected roleId hrole), fun name hname =>
      Completion.subset_pass (hcompleted name hname)⟩, ?_⟩
    have hnone : addedRoles catalog tool ⟨completedOutputs plan contract.completionGroups,
        plan.displayEntities ++ addedRoles catalog tool plan contract.displayEntities⟩
          contract.displayEntities = [] := by
      refine List.filter_eq_nil_iff.2 fun roleId hrole => ?_
      simp [hselected roleId hrole]
    have hsame : completedOutputs ⟨completedOutputs plan contract.completionGroups,
        plan.displayEntities ++ addedRoles catalog tool plan contract.displayEntities⟩
          contract.completionGroups = completedOutputs plan contract.completionGroups :=
      foldl_completeGroup_eq hnodup fun group hgroup name hname =>
        hcompleted name (hcontract.groups group hgroup hname)
    rw [hnone, hsame, List.append_nil]

/-- Two outcomes accept the same, up to the order of outputs and roles. -/
def SameOutcome (x y : Except PlanError SemanticOutputPlan) : Prop :=
  (∀ result, x = .ok result → ∃ result', y = .ok result' ∧
    result'.requiredOutputs.Perm result.requiredOutputs ∧
    result'.displayEntities.Perm result.displayEntities) ∧
  ((∃ e, x = .error e) → ∃ e, y = .error e)

/-- What is accepted for two orders is the same. -/
theorem perm_of_reordered (hcontract : Admitted catalog tool contract)
    (hplan : plan.requiredOutputs.Nodup) (horder : Reordered contract contract')
    {result' : SemanticOutputPlan}
    (h : conformOutputPlanToShape repr plan (some contract) catalog tool = .ok result)
    (h' : conformOutputPlanToShape repr plan (some contract') catalog tool = .ok result') :
    result'.requiredOutputs.Perm result.requiredOutputs ∧
      result'.displayEntities.Perm result.displayEntities := by
  have hcontract' := horder.admitted hcontract
  obtain ⟨⟨-, houtputs⟩, rfl⟩ := (conformOutputPlanToShape_eq_ok hcontract).1 h
  obtain ⟨⟨-, houtputs'⟩, rfl⟩ := (conformOutputPlanToShape_eq_ok hcontract').1 h'
  have hmem : ∀ {c : ResultShapeSourceSpec}, Admitted catalog tool c →
      (∀ name ∈ c.requiredOutputs, name ∈ Completion.pass c.completionGroups plan.own) →
      ∀ name, name ∈ completedOutputs plan c.completionGroups ↔
        name ∈ plan.requiredOutputs ∨ name ∈ c.requiredOutputs := by
    intro c hc hall name
    refine ⟨completedOutputs_subset hc, ?_⟩
    rintro (hname | hname)
    · exact mem_completedOutputs.2 (Completion.subset_pass hname)
    · exact mem_completedOutputs.2 (hall name hname)
  refine ⟨?_, ?_⟩
  · refine (List.perm_ext_iff_of_nodup (prefix_foldl_completeGroup hplan).2
      (prefix_foldl_completeGroup hplan).2).2 fun name => ?_
    exact (hmem hcontract' houtputs' name).trans
      (horder.outputs ▸ (hmem hcontract houtputs name).symm)
  · exact (horder.roles.filter _).append_left _

/-! ### Completion by closure -/

/-- The completion of a plan is its closure, in every order of the contract. -/
structure OrderFreeClosure (repr : Json → String) (catalog : QuerySemanticCatalog)
    (tool : ToolName) (plan : SemanticOutputPlan) (contract : ResultShapeSourceSpec) : Prop where
  accepts : (∃ result,
      conformOutputPlanToShape repr plan (some contract) catalog tool = .ok result) ↔
    Meets catalog tool plan contract (Completion.closure contract.completionGroups plan.own)
      (Completion.closure contract.completionGroups plan.own)
  order_free : ∀ contract', Reordered contract contract' →
    SameOutcome (conformOutputPlanToShape repr plan (some contract) catalog tool)
      (conformOutputPlanToShape repr plan (some contract') catalog tool)
  keeps : ∀ result, conformOutputPlanToShape repr plan (some contract) catalog tool = .ok result →
    Keeps repr catalog tool plan result contract

/-- One round meets the contract: each of its outputs is selected or shares a group with one that
is, and each of its roles is selected or has a key that is. -/
def OneRound (catalog : QuerySemanticCatalog) (tool : ToolName) (plan : SemanticOutputPlan)
    (contract : ResultShapeSourceSpec) : Prop :=
  Meets catalog tool plan contract (Completion.round contract.completionGroups plan.own) plan.own

/-- One round is enough in every order. -/
theorem OneRound.reordered (h : OneRound catalog tool plan contract)
    (horder : Reordered contract contract') :
    Meets catalog tool plan contract' (Completion.pass contract'.completionGroups plan.own)
      plan.own := by
  refine ⟨fun name hname => ?_, fun roleId hrole => h.roles roleId (horder.roles.subset hrole)⟩
  refine Completion.round_subset_pass ?_
  rw [Completion.round_perm horder.groups]
  exact h.outputs name (horder.outputs ▸ hname)

theorem orderFreeClosure_iff_of_admitted (hcontract : Admitted catalog tool contract)
    (hplan : plan.requiredOutputs.Nodup) :
    OrderFreeClosure repr catalog tool plan contract ↔
      (Meets catalog tool plan contract (Completion.closure contract.completionGroups plan.own)
        (Completion.closure contract.completionGroups plan.own) →
      OneRound catalog tool plan contract) := by
  constructor
  · intro h hmeets
    obtain ⟨result, hresult⟩ := h.accepts.2 hmeets
    have hpass := (exists_conform_iff hcontract).1 ⟨result, hresult⟩
    refine ⟨?_, hpass.roles⟩
    -- in every order of the groups the pass covers the outputs
    refine Completion.forall_perm_subset_pass_iff.1 fun groups' hgroups name hname => ?_
    have horder : Reordered contract { contract with completionGroups := groups' } :=
      ⟨.rfl, rfl, hgroups⟩
    obtain ⟨result', hresult', -⟩ := (h.order_free _ horder).1 result hresult
    exact ((exists_conform_iff (horder.admitted hcontract)).1 ⟨result', hresult'⟩).outputs name
      hname
  · intro h
    have hclosure : ∀ {c : ResultShapeSourceSpec}, Reordered contract c → ∀ result',
        conformOutputPlanToShape repr plan (some c) catalog tool = .ok result' →
        Meets catalog tool plan contract (Completion.closure contract.completionGroups plan.own)
          (Completion.closure contract.completionGroups plan.own) := by
      intro c horder result' hresult'
      have hmeets := (exists_conform_iff (horder.admitted hcontract)).1 ⟨result', hresult'⟩
      refine ⟨fun name hname => ?_, fun roleId hrole => ?_⟩
      · rw [← Completion.closure_perm horder.groups]
        exact Completion.pass_subset_closure (hmeets.outputs name (horder.outputs.symm ▸ hname))
      · exact (hmeets.roles roleId (horder.roles.symm.subset hrole)).mono
          Completion.subset_closure
    refine ⟨⟨?_, ?_⟩, fun contract' horder => ⟨?_, ?_⟩, fun result hresult =>
      conform_keeps hcontract hplan hresult⟩
    · rintro ⟨result, hresult⟩
      exact hclosure ⟨.rfl, rfl, .rfl⟩ result hresult
    · intro hmeets
      exact (exists_conform_iff hcontract).2 ((h hmeets).reordered ⟨.rfl, rfl, .rfl⟩)
    · intro result hresult
      have hround := h (hclosure ⟨.rfl, rfl, .rfl⟩ result hresult)
      obtain ⟨result', hresult'⟩ :=
        (exists_conform_iff (horder.admitted hcontract)).2 (hround.reordered horder)
      exact ⟨result', hresult', perm_of_reordered hcontract hplan horder hresult hresult'⟩
    · rintro ⟨e, he⟩
      cases hother : conformOutputPlanToShape repr plan (some contract') catalog tool with
      | error e' => exact ⟨e', rfl⟩
      | ok result' =>
        have hround := h (hclosure horder result' hother)
        obtain ⟨result, hresult⟩ :=
          (exists_conform_iff hcontract).2 (hround.reordered ⟨.rfl, rfl, .rfl⟩)
        cases he.symm.trans hresult

/-- **Completion is an order-free closure** just for the plans that the closure rejects, too, and
those that one round completes. -/
theorem orderFreeClosure_iff (repr : Json → String) (catalog : QuerySemanticCatalog)
    (tool : ToolName) (shapeId : String) (definition : ResultShapeSourceDefinition)
    (contract : ResultShapeSourceSpec) (raw : Json) (plan : SemanticOutputPlan)
    (hcontract : resultShapeSource repr catalog tool shapeId definition = .ok contract)
    (hplan : parseOutputPlan raw tool catalog = .ok plan) :
    OrderFreeClosure repr catalog tool plan contract ↔
      (Meets catalog tool plan contract (Completion.closure contract.completionGroups plan.own)
        (Completion.closure contract.completionGroups plan.own) →
      OneRound catalog tool plan contract) :=
  orderFreeClosure_iff_of_admitted (admitted_of_resultShapeSource hcontract)
    (parsed_of_parseOutputPlan hplan).requiredOutputs.2

/-! ### A chain of groups -/

/-- A catalog with the aliases of a path, and one role. -/
def pathCatalog : QuerySemanticCatalog where
  byTool _ := ⟨[("depth", ⟨none⟩), ("pathProductIds", ⟨none⟩), ("pathProductNames", ⟨none⟩)],
    by decide⟩
  identityAliases _ := ["pathProductIds"]
  sharedJoinAliases := ["pathProductIds"]
  entityRoles := ⟨[("component", ⟨fun _ => some ⟨["pathProductIds"], ["pathProductNames"]⟩,
    fun _ => []⟩)], List.nodup_singleton _⟩
  identity_subset _ := by simp [Dict.keys]
  shared_iff _ := (and_self_iff).symm
  projection_spec role hrole tool projection hprojection := by
    obtain rfl := List.mem_singleton.1 hrole
    obtain rfl := Option.some.inj hprojection
    exact ⟨List.cons_ne_nil _ _, by simp [IdentityProjection.displayAliases, Dict.keys]⟩

/-- A shape with two groups that share an alias. -/
def chainedDefinition : ResultShapeSourceDefinition where
  displayEntities := []
  requiredOutputs := ["depth", "pathProductIds", "pathProductNames"]
  rowGrain := []
  completionGroups := [["pathProductIds", "pathProductNames"], ["depth", "pathProductIds"]]
  resultInvariant := none
  invariantParameters := none

def chainedContract : ResultShapeSourceSpec :=
  ⟨[], ["depth", "pathProductIds", "pathProductNames"],
    [["pathProductIds", "pathProductNames"], ["depth", "pathProductIds"]]⟩

def shownJson : Json → String
  | .str s => "'" ++ s ++ "'"
  | _ => ""

/-- A selection of the model with one output. -/
def depthContent : Json :=
  .object [("requiredOutputs", .array [.str "depth"]), ("displayEntities", .array [])]

/-- The group that `depth` touches comes behind the one that it would have touched. -/
theorem not_orderFreeClosure_chained :
    resultShapeSource shownJson pathCatalog .graph "bom-path" chainedDefinition =
        .ok chainedContract ∧
      parseOutputPlan depthContent .graph pathCatalog = .ok ⟨["depth"], []⟩ ∧
      ¬ OrderFreeClosure shownJson pathCatalog .graph ⟨["depth"], []⟩ chainedContract := by
  refine ⟨rfl, rfl, fun h => ?_⟩
  have hclosed := @Completion.closed_closure _ chainedContract.completionGroups
    (SemanticOutputPlan.own ⟨["depth"], []⟩)
  have hdepth : "depth" ∈ Completion.closure chainedContract.completionGroups
      (SemanticOutputPlan.own ⟨["depth"], []⟩) :=
    Completion.subset_closure (List.mem_singleton_self "depth")
  have hids := hclosed ["depth", "pathProductIds"] (by decide) ⟨"depth", by decide, hdepth⟩
    "pathProductIds" (by decide)
  have hnames := hclosed ["pathProductIds", "pathProductNames"] (by decide)
    ⟨"pathProductIds", by decide, hids⟩ "pathProductNames" (by decide)
  have houtputs : ∀ name ∈ chainedContract.requiredOutputs, name ∈
      Completion.closure chainedContract.completionGroups
        (SemanticOutputPlan.own ⟨["depth"], []⟩) := by
    intro name hname
    simp only [chainedContract, List.mem_cons, List.not_mem_nil, or_false] at hname
    rcases hname with rfl | rfl | rfl
    · exact hdepth
    · exact hids
    · exact hnames
  obtain ⟨result, hresult⟩ := h.accepts.2 ⟨houtputs, fun roleId hrole => by cases hrole⟩
  have herror : conformOutputPlanToShape shownJson ⟨["depth"], []⟩ (some chainedContract)
      pathCatalog .graph = .error (incompleteShape [] ["pathProductNames"]) := rfl
  cases herror.symm.trans hresult

/-- The same for the chained groups. -/
theorem orderFreeClosure_iff_chained :
    OrderFreeClosure shownJson pathCatalog .graph ⟨["depth"], []⟩ chainedContract ↔
      (Meets pathCatalog .graph ⟨["depth"], []⟩ chainedContract
        (Completion.closure chainedContract.completionGroups
          (SemanticOutputPlan.own ⟨["depth"], []⟩))
        (Completion.closure chainedContract.completionGroups
          (SemanticOutputPlan.own ⟨["depth"], []⟩)) →
      OneRound pathCatalog .graph ⟨["depth"], []⟩ chainedContract) :=
  orderFreeClosure_iff shownJson pathCatalog .graph "bom-path" chainedDefinition chainedContract
    depthContent ⟨["depth"], []⟩ rfl rfl

end Planning
