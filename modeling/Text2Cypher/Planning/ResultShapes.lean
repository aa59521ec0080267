import Text2Cypher.Library.Completion
import Text2Cypher.Planning.Outputs

/-!
# Result shapes

A question that matches a result shape has a contract for every source: roles and outputs that a
plan must have, and groups of outputs that are completed together.
`conform_output_plan_to_shape` completes a plan, or asks for a new one.

* `validateDefinition`, `resultShapeSource`: the contracts that a catalog can have;
* `addRoles_eq`, `mem_completeGroups`: what is added to the roles and to the outputs;
* `conformOutputPlanToShape_eq_ok`: when a plan is accepted, and what it becomes.
-/

namespace Planning

open Checks

/-! ### Contracts -/

/-- `ResultShapeSourceDefinition`, as the ontology has it. -/
structure ResultShapeSourceDefinition where
  displayEntities : List String
  requiredOutputs : List String
  rowGrain : List String
  completionGroups : List (List String)
  resultInvariant : Option String
  /-- `minHops` -/
  invariantParameters : Option ℕ

/-- `ResultShapeSourceSpec`, as far as plans are concerned. -/
structure ResultShapeSourceSpec where
  displayEntities : List String
  requiredOutputs : List String
  completionGroups : List (List String)

/-- `_validate_unique`. -/
def validateUnique (values : List String) (label : String) : Except PlanError Unit :=
  require values.Nodup (.valueError (label ++ "s must be unique"))

/-- The checks of one completion group. -/
def validateGroup (requiredOutputs group : List String) : Except PlanError Unit := do
  require (group ≠ [] ∧ group.Nodup)
    (.valueError "shape completion groups must be non-empty and unique")
  require (∀ name ∈ group, name ∈ requiredOutputs)
    (.valueError "shape completion groups must be subsets of requiredOutputs")

/-- `ResultShapeSourceDefinition.validate_definition`. -/
def validateDefinition (definition : ResultShapeSourceDefinition) : Except PlanError Unit := do
  validateUnique definition.displayEntities "shape display entity"
  validateUnique definition.requiredOutputs "shape required output"
  validateUnique definition.rowGrain "shape row grain"
  forEach (validateGroup definition.requiredOutputs) definition.completionGroups
  require (definition.resultInvariant.isNone = definition.invariantParameters.isNone)
    (.valueError "resultInvariant and invariantParameters must be defined together")

section

variable (repr : Json → String)

/-- The contract of one source of a shape, once the definition is valid: a catalog is built with
what the source has only. -/
def resultShapeSource (catalog : QuerySemanticCatalog) (tool : ToolName) (shapeId : String)
    (definition : ResultShapeSourceDefinition) : Except PlanError ResultShapeSourceSpec := do
  validateDefinition definition
  let unknownRoles := definition.displayEntities.filter (· ∉ catalog.allowedEntityRoles tool)
  let unknownAliases := (definition.requiredOutputs ++ definition.rowGrain).filter
    (· ∉ catalog.allowedAliases tool)
  require (unknownRoles = [] ∧ unknownAliases = []) (.valueError
    ("result shape " ++ repr (.str shapeId) ++ " references values unavailable from " ++
      toolText tool ++ ": " ++ joinSorted (unknownRoles ++ unknownAliases)))
  return ⟨definition.displayEntities, definition.requiredOutputs, definition.completionGroups⟩

/-! ### Completing a plan -/

/-- The roles of the contract that have a key among the selected aliases are added. -/
def addRoles (catalog : QuerySemanticCatalog) (tool : ToolName) (selectedAliases : List String) :
    List String → List String → Except PlanError (List String)
  | displayEntities, [] => .ok displayEntities
  | displayEntities, roleId :: roleIds =>
      if roleId ∈ displayEntities then
        addRoles catalog tool selectedAliases displayEntities roleIds
      else do
        let projection ← catalog.identityProjection repr roleId tool
        addRoles catalog tool selectedAliases
          (if ∃ key ∈ projection.keys, key ∈ selectedAliases then displayEntities ++ [roleId]
            else displayEntities) roleIds

/-- One group: `required_outputs` and `selected_aliases` after it. -/
def completeGroup (state : List String × List String) (group : List String) :
    List String × List String :=
  if ∃ name ∈ group, name ∈ state.2 then (orderedUnion [state.1, group], state.2 ++ group)
  else state

/-- The text of what is missing. -/
def incompleteShape (missingRoles missingOutputs : List String) : PlanError :=
  .valueError ("matched result shape is incomplete: " ++ "; ".intercalate
    ((if missingRoles = [] then [] else ["displayEntities=" ++ ",".intercalate missingRoles]) ++
      if missingOutputs = [] then []
      else ["requiredOutputs=" ++ ",".intercalate missingOutputs]))

/-- `conform_output_plan_to_shape`. -/
def conformOutputPlanToShape (plan : SemanticOutputPlan) (contract : Option ResultShapeSourceSpec)
    (catalog : QuerySemanticCatalog) (tool : ToolName) : Except PlanError SemanticOutputPlan :=
  match contract with
  | none => .ok plan
  | some contract => do
      let displayEntities ← addRoles repr catalog tool plan.requiredOutputs plan.displayEntities
        contract.displayEntities
      let requiredOutputs := (contract.completionGroups.foldl completeGroup
        (plan.requiredOutputs, plan.requiredOutputs)).1
      let missingRoles := contract.displayEntities.filter (· ∉ displayEntities)
      let missingOutputs := contract.requiredOutputs.filter (· ∉ requiredOutputs)
      require (missingRoles = [] ∧ missingOutputs = [])
        (incompleteShape missingRoles missingOutputs)
      return ⟨requiredOutputs, displayEntities⟩

end

/-! ### What contracts satisfy -/

/-- A contract that a catalog can have. -/
structure Admitted (catalog : QuerySemanticCatalog) (tool : ToolName)
    (contract : ResultShapeSourceSpec) : Prop where
  roles : contract.displayEntities ⊆ catalog.allowedEntityRoles tool
  roles_nodup : contract.displayEntities.Nodup
  outputs : contract.requiredOutputs ⊆ catalog.allowedAliases tool
  groups : ∀ group ∈ contract.completionGroups, group ⊆ contract.requiredOutputs

variable {repr : Json → String} {catalog : QuerySemanticCatalog} {tool : ToolName}

theorem admitted_of_resultShapeSource {shapeId : String}
    {definition : ResultShapeSourceDefinition} {contract : ResultShapeSourceSpec}
    (h : resultShapeSource repr catalog tool shapeId definition = .ok contract) :
    Admitted catalog tool contract := by
  simp only [resultShapeSource, validateDefinition, validateUnique, validateGroup, bind_eq_ok,
    require_eq_ok, pure_eq_ok, forEach_eq_ok, List.filter_eq_nil_iff, decide_eq_true_eq,
    not_not, List.mem_append] at h
  obtain ⟨_, ⟨_, hroles, _, -, _, -, _, hgroups, -⟩, _, ⟨hallowed, haliases⟩, rfl⟩ := h
  refine ⟨fun role hrole => hallowed role hrole, hroles, fun name hname =>
    haliases name (Or.inl hname), fun group hgroup => ?_⟩
  obtain ⟨_, -, hsub⟩ := hgroups group hgroup
  exact hsub

/-! ### Roles -/

/-- The keys of a role in a source. -/
def roleKeys (catalog : QuerySemanticCatalog) (tool : ToolName) (roleId : String) : List String :=
  match catalog.entityRoles.get? roleId with
  | none => []
  | some role => (role.projections tool).elim [] IdentityProjection.keys

theorem identityProjection_eq {roleId : String} (h : roleId ∈ catalog.allowedEntityRoles tool) :
    ∃ projection, catalog.identityProjection repr roleId tool = .ok projection ∧
      roleKeys catalog tool roleId = projection.keys := by
  obtain ⟨role, projection, hrole, hprojection, -⟩ := catalog.exists_projection h
  refine ⟨projection, ?_, ?_⟩
  · simp only [QuerySemanticCatalog.identityProjection, hrole, hprojection]
  · simp only [roleKeys, hrole, hprojection]
    rfl

/-- The roles that are added. -/
def addedRoles (catalog : QuerySemanticCatalog) (tool : ToolName) (plan : SemanticOutputPlan)
    (roleIds : List String) : List String :=
  roleIds.filter fun roleId => roleId ∉ plan.displayEntities ∧
    ∃ key ∈ roleKeys catalog tool roleId, key ∈ plan.requiredOutputs

theorem addRoles_eq {selectedAliases displayEntities roleIds : List String}
    (h : roleIds ⊆ catalog.allowedEntityRoles tool) (hnodup : roleIds.Nodup) :
    addRoles repr catalog tool selectedAliases displayEntities roleIds =
      .ok (displayEntities ++ roleIds.filter fun roleId => roleId ∉ displayEntities ∧
        ∃ key ∈ roleKeys catalog tool roleId, key ∈ selectedAliases) := by
  induction roleIds generalizing displayEntities with
  | nil => simp [addRoles]
  | cons roleId roleIds ih =>
    obtain ⟨hrole, hroles⟩ := List.cons_subset.1 h
    obtain ⟨hnew, hnodup⟩ := List.nodup_cons.1 hnodup
    obtain ⟨projection, hprojection, hkeys⟩ := @identityProjection_eq repr catalog tool _ hrole
    rw [addRoles]
    split_ifs with hselected
    · rw [ih hroles hnodup, List.filter_cons_of_neg (by simp [hselected])]
    · rw [hprojection, ok_bind]
      split_ifs with hkey
      · have hlater : roleIds.filter (fun other => other ∉ displayEntities ++ [roleId] ∧
            ∃ key ∈ roleKeys catalog tool other, key ∈ selectedAliases) =
            roleIds.filter (fun other => other ∉ displayEntities ∧
              ∃ key ∈ roleKeys catalog tool other, key ∈ selectedAliases) := by
          refine List.filter_congr fun other hother => ?_
          have hne : other ≠ roleId := fun heq => hnew (heq ▸ hother)
          simp [hne]
        rw [ih hroles hnodup, hlater, List.append_assoc, List.singleton_append,
          List.filter_cons_of_pos]
        rw [hkeys]
        exact decide_eq_true ⟨hselected, hkey⟩
      · rw [ih hroles hnodup, List.filter_cons_of_neg]
        rw [hkeys]
        simpa [hselected] using hkey

/-! ### Outputs -/

/-- The outputs after all groups. -/
def completedOutputs (plan : SemanticOutputPlan) (groups : List (List String)) : List String :=
  (groups.foldl completeGroup (plan.requiredOutputs, plan.requiredOutputs)).1

/-- What both lists of the loop hold is a pass over the groups. -/
theorem foldl_completeGroup {groups : List (List String)} {outputs selected : List String}
    {s : Set String} (houtputs : ∀ name, name ∈ outputs ↔ name ∈ s)
    (hselected : ∀ name, name ∈ selected ↔ name ∈ s) (name : String) :
    name ∈ (groups.foldl completeGroup (outputs, selected)).1 ↔
      name ∈ Completion.pass groups s := by
  induction groups generalizing outputs selected s with
  | nil => exact houtputs name
  | cons group groups ih =>
    have htouches : (∃ name ∈ group, name ∈ selected) ↔ Completion.Touches group s :=
      exists_congr fun name => and_congr_right fun _ => hselected name
    rw [List.foldl_cons, Completion.pass, List.foldl_cons, ← Completion.pass, completeGroup]
    split_ifs with h
    · refine ih (fun other => ?_) fun other => ?_
      · rw [mem_orderedUnion, List.exists_mem_cons_iff, List.exists_mem_cons_iff, houtputs]
        simp [Completion.complete, htouches.1 h]
      · rw [List.mem_append, hselected]
        simp [Completion.complete, htouches.1 h]
    · have hcomplete : Completion.complete s group = s := by
        ext other
        exact ⟨fun hother => hother.resolve_right fun hin => h (htouches.2 hin.1), Or.inl⟩
      rw [hcomplete]
      exact ih houtputs hselected

theorem mem_completedOutputs {plan : SemanticOutputPlan} {groups : List (List String)}
    {name : String} : name ∈ completedOutputs plan groups ↔
      name ∈ Completion.pass groups {name | name ∈ plan.requiredOutputs} :=
  foldl_completeGroup (fun _ => Iff.rfl) (fun _ => Iff.rfl) name

theorem prefix_foldl_completeGroup {groups : List (List String)} {outputs selected : List String}
    (h : outputs.Nodup) :
    outputs <+: (groups.foldl completeGroup (outputs, selected)).1 ∧
      (groups.foldl completeGroup (outputs, selected)).1.Nodup := by
  induction groups generalizing outputs selected with
  | nil => exact ⟨List.prefix_rfl, h⟩
  | cons group groups ih =>
    rw [List.foldl_cons, completeGroup]
    split_ifs with htouched
    · obtain ⟨hfront, hnodup⟩ := @ih (orderedUnion [outputs, group]) (selected ++ group)
        (nodup_orderedUnion _)
      exact ⟨(prefix_orderedUnion h [group]).trans hfront, hnodup⟩
    · exact ih h

/-- Groups that are there change nothing. -/
theorem foldl_completeGroup_eq {groups : List (List String)} {outputs selected : List String}
    (h : outputs.Nodup) (hgroups : ∀ group ∈ groups, group ⊆ outputs) :
    (groups.foldl completeGroup (outputs, selected)).1 = outputs := by
  induction groups generalizing selected with
  | nil => rfl
  | cons group groups ih =>
    obtain ⟨hgroup, hgroups⟩ := List.forall_mem_cons.1 hgroups
    have hunion : orderedUnion [outputs, group] = outputs := by
      obtain ⟨rest, hrest⟩ := prefix_orderedUnion h [group]
      cases rest with
      | nil => rw [← hrest, List.append_nil]
      | cons name rest =>
        have hname : name ∈ orderedUnion [outputs, group] := by
          rw [← hrest]
          simp
        have hin : name ∈ outputs := by
          rw [mem_orderedUnion, List.exists_mem_cons_iff, List.exists_mem_cons_iff] at hname
          rcases hname with hname | hname | hname
          · exact hname
          · exact hgroup hname
          · simp at hname
        have hnodup := nodup_orderedUnion [outputs, group]
        rw [← hrest, List.nodup_append] at hnodup
        exact absurd rfl (hnodup.2.2 name hin name List.mem_cons_self)
    rw [List.foldl_cons, completeGroup]
    split_ifs with htouched
    · rw [hunion]
      exact ih hgroups
    · exact ih hgroups

/-! ### Accepted plans -/

variable {plan result : SemanticOutputPlan} {contract : ResultShapeSourceSpec}

/-- A role is selected, or it has a key in a set of outputs. -/
def RoleKnown (catalog : QuerySemanticCatalog) (tool : ToolName) (plan : SemanticOutputPlan)
    (outputs : Set String) (roleId : String) : Prop :=
  roleId ∈ plan.displayEntities ∨ ∃ key ∈ roleKeys catalog tool roleId, key ∈ outputs

/-- The aliases that the plan selects itself. -/
def SemanticOutputPlan.own (plan : SemanticOutputPlan) : Set String :=
  {name | name ∈ plan.requiredOutputs}

/-- **When a plan is accepted**, and what it becomes. -/
theorem conformOutputPlanToShape_eq_ok (h : Admitted catalog tool contract) :
    conformOutputPlanToShape repr plan (some contract) catalog tool = .ok result ↔
      ((∀ roleId ∈ contract.displayEntities, RoleKnown catalog tool plan plan.own roleId) ∧
        ∀ name ∈ contract.requiredOutputs,
          name ∈ Completion.pass contract.completionGroups plan.own) ∧
      result = ⟨completedOutputs plan contract.completionGroups,
        plan.displayEntities ++ addedRoles catalog tool plan contract.displayEntities⟩ := by
  have hroles : contract.displayEntities.filter (fun roleId =>
      roleId ∉ plan.displayEntities ++ addedRoles catalog tool plan contract.displayEntities) = [] ↔
        ∀ roleId ∈ contract.displayEntities, RoleKnown catalog tool plan plan.own roleId := by
    rw [List.filter_eq_nil_iff]
    refine forall₂_congr fun roleId hrole => ?_
    simp only [decide_eq_true_eq, not_not, List.mem_append, addedRoles, List.mem_filter, hrole,
      true_and, RoleKnown]
    constructor
    · exact fun hmem => hmem.imp_right And.right
    · intro hknown
      by_cases hselected : roleId ∈ plan.displayEntities
      · exact Or.inl hselected
      · exact Or.inr ⟨hselected, hknown.resolve_left hselected⟩
  have houtputs : contract.requiredOutputs.filter (fun name =>
      name ∉ completedOutputs plan contract.completionGroups) = [] ↔
        ∀ name ∈ contract.requiredOutputs,
          name ∈ Completion.pass contract.completionGroups plan.own := by
    rw [List.filter_eq_nil_iff]
    refine forall₂_congr fun name _ => ?_
    rw [decide_eq_true_eq, not_not, mem_completedOutputs]
    rfl
  simp only [conformOutputPlanToShape, addRoles_eq h.roles h.roles_nodup, ok_bind, bind_eq_ok,
    require_eq_ok, pure_eq_ok]
  rw [← hroles, ← houtputs]
  constructor
  · rintro ⟨_, hnone, rfl⟩
    exact ⟨hnone, rfl⟩
  · rintro ⟨hnone, rfl⟩
    exact ⟨(), hnone, rfl⟩

end Planning
