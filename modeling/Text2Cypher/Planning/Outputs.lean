import Text2Cypher.Planning.Routes

/-!
# Planning the outputs of a route

The model selects aliases and entity roles for every source; `compile_semantic_output_plan` adds the
keys and labels of the roles, `finalize_required_outputs` the aliases that joins and later bindings
read, and the result goes through `validate_subqueries`.

* `parsed_of_parseOutputPlan`: what an accepted selection satisfies;
* `outgoing_spec`: the aliases that later bindings read from each source;
* `finalizeRequiredOutputs_eq_ok`: when the finalizer accepts, and what it returns.
-/

namespace Planning

open Checks

structure SemanticOutputPlan where
  requiredOutputs : List String
  displayEntities : List String

/-- Append what is not there yet. -/
def addNew (result : List String) (item : String) : List String :=
  if item ∈ result then result else result ++ [item]

/-- `_ordered_union`. -/
def orderedUnion (groups : List (List String)) : List String := groups.flatten.foldl addNew []

section

variable (repr : Json → String)

/-- `_parse_alias_array`. -/
def parseAliasArray (value : Json) (fieldName : String) (allowed : List String)
    (allowEmpty : Bool) : Except PlanError (List String) :=
  match value with
  | .array items =>
      match items.mapM nonBlank? with
      | some outputs => do
          require (allowEmpty = true ∨ outputs ≠ [])
            (.valueError (fieldName ++ " must be a non-empty string array"))
          require outputs.Nodup (.valueError (fieldName ++ " contains duplicate values"))
          let unknown := outputs.filter (· ∉ allowed)
          require (unknown = []) (.valueError
            (fieldName ++ " contains unavailable values: " ++ joinSorted unknown))
          return outputs
      | none => .error (.valueError (fieldName ++ " must be a string array"))
  | _ => .error (.valueError (fieldName ++ " must be a string array"))

/-- `_parse_output_plan`, behind `json.loads`. -/
def parseOutputPlan (raw : Json) (tool : ToolName) (catalog : QuerySemanticCatalog) :
    Except PlanError SemanticOutputPlan :=
  let invalid : PlanError :=
    .valueError ("output planner response has invalid fields for " ++ toolText tool)
  match raw with
  | .object fields => do
      let names := ["requiredOutputs", "displayEntities"]
      require ((∀ field ∈ fields, field.1 ∈ names) ∧ ∀ name ∈ names, name ∈ fields.map Prod.fst)
        invalid
      let requiredOutputs ← parseAliasArray ((Json.get? fields "requiredOutputs").getD .null)
        "requiredOutputs" (catalog.allowedAliases tool) (tool = .graph)
      let displayEntities ← parseAliasArray ((Json.get? fields "displayEntities").getD .null)
        "displayEntities" (catalog.allowedEntityRoles tool) true
      require (¬ (tool = .graph ∧ requiredOutputs = [] ∧ displayEntities = []))
        (.valueError "requiredOutputs and displayEntities must not both be empty")
      return ⟨requiredOutputs, displayEntities⟩
  | _ => .error invalid

/-- The keys and labels of the selected roles. -/
def identityOutputs (catalog : QuerySemanticCatalog) (tool : ToolName) :
    List String → Except PlanError (List String)
  | [] => .ok []
  | role :: roles => do
      let projection ← catalog.identityProjection repr role tool
      let outputs ← identityOutputs catalog tool roles
      return projection.displayAliases ++ outputs

/-- `compile_semantic_output_plan`. -/
def compileSemanticOutputPlan (plan : SemanticOutputPlan) (catalog : QuerySemanticCatalog)
    (tool : ToolName) : Except PlanError (List String) := do
  let outputs ← identityOutputs repr catalog tool plan.displayEntities
  return orderedUnion [plan.requiredOutputs, outputs]

/-- The rule that a predicate of a role becomes. -/
def roleRule (roleId : String) (predicate : TypedPredicate) : String :=
  "entity role " ++ roleId ++ "은(는) " ++ predicate.field ++ " " ++ predicate.operator ++ " " ++
    repr predicate.value ++ " predicate를 반드시 적용한다."

/-- `compile_entity_role_generator_rules`. -/
def compileEntityRoleGeneratorRules (catalog : QuerySemanticCatalog) (tool : ToolName) :
    List String → Except PlanError (List String)
  | [] => .ok []
  | roleId :: roleIds =>
      match catalog.entityRoles.get? roleId with
      | none => .error (.keyError roleId)
      | some role => do
          let rules ← compileEntityRoleGeneratorRules catalog tool roleIds
          return (role.predicates tool).map (roleRule repr roleId) ++ rules

def orderedPathRule : String :=
  "orderedPathProjection " ++ "방향은 원 질문과 source responsibility에 표현된 경로 " ++
  "origin 및 destination을 기준으로 결정한다. displayEntities 순서, required " ++
  "output 순서 및 물리 MATCH 방향은 이 의미 방향을 결정하지 않는다."

/-- The specifications of the selected aliases. -/
def selectedSpecs (catalog : QuerySemanticCatalog) : List String → Except PlanError (List AliasSpec)
  | [] => .ok []
  | name :: names =>
      match (catalog.byTool .graph).get? name with
      | none => .error (.keyError name)
      | some spec => do
          let specs ← selectedSpecs catalog names
          return spec :: specs

/-- `compile_graph_generator_rules`. -/
def compileGraphGeneratorRules (catalog : QuerySemanticCatalog) (selectedOutputs : List String) :
    Except PlanError (List String) := do
  let specs ← selectedSpecs catalog selectedOutputs
  return if ∃ spec ∈ specs, spec.operation = some .orderedPathProjection then [orderedPathRule]
    else []

/-- One round of the checks of `finalize_required_outputs`. -/
def checkOwned (catalog : QuerySemanticCatalog) (tool : ToolName) (fieldName : String)
    (aliases : List String) : Except PlanError Unit := do
  require aliases.Nodup (.valueError (fieldName ++ " contains duplicate aliases"))
  let unknown := aliases.filter (· ∉ catalog.allowedAliases tool)
  require (unknown = []) (.valueError
    (toolText tool ++ " source does not own " ++ fieldName ++ ": " ++ joinSorted unknown))

/-- `finalize_required_outputs`. -/
def finalizeRequiredOutputs (selectedOutputs joinKeys outgoingBindingSources : List String)
    (catalog : QuerySemanticCatalog) (tool : ToolName) : Except PlanError (List String) := do
  checkOwned catalog tool "selectedOutputs" selectedOutputs
  checkOwned catalog tool "joinKeys" joinKeys
  checkOwned catalog tool "outgoingBindingSources" outgoingBindingSources
  return orderedUnion [selectedOutputs, joinKeys, outgoingBindingSources]

/-- One binding source of `_outgoing_binding_outputs`. -/
def noteOutgoing (result : Dict String (List String)) (source : String) :
    Except PlanError (Dict String (List String)) :=
  match splitDot source with
  | none => .error (.valueError "not enough values to unpack (expected 2, got 1)")
  | some (sourceId, output) =>
      match result.get? sourceId with
      | none => .error (.valueError
          ("binding references unknown producer subquery " ++ repr (.str sourceId)))
      | some outputs => .ok (result.set sourceId (addNew outputs output))

def noteAllOutgoing (result : Dict String (List String)) :
    List String → Except PlanError (Dict String (List String))
  | [] => .ok result
  | source :: sources => do
      let result ← noteOutgoing repr result source
      noteAllOutgoing result sources

/-- `{item["id"]: [] for item in route_subqueries}`. -/
def noOutputs (route : List RouteSubquery) : Dict String (List String) :=
  route.foldl (fun result item => result.set item.id []) .empty

/-- `_outgoing_binding_outputs`. -/
def outgoingBindingOutputs (route : List RouteSubquery) :
    Except PlanError (Dict String (List String)) :=
  noteAllOutgoing repr (noOutputs route) (route.flatMap fun item => item.inputBindings.values)

/-- `_with_required_outputs`. -/
def withRequiredOutputs (routeSubquery : RouteSubquery) (requiredOutputs : List String)
    (generatorRules : List String) : Subquery where
  id := routeSubquery.id
  tool := routeSubquery.tool
  question := routeSubquery.question
  dependsOn := routeSubquery.dependsOn
  requiredOutputs := requiredOutputs
  joinKeys := routeSubquery.joinKeys
  inputBindings := routeSubquery.inputBindings
  generatorRules := generatorRules

/-- The rules of one source. -/
def generatorRules (plan : SemanticOutputPlan) (catalog : QuerySemanticCatalog) (tool : ToolName)
    (selected : List String) : Except PlanError (List String) := do
  let rules ← compileEntityRoleGeneratorRules repr catalog tool plan.displayEntities
  match tool with
  | .graph => do
      let graphRules ← compileGraphGeneratorRules catalog selected
      return rules ++ graphRules
  | .sql => return rules

/-- `plan_one`, for a selection that the model has made. -/
def planOne (catalog : QuerySemanticCatalog) (outgoing : Dict String (List String))
    (plan : SemanticOutputPlan) (item : RouteSubquery) : Except PlanError Subquery := do
  let selected ← compileSemanticOutputPlan repr plan catalog item.tool
  let rules ← generatorRules repr plan catalog item.tool selected
  match outgoing.get? item.id with
  | none => .error (.keyError item.id)
  | some outgoingBindingSources => do
      let outputs ←
        finalizeRequiredOutputs selected item.joinKeys outgoingBindingSources catalog item.tool
      return withRequiredOutputs item outputs rules

/-- The planned list, before `validate_subqueries` reads it; `plans` holds the selection for each
subquery. -/
def planRoute (catalog : QuerySemanticCatalog) (route : List RouteSubquery)
    (plans : String → SemanticOutputPlan) : Except PlanError (List Subquery) := do
  let outgoing ← outgoingBindingOutputs repr route
  each (fun item => planOne repr catalog outgoing (plans item.id) item) route

end

/-! ### Unions in order -/

theorem mem_foldl_addNew {items result : List String} {name : String} :
    name ∈ items.foldl addNew result ↔ name ∈ result ∨ name ∈ items := by
  induction items generalizing result with
  | nil => simp
  | cons item items ih =>
    rw [List.foldl_cons, ih, addNew, List.mem_cons]
    split_ifs with h
    · constructor
      · exact fun hname => hname.imp id Or.inr
      · rintro (hname | rfl | hname)
        · exact Or.inl hname
        · exact Or.inl h
        · exact Or.inr hname
    · rw [List.mem_append, List.mem_singleton, or_assoc]

theorem nodup_addNew {result : List String} {item : String} (h : result.Nodup) :
    (addNew result item).Nodup := by
  unfold addNew
  split_ifs with hitem
  · exact h
  · refine List.nodup_append.2 ⟨h, List.nodup_singleton _, ?_⟩
    rintro a ha b hb rfl
    exact hitem (List.mem_singleton.1 hb ▸ ha)

theorem nodup_foldl_addNew {items result : List String} (h : result.Nodup) :
    (items.foldl addNew result).Nodup := by
  induction items generalizing result with
  | nil => exact h
  | cons item items ih => exact ih (nodup_addNew h)

theorem prefix_foldl_addNew {items result : List String} :
    result <+: items.foldl addNew result := by
  induction items generalizing result with
  | nil => exact List.prefix_rfl
  | cons item items ih =>
    refine List.IsPrefix.trans ?_ ih
    unfold addNew
    split_ifs
    · exact List.prefix_rfl
    · exact List.prefix_append _ _

theorem foldl_addNew_eq_append {items result : List String} (h : (result ++ items).Nodup) :
    items.foldl addNew result = result ++ items := by
  induction items generalizing result with
  | nil => exact (List.append_nil result).symm
  | cons item items ih =>
    have hitem : item ∉ result := fun hmem =>
      (List.nodup_append.1 h).2.2 _ hmem _ List.mem_cons_self rfl
    rw [List.append_cons] at h
    rw [List.foldl_cons, addNew, if_neg hitem, ih h, List.append_assoc, List.singleton_append]

theorem mem_orderedUnion {groups : List (List String)} {name : String} :
    name ∈ orderedUnion groups ↔ ∃ group ∈ groups, name ∈ group := by
  rw [orderedUnion, mem_foldl_addNew, List.mem_flatten]
  simp only [List.not_mem_nil, false_or]

theorem nodup_orderedUnion (groups : List (List String)) : (orderedUnion groups).Nodup :=
  nodup_foldl_addNew List.nodup_nil

/-- A group without repetitions begins its unions. -/
theorem prefix_orderedUnion {group : List String} (h : group.Nodup) (groups : List (List String)) :
    group <+: orderedUnion (group :: groups) := by
  have hgroup : group.foldl addNew [] = [] ++ group := foldl_addNew_eq_append h
  rw [orderedUnion, List.flatten_cons, List.foldl_append, hgroup]
  exact prefix_foldl_addNew

/-! ### Selections -/

variable {repr : Json → String} {catalog : QuerySemanticCatalog} {tool : ToolName}

theorem parseAliasArray_eq_ok {value : Json} {fieldName : String} {allowed outputs : List String}
    {allowEmpty : Bool} (h : parseAliasArray value fieldName allowed allowEmpty = .ok outputs) :
    StringsOk outputs ∧ outputs ⊆ allowed ∧ (allowEmpty = true ∨ outputs ≠ []) := by
  unfold parseAliasArray at h
  split at h
  · split at h
    · rename_i strings hstrings
      simp only [bind_eq_ok, require_eq_ok, pure_eq_ok] at h
      obtain ⟨_, hempty, _, hnodup, _, hunknown, rfl⟩ := h
      refine ⟨⟨(mapM_nonBlank?.1 hstrings).2, hnodup⟩, fun name hname => ?_, hempty⟩
      simpa using List.filter_eq_nil_iff.1 hunknown name hname
    · cases h
  · cases h

/-- What `_parse_output_plan` asks of a selection. -/
structure Parsed (catalog : QuerySemanticCatalog) (tool : ToolName) (plan : SemanticOutputPlan) :
    Prop where
  requiredOutputs : StringsOk plan.requiredOutputs
  owned : plan.requiredOutputs ⊆ catalog.allowedAliases tool
  displayEntities : plan.displayEntities ⊆ catalog.allowedEntityRoles tool
  nonempty : plan.requiredOutputs ≠ [] ∨ plan.displayEntities ≠ []

theorem parsed_of_parseOutputPlan {raw : Json} {plan : SemanticOutputPlan}
    (h : parseOutputPlan raw tool catalog = .ok plan) : Parsed catalog tool plan := by
  unfold parseOutputPlan at h
  dsimp only at h
  split at h
  · simp only [bind_eq_ok, require_eq_ok, pure_eq_ok] at h
    obtain ⟨_, -, requiredOutputs, houtputs, displayEntities, hentities, _, hboth, rfl⟩ := h
    obtain ⟨hstrings, howned, hempty⟩ := parseAliasArray_eq_ok houtputs
    refine ⟨hstrings, howned, (parseAliasArray_eq_ok hentities).2.1, ?_⟩
    rcases hempty with hgraph | hne
    · by_contra hnone
      push Not at hnone
      exact hboth ⟨by simpa using hgraph, hnone⟩
    · exact Or.inl hne
  · cases h

/-- The keys and labels of a role in a source. -/
def roleAliases (catalog : QuerySemanticCatalog) (tool : ToolName) (roleId : String) :
    List String :=
  match catalog.entityRoles.get? roleId with
  | none => []
  | some role => (role.projections tool).elim [] IdentityProjection.displayAliases

/-- The rules of the predicates of the selected roles. -/
def roleRules (repr : Json → String) (catalog : QuerySemanticCatalog) (tool : ToolName)
    (roleIds : List String) : List String :=
  roleIds.flatMap fun roleId =>
    match catalog.entityRoles.get? roleId with
    | none => []
    | some role => (role.predicates tool).map (roleRule repr roleId)

/-- Roles of the source are looked up without an error. -/
theorem identityOutputs_eq {roles : List String} (h : roles ⊆ catalog.allowedEntityRoles tool) :
    identityOutputs repr catalog tool roles = .ok (roles.flatMap (roleAliases catalog tool)) := by
  induction roles with
  | nil => rfl
  | cons roleId roles ih =>
    obtain ⟨hrole, hroles⟩ := List.cons_subset.1 h
    obtain ⟨role, projection, hget, hprojection, -, -⟩ :=
      QuerySemanticCatalog.exists_projection hrole
    simp only [identityOutputs, QuerySemanticCatalog.identityProjection, hget, hprojection,
      ih hroles, roleAliases, List.flatMap_cons, Option.elim_some]
    rfl

theorem compileEntityRoleGeneratorRules_eq (repr : Json → String) {roles : List String}
    (h : roles ⊆ catalog.allowedEntityRoles tool) :
    compileEntityRoleGeneratorRules repr catalog tool roles =
      .ok (roleRules repr catalog tool roles) := by
  induction roles with
  | nil => rfl
  | cons roleId roles ih =>
    obtain ⟨hrole, hroles⟩ := List.cons_subset.1 h
    obtain ⟨role, projection, hget, -⟩ := QuerySemanticCatalog.exists_projection hrole
    simp only [compileEntityRoleGeneratorRules, hget, ih hroles, roleRules, List.flatMap_cons]
    rfl

theorem roleAliases_subset {roleId : String} (h : roleId ∈ catalog.allowedEntityRoles tool) :
    roleAliases catalog tool roleId ≠ [] ∧
      roleAliases catalog tool roleId ⊆ catalog.allowedAliases tool := by
  obtain ⟨role, projection, hget, hprojection, hkeys, hsubset⟩ :=
    QuerySemanticCatalog.exists_projection h
  simp only [roleAliases, hget, hprojection, Option.elim_some]
  exact ⟨fun hnil => hkeys (List.append_eq_nil_iff.1 hnil).1, hsubset⟩

/-- What the model's selection is completed to. -/
def selectedOutputs (catalog : QuerySemanticCatalog) (tool : ToolName)
    (plan : SemanticOutputPlan) : List String :=
  orderedUnion [plan.requiredOutputs, plan.displayEntities.flatMap (roleAliases catalog tool)]

namespace Parsed

variable {plan : SemanticOutputPlan}

theorem compile_eq (h : Parsed catalog tool plan) :
    compileSemanticOutputPlan repr plan catalog tool =
      .ok (selectedOutputs catalog tool plan) := by
  rw [compileSemanticOutputPlan, identityOutputs_eq h.displayEntities]
  rfl

theorem mem_selectedOutputs {name : String} :
    name ∈ selectedOutputs catalog tool plan ↔ name ∈ plan.requiredOutputs ∨
      ∃ roleId ∈ plan.displayEntities, name ∈ roleAliases catalog tool roleId := by
  simp only [selectedOutputs, mem_orderedUnion, List.mem_cons, List.not_mem_nil, or_false,
    exists_eq_or_imp, exists_eq_left, List.mem_flatMap]

theorem selectedOutputs_subset (h : Parsed catalog tool plan) :
    selectedOutputs catalog tool plan ⊆ catalog.allowedAliases tool := by
  intro name hname
  rcases mem_selectedOutputs.1 hname with hname | ⟨roleId, hrole, hname⟩
  · exact h.owned hname
  · exact (roleAliases_subset (h.displayEntities hrole)).2 hname

theorem selectedOutputs_ne_nil (h : Parsed catalog tool plan) :
    selectedOutputs catalog tool plan ≠ [] := by
  rcases h.nonempty with hne | hne
  · obtain ⟨name, hname⟩ := List.exists_mem_of_ne_nil _ hne
    exact List.ne_nil_of_mem (mem_selectedOutputs.2 (Or.inl hname))
  · obtain ⟨roleId, hrole⟩ := List.exists_mem_of_ne_nil _ hne
    obtain ⟨name, hname⟩ := List.exists_mem_of_ne_nil _
      (roleAliases_subset (h.displayEntities hrole)).1
    exact List.ne_nil_of_mem (mem_selectedOutputs.2 (Or.inr ⟨roleId, hrole, hname⟩))

end Parsed

/-! ### Generator rules -/

theorem isBlank_append (a b : String) : isBlank (a ++ b) = (isBlank a && isBlank b) := by
  simp only [isBlank, String.toList_append, List.all_append]

/-- The rule of a predicate begins with the name of what it is a rule about. -/
theorem roleRule_eq (repr : Json → String) (roleId : String) (predicate : TypedPredicate) :
    ∃ rest, roleRule repr roleId predicate = "entity role " ++ rest := by
  unfold roleRule
  simp only [String.append_assoc]
  exact ⟨_, rfl⟩

theorem isBlank_roleRule {roleId : String} {predicate : TypedPredicate} :
    isBlank (roleRule repr roleId predicate) = false := by
  obtain ⟨rest, hrest⟩ := roleRule_eq repr roleId predicate
  have hhead : isBlank "entity role " = false := by decide +kernel
  rw [hrest, isBlank_append, hhead, Bool.false_and]

theorem exists_of_mem_roleRules {roleIds : List String} {rule : String}
    (h : rule ∈ roleRules repr catalog tool roleIds) :
    ∃ roleId predicate, rule = roleRule repr roleId predicate := by
  obtain ⟨roleId, -, hrule⟩ := List.mem_flatMap.1 h
  split at hrule
  · cases hrule
  · obtain ⟨predicate, -, rfl⟩ := List.mem_map.1 hrule
    exact ⟨roleId, predicate, rfl⟩

theorem orderedPathRule_eq : ∃ rest, orderedPathRule = "orderedPathProjection " ++ rest := by
  unfold orderedPathRule
  simp only [String.append_assoc]
  exact ⟨_, rfl⟩

theorem isBlank_orderedPathRule : isBlank orderedPathRule = false := by
  obtain ⟨rest, hrest⟩ := orderedPathRule_eq
  have hhead : isBlank "orderedPathProjection " = false := by decide +kernel
  rw [hrest, isBlank_append, hhead, Bool.false_and]

theorem orderedPathRule_not_mem (roleIds : List String) :
    orderedPathRule ∉ roleRules repr catalog tool roleIds := by
  intro hmem
  obtain ⟨roleId, predicate, hrule⟩ := exists_of_mem_roleRules hmem
  obtain ⟨rest, hrest⟩ := roleRule_eq repr roleId predicate
  obtain ⟨rest', hrest'⟩ := orderedPathRule_eq
  have hhead := congrArg (fun rule => rule.toList.head?) ((hrest'.symm.trans hrule).trans hrest)
  simp only [String.toList_append] at hhead
  exact absurd (Option.some.inj hhead) (by decide)

theorem selectedSpecs_isOk {names : List String} (h : names ⊆ catalog.allowedAliases .graph) :
    ∃ specs, selectedSpecs catalog names = .ok specs := by
  induction names with
  | nil => exact ⟨[], rfl⟩
  | cons name names ih =>
    obtain ⟨hname, hnames⟩ := List.cons_subset.1 h
    obtain ⟨spec, hspec⟩ := Dict.exists_get?_of_mem_keys hname
    obtain ⟨specs, hspecs⟩ := ih hnames
    exact ⟨spec :: specs, by simp only [selectedSpecs, hspec, hspecs]; rfl⟩

theorem compileGraphGeneratorRules_isOk {names : List String}
    (h : names ⊆ catalog.allowedAliases .graph) :
    ∃ rules, compileGraphGeneratorRules catalog names = .ok rules ∧
      (rules = [] ∨ rules = [orderedPathRule]) := by
  obtain ⟨specs, hspecs⟩ := selectedSpecs_isOk h
  refine ⟨_, by rw [compileGraphGeneratorRules, hspecs]; rfl, ?_⟩
  split_ifs
  · exact Or.inr rfl
  · exact Or.inl rfl

theorem stringsOk_roleRules {roleIds : List String} :
    StringsOk (roleRules repr catalog tool roleIds) ↔
      (roleRules repr catalog tool roleIds).Nodup := by
  refine ⟨And.right, fun hnodup => ⟨fun rule hrule => ?_, hnodup⟩⟩
  obtain ⟨roleId, predicate, rfl⟩ := exists_of_mem_roleRules hrule
  exact isBlank_roleRule

/-- The rules of a source are accepted exactly when no rule of a role is repeated. -/
theorem generatorRules_spec (repr : Json → String) {plan : SemanticOutputPlan}
    (h : Parsed catalog tool plan) :
    ∃ rules, generatorRules repr plan catalog tool (selectedOutputs catalog tool plan) =
        .ok rules ∧
      (StringsOk rules ↔ (roleRules repr catalog tool plan.displayEntities).Nodup) := by
  have hrole := compileEntityRoleGeneratorRules_eq repr h.displayEntities
  cases tool with
  | sql => exact ⟨_, by rw [generatorRules, hrole]; rfl, stringsOk_roleRules⟩
  | graph =>
    obtain ⟨graphRules, hgraph, hcases⟩ := compileGraphGeneratorRules_isOk h.selectedOutputs_subset
    refine ⟨_, by simp only [generatorRules, hrole, hgraph]; rfl, ?_⟩
    rcases hcases with rfl | rfl
    · rw [List.append_nil]
      exact stringsOk_roleRules
    · refine ⟨fun hok => (List.nodup_append.1 hok.2).1, fun hnodup => ⟨?_, ?_⟩⟩
      · intro rule hrule
        rcases List.mem_append.1 hrule with hrule | hrule
        · exact (stringsOk_roleRules.2 hnodup).1 rule hrule
        · exact List.mem_singleton.1 hrule ▸ isBlank_orderedPathRule
      · refine List.nodup_append.2 ⟨hnodup, List.nodup_singleton _, ?_⟩
        rintro rule hrule _ hsingle rfl
        exact orderedPathRule_not_mem _ (List.mem_singleton.1 hsingle ▸ hrule)

end Planning
