import Text2Cypher.Planning.Ontology

/-!
# The aliases of a catalog

What the first three passes of `build_query_semantic_catalog` leave: every entry is `SpecOk`, the
identities are collected, and a calculation refers to aliases in front of it.

* `declared_compilePhysicalAliases`: the physical aliases are what the schemas declare;
* `Sound.add`, `Grows.add`: a new entry keeps what holds;
* `Built.addOutputRole`, `Built.addConcept`: a role or concept is entered in each of its sources.
-/

namespace Ontology

open Planning (PlanError TypedPredicate IdentityProjection SemanticOperation
  ResultShapeSourceDefinition Json orderedUnion)
open Checks

/-! ### Entries -/

theorem get?_enter (a : Aliases) (source s : ToolName) (name x : String) (spec : AliasSpec) :
    ((a.enter source name spec).byTool s).get? x =
      if s = source ∧ x = name then some spec else (a.byTool s).get? x := by
  by_cases hs : s = source
  · subst hs
    simp [Aliases.enter, Dict.get?_set]
  · simp [Aliases.enter, hs]

theorem keys_enter_of_not_mem {a : Aliases} {source : ToolName} {name : String}
    (h : name ∉ (a.byTool source).keys) (s : ToolName) (spec : AliasSpec) :
    ((a.enter source name spec).byTool s).keys =
      if s = source then (a.byTool s).keys ++ [name] else (a.byTool s).keys := by
  by_cases hs : s = source
  · subst hs
    simp [Aliases.enter, Dict.keys, Dict.entries_set_of_not_mem h]
  · simp [Aliases.enter, hs]

theorem keys_enter_of_mem {a : Aliases} {source : ToolName} {name : String}
    (h : name ∈ (a.byTool source).keys) (s : ToolName) (spec : AliasSpec) :
    ((a.enter source name spec).byTool s).keys = (a.byTool s).keys := by
  by_cases hs : s = source
  · subst hs
    rw [Aliases.enter, Dict.keys]
    simp only [Function.update_self]
    rw [Dict.entries_set_of_mem h, Dict.map_fst_replace]
    rfl
  · simp [Aliases.enter, hs]

@[simp] theorem identity_enter (a : Aliases) (source : ToolName) (name : String)
    (spec : AliasSpec) : (a.enter source name spec).identity = a.identity := rfl

@[simp] theorem byTool_addIdentity (a : Aliases) (source : ToolName) (name : String) :
    (a.addIdentity source name).byTool = a.byTool := rfl

theorem mem_identity_addIdentity {a : Aliases} {source s : ToolName} {name x : String} :
    x ∈ (a.addIdentity source name).identity s ↔
      s = source ∧ x = name ∨ x ∈ a.identity s := by
  by_cases hs : s = source
  · subst hs
    simp [Aliases.addIdentity]
  · simp [Aliases.addIdentity, hs]

/-! ### Physical aliases -/

/-- What the declarations of an alias, in their order, come to. -/
def physicalSpec (source : ToolName) (name : String) (valueType : ValueType)
    (ds : List Declaration) : AliasSpec where
  aliasName := name
  canonical := ((ds.map Declaration.path).head?.getD "") ++ " physical field"
  canonicalSource := source
  sources := [source]
  kind := .physical
  valueType
  schemaPaths := ds.map Declaration.path
  terms := orderedUnion (ds.map Declaration.terms)
  ownerTerms := orderedUnion (ds.map Declaration.ownerTerms)
  nullable := ds.any Declaration.nullable
  grain := []
  operation := none
  inputs := []
  predicates := []

/-- The declarations of an alias. -/
def declarationsOf (ds : List Declaration) (name : String) : List Declaration :=
  ds.filter fun d => d.aliasName = name

def physicalType (ds : List Declaration) : ValueType :=
  if ∃ d ∈ ds, d.isIdentity = true then .identity else .scalar

theorem orderedUnion_concat (groups : List (List String)) (group : List String) :
    orderedUnion [orderedUnion groups, group] = orderedUnion (groups ++ [group]) := by
  have hself : (orderedUnion groups).foldl Planning.addNew [] = orderedUnion groups :=
    Planning.foldl_addNew_eq_append (Planning.nodup_orderedUnion groups)
  simp only [orderedUnion, List.flatten_cons, List.flatten_nil, List.append_nil,
    List.flatten_append, List.foldl_append]
  rw [← orderedUnion, hself, orderedUnion]

/-- The entries of one source are what its declarations come to. -/
structure Declared (source : ToolName) (ds : List Declaration) (a : Aliases) : Prop where
  entry : ∀ name, (a.byTool source).get? name =
    if declarationsOf ds name = [] then none
    else some (physicalSpec source name (physicalType (declarationsOf ds name))
      (declarationsOf ds name))
  identity : ∀ name, name ∈ a.identity source ↔
    ∃ d ∈ ds, d.aliasName = name ∧ d.isIdentity = true

variable {repr : Json → String}

theorem declarationsOf_concat (ds : List Declaration) (d : Declaration) (name : String) :
    declarationsOf (ds ++ [d]) name =
      if d.aliasName = name then declarationsOf ds name ++ [d] else declarationsOf ds name := by
  rw [declarationsOf, List.filter_append, ← declarationsOf]
  by_cases hname : d.aliasName = name <;> simp [hname]

theorem physicalType_concat (ds : List Declaration) (d : Declaration) :
    physicalType (ds ++ [d]) = if d.isIdentity then .identity else physicalType ds := by
  by_cases hd : d.isIdentity = true <;> simp [physicalType, or_and_right, exists_or, hd]

/-- One more declaration of an alias is merged into what the ones before it came to. -/
theorem Declared.merge {source : ToolName} {ds : List Declaration} {a : Aliases}
    (h : Declared source ds a) (d : Declaration) :
    mergePhysicalAlias repr source a d = .ok (a.enter source d.aliasName
      (physicalSpec source d.aliasName (physicalType (declarationsOf ds d.aliasName ++ [d]))
        (declarationsOf ds d.aliasName ++ [d]))) := by
  have hentry := h.entry d.aliasName
  by_cases hnil : declarationsOf ds d.aliasName = []
  · rw [if_pos hnil] at hentry
    rw [mergePhysicalAlias, hentry]
    simp [hnil, physicalSpec, physicalType]
  · rw [if_neg hnil] at hentry
    have hhead : ((declarationsOf ds d.aliasName).map Declaration.path).head? =
        ((declarationsOf ds d.aliasName ++ [d]).map Declaration.path).head? := by
      obtain ⟨first, rest, hcons⟩ := List.exists_cons_of_ne_nil hnil
      rw [hcons]
      rfl
    rw [mergePhysicalAlias, hentry]
    refine (congrArg (· >>= _) (require_eq_ok.2 rfl)).trans ((ok_bind () _).trans ?_)
    simp only [physicalSpec, physicalType_concat, orderedUnion_concat, hhead, List.map_append,
      List.map_cons, List.map_nil, List.any_append, List.any_cons, List.any_nil, Bool.or_false]
    rfl

theorem Declared.add {source : ToolName} {ds : List Declaration} {a a' : Aliases}
    (h : Declared source ds a) {d : Declaration}
    (hrun : addDeclaration repr source a d = .ok a') : Declared source (ds ++ [d]) a' := by
  rw [addDeclaration, h.merge, ok_bind, pure_eq_ok] at hrun
  subst hrun
  constructor
  · intro name
    have hbyTool : ∀ b : Aliases,
        (if d.isIdentity = true then b.addIdentity source d.aliasName else b).byTool = b.byTool := by
      intro b
      split_ifs <;> rfl
    rw [hbyTool, get?_enter, declarationsOf_concat]
    by_cases hname : d.aliasName = name
    · subst hname
      simp
    · have hne : name ≠ d.aliasName := fun heq => hname heq.symm
      simpa [hname, hne] using h.entry name
  · intro name
    simp only [List.mem_append, List.mem_singleton, or_and_right, exists_or, exists_eq_left,
      ← h.identity name]
    split_ifs with hidentity
    · rw [mem_identity_addIdentity, identity_enter]
      simp only [true_and, hidentity, and_true, eq_comm, or_comm]
    · simp [hidentity]

/-- The declarations of one source leave the other one alone. -/
theorem addDeclaration_other {source s : ToolName} (hne : s ≠ source) {a a' : Aliases}
    {d : Declaration} (hrun : addDeclaration repr source a d = .ok a') :
    a'.byTool s = a.byTool s ∧ a'.identity s = a.identity s := by
  obtain ⟨m, hm, hret⟩ := bind_eq_ok.1 hrun
  have hmerged : m.byTool s = a.byTool s ∧ m.identity s = a.identity s := by
    rw [mergePhysicalAlias] at hm
    split at hm
    · cases hm
      simp [Aliases.enter, hne]
    · obtain ⟨_, -, hm⟩ := bind_eq_ok.1 hm
      cases pure_eq_ok.1 hm
      simp [Aliases.enter, hne]
  cases pure_eq_ok.1 hret
  split_ifs
  · rw [byTool_addIdentity]
    refine ⟨hmerged.1, ?_⟩
    rw [← hmerged.2]
    simp [Aliases.addIdentity, hne]
  · exact hmerged

theorem Declared.congr {source : ToolName} {ds : List Declaration} {a a' : Aliases}
    (h : Declared source ds a) (hbyTool : a'.byTool source = a.byTool source)
    (hidentity : a'.identity source = a.identity source) : Declared source ds a' :=
  ⟨fun name => hbyTool ▸ h.entry name, fun name => hidentity ▸ h.identity name⟩

theorem declared_foldlM {source : ToolName} {ds : List Declaration} {a a' : Aliases}
    (h : Declared source [] a) (hrun : ds.foldlM (addDeclaration repr source) a = .ok a') :
    Declared source ds a' :=
  foldlM_rule h (fun _ _ _ _ _ _ hdone hstep => hdone.add hstep) hrun

theorem foldlM_addDeclaration_other {source s : ToolName} (hne : s ≠ source) {a a' : Aliases}
    {ds : List Declaration} (hrun : ds.foldlM (addDeclaration repr source) a = .ok a') :
    a'.byTool s = a.byTool s ∧ a'.identity s = a.identity s := by
  let same (b : Aliases) := b.byTool s = a.byTool s ∧ b.identity s = a.identity s
  have hstart : same a := ⟨rfl, rfl⟩
  have hsame : same a' := by
    refine foldlM_keeps hstart (fun d _ b b' hb hstep => ?_) hrun
    obtain ⟨hbyTool, hidentity⟩ := addDeclaration_other hne hstep
    exact ⟨hbyTool.trans hb.1, hidentity.trans hb.2⟩
  exact hsame

/-- **The physical aliases of each source are what its schema declares.** -/
theorem declared_compilePhysicalAliases {schemas : Schemas} {a : Aliases}
    (h : compilePhysicalAliases repr schemas = .ok a) (source : ToolName) :
    Declared source (schemas.declarations source) a := by
  obtain ⟨sql, hsql, hgraph⟩ := bind_eq_ok.1 h
  have hempty : ∀ s, Declared s [] ⟨fun _ => .empty, fun _ => []⟩ :=
    fun s => ⟨fun _ => rfl, fun name => by simp⟩
  cases source with
  | sql =>
    obtain ⟨hbyTool, hidentity⟩ := foldlM_addDeclaration_other (by decide : ToolName.sql ≠ .graph)
      hgraph
    exact (declared_foldlM (hempty .sql) hsql).congr hbyTool hidentity
  | graph =>
    obtain ⟨hbyTool, hidentity⟩ := foldlM_addDeclaration_other (by decide : ToolName.graph ≠ .sql)
      hsql
    exact declared_foldlM ((hempty .graph).congr hbyTool hidentity) hgraph

/-! ### What every entry is -/

/-- The kinds of business concepts. -/
def SemanticKind.calculated : SemanticKind → Bool
  | .aggregate | .derived | .path => true
  | .physical | .role => false

/-- The aliases that an entry refers to. -/
def AliasSpec.references (spec : AliasSpec) : List String :=
  spec.inputs ++ spec.grain ++ spec.predicates.map TypedPredicate.field

/-- An entry on its own: fields of its source that exist, or an operation with the right number of
inputs. -/
structure SpecOk (schemas : Schemas) (source : ToolName) (name : String) (spec : AliasSpec) :
    Prop where
  named : spec.aliasName = name
  owned : source ∈ spec.sources
  paths : ∀ path ∈ spec.schemaPaths, path ∈ schemas.paths source
  located : spec.schemaPaths = [] ↔ spec.kind.calculated = true
  references : spec.kind.calculated = false → spec.references = []
  operation : spec.kind.calculated = true → ∃ operation ∈ operationsByKind spec.kind,
    spec.operation = some operation ∧ (operationInputArity operation).1 ≤ spec.inputs.length ∧
      spec.inputs.length ≤ (operationInputArity operation).2
  valueType : spec.kind.calculated = true →
    spec.valueType = if spec.kind = .path then .path else .scalar

/-- The entries together: an alias is an identity if it is collected as one, and a calculation
refers to aliases in front of it. -/
structure Sound (schemas : Schemas) (a : Aliases) : Prop where
  spec : ∀ {source name spec}, (a.byTool source).get? name = some spec →
    SpecOk schemas source name spec
  identity : ∀ source name, name ∈ a.identity source ↔
    ∃ spec, (a.byTool source).get? name = some spec ∧ spec.valueType = .identity
  ordered : ∀ {source name spec}, (a.byTool source).get? name = some spec →
    ∀ r ∈ spec.references, (a.byTool source).keys.idxOf r < (a.byTool source).keys.idxOf name

/-- An entry, but for a scalar that may have become a name. -/
def Entered (a : Aliases) (source : ToolName) (name : String) (spec : AliasSpec) : Prop :=
  ∃ valueType, (a.byTool source).get? name = some { spec with valueType } ∧
    (valueType = spec.valueType ∨
      spec.valueType = .scalar ∧ spec.kind.calculated = false ∧ valueType = .name)

/-- More entries, behind those that were there. -/
structure Grows (a a' : Aliases) : Prop where
  keys : ∀ source, (a.byTool source).keys <+: (a'.byTool source).keys
  spec : ∀ {source name spec}, (a.byTool source).get? name = some spec →
    Entered a' source name spec

theorem Entered.of_get? {a : Aliases} {source : ToolName} {name : String} {spec : AliasSpec}
    (h : (a.byTool source).get? name = some spec) : Entered a source name spec :=
  ⟨spec.valueType, h, .inl rfl⟩

theorem Entered.mono {a a' : Aliases} (hgrows : Grows a a') {source : ToolName} {name : String}
    {spec : AliasSpec} (h : Entered a source name spec) : Entered a' source name spec := by
  obtain ⟨valueType, hget, htype⟩ := h
  obtain ⟨valueType', hget', htype'⟩ := hgrows.spec hget
  refine ⟨valueType', hget', ?_⟩
  rcases htype' with heq | ⟨hscalar, hkind, hname⟩
  · dsimp only at heq
    rw [heq]
    exact htype
  · dsimp only at hscalar hkind
    rcases htype with heq | ⟨-, -, heq⟩
    · exact .inr ⟨heq ▸ hscalar, hkind, hname⟩
    · rw [heq] at hscalar
      cases hscalar

theorem Grows.refl (a : Aliases) : Grows a a :=
  ⟨fun _ => List.prefix_refl _, fun h => .of_get? h⟩

theorem Grows.trans {a b c : Aliases} (h : Grows a b) (h' : Grows b c) : Grows a c :=
  ⟨fun source => (h.keys source).trans (h'.keys source), fun hget => (h.spec hget).mono h'⟩

theorem Grows.mem_keys {a a' : Aliases} (h : Grows a a') {source : ToolName} {name : String}
    (hname : name ∈ (a.byTool source).keys) : name ∈ (a'.byTool source).keys :=
  (h.keys source).subset hname

/-! ### New entries -/

/-- An entry, which is collected if it is an identity. -/
def Aliases.add (a : Aliases) (source : ToolName) (name : String) (spec : AliasSpec) : Aliases :=
  if spec.valueType = .identity then (a.enter source name spec).addIdentity source name
  else a.enter source name spec

theorem byTool_add (a : Aliases) (source : ToolName) (name : String) (spec : AliasSpec) :
    (a.add source name spec).byTool = (a.enter source name spec).byTool := by
  rw [Aliases.add]
  split_ifs <;> rfl

theorem mem_identity_add {a : Aliases} {source s : ToolName} {name x : String}
    {spec : AliasSpec} : x ∈ (a.add source name spec).identity s ↔
      s = source ∧ x = name ∧ spec.valueType = .identity ∨ x ∈ a.identity s := by
  rw [Aliases.add]
  split_ifs with h
  · rw [mem_identity_addIdentity, identity_enter]
    simp [h]
  · simp [h]

variable {schemas : Schemas}

section

variable {a : Aliases} {source : ToolName} {name : String} {spec : AliasSpec}
  (hnew : name ∉ (a.byTool source).keys)

include hnew in
theorem Grows.add : Grows a (a.add source name spec) := by
  constructor
  · intro s
    rw [byTool_add, keys_enter_of_not_mem hnew]
    split_ifs
    · exact List.prefix_append _ _
    · exact List.prefix_refl _
  · intro s x spec' hget
    have hne : ¬ (s = source ∧ x = name) := by
      rintro ⟨rfl, rfl⟩
      exact hnew (Dict.get?_isSome_iff.1 (Option.isSome_iff_exists.2 ⟨_, hget⟩))
    apply Entered.of_get?
    rw [byTool_add, get?_enter, if_neg hne]
    exact hget

include hnew in
theorem Sound.add (h : Sound schemas a) (hspec : SpecOk schemas source name spec)
    (hrefs : ∀ r ∈ spec.references, r ∈ (a.byTool source).keys) :
    Sound schemas (a.add source name spec) := by
  have hnone : (a.byTool source).get? name = none := Dict.get?_eq_none_iff.2 hnew
  refine ⟨fun {s x spec'} hget => ?_, fun s x => ?_, fun {s x spec'} hget r hr => ?_⟩
  · rw [byTool_add, get?_enter] at hget
    split_ifs at hget with hself
    · obtain ⟨rfl, rfl⟩ := hself
      cases hget
      exact hspec
    · exact h.spec hget
  · rw [mem_identity_add, h.identity, byTool_add]
    simp only [get?_enter]
    by_cases hself : s = source ∧ x = name
    · obtain ⟨rfl, rfl⟩ := hself
      simp [hnone]
    · simp only [if_neg hself, ← and_assoc]
      simp [hself]
  · rw [byTool_add, get?_enter] at hget
    rw [byTool_add, keys_enter_of_not_mem hnew]
    split_ifs at hget with hself
    · -- the references of the new entry are in front of it
      obtain ⟨rfl, rfl⟩ := hself
      cases hget
      rw [if_pos rfl, List.idxOf_append_of_mem (hrefs r hr), List.idxOf_append_of_notMem hnew]
      simpa using List.idxOf_lt_length_iff.2 (hrefs r hr)
    · have hlt := h.ordered hget r hr
      have hx : x ∈ (a.byTool s).keys :=
        Dict.get?_isSome_iff.1 (Option.isSome_iff_exists.2 ⟨_, hget⟩)
      have hrmem : r ∈ (a.byTool s).keys :=
        List.idxOf_lt_length_iff.1 (hlt.trans (List.idxOf_lt_length_iff.2 hx))
      split_ifs
      · rwa [List.idxOf_append_of_mem hrmem, List.idxOf_append_of_mem hx]
      · exact hlt

end

/-! ### The physical pass -/

theorem path_mem_of_declaration {source : ToolName} {d : Declaration}
    (h : d ∈ schemas.declarations source) : d.path ∈ schemas.paths source := by
  cases source with
  | sql =>
    obtain ⟨⟨tableName, table⟩, htable, hd⟩ := List.mem_flatMap.1 h
    obtain ⟨⟨columnName, column⟩, hcolumn, hd⟩ := List.mem_flatMap.1 hd
    obtain ⟨_, -, rfl⟩ := List.mem_map.1 hd
    refine List.mem_flatMap.2 ⟨(tableName, table), htable, List.mem_map.2 ⟨columnName, ?_, rfl⟩⟩
    exact List.mem_map.2 ⟨(columnName, column), hcolumn, rfl⟩
  | graph =>
    obtain ⟨⟨nodeName, node⟩, hnode, hd⟩ := List.mem_flatMap.1 h
    obtain ⟨⟨propertyName, property⟩, hproperty, hd⟩ := List.mem_flatMap.1 hd
    obtain ⟨_, -, rfl⟩ := List.mem_map.1 hd
    refine List.mem_flatMap.2 ⟨(nodeName, node), hnode, List.mem_map.2 ⟨propertyName, ?_, rfl⟩⟩
    exact List.mem_map.2 ⟨(propertyName, property), hproperty, rfl⟩

theorem Declared.get?_eq_some {source : ToolName} {ds : List Declaration} {a : Aliases}
    (h : Declared source ds a) {name : String} {spec : AliasSpec} :
    (a.byTool source).get? name = some spec ↔ declarationsOf ds name ≠ [] ∧
      physicalSpec source name (physicalType (declarationsOf ds name)) (declarationsOf ds name) =
        spec := by
  rw [h.entry name]
  split_ifs with hnil <;> simp [hnil]

theorem Sound.of_declared {a : Aliases}
    (h : ∀ source, Declared source (schemas.declarations source) a) : Sound schemas a := by
  refine ⟨fun {source name spec} hget => ?_, fun source name => ?_, fun {source name spec} hget => ?_⟩
  · obtain ⟨hne, rfl⟩ := (h source).get?_eq_some.1 hget
    refine ⟨rfl, List.mem_singleton_self _, fun path hpath => ?_, ?_, fun _ => rfl,
      fun h => (Bool.false_ne_true h).elim, fun h => (Bool.false_ne_true h).elim⟩
    · obtain ⟨d, hd, rfl⟩ := List.mem_map.1 hpath
      exact path_mem_of_declaration (List.mem_of_mem_filter hd)
    · refine iff_of_false (fun hnil => hne ?_) Bool.false_ne_true
      exact List.map_eq_nil_iff.1 hnil
  · rw [(h source).identity]
    simp only [(h source).get?_eq_some]
    constructor
    · rintro ⟨d, hd, hname, hidentity⟩
      have hmem : d ∈ declarationsOf (schemas.declarations source) name :=
        List.mem_filter.2 ⟨hd, decide_eq_true hname⟩
      exact ⟨_, ⟨List.ne_nil_of_mem hmem, rfl⟩, if_pos ⟨d, hmem, hidentity⟩⟩
    · rintro ⟨_, ⟨-, rfl⟩, hidentity⟩
      dsimp only [physicalSpec, physicalType] at hidentity
      split_ifs at hidentity with hsome
      obtain ⟨d, hd, hkey⟩ := hsome
      obtain ⟨hd, hname⟩ := List.mem_filter.1 hd
      exact ⟨d, hd, of_decide_eq_true hname, hkey⟩
  · obtain ⟨-, rfl⟩ := (h source).get?_eq_some.1 hget
    exact fun r hr => absurd hr List.not_mem_nil

/-! ### Output roles and business concepts -/

variable {u : Entities.UnicodeData}

theorem addOutputRoleTo_eq_ok {role : OutputRoleDefinition} {a a' : Aliases} {source : ToolName}
    (h : addOutputRoleTo repr u schemas role a source = .ok a') :
    role.aliasName ∉ (a.byTool source).keys ∧
      (∀ path ∈ role.mappings source, path ∈ schemas.paths source) ∧
      ∃ nullable, anyNullable schemas source (role.mappings source) = .ok nullable ∧
        a' = a.add source role.aliasName (role.spec u source nullable) := by
  simp only [addOutputRoleTo, rejectAliasCollision, bind_eq_ok, require_eq_ok, pure_eq_ok,
    List.filter_eq_nil_iff, decide_eq_true_eq, not_not, exists_const] at h
  obtain ⟨hpaths, hnew, nullable, hnullable, hadd⟩ := h
  exact ⟨hnew, hpaths, nullable, hnullable, hadd.symm⟩

theorem addConceptTo_eq_ok {concept : BusinessConceptDefinition} {canonicalSource : ToolName}
    {a a' : Aliases} {source : ToolName}
    (h : addConceptTo repr u concept canonicalSource a source = .ok a') :
    concept.aliasName ∉ (a.byTool source).keys ∧
      (∀ r ∈ concept.references, r ∈ (a.byTool source).keys) ∧
      a' = a.add source concept.aliasName (concept.spec u canonicalSource) := by
  simp only [addConceptTo, rejectAliasCollision, bind_eq_ok, require_eq_ok, pure_eq_ok,
    List.filter_eq_nil_iff, decide_eq_true_eq, not_not, exists_const] at h
  obtain ⟨hnew, hrefs, hadd⟩ := h
  refine ⟨hnew, hrefs, ?_⟩
  have htype : (concept.spec u canonicalSource).valueType ≠ .identity := by
    rw [BusinessConceptDefinition.spec]
    dsimp only
    split_ifs <;> decide
  rw [Aliases.add, if_neg htype, hadd]

theorem specOk_role {role : OutputRoleDefinition} {source : ToolName}
    (hpaths : ∀ path ∈ role.mappings source, path ∈ schemas.paths source)
    (hsource : source ∈ role.sources) (nullable : Bool) :
    SpecOk schemas source role.aliasName (role.spec u source nullable) := by
  refine ⟨rfl, hsource, hpaths, iff_of_false ?_ Bool.false_ne_true, fun _ => rfl,
    fun h => (Bool.false_ne_true h).elim, fun h => (Bool.false_ne_true h).elim⟩
  exact of_decide_eq_true (List.mem_filter.1 hsource).2

theorem specOk_concept {concept : BusinessConceptDefinition} (hvalid : concept.Valid u)
    {source : ToolName} (hsource : source ∈ concept.sources) (canonicalSource : ToolName) :
    SpecOk schemas source concept.aliasName (concept.spec u canonicalSource) := by
  obtain ⟨-, -, -, -, -, hoperation, hmin, hmax⟩ := hvalid
  have hkind : concept.kind.calculated = true := by
    cases hkind : concept.kind with
    | physical | role =>
      rw [hkind] at hoperation
      cases hoperation
    | aggregate | derived | path => rfl
  refine ⟨rfl, hsource, fun _ hpath => absurd hpath List.not_mem_nil, iff_of_true rfl hkind,
    fun hplain => ?_, fun _ => ?_, fun _ => rfl⟩
  · rw [BusinessConceptDefinition.spec, hkind] at hplain
    cases hplain
  · exact ⟨concept.operation, hoperation, rfl, hmin, hmax⟩

/-! ### Where the entries come from -/

/-- What an entry is made of, up to the type of its value. -/
inductive Origin (u : Entities.UnicodeData) (schemas : Schemas) (ontology : ManufacturingOntology)
    (source : ToolName) : String → AliasSpec → Prop
  | field {name : String} (hne : declarationsOf (schemas.declarations source) name ≠ [])
      (valueType : ValueType) : Origin u schemas ontology source name
        (physicalSpec source name valueType (declarationsOf (schemas.declarations source) name))
  | role {role : OutputRoleDefinition} (hmem : role ∈ ontology.outputRoles)
      (hsource : source ∈ role.sources) {nullable : Bool}
      (hnullable : anyNullable schemas source (role.mappings source) = .ok nullable)
      (valueType : ValueType) : Origin u schemas ontology source role.aliasName
        { role.spec u source nullable with valueType }
  | concept {concept : BusinessConceptDefinition} (hmem : concept ∈ ontology.businessConcepts)
      (hsource : source ∈ concept.sources) (canonicalSource : ToolName) (valueType : ValueType) :
      Origin u schemas ontology source concept.aliasName
        { concept.spec u canonicalSource with valueType }

/-- A field of the schema, with all that its declarations say. -/
def FieldsEntered (schemas : Schemas) (a : Aliases) : Prop :=
  ∀ source name, declarationsOf (schemas.declarations source) name ≠ [] →
    Entered a source name
      (physicalSpec source name (physicalType (declarationsOf (schemas.declarations source) name))
        (declarationsOf (schemas.declarations source) name))

/-- What holds between the passes. -/
structure Built (u : Entities.UnicodeData) (schemas : Schemas) (ontology : ManufacturingOntology)
    (a : Aliases) : Prop where
  sound : Sound schemas a
  origin : ∀ {source name spec}, (a.byTool source).get? name = some spec →
    Origin u schemas ontology source name spec
  fields : FieldsEntered schemas a

variable {ontology : ManufacturingOntology}

theorem Origin.retype {source : ToolName} {name : String} {spec : AliasSpec}
    (h : Origin u schemas ontology source name spec) (valueType : ValueType) :
    Origin u schemas ontology source name { spec with valueType } := by
  cases h with
  | field hne _ => exact .field hne valueType
  | role hmem hsource hnullable _ => exact .role hmem hsource hnullable valueType
  | concept hmem hsource canonicalSource _ => exact .concept hmem hsource canonicalSource valueType

theorem Built.of_compilePhysicalAliases {a : Aliases}
    (h : compilePhysicalAliases repr schemas = .ok a) : Built u schemas ontology a := by
  have hdeclared := declared_compilePhysicalAliases h
  refine ⟨.of_declared hdeclared, fun {source name spec} hget => ?_, fun source name hne => ?_⟩
  · obtain ⟨hne, rfl⟩ := (hdeclared source).get?_eq_some.1 hget
    exact .field hne _
  · exact .of_get? ((hdeclared source).get?_eq_some.2 ⟨hne, rfl⟩)

theorem Built.add {a : Aliases} {source : ToolName} {name : String} {spec : AliasSpec}
    (h : Built u schemas ontology a) (hnew : name ∉ (a.byTool source).keys)
    (hspec : SpecOk schemas source name spec)
    (hrefs : ∀ r ∈ spec.references, r ∈ (a.byTool source).keys)
    (horigin : Origin u schemas ontology source name spec) :
    Built u schemas ontology (a.add source name spec) := by
  refine ⟨h.sound.add hnew hspec hrefs, fun {s x spec'} hget => ?_, fun s x hne => ?_⟩
  · rw [byTool_add, get?_enter] at hget
    split_ifs at hget with hself
    · obtain ⟨rfl, rfl⟩ := hself
      cases hget
      exact horigin
    · exact h.origin hget
  · exact (h.fields s x hne).mono (.add hnew)

theorem entered_add (a : Aliases) (source : ToolName) (name : String) (spec : AliasSpec) :
    Entered (a.add source name spec) source name spec := by
  apply Entered.of_get?
  rw [byTool_add, get?_enter, if_pos ⟨rfl, rfl⟩]

/-- A role in one of its sources: it can be null if one of its fields can. -/
def RoleEntered (u : Entities.UnicodeData) (schemas : Schemas) (a : Aliases)
    (role : OutputRoleDefinition) (source : ToolName) : Prop :=
  ∃ nullable, anyNullable schemas source (role.mappings source) = .ok nullable ∧
    Entered a source role.aliasName (role.spec u source nullable)

/-- A concept in one of its sources: its first source is the canonical one. -/
def ConceptEntered (u : Entities.UnicodeData) (a : Aliases) (concept : BusinessConceptDefinition)
    (source : ToolName) : Prop :=
  ∃ canonicalSource, concept.sources.head? = some canonicalSource ∧
    Entered a source concept.aliasName (concept.spec u canonicalSource)

theorem RoleEntered.mono {a a' : Aliases} (hgrows : Grows a a') {role : OutputRoleDefinition}
    {source : ToolName} (h : RoleEntered u schemas a role source) :
    RoleEntered u schemas a' role source := by
  obtain ⟨nullable, hnullable, hentered⟩ := h
  exact ⟨nullable, hnullable, hentered.mono hgrows⟩

theorem ConceptEntered.mono {a a' : Aliases} (hgrows : Grows a a')
    {concept : BusinessConceptDefinition} {source : ToolName}
    (h : ConceptEntered u a concept source) : ConceptEntered u a' concept source := by
  obtain ⟨canonicalSource, hhead, hentered⟩ := h
  exact ⟨canonicalSource, hhead, hentered.mono hgrows⟩

/-- A pass over definitions: every step keeps what holds, and what it establishes stays. -/
theorem Built.pass {α : Type} {f : Aliases → α → Except PlanError Aliases} {l : List α}
    {p : Aliases → α → Prop} {a a' : Aliases} (hbuilt : Built u schemas ontology a)
    (hmono : ∀ {b b' x}, Grows b b' → p b x → p b' x)
    (hstep : ∀ x ∈ l, ∀ b b', Built u schemas ontology b → f b x = .ok b' →
      Built u schemas ontology b' ∧ Grows b b' ∧ p b' x)
    (h : l.foldlM f a = .ok a') :
    Built u schemas ontology a' ∧ Grows a a' ∧ ∀ x ∈ l, p a' x := by
  let passed (done : List α) (b : Aliases) := Built u schemas ontology b ∧ Grows a b ∧
    ∀ x ∈ done, p b x
  have hstart : passed [] a := ⟨hbuilt, .refl a, List.forall_mem_nil _⟩
  have hpassed : passed l a' := by
    refine foldlM_rule hstart (fun done x rest b b' hl hb hrun => ?_) h
    obtain ⟨hbuilt, hgrows, hdone⟩ := hb
    have hx : x ∈ l := hl ▸ List.mem_append_right done List.mem_cons_self
    obtain ⟨hbuilt', hgrows', hlast⟩ := hstep x hx b b' hbuilt hrun
    refine ⟨hbuilt', hgrows.trans hgrows', fun y hy => ?_⟩
    rcases List.mem_append.1 hy with hold | hy
    · exact hmono hgrows' (hdone y hold)
    · exact List.mem_singleton.1 hy ▸ hlast
  exact hpassed

/-- A role is entered in each of its sources. -/
theorem Built.addOutputRole {a a' : Aliases} (hbuilt : Built u schemas ontology a)
    {role : OutputRoleDefinition} (hmem : role ∈ ontology.outputRoles)
    (h : addOutputRole repr u schemas a role = .ok a') :
    Built u schemas ontology a' ∧ Grows a a' ∧
      ∀ source ∈ role.sources, RoleEntered u schemas a' role source := by
  refine hbuilt.pass (p := fun b source => RoleEntered u schemas b role source)
    (fun hgrows hentered => hentered.mono hgrows) (fun source hsource b b' hb hstep => ?_) h
  obtain ⟨hnew, hpaths, nullable, hnullable, rfl⟩ := addOutputRoleTo_eq_ok hstep
  have horigin := Origin.role (u := u) hmem hsource hnullable role.valueType
  have hrefs : ∀ r ∈ (role.spec u source nullable).references, r ∈ (b.byTool source).keys :=
    fun r hr => absurd hr List.not_mem_nil
  exact ⟨hb.add hnew (specOk_role hpaths hsource nullable) hrefs horigin, .add hnew, nullable,
    hnullable, entered_add ..⟩

/-- A concept is entered in each of its sources. -/
theorem Built.addConcept {a a' : Aliases} (hbuilt : Built u schemas ontology a)
    {concept : BusinessConceptDefinition} (hmem : concept ∈ ontology.businessConcepts)
    (hvalid : concept.Valid u) (h : addConcept repr u a concept = .ok a') :
    Built u schemas ontology a' ∧ Grows a a' ∧
      ∀ source ∈ concept.sources, ConceptEntered u a' concept source := by
  rw [Ontology.addConcept] at h
  cases hsources : concept.sources with
  | nil => exact absurd hsources hvalid.2.1
  | cons canonicalSource others =>
    rw [hsources] at h
    dsimp only at h
    rw [← hsources] at h ⊢
    refine hbuilt.pass (p := fun b source => ConceptEntered u b concept source)
      (fun hgrows hentered => hentered.mono hgrows) (fun source hsource b b' hb hstep => ?_) h
    obtain ⟨hnew, hrefs, rfl⟩ := addConceptTo_eq_ok hstep
    have horigin : Origin u schemas ontology source concept.aliasName
        (concept.spec u canonicalSource) := .concept hmem hsource canonicalSource _
    refine ⟨hb.add hnew (specOk_concept hvalid hsource canonicalSource) hrefs horigin, .add hnew,
      canonicalSource, ?_, entered_add ..⟩
    rw [hsources]
    rfl

end Ontology
