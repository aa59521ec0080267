import Text2Cypher.Planning.CatalogSound

/-!
# What a catalog is

The passes over entity roles, result shapes and transforms, and all passes together.  A label of a
projection becomes a name; what was entered before stays.

* `ProjectionOk`, `RoleOk`, `ShapeSourceOk`: what a role and a shape refer to;
* `WellFormed`: what holds of a catalog that is returned;
* `Catalog.query`: the catalog as the planner sees it;
* `load_wellFormed`: a catalog that is returned is well formed.
-/

namespace Ontology

open Planning (PlanError TypedPredicate IdentityProjection SemanticOperation
  ResultShapeSourceDefinition Json)
open Checks

variable {repr : Json → String} {u : Entities.UnicodeData} {schemas : Schemas}
  {ontology : ManufacturingOntology}

/-! ### Labels -/

section

variable {a : Aliases} {source : ToolName} {label : String} {spec : AliasSpec}
  (hget : (a.byTool source).get? label = some spec) (hscalar : spec.valueType = .scalar)
  (hplain : spec.kind.calculated = false)

include hget in
theorem keys_enter_of_get? (s : ToolName) (spec' : AliasSpec) :
    ((a.enter source label spec').byTool s).keys = (a.byTool s).keys :=
  keys_enter_of_mem (Dict.get?_isSome_iff.1 (Option.isSome_iff_exists.2 ⟨_, hget⟩)) s spec'

include hget hscalar hplain in
theorem Grows.enter_name : Grows a (a.enter source label { spec with valueType := .name }) := by
  refine ⟨fun s => ?_, fun {s x spec'} hget' => ?_⟩
  · rw [keys_enter_of_get? hget]
  · by_cases hself : s = source ∧ x = label
    · obtain ⟨rfl, rfl⟩ := hself
      obtain rfl := Option.some.inj (hget.symm.trans hget')
      refine ⟨.name, ?_, .inr ⟨hscalar, hplain, rfl⟩⟩
      rw [get?_enter, if_pos ⟨rfl, rfl⟩]
    · apply Entered.of_get?
      rw [get?_enter, if_neg hself, hget']

include hget hscalar hplain in
theorem Built.enter_name (h : Built u schemas ontology a) :
    Built u schemas ontology (a.enter source label { spec with valueType := .name }) := by
  have hok := h.sound.spec hget
  have hold : ∀ {s x spec'}, ¬ (s = source ∧ x = label) →
      ((a.enter source label { spec with valueType := .name }).byTool s).get? x = some spec' →
        (a.byTool s).get? x = some spec' := by
    intro s x spec' hne hget'
    rwa [get?_enter, if_neg hne] at hget'
  have hnew : ∀ {spec'},
      ((a.enter source label { spec with valueType := .name }).byTool source).get? label =
        some spec' → spec' = { spec with valueType := .name } := by
    intro spec' hget'
    rw [get?_enter, if_pos ⟨rfl, rfl⟩] at hget'
    exact (Option.some.inj hget').symm
  refine ⟨⟨fun {s x spec'} hget' => ?_, fun s x => ?_, fun {s x spec'} hget' r hr => ?_⟩,
    fun {s x spec'} hget' => ?_, fun s x hne => ?_⟩
  · by_cases hself : s = source ∧ x = label
    · obtain ⟨rfl, rfl⟩ := hself
      obtain rfl := hnew hget'
      refine ⟨hok.named, hok.owned, hok.paths, hok.located, hok.references, hok.operation, ?_⟩
      exact fun hkind => absurd (hplain.symm.trans hkind) (by decide)
    · exact h.sound.spec (hold hself hget')
  · rw [identity_enter, h.sound.identity]
    by_cases hself : s = source ∧ x = label
    · -- neither a scalar nor a name is an identity
      obtain ⟨rfl, rfl⟩ := hself
      rw [get?_enter, if_pos ⟨rfl, rfl⟩, hget]
      simp [hscalar]
    · rw [get?_enter, if_neg hself]
  · rw [keys_enter_of_get? hget]
    by_cases hself : s = source ∧ x = label
    · obtain ⟨rfl, rfl⟩ := hself
      obtain rfl := hnew hget'
      exact h.sound.ordered hget r hr
    · exact h.sound.ordered (hold hself hget') r hr
  · by_cases hself : s = source ∧ x = label
    · obtain ⟨rfl, rfl⟩ := hself
      obtain rfl := hnew hget'
      exact (h.origin hget).retype .name
    · exact h.origin (hold hself hget')
  · exact (h.fields s x hne).mono (.enter_name hget hscalar hplain)

end

/-- An alias that can be a label. -/
def Labelled (a : Aliases) (source : ToolName) (label : String) : Prop :=
  ∃ spec, (a.byTool source).get? label = some spec ∧ spec.valueType ∈ [.scalar, .name] ∧
    spec.kind.calculated = false

theorem Labelled.mono {a a' : Aliases} (hgrows : Grows a a') {source : ToolName} {label : String}
    (h : Labelled a source label) : Labelled a' source label := by
  obtain ⟨spec, hget, htype, hplain⟩ := h
  obtain ⟨valueType, hget', htype'⟩ := hgrows.spec hget
  refine ⟨_, hget', ?_, hplain⟩
  rcases htype' with rfl | ⟨-, -, rfl⟩
  · exact htype
  · simp

/-- A name stays a name. -/
theorem Grows.name {a a' : Aliases} (hgrows : Grows a a') {source : ToolName} {label : String}
    {spec : AliasSpec} (hget : (a.byTool source).get? label = some spec)
    (hname : spec.valueType = .name) : (a'.byTool source).get? label = some spec := by
  obtain ⟨valueType, hget', rfl | ⟨hscalar, -, -⟩⟩ := hgrows.spec hget
  · exact hget'
  · rw [hname] at hscalar
    cases hscalar

/-- One label becomes a name. -/
theorem Built.nameLabel {a : Aliases} (h : Built u schemas ontology a) {source : ToolName}
    {label : String} {spec : AliasSpec} (hget : (a.byTool source).get? label = some spec)
    (htype : spec.valueType ∈ [.scalar, .name]) (hplain : spec.kind.calculated = false) :
    Built u schemas ontology (nameLabel source a label) ∧ Grows a (nameLabel source a label) ∧
      ((nameLabel source a label).byTool source).get? label =
        some { spec with valueType := .name } := by
  rw [Ontology.nameLabel, hget]
  dsimp only
  split_ifs with hscalar
  · refine ⟨h.enter_name hget hscalar hplain, .enter_name hget hscalar hplain, ?_⟩
    rw [get?_enter, if_pos ⟨rfl, rfl⟩]
  · have hname : spec.valueType = .name := by simpa [hscalar] using htype
    refine ⟨h, .refl a, ?_⟩
    rw [hget, ← hname]

/-- All labels become names, and keep the rest of their entries. -/
theorem Built.foldl_nameLabel {source : ToolName} {labels : List String} :
    ∀ {a : Aliases}, Built u schemas ontology a → (∀ label ∈ labels, Labelled a source label) →
      Built u schemas ontology (labels.foldl (Ontology.nameLabel source) a) ∧
        Grows a (labels.foldl (Ontology.nameLabel source) a) ∧
        ∀ label ∈ labels, ∃ spec,
          ((labels.foldl (Ontology.nameLabel source) a).byTool source).get? label = some spec ∧
            spec.valueType = .name := by
  induction labels with
  | nil => exact fun {a} h _ => ⟨h, .refl a, List.forall_mem_nil _⟩
  | cons label labels ih =>
    intro a h hlabels
    obtain ⟨hlabel, hrest⟩ := List.forall_mem_cons.1 hlabels
    obtain ⟨spec, hget, htype, hplain⟩ := hlabel
    obtain ⟨hbuilt, hgrows, hnamed⟩ := h.nameLabel hget htype hplain
    obtain ⟨hbuilt', hgrows', hnames⟩ := ih hbuilt fun label' hlabel' =>
      (hrest label' hlabel').mono hgrows
    rw [List.foldl_cons]
    refine ⟨hbuilt', hgrows.trans hgrows', List.forall_mem_cons.2 ⟨?_, hnames⟩⟩
    exact ⟨_, hgrows'.name hnamed rfl, rfl⟩

/-! ### Entity roles -/

/-- A projection of a source: identities with common owners, and names that belong to these. -/
structure ProjectionOk (a : Aliases) (source : ToolName) (projection : IdentityProjection) :
    Prop where
  valid : ValidProjection projection
  related : ∃ owners : List String, owners ≠ [] ∧
    (∀ name ∈ projection.keys, ∃ spec, (a.byTool source).get? name = some spec ∧
      spec.valueType = .identity ∧ ∀ owner ∈ owners, owner ∈ spec.physicalOwners) ∧
    ∀ name ∈ projection.labels, ∃ spec, (a.byTool source).get? name = some spec ∧
      spec.valueType = .name ∧ spec.kind.calculated = false ∧
      ∃ owner ∈ owners, owner ∈ spec.physicalOwners

/-- What the predicates of a source refer to. -/
def PredicatesOk (a : Aliases) (source : ToolName) (predicates : List TypedPredicate) : Prop :=
  ∀ predicate ∈ predicates, predicate.field ∈ (a.byTool source).keys

theorem Grows.identity {a a' : Aliases} (hgrows : Grows a a') {source : ToolName} {name : String}
    {spec : AliasSpec} (hget : (a.byTool source).get? name = some spec)
    (hidentity : spec.valueType = .identity) : (a'.byTool source).get? name = some spec := by
  obtain ⟨valueType, hget', rfl | ⟨hscalar, -, -⟩⟩ := hgrows.spec hget
  · exact hget'
  · rw [hidentity] at hscalar
    cases hscalar

theorem ProjectionOk.mono {a a' : Aliases} (hgrows : Grows a a') {source : ToolName}
    {projection : IdentityProjection} (h : ProjectionOk a source projection) :
    ProjectionOk a' source projection := by
  obtain ⟨owners, hne, hkeys, hlabels⟩ := h.related
  refine ⟨h.valid, owners, hne, fun name hname => ?_, fun name hname => ?_⟩
  · obtain ⟨spec, hget, hidentity, howners⟩ := hkeys name hname
    exact ⟨spec, hgrows.identity hget hidentity, hidentity, howners⟩
  · obtain ⟨spec, hget, htype, hplain, howner⟩ := hlabels name hname
    exact ⟨spec, hgrows.name hget htype, htype, hplain, howner⟩

theorem mem_intersection {groups : List (List String)} {shared : List String}
    (h : intersection groups = .ok shared) {owner : String} :
    owner ∈ shared ↔ ∀ owners ∈ groups, owner ∈ owners := by
  cases groups with
  | nil => cases h
  | cons owners rest =>
    cases h
    simp [List.mem_filter]

/-- What is checked of a projection. -/
theorem addProjection_eq_ok {roleId : String} {a a' : Aliases} {source : ToolName}
    {definition : IdentityProjection}
    (h : addProjection repr roleId a source definition = .ok a') :
    a' = definition.labels.foldl (nameLabel source) a ∧
      ∃ owners : List String, owners ≠ [] ∧
        (∀ name ∈ definition.keys, ∃ spec, (a.byTool source).get? name = some spec ∧
          spec.valueType = .identity ∧ ∀ owner ∈ owners, owner ∈ spec.physicalOwners) ∧
        ∀ name ∈ definition.labels, ∃ spec, (a.byTool source).get? name = some spec ∧
          spec.valueType ∈ [.scalar, .name] ∧ spec.kind.calculated = false ∧
          ∃ owner ∈ owners, owner ∈ spec.physicalOwners := by
  simp only [addProjection, bind_eq_ok, require_eq_ok, pure_eq_ok, List.filter_eq_nil_iff,
    exists_const] at h
  obtain ⟨hknown, hkeys, hlabels, owners, howners, hne, hrelated, hadd⟩ := h
  have hspec : ∀ name ∈ definition.displayAliases, ∃ spec,
      (a.byTool source).get? name = some spec := by
    intro name hname
    have hmem := hknown name hname
    rw [decide_eq_true_eq, not_not] at hmem
    exact Dict.exists_get?_of_mem_keys hmem
  refine ⟨hadd.symm, owners, hne, fun name hname => ?_, fun name hname => ?_⟩
  · obtain ⟨spec, hget⟩ := hspec name (List.mem_append_left _ hname)
    have hidentity : spec.valueType = .identity := by simpa [hget] using hkeys name hname
    refine ⟨spec, hget, hidentity, fun owner howner => ?_⟩
    refine (mem_intersection howners).1 howner _ (List.mem_map.2 ⟨spec, ?_, rfl⟩)
    exact List.mem_filterMap.2 ⟨name, hname, hget⟩
  · obtain ⟨spec, hget⟩ := hspec name (List.mem_append_right _ hname)
    have hdisplay := hlabels name hname
    have hshared := hrelated name hname
    simp only [hget, Option.any_some, decide_eq_true_eq, not_or] at hdisplay hshared
    refine ⟨spec, hget, ?_, ?_, ?_⟩
    · cases htype : spec.valueType <;> simp [htype] at hdisplay ⊢
    · cases hkind : spec.kind <;> simp [hkind, SemanticKind.calculated] at hdisplay ⊢
    · push Not at hshared
      obtain ⟨owner, howner, hmem⟩ := hshared
      exact ⟨owner, hmem, howner⟩

/-- A projection is what it has been checked to be, once its labels are names. -/
theorem Built.addProjection {roleId : String} {a a' : Aliases} {source : ToolName}
    {definition : IdentityProjection} (hbuilt : Built u schemas ontology a)
    (hvalid : ValidProjection definition)
    (h : addProjection repr roleId a source definition = .ok a') :
    Built u schemas ontology a' ∧ Grows a a' ∧ ProjectionOk a' source definition := by
  obtain ⟨rfl, owners, hne, hkeys, hlabels⟩ := addProjection_eq_ok h
  obtain ⟨hbuilt', hgrows, hnames⟩ := hbuilt.foldl_nameLabel fun label hlabel => by
    obtain ⟨spec, hget, htype, hplain, -⟩ := hlabels label hlabel
    exact ⟨spec, hget, htype, hplain⟩
  refine ⟨hbuilt', hgrows, hvalid, owners, hne, fun name hname => ?_, fun name hname => ?_⟩
  · obtain ⟨spec, hget, hidentity, howners⟩ := hkeys name hname
    exact ⟨spec, hgrows.identity hget hidentity, hidentity, howners⟩
  · obtain ⟨spec, hget, -, hplain, howner⟩ := hlabels name hname
    obtain ⟨named, hnamed, htype⟩ := hnames name hname
    obtain ⟨valueType, hget', -⟩ := hgrows.spec hget
    obtain rfl := Option.some.inj (hnamed.symm.trans hget')
    exact ⟨_, hnamed, htype, hplain, howner⟩

/-- The entry of a role. -/
def EntityRoleDefinition.spec (u : Entities.UnicodeData) (role : EntityRoleDefinition) :
    EntityRoleSpec where
  roleId := role.roleId
  canonical := role.canonical
  terms := termsOf u role.roleId role.canonical role.terms
  projections := role.identityProjection
  predicates := role.predicates

/-- A role that fits the aliases. -/
structure RoleOk (a : Aliases) (role : EntityRoleDefinition) : Prop where
  projections : ∀ entry ∈ role.identityProjection.entries, ProjectionOk a entry.1 entry.2
  predicates : ∀ entry ∈ role.predicates.entries, PredicatesOk a entry.1 entry.2

theorem RoleOk.mono {a a' : Aliases} (hgrows : Grows a a') {role : EntityRoleDefinition}
    (h : RoleOk a role) : RoleOk a' role :=
  ⟨fun entry hentry => (h.projections entry hentry).mono hgrows,
    fun entry hentry predicate hpredicate =>
      hgrows.mem_keys (h.predicates entry hentry predicate hpredicate)⟩

theorem checkPredicates_eq_ok {roleId : String} {a : Aliases} {source : ToolName}
    {definitions : List TypedPredicate} :
    checkPredicates repr roleId a source definitions = .ok () ↔
      PredicatesOk a source definitions := by
  simp [checkPredicates, PredicatesOk, List.filter_eq_nil_iff]

/-- A role is entered, and fits. -/
theorem Built.addEntityRole {a a' : Aliases} {specs specs' : Dict String EntityRoleSpec}
    {role : EntityRoleDefinition} (hbuilt : Built u schemas ontology a) (hvalid : role.Valid u)
    (h : addEntityRole repr u (a, specs) role = .ok (a', specs')) :
    Built u schemas ontology a' ∧ Grows a a' ∧ RoleOk a' role ∧
      specs' = specs.set role.roleId (role.spec u) := by
  simp only [Ontology.addEntityRole, bind_eq_ok, pure_eq_ok, forEach_eq_ok, exists_const,
    Prod.mk.injEq] at h
  obtain ⟨b, hprojections, hpredicates, rfl, rfl⟩ := h
  let fits (b : Aliases) (entry : ToolName × IdentityProjection) :=
    ProjectionOk b entry.1 entry.2
  obtain ⟨hbuilt', hgrows, hok⟩ := hbuilt.pass (p := fits)
    (fun hgrows hok => ProjectionOk.mono hgrows hok)
    (fun entry hentry b b' hb hstep =>
      hb.addProjection (hvalid.2.2.2 entry.2 (List.mem_map_of_mem hentry)) hstep) hprojections
  exact ⟨hbuilt', hgrows, ⟨hok, fun entry hentry =>
    checkPredicates_eq_ok.1 (hpredicates entry hentry)⟩, rfl⟩

/-! ### Entries with distinct names -/

/-- The next element of a list with distinct names. -/
theorem entries_set_next {κ α ν : Type} [DecidableEq κ] {name : α → κ} {value : α → ν}
    {done rest : List α} {a : α} {d : Dict κ ν} (hnodup : ((done ++ a :: rest).map name).Nodup)
    (h : d.entries = done.map fun a => (name a, value a)) :
    (d.set (name a) (value a)).entries = (done ++ [a]).map fun a => (name a, value a) := by
  rw [List.map_append, List.map_cons] at hnodup
  have hnew : name a ∉ d.keys := by
    rw [Dict.keys, h, List.map_map]
    exact fun hmem => (List.nodup_append.1 hnodup).2.2 _ hmem _ List.mem_cons_self rfl
  rw [Dict.entries_set_of_not_mem hnew, h, List.map_append]
  rfl

/-- A loop that enters every element under its name, once what it checks holds. -/
theorem entries_of_foldlM {ε κ α ν : Type} [DecidableEq κ] {name : α → κ} {value : α → ν}
    {ok : α → Prop} {f : Dict κ ν → α → Except ε (Dict κ ν)} {l : List α} {d : Dict κ ν}
    (hstep : ∀ d a d', f d a = .ok d' → ok a ∧ d' = d.set (name a) (value a))
    (hnodup : (l.map name).Nodup) (h : l.foldlM f .empty = .ok d) :
    (d.entries = l.map fun a => (name a, value a)) ∧ ∀ a ∈ l, ok a := by
  let entered (done : List α) (d : Dict κ ν) :=
    (d.entries = done.map fun a => (name a, value a)) ∧ ∀ a ∈ done, ok a
  have hstart : entered [] .empty := ⟨rfl, List.forall_mem_nil _⟩
  have hentered : entered l d := by
    refine foldlM_rule hstart (fun done a rest d d' hl hd hrun => ?_) h
    obtain ⟨hentries, hdone⟩ := hd
    obtain ⟨hok, rfl⟩ := hstep d a d' hrun
    refine ⟨entries_set_next (hl ▸ hnodup) hentries, fun a' ha' => ?_⟩
    rcases List.mem_append.1 ha' with hold | hlast
    · exact hdone a' hold
    · exact List.mem_singleton.1 hlast ▸ hok
  exact hentered

/-! ### Result shapes and transforms -/

/-- The contract of a shape in one source. -/
def sourceSpec (definition : ResultShapeSourceDefinition) : ResultShapeSourceSpec where
  displayEntities := definition.displayEntities
  requiredOutputs := definition.requiredOutputs
  completionGroups := definition.completionGroups
  rowGrain := definition.rowGrain
  resultInvariant := definition.resultInvariant
  minHops := definition.invariantParameters

def ResultShapeDefinition.spec (u : Entities.UnicodeData) (shape : ResultShapeDefinition) :
    ResultShapeSpec where
  shapeId := shape.shapeId
  canonical := shape.canonical
  triggerTermGroups := shape.triggerTermGroups.map (List.map (normalizedTerm u))
  sources := shape.sources.mapValues sourceSpec

def TransformDefinition.spec (transform : TransformDefinition) : TransformSpec where
  transformId := transform.transformId
  outputScale := transform.outputScale
  requiredOutputs := transform.requiredOutputs
  generatorRules := bomShortageRules

/-- A shape refers to roles and aliases of its source. -/
structure ShapeSourceOk (a : Aliases) (entityRoles : Dict String EntityRoleSpec)
    (source : ToolName) (definition : ResultShapeSourceDefinition) : Prop where
  roles : ∀ roleId ∈ definition.displayEntities, ∃ role,
    entityRoles.get? roleId = some role ∧ source ∈ role.projections.keys
  aliases : ∀ name ∈ definition.requiredOutputs ++ definition.rowGrain,
    name ∈ (a.byTool source).keys

/-- A transform refers to aliases of its sources. -/
def TransformOk (a : Aliases) (transform : TransformDefinition) : Prop :=
  ∀ entry ∈ transform.requiredOutputs.entries, ∀ name ∈ entry.2, name ∈ (a.byTool entry.1).keys

theorem mem_rolesOf {entityRoles : Dict String EntityRoleSpec} {source : ToolName}
    {roleId : String} : roleId ∈ rolesOf entityRoles source ↔
      ∃ role, entityRoles.get? roleId = some role ∧ source ∈ role.projections.keys := by
  simp only [rolesOf, List.mem_map, List.mem_filter, decide_eq_true_eq, Prod.exists,
    Dict.get?_eq_some_iff]
  constructor
  · rintro ⟨_, role, ⟨hmem, hsource⟩, rfl⟩
    exact ⟨role, hmem, hsource⟩
  · rintro ⟨role, hmem, hsource⟩
    exact ⟨roleId, role, ⟨hmem, hsource⟩, rfl⟩

theorem compileShapeSource_eq_ok {a : Aliases} {entityRoles : Dict String EntityRoleSpec}
    {shapeId : String} {source : ToolName} {definition : ResultShapeSourceDefinition}
    {spec : ResultShapeSourceSpec} :
    compileShapeSource repr a entityRoles shapeId source definition = .ok spec ↔
      ShapeSourceOk a entityRoles source definition ∧ spec = sourceSpec definition := by
  simp only [compileShapeSource, bind_eq_ok, require_eq_ok, pure_eq_ok, exists_const,
    List.filter_eq_nil_iff, decide_eq_true_eq, not_not, mem_rolesOf]
  constructor
  · rintro ⟨⟨hroles, haliases⟩, rfl⟩
    exact ⟨⟨hroles, haliases⟩, rfl⟩
  · rintro ⟨hok, rfl⟩
    exact ⟨⟨hok.roles, hok.aliases⟩, rfl⟩

/-- A shape is entered once all its sources fit. -/
theorem compileShape_eq_ok {a : Aliases} {entityRoles : Dict String EntityRoleSpec}
    {specs specs' : Dict String ResultShapeSpec} {shape : ResultShapeDefinition}
    (h : compileShape repr u a entityRoles specs shape = .ok specs') :
    (∀ entry ∈ shape.sources.entries, ShapeSourceOk a entityRoles entry.1 entry.2) ∧
      specs' = specs.set shape.shapeId (shape.spec u) := by
  obtain ⟨sources, hsources, hset⟩ := bind_eq_ok.1 h
  have hstep : ∀ (d : Dict ToolName ResultShapeSourceSpec)
      (entry : ToolName × ResultShapeSourceDefinition) (d' : Dict ToolName ResultShapeSourceSpec),
      (do
        let spec ← compileShapeSource repr a entityRoles shape.shapeId entry.1 entry.2
        return d.set entry.1 spec) = Except.ok d' →
      ShapeSourceOk a entityRoles entry.1 entry.2 ∧
        d' = d.set entry.1 (sourceSpec entry.2) := by
    intro d entry d' hrun
    obtain ⟨spec, hspec, hset⟩ := bind_eq_ok.1 hrun
    obtain ⟨hok, rfl⟩ := compileShapeSource_eq_ok.1 hspec
    exact ⟨hok, (pure_eq_ok.1 hset).symm⟩
  obtain ⟨hentries, hok⟩ := entries_of_foldlM hstep shape.sources.nodup hsources
  obtain rfl : sources = shape.sources.mapValues sourceSpec := Dict.ext hentries
  exact ⟨hok, (pure_eq_ok.1 hset).symm⟩

theorem compileTransform_eq_ok {a : Aliases} {specs specs' : Dict String TransformSpec}
    {transform : TransformDefinition} (h : compileTransform repr a specs transform = .ok specs') :
    TransformOk a transform ∧ specs' = specs.set transform.transformId transform.spec := by
  simp only [compileTransform, transformGeneratorRules, checkTransformOutputs, bind_eq_ok,
    pure_eq_ok, forEach_eq_ok, require_eq_ok, exists_const, List.filter_eq_nil_iff,
    decide_eq_true_eq, not_not] at h
  obtain ⟨hok, _, ⟨-, rfl⟩, rfl⟩ := h
  exact ⟨hok, rfl⟩

/-! ### All passes -/

/-- What holds of a catalog, of the schemas and the ontology that it is built from. -/
structure WellFormed (u : Entities.UnicodeData) (schemas : Schemas)
    (ontology : ManufacturingOntology) (catalog : Catalog) : Prop where
  built : Built u schemas ontology catalog.toAliases
  outputRoles : ∀ role ∈ ontology.outputRoles, ∀ source ∈ role.sources,
    RoleEntered u schemas catalog.toAliases role source
  businessConcepts : ∀ concept ∈ ontology.businessConcepts, ∀ source ∈ concept.sources,
    ConceptEntered u catalog.toAliases concept source
  entityRoles : catalog.entityRoles.entries =
    ontology.entityRoles.map fun role => (role.roleId, role.spec u)
  roles : ∀ role ∈ ontology.entityRoles, RoleOk catalog.toAliases role
  sources : ∀ source, ∃ role ∈ ontology.entityRoles, source ∈ role.identityProjection.keys
  resultShapes : catalog.resultShapes.entries =
    ontology.resultShapes.map fun shape => (shape.shapeId, shape.spec u)
  shapes : ∀ shape ∈ ontology.resultShapes, ∀ entry ∈ shape.sources.entries,
    ShapeSourceOk catalog.toAliases catalog.entityRoles entry.1 entry.2
  transforms : catalog.transforms.entries =
    ontology.transforms.map fun transform => (transform.transformId, transform.spec)
  outputs : ∀ transform ∈ ontology.transforms, TransformOk catalog.toAliases transform
  shared : ∀ name, name ∈ catalog.sharedJoinAliases ↔
    name ∈ catalog.identity .sql ∧ name ∈ catalog.identity .graph
  joined : catalog.sharedJoinAliases ≠ []

/-- The entity roles, one after the other. -/
theorem Built.addEntityRoles {a a' : Aliases} {specs : Dict String EntityRoleSpec}
    (hbuilt : Built u schemas ontology a) (hvalid : ontology.Valid u)
    (h : ontology.entityRoles.foldlM (Ontology.addEntityRole repr u) (a, .empty) =
      .ok (a', specs)) :
    Built u schemas ontology a' ∧ Grows a a' ∧
      (specs.entries = ontology.entityRoles.map fun role => (role.roleId, role.spec u)) ∧
      ∀ role ∈ ontology.entityRoles, RoleOk a' role := by
  obtain ⟨-, -, hroles, -, -, -, -, hnodup, -⟩ := hvalid
  let passed (done : List EntityRoleDefinition) (state : Aliases × Dict String EntityRoleSpec) :=
    Built u schemas ontology state.1 ∧ Grows a state.1 ∧
      (state.2.entries = done.map fun role => (role.roleId, role.spec u)) ∧
      ∀ role ∈ done, RoleOk state.1 role
  have hstart : passed [] (a, .empty) := ⟨hbuilt, .refl a, rfl, List.forall_mem_nil _⟩
  have hpassed : passed ontology.entityRoles (a', specs) := by
    refine foldlM_rule hstart (fun done role rest state state' hl hstate hstep => ?_) h
    obtain ⟨hbuilt, hgrows, hentries, hdone⟩ := hstate
    have hmem : role ∈ ontology.entityRoles := hl ▸ List.mem_append_right done List.mem_cons_self
    obtain ⟨hbuilt', hgrows', hok, hset⟩ := hbuilt.addEntityRole (hroles role hmem) hstep
    refine ⟨hbuilt', hgrows.trans hgrows', ?_, fun role' hrole' => ?_⟩
    · rw [hset]
      exact entries_set_next (hl ▸ hnodup) hentries
    · rcases List.mem_append.1 hrole' with hold | hlast
      · exact (hdone role' hold).mono hgrows'
      · exact List.mem_singleton.1 hlast ▸ hok
  exact hpassed

theorem exists_of_rolesOf_ne_nil {specs : Dict String EntityRoleSpec}
    (hentries : specs.entries = ontology.entityRoles.map fun role => (role.roleId, role.spec u))
    {source : ToolName} (h : rolesOf specs source ≠ []) :
    ∃ role ∈ ontology.entityRoles, source ∈ role.identityProjection.keys := by
  obtain ⟨roleId, hmem⟩ := List.exists_mem_of_ne_nil _ h
  obtain ⟨spec, hget, hsource⟩ := mem_rolesOf.1 hmem
  rw [Dict.get?_eq_some_iff, hentries] at hget
  obtain ⟨role, hrole, heq⟩ := List.mem_map.1 hget
  obtain ⟨rfl, rfl⟩ := Prod.mk.inj heq
  exact ⟨role, hrole, hsource⟩

/-- What is built from a valid ontology fits it. -/
theorem wellFormed_of_build {catalog : Catalog} (hvalid : ontology.Valid u)
    (h : buildQuerySemanticCatalog repr u schemas ontology = .ok catalog) :
    WellFormed u schemas ontology catalog := by
  have hconceptsValid := hvalid.2.2.2.1
  obtain ⟨-, -, -, -, -, -, -, -, -, htransformIds, hshapeIds, -⟩ := id hvalid
  obtain ⟨physical, hphysical, h⟩ := bind_eq_ok.1 h
  obtain ⟨withRoles, hroles, h⟩ := bind_eq_ok.1 h
  obtain ⟨withConcepts, hconcepts, h⟩ := bind_eq_ok.1 h
  obtain ⟨⟨a, entityRoles⟩, hentityRoles, h⟩ := bind_eq_ok.1 h
  obtain ⟨_, hcovered, h⟩ := bind_eq_ok.1 h
  obtain ⟨resultShapes, hshapes, h⟩ := bind_eq_ok.1 h
  obtain ⟨transforms, htransforms, h⟩ := bind_eq_ok.1 h
  obtain ⟨_, -, h⟩ := bind_eq_ok.1 h
  obtain ⟨_, hjoined, h⟩ := bind_eq_ok.1 h
  cases pure_eq_ok.1 h
  -- the passes that enter aliases
  obtain ⟨hbuilt, -, hroleEntered⟩ := (Built.of_compilePhysicalAliases hphysical).pass
    (p := fun b role => ∀ source ∈ role.sources, RoleEntered u schemas b role source)
    (fun hgrows hentered source hsource => (hentered source hsource).mono hgrows)
    (fun role hmem b b' hb hstep => Built.addOutputRole hb hmem hstep) hroles
  obtain ⟨hbuilt, hgrows, hconceptEntered⟩ := hbuilt.pass
    (p := fun b concept => ∀ source ∈ concept.sources, ConceptEntered u b concept source)
    (fun hgrows hentered source hsource => (hentered source hsource).mono hgrows)
    (fun concept hmem b b' hb hstep => hb.addConcept hmem (hconceptsValid concept hmem) hstep)
    hconcepts
  obtain ⟨hbuilt, hgrows', hentries, hfits⟩ := hbuilt.addEntityRoles hvalid hentityRoles
  -- the rest refers to what has been entered
  obtain ⟨hshapeEntries, hshapesOk⟩ := entries_of_foldlM
    (fun _ _ _ hstep => compileShape_eq_ok hstep) hshapeIds hshapes
  obtain ⟨htransformEntries, htransformsOk⟩ := entries_of_foldlM
    (fun _ _ _ hstep => compileTransform_eq_ok hstep) htransformIds htransforms
  have hbothCovered := forEach_eq_ok.1 hcovered
  refine ⟨hbuilt, fun role hmem source hsource => ?_, fun concept hmem source hsource => ?_,
    hentries, hfits, fun source => ?_, hshapeEntries, hshapesOk, htransformEntries,
    htransformsOk, fun name => ?_, require_eq_ok.1 hjoined⟩
  · exact ((hroleEntered role hmem source hsource).mono hgrows).mono hgrows'
  · exact (hconceptEntered concept hmem source hsource).mono hgrows'
  · have hsource : source ∈ bothTools := by cases source <;> decide
    exact exists_of_rolesOf_ne_nil hentries (require_eq_ok.1 (hbothCovered source hsource))
  · simp [List.mem_filter]

/-! ### The catalog of the planner -/

/-- What output planning reads of a catalog. -/
def Catalog.query (catalog : Catalog) (h : WellFormed u schemas ontology catalog) :
    Planning.QuerySemanticCatalog where
  byTool source := (catalog.byTool source).mapValues fun spec => ⟨spec.operation⟩
  identityAliases := catalog.identity
  sharedJoinAliases := catalog.sharedJoinAliases
  entityRoles := catalog.entityRoles.mapValues fun role =>
    { projections := role.projections.get?
      predicates := fun source => (role.predicates.get? source).getD [] }
  identity_subset := by
    intro source name hname
    obtain ⟨spec, hget, -⟩ := (h.built.sound.identity source name).1 hname
    rw [Dict.keys_mapValues]
    exact Dict.get?_isSome_iff.1 (Option.isSome_iff_exists.2 ⟨spec, hget⟩)
  shared_iff := h.shared
  projection_spec := by
    intro role hrole source projection hget
    simp only [Dict.values, Dict.mapValues, List.map_map, h.entityRoles, List.mem_map,
      Function.comp_apply] at hrole
    obtain ⟨definition, hdefinition, rfl⟩ := hrole
    have hok := (h.roles definition hdefinition).projections _ (Dict.get?_eq_some_iff.1 hget)
    obtain ⟨owners, -, hkeys, hlabels⟩ := hok.related
    refine ⟨hok.valid.1, fun name hname => ?_⟩
    rw [Dict.keys_mapValues]
    apply Dict.get?_isSome_iff.1
    rcases List.mem_append.1 hname with hname | hname
    · obtain ⟨spec, hspec, -⟩ := hkeys name hname
      exact Option.isSome_iff_exists.2 ⟨spec, hspec⟩
    · obtain ⟨spec, hspec, -⟩ := hlabels name hname
      exact Option.isSome_iff_exists.2 ⟨spec, hspec⟩

theorem allowedAliases_query {catalog : Catalog} (h : WellFormed u schemas ontology catalog)
    (source : ToolName) : (catalog.query h).allowedAliases source = (catalog.byTool source).keys :=
  Dict.keys_mapValues _ _

theorem mem_allowedEntityRoles_query {catalog : Catalog}
    (h : WellFormed u schemas ontology catalog) {source : ToolName} {roleId : String} :
    roleId ∈ (catalog.query h).allowedEntityRoles source ↔
      roleId ∈ rolesOf catalog.entityRoles source := by
  have hsome : (fun entry : String × EntityRoleSpec =>
      (entry.2.projections.get? source).isSome) =
        fun entry => decide (source ∈ entry.2.projections.keys) := by
    funext entry
    rw [Bool.eq_iff_iff, Dict.get?_isSome_iff, decide_eq_true_eq]
  simp only [Planning.QuerySemanticCatalog.allowedEntityRoles, Catalog.query, rolesOf,
    Dict.mapValues, List.filter_map, List.map_map, Function.comp_def, hsome]

/-- The contract that the planner finds for a shape is the one in the catalog. -/
theorem resultShapeSource_query {catalog : Catalog} (h : WellFormed u schemas ontology catalog)
    {shape : ResultShapeDefinition} (hshape : shape ∈ ontology.resultShapes)
    (hvalid : shape.Valid u) {source : ToolName} {definition : ResultShapeSourceDefinition}
    (hsource : shape.sources.get? source = some definition) :
    Planning.resultShapeSource repr (catalog.query h) source shape.shapeId definition =
      .ok (sourceSpec definition).toResultShapeSourceSpec := by
  have hentry := Dict.get?_eq_some_iff.1 hsource
  have hok := h.shapes shape hshape (source, definition) hentry
  have hdefinition : Planning.validateDefinition definition = .ok () := by
    have hisOk := hvalid.2.2.2.2 definition (Dict.mem_values_of_get? hsource)
    cases hrun : Planning.validateDefinition definition with
    | ok => rfl
    | error e =>
      rw [hrun] at hisOk
      cases hisOk
  simp only [Planning.resultShapeSource, hdefinition, ok_bind, bind_eq_ok, require_eq_ok,
    exists_const, List.filter_eq_nil_iff, decide_eq_true_eq, not_not,
    mem_allowedEntityRoles_query, mem_rolesOf, allowedAliases_query]
  exact ⟨⟨hok.roles, hok.aliases⟩, rfl⟩

/-- **A catalog that is returned fits its schemas and its ontology**, and the planner finds the
contracts of the ontology in it. -/
theorem load_wellFormed {catalog : Catalog}
    (hload : loadQuerySemanticCatalog repr u schemas ontology = .ok catalog) :
    ∃ h : WellFormed u schemas ontology catalog,
      ∀ shape ∈ ontology.resultShapes, ∀ source definition,
        shape.sources.get? source = some definition →
          Planning.resultShapeSource repr (catalog.query h) source shape.shapeId definition =
            .ok (sourceSpec definition).toResultShapeSourceSpec := by
  obtain ⟨⟨⟩, hvalid, hbuild⟩ := bind_eq_ok.1 hload
  rw [require_eq_ok] at hvalid
  have hwell := wellFormed_of_build hvalid hbuild
  exact ⟨hwell, fun shape hshape source definition hsource =>
    resultShapeSource_query hwell hshape (hvalid.2.2.2.2.1 shape hshape) hsource⟩

/-! ### A catalog of products -/

/-- Products, in a table and as nodes. -/
def productSchemas : Schemas where
  sql := ⟨.ofEntries [("production.product",
    { aliases := []
      columns := .ofEntries [("productid", ⟨true, false, []⟩), ("name", ⟨false, false, ["품명"]⟩)]
      outputAliases := .ofEntries [("productid", ["productId"]), ("name", ["productName"])] })]⟩
  graph :=
    { nodes := .ofEntries [("Product",
        { aliases := ["제품"]
          properties := .ofEntries [("productID", ⟨true, []⟩), ("name", ⟨false, []⟩)]
          uniqueKey := some "productID"
          outputAliases := .ofEntries [("productID", ["productId"]), ("name", ["productName"])] })]
      relationships := .empty }

/-- A role, a count and a shape of products. -/
def productOntology : ManufacturingOntology where
  ontologyVersion := "1"
  outputRoles := [
    { roleId := "label"
      aliasName := "label"
      canonical := "label"
      terms := []
      valueType := .scalar
      mappings := fun
        | .sql => ["production.product.name"]
        | .graph => [] }]
  entityRoles := [
    { roleId := "product"
      canonical := "product"
      terms := ["item"]
      identityProjection := .ofEntries [
        (.sql, ⟨["productId"], ["productName", "label"]⟩), (.graph, ⟨["productId"], []⟩)]
      predicates := .empty }]
  businessConcepts := [
    { conceptId := "productCount"
      aliasName := "productCount"
      canonical := "number of products"
      terms := []
      kind := .aggregate
      sources := [.graph]
      grain := ["productName"]
      operation := .count
      inputs := ["productId"]
      predicates := [] }]
  resultShapes := [
    { shapeId := "products"
      canonical := "list of products"
      triggerTermGroups := [["products"]]
      sources := .ofEntries [(.graph,
        { displayEntities := ["product"]
          requiredOutputs := ["productCount"]
          rowGrain := ["productId"]
          completionGroups := []
          resultInvariant := none
          invariantParameters := none })] }]
  transforms := []

theorem load_wellFormed_products : ∃ catalog, ∃ h : WellFormed Entities.asciiData productSchemas
    productOntology catalog, ∀ shape ∈ productOntology.resultShapes, ∀ source definition,
      shape.sources.get? source = some definition →
        Planning.resultShapeSource (fun _ => "") (catalog.query h) source shape.shapeId definition =
          .ok (sourceSpec definition).toResultShapeSourceSpec := by
  have hok : (loadQuerySemanticCatalog (fun _ => "") Entities.asciiData productSchemas
      productOntology).isOk = true := by decide +kernel
  cases hload : loadQuerySemanticCatalog (fun _ => "") Entities.asciiData productSchemas
      productOntology with
  | ok catalog => exact ⟨catalog, load_wellFormed hload⟩
  | error e =>
    rw [hload] at hok
    cases hok

end Ontology
