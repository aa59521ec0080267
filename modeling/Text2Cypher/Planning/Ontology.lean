import Text2Cypher.Entities.ComparisonText
import Text2Cypher.Planning.ResultShapes

/-!
# The ontology and its catalog

`build_query_semantic_catalog` compiles the two physical schemas and the ontology into the catalog
that the planner reads.  The aliases are entered in four passes: physical fields, output roles,
business concepts, and the labels of entity roles, which become names; result shapes and transforms
refer to what is there by then.

The validators of the models are the predicates `Valid`: pydantic collects their complaints into one
error.  The fingerprint of a catalog is left out.

* `compilePhysicalAliases`, `addOutputRole`, `addConcept`, `addEntityRole`: the passes;
* `loadQuerySemanticCatalog`: validation and compilation.
-/

namespace Ontology

open Planning (PlanError TypedPredicate IdentityProjection SemanticOperation
  ResultShapeSourceDefinition Json joinSorted orderedUnion splitDot splitDotFrom toolText)
open Checks

/-! ### Schemas -/

structure ColumnSchema where
  primaryKey : Bool
  nullable : Bool
  aliases : List String

structure TableSchema where
  aliases : List String
  columns : Dict String ColumnSchema
  outputAliases : Dict String (List String)

structure SqlSchema where
  tables : Dict String TableSchema

structure PropertySchema where
  required : Bool
  aliases : List String

/-- A node, or a relationship, which has no unique key. -/
structure NodeSchema where
  aliases : List String
  properties : Dict String PropertySchema
  uniqueKey : Option String
  outputAliases : Dict String (List String)

structure GraphSchema where
  nodes : Dict String NodeSchema
  relationships : Dict String NodeSchema

/-! ### The ontology -/

inductive SemanticKind
  | physical
  | role
  | aggregate
  | derived
  | path
  deriving DecidableEq

inductive ValueType
  | identity
  | name
  | scalar
  | path
  deriving DecidableEq

structure OutputRoleDefinition where
  roleId : String
  aliasName : String
  canonical : String
  terms : List String
  valueType : ValueType
  /-- `SourceMappings` -/
  mappings : ToolName → List String

structure EntityRoleDefinition where
  roleId : String
  canonical : String
  terms : List String
  identityProjection : Dict ToolName IdentityProjection
  predicates : Dict ToolName (List TypedPredicate)

structure ResultShapeDefinition where
  shapeId : String
  canonical : String
  triggerTermGroups : List (List String)
  sources : Dict ToolName ResultShapeSourceDefinition

structure BusinessConceptDefinition where
  conceptId : String
  aliasName : String
  canonical : String
  terms : List String
  kind : SemanticKind
  sources : List ToolName
  grain : List String
  operation : SemanticOperation
  inputs : List String
  predicates : List TypedPredicate

structure TransformDefinition where
  transformId : String
  outputScale : ℕ
  requiredOutputs : Dict ToolName (List String)

structure ManufacturingOntology where
  ontologyVersion : String
  outputRoles : List OutputRoleDefinition
  entityRoles : List EntityRoleDefinition
  businessConcepts : List BusinessConceptDefinition
  resultShapes : List ResultShapeDefinition
  transforms : List TransformDefinition

section

variable (u : Entities.UnicodeData)

/-- `_normalized_term`. -/
def normalizedTerm (value : String) : String :=
  String.ofList (Squeezing.squeeze Python.isSpace ' ' (Entities.casefold u value.toList))

/-- `_validate_local_terms`. -/
def ValidLocalTerms (canonical : String) (terms : List String) : Prop :=
  "" ∉ (canonical :: terms).map (normalizedTerm u) ∧
    ((canonical :: terms).map (normalizedTerm u)).Nodup

def OutputRoleDefinition.Valid (role : OutputRoleDefinition) : Prop :=
  (role.mappings .sql).Nodup ∧ (role.mappings .graph).Nodup ∧
    ¬ (role.mappings .sql = [] ∧ role.mappings .graph = []) ∧
    ValidLocalTerms u role.canonical role.terms

/-- `IdentityProjectionDefinition.validate_aliases`, and the length of its keys. -/
def ValidProjection (definition : IdentityProjection) : Prop :=
  definition.keys ≠ [] ∧ definition.keys.Nodup ∧ definition.labels.Nodup ∧
    ∀ name ∈ definition.keys, name ∉ definition.labels

def EntityRoleDefinition.Valid (role : EntityRoleDefinition) : Prop :=
  ValidLocalTerms u role.canonical role.terms ∧ role.identityProjection.keys ≠ [] ∧
    (∀ source ∈ role.predicates.keys, source ∈ role.identityProjection.keys) ∧
    ∀ definition ∈ role.identityProjection.values, ValidProjection definition

def ResultShapeDefinition.Valid (shape : ResultShapeDefinition) : Prop :=
  shape.triggerTermGroups ≠ [] ∧ shape.sources.keys ≠ [] ∧
    (∀ group ∈ shape.triggerTermGroups, group ≠ [] ∧ (group.map (normalizedTerm u)).Nodup) ∧
    (shape.triggerTermGroups.map (List.map (normalizedTerm u))).Nodup ∧
    ∀ definition ∈ shape.sources.values, (Planning.validateDefinition definition).isOk = true

/-- `_OPERATIONS_BY_KIND`. -/
def operationsByKind : SemanticKind → List SemanticOperation
  | .aggregate => [.count, .countDistinct, .sum, .average]
  | .derived => [.difference, .clampedDifference]
  | .path => [.pathLength, .minimumPathLength, .orderedPathProjection]
  | .physical | .role => []

/-- `_OPERATION_INPUT_ARITY`; a role projection is no operation of a concept. -/
def operationInputArity : SemanticOperation → ℕ × ℕ
  | .roleProjection => (0, 0)
  | .count => (0, 1)
  | .countDistinct | .sum | .average => (1, 1)
  | .difference | .clampedDifference => (2, 2)
  | .pathLength => (0, 0)
  | .minimumPathLength | .orderedPathProjection => (1, 1)

def BusinessConceptDefinition.Valid (concept : BusinessConceptDefinition) : Prop :=
  ValidLocalTerms u concept.canonical concept.terms ∧ concept.sources ≠ [] ∧
    concept.sources.Nodup ∧ concept.grain.Nodup ∧ concept.inputs.Nodup ∧
    concept.operation ∈ operationsByKind concept.kind ∧
    (operationInputArity concept.operation).1 ≤ concept.inputs.length ∧
    concept.inputs.length ≤ (operationInputArity concept.operation).2

def TransformDefinition.Valid (transform : TransformDefinition) : Prop :=
  transform.transformId = "bom_shortage_v1" ∧ transform.outputScale ≤ 12 ∧
    .sql ∈ transform.requiredOutputs.keys ∧ .graph ∈ transform.requiredOutputs.keys ∧
    ∀ aliases ∈ transform.requiredOutputs.values, aliases ≠ [] ∧ aliases.Nodup

/-- `validate_identifiers`, and the validators of the parts. -/
def ManufacturingOntology.Valid (ontology : ManufacturingOntology) : Prop :=
  (∀ role ∈ ontology.outputRoles, role.Valid u) ∧ ontology.entityRoles ≠ [] ∧
    (∀ role ∈ ontology.entityRoles, role.Valid u) ∧
    (∀ concept ∈ ontology.businessConcepts, concept.Valid u) ∧
    (∀ shape ∈ ontology.resultShapes, shape.Valid u) ∧
    (∀ transform ∈ ontology.transforms, transform.Valid) ∧
    (ontology.outputRoles.map OutputRoleDefinition.roleId).Nodup ∧
    (ontology.entityRoles.map EntityRoleDefinition.roleId).Nodup ∧
    (ontology.businessConcepts.map BusinessConceptDefinition.conceptId).Nodup ∧
    (ontology.transforms.map TransformDefinition.transformId).Nodup ∧
    (ontology.resultShapes.map ResultShapeDefinition.shapeId).Nodup ∧
    (ontology.outputRoles.map OutputRoleDefinition.aliasName ++
      ontology.businessConcepts.map BusinessConceptDefinition.aliasName).Nodup

instance (canonical : String) (terms : List String) : Decidable (ValidLocalTerms u canonical terms) :=
  inferInstanceAs (Decidable (_ ∧ _))

instance (role : OutputRoleDefinition) : Decidable (role.Valid u) :=
  inferInstanceAs (Decidable (_ ∧ _ ∧ _ ∧ _))

instance (definition : IdentityProjection) : Decidable (ValidProjection definition) :=
  inferInstanceAs (Decidable (_ ∧ _ ∧ _ ∧ _))

instance (role : EntityRoleDefinition) : Decidable (role.Valid u) :=
  inferInstanceAs (Decidable (_ ∧ _ ∧ _ ∧ _))

instance (shape : ResultShapeDefinition) : Decidable (shape.Valid u) :=
  inferInstanceAs (Decidable (_ ∧ _ ∧ _ ∧ _ ∧ _))

instance (concept : BusinessConceptDefinition) : Decidable (concept.Valid u) :=
  inferInstanceAs (Decidable (_ ∧ _ ∧ _ ∧ _ ∧ _ ∧ _ ∧ _ ∧ _))

instance (transform : TransformDefinition) : Decidable transform.Valid :=
  inferInstanceAs (Decidable (_ ∧ _ ∧ _ ∧ _ ∧ _))

instance (ontology : ManufacturingOntology) : Decidable (ontology.Valid u) :=
  inferInstanceAs (Decidable (_ ∧ _ ∧ _ ∧ _ ∧ _ ∧ _ ∧ _ ∧ _ ∧ _ ∧ _ ∧ _ ∧ _))

end

/-! ### The catalog -/

structure AliasSpec where
  aliasName : String
  canonical : String
  canonicalSource : ToolName
  sources : List ToolName
  kind : SemanticKind
  valueType : ValueType
  schemaPaths : List String
  terms : List String
  ownerTerms : List String
  nullable : Bool
  grain : List String
  operation : Option SemanticOperation
  inputs : List String
  predicates : List TypedPredicate

structure EntityRoleSpec where
  roleId : String
  canonical : String
  terms : List String
  projections : Dict ToolName IdentityProjection
  predicates : Dict ToolName (List TypedPredicate)

structure ResultShapeSourceSpec extends Planning.ResultShapeSourceSpec where
  rowGrain : List String
  resultInvariant : Option String
  minHops : Option ℕ

structure ResultShapeSpec where
  shapeId : String
  canonical : String
  triggerTermGroups : List (List String)
  sources : Dict ToolName ResultShapeSourceSpec

structure TransformSpec where
  transformId : String
  outputScale : ℕ
  requiredOutputs : Dict ToolName (List String)
  generatorRules : ToolName → List String

/-- `by_tool` and `identity_aliases`, while they are filled. -/
structure Aliases where
  byTool : ToolName → Dict String AliasSpec
  identity : ToolName → List String

/-- `QuerySemanticCatalog`. -/
structure Catalog extends Aliases where
  ontologyVersion : String
  sharedJoinAliases : List String
  entityRoles : Dict String EntityRoleSpec
  resultShapes : Dict String ResultShapeSpec
  transforms : Dict String TransformSpec

/-- `by_tool[source][alias] = spec`. -/
def Aliases.enter (a : Aliases) (source : ToolName) (name : String) (spec : AliasSpec) :
    Aliases :=
  { a with byTool := Function.update a.byTool source ((a.byTool source).set name spec) }

/-- `identity_aliases[source].add(alias)`. -/
def Aliases.addIdentity (a : Aliases) (source : ToolName) (name : String) : Aliases :=
  { a with identity := Function.update a.identity source (name :: a.identity source) }

/-! ### Physical aliases -/

/-- An alias that the schema gives to a field, with the arguments of `_merge_physical_alias`. -/
structure Declaration where
  aliasName : String
  path : String
  terms : List String
  ownerTerms : List String
  nullable : Bool
  isIdentity : Bool

def pathOf (owner field : String) : String := owner ++ "." ++ field

/-- The text behind the last dot, and the text in front of it: `path.rsplit(".", 1)`. -/
def rsplitDot (path : String) : Option (String × String) :=
  (splitDotFrom path.toList.reverse).map fun parts =>
    (String.ofList parts.2.reverse, String.ofList parts.1.reverse)

/-- `path.rsplit(".", 1)[0]`. -/
def ownerOf (path : String) : String := ((rsplitDot path).map Prod.fst).getD path

/-- `table_name.rsplit(".", 1)[-1]`. -/
def shortName (tableName : String) : String := ((rsplitDot tableName).map Prod.snd).getD tableName

def tableDeclarations (tableName : String) (table : TableSchema) : List Declaration :=
  table.columns.entries.flatMap fun (columnName, column) =>
    ((table.outputAliases.get? columnName).getD []).map fun name =>
      { aliasName := name
        path := pathOf tableName columnName
        terms := name :: columnName :: column.aliases
        ownerTerms := tableName :: shortName tableName :: table.aliases
        nullable := column.nullable
        isIdentity := column.primaryKey }

def nodeDeclarations (nodeName : String) (node : NodeSchema) : List Declaration :=
  node.properties.entries.flatMap fun (propertyName, property) =>
    ((node.outputAliases.get? propertyName).getD []).map fun name =>
      { aliasName := name
        path := pathOf nodeName propertyName
        terms := name :: propertyName :: property.aliases
        ownerTerms := nodeName :: node.aliases
        nullable := !property.required
        isIdentity := node.uniqueKey = some propertyName }

structure Schemas where
  sql : SqlSchema
  graph : GraphSchema

def Schemas.declarations (schemas : Schemas) : ToolName → List Declaration
  | .sql => schemas.sql.tables.entries.flatMap fun (name, table) => tableDeclarations name table
  | .graph => (schemas.graph.nodes.entries ++ schemas.graph.relationships.entries).flatMap
      fun (name, node) => nodeDeclarations name node

/-- `sql_paths` and `graph_paths`. -/
def Schemas.paths (schemas : Schemas) : ToolName → List String
  | .sql => schemas.sql.tables.entries.flatMap fun (name, table) =>
      table.columns.keys.map (pathOf name)
  | .graph => (schemas.graph.nodes.entries ++ schemas.graph.relationships.entries).flatMap
      fun (name, node) => node.properties.keys.map (pathOf name)

section

variable (repr : Json → String)

/-- `_merge_physical_alias`. -/
def mergePhysicalAlias (source : ToolName) (a : Aliases) (d : Declaration) :
    Except PlanError Aliases :=
  match (a.byTool source).get? d.aliasName with
  | none => .ok (a.enter source d.aliasName
      { aliasName := d.aliasName
        canonical := d.path ++ " physical field"
        canonicalSource := source
        sources := [source]
        kind := .physical
        valueType := if d.isIdentity then .identity else .scalar
        schemaPaths := [d.path]
        terms := orderedUnion [d.terms]
        ownerTerms := orderedUnion [d.ownerTerms]
        nullable := d.nullable
        grain := []
        operation := none
        inputs := []
        predicates := [] })
  | some existing => do
      require (existing.kind = .physical) (.valueError
        ("physical alias " ++ repr (.str d.aliasName) ++ " collides with semantic output"))
      return a.enter source d.aliasName
        { aliasName := d.aliasName
          canonical := existing.canonical
          canonicalSource := source
          sources := existing.sources
          kind := .physical
          valueType := if d.isIdentity then .identity else existing.valueType
          schemaPaths := existing.schemaPaths ++ [d.path]
          terms := orderedUnion [existing.terms, d.terms]
          ownerTerms := orderedUnion [existing.ownerTerms, d.ownerTerms]
          nullable := existing.nullable || d.nullable
          grain := []
          operation := none
          inputs := []
          predicates := [] }

/-- One alias of one field. -/
def addDeclaration (source : ToolName) (a : Aliases) (d : Declaration) :
    Except PlanError Aliases := do
  let a ← mergePhysicalAlias repr source a d
  return if d.isIdentity then a.addIdentity source d.aliasName else a

/-- `_compile_physical_aliases`. -/
def compilePhysicalAliases (schemas : Schemas) : Except PlanError Aliases := do
  let a ← (schemas.declarations .sql).foldlM (addDeclaration repr .sql)
    ⟨fun _ => .empty, fun _ => []⟩
  (schemas.declarations .graph).foldlM (addDeclaration repr .graph) a

/-! ### Output roles -/

/-- `_reject_alias_collision`. -/
def rejectAliasCollision (target : Dict String AliasSpec) (name semanticKind : String) :
    Except PlanError Unit :=
  require (name ∉ target.keys) (.valueError (semanticKind ++ " alias " ++ repr (.str name) ++
    " collides with a physical or semantic alias"))

/-- `d[key]`. -/
def lookup {ν : Type} (d : Dict String ν) (key : String) : Except PlanError ν :=
  match d.get? key with
  | some v => .ok v
  | none => .error (.keyError key)

/-- Unpacking the two parts of a path. -/
def unpack (parts : Option (String × String)) : Except PlanError (String × String) :=
  match parts with
  | some parts => .ok parts
  | none => .error (.valueError "not enough values to unpack (expected 2, got 1)")

/-- `_path_nullable`. -/
def pathNullable (schemas : Schemas) (source : ToolName) (path : String) :
    Except PlanError Bool :=
  match source with
  | .sql => do
      let (tableName, columnName) ← unpack (rsplitDot path)
      let table ← lookup schemas.sql.tables tableName
      let column ← lookup table.columns columnName
      return column.nullable
  | .graph => do
      let (owner, propertyName) ← unpack (splitDot path)
      match schemas.graph.nodes.get? owner with
      | some node => do
          let property ← lookup node.properties propertyName
          return !property.required
      | none => do
          let relationship ← lookup schemas.graph.relationships owner
          let property ← lookup relationship.properties propertyName
          return !property.required

/-- `any` over the paths, which stops at the first one that is nullable. -/
def anyNullable (schemas : Schemas) (source : ToolName) : List String → Except PlanError Bool
  | [] => .ok false
  | path :: paths => do
      if ← pathNullable schemas source path then return true
      anyNullable schemas source paths

def bothTools : List ToolName := [.sql, .graph]

/-- The alias and the canonical name, and the other terms in the order of their normal forms. -/
def termsOf (u : Entities.UnicodeData) (name canonical : String) (terms : List String) :
    List String :=
  name :: canonical :: terms.insertionSort fun s t => normalizedTerm u s ≤ normalizedTerm u t

/-- The sources of a role, `role_sources`. -/
def OutputRoleDefinition.sources (role : OutputRoleDefinition) : List ToolName :=
  bothTools.filter fun source => role.mappings source ≠ []

variable (u : Entities.UnicodeData) (schemas : Schemas)

/-- The entry of a role in one of its sources. -/
def OutputRoleDefinition.spec (role : OutputRoleDefinition) (source : ToolName) (nullable : Bool) :
    AliasSpec where
  aliasName := role.aliasName
  canonical := role.canonical
  canonicalSource := source
  sources := role.sources
  kind := .role
  valueType := role.valueType
  schemaPaths := role.mappings source
  terms := termsOf u role.aliasName role.canonical role.terms
  ownerTerms := orderedUnion [(role.mappings source).map ownerOf]
  nullable
  grain := []
  operation := some .roleProjection
  inputs := []
  predicates := []

/-- A role in one of its sources. -/
def addOutputRoleTo (role : OutputRoleDefinition) (a : Aliases) (source : ToolName) :
    Except PlanError Aliases := do
  let unknownPaths := (role.mappings source).filter (· ∉ schemas.paths source)
  require (unknownPaths = []) (.valueError ("role " ++ repr (.str role.roleId) ++
    " references unknown " ++ toolText source ++ " paths: " ++ joinSorted unknownPaths))
  rejectAliasCollision repr (a.byTool source) role.aliasName "output role"
  let nullable ← anyNullable schemas source (role.mappings source)
  let a := a.enter source role.aliasName (role.spec u source nullable)
  return if role.valueType = .identity then a.addIdentity source role.aliasName else a

/-- The order of `role_sources`, a set, decides which error is raised only. -/
def addOutputRole (a : Aliases) (role : OutputRoleDefinition) : Except PlanError Aliases :=
  role.sources.foldlM (addOutputRoleTo repr u schemas role) a

/-! ### Business concepts -/

/-- The aliases that a concept refers to. -/
def BusinessConceptDefinition.references (concept : BusinessConceptDefinition) : List String :=
  concept.inputs ++ concept.grain ++ concept.predicates.map TypedPredicate.field

/-- The entry of a concept. -/
def BusinessConceptDefinition.spec (concept : BusinessConceptDefinition)
    (canonicalSource : ToolName) : AliasSpec where
  aliasName := concept.aliasName
  canonical := concept.canonical
  canonicalSource
  sources := concept.sources
  kind := concept.kind
  valueType := if concept.kind = .path then .path else .scalar
  schemaPaths := []
  terms := termsOf u concept.aliasName concept.canonical concept.terms
  ownerTerms := []
  nullable := false
  grain := concept.grain
  operation := some concept.operation
  inputs := concept.inputs
  predicates := concept.predicates

/-- A concept in one of its sources. -/
def addConceptTo (concept : BusinessConceptDefinition) (canonicalSource : ToolName) (a : Aliases)
    (source : ToolName) : Except PlanError Aliases := do
  rejectAliasCollision repr (a.byTool source) concept.aliasName "business concept"
  let missing := concept.references.filter (· ∉ (a.byTool source).keys)
  require (missing = []) (.valueError ("concept " ++ repr (.str concept.conceptId) ++
    " references aliases unavailable from " ++ toolText source ++ ": " ++ joinSorted missing))
  return a.enter source concept.aliasName (concept.spec u canonicalSource)

def addConcept (a : Aliases) (concept : BusinessConceptDefinition) : Except PlanError Aliases :=
  match concept.sources with
  | [] => .ok a
  | source :: _ => concept.sources.foldlM (addConceptTo repr u concept source) a

/-! ### Entity roles -/

/-- `_physical_owners`. -/
def AliasSpec.physicalOwners (spec : AliasSpec) : List String := spec.schemaPaths.map ownerOf

/-- `set.intersection(*…)`. -/
def intersection : List (List String) → Except PlanError (List String)
  | [] => .error (.typeError "unbound method set.intersection() needs an argument")
  | owners :: rest => .ok (owners.filter fun owner => ∀ others ∈ rest, owner ∈ others)

/-- The labels become names. -/
def nameLabel (source : ToolName) (a : Aliases) (label : String) : Aliases :=
  match (a.byTool source).get? label with
  | some spec =>
      if spec.valueType = .scalar then a.enter source label { spec with valueType := .name } else a
  | none => a

/-- A projection of a role. -/
def addProjection (roleId : String) (a : Aliases) (source : ToolName)
    (definition : IdentityProjection) : Except PlanError Aliases := do
  let available := a.byTool source
  let about := "entity role " ++ repr (.str roleId)
  let unknown := definition.displayAliases.filter (· ∉ available.keys)
  require (unknown = []) (.valueError (about ++ " references aliases unavailable from " ++
    toolText source ++ ": " ++ joinSorted unknown))
  let invalidKeys := definition.keys.filter fun name =>
    (available.get? name).any fun spec => spec.valueType ≠ .identity
  require (invalidKeys = []) (.valueError (about ++ " has non-identity " ++ toolText source ++
    " keys: " ++ joinSorted invalidKeys))
  let invalidLabels := definition.labels.filter fun name =>
    (available.get? name).any fun spec => spec.valueType ∈ [.identity, .path] ∨
      spec.kind ∈ [.aggregate, .derived, .path]
  require (invalidLabels = []) (.valueError (about ++ " has non-display " ++ toolText source ++
    " labels: " ++ joinSorted invalidLabels))
  let sharedKeyOwners ← intersection
    ((definition.keys.filterMap available.get?).map AliasSpec.physicalOwners)
  require (sharedKeyOwners ≠ []) (.valueError (about ++ " has unrelated " ++ toolText source ++
    " identity key owners"))
  let unrelatedLabels := definition.labels.filter fun name =>
    (available.get? name).any fun spec =>
      ∀ owner ∈ spec.physicalOwners, owner ∉ sharedKeyOwners
  require (unrelatedLabels = []) (.valueError (about ++ " has labels unrelated to its " ++
    toolText source ++ " identity owner: " ++ joinSorted unrelatedLabels))
  return definition.labels.foldl (nameLabel source) a

/-- The predicates of a role in one source. -/
def checkPredicates (roleId : String) (a : Aliases) (source : ToolName)
    (definitions : List TypedPredicate) : Except PlanError Unit := do
  let unknown := (definitions.map TypedPredicate.field).filter (· ∉ (a.byTool source).keys)
  require (unknown = []) (.valueError ("entity role " ++ repr (.str roleId) ++
    " predicates reference aliases unavailable from " ++ toolText source ++ ": " ++
    joinSorted unknown))

def addEntityRole (state : Aliases × Dict String EntityRoleSpec) (role : EntityRoleDefinition) :
    Except PlanError (Aliases × Dict String EntityRoleSpec) := do
  let a ← role.identityProjection.entries.foldlM
    (fun a entry => addProjection repr role.roleId a entry.1 entry.2) state.1
  forEach (fun entry => checkPredicates repr role.roleId a entry.1 entry.2) role.predicates.entries
  return (a, state.2.set role.roleId
    { roleId := role.roleId
      canonical := role.canonical
      terms := termsOf u role.roleId role.canonical role.terms
      projections := role.identityProjection
      predicates := role.predicates })

/-! ### Result shapes and transforms -/

/-- `allowed_entity_roles`, not sorted. -/
def rolesOf (entityRoles : Dict String EntityRoleSpec) (source : ToolName) : List String :=
  (entityRoles.entries.filter fun entry => source ∈ entry.2.projections.keys).map Prod.fst

/-- A shape in one of its sources. -/
def compileShapeSource (a : Aliases) (entityRoles : Dict String EntityRoleSpec) (shapeId : String)
    (source : ToolName) (definition : ResultShapeSourceDefinition) :
    Except PlanError ResultShapeSourceSpec := do
  let unknownRoles := definition.displayEntities.filter (· ∉ rolesOf entityRoles source)
  let unknownAliases := (definition.requiredOutputs ++ definition.rowGrain).filter
    (· ∉ (a.byTool source).keys)
  require (unknownRoles = [] ∧ unknownAliases = []) (.valueError ("result shape " ++
    repr (.str shapeId) ++ " references values unavailable from " ++ toolText source ++ ": " ++
    joinSorted (unknownRoles ++ unknownAliases)))
  return {
    displayEntities := definition.displayEntities
    requiredOutputs := definition.requiredOutputs
    completionGroups := definition.completionGroups
    rowGrain := definition.rowGrain
    resultInvariant := definition.resultInvariant
    minHops := definition.invariantParameters }

def compileShape (a : Aliases) (entityRoles : Dict String EntityRoleSpec)
    (resultShapes : Dict String ResultShapeSpec) (shape : ResultShapeDefinition) :
    Except PlanError (Dict String ResultShapeSpec) := do
  let sources ← shape.sources.entries.foldlM (fun sources entry => do
    let spec ← compileShapeSource repr a entityRoles shape.shapeId entry.1 entry.2
    return sources.set entry.1 spec) Dict.empty
  return resultShapes.set shape.shapeId
    { shapeId := shape.shapeId
      canonical := shape.canonical
      triggerTermGroups := shape.triggerTermGroups.map (List.map (normalizedTerm u))
      sources }

/-- The rules of the one transform. -/
def bomShortageRules : ToolName → List String
  | .graph => [
      "anchor에서 destination 순서로 유효한 모든 BOM 부품 경로를 보존하고, " ++
        "purchase classification으로 부품을 미리 filter하지 않는다.",
      "Supplier fan-out은 선택 사항이다. 활성 supplier가 없는 경우에도 부품 " ++
        "경로를 보존하고 해당 행의 supplier identity 필드는 null로 반환한다.",
      "pathProductIds와 quantityPerAssembly 배열은 같은 BOM 경로 방향과 행에 " ++
        "맞춰 정렬한다.",
      "quantityPerAssembly에는 parent assembly별 relationship 원본 값을 담는다. " ++
        "productionQty나 요청 생산 수량을 곱하지 않는다. composer가 " ++
        "productionQty를 정확히 한 번 적용한다."]
  | .sql => [
      "binding componentIds가 전체 조회 범위를 정의한다. 서로 다른 component마다 " ++
        "makeFlag와 actualStock을 포함한 행 하나를 반환하고 내부 제조 부품을 " ++
        "제외하지 않는다.",
      "필요 수량과 부족량은 SQL이 아니라 composer가 계산한다."]

/-- `_transform_generator_rules`. -/
def transformGeneratorRules (transformId : String) : Except PlanError (ToolName → List String) := do
  require (transformId = "bom_shortage_v1")
    (.valueError ("unsupported transform: " ++ repr (.str transformId)))
  return bomShortageRules

/-- The outputs of a transform in one source. -/
def checkTransformOutputs (a : Aliases) (transformId : String) (source : ToolName)
    (aliases : List String) : Except PlanError Unit := do
  let unknown := aliases.filter (· ∉ (a.byTool source).keys)
  require (unknown = []) (.valueError ("transform " ++ repr (.str transformId) ++
    " references unknown " ++ toolText source ++ " outputs: " ++ joinSorted unknown))

def compileTransform (a : Aliases) (transforms : Dict String TransformSpec)
    (transform : TransformDefinition) : Except PlanError (Dict String TransformSpec) := do
  forEach (fun entry => checkTransformOutputs repr a transform.transformId entry.1 entry.2)
    transform.requiredOutputs.entries
  let generatorRules ← transformGeneratorRules repr transform.transformId
  return transforms.set transform.transformId
    { transformId := transform.transformId
      outputScale := transform.outputScale
      requiredOutputs := transform.requiredOutputs
      generatorRules }

/-! ### The catalog -/

/-- **`build_query_semantic_catalog`.** -/
def buildQuerySemanticCatalog (ontology : ManufacturingOntology) : Except PlanError Catalog := do
  let a ← compilePhysicalAliases repr schemas
  let a ← ontology.outputRoles.foldlM (addOutputRole repr u schemas) a
  let a ← ontology.businessConcepts.foldlM (addConcept repr u) a
  let (a, entityRoles) ← ontology.entityRoles.foldlM (addEntityRole repr u) (a, Dict.empty)
  forEach (fun source => require (rolesOf entityRoles source ≠ [])
    (.valueError ("semantic catalog has no " ++ toolText source ++ " entity roles"))) bothTools
  let resultShapes ← ontology.resultShapes.foldlM (compileShape repr u a entityRoles) Dict.empty
  let transforms ← ontology.transforms.foldlM (compileTransform repr a) Dict.empty
  require (∀ source ∈ bothTools, a.identity source ≠ [])
    (.valueError "SQL and Graph schemas must expose source identity aliases")
  let sharedJoinAliases := (a.identity .sql).filter (· ∈ a.identity .graph)
  require (sharedJoinAliases ≠ [])
    (.valueError "SQL and Graph must share at least one identity alias")
  return {
    toAliases := a
    ontologyVersion := ontology.ontologyVersion
    sharedJoinAliases
    entityRoles
    resultShapes
    transforms }

/-- `load_query_semantic_catalog`, once the file is read. -/
def loadQuerySemanticCatalog (ontology : ManufacturingOntology) : Except PlanError Catalog := do
  require (ontology.Valid u) (.valueError "validation error")
  buildQuerySemanticCatalog repr u schemas ontology

end

end Ontology
