import Text2Cypher.Planning.Subquery

/-!
# The semantic catalog

What output planning reads of `QuerySemanticCatalog`.  Catalogs come from
`build_query_semantic_catalog` only, which raises unless the aliases that it puts together fit; the
fields `identity_subset`, `shared_iff` and `projection_spec` record what it has checked.
-/

namespace Planning

inductive SemanticOperation
  | roleProjection
  | count
  | countDistinct
  | sum
  | average
  | difference
  | clampedDifference
  | pathLength
  | minimumPathLength
  | orderedPathProjection
  deriving DecidableEq

structure AliasSpec where
  operation : Option SemanticOperation

structure TypedPredicate where
  field : String
  operator : String
  value : Json

structure IdentityProjection where
  keys : List String
  labels : List String

def IdentityProjection.displayAliases (p : IdentityProjection) : List String := p.keys ++ p.labels

structure EntityRoleSpec where
  projections : ToolName → Option IdentityProjection
  predicates : ToolName → List TypedPredicate

structure QuerySemanticCatalog where
  byTool : ToolName → Dict String AliasSpec
  identityAliases : ToolName → List String
  sharedJoinAliases : List String
  entityRoles : Dict String EntityRoleSpec
  /-- identity aliases are collected while the alias is entered -/
  identity_subset : ∀ tool, identityAliases tool ⊆ (byTool tool).keys
  /-- `identity_aliases["sql"] & identity_aliases["graph"]` -/
  shared_iff : ∀ name, name ∈ sharedJoinAliases ↔
    name ∈ identityAliases .sql ∧ name ∈ identityAliases .graph
  /-- a projection has a key, distinct keys and labels, and aliases of its source only -/
  projection_spec : ∀ role ∈ entityRoles.values, ∀ tool projection,
    role.projections tool = some projection →
      projection.keys ≠ [] ∧ projection.displayAliases ⊆ (byTool tool).keys

namespace QuerySemanticCatalog

variable (catalog : QuerySemanticCatalog)

/-- `allowed_aliases`; the order plays no part. -/
def allowedAliases (tool : ToolName) : List String := (catalog.byTool tool).keys

/-- `allowed_entity_roles`; the order plays no part. -/
def allowedEntityRoles (tool : ToolName) : List String :=
  (catalog.entityRoles.entries.filter fun entry => (entry.2.projections tool).isSome).map Prod.fst

/-- `identity_projection`. -/
def identityProjection (repr : Json → String) (roleId : String) (tool : ToolName) :
    Except PlanError IdentityProjection :=
  match catalog.entityRoles.get? roleId with
  | none => .error (.valueError ("unknown entity role: " ++ repr (.str roleId)))
  | some role =>
      match role.projections tool with
      | none => .error (.valueError
          ("entity role " ++ repr (.str roleId) ++ " is unavailable from " ++ toolText tool))
      | some projection => .ok projection

variable {catalog}

/-- Shared join aliases belong to both sources. -/
theorem shared_subset_allowed (tool : ToolName) :
    catalog.sharedJoinAliases ⊆ catalog.allowedAliases tool := by
  intro name hname
  obtain ⟨hsql, hgraph⟩ := (catalog.shared_iff name).1 hname
  cases tool with
  | sql => exact catalog.identity_subset .sql hsql
  | graph => exact catalog.identity_subset .graph hgraph

/-- An allowed role has a projection in its source, with aliases of the source. -/
theorem exists_projection {tool : ToolName} {roleId : String}
    (h : roleId ∈ catalog.allowedEntityRoles tool) :
    ∃ role projection, catalog.entityRoles.get? roleId = some role ∧
      role.projections tool = some projection ∧ projection.keys ≠ [] ∧
      projection.displayAliases ⊆ catalog.allowedAliases tool := by
  obtain ⟨⟨_, role⟩, hmem, rfl⟩ := List.mem_map.1 h
  obtain ⟨hentry, hsome⟩ := List.mem_filter.1 hmem
  obtain ⟨projection, hprojection⟩ := Option.isSome_iff_exists.1 hsome
  have hget := Dict.get?_eq_some_iff.2 hentry
  exact ⟨role, projection, hget, hprojection,
    catalog.projection_spec role (Dict.mem_values_of_get? hget) tool projection hprojection⟩

end QuerySemanticCatalog

end Planning
