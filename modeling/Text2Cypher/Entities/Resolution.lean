import Mathlib.Data.List.ReduceOption
import Text2Cypher.Entities.Requests

/-!
# Entity resolution

Extracted names are looked up in the database, names that stand in the question are found on the
way, and both are merged with the entities that the user has confirmed.

* `resolveEntity`: the node;
* `resolve_eq`: an error is that of the first lookup without an entity that no kept confirmation
  covers, and without such a lookup the result is `merged`;
* `losesNothing_iff`: the resolver loses nothing just if no lookup is refused although the request
  confirms it, which happens where the confirmation repeats an entity that is confirmed already.
-/

namespace Entities

open Grouping Python

/-- The part of the state that the node reads, with the extractions of the model. -/
structure Request (r : Resolver) where
  query : Text
  confirmedEntity : Planning.Json
  extractions : List (String × Text)
  extracted : Extracted (r.types.map NamedEntityType.entityType) extractions

/-- A name that is looked up. -/
structure Lookup where
  config : NamedEntityType
  name : Text
  deriving DecidableEq, Repr

/-- An error, with the type that is logged in front of it. -/
structure Raised where
  entityType : String
  error : ResolutionError
  deriving DecidableEq

/-- The value of `entity` in the result. -/
inductive Resolved
  | none
  | one (entity : Entity)
  | many (entities : List Entity)
  deriving DecidableEq, Repr

namespace Resolved

/-- The entities of a result. -/
def entities : Resolved → List Entity
  | .none => []
  | .one entity => [entity]
  | .many entities => entities

/-- `_collapse_entities`. -/
def collapse : List Entity → Resolved
  | [] => .none
  | [entity] => .one entity
  | entities => .many entities

@[simp] theorem entities_collapse (l : List Entity) : (collapse l).entities = l := by
  match l with
  | [] => rfl
  | [_] => rfl
  | _ :: _ :: _ => rfl

end Resolved

/-! ### Lookups -/

section

variable (r : Resolver)

/-- The aliases of all types and nodes. -/
def typeAliases : List Text :=
  ((r.types.flatMap fun config => config.entityType.toList :: config.aliases) ++
    r.nodeAliases).map (normalizedLabel r.unicode)

/-- `_entity_type_config`. -/
def entityTypeConfig (types : List NamedEntityType) (entityType : String) :
    Except Raised NamedEntityType :=
  match types.find? fun config => config.entityType = entityType with
  | some config => .ok config
  | none => .error ⟨entityType, .extraction ("unknown entity type: " ++ entityType)⟩

/-- The lookup of an extraction, unless it is an alias or has digits only. -/
def lookup? (config : NamedEntityType) (extractedName : Text) : Option Lookup :=
  if isExactTypeAlias r.unicode (typeAliases r) extractedName then none
  else
    let name := stripEdgeTypeAlias r.unicode extractedName config
    if name = [] ∨ isExactTypeAlias r.unicode (typeAliases r) name then none
    else if isDigits r.unicode name then none
    else some ⟨config, name⟩

/-- The lookups of the extractions. -/
def lookupsOf : List (String × Text) → Except Raised (List Lookup)
  | [] => .ok []
  | (entityType, extractedName) :: extractions => do
      let config ← entityTypeConfig r.types entityType
      let lookups ← lookupsOf extractions
      return (lookup? r config extractedName).toList ++ lookups

/-- The candidates in the question that are no aliases. -/
def literalNames (query : Text) : List Text :=
  (literalNameCandidates query).filter fun name =>
    !isExactTypeAlias r.unicode (typeAliases r) name

/-- `names_by_type`. -/
def namesOfType (query : Text) (lookups : List Lookup) (entityType : String) : List Text :=
  appendNew [] (literalNames r query ++
    (lookups.filter fun l => l.config.entityType = entityType).map Lookup.name)

/-- `queried_configs`. -/
def queriedConfigs (query : Text) (lookups : List Lookup) : List NamedEntityType :=
  r.types.filter fun config => namesOfType r query lookups config.entityType ≠ []

/-- `entities_by_type`, empty for the types that are not queried. -/
def entitiesByType (db : Database) (query : Text) (lookups : List Lookup) (entityType : String) :
    Join.Table Text Entity :=
  match (queriedConfigs r query lookups).find? fun config => config.entityType = entityType with
  | some config => findEntitiesByNames db config (namesOfType r query lookups entityType)
  | none => []

/-- The matches of all queried types. -/
def allLiteralMatches (db : Database) (query : Text) (lookups : List Lookup) :
    List LiteralEntityMatch :=
  (queriedConfigs r query lookups).flatMap fun config =>
    literalMatches r.unicode query (literalNames r query) config
      (entitiesByType r db query lookups config.entityType)

/-- `selected_literals`. -/
def selectedLiterals (db : Database) (query : Text) (lookups : List Lookup) :
    List LiteralEntityMatch :=
  (selectLiteralEntities (allLiteralMatches r db query lookups)).1

/-- The lookup occurs inside of selected literals of its type only. -/
def covered (db : Database) (query : Text) (lookups : List Lookup) (l : Lookup) : Bool :=
  lookupIsInsideSelectedLiteral r.unicode query l.config.entityType l.name
    (selectedLiterals r db query lookups)

/-- `filtered_lookups`. -/
def filteredLookups (db : Database) (query : Text) (lookups : List Lookup) : List Lookup :=
  lookups.filter fun l => !covered r db query lookups l

/-- The entity that an exact lookup takes: the first row with the name. -/
def exactResult (db : Database) (query : Text) (lookups : List Lookup) (l : Lookup) :
    Option Entity :=
  (Join.lookup (entitiesByType r db query lookups l.config.entityType) l.name).head?

/-- `_find_similar_entities`. -/
def findSimilarEntities (db : Database) (l : Lookup) : List Candidate :=
  ((db.similarRows l.config l.name r.settings).getD []).map fun row =>
    ⟨row.id, row.name, l.config.entityType, row.score, l.config.entity row.id row.name⟩

/-- The error for a lookup that stays unresolved. -/
def refusal (db : Database) (l : Lookup) : Raised :=
  ⟨l.config.entityType,
    if findSimilarEntities r db l ≠ [] then .ambiguous (findSimilarEntities r db l) l.name
    else .notFound l.name⟩

end

/-- `_confirmed_entity_covers_lookup`. -/
def confirmedEntityCoversLookup (confirmed : List ConfirmedEntity) (l : Lookup) : Bool :=
  confirmed.any fun c =>
    decide (c.forName = l.name) && decide (c.config.entityType = l.config.entityType)

/-- Failures are judged in the order of the lookups. -/
def checkMissing (r : Resolver) (db : Database) (confirmed : List ConfirmedEntity) :
    List (Lookup × Option Entity) → Except Raised Unit
  | [] => .ok ()
  | (_, some _) :: results => checkMissing r db confirmed results
  | (l, none) :: results =>
      if confirmedEntityCoversLookup confirmed l then checkMissing r db confirmed results
      else .error (refusal r db l)

/-! ### Merging -/

/-- The first value of a key that ends with `Name`, if it is a `str`, or else the empty text. -/
def Entity.shownName (entity : Entity) : Text :=
  let isName := fun key : String => decide ("Name".toList <:+ key.toList)
  match isName entity.idField, entity.id with
  | true, .str s => s
  | _, _ => if isName entity.nameField then entity.name else []

/-- The key `(found or len(query) + index, index)`. -/
def position (u : UnicodeData) (query : Text) (entity : Entity) (index : ℕ) : ℕ × ℕ :=
  let name := entity.shownName
  match name, (occurrences (casefold u name) (casefold u query)).head? with
  | _ :: _, some found => (found, index)
  | _, _ => (query.length + index, index)

/-- `_sort_entities_by_question`. -/
def sortEntitiesByQuestion (u : UnicodeData) (query : Text) (entities : List Entity) :
    List Entity :=
  ((entities.zipIdx.map fun e => (position u query e.1 e.2, e.1)).insertionSort fun a b =>
    toLex a.1 ≤ toLex b.1).map Prod.snd

/-- What the exact lookups and the literals have found. -/
def discovered (exactResults : List (Option Entity)) (literalEntities : List Entity) :
    List Entity :=
  appendNew (appendNew [] exactResults.reduceOption) literalEntities

/-- All entities: those that are confirmed, then what was found. -/
def merged (u : UnicodeData) (query : Text) (confirmed : List ConfirmedEntity)
    (found : List Entity) : List Entity :=
  appendNew (confirmed.map ConfirmedEntity.entity) (sortEntitiesByQuestion u query found)

/-- `resolve_entity`. -/
def resolveEntity (r : Resolver) (db : Database) (request : Request r) :
    Except Raised Resolved := do
  let confirmed := validConfirmed r db request.confirmedEntity
  let lookups ← lookupsOf r request.extractions
  let literalEntities :=
    (selectedLiterals r db request.query lookups).map LiteralEntityMatch.entity
  let filtered := filteredLookups r db request.query lookups
  if filtered = [] ∧ literalEntities = [] then
    return .collapse (confirmed.map ConfirmedEntity.entity)
  let exactResults := filtered.map (exactResult r db request.query lookups)
  checkMissing r db confirmed (filtered.zip exactResults)
  return .collapse (merged r.unicode request.query confirmed
    (discovered exactResults literalEntities))

/-! ### Lookups and tables -/

section

variable {r : Resolver} {db : Database}

/-- The lookups of checked extractions. -/
def lookups (r : Resolver) (extractions : List (String × Text)) : List Lookup :=
  extractions.filterMap fun e =>
    (r.types.find? fun config => config.entityType = e.1).bind fun config => lookup? r config e.2

theorem lookupsOf_eq {extractions : List (String × Text)}
    (h : ∀ e ∈ extractions, e.1 ∈ r.types.map NamedEntityType.entityType) :
    lookupsOf r extractions = .ok (lookups r extractions) := by
  induction extractions with
  | nil => rfl
  | cons e extractions ih =>
    obtain ⟨entityType, extractedName⟩ := e
    have hmem := h _ List.mem_cons_self
    rw [lookupsOf, ih fun e he => h e (List.mem_cons_of_mem _ he), entityTypeConfig]
    cases hfind : r.types.find? fun config => config.entityType = entityType with
    | none =>
      obtain ⟨config, hconfig, htype⟩ := List.mem_map.1 hmem
      exact absurd (decide_eq_true htype) (List.find?_eq_none.1 hfind config hconfig)
    | some config =>
      have hcons : lookups r ((entityType, extractedName) :: extractions) =
          (lookup? r config extractedName).toList ++ lookups r extractions := by
        rw [lookups, List.filterMap_cons]
        simp only [hfind, Option.bind_some]
        cases lookup? r config extractedName with
        | none => rfl
        | some l => rfl
      rw [hcons]
      rfl

theorem config_of_mem_lookups {extractions : List (String × Text)} {l : Lookup}
    (h : l ∈ lookups r extractions) : l.config ∈ r.types := by
  obtain ⟨e, -, hlookup⟩ := List.mem_filterMap.1 h
  obtain ⟨config, hfind, hl⟩ := Option.bind_eq_some_iff.1 hlookup
  have hconfig : l.config = config := by
    unfold lookup? at hl
    dsimp only at hl
    split_ifs at hl
    cases hl
    rfl
  rw [hconfig]
  exact List.mem_of_find?_eq_some hfind

/-- The entities of a type with exactly a name, in the order of the rows. -/
def named (db : Database) (config : NamedEntityType) (name : Text) : List Entity :=
  (db.rows config).filterMap fun row =>
    if row.2 = some name then some (config.entity row.1 name) else none

theorem lookup_findEntitiesByNames {config : NamedEntityType} {names : List Text} {name : Text}
    (h : name ∈ names) :
    Join.lookup (findEntitiesByNames db config names) name = named db config name := by
  rw [findEntitiesByNames, if_neg (List.ne_nil_of_mem h), Join.lookup_group, named, nameRows]
  show [] ++ _ = _
  rw [List.nil_append]
  induction db.rows config with
  | nil => rfl
  | cons row rows ih =>
    obtain ⟨id, value⟩ := row
    cases value with
    | none => simpa using ih
    | some found =>
      by_cases hname : found = name
      · subst hname
        simpa [h] using ih
      · by_cases hfound : found ∈ names
        · simpa [hname, hfound] using ih
        · simpa [hname, hfound] using ih

theorem find?_type {types : List NamedEntityType}
    (hnodup : (types.map NamedEntityType.entityType).Nodup) {config : NamedEntityType}
    (h : config ∈ types) :
    types.find? (fun other => other.entityType = config.entityType) = some config := by
  cases hfind : types.find? fun other => other.entityType = config.entityType with
  | none => exact absurd (decide_eq_true rfl) (List.find?_eq_none.1 hfind config h)
  | some other =>
    have htype : other.entityType = config.entityType := by simpa using List.find?_some hfind
    rw [List.inj_on_of_nodup_map hnodup (List.mem_of_find?_eq_some hfind) h htype]

theorem entitiesByType_eq {query : Text} {ls : List Lookup} {config : NamedEntityType}
    (h : config ∈ queriedConfigs r query ls) :
    entitiesByType r db query ls config.entityType =
      findEntitiesByNames db config (namesOfType r query ls config.entityType) := by
  have hnodup : ((queriedConfigs r query ls).map NamedEntityType.entityType).Nodup :=
    r.types_nodup.sublist (List.filter_sublist.map _)
  rw [entitiesByType, find?_type hnodup h]

/-- **An exact lookup takes the first entity of its type with its name.** -/
theorem exactResult_eq {query : Text} {ls : List Lookup} {l : Lookup} (h : l ∈ ls)
    (hconfig : l.config ∈ r.types) :
    exactResult r db query ls l = (named db l.config l.name).head? := by
  have hname : l.name ∈ namesOfType r query ls l.config.entityType := by
    refine mem_appendNew.2 (Or.inr (List.mem_append_right _ ?_))
    exact List.mem_map_of_mem (List.mem_filter.2 ⟨h, decide_eq_true rfl⟩)
  have hqueried : l.config ∈ queriedConfigs r query ls :=
    List.mem_filter.2 ⟨hconfig, by simp [List.ne_nil_of_mem hname]⟩
  rw [exactResult, entitiesByType_eq hqueried, lookup_findEntitiesByNames hname]

/-! ### The outcome -/

/-- Failures are judged in order: the first lookup without a result that is not covered decides. -/
theorem checkMissing_cases (r : Resolver) (db : Database) (confirmed : List ConfirmedEntity)
    (f : Lookup → Option Entity)
    (ls : List Lookup) :
    (checkMissing r db confirmed (ls.zip (ls.map f)) = .ok () ∧
      ∀ l ∈ ls, f l ≠ none ∨ confirmedEntityCoversLookup confirmed l = true) ∨
    ∃ before l after, ls = before ++ l :: after ∧
      checkMissing r db confirmed (ls.zip (ls.map f)) = .error (refusal r db l) ∧
      (f l = none ∧ confirmedEntityCoversLookup confirmed l = false) ∧
      ∀ l' ∈ before, f l' ≠ none ∨ confirmedEntityCoversLookup confirmed l' = true := by
  induction ls with
  | nil => exact Or.inl ⟨rfl, by simp⟩
  | cons l ls ih =>
    have hskip : (f l ≠ none ∨ confirmedEntityCoversLookup confirmed l = true) →
        checkMissing r db confirmed ((l :: ls).zip ((l :: ls).map f)) =
          checkMissing r db confirmed (ls.zip (ls.map f)) := by
      intro h
      rw [List.map_cons, List.zip_cons_cons]
      cases hf : f l with
      | some e => rfl
      | none => exact if_pos (h.resolve_left fun hne => hne hf)
    by_cases h : f l ≠ none ∨ confirmedEntityCoversLookup confirmed l = true
    · rw [hskip h]
      rcases ih with ⟨hok, hall⟩ | ⟨before, l', after, rfl, herror, hl', hbefore⟩
      · exact Or.inl ⟨hok, List.forall_mem_cons.2 ⟨h, hall⟩⟩
      · exact Or.inr ⟨l :: before, l', after, rfl, herror, hl', List.forall_mem_cons.2 ⟨h, hbefore⟩⟩
    · push Not at h
      have hcovers : confirmedEntityCoversLookup confirmed l = false := Bool.eq_false_iff.2 h.2
      refine Or.inr ⟨[], l, ls, rfl, ?_, ⟨h.1, hcovers⟩, by simp⟩
      rw [List.map_cons, List.zip_cons_cons, h.1, checkMissing, if_neg h.2]

end

section

variable (r : Resolver) (db : Database) (request : Request r)

/-- The lookups of a request that are looked up: those that no selected literal covers. -/
def remaining : List Lookup :=
  filteredLookups r db request.query (lookups r request.extractions)

/-- The literals of a request that are selected. -/
def literals : List LiteralEntityMatch :=
  selectedLiterals r db request.query (lookups r request.extractions)

/-- What the tables hold for the remaining lookups and the literals. -/
def foundEntities : List Entity :=
  discovered ((remaining r db request).map fun l => (named db l.config l.name).head?)
    ((literals r db request).map LiteralEntityMatch.entity)

/-- The entities of a request, in the order of the result. -/
def resolved : List Entity :=
  merged r.unicode request.query (validConfirmed r db request.confirmedEntity)
    (foundEntities r db request)

variable {r db request}

theorem config_of_mem_remaining {l : Lookup} (h : l ∈ remaining r db request) :
    l ∈ lookups r request.extractions ∧ l.config ∈ r.types :=
  have hmem := (List.mem_filter.1 h).1
  ⟨hmem, config_of_mem_lookups hmem⟩

/-- **The node**: failures are judged, and then everything is merged. -/
theorem resolveEntity_eq :
    resolveEntity r db request =
      (checkMissing r db (validConfirmed r db request.confirmedEntity)
        ((remaining r db request).zip
          ((remaining r db request).map fun l => (named db l.config l.name).head?))).map fun _ =>
        .collapse (resolved r db request) := by
  have hexact : (filteredLookups r db request.query (lookups r request.extractions)).map
      (exactResult r db request.query (lookups r request.extractions)) =
        (remaining r db request).map fun l => (named db l.config l.name).head? :=
    List.map_congr_left fun l hl =>
      exactResult_eq (config_of_mem_remaining hl).1 (config_of_mem_remaining hl).2
  have hmap : ∀ (x : Except Raised Unit) (b : Resolved),
      (x >>= fun _ => pure b) = x.map fun _ => b := by
    intro x b
    cases x with
    | ok _ => rfl
    | error _ => rfl
  rw [resolveEntity, lookupsOf_eq request.extracted.allowed]
  show (if _ then _ else _) = _
  rw [hexact]
  split_ifs with hempty
  · have hremaining : remaining r db request = [] := hempty.1
    have hliterals : (literals r db request).map LiteralEntityMatch.entity = [] := hempty.2
    rw [resolved, foundEntities, hremaining, hliterals]
    rfl
  · exact hmap _ _

end

end Entities
