import Text2Cypher.Entities.Literals
import Text2Cypher.Planning.Subquery

/-!
# What a request says about its entities

The names that the model has extracted from the question, and the entities that the user has
confirmed.  Both arrive as JSON and are checked before anything is looked up.

* `extractEntities`, `Extracted`: the extractions that pass the checks, and what holds of them;
* `parseConfirmedEntity`, `confirmations`: the valid confirmations of a request;
* `validConfirmed`: what the resolver keeps of them, the first for each entity.
-/

namespace Entities

open Grouping Planning Python

inductive ResolutionError
  | extraction (message : String)
  | ambiguous (candidates : List Candidate) (lookupName : Text)
  | notFound (lookupName : Text)
  deriving DecidableEq

/-- What the node of the resolver closes over.  The fields of two types are told apart by their
names: the field of a name is named after its type, and no identifier is named like that. -/
structure Resolver where
  unicode : UnicodeData
  types : List NamedEntityType
  /-- the aliases of the nodes of the graph schema -/
  nodeAliases : List Text
  settings : EntityResolutionSettings
  types_nodup : (types.map NamedEntityType.entityType).Nodup
  nameField : ∀ config ∈ types, config.nameField = config.entityType ++ "Name"
  idField : ∀ config ∈ types, ¬ "Name".toList <:+ config.idField.toList

/-! ### Extractions -/

/-- A call that the model makes; `none` where its arguments are no valid JSON. -/
structure ToolCall where
  name : String
  arguments : Option Json

/-- `set(d) == set(names)`. -/
def hasKeys (fields : List (String × Json)) (names : List String) : Bool :=
  (fields.all fun field => field.1 ∈ names) && names.all fun name => name ∈ fields.map Prod.fst

/-- One item of a call. -/
def extractItem (allowedTypes : List String) (item : Json) :
    Except ResolutionError (String × Text) :=
  match item with
  | .object fields =>
      if hasKeys fields ["entityType", "entityName"] then
        match Json.get? fields "entityType", Json.get? fields "entityName" with
        | some (.str entityType), some (.str entityName) =>
            if entityType ∈ allowedTypes ∧ strip entityName.toList ≠ [] then
              .ok (entityType, strip entityName.toList)
            else .error (.extraction "extract_entities arguments have invalid values")
        | _, _ => .error (.extraction "extract_entities arguments have invalid values")
      else .error (.extraction "extract_entities items have an invalid shape")
  | _ => .error (.extraction "extract_entities items have an invalid shape")

/-- The items of one call. -/
def callItems (repr : String → String) (call : ToolCall) : Except ResolutionError (List Json) :=
  if call.name ≠ "extract_entities" then
    .error (.extraction ("unsupported entity extraction tool: " ++ repr call.name))
  else
    match call.arguments with
    | none => .error (.extraction "extract_entities arguments must be valid JSON")
    | some (.object fields) =>
        match hasKeys fields ["entities"], Json.get? fields "entities" with
        | true, some (.array items) => .ok items
        | _, _ => .error (.extraction "extract_entities arguments have an invalid shape")
    | some _ => .error (.extraction "extract_entities arguments have an invalid shape")

/-- The extractions of a list of items more. -/
def extractItems (allowedTypes : List String) (extractions : List (String × Text)) :
    List Json → Except ResolutionError (List (String × Text))
  | [] => .ok extractions
  | item :: items => do
      let extraction ← extractItem allowedTypes item
      extractItems allowedTypes (addNew extractions extraction) items

/-- The calls of `_extract_entities`, one after the other. -/
def extractCalls (repr : String → String) (allowedTypes : List String)
    (extractions : List (String × Text)) :
    List ToolCall → Except ResolutionError (List (String × Text))
  | [] => .ok extractions
  | call :: calls => do
      let items ← callItems repr call
      let extractions ← extractItems allowedTypes extractions items
      extractCalls repr allowedTypes extractions calls

/-- `_extract_entities`, on the tool calls of the response. -/
def extractEntities (repr : String → String) (allowedTypes : List String) (calls : List ToolCall) :
    Except ResolutionError (List (String × Text)) :=
  extractCalls repr allowedTypes [] calls

/-- Extractions that have passed the checks: they differ, each has an allowed type and a name. -/
structure Extracted (allowedTypes : List String) (extractions : List (String × Text)) : Prop where
  nodup : extractions.Nodup
  allowed : ∀ e ∈ extractions, e.1 ∈ allowedTypes
  named : ∀ e ∈ extractions, e.2 ≠ []

theorem Extracted.addNew {allowedTypes : List String} {extractions : List (String × Text)}
    (h : Extracted allowedTypes extractions) {item : Json} {extraction : String × Text}
    (hitem : extractItem allowedTypes item = .ok extraction) :
    Extracted allowedTypes (addNew extractions extraction) := by
  have hextraction : extraction.1 ∈ allowedTypes ∧ extraction.2 ≠ [] := by
    unfold extractItem at hitem
    repeat' split at hitem
    all_goals cases hitem
    assumption
  constructor
  · exact nodup_addNew h.nodup
  · intro e he
    rcases mem_addNew.1 he with he | rfl
    · exact h.allowed e he
    · exact hextraction.1
  · intro e he
    rcases mem_addNew.1 he with he | rfl
    · exact h.named e he
    · exact hextraction.2

theorem Extracted.items {allowedTypes : List String} {items : List Json} :
    ∀ {extractions result : List (String × Text)}, Extracted allowedTypes extractions →
      extractItems allowedTypes extractions items = .ok result → Extracted allowedTypes result := by
  induction items with
  | nil =>
    intro extractions result h hresult
    cases hresult
    exact h
  | cons item items ih =>
    intro extractions result h hresult
    obtain ⟨extraction, hitem, hrest⟩ := Checks.bind_eq_ok.1 hresult
    exact ih (h.addNew hitem) hrest

/-- **What is extracted has passed the checks.** -/
theorem extracted_of_extractEntities {repr : String → String} {allowedTypes : List String}
    {calls : List ToolCall} {extractions : List (String × Text)}
    (h : extractEntities repr allowedTypes calls = .ok extractions) :
    Extracted allowedTypes extractions := by
  have hcalls : ∀ {calls : List ToolCall} {before : List (String × Text)},
      Extracted allowedTypes before → extractCalls repr allowedTypes before calls =
        .ok extractions → Extracted allowedTypes extractions := by
    intro calls
    induction calls with
    | nil =>
      intro before hbefore hcalls
      cases hcalls
      exact hbefore
    | cons call calls ih =>
      intro before hbefore hcalls
      obtain ⟨items, -, hitems⟩ := Checks.bind_eq_ok.1 hcalls
      obtain ⟨middle, hmiddle, hrest⟩ := Checks.bind_eq_ok.1 hitems
      exact ih (hbefore.items hmiddle) hrest
  exact hcalls ⟨List.nodup_nil, by simp, by simp⟩ h

/-! ### Confirmations -/

/-- The number that decimal digits denote. -/
def natural? (digits : Text) : Option ℕ :=
  if digits = [] then none
  else digits.foldl (fun n c => n.bind fun n =>
    if c.isDigit then some (10 * n + (c.toNat - '0'.toNat)) else none) (some 0)

/-- `isinstance(value, int) and not isinstance(value, bool)`: JSON numbers without a fraction or an
exponent are read as `int`. -/
def int? : Json → Option ℤ
  | .number text =>
      match text.toList with
      | '-' :: digits => (natural? digits).map fun n => -(n : ℤ)
      | digits => (natural? digits).map Int.ofNat
  | _ => none

/-- A non-empty `str`. -/
def nonemptyText? : Json → Option Text
  | .str s => if s = "" then none else some s.toList
  | _ => none

/-- `_confirmed_entity_config`, with the entity in the form of the database. -/
def confirmedEntityConfig (fields : List (String × Json)) :
    List NamedEntityType → Option (NamedEntityType × Entity)
  | [] => none
  | config :: types =>
      if hasKeys fields [config.idField, config.nameField] then
        match (Json.get? fields config.idField).bind int?,
          (Json.get? fields config.nameField).bind nonemptyText? with
        | some n, some name => some (config, config.entity (.int n) name)
        | _, _ => confirmedEntityConfig fields types
      else confirmedEntityConfig fields types

/-- `_normalize_confirmed_entities`. -/
def normalizeConfirmedEntities : Json → List Json
  | .object fields => [.object fields]
  | .array items => items.filter fun item =>
      match item with
      | .object _ => true
      | _ => false
  | _ => []

structure ConfirmedEntity where
  entity : Entity
  /-- the name that the user was asked about -/
  forName : Text
  config : NamedEntityType
  deriving DecidableEq

/-- `_parse_confirmed_entity`. -/
def parseConfirmedEntity (types : List NamedEntityType) : Json → Option ConfirmedEntity
  | .object fields =>
      if hasKeys fields ["entity", "forName"] then
        match (Json.get? fields "forName").bind nonemptyText?, Json.get? fields "entity" with
        | some forName, some (.object entity) =>
            (confirmedEntityConfig entity types).map fun found => ⟨found.2, forName, found.1⟩
        | _, _ => none
      else none
  | _ => none

/-- `_confirmed_entity_exists`. -/
def confirmedEntityExists (db : Database) (confirmed : ConfirmedEntity) : Bool :=
  (db.rows confirmed.config).any fun row =>
    decide (row.1 = confirmed.entity.id) && decide (row.2 = some confirmed.entity.name)

/-- The valid confirmations of a request, in their order. -/
def confirmations (r : Resolver) (db : Database) (confirmedEntity : Json) :
    List ConfirmedEntity :=
  ((normalizeConfirmedEntities confirmedEntity).filterMap (parseConfirmedEntity r.types)).filter
    (confirmedEntityExists db)

/-- The confirmations that the resolver keeps, after one more of the request. -/
def confirm (r : Resolver) (db : Database) (kept : List ConfirmedEntity) (raw : Json) :
    List ConfirmedEntity :=
  match parseConfirmedEntity r.types raw with
  | none => kept
  | some parsed =>
      if confirmedEntityExists db parsed then
        if kept.any fun c => decide (c.entity = parsed.entity) then kept else kept ++ [parsed]
      else kept

/-- `valid_confirmed`. -/
def validConfirmed (r : Resolver) (db : Database) (confirmedEntity : Json) :
    List ConfirmedEntity :=
  (normalizeConfirmedEntities confirmedEntity).foldl (confirm r db) []

/-- **Of the valid confirmations of an entity the resolver keeps the first.** -/
theorem validConfirmed_eq (r : Resolver) (db : Database) (confirmedEntity : Json) :
    validConfirmed r db confirmedEntity =
      uniqueBy ConfirmedEntity.entity (confirmations r db confirmedEntity) := by
  have hfold : ∀ (raws : List Json) (kept : List ConfirmedEntity),
      raws.foldl (confirm r db) kept = ((raws.filterMap (parseConfirmedEntity r.types)).filter
        (confirmedEntityExists db)).foldl (addNewBy ConfirmedEntity.entity) kept := by
    intro raws
    induction raws with
    | nil => exact fun _ => rfl
    | cons raw raws ih =>
      intro kept
      rw [List.foldl_cons, ih]
      cases hparse : parseConfirmedEntity r.types raw with
      | none =>
        rw [List.filterMap_cons_none hparse]
        simp only [confirm, hparse]
      | some parsed =>
        rw [List.filterMap_cons_some hparse]
        by_cases hexists : confirmedEntityExists db parsed = true
        · rw [List.filter_cons_of_pos hexists, List.foldl_cons]
          simp only [confirm, hparse, hexists, if_true]
          rfl
        · rw [List.filter_cons_of_neg hexists]
          simp only [confirm, hparse, if_neg hexists]
  exact hfold _ _

end Entities
