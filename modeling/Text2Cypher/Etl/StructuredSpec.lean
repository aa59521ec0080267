import Text2Cypher.Library.Checks
import Text2Cypher.Library.Dict
import Text2Cypher.Library.PropertyGraph
import Mathlib.Data.Rat.Defs

/-!
# Extraction, validation and load of the structured graph

Each node label and each relationship type has a specification: the columns that the validation
before the write looks at, and the text that writes a row.  The text is `UNWIND $rows AS row` and
the clauses of `mergeCypher`.

* `nodeSpecs`, `relationshipSpecs`: the specifications;
* `validateBeforeWrite`: the checks of the extracted rows;
* `loadAll`: the load into an empty graph, in batches.
-/

namespace Structured

open PropertyGraph Checks

/-- A value of an extracted row, and of a property. -/
inductive Value
  | null
  | integer (z : ℤ)
  | text (s : String)
  | boolean (b : Bool)
  | real (q : ℚ)
  /-- what `date` or `localdatetime` makes of a text -/
  | temporal (function text : String)
  deriving DecidableEq

/-- What Python's dictionaries and sets take for the same value: `True`, `1` and `1.0`. -/
def Value.hashed : Value → Value
  | .boolean b => .integer (if b then 1 else 0)
  | .real q => if q.den = 1 then .integer q.num else .real q
  | v => v

def Value.number? : Value → Option ℚ
  | .integer z => some z
  | .real q => some q
  | _ => none

/-- `=` of Cypher: numbers by their value, and `NULL` is equal to nothing. -/
def Value.same (a b : Value) : Bool :=
  match a.number?, b.number? with
  | some q, some r => decide (q = r)
  | _, _ => decide (a ≠ .null ∧ a = b)

/-- The values of keys: integers and strings, or none. -/
def Value.IsKey : Value → Prop
  | .null | .integer _ | .text _ => True
  | _ => False

instance (v : Value) : Decidable v.IsKey :=
  match v with
  | .null | .integer _ | .text _ => isTrue trivial
  | .boolean _ | .real _ | .temporal _ _ => isFalse id

abbrev Row := Dict String Value

/-- `row[column]`. -/
def Row.column (row : Row) (column : String) : Except String Value :=
  match row.get? column with
  | some v => .ok v
  | none => .error ("KeyError: " ++ column)

structure NodeSpec where
  label : String
  uniqueKey : String
  mergeCypher : List Clause

structure RelationshipSpec where
  relType : String
  mergeCypher : List Clause
  mergeKeyColumns : List String
  fromLabel : String
  toLabel : String
  fromKey : String
  toKey : String

/-- `localdatetime(row.column)`. -/
def localdatetime (column : String) : Expr := .call "localdatetime" (.column column)

def nodeSpecs : List NodeSpec :=
  [{ label := "Product"
     uniqueKey := "productId"
     mergeCypher :=
       [.mergeNode "n" "Product" "productId" (.column "productId"),
        .set "n" "name" (.column "name"),
        .set "n" "sellableFinishedGood" (.column "sellableFinishedGood"),
        .set "n" "sourceModifiedAt" (localdatetime "sourceModifiedAt"),
        .set "n" "syncRunId" (.parameter "syncRunId")] },
   { label := "Supplier"
     uniqueKey := "supplierId"
     mergeCypher :=
       [.mergeNode "n" "Supplier" "supplierId" (.column "supplierId"),
        .set "n" "name" (.column "name"),
        .set "n" "active" (.column "active"),
        .set "n" "sourceModifiedAt" (localdatetime "sourceModifiedAt"),
        .set "n" "syncRunId" (.parameter "syncRunId")] },
   { label := "WorkOrder"
     uniqueKey := "workOrderId"
     mergeCypher :=
       [.mergeNode "n" "WorkOrder" "workOrderId" (.column "workOrderId"),
        .set "n" "sourceModifiedAt" (localdatetime "sourceModifiedAt"),
        .set "n" "syncRunId" (.parameter "syncRunId")] },
   { label := "RoutingOperation"
     uniqueKey := "routingOperationKey"
     mergeCypher :=
       [.mergeNode "n" "RoutingOperation" "routingOperationKey" (.column "routingOperationKey"),
        .set "n" "sequence" (.column "sequence"),
        .set "n" "sourceModifiedAt" (localdatetime "sourceModifiedAt"),
        .set "n" "syncRunId" (.parameter "syncRunId")] },
   { label := "Location"
     uniqueKey := "locationId"
     mergeCypher :=
       [.mergeNode "n" "Location" "locationId" (.column "locationId"),
        .set "n" "name" (.column "name"),
        .set "n" "sourceModifiedAt" (localdatetime "sourceModifiedAt"),
        .set "n" "syncRunId" (.parameter "syncRunId")] },
   { label := "ScrapReason"
     uniqueKey := "scrapReasonId"
     mergeCypher :=
       [.mergeNode "n" "ScrapReason" "scrapReasonId" (.column "scrapReasonId"),
        .set "n" "name" (.column "name"),
        .set "n" "sourceModifiedAt" (localdatetime "sourceModifiedAt"),
        .set "n" "syncRunId" (.parameter "syncRunId")] }]

def relationshipSpecs : List RelationshipSpec :=
  [{ relType := "SUPPLIES"
     mergeCypher :=
       [.matchNode "s" "Supplier" "supplierId" (.column "supplierId"),
        .matchNode "p" "Product" "productId" (.column "productId"),
        .mergeRelationship "s" "r" "SUPPLIES" (some ("supplyKey", .column "supplyKey")) "p",
        .set "r" "syncRunId" (.parameter "syncRunId")]
     mergeKeyColumns := ["supplyKey"]
     fromLabel := "Supplier"
     toLabel := "Product"
     fromKey := "supplierId"
     toKey := "productId" },
   { relType := "REQUIRES_COMPONENT"
     mergeCypher :=
       [.matchNode "assembly" "Product" "productId" (.column "assemblyProductId"),
        .matchNode "component" "Product" "productId" (.column "componentProductId"),
        .mergeRelationship "assembly" "r" "REQUIRES_COMPONENT" (some ("bomId", .column "bomId"))
          "component",
        .set "r" "quantityPerAssembly" (.column "quantityPerAssembly"),
        .set "r" "startDate" (.call "date" (.column "startDate")),
        .set "r" "endDate" (.unlessNull (.column "endDate") (.call "date" (.column "endDate"))),
        .set "r" "syncRunId" (.parameter "syncRunId")]
     mergeKeyColumns := ["bomId"]
     fromLabel := "Product"
     toLabel := "Product"
     fromKey := "assemblyProductId"
     toKey := "componentProductId" },
   { relType := "PRODUCES"
     mergeCypher :=
       [.matchNode "wo" "WorkOrder" "workOrderId" (.column "workOrderId"),
        .matchNode "p" "Product" "productId" (.column "productId"),
        .mergeRelationship "wo" "r" "PRODUCES" none "p",
        .set "r" "syncRunId" (.parameter "syncRunId")]
     mergeKeyColumns := ["workOrderId", "productId"]
     fromLabel := "WorkOrder"
     toLabel := "Product"
     fromKey := "workOrderId"
     toKey := "productId" },
   { relType := "HAS_OPERATION"
     mergeCypher :=
       [.matchNode "wo" "WorkOrder" "workOrderId" (.column "workOrderId"),
        .matchNode "ro" "RoutingOperation" "routingOperationKey" (.column "routingOperationKey"),
        .mergeRelationship "wo" "r" "HAS_OPERATION" none "ro",
        .set "r" "syncRunId" (.parameter "syncRunId")]
     mergeKeyColumns := ["workOrderId", "routingOperationKey"]
     fromLabel := "WorkOrder"
     toLabel := "RoutingOperation"
     fromKey := "workOrderId"
     toKey := "routingOperationKey" },
   { relType := "PERFORMED_AT"
     mergeCypher :=
       [.matchNode "ro" "RoutingOperation" "routingOperationKey" (.column "routingOperationKey"),
        .matchNode "loc" "Location" "locationId" (.column "locationId"),
        .mergeRelationship "ro" "r" "PERFORMED_AT" none "loc",
        .set "r" "syncRunId" (.parameter "syncRunId")]
     mergeKeyColumns := ["routingOperationKey", "locationId"]
     fromLabel := "RoutingOperation"
     toLabel := "Location"
     fromKey := "routingOperationKey"
     toKey := "locationId" },
   { relType := "SCRAPPED_DUE_TO"
     mergeCypher :=
       [.matchNode "wo" "WorkOrder" "workOrderId" (.column "workOrderId"),
        .matchNode "sr" "ScrapReason" "scrapReasonId" (.column "scrapReasonId"),
        .mergeRelationship "wo" "r" "SCRAPPED_DUE_TO" none "sr",
        .set "r" "syncRunId" (.parameter "syncRunId")]
     mergeKeyColumns := ["workOrderId", "scrapReasonId"]
     fromLabel := "WorkOrder"
     toLabel := "ScrapReason"
     fromKey := "workOrderId"
     toKey := "scrapReasonId" }]

/-! ### Validation before the write -/

/-- The values of several columns of a row. -/
def keyOf (columns : List String) (row : Row) : Except String (List Value) :=
  each row.column columns

/-- `find_rows_with_null_key`. -/
def findRowsWithNullKey (columns : List String) : List Row → Except String (List Row)
  | [] => .ok []
  | row :: rows => do
    let null ← anyNull row columns
    let rest ← findRowsWithNullKey columns rows
    return if null then row :: rest else rest
where
  /-- `any(row[col] is None for col in key_columns)` stops at the first one. -/
  anyNull (row : Row) : List String → Except String Bool
    | [] => .ok false
    | column :: columns => do
      if (← row.column column) = .null then return true else anyNull row columns

/-- `find_duplicate_key_rows`: the keys that occur more than once. -/
def findDuplicateKeyRows (rows : List Row) (columns : List String) :
    Except String (List (List Value)) := do
  let keys ← each (keyOf columns) rows
  let counts := Dict.tally (keys.map (List.map Value.hashed))
  return (counts.entries.filter (1 < ·.2)).map Prod.fst

/-- `row[from_key] not in from_ids or row[to_key] not in to_ids`. -/
def isDangling (fromKey toKey : String) (fromIds toIds : List Value) (row : Row) :
    Except String Bool := do
  let source ← row.column fromKey
  if source.hashed ∉ fromIds.map Value.hashed then return true
  let target ← row.column toKey
  return decide (target.hashed ∉ toIds.map Value.hashed)

/-- `find_dangling_relationship_rows`. -/
def findDanglingRelationshipRows (fromKey toKey : String) (fromIds toIds : List Value) :
    List Row → Except String (List Row)
  | [] => .ok []
  | row :: rows => do
    let dangling ← isDangling fromKey toKey fromIds toIds row
    let rest ← findDanglingRelationshipRows fromKey toKey fromIds toIds rows
    return if dangling then row :: rest else rest

/-- A message of `validate_before_write`, by what it names: the rows of a specification are none,
have a null key, have a key twice, or refer to a node that is missing. -/
inductive Failure
  | empty (name : String)
  | nullKey (name : String) (columns : List String) (rows : List Row)
  | duplicate (name : String) (columns : List String) (keys : List (List Value))
  | dangling (name : String) (rows : List Row)

/-- The part of the checks that nodes and relationships share. -/
def keyFailures (name : String) (columns : List String) (rows : List Row) :
    Except String (List Failure) := do
  if rows = [] then return [.empty name]
  let nullRows ← findRowsWithNullKey columns rows
  if nullRows ≠ [] then return [.nullKey name columns nullRows]
  let duplicates ← findDuplicateKeyRows rows columns
  if duplicates ≠ [] then return [.duplicate name columns duplicates]
  return []

/-- `{row[spec.unique_key] for row in nodes.get(spec.label, [])}`. -/
def nodeIds (nodes : Dict String (List Row)) (spec : NodeSpec) : Except String (List Value) :=
  each (fun row => row.column spec.uniqueKey) ((nodes.get? spec.label).getD [])

/-- The identifiers of the nodes with a label. -/
def idsOf (nodeIdSets : List (String × List Value)) (label : String) : Except String (List Value) :=
  match nodeIdSets.lookup label with
  | some ids => .ok ids
  | none => .error ("KeyError: " ++ label)

/-- The checks of a relationship specification. -/
def relationshipFailures (nodeIdSets : List (String × List Value)) (rels : Dict String (List Row))
    (spec : RelationshipSpec) : Except String (List Failure) := do
  let rows := (rels.get? spec.relType).getD []
  let failures ← keyFailures spec.relType spec.mergeKeyColumns rows
  if failures.isEmpty then
    let fromIds ← idsOf nodeIdSets spec.fromLabel
    let toIds ← idsOf nodeIdSets spec.toLabel
    let dangling ← findDanglingRelationshipRows spec.fromKey spec.toKey fromIds toIds rows
    if dangling.isEmpty then return [] else return [.dangling spec.relType dangling]
  else return failures

/-- `validate_before_write`: no failure means that the rows may be written. -/
def validateBeforeWrite (nodes rels : Dict String (List Row)) : Except String (List Failure) := do
  let nodeFailures ← each (fun spec : NodeSpec =>
    keyFailures spec.label [spec.uniqueKey] ((nodes.get? spec.label).getD [])) nodeSpecs
  let nodeIdSets ← each (fun spec => return (spec.label, ← nodeIds nodes spec)) nodeSpecs
  let relFailures ← each (relationshipFailures nodeIdSets rels) relationshipSpecs
  return nodeFailures.flatten ++ relFailures.flatten

/-! ### Load -/

/-- `date` and `localdatetime`, on the texts and the `NULL` that the extraction leaves. -/
def callFunction (function : String) : Value → Value
  | .text t => .temporal function t
  | v => v

def context (syncRunId : String) : Context Value where
  null := .null
  isNull v := decide (v = .null)
  same := Value.same
  parameter name := if name = "syncRunId" then .text syncRunId else .null
  call := callFunction

/-- `row.column` of Cypher: nothing where the row has no such column. -/
def Row.cypher (row : Row) (column : String) : Value := (row.get? column).getD .null

/-- `chunk_rows`. -/
def chunkRows (rows : List Row) (batchSize : ℕ) : List (List Row) :=
  (List.range ((rows.length + batchSize - 1) / batchSize)).map fun i =>
    (rows.drop (i * batchSize)).take batchSize

/-- One statement: `UNWIND $rows AS row` and the clauses. -/
def runBatch (syncRunId : String) (mergeCypher : List Clause) (g : Graph Value) (batch : List Row) :
    Option (Graph Value) :=
  (runQuery (context syncRunId) mergeCypher g (unwind (batch.map Row.cypher))).map Prod.fst

/-- `load_rows`. -/
def loadRows (syncRunId : String) (batchSize : ℕ) (mergeCypher : List Clause) (g : Graph Value)
    (rows : List Row) : Option (Graph Value) :=
  (chunkRows rows batchSize).foldlM (runBatch syncRunId mergeCypher) g

/-- A loop of `load_all`: the graph after it, and the number of rows of each specification. -/
def loadSpecs (syncRunId : String) (batchSize : ℕ) (rows : Dict String (List Row)) :
    List (String × List Clause) → Graph Value → Option (Graph Value × List (String × ℕ))
  | [], g => some (g, [])
  | (name, mergeCypher) :: specs, g => do
    let specRows ← rows.get? name
    let g ← loadRows syncRunId batchSize mergeCypher g specRows
    let (g, counts) ← loadSpecs syncRunId batchSize rows specs g
    return (g, (name, specRows.length) :: counts)

/-- `load_all` into an empty database: the graph, and the numbers that are expected of it; nothing
if a statement fails. -/
def loadAll (syncRunId : String) (batchSize : ℕ) (nodes rels : Dict String (List Row)) :
    Option (Graph Value × List (String × ℕ) × List (String × ℕ)) := do
  let (g, nodeCounts) ← loadSpecs syncRunId batchSize nodes
    (nodeSpecs.map fun spec => (spec.label, spec.mergeCypher)) Graph.empty
  let (g, relCounts) ← loadSpecs syncRunId batchSize rels
    (relationshipSpecs.map fun spec => (spec.relType, spec.mergeCypher)) g
  return (g, nodeCounts, relCounts)

/-- `count_nodes_by_label`. -/
def countNodesByLabel (g : Graph Value) (labels : List String) : List (String × ℕ) :=
  labels.map fun label => (label, (g.nodes.filter fun n => n.label = label).length)

/-- `count_relationships_by_type`. -/
def countRelationshipsByType (g : Graph Value) (types : List String) : List (String × ℕ) :=
  types.map fun type => (type, (g.relationships.filter fun r => r.type = type).length)

/-- The counts that `validate_after_load` compares agree. -/
def CountsAgree (g : Graph Value) (nodeCounts relCounts : List (String × ℕ)) : Prop :=
  countNodesByLabel g (nodeSpecs.map NodeSpec.label) = nodeCounts ∧
    countRelationshipsByType g (relationshipSpecs.map RelationshipSpec.relType) = relCounts

end Structured
