import Text2Cypher.Graphs.Values

/-!
# What a query answer holds for the graph

`extractContainer`: nodes and edges are read from the lists of a container, from the objects in its
fields, and from the identifiers in its own fields.  The colour of a category and the texts that are
shown with a node come from a `Theme`; nothing here reads them.
-/

namespace Graphs

structure EntityDefinition where
  category : String
  idFields : List String
  nameFields : List String

def entityDefinitions : List EntityDefinition :=
  [⟨"Product",
      ["productId", "componentId", "componentProductId", "finishedProductId", "rootProductId"],
      ["productName", "componentName", "finishedProductName", "name"]⟩,
    ⟨"Supplier", ["supplierId"], ["supplierName", "name"]⟩,
    ⟨"WorkOrder", ["workOrderId"], ["workOrderName"]⟩,
    ⟨"RoutingOperation", ["routingOperationKey"], ["operationName"]⟩,
    ⟨"Location", ["locationId"], ["locationName", "name"]⟩,
    ⟨"ScrapReason", ["scrapReasonId"], ["scrapReasonName", "name"]⟩]

/-- What an object inherits: reading one of these names from a table of categories gives no list. -/
def inheritedNames : List String :=
  ["constructor", "hasOwnProperty", "isPrototypeOf", "propertyIsEnumerable", "toLocaleString",
    "toString", "valueOf", "__defineGetter__", "__defineSetter__", "__lookupGetter__",
    "__lookupSetter__", "__proto__"]

/-- `UNIQUE_PROPERTY_BY_CATEGORY[category] ?? []`, iterated. -/
def uniqueFields (category : String) : Except TypeError (List String) :=
  match entityDefinitions.find? (·.category = category) with
  | some definition => .ok definition.idFields
  | none => if category ∈ inheritedNames then .error .notIterable else .ok []

structure RelationshipInference where
  source : String
  target : String
  type : String

def relationshipInference : List RelationshipInference :=
  [⟨"supplierId", "componentId", "SUPPLIES"⟩, ⟨"supplierId", "productId", "SUPPLIES"⟩,
    ⟨"finishedProductId", "componentId", "REQUIRES_COMPONENT"⟩,
    ⟨"rootProductId", "componentId", "REQUIRES_COMPONENT"⟩,
    ⟨"workOrderId", "productId", "PRODUCES"⟩,
    ⟨"workOrderId", "routingOperationKey", "HAS_OPERATION"⟩,
    ⟨"routingOperationKey", "locationId", "PERFORMED_AT"⟩,
    ⟨"workOrderId", "scrapReasonId", "SCRAPPED_DUE_TO"⟩]

/-- `PRODUCT_PATH_NAME_FIELDS`, in the order in which the paths are read. -/
def productPathNameFields : List (String × List String) :=
  [("pathProductIds", ["pathProductNames", "productNamePath"]),
    ("productIds", ["productNames", "productNamePath"]),
    ("productIdPath", ["productNamePath", "pathProductNames"])]

def structuralFields : List String :=
  ["category", "color", "displayLabel", "elementId", "hidden", "id", "identity", "label", "labels",
    "nodeType", "originalId", "properties", "size", "x", "y"]

def idFields : List String := ["elementId", "id", "identity", "originalId"]

structure Presentation where
  categoryLabel : String
  displayTitle : String
  displayMeta : String
  deriving DecidableEq

/-- A coordinate: a number of the data, or a place on a circle of which `index` of `total` parts lie
before it. -/
inductive Coordinate (N : Type)
  | number (n : N)
  | cosine (scale : ℚ) (index total : ℕ)
  | sine (scale : ℚ) (index total : ℕ)

structure NodeAttributes (N : Type) where
  label : String
  category : String
  presentation : Presentation
  color : String
  size : N
  x : Coordinate N
  y : Coordinate N
  originalId : String
  hidden : Bool
  properties : Fields N

/-- A mention of a node.  Its key starts with its category. -/
structure NormalizedNode (N : Type) where
  key : String
  attributes : NodeAttributes N
  hasPosition : Bool
  key_ne : key ≠ ""

structure EdgeAttributes (N : Type) where
  label : String
  relationshipType : String
  color : String
  size : N
  weight : N
  hidden : Option Bool
  properties : Fields N

/-- A mention of an edge.  Its endpoints are never empty. -/
structure NormalizedEdge (N : Type) where
  key : Option String
  source : String
  target : String
  relationshipType : String
  attributes : EdgeAttributes N
  source_ne : source ≠ ""
  target_ne : target ≠ ""

/-- `createGraphNodePresentation` and `colorForCategory`. -/
structure Theme (N : Type) where
  presentation : String → String → Fields N → Presentation
  color : String → String

variable {N : Type} [JsNumber N]

def categoryFromProperties (properties : Fields N) : Option String :=
  (entityDefinitions.find? fun definition =>
    (firstIdentifier properties definition.idFields).isSome).map (·.category)

def stableNodeKey (category : String) (id : Identifier N) : String :=
  if (category ++ ":").toList <+: id.text.toList then id.text else category ++ ":" ++ id.text

theorem append_colon_ne (category text : String) : category ++ ":" ++ text ≠ "" := by
  intro h
  simpa using congrArg String.toList h

theorem stableNodeKey_ne (category : String) (id : Identifier N) : stableNodeKey category id ≠ "" := by
  unfold stableNodeKey
  split_ifs with hprefix
  · intro h
    rw [h] at hprefix
    simpa using List.prefix_nil.1 hprefix
  · exact append_colon_ne category id.text

variable (theme : Theme N)

/-- The category of a node: what it says itself comes before what its properties suggest. -/
def categoryOf (fields properties : Fields N) (fallbackCategory : Option String) : Option String :=
  (normalizeLabels (fields.get "labels")).head? <|> (fields.get "category").string? <|>
    (fields.get "nodeType").string? <|> fallbackCategory <|> categoryFromProperties properties

/-- `firstIdentifier(input, …) ?? firstIdentifier(properties, uniqueFields) ?? fallbackId`. -/
def rawIdOf (fields properties : Fields N) (category : String)
    (fallbackId : Option (Identifier N)) : Except TypeError (Option (Identifier N)) :=
  match firstIdentifier fields idFields with
  | some id => .ok (some id)
  | none => do
      let unique ← uniqueFields category
      return firstIdentifier properties unique <|> fallbackId

/-- `firstText(input, …) ?? firstText(properties, ['name', ...uniqueFields]) ?? String(rawId)`. -/
def labelOf (fields properties : Fields N) (category : String) (rawId : Identifier N) :
    Except TypeError String :=
  match firstText fields ["label", "displayLabel", "name"] with
  | some label => .ok label
  | none => do
      let unique ← uniqueFields category
      return (firstText properties ("name" :: unique)).getD rawId.text

def normalizeGraphNode (input : Value N) (fallbackCategory : Option String)
    (fallbackId : Option (Identifier N)) : Except TypeError (Option (NormalizedNode N)) :=
  match input.record? with
  | none => .ok none
  | some fields =>
      let directProperties := fields.filter (·.1 ∉ structuralFields)
      let properties := (fields.get "properties").record?.getD directProperties
      match categoryOf fields properties fallbackCategory with
      | none | some "" => .ok none
      | some category => do
          match ← rawIdOf fields properties category fallbackId with
          | none => return none
          | some rawId =>
              let x := finiteNumber (fields.get "x") <|> finiteNumber (properties.get "x")
              let y := finiteNumber (fields.get "y") <|> finiteNumber (properties.get "y")
              let label ← labelOf fields properties category rawId
              return some
                { key := stableNodeKey category rawId
                  hasPosition := x.isSome && y.isSome
                  attributes :=
                    { label := label
                      category := category
                      presentation := theme.presentation category label properties
                      color := (fields.get "color").string?.getD (theme.color category)
                      size := (finiteNumber (fields.get "size")).getD (JsNumber.literal 4.8)
                      x := .number (x.getD (JsNumber.literal 0))
                      y := .number (y.getD (JsNumber.literal 0))
                      originalId := rawId.text
                      hidden := (fields.get "hidden").isTrue
                      properties := properties }
                  key_ne := stableNodeKey_ne category rawId }

def endpointKey (value : Value N) (categoryHint : Option String) :
    Except TypeError (Option String) :=
  match value.identifier? with
  | some id =>
      if ':' ∈ id.text.toList then .ok (some id.text)
      else
        match categoryHint with
        | none | some "" => .ok (some id.text)
        | some category => .ok (some (stableNodeKey category id))
  | none => do
      let node ← normalizeGraphNode theme value categoryHint none
      return node.map (·.key)

/-- The first of some fields that is neither `null` nor `undefined`. -/
def firstGiven (fields : Fields N) (names : List String) : Value N :=
  (names.map fields.get).foldr Value.orElse .undefined

def normalizeGraphEdge (input : Value N) : Except TypeError (Option (NormalizedEdge N)) :=
  match input.record? with
  | none => .ok none
  | some fields => do
      let relationshipType := ((fields.get "relationshipType").string? <|>
        (fields.get "type").string? <|> (fields.get "label").string?).getD "RELATED_TO"
      let source ← endpointKey theme
        (firstGiven fields ["source", "startNodeElementId", "start", "from"])
        (fields.get "sourceCategory").string?
      let target ← endpointKey theme
        (firstGiven fields ["target", "endNodeElementId", "end", "to"])
        (fields.get "targetCategory").string?
      match source, target with
      | some source, some target =>
          if hempty : source = "" ∨ target = "" then return none
          else
            return some
              { key := (firstIdentifier fields idFields).map fun id => "edge:" ++ id.text
                source := source
                target := target
                relationshipType := relationshipType
                attributes :=
                  { label := relationshipType
                    relationshipType := relationshipType
                    color := (fields.get "color").string?.getD "#c8cdd3"
                    size := (finiteNumber (fields.get "size")).getD (JsNumber.literal 0.45)
                    weight := (finiteNumber (fields.get "weight")).getD (JsNumber.literal 1)
                    hidden := some (fields.get "hidden").isTrue
                    properties := (fields.get "properties").record?.getD [] }
                source_ne := fun h => hempty (.inl h)
                target_ne := fun h => hempty (.inr h) }
      | _, _ => return none

/-- The nodes and edges that have been pushed. -/
structure Extracted (N : Type) where
  nodes : List (NormalizedNode N)
  edges : List (NormalizedEdge N)

omit [JsNumber N] in
instance : Append (Extracted N) := ⟨fun a b => ⟨a.nodes ++ b.nodes, a.edges ++ b.edges⟩⟩

def Extracted.empty : Extracted N := ⟨[], []⟩

/-- `forEach` over a reading that may skip an element. -/
def pushEach {α β : Type} (read : α → Except TypeError (Option β)) (items : List α) :
    Except TypeError (List β) := do
  let read ← items.mapM read
  return read.reduceOption

/-! ### A row of identifiers -/

def nodeFromScalarRow (row : Fields N) (definition : EntityDefinition) (idField : String) :
    Except TypeError (Option (NormalizedNode N)) :=
  match (row.get idField).identifier? with
  | none => .ok none
  | some id =>
      normalizeGraphNode theme
        (.object [("properties", .object (row.set idField id.value)),
          ("label", .string ((firstText row definition.nameFields).getD id.text))])
        (some definition.category) (some id)

def categoryForField (name : String) : Option String :=
  (entityDefinitions.find? fun definition => name ∈ definition.idFields).map (·.category)

/-- An edge between two nodes that are named by their categories and identifiers. -/
def inferredEdge (source target : String × Identifier N) (type : String) : NormalizedEdge N where
  key := none
  source := stableNodeKey source.1 source.2
  target := stableNodeKey target.1 target.2
  source_ne := stableNodeKey_ne source.1 source.2
  target_ne := stableNodeKey_ne target.1 target.2
  relationshipType := type
  attributes :=
    { label := type
      relationshipType := type
      color := "#c8cdd3"
      size := JsNumber.literal 0.45
      weight := JsNumber.literal 1
      hidden := none
      properties := [] }

/-- The identifiers of a path, each with the name at its place. -/
def pathEntries (path : List (Value N)) (namePath : List (Value N)) :
    List (Identifier N × Option String) :=
  path.zipIdx.filterMap fun (value, index) =>
    value.identifier?.map fun id => (id, namePath[index]?.bind Value.string?)

def nodeOfPathEntry (entry : Identifier N × Option String) :
    Except TypeError (Option (NormalizedNode N)) :=
  let name := match entry.2 with
    | none | some "" => []
    | some name => [("name", Value.string name)]
  normalizeGraphNode theme (.object [("properties", .object (("productId", entry.1.value) :: name))])
    (some "Product") (some entry.1)

/-- The nodes of a path, and an edge from each of them to the next. -/
def extractPath (row : Fields N) (pathField : String × List String) :
    Except TypeError (Extracted N) :=
  match row.get pathField.1 with
  | .array path => do
      let namePath := ((pathField.2.map row.get).find? Value.isArray).elim [] Value.items
      let entries := pathEntries path namePath
      let nodes ← pushEach (nodeOfPathEntry theme) entries
      let ids := entries.map fun entry => ("Product", entry.1)
      return ⟨nodes, (ids.zip ids.tail).map fun pair =>
        inferredEdge pair.1 pair.2 "REQUIRES_COMPONENT"⟩
  | _ => .ok .empty

def inferRelation (row : Fields N) (relation : RelationshipInference) :
    Option (NormalizedEdge N) := do
  let sourceId ← (row.get relation.source).identifier?
  let targetId ← (row.get relation.target).identifier?
  let sourceCategory ← categoryForField relation.source
  let targetCategory ← categoryForField relation.target
  return inferredEdge (sourceCategory, sourceId) (targetCategory, targetId) relation.type

def extractKnownRowEntities (row : Fields N) : Except TypeError (Extracted N) := do
  let nodes ← pushEach (fun (definition, idField) => nodeFromScalarRow theme row definition idField)
    (entityDefinitions.flatMap fun definition => definition.idFields.map (definition, ·))
  let paths ← productPathNameFields.mapM (extractPath theme row)
  return paths.foldl (· ++ ·) ⟨nodes, []⟩ ++ ⟨[], relationshipInference.filterMap (inferRelation row)⟩

/-! ### Containers -/

/-- The lists of a container. -/
def extractLists (fields : Fields N) : Except TypeError (Extracted N) := do
  let containerEdges :=
    if (fields.get "edges").isArray then (fields.get "edges").items
    else (fields.get "relationships").items
  let nodes ← pushEach (normalizeGraphNode theme · none none) (fields.get "nodes").items
  let edges ← pushEach (normalizeGraphEdge theme) containerEdges
  return ⟨nodes, edges⟩

/-- A nested object that is taken for a container. -/
def isContainer (fields : Fields N) : Bool :=
  (fields.get "nodes").isArray || (fields.get "relationships").isArray

/-- A nested object that is no container may be a node and an edge. -/
def extractObject (value : Value N) : Except TypeError (Extracted N) := do
  let node ← normalizeGraphNode theme value none none
  let edge ← normalizeGraphEdge theme value
  return ⟨node.toList, edge.toList⟩

mutual

def extractContainer : Value N → Except TypeError (Extracted N)
  | .object fields => do
      let lists ← extractLists theme fields
      let nested ← extractNested fields
      let row ← extractKnownRowEntities theme fields
      return lists ++ nested ++ row
  | _ => .ok .empty

/-- The loop over `Object.values`. -/
def extractNested : List (String × Value N) → Except TypeError (Extracted N)
  | [] => .ok .empty
  | (_, .object fields) :: rest => do
      let extracted ←
        if isContainer fields then extractContainer (.object fields)
        else extractObject theme (.object fields)
      let others ← extractNested rest
      return extracted ++ others
  | _ :: rest => extractNested rest

end

/-- The nodes and edges of an answer: of each of its rows, or of the answer itself. -/
def extractAll (input : Value N) : Except TypeError (Extracted N) := do
  let values := match input with
    | .array items => items
    | value => [value]
  let extracted ← values.mapM (extractContainer theme)
  return extracted.foldl (· ++ ·) .empty

end Graphs
