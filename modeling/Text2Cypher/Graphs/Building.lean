import Mathlib.Algebra.Order.Ring.Rat
import Mathlib.Data.List.Lex
import Mathlib.Data.List.Sort
import Text2Cypher.Graphs.Extraction
import Text2Cypher.Library.BreadthFirst
import Text2Cypher.Library.Dict

/-!
# The graph of an answer

`createGraphologyGraph`: the extracted nodes are entered under their keys, the extracted edges
between the nodes that their endpoints denote, and nodes without a position are put on a circle, in
the order of a breadth-first search.
-/

namespace Graphs

variable {N : Type}

/-- An edge of the graph. -/
structure PlacedEdge (N : Type) where
  key : String
  source : String
  target : String
  attributes : EdgeAttributes N

/-- A `MultiDirectedGraph`. -/
structure Graph (N : Type) where
  nodes : Dict String (NodeAttributes N)
  edges : List (PlacedEdge N)

/-- A `missing-endpoint` issue. -/
structure Issue where
  message : String
  deriving DecidableEq

namespace Graph

/-- `addNormalizedNode`.  A mention gives every attribute, so that merging replaces all of them. -/
def addNormalizedNode (nodes : Dict String (NodeAttributes N)) (node : NormalizedNode N) :
    Dict String (NodeAttributes N) :=
  nodes.set node.key node.attributes

def ofNodes (nodes : List (NormalizedNode N)) : Dict String (NodeAttributes N) :=
  nodes.foldl addNormalizedNode .empty

/-! ### Original identifiers -/

/-- `nodeKeyByOriginalId` and `ambiguousOriginalIds`. -/
structure OriginalIds where
  keyOf : Dict String String
  ambiguous : List String

/-- `Map.delete`. -/
def remove (d : Dict String String) (key : String) : Dict String String where
  entries := d.entries.filter (·.1 ≠ key)
  nodup := (List.filter_sublist.map Prod.fst).nodup d.nodup

/-- One turn of `graph.forEachNode`. -/
def indexNode (ids : OriginalIds) (nodeKey originalId : String) : OriginalIds :=
  if originalId = "" then ids
  else
    match ids.keyOf.get? originalId with
    | some existing =>
        if existing ≠ "" ∧ existing ≠ nodeKey then
          ⟨remove ids.keyOf originalId, originalId :: ids.ambiguous⟩
        else if originalId ∈ ids.ambiguous then ids
        else ⟨ids.keyOf.set originalId nodeKey, ids.ambiguous⟩
    | none =>
        if originalId ∈ ids.ambiguous then ids
        else ⟨ids.keyOf.set originalId nodeKey, ids.ambiguous⟩

def originalIds (nodes : Dict String (NodeAttributes N)) : OriginalIds :=
  nodes.entries.foldl (fun ids entry => indexNode ids entry.1 entry.2.originalId) ⟨.empty, []⟩

/-- The node that an endpoint of an edge is taken for. -/
def resolve (nodes : Dict String (NodeAttributes N)) (endpoint : String) : String :=
  if endpoint ∈ nodes.keys then endpoint
  else ((originalIds nodes).keyOf.get? endpoint).getD endpoint

/-! ### Edges -/

def createStableEdgeKey (source relationshipType target : String) (occurrenceIndex : ℕ) : String :=
  "edge:" ++ source ++ ":" ++ relationshipType ++ ":" ++ target ++ ":" ++ toString occurrenceIndex

/-- The key of `occurrenceBySignature`. -/
def signature (source relationshipType target : String) : String :=
  source ++ "\u0000" ++ relationshipType ++ "\u0000" ++ target

/-- What the loop over the edges has made. -/
structure Placing (N : Type) where
  occurrences : Dict String ℕ
  edges : List (PlacedEdge N)
  issues : List Issue

def Placing.start : Placing N := ⟨.empty, [], []⟩

/-- One turn of the loop over the edges. -/
def placeEdge (nodes : Dict String (NodeAttributes N)) (s : Placing N) (edge : NormalizedEdge N) :
    Placing N :=
  let source := resolve nodes edge.source
  let target := resolve nodes edge.target
  if source ∉ nodes.keys ∨ target ∉ nodes.keys then
    { s with issues := s.issues ++
        [⟨edge.relationshipType ++ ": " ++ source ++ " -> " ++ target⟩] }
  else
    let occurrence := (s.occurrences.get? (signature source edge.relationshipType target)).getD 0
    let occurrences :=
      s.occurrences.set (signature source edge.relationshipType target) (occurrence + 1)
    let key := edge.key.getD (createStableEdgeKey source edge.relationshipType target occurrence)
    if key ∈ s.edges.map (·.key) then { s with occurrences := occurrences }
    else ⟨occurrences, s.edges ++ [⟨key, source, target, edge.attributes⟩], s.issues⟩

def placeEdges (nodes : Dict String (NodeAttributes N)) (edges : List (NormalizedEdge N)) :
    Placing N :=
  edges.foldl (placeEdge nodes) .start

/-! ### Positions -/

/-- The code units of a string. -/
def codeUnits (s : String) : List ℕ :=
  s.toList.flatMap fun c =>
    if c.toNat < 0x10000 then [c.toNat]
    else [0xd800 + (c.toNat - 0x10000) / 0x400, 0xdc00 + (c.toNat - 0x10000) % 0x400]

/-- The other end of an edge at a node. -/
def otherEnd (nodeKey : String) (edge : PlacedEdge N) : Option String :=
  if edge.source = nodeKey then some edge.target
  else if edge.target = nodeKey then some edge.source
  else none

/-- `graph.neighbors(nodeKey).sort()`. -/
def neighbours (edges : List (PlacedEdge N)) (nodeKey : String) : List String :=
  (edges.filterMap (otherEnd nodeKey)).dedup.mergeSort fun a b => decide (codeUnits a ≤ codeUnits b)

/-- `lowCrossingCircularPositions`: the nodes in the order in which they stand on the circle. -/
def circleOrder (edges : List (PlacedEdge N)) (nodeKeys : List String) : List String :=
  BreadthFirst.order (neighbours edges) nodeKeys

/-- The place of a node on the circle. -/
def circlePosition (scale : ℚ) (order : List String) (nodeKey : String) :
    Coordinate N × Coordinate N :=
  (.cosine scale (order.idxOf nodeKey) order.length, .sine scale (order.idxOf nodeKey) order.length)

/-- `missingPositions`: the nodes that no mention gives a position. -/
def missingPositions (nodes : Dict String (NodeAttributes N)) (mentions : List (NormalizedNode N)) :
    List String :=
  nodes.keys.filter fun nodeKey => nodeKey ∉ (mentions.filter (·.hasPosition)).map (·.key)

/-- The nodes without a position are put on the circle. -/
def layOut (nodes : Dict String (NodeAttributes N)) (edges : List (PlacedEdge N))
    (missing : List String) : Dict String (NodeAttributes N) :=
  let order := circleOrder edges missing
  let scale : ℚ := max 1 (nodes.entries.length / 4)
  ⟨nodes.entries.map fun entry =>
    if entry.1 ∈ missing then
      (entry.1, { entry.2 with
        x := (circlePosition scale order entry.1).1
        y := (circlePosition scale order entry.1).2 })
    else entry, by
    have hkeys : (nodes.entries.map fun entry =>
        if entry.1 ∈ missing then
          (entry.1, { entry.2 with
            x := (circlePosition scale order entry.1).1
            y := (circlePosition scale order entry.1).2 })
        else entry).map Prod.fst = nodes.entries.map Prod.fst := by
      rw [List.map_map]
      refine List.map_congr_left fun entry _ => ?_
      dsimp only [Function.comp]
      split_ifs <;> rfl
    rw [hkeys]
    exact nodes.nodup⟩

end Graph

/-- `createGraphologyGraph` behind the extraction. -/
def buildGraph (extracted : Extracted N) : Graph N × List Issue :=
  let nodes := Graph.ofNodes extracted.nodes
  let placing := Graph.placeEdges nodes extracted.edges
  let missing := Graph.missingPositions nodes extracted.nodes
  (⟨Graph.layOut nodes placing.edges missing, placing.edges⟩, placing.issues)

def createGraphologyGraph [JsNumber N] (theme : Theme N) (input : Value N) :
    Except TypeError (Graph N × List Issue) := do
  let extracted ← extractAll theme input
  return buildGraph extracted

end Graphs
