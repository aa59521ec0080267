import Text2Cypher.Graphs.Building
import Text2Cypher.Library.Grouping

/-!
# No node and no edge is invented or lost

The nodes of the graph are the ones that are mentioned, each with the attributes of its last mention.
`requests` are the edges between nodes that an answer asks for, with the keys they get.

* **`edges_accounted`**: the graph has the first request for every key, every other extracted edge is
  reported, and all are kept just if no two requests have one key;
* **`resolve_eq_iff`**: which node an endpoint stands for;
* **`nodes_merged`**: what the graph says of a node.
-/

namespace Graphs

open Grouping

variable {N : Type}

namespace Graph

/-! ### Nodes -/

theorem ofNodes_concat (mentions : List (NormalizedNode N)) (node : NormalizedNode N) :
    ofNodes (mentions ++ [node]) = (ofNodes mentions).set node.key node.attributes :=
  List.foldl_append

theorem keys_set_eq_addNew (nodes : Dict String (NodeAttributes N)) (key : String)
    (attributes : NodeAttributes N) : (nodes.set key attributes).keys = addNew nodes.keys key := by
  by_cases hkey : key ∈ nodes.keys
  · rw [Dict.keys, Dict.entries_set_of_mem hkey, Dict.map_fst_replace, addNew, if_pos hkey]
    rfl
  · rw [Dict.keys, Dict.entries_set_of_not_mem hkey, List.map_append, addNew, if_neg hkey]
    rfl

/-- The nodes stand in the order of their first mentions. -/
theorem keys_ofNodes (mentions : List (NormalizedNode N)) :
    (ofNodes mentions).keys = appendNew [] (mentions.map (·.key)) := by
  induction mentions using List.reverseRecOn with
  | nil => rfl
  | append_singleton mentions node ih =>
    rw [ofNodes_concat, keys_set_eq_addNew, ih, List.map_append, appendNew_append]
    rfl

/-- The last mention of a node gives its attributes. -/
theorem get?_ofNodes {mentions before after : List (NormalizedNode N)} {node : NormalizedNode N}
    (hsplit : mentions = before ++ node :: after) (hlast : node.key ∉ after.map (·.key)) :
    (ofNodes mentions).get? node.key = some node.attributes := by
  subst hsplit
  induction after using List.reverseRecOn with
  | nil => rw [ofNodes_concat, Dict.get?_set, if_pos rfl]
  | append_singleton after last ih =>
    rw [List.map_append, List.mem_append, not_or] at hlast
    have hne : node.key ≠ last.key := by simpa using hlast.2
    have hassoc : before ++ node :: (after ++ [last]) = (before ++ node :: after) ++ [last] := by
      simp
    rw [hassoc, ofNodes_concat, Dict.get?_set, if_neg hne, ih hlast.1]

theorem key_ne_of_mem_ofNodes {mentions : List (NormalizedNode N)} {key : String}
    (h : key ∈ (ofNodes mentions).keys) : key ≠ "" := by
  rw [keys_ofNodes, mem_appendNew] at h
  obtain ⟨node, -, rfl⟩ := List.mem_map.1 (h.resolve_left List.not_mem_nil)
  exact node.key_ne

/-! ### Endpoints -/

/-- The nodes that were last mentioned under an original identifier. -/
def owners (entries : List (String × NodeAttributes N)) (originalId : String) : List String :=
  (entries.filter (·.2.originalId = originalId)).map Prod.fst

theorem owners_concat (entries : List (String × NodeAttributes N))
    (entry : String × NodeAttributes N) (id : String) :
    owners (entries ++ [entry]) id =
      owners entries id ++ if entry.2.originalId = id then [entry.1] else [] := by
  rw [owners, List.filter_append, List.map_append, owners]
  congr 1
  by_cases h : entry.2.originalId = id <;> simp [h]

theorem get?_remove (d : Dict String String) (key id : String) :
    (remove d key).get? id = if id = key then none else d.get? id := by
  ext value
  split_ifs with h
  · simp [Dict.get?_eq_some_iff, remove, h]
  · simp [Dict.get?_eq_some_iff, remove, h]

/-- What is known of the original identifiers of the nodes so far. -/
structure Indexed (entries : List (String × NodeAttributes N)) (ids : OriginalIds) : Prop where
  single : ∀ id, id ≠ "" → ∀ key, ids.keyOf.get? id = some key ↔ owners entries id = [key]
  several : ∀ id, id ≠ "" → (id ∈ ids.ambiguous ↔ 2 ≤ (owners entries id).length)

theorem Indexed.concat {entries : List (String × NodeAttributes N)} {ids : OriginalIds}
    (h : Indexed entries ids) {entry : String × NodeAttributes N}
    (hnames : ∀ e ∈ entries, e.1 ≠ "") (hnew : entry.1 ∉ entries.map Prod.fst) :
    Indexed (entries ++ [entry]) (indexNode ids entry.1 entry.2.originalId) := by
  obtain ⟨hsingle, hseveral⟩ := h
  have hnames' : ∀ id, ∀ key ∈ owners entries id, key ≠ "" ∧ key ≠ entry.1 := by
    intro id key hmem
    obtain ⟨e, he, rfl⟩ := List.mem_map.1 hmem
    have hmem := (List.mem_filter.1 he).1
    exact ⟨hnames e hmem, fun heq => hnew (heq ▸ List.mem_map_of_mem hmem)⟩
  by_cases hempty : entry.2.originalId = ""
  · have hsame : ∀ id, id ≠ "" → owners (entries ++ [entry]) id = owners entries id := by
      intro id hid
      rw [owners_concat, if_neg (fun h => hid (h.symm.trans hempty)), List.append_nil]
    rw [indexNode, if_pos hempty]
    exact ⟨fun id hid key => by rw [hsame id hid, hsingle id hid],
      fun id hid => by rw [hsame id hid, hseveral id hid]⟩
  have hother : ∀ id, id ≠ entry.2.originalId →
      owners (entries ++ [entry]) id = owners entries id := by
    intro id hid
    rw [owners_concat, if_neg (Ne.symm hid), List.append_nil]
  have hown : owners (entries ++ [entry]) entry.2.originalId =
      owners entries entry.2.originalId ++ [entry.1] := by
    rw [owners_concat, if_pos rfl]
  have hget := hsingle entry.2.originalId hempty
  have hambiguous := hseveral entry.2.originalId hempty
  -- the new node is the first, the second, or a later one under its identifier
  rw [indexNode, if_neg hempty]
  rcases hcase : owners entries entry.2.originalId with _ | ⟨first, _ | ⟨second, others⟩⟩
  · have hnone : ids.keyOf.get? entry.2.originalId = none := by
      rw [Option.eq_none_iff_forall_ne_some]
      intro key hsome
      rw [hget, hcase] at hsome
      cases hsome
    have hfresh : entry.2.originalId ∉ ids.ambiguous := by
      rw [hambiguous, hcase]
      simp
    simp only [hnone, if_neg hfresh]
    refine ⟨fun id hid key => ?_, fun id hid => ?_⟩
    · by_cases heq : id = entry.2.originalId
      · subst heq
        rw [Dict.get?_set, if_pos rfl, hown, hcase]
        simp
      · rw [Dict.get?_set, if_neg heq, hother id heq, hsingle id hid]
    · by_cases heq : id = entry.2.originalId
      · subst heq
        rw [hown, hcase]
        simpa using hfresh
      · rw [hother id heq, hseveral id hid]
  · have hsome : ids.keyOf.get? entry.2.originalId = some first := (hget first).2 hcase
    have hfirst := hnames' entry.2.originalId first (by simp [hcase])
    simp only [hsome, if_pos hfirst]
    refine ⟨fun id hid key => ?_, fun id hid => ?_⟩
    · by_cases heq : id = entry.2.originalId
      · subst heq
        rw [get?_remove, if_pos rfl, hown, hcase]
        simp
      · rw [get?_remove, if_neg heq, hother id heq, hsingle id hid]
    · by_cases heq : id = entry.2.originalId
      · subst heq
        rw [hown, hcase]
        simp
      · rw [List.mem_cons, hother id heq, hseveral id hid]
        simp [heq]
  · have hnone : ids.keyOf.get? entry.2.originalId = none := by
      rw [Option.eq_none_iff_forall_ne_some]
      intro key hsome
      rw [hget, hcase] at hsome
      cases hsome
    have hmem : entry.2.originalId ∈ ids.ambiguous := by
      rw [hambiguous, hcase]
      simp
    simp only [hnone, if_pos hmem]
    refine ⟨fun id hid key => ?_, fun id hid => ?_⟩
    · by_cases heq : id = entry.2.originalId
      · subst heq
        rw [hnone, hown, hcase]
        simp
      · rw [hother id heq, hsingle id hid]
    · by_cases heq : id = entry.2.originalId
      · subst heq
        rw [hown, hcase]
        simpa using hmem
      · rw [hother id heq, hseveral id hid]

theorem indexed_originalIds {nodes : Dict String (NodeAttributes N)}
    (hnames : ∀ key ∈ nodes.keys, key ≠ "") : Indexed nodes.entries (originalIds nodes) := by
  obtain ⟨entries, hnodup⟩ := nodes
  unfold originalIds
  dsimp only [Dict.keys] at hnames ⊢
  induction entries using List.reverseRecOn with
  | nil => constructor <;> simp [owners, Dict.empty, Dict.get?]
  | append_singleton entries entry ih =>
    rw [List.map_append, List.nodup_append] at hnodup
    rw [List.foldl_append, List.foldl_cons, List.foldl_nil]
    refine (ih hnodup.1 fun key hkey => hnames key ?_).concat ?_ ?_
    · rw [List.map_append]
      exact List.mem_append_left _ hkey
    · exact fun e he => hnames _ (List.mem_map_of_mem (List.mem_append_left _ he))
    · exact fun hmem => hnodup.2.2 _ hmem _ (by simp) rfl

/-- `key` is the node that `endpoint` stands for: by its key, or as the only node that was last
mentioned under that original identifier. -/
def Denotes (nodes : Dict String (NodeAttributes N)) (endpoint key : String) : Prop :=
  key ∈ nodes.keys ∧
    (endpoint = key ∨ endpoint ∉ nodes.keys ∧ owners nodes.entries endpoint = [key])

/-- **Which node an endpoint stands for.** -/
theorem resolve_eq_iff {nodes : Dict String (NodeAttributes N)}
    (hnames : ∀ key ∈ nodes.keys, key ≠ "") {endpoint key : String} (hendpoint : endpoint ≠ "") :
    resolve nodes endpoint = key ∧ key ∈ nodes.keys ↔ Denotes nodes endpoint key := by
  have hindexed := indexed_originalIds hnames
  unfold resolve Denotes
  split_ifs with hmem
  · constructor
    · rintro ⟨rfl, hkey⟩
      exact ⟨hkey, .inl rfl⟩
    · rintro ⟨hkey, heq | ⟨hno, -⟩⟩
      · exact ⟨heq, hkey⟩
      · exact absurd hmem hno
  · rw [← hindexed.single endpoint hendpoint key]
    constructor
    · rintro ⟨heq, hkey⟩
      refine ⟨hkey, .inr ⟨hmem, ?_⟩⟩
      cases hget : (originalIds nodes).keyOf.get? endpoint with
      | none =>
        rw [hget, Option.getD_none] at heq
        exact absurd (heq ▸ hkey) hmem
      | some found =>
        rw [hget, Option.getD_some] at heq
        rw [heq]
    · rintro ⟨hkey, rfl | ⟨-, hget⟩⟩
      · exact absurd hkey hmem
      · exact ⟨by rw [hget, Option.getD_some], hkey⟩

/-! ### Edges -/

/-- The nodes that an extracted edge joins, if its endpoints stand for nodes. -/
def ends (nodes : Dict String (NodeAttributes N)) (edge : NormalizedEdge N) :
    Option (String × String) :=
  if resolve nodes edge.source ∈ nodes.keys ∧ resolve nodes edge.target ∈ nodes.keys then
    some (resolve nodes edge.source, resolve nodes edge.target)
  else none

/-- The report on an edge without ends. -/
def missingEndpoint (nodes : Dict String (NodeAttributes N)) (edge : NormalizedEdge N) : Issue :=
  ⟨edge.relationshipType ++ ": " ++ resolve nodes edge.source ++ " -> " ++
    resolve nodes edge.target⟩

/-- The signature of an extracted edge that joins nodes. -/
def signature? (nodes : Dict String (NodeAttributes N)) (edge : NormalizedEdge N) : Option String :=
  (ends nodes edge).map fun e => signature e.1 edge.relationshipType e.2

/-- The edge that an extracted edge asks for, behind the extracted edges `before`. -/
def request (nodes : Dict String (NodeAttributes N)) (before : List (NormalizedEdge N))
    (edge : NormalizedEdge N) : Option (PlacedEdge N) :=
  (ends nodes edge).map fun e =>
    { key := edge.key.getD (createStableEdgeKey e.1 edge.relationshipType e.2
        ((before.filterMap (signature? nodes)).count (signature e.1 edge.relationshipType e.2)))
      source := e.1
      target := e.2
      attributes := edge.attributes }

/-- The edges that extracted edges ask for, behind those of `before`. -/
def requestsFrom (nodes : Dict String (NodeAttributes N)) :
    List (NormalizedEdge N) → List (NormalizedEdge N) → List (PlacedEdge N)
  | _, [] => []
  | before, edge :: rest =>
      (request nodes before edge).toList ++ requestsFrom nodes (before ++ [edge]) rest

def requests (nodes : Dict String (NodeAttributes N)) (edges : List (NormalizedEdge N)) :
    List (PlacedEdge N) :=
  requestsFrom nodes [] edges

theorem requestsFrom_concat (nodes : Dict String (NodeAttributes N))
    (before rest : List (NormalizedEdge N)) (edge : NormalizedEdge N) :
    requestsFrom nodes before (rest ++ [edge]) =
      requestsFrom nodes before rest ++ (request nodes (before ++ rest) edge).toList := by
  induction rest generalizing before with
  | nil => simp [requestsFrom]
  | cons first rest ih =>
    rw [List.cons_append, requestsFrom, ih, requestsFrom, List.append_assoc, List.append_assoc,
      List.singleton_append]

theorem requests_concat (nodes : Dict String (NodeAttributes N)) (edges : List (NormalizedEdge N))
    (edge : NormalizedEdge N) :
    requests nodes (edges ++ [edge]) = requests nodes edges ++ (request nodes edges edge).toList :=
  requestsFrom_concat nodes [] edges edge

/-- What the loop has made of the edges so far. -/
structure Accounted (nodes : Dict String (NodeAttributes N)) (edges : List (NormalizedEdge N))
    (s : Placing N) : Prop where
  occurrences : ∀ sign, (s.occurrences.get? sign).getD 0 =
    (edges.filterMap (signature? nodes)).count sign
  edges_eq : s.edges = uniqueBy (·.key) (requests nodes edges)
  issues_eq : s.issues = (edges.filter (ends nodes · |>.isNone)).map (missingEndpoint nodes)

theorem placeEdge_of_ends_eq_none {nodes : Dict String (NodeAttributes N)}
    {edge : NormalizedEdge N} (h : ends nodes edge = none) (s : Placing N) :
    placeEdge nodes s edge = { s with issues := s.issues ++ [missingEndpoint nodes edge] } := by
  rw [ends, ite_eq_right_iff] at h
  have hmissing : resolve nodes edge.source ∉ nodes.keys ∨
      resolve nodes edge.target ∉ nodes.keys := by
    rw [← not_and_or]
    exact fun hall => by cases h hall
  rw [placeEdge, if_pos hmissing]
  rfl

theorem placeEdge_of_ends_eq_some {nodes : Dict String (NodeAttributes N)}
    {edge : NormalizedEdge N} {source target : String} (h : ends nodes edge = some (source, target))
    {s : Placing N} {occurrence : ℕ}
    (hcount : (s.occurrences.get? (signature source edge.relationshipType target)).getD 0 =
      occurrence) :
    placeEdge nodes s edge =
      ⟨s.occurrences.set (signature source edge.relationshipType target) (occurrence + 1),
        addNewBy (·.key) s.edges ⟨edge.key.getD
          (createStableEdgeKey source edge.relationshipType target occurrence), source, target,
            edge.attributes⟩, s.issues⟩ := by
  subst hcount
  rw [ends] at h
  split_ifs at h with hjoined
  cases h
  have hnone : ¬(resolve nodes edge.source ∉ nodes.keys ∨
      resolve nodes edge.target ∉ nodes.keys) := by
    rw [← not_and_or, not_not]
    exact hjoined
  rw [placeEdge, if_neg hnone, addNewBy]
  dsimp only
  split_ifs with hmem hany hany
  · rfl
  · exact absurd (by simpa using hmem) hany
  · exact absurd (by simpa using hany) hmem
  · rfl

theorem Accounted.placeEdge {nodes : Dict String (NodeAttributes N)}
    {edges : List (NormalizedEdge N)} {s : Placing N} (h : Accounted nodes edges s)
    (edge : NormalizedEdge N) : Accounted nodes (edges ++ [edge]) (placeEdge nodes s edge) := by
  obtain ⟨hoccurrences, hedges, hissues⟩ := h
  cases hends : ends nodes edge with
  | none =>
    rw [placeEdge_of_ends_eq_none hends]
    refine ⟨fun sign => ?_, ?_, ?_⟩
    · simp [hoccurrences, signature?, hends]
    · simp [hedges, requests_concat, request, hends]
    · simp [hissues, hends]
  | some e =>
    obtain ⟨source, target⟩ := e
    rw [placeEdge_of_ends_eq_some hends (hoccurrences _)]
    refine ⟨fun sign => ?_, ?_, ?_⟩
    · rw [Dict.get?_set, List.filterMap_append, List.count_append]
      split_ifs with hsign
      · simp [hsign, signature?, hends]
      · simp [hoccurrences, signature?, hends, Ne.symm hsign]
    · rw [requests_concat, request, hends, Option.map_some, Option.toList_some, uniqueBy_concat,
        hedges]
    · simp [hissues, hends]

theorem accounted_placeEdges (nodes : Dict String (NodeAttributes N))
    (edges : List (NormalizedEdge N)) : Accounted nodes edges (placeEdges nodes edges) := by
  induction edges using List.reverseRecOn with
  | nil => constructor <;> simp [placeEdges, Placing.start, Dict.get?, Dict.empty, requests,
      requestsFrom, uniqueBy]
  | append_singleton edges edge ih =>
    rw [placeEdges, List.foldl_append]
    exact ih.placeEdge edge

/-! ### The keys of the requests -/

theorem createStableEdgeKey_inj {source type target : String} {m n : ℕ}
    (h : createStableEdgeKey source type target m = createStableEdgeKey source type target n) :
    m = n := by
  have hlists := congrArg String.toList h
  simp only [createStableEdgeKey, String.toList_append, List.append_cancel_left_eq] at hlists
  have hdigits := congrArg (fun digits => Nat.ofDigitChars 10 digits 0) hlists
  simpa using hdigits

/-- Two edges without identifiers ask for different keys, even if they run between the same nodes
with the same type. -/
theorem request_key_ne {nodes : Dict String (NodeAttributes N)}
    {before between : List (NormalizedEdge N)} {edge edge' : NormalizedEdge N}
    {placed placed' : PlacedEdge N} (h : request nodes before edge = some placed)
    (h' : request nodes (before ++ edge :: between) edge' = some placed')
    (hkey : edge.key = none) (hkey' : edge'.key = none) (hsource : placed.source = placed'.source)
    (htarget : placed.target = placed'.target)
    (htype : edge.relationshipType = edge'.relationshipType) : placed.key ≠ placed'.key := by
  obtain ⟨⟨source, target⟩, hends, rfl⟩ := Option.map_eq_some_iff.1 h
  obtain ⟨⟨source', target'⟩, hends', rfl⟩ := Option.map_eq_some_iff.1 h'
  dsimp only at hsource htarget
  subst hsource htarget
  dsimp only
  rw [hkey, hkey', Option.getD_none, Option.getD_none, htype]
  intro heq
  have hcount := createStableEdgeKey_inj heq
  have hself : signature? nodes edge = some (signature source edge'.relationshipType target) := by
    rw [signature?, hends, htype]
    rfl
  rw [List.filterMap_append, List.filterMap_cons_some hself, List.count_append,
    List.count_cons_self] at hcount
  omega

/-! ### The graph that is returned -/

/-- The circle leaves everything but the positions. -/
theorem view_layOut (nodes : Dict String (NodeAttributes N)) (edges : List (PlacedEdge N))
    (missing : List String) :
    (layOut nodes edges missing).entries.map (fun entry => (entry.1, entry.2.originalId)) =
      nodes.entries.map fun entry => (entry.1, entry.2.originalId) := by
  rw [layOut, List.map_map]
  refine List.map_congr_left fun entry _ => ?_
  dsimp only [Function.comp]
  split_ifs <;> rfl

/-- What the nodes are looked up by. -/
theorem resolve_congr {nodes nodes' : Dict String (NodeAttributes N)}
    (h : nodes.entries.map (fun entry => (entry.1, entry.2.originalId)) =
      nodes'.entries.map fun entry => (entry.1, entry.2.originalId)) :
    nodes.keys = nodes'.keys ∧ resolve nodes = resolve nodes' := by
  have hkeys : nodes.keys = nodes'.keys := by
    have hfst := congrArg (List.map Prod.fst) h
    rwa [List.map_map, List.map_map] at hfst
  have hids : originalIds nodes = originalIds nodes' := by
    have hfold := congrArg
      (List.foldl (fun ids entry => indexNode ids entry.1 entry.2) ⟨.empty, []⟩) h
    rwa [List.foldl_map, List.foldl_map] at hfold
  refine ⟨hkeys, ?_⟩
  funext endpoint
  rw [resolve, resolve, hkeys, hids]

theorem requestsFrom_congr {nodes nodes' : Dict String (NodeAttributes N)}
    (h : ends nodes = ends nodes') (before rest : List (NormalizedEdge N)) :
    requestsFrom nodes before rest = requestsFrom nodes' before rest := by
  have hsignature : signature? nodes = signature? nodes' := by
    funext edge
    rw [signature?, signature?, h]
  induction rest generalizing before with
  | nil => rfl
  | cons edge rest ih => rw [requestsFrom, requestsFrom, ih, request, request, h, hsignature]

theorem ends_eq_some_iff {nodes : Dict String (NodeAttributes N)}
    (hnames : ∀ key ∈ nodes.keys, key ≠ "") (edge : NormalizedEdge N) {source target : String} :
    ends nodes edge = some (source, target) ↔
      Denotes nodes edge.source source ∧ Denotes nodes edge.target target := by
  rw [← resolve_eq_iff hnames edge.source_ne, ← resolve_eq_iff hnames edge.target_ne, ends]
  constructor
  · intro h
    split_ifs at h with hjoined
    cases h
    exact ⟨⟨rfl, hjoined.1⟩, rfl, hjoined.2⟩
  · rintro ⟨⟨rfl, hsource⟩, rfl, htarget⟩
    exact if_pos ⟨hsource, htarget⟩

theorem length_requests (nodes : Dict String (NodeAttributes N)) (edges : List (NormalizedEdge N)) :
    (requests nodes edges).length + (edges.filter (ends nodes · |>.isNone)).length =
      edges.length := by
  induction edges using List.reverseRecOn with
  | nil => rfl
  | append_singleton edges edge ih =>
    rw [requests_concat, request]
    cases hends : ends nodes edge <;> simp [hends] <;> omega

/-- What has become of the extracted edges. -/
structure EdgesAccounted (edges : List (NormalizedEdge N)) (graph : Graph N)
    (issues : List Issue) : Prop where
  /-- the graph has the first request for every key -/
  kept : graph.edges = uniqueBy (·.key) (requests graph.nodes edges)
  /-- an edge joins the nodes that its endpoints stand for -/
  ends_iff : ∀ edge ∈ edges, ∀ source target, ends graph.nodes edge = some (source, target) ↔
    Denotes graph.nodes edge.source source ∧ Denotes graph.nodes edge.target target
  /-- every edge with an endpoint that stands for no node is reported -/
  reported : issues =
    (edges.filter (ends graph.nodes · |>.isNone)).map (missingEndpoint graph.nodes)
  /-- no edge is lost just if no two requests have one key -/
  none_lost : graph.edges.length + issues.length = edges.length ↔
    ((requests graph.nodes edges).map (·.key)).Nodup
  /-- parallel edges without identifiers have different keys -/
  numbered : ∀ before edge between edge' after placed placed',
    edges = before ++ edge :: between ++ edge' :: after → edge.key = none → edge'.key = none →
    request graph.nodes before edge = some placed →
    request graph.nodes (before ++ edge :: between) edge' = some placed' →
    placed.source = placed'.source → placed.target = placed'.target →
    edge.relationshipType = edge'.relationshipType → placed.key ≠ placed'.key

end Graph

open Graph

/-- **Every extracted edge is in the graph, reported, or takes the key of an earlier one.** -/
theorem edges_accounted (extracted : Extracted N) :
    EdgesAccounted extracted.edges (buildGraph extracted).1 (buildGraph extracted).2 := by
  set nodes := ofNodes extracted.nodes with hnodes
  set graph := (buildGraph extracted).1 with hgraph
  have hplaced := accounted_placeEdges nodes extracted.edges
  obtain ⟨hkeys, hresolve⟩ := resolve_congr (view_layOut nodes
    (placeEdges nodes extracted.edges).edges (missingPositions nodes extracted.nodes))
  change graph.nodes.keys = nodes.keys at hkeys
  change resolve graph.nodes = resolve nodes at hresolve
  have hends : ends graph.nodes = ends nodes := by
    funext edge
    rw [ends, ends, hkeys, hresolve]
  have hrequests : requests graph.nodes extracted.edges = requests nodes extracted.edges :=
    requestsFrom_congr hends [] extracted.edges
  have hmissing : missingEndpoint graph.nodes = missingEndpoint nodes := by
    funext edge
    rw [missingEndpoint, missingEndpoint, hresolve]
  have hnames : ∀ key ∈ graph.nodes.keys, key ≠ "" := by
    intro key hkey
    rw [hkeys, hnodes] at hkey
    exact key_ne_of_mem_ofNodes hkey
  have hedges : graph.edges = uniqueBy (·.key) (requests graph.nodes extracted.edges) := by
    rw [hrequests]
    exact hplaced.edges_eq
  have hissues : (buildGraph extracted).2 = (extracted.edges.filter
      (ends graph.nodes · |>.isNone)).map (missingEndpoint graph.nodes) := by
    rw [hends, hmissing]
    exact hplaced.issues_eq
  refine ⟨hedges, fun edge _ source target => ends_eq_some_iff hnames edge, hissues, ?_, ?_⟩
  · have hlength := length_requests graph.nodes extracted.edges
    rw [← nodup_map_iff_length_uniqueBy, hedges, hissues, List.length_map]
    omega
  · intro _ _ _ _ _ _ _ _ hkey hkey' h h'
    exact request_key_ne h h' hkey hkey'

/-! ### What the graph says of a node -/

namespace Graph

theorem get?_layOut (nodes : Dict String (NodeAttributes N)) (edges : List (PlacedEdge N))
    (missing : List String) {key : String} {attributes : NodeAttributes N}
    (h : nodes.get? key = some attributes) :
    (layOut nodes edges missing).get? key =
      some (if key ∈ missing then { attributes with
        x := (circlePosition (max 1 (nodes.entries.length / 4)) (circleOrder edges missing) key).1
        y := (circlePosition (max 1 (nodes.entries.length / 4)) (circleOrder edges missing) key).2 }
      else attributes) := by
  rw [Dict.get?_eq_some_iff, layOut]
  refine List.mem_map.2 ⟨(key, attributes), Dict.get?_eq_some_iff.1 h, ?_⟩
  dsimp only
  split_ifs <;> rfl

theorem mem_missingPositions {nodes : Dict String (NodeAttributes N)}
    {mentions : List (NormalizedNode N)} {key : String} :
    key ∈ missingPositions nodes mentions ↔
      key ∈ nodes.keys ∧ ∀ node ∈ mentions, node.key = key → node.hasPosition = false := by
  rw [missingPositions, List.mem_filter, decide_eq_true_eq, List.mem_map]
  simp only [List.mem_filter, not_exists, not_and, and_imp]
  refine and_congr_right fun _ => forall₂_congr fun node _ => ?_
  cases node.hasPosition <;> simp

/-- What is known of the nodes of the graph. -/
structure NodesMerged (mentions : List (NormalizedNode N)) (graph : Graph N) : Prop where
  /-- every mentioned node once, in the order of the first mentions -/
  keys : graph.nodes.keys = appendNew [] (mentions.map (·.key))
  /-- a node with a position in any mention has the attributes of its last mention -/
  positioned : ∀ before node after, mentions = before ++ node :: after →
    node.key ∉ after.map (·.key) →
    (∃ mention ∈ mentions, mention.key = node.key ∧ mention.hasPosition = true) →
    graph.nodes.get? node.key = some node.attributes
  /-- another node too, but for its place on the circle -/
  circled : ∀ before node after, mentions = before ++ node :: after →
    node.key ∉ after.map (·.key) →
    (∀ mention ∈ mentions, mention.key = node.key → mention.hasPosition = false) →
    graph.nodes.get? node.key = some
      { node.attributes with
        x := (circlePosition (max 1 (graph.nodes.entries.length / 4))
          (circleOrder graph.edges (missingPositions graph.nodes mentions)) node.key).1
        y := (circlePosition (max 1 (graph.nodes.entries.length / 4))
          (circleOrder graph.edges (missingPositions graph.nodes mentions)) node.key).2 }

end Graph

/-- **The nodes of the graph are the mentioned ones, each as its last mention has it.** -/
theorem nodes_merged (extracted : Extracted N) :
    NodesMerged extracted.nodes (buildGraph extracted).1 := by
  set nodes := ofNodes extracted.nodes with hnodes
  set graph := (buildGraph extracted).1 with hgraph
  have hkeys : graph.nodes.keys = nodes.keys := (resolve_congr (view_layOut nodes
    (placeEdges nodes extracted.edges).edges (missingPositions nodes extracted.nodes))).1
  have hmissing : missingPositions graph.nodes extracted.nodes =
      missingPositions nodes extracted.nodes := by
    rw [missingPositions, missingPositions, hkeys]
  have hlength : graph.nodes.entries.length = nodes.entries.length := by
    simpa [Dict.keys] using congrArg List.length hkeys
  have hget : ∀ before node after, extracted.nodes = before ++ node :: after →
      node.key ∉ after.map (·.key) → graph.nodes.get? node.key = some
        (if node.key ∈ missingPositions nodes extracted.nodes then { node.attributes with
          x := (circlePosition (max 1 (nodes.entries.length / 4)) (circleOrder graph.edges
            (missingPositions nodes extracted.nodes)) node.key).1
          y := (circlePosition (max 1 (nodes.entries.length / 4)) (circleOrder graph.edges
            (missingPositions nodes extracted.nodes)) node.key).2 }
        else node.attributes) := fun before node after hsplit hlast =>
    get?_layOut nodes _ _ (get?_ofNodes hsplit hlast)
  refine ⟨hkeys.trans (keys_ofNodes _), ?_, ?_⟩
  · rintro before node after hsplit hlast ⟨mention, hmem, hkey, hposition⟩
    rw [hget before node after hsplit hlast, if_neg]
    rw [mem_missingPositions]
    intro hall
    rw [hall.2 mention hmem hkey] at hposition
    cases hposition
  · intro before node after hsplit hlast hnone
    have hin : node.key ∈ nodes.keys := by
      rw [keys_ofNodes, mem_appendNew]
      exact .inr (List.mem_map_of_mem (by simp [hsplit]))
    rw [hget before node after hsplit hlast, if_pos (mem_missingPositions.2 ⟨hin, hnone⟩),
      hmissing, hlength]

end Graphs
