import Mathlib.Data.List.Nodup
import Mathlib.Data.List.Perm.Subperm
import Mathlib.Logic.Relation

/-!
# Breadth-first orders

Targets of a graph are put in an order: a search starts at every target that no earlier search has
visited, and goes on with a queue.  Nodes that are no targets are not entered.

* `Linked`: every node of a list but the first has a neighbour before it;
* `IsComponent`: a list of all targets that can be reached from its first node;
* **`exists_blocks`**: where neighbours are mutual, the order is a sequence of linked components.
-/

namespace BreadthFirst

variable {α : Type}

/-! ### Linked lists and components -/

/-- From one target to the next. -/
def Adjacent (neighbours : α → List α) (targets : List α) (a b : α) : Prop :=
  b ∈ neighbours a ∧ b ∈ targets

/-- `b` can be reached from `a` over targets. -/
abbrev Reaches (neighbours : α → List α) (targets : List α) : α → α → Prop :=
  Relation.ReflTransGen (Adjacent neighbours targets)

/-- Every node of a list but the first has a neighbour before it. -/
def Linked (neighbours : α → List α) (l : List α) : Prop :=
  ∀ before node after, l = before ++ node :: after → before ≠ [] →
    ∃ u ∈ before, node ∈ neighbours u

/-- The targets that can be reached from the first of them. -/
def IsComponent (neighbours : α → List α) (targets l : List α) : Prop :=
  ∃ start ∈ targets, l.head? = some start ∧ ∀ v, v ∈ l ↔ Reaches neighbours targets start v

variable {neighbours : α → List α} {targets : List α}

/-- A node at the end keeps a list linked if it has a neighbour in it. -/
theorem Linked.concat {l : List α} (h : Linked neighbours l) {u n : α} (hu : u ∈ l)
    (hn : n ∈ neighbours u) : Linked neighbours (l ++ [n]) := by
  intro before node after hsplit hbefore
  rcases List.eq_nil_or_concat after with rfl | ⟨after, last, rfl⟩
  · obtain ⟨rfl, hlast⟩ := List.append_inj' hsplit rfl
    obtain rfl : n = node := by simpa using hlast
    exact ⟨u, hu, hn⟩
  · have hsplit' : l ++ [n] = (before ++ node :: after) ++ [last] := by
      simpa [List.concat_eq_append] using hsplit
    exact h before node after (List.append_inj' hsplit' rfl).1 hbefore

/-- What is closed under the steps from a node holds all that the node reaches. -/
theorem mem_of_reaches {l : List α}
    (hclosed : ∀ u ∈ l, ∀ v, Adjacent neighbours targets u v → v ∈ l) {u v : α} (hu : u ∈ l)
    (h : Reaches neighbours targets u v) : v ∈ l := by
  induction h with
  | refl => exact hu
  | tail _ hstep ih => exact hclosed _ ih _ hstep

/-- Where neighbours are mutual, reaching is. -/
theorem Reaches.symm (hmutual : ∀ a b, b ∈ neighbours a → a ∈ neighbours b) {u v : α}
    (hu : u ∈ targets) (h : Reaches neighbours targets u v) :
    Reaches neighbours targets v u := by
  induction h with
  | refl => exact .refl
  | @tail w v hreach hstep ih =>
    have hw : w ∈ targets := by
      rcases hreach.cases_tail with rfl | ⟨_, _, hlast⟩
      · exact hu
      · exact hlast.2
    exact .head ⟨hmutual _ _ hstep.1, hw⟩ ih

/-! ### The searches -/

/-- The set of visited nodes, the queue, and the order so far. -/
structure State (α : Type) where
  visited : List α
  queue : List α
  order : List α

variable [DecidableEq α]

section

variable (neighbours : α → List α) (targets : List α)

/-- A neighbour of the node that has been taken from the queue. -/
def visit (s : State α) (n : α) : State α :=
  if n ∈ targets ∧ n ∉ s.visited then ⟨n :: s.visited, s.queue ++ [n], s.order⟩ else s

/-- The next node of the queue. -/
def take (s : State α) : State α :=
  match s.queue with
  | [] => s
  | node :: rest => (neighbours node).foldl (visit targets) ⟨s.visited, rest, s.order ++ [node]⟩

/-- The loop over the queue.  Every round takes another target, so that one round for each of them
is enough. -/
def drain : ℕ → State α → State α
  | 0, s => s
  | rounds + 1, s => drain rounds (take neighbours targets s)

/-- The search from one node. -/
def enter (s : State α) (start : α) : State α :=
  if start ∈ s.visited then s
  else drain neighbours targets targets.length ⟨start :: s.visited, [start], s.order⟩

/-- The order of all targets. -/
def order : List α := (targets.foldl (enter neighbours targets) ⟨[], [], []⟩).order

end

/-! ### One search -/

/-- How far a search from `start` has come, where `done` is the order of the searches before. -/
structure Searching (neighbours : α → List α) (targets done : List α) (start : α)
    (block : List α) (s : State α) : Prop where
  order_eq : s.order = done ++ block
  mem_visited : ∀ v, v ∈ s.visited ↔ v ∈ done ∨ v ∈ block ++ s.queue
  nodup : (done ++ (block ++ s.queue)).Nodup
  within : ∀ v ∈ done ++ (block ++ s.queue), v ∈ targets
  head : (block ++ s.queue).head? = some start
  linked : Linked neighbours (block ++ s.queue)
  reached : ∀ v ∈ block ++ s.queue, Reaches neighbours targets start v

theorem Searching.visit {done block : List α} {start node n : α} {s : State α}
    (h : Searching neighbours targets done start block s) (hnode : node ∈ block)
    (hn : n ∈ neighbours node) :
    Searching neighbours targets done start block (visit targets s n) := by
  unfold BreadthFirst.visit
  split_ifs with hfresh
  · obtain ⟨htarget, hfresh⟩ := hfresh
    have hall : node ∈ block ++ s.queue := List.mem_append_left _ hnode
    have hnew : n ∉ done ++ (block ++ s.queue) := by
      rwa [List.mem_append, ← h.mem_visited]
    have hassoc : block ++ (s.queue ++ [n]) = (block ++ s.queue) ++ [n] :=
      (List.append_assoc ..).symm
    constructor <;> dsimp only <;> try rw [hassoc]
    · exact h.order_eq
    · intro v
      rw [List.mem_cons, h.mem_visited, List.mem_append (t := [n]), List.mem_singleton]
      tauto
    · rw [← List.append_assoc]
      exact h.nodup.append (List.nodup_singleton n) (by simpa using hnew)
    · intro v hv
      rw [← List.append_assoc, List.mem_append, List.mem_singleton] at hv
      rcases hv with hv | rfl
      · exact h.within v hv
      · exact htarget
    · rw [List.head?_append, h.head]
      rfl
    · exact h.linked.concat hall hn
    · intro v hv
      rcases List.mem_append.1 hv with hv | hv
      · exact h.reached v hv
      · obtain rfl := List.mem_singleton.1 hv
        exact (h.reached node hall).tail ⟨hn, htarget⟩
  · exact h

theorem subset_visited_visit (s : State α) (n : α) : s.visited ⊆ (visit targets s n).visited := by
  unfold visit
  split_ifs
  · exact List.subset_cons_self _ _
  · exact List.Subset.refl _

theorem mem_visited_visit {s : State α} {n : α} (h : n ∈ targets) :
    n ∈ (visit targets s n).visited := by
  unfold visit
  split_ifs with hfresh
  · exact List.mem_cons_self
  · by_contra hn
    exact hfresh ⟨h, hn⟩

theorem visited_foldl_visit (l : List α) (s : State α) :
    s.visited ⊆ (l.foldl (visit targets) s).visited ∧
      ∀ n ∈ l, n ∈ targets → n ∈ (l.foldl (visit targets) s).visited := by
  induction l generalizing s with
  | nil => exact ⟨List.Subset.refl _, fun _ h => absurd h List.not_mem_nil⟩
  | cons m l ih =>
    obtain ⟨hsubset, hmem⟩ := ih (visit targets s m)
    refine ⟨fun v hv => hsubset (subset_visited_visit s m hv), ?_⟩
    rintro n hn htarget
    rcases List.mem_cons.1 hn with rfl | hn
    · exact hsubset (mem_visited_visit htarget)
    · exact hmem n hn htarget

theorem Searching.foldl_visit {done block : List α} {start node : α} {s : State α}
    (h : Searching neighbours targets done start block s) (hnode : node ∈ block) {l : List α}
    (hl : ∀ n ∈ l, n ∈ neighbours node) :
    Searching neighbours targets done start block (l.foldl (BreadthFirst.visit targets) s) :=
  List.foldlRecOn l _ h fun _ ht n hn => ht.visit hnode (hl n hn)

/-- What has been taken from the queue has its neighbours visited. -/
def Explored (neighbours : α → List α) (targets block : List α) (s : State α) : Prop :=
  ∀ u ∈ block, ∀ n, Adjacent neighbours targets u n → n ∈ s.visited

/-- One round of the loop. -/
theorem Searching.take {done block rest : List α} {start node : α} {s : State α}
    (h : Searching neighbours targets done start block s) (hqueue : s.queue = node :: rest)
    (hexplored : Explored neighbours targets block s) :
    Searching neighbours targets done start (block ++ [node]) (take neighbours targets s) ∧
      Explored neighbours targets (block ++ [node]) (take neighbours targets s) := by
  have hmoved : (block ++ [node]) ++ rest = block ++ s.queue := by
    rw [hqueue, List.append_assoc, List.singleton_append]
  have hstart : Searching neighbours targets done start (block ++ [node])
      ⟨s.visited, rest, s.order ++ [node]⟩ := by
    constructor <;> dsimp only <;> try rw [hmoved]
    · rw [h.order_eq, List.append_assoc]
    · exact h.mem_visited
    · exact h.nodup
    · exact h.within
    · exact h.head
    · exact h.linked
    · exact h.reached
  have htake : BreadthFirst.take neighbours targets s =
      (neighbours node).foldl (BreadthFirst.visit targets)
        ⟨s.visited, rest, s.order ++ [node]⟩ := by
    rw [BreadthFirst.take, hqueue]
  rw [htake]
  obtain ⟨hkept, hadded⟩ := visited_foldl_visit (neighbours node) ⟨s.visited, rest, s.order ++ [node]⟩
  refine ⟨hstart.foldl_visit (by simp) fun _ => id, ?_⟩
  rintro u hu n ⟨hn, htarget⟩
  rcases List.mem_append.1 hu with hu | hu
  · exact hkept (hexplored u hu n ⟨hn, htarget⟩)
  · obtain rfl := List.mem_singleton.1 hu
    exact hadded n hn htarget

theorem drain_of_queue_eq_nil {s : State α} (h : s.queue = []) (rounds : ℕ) :
    drain neighbours targets rounds s = s := by
  have htake : take neighbours targets s = s := by
    rw [take, h]
  induction rounds with
  | zero => rfl
  | succ rounds ih => rw [drain, htake, ih]

/-- The loop ends with an empty queue: every round takes another target. -/
theorem Searching.drain {done block : List α} {start : α} {s : State α} {rounds : ℕ}
    (h : Searching neighbours targets done start block s)
    (hexplored : Explored neighbours targets block s)
    (hrounds : targets.length ≤ s.order.length + rounds) :
    ∃ block', Searching neighbours targets done start block' (drain neighbours targets rounds s) ∧
      Explored neighbours targets block' (drain neighbours targets rounds s) ∧
      (drain neighbours targets rounds s).queue = [] := by
  induction rounds generalizing s block with
  | zero =>
    refine ⟨block, h, hexplored, ?_⟩
    have hsubset : (done ++ (block ++ s.queue)) ⊆ targets := h.within
    have hlength := (h.nodup.subperm hsubset).length_le
    rw [h.order_eq] at hrounds
    simp only [List.length_append] at hlength hrounds
    exact List.length_eq_zero_iff.1 (by rw [BreadthFirst.drain]; omega)
  | succ rounds ih =>
    cases hqueue : s.queue with
    | nil =>
      rw [drain_of_queue_eq_nil hqueue]
      exact ⟨block, h, hexplored, hqueue⟩
    | cons node rest =>
      obtain ⟨hnext, hexplored'⟩ := h.take hqueue hexplored
      refine ih hnext hexplored' ?_
      rw [hnext.order_eq]
      rw [h.order_eq] at hrounds
      simp only [List.length_append, List.length_singleton] at hrounds ⊢
      omega

/-! ### All searches -/

/-- What one search leaves for the next. -/
structure Searched (neighbours : α → List α) (targets : List α) (blocks : List (List α))
    (s : State α) : Prop where
  order_eq : s.order = blocks.flatten
  visited : ∀ v, v ∈ s.visited ↔ v ∈ s.order
  nodup : s.order.Nodup
  within : ∀ v ∈ s.order, v ∈ targets
  closed : ∀ u ∈ s.order, ∀ v, Adjacent neighbours targets u v → v ∈ s.order
  blocks : ∀ block ∈ blocks, IsComponent neighbours targets block ∧ Linked neighbours block

theorem Searched.enter {blocks : List (List α)} {s : State α}
    (h : Searched neighbours targets blocks s)
    (hmutual : ∀ a b, b ∈ neighbours a → a ∈ neighbours b) {start : α} (hstart : start ∈ targets) :
    ∃ blocks', Searched neighbours targets blocks' (enter neighbours targets s start) ∧
      s.order ⊆ (enter neighbours targets s start).order ∧
      start ∈ (enter neighbours targets s start).order := by
  unfold BreadthFirst.enter
  split_ifs with hvisited
  · exact ⟨blocks, h, List.Subset.refl _, (h.visited start).1 hvisited⟩
  · have hfresh : start ∉ s.order := fun hmem => hvisited ((h.visited start).2 hmem)
    have hfirst : Searching neighbours targets s.order start []
        ⟨start :: s.visited, [start], s.order⟩ := by
      constructor <;> dsimp only [List.nil_append]
      · rw [List.append_nil]
      · intro v
        rw [List.mem_cons, h.visited, List.mem_singleton, or_comm]
      · exact h.nodup.append (List.nodup_singleton start) (by simpa using hfresh)
      · intro v hv
        rcases List.mem_append.1 hv with hv | hv
        · exact h.within v hv
        · rwa [List.mem_singleton.1 hv]
      · rfl
      · rintro (_ | ⟨_, _ | _⟩) node after hsplit hbefore <;> simp_all
      · intro v hv
        rw [List.mem_singleton.1 hv]
    obtain ⟨block, hdone, hexplored, hqueue⟩ :=
      hfirst.drain (fun u hu => absurd hu List.not_mem_nil)
        (Nat.le_add_left targets.length s.order.length)
    set t := BreadthFirst.drain neighbours targets targets.length
      ⟨start :: s.visited, [start], s.order⟩ with ht
    obtain ⟨horder, hmem, hnodup, hwithin, hhead, hlinked, hreached⟩ := hdone
    rw [hqueue, List.append_nil] at hmem hnodup hwithin hhead hlinked hreached
    rw [← horder] at hnodup hwithin
    have hvisited' : ∀ v, v ∈ t.visited ↔ v ∈ t.order := by
      intro v
      rw [hmem, horder, List.mem_append]
    have hstart' : start ∈ block := List.mem_of_mem_head? hhead
    have hclosed : ∀ u ∈ t.order, ∀ v, Adjacent neighbours targets u v → v ∈ t.order := by
      intro u hu v hstep
      rw [horder, List.mem_append] at hu
      rcases hu with hu | hu
      · rw [horder]
        exact List.mem_append_left _ (h.closed u hu v hstep)
      · exact (hvisited' v).1 (hexplored u hu v hstep)
    -- a node of an earlier search is not reached: it would reach the start
    have hblock : ∀ v, v ∈ block ↔ Reaches neighbours targets start v := by
      refine fun v => ⟨hreached v, fun hreach => ?_⟩
      have hstarted : start ∈ t.order := by
        rw [horder]
        exact List.mem_append_right _ hstart'
      have hv := mem_of_reaches hclosed hstarted hreach
      rw [horder, List.mem_append] at hv
      rcases hv with hv | hv
      · exact absurd (mem_of_reaches h.closed hv (Reaches.symm hmutual hstart hreach)) hfresh
      · exact hv
    refine ⟨blocks ++ [block], ⟨?_, hvisited', hnodup, hwithin, hclosed, ?_⟩, ?_, ?_⟩
    · rw [horder, h.order_eq, List.flatten_append, List.flatten_singleton]
    · intro b hb
      rcases List.mem_append.1 hb with hb | hb
      · exact h.blocks b hb
      · obtain rfl := List.mem_singleton.1 hb
        exact ⟨⟨start, hstart, hhead, hblock⟩, hlinked⟩
    · rw [horder]
      exact List.subset_append_left _ _
    · rw [horder]
      exact List.mem_append_right _ hstart'

/-- The loop over the targets. -/
theorem Searched.foldl_enter {blocks : List (List α)} {s : State α}
    (h : Searched neighbours targets blocks s)
    (hmutual : ∀ a b, b ∈ neighbours a → a ∈ neighbours b) {starts : List α}
    (hstarts : ∀ start ∈ starts, start ∈ targets) :
    ∃ blocks', Searched neighbours targets blocks' (starts.foldl (BreadthFirst.enter neighbours
        targets) s) ∧ s.order ⊆ (starts.foldl (BreadthFirst.enter neighbours targets) s).order ∧
      ∀ start ∈ starts, start ∈ (starts.foldl (BreadthFirst.enter neighbours targets) s).order := by
  induction starts generalizing s blocks with
  | nil => exact ⟨blocks, h, List.Subset.refl _, fun _ hmem => absurd hmem List.not_mem_nil⟩
  | cons start starts ih =>
    obtain ⟨blocks', hnext, hkept, hmem⟩ := h.enter hmutual (hstarts start List.mem_cons_self)
    obtain ⟨blocks'', hlast, hkept', hmem'⟩ :=
      ih hnext fun start' hstart' => hstarts start' (List.mem_cons_of_mem _ hstart')
    refine ⟨blocks'', hlast, fun v hv => hkept' (hkept hv), ?_⟩
    rintro start' hstart'
    rcases List.mem_cons.1 hstart' with rfl | hstart'
    · exact hkept' hmem
    · exact hmem' start' hstart'

omit [DecidableEq α] in
theorem searched_start : Searched neighbours targets [] ⟨[], [], []⟩ := by
  constructor <;> simp

theorem exists_searched (hmutual : ∀ a b, b ∈ neighbours a → a ∈ neighbours b) :
    ∃ blocks, Searched neighbours targets blocks
        (targets.foldl (enter neighbours targets) ⟨[], [], []⟩) ∧
      ∀ v ∈ targets, v ∈ order neighbours targets := by
  have hstart : Searched neighbours targets [] ⟨[], [], []⟩ := searched_start
  obtain ⟨blocks, h, _, hmem⟩ := hstart.foldl_enter hmutual fun start (h : start ∈ targets) => h
  exact ⟨blocks, h, hmem⟩

/-- **The order is made of the components, each of them linked.** -/
theorem exists_blocks (hmutual : ∀ a b, b ∈ neighbours a → a ∈ neighbours b) :
    ∃ blocks : List (List α), order neighbours targets = blocks.flatten ∧
      ∀ block ∈ blocks, IsComponent neighbours targets block ∧ Linked neighbours block := by
  obtain ⟨blocks, h, _⟩ := exists_searched hmutual
  exact ⟨blocks, h.order_eq, h.blocks⟩

/-- Every target is in the order, once. -/
theorem order_perm (hmutual : ∀ a b, b ∈ neighbours a → a ∈ neighbours b)
    (hnodup : targets.Nodup) : (order neighbours targets).Perm targets := by
  obtain ⟨_, h, hmem⟩ := exists_searched hmutual
  exact (List.perm_ext_iff_of_nodup h.nodup hnodup).2 fun v => ⟨h.within v, hmem v⟩

end BreadthFirst
