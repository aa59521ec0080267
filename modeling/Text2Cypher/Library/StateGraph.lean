import Mathlib.Data.List.Basic
import Mathlib.Data.Nat.Init
import Mathlib.Order.Basic

/-!
# Graphs of nodes over a state

The nodes of a graph update a state one after the other; behind a node, the state decides which one
comes next.  Every edge leads down in rank, so that every run ends.

* **`Graph.nodup_nodes`**: a run visits no node twice;
* **`Graph.run_invariant`**: what the steps preserve holds at every visit;
* **`Graph.run_related`**: graphs whose steps keep two states related have related runs.
-/

namespace StateGraph

/-- Nodes that update a state or raise, the edges behind them, and a rank that the edges lower. -/
structure Graph (N S E : Type*) where
  node : N → S → Except E S
  next : N → S → Option N
  rank : N → ℕ
  rank_lt : ∀ {n s m}, next n s = some m → rank m < rank n

/-- The nodes that a run visits, each with the state that it sees, and what comes out. -/
structure Run (N S E : Type*) where
  visits : List (N × S)
  outcome : Except E S

/-- The visited nodes. -/
def Run.nodes {N S E : Type*} (run : Run N S E) : List N := run.visits.map Prod.fst

/-- One more visit in front of a run. -/
def Run.cons {N S E : Type*} (visit : N × S) (run : Run N S E) : Run N S E :=
  ⟨visit :: run.visits, run.outcome⟩

variable {N S E : Type*}

@[simp] theorem Run.nodes_cons (visit : N × S) (run : Run N S E) :
    (run.cons visit).nodes = visit.1 :: run.nodes := rfl

@[simp] theorem Run.outcome_cons (visit : N × S) (run : Run N S E) :
    (run.cons visit).outcome = run.outcome := rfl

namespace Graph

/-- The run from a node on. -/
def run (g : Graph N S E) (n : N) (s : S) : Run N S E :=
  match g.node n s with
  | .error e => ⟨[(n, s)], .error e⟩
  | .ok s' =>
      match _h : g.next n s' with
      | none => ⟨[(n, s)], .ok s'⟩
      | some m => (g.run m s').cons (n, s)
termination_by g.rank n
decreasing_by exact g.rank_lt _h

variable {g : Graph N S E} {n : N} {s : S}

theorem run_of_error {e : E} (h : g.node n s = .error e) : g.run n s = ⟨[(n, s)], .error e⟩ := by
  rw [run]
  split <;> simp_all

theorem run_of_end {s' : S} (h : g.node n s = .ok s') (hnext : g.next n s' = none) :
    g.run n s = ⟨[(n, s)], .ok s'⟩ := by
  rw [run, h]
  dsimp only
  split <;> simp_all

theorem run_of_next {s' : S} {m : N} (h : g.node n s = .ok s') (hnext : g.next n s' = some m) :
    g.run n s = (g.run m s').cons (n, s) := by
  rw [run, h]
  dsimp only
  split <;> simp_all

/-- The rule for runs: a node raises, ends the run, or leads on. -/
theorem run_induction {motive : N → S → Run N S E → Prop}
    (error : ∀ n s e, g.node n s = .error e → motive n s ⟨[(n, s)], .error e⟩)
    (finish : ∀ n s s', g.node n s = .ok s' → g.next n s' = none → motive n s ⟨[(n, s)], .ok s'⟩)
    (lead : ∀ n s s' m, g.node n s = .ok s' → g.next n s' = some m → motive m s' (g.run m s') →
      motive n s ((g.run m s').cons (n, s)))
    (n : N) (s : S) : motive n s (g.run n s) := by
  induction hrank : g.rank n using Nat.strong_induction_on generalizing n s with
  | _ k ih =>
    subst hrank
    cases hnode : g.node n s with
    | error e =>
      rw [run_of_error hnode]
      exact error n s e hnode
    | ok s' =>
      cases hnext : g.next n s' with
      | none =>
        rw [run_of_end hnode hnext]
        exact finish n s s' hnode hnext
      | some m =>
        rw [run_of_next hnode hnext]
        exact lead n s s' m hnode hnext (ih _ (g.rank_lt hnext) m s' rfl)

theorem rank_le_of_mem_nodes (g : Graph N S E) (n : N) (s : S) :
    ∀ m ∈ (g.run n s).nodes, g.rank m ≤ g.rank n := by
  refine run_induction (motive := fun n _ run => ∀ m ∈ run.nodes, g.rank m ≤ g.rank n) ?_ ?_ ?_ n s
  · intro n s e _
    simp [Run.nodes]
  · intro n s s' _ _
    simp [Run.nodes]
  · intro n s s' m _ hnext ih
    have hrank := g.rank_lt hnext
    simp only [Run.nodes_cons, List.mem_cons, forall_eq_or_imp, Nat.le_refl, true_and]
    exact fun m' hm' => Nat.le_trans (ih m' hm') (Nat.le_of_lt hrank)

/-- **A run visits no node twice.** -/
theorem nodup_nodes (g : Graph N S E) (n : N) (s : S) : (g.run n s).nodes.Nodup := by
  refine run_induction (motive := fun _ _ run => run.nodes.Nodup) ?_ ?_ ?_ n s
  · intro n s e _
    simp [Run.nodes]
  · intro n s s' _ _
    simp [Run.nodes]
  · intro n s s' m _ hnext ih
    rw [Run.nodes_cons, List.nodup_cons]
    refine ⟨fun hmem => ?_, ih⟩
    have hrank := g.rank_lt hnext
    have hle := rank_le_of_mem_nodes g m s' n hmem
    omega

/-- **What the steps preserve holds at every visit.** -/
theorem run_invariant {P : N → S → Prop} (hP : P n s)
    (hstep : ∀ n s s' m, P n s → g.node n s = .ok s' → g.next n s' = some m → P m s') :
    ∀ visit ∈ (g.run n s).visits, P visit.1 visit.2 := by
  refine run_induction
    (motive := fun n s run => P n s → ∀ visit ∈ run.visits, P visit.1 visit.2) ?_ ?_ ?_ n s hP
  · intro n s e _ hP
    simpa using hP
  · intro n s s' _ _ hP
    simpa using hP
  · intro n s s' m hnode hnext ih hP
    simp only [Run.cons, List.mem_cons, forall_eq_or_imp]
    exact ⟨hP, ih (hstep n s s' m hP hnode hnext)⟩

/-- A run that comes to an end leaves the state of a node that nothing follows. -/
theorem exists_last (g : Graph N S E) (n : N) (s : S) :
    ∃ visit before, (g.run n s).visits = before ++ [visit] ∧
      (g.run n s).outcome = g.node visit.1 visit.2 ∧
      ∀ s', (g.run n s).outcome = .ok s' → g.next visit.1 s' = none := by
  refine run_induction (motive := fun _ _ run => ∃ visit before, run.visits = before ++ [visit] ∧
    run.outcome = g.node visit.1 visit.2 ∧ ∀ s', run.outcome = .ok s' → g.next visit.1 s' = none)
    ?_ ?_ ?_ n s
  · intro n s e hnode
    exact ⟨(n, s), [], rfl, hnode.symm, by simp⟩
  · intro n s s' hnode hnext
    refine ⟨(n, s), [], rfl, hnode.symm, ?_⟩
    rintro _ ⟨⟩
    exact hnext
  · rintro n s s' m - - ⟨visit, before, hvisits, houtcome, hend⟩
    exact ⟨visit, (n, s) :: before, by rw [Run.cons, hvisits, List.cons_append], houtcome, hend⟩

/-- The nodes follow each other, whatever the state is, and nothing follows the last one. -/
def IsChain (g : Graph N S E) : List N → Prop
  | [] => False
  | [n] => ∀ s, g.next n s = none
  | n :: m :: rest => (∀ s, g.next n s = some m) ∧ g.IsChain (m :: rest)

/-- A run along a chain visits its nodes in turn, all of them when none raises. -/
theorem nodes_of_chain {rest : List N} (hchain : g.IsChain (n :: rest)) :
    (g.run n s).nodes <+: n :: rest ∧
      ∀ s', (g.run n s).outcome = .ok s' → (g.run n s).nodes = n :: rest := by
  induction rest generalizing n s with
  | nil =>
    cases hnode : g.node n s with
    | error e =>
      rw [run_of_error hnode]
      exact ⟨List.prefix_refl _, fun _ _ => rfl⟩
    | ok s' =>
      rw [run_of_end hnode (hchain s')]
      exact ⟨List.prefix_refl _, fun _ _ => rfl⟩
  | cons m rest ih =>
    cases hnode : g.node n s with
    | error e =>
      rw [run_of_error hnode]
      refine ⟨⟨m :: rest, rfl⟩, fun s' h => ?_⟩
      cases h
    | ok s' =>
      obtain ⟨hvisited, hall⟩ := ih (s := s') hchain.2
      rw [run_of_next hnode (hchain.1 s'), Run.nodes_cons, Run.outcome_cons]
      exact ⟨List.cons_prefix_cons.2 ⟨rfl, hvisited⟩, fun t ht => by rw [hall t ht]⟩

/-- Outcomes that are the same exception or related states. -/
inductive Related (R : S → S → Prop) : Except E S → Except E S → Prop
  | error (e : E) : Related R (.error e) (.error e)
  | ok {s t : S} (h : R s t) : Related R (.ok s) (.ok t)

/-- **Runs of graphs that keep their states related are related.** -/
theorem run_related {g g' : Graph N S E} {R : S → S → Prop} {P : N → Prop}
    (hnode : ∀ n s t, P n → R s t → Related R (g.node n s) (g'.node n t))
    (hnext : ∀ n s t, P n → R s t → g.next n s = g'.next n t)
    (hclosed : ∀ n s m, P n → g.next n s = some m → P m) {t : S} (hP : P n) (hst : R s t) :
    (g.run n s).nodes = (g'.run n t).nodes ∧
      Related R (g.run n s).outcome (g'.run n t).outcome := by
  refine run_induction (motive := fun n s run => ∀ t, P n → R s t →
    run.nodes = (g'.run n t).nodes ∧ Related R run.outcome (g'.run n t).outcome) ?_ ?_ ?_ n s t hP hst
  · intro n s e hs t hP hst
    have hrelated := hnode n s t hP hst
    rw [hs] at hrelated
    cases ht : g'.node n t with
    | ok t' => rw [ht] at hrelated; cases hrelated
    | error e' =>
      rw [ht] at hrelated
      cases hrelated
      rw [run_of_error ht]
      exact ⟨rfl, .error e⟩
  · intro n s s' hs hend t hP hst
    have hrelated := hnode n s t hP hst
    rw [hs] at hrelated
    cases ht : g'.node n t with
    | error e' => rw [ht] at hrelated; cases hrelated
    | ok t' =>
      rw [ht] at hrelated
      cases hrelated with
      | ok hst' =>
        rw [run_of_end ht ((hnext n s' t' hP hst').symm.trans hend)]
        exact ⟨rfl, .ok hst'⟩
  · intro n s s' m hs hlead ih t hP hst
    have hrelated := hnode n s t hP hst
    rw [hs] at hrelated
    cases ht : g'.node n t with
    | error e' => rw [ht] at hrelated; cases hrelated
    | ok t' =>
      rw [ht] at hrelated
      cases hrelated with
      | ok hst' =>
        obtain ⟨hnodes, houtcome⟩ := ih t' (hclosed n s' m hP hlead) hst'
        rw [run_of_next ht ((hnext n s' t' hP hst').symm.trans hlead)]
        exact ⟨by rw [Run.nodes_cons, Run.nodes_cons, hnodes], houtcome⟩

end Graph

end StateGraph
