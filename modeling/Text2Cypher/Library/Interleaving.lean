import Mathlib.Logic.Function.Basic
import Mathlib.Data.List.Basic

/-!
# Interleaved parties

Any number of parties share one state; each has a state of its own and takes its steps one at a
time, in any order.  A step has a label: what the party is told from outside.  Between two steps the
environment may change the shared state too.

* `History`: the moves made so far, and the system they have led to;
* `History.rule`: what one move keeps, a whole history keeps.
-/

namespace Interleaving

/-- The shared state, and where every party is. -/
structure System (ι σ π : Type) where
  shared : σ
  party : ι → π

/-- One move: the party that made it and its label (`none` is the environment), and the system
before and after it. -/
structure Move (ι α σ π : Type) where
  actor : Option (ι × α)
  before : System ι σ π
  after : System ι σ π

variable {ι α σ π : Type} [DecidableEq ι]

/-- A party has moved. -/
def System.moved (s : System ι σ π) (i : ι) (next : σ × π) : System ι σ π :=
  ⟨next.1, Function.update s.party i next.2⟩

@[simp] theorem System.moved_shared (s : System ι σ π) (i : ι) (next : σ × π) :
    (s.moved i next).shared = next.1 := rfl

@[simp] theorem System.moved_party_self (s : System ι σ π) (i : ι) (next : σ × π) :
    (s.moved i next).party i = next.2 := Function.update_self ..

theorem System.moved_party_of_ne (s : System ι σ π) {i j : ι} (h : j ≠ i) (next : σ × π) :
    (s.moved i next).party j = s.party j := Function.update_of_ne h ..

/-- The moves that lead from one system to another: `act i a` relates what party `i` sees (the
shared state and its own) to what it leaves behind, `env` is what the environment may do. -/
inductive History (act : ι → α → σ × π → σ × π → Prop) (env : σ → σ → Prop)
    (start : System ι σ π) : List (Move ι α σ π) → System ι σ π → Prop
  | start : History act env start [] start
  | act {moves : List (Move ι α σ π)} {s : System ι σ π} {i : ι} {a : α} {next : σ × π} :
      History act env start moves s → act i a (s.shared, s.party i) next →
      History act env start (moves ++ [⟨some (i, a), s, s.moved i next⟩]) (s.moved i next)
  | env {moves : List (Move ι α σ π)} {s : System ι σ π} {shared : σ} :
      History act env start moves s → env s.shared shared →
      History act env start (moves ++ [⟨none, s, ⟨shared, s.party⟩⟩]) ⟨shared, s.party⟩

/-- What holds at the start and is kept by every clean move holds after every history of clean
moves. -/
theorem History.rule {act : ι → α → σ × π → σ × π → Prop} {env : σ → σ → Prop}
    {start : System ι σ π} {clean : Move ι α σ π → Prop}
    {holds : List (Move ι α σ π) → System ι σ π → Prop} (hstart : holds [] start)
    (hact : ∀ moves s i a next, holds moves s → act i a (s.shared, s.party i) next →
      clean ⟨some (i, a), s, s.moved i next⟩ →
      holds (moves ++ [⟨some (i, a), s, s.moved i next⟩]) (s.moved i next))
    (henv : ∀ moves s shared, holds moves s → env s.shared shared →
      holds (moves ++ [⟨none, s, ⟨shared, s.party⟩⟩]) ⟨shared, s.party⟩)
    {moves : List (Move ι α σ π)} {s : System ι σ π} (h : History act env start moves s)
    (hclean : ∀ move ∈ moves, clean move) : holds moves s := by
  induction h with
  | start => exact hstart
  | @act moves s i a next h hstep ih =>
    refine hact moves s i a next (ih fun move hmem => ?_) hstep (hclean _ ?_)
    · exact hclean move (List.mem_append_left _ hmem)
    · exact List.mem_append_right _ (List.mem_singleton_self _)
  | @env moves s shared h hstep ih =>
    exact henv moves s shared (ih fun move hmem => hclean move (List.mem_append_left _ hmem)) hstep

/-- The moves of a schedule, where what a party leaves behind is a function of what it sees. -/
def replay (next : ι → α → σ × π → σ × π) (s : System ι σ π) :
    List (ι × α) → List (Move ι α σ π) × System ι σ π
  | [] => ([], s)
  | (i, a) :: schedule =>
    let s' := s.moved i (next i a (s.shared, s.party i))
    let rest := replay next s' schedule
    (⟨some (i, a), s, s'⟩ :: rest.1, rest.2)

/-- A move that its party is allowed to make. -/
def Move.Allowed (act : ι → α → σ × π → σ × π → Prop) (move : Move ι α σ π) : Prop :=
  ∀ i a, move.actor = some (i, a) →
    act i a (move.before.shared, move.before.party i) (move.after.shared, move.after.party i)

theorem history_replay {act : ι → α → σ × π → σ × π → Prop} {env : σ → σ → Prop}
    {next : ι → α → σ × π → σ × π} {start : System ι σ π} {schedule : List (ι × α)}
    (hallowed : ∀ move ∈ (replay next start schedule).1, move.Allowed act) :
    History act env start (replay next start schedule).1 (replay next start schedule).2 := by
  have hfrom : ∀ moves s, History act env start moves s →
      (∀ move ∈ (replay next s schedule).1, move.Allowed act) →
      History act env start (moves ++ (replay next s schedule).1) (replay next s schedule).2 := by
    clear hallowed
    induction schedule with
    | nil =>
      intro moves s h _
      rw [replay, List.append_nil]
      exact h
    | cons step schedule ih =>
      intro moves s h hallowed
      obtain ⟨i, a⟩ := step
      rw [replay, List.forall_mem_cons] at hallowed
      have hmove := hallowed.1 i a rfl
      rw [System.moved_shared, System.moved_party_self] at hmove
      have hrest := ih _ _ (h.act hmove) hallowed.2
      rwa [List.append_assoc, List.singleton_append] at hrest
  exact hfrom [] start .start hallowed

/-- The moves of a schedule are those that `next` makes. -/
theorem replay_eq_next {next : ι → α → σ × π → σ × π} {s : System ι σ π} {schedule : List (ι × α)}
    {move : Move ι α σ π} (hmem : move ∈ (replay next s schedule).1) {i : ι} {a : α}
    (hactor : move.actor = some (i, a)) :
    (move.after.shared, move.after.party i) =
      next i a (move.before.shared, move.before.party i) := by
  induction schedule generalizing s with
  | nil => cases hmem
  | cons step schedule ih =>
    obtain ⟨j, b⟩ := step
    rw [replay, List.mem_cons] at hmem
    rcases hmem with rfl | hmem
    · simp only [Option.some.injEq, Prod.mk.injEq] at hactor
      obtain ⟨rfl, rfl⟩ := hactor
      simp
    · exact ih hmem

end Interleaving
