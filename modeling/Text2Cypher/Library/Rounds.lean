import Mathlib.Data.List.Basic

/-!
# Rounds with a kept history

A loop repeats a round until its condition stops it.  Every round leaves a record and may abort the
run.  `Rounds.run` keeps the records of all rounds.

* `Rounds.run_done`: an invariant of the rounds that go on holds before the last round of a run that
  ends;
* `Rounds.run_ne_cut`: a bound on the rounds that go on bounds the run.
-/

variable {σ τ ε : Type}

structure Rounds (σ τ ε : Type) where
  /-- the record of the round, and the next state unless the round aborts -/
  round : σ → τ × Except ε σ
  again : σ → Bool

/-- How a run with a bounded number of rounds may end. -/
inductive Ending (σ ε : Type)
  | done (s : σ)
  | aborted (e : ε)
  | cut

namespace Rounds

/-- The run of at most `n` rounds: the records in order, and the end. -/
def run (c : Rounds σ τ ε) : ℕ → σ → List τ × Ending σ ε
  | 0, _ => ([], .cut)
  | n + 1, s =>
      match c.round s with
      | (record, .error e) => ([record], .aborted e)
      | (record, .ok s') =>
          if c.again s' then
            let (records, ending) := c.run n s'
            (record :: records, ending)
          else ([record], .done s')

theorem run_succ_ok {c : Rounds σ τ ε} {n : ℕ} {s s' : σ} {record : τ}
    (h : c.round s = (record, .ok s')) :
    c.run (n + 1) s =
      if c.again s' then (record :: (c.run n s').1, (c.run n s').2) else ([record], .done s') := by
  rw [run, h]

theorem run_succ_error {c : Rounds σ τ ε} {n : ℕ} {s : σ} {record : τ} {e : ε}
    (h : c.round s = (record, .error e)) : c.run (n + 1) s = ([record], .aborted e) := by
  rw [run, h]

/-- The rule of runs that end: an invariant `I` of the history and the state that every round which
goes on keeps holds before the last round. -/
theorem run_done {c : Rounds σ τ ε} {I : List τ → σ → Prop}
    (hround : ∀ {history s record s'}, I history s → c.round s = (record, .ok s') →
      c.again s' = true → I (history ++ [record]) s')
    {n : ℕ} {history records : List τ} {s s' : σ} (h : I history s)
    (hrun : c.run n s = (records, .done s')) :
    ∃ before t record, history ++ records = before ++ [record] ∧ I before t ∧
      c.round t = (record, .ok s') ∧ c.again s' = false := by
  induction n generalizing history records s with
  | zero => simp [run] at hrun
  | succ n ih =>
    rcases hs : c.round s with ⟨record, e | t⟩
    · simp [run_succ_error hs] at hrun
    · rw [run_succ_ok hs] at hrun
      split_ifs at hrun with hagain
      · obtain ⟨rfl, hend⟩ := Prod.mk.inj hrun
        obtain ⟨before, u, last, heq, hI⟩ :=
          ih (hround h hs hagain) (Prod.ext rfl hend)
        exact ⟨before, u, last, by rw [← heq, List.append_assoc]; rfl, hI⟩
      · obtain ⟨rfl, hend⟩ := Prod.mk.inj hrun
        obtain rfl : t = s' := by simpa using hend
        exact ⟨history, s, record, rfl, h, hs, by simpa using hagain⟩

/-- The rule of bounded runs: where every round that goes on brings the state closer to the bound,
no run is cut off. -/
theorem run_ne_cut {c : Rounds σ τ ε} {μ : σ → ℕ}
    (hround : ∀ {s record s'}, c.round s = (record, .ok s') → c.again s' = true → μ s' < μ s)
    {n : ℕ} {s : σ} (hn : μ s < n) : (c.run n s).2 ≠ .cut := by
  induction n generalizing s with
  | zero => omega
  | succ n ih =>
    rcases hs : c.round s with ⟨record, e | s'⟩
    · simp [run_succ_error hs]
    · rw [run_succ_ok hs]
      split_ifs with hagain
      · have := hround hs hagain
        exact ih (by omega)
      · simp

end Rounds
