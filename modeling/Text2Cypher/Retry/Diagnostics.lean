import Text2Cypher.Retry.Runs

/-!
# The diagnostics of a run

`retryDiagnostics` records for every attempt that failed or came back empty whether another one was
scheduled.  The record is made while the attempt is classified; the decision itself is taken later,
by `should_retry`, from other fields.  Over a whole run the two agree.
-/

namespace Retry

open Query

variable {V : Type} {config : Config V} {input : Input V}

/-- The numbers, from `n` on, of the attempts that recorded an error. -/
def failedAttempts : ℕ → List AttemptRecord → List ℕ
  | _, [] => []
  | n, attempt :: attempts =>
      if attempt.error ≠ none then n :: failedAttempts (n + 1) attempts
      else failedAttempts (n + 1) attempts

theorem failedAttempts_eq_range' {attempts : List AttemptRecord} (n : ℕ)
    (h : ∀ attempt ∈ attempts, attempt.error ≠ none) :
    failedAttempts n attempts = List.range' n attempts.length := by
  induction attempts generalizing n with
  | nil => rfl
  | cons attempt attempts ih =>
    rw [failedAttempts, if_pos (h attempt List.mem_cons_self), List.length_cons, List.range'_succ,
      ih _ fun a ha => h a (List.mem_cons_of_mem _ ha)]

theorem failedAttempts_append (n : ℕ) (a b : List AttemptRecord) :
    failedAttempts n (a ++ b) = failedAttempts n a ++ failedAttempts (n + a.length) b := by
  induction a generalizing n with
  | nil => rfl
  | cons attempt a ih =>
    rw [List.cons_append, failedAttempts, failedAttempts, ih, List.length_cons, Nat.add_assoc n,
      Nat.add_comm 1]
    split_ifs <;> rfl

/-- How the diagnostics of an ended run describe it. -/
structure Diagnosed (history : List (List (Call V))) (s : State V) : Prop where
  /-- one entry for each attempt that failed or came back empty, in order -/
  numbers : s.retryDiagnostics.map Diagnostic.attempt = failedAttempts 1 s.attempts
  /-- a regeneration is recorded exactly where another attempt follows -/
  scheduled : ∀ diagnostic ∈ s.retryDiagnostics,
    diagnostic.retryScheduled = true ↔ diagnostic.attempt < history.length
  /-- the entries are recovered exactly by a successful result -/
  recovered : ∀ diagnostic ∈ s.retryDiagnostics,
    diagnostic.recovered = true ↔ s.error = none ∧ s.result.truthy = true
  /-- the scheduled violations of the result invariant are those that caused a regeneration -/
  regenerations : s.retryDiagnostics.countP
      (fun diagnostic => diagnostic.stage == "result_invariant" && diagnostic.retryScheduled) =
    history.dropLast.countP (·.any Call.violatesInvariant)

/-- The entries of a run that goes on: each is scheduled, so only their stages matter. -/
theorem Going.countP_diagnostics {history : List (List (Call V))} {s : State V}
    (h : Going config input history s) :
    s.retryDiagnostics.countP
        (fun diagnostic => diagnostic.stage == "result_invariant" && diagnostic.retryScheduled) =
      history.countP (·.any Call.violatesInvariant) := by
  have hmap := congrArg (List.countP id) h.stages
  rw [List.countP_map, List.countP_map] at hmap
  rw [← show List.countP (id ∘ fun calls : List (Call V) => calls.any Call.violatesInvariant)
    history = history.countP (·.any Call.violatesInvariant) from rfl, ← hmap]
  exact List.countP_congr fun diagnostic hmem => by simp [(h.scheduled diagnostic hmem).1]

theorem Going.attempt_lt {history : List (List (Call V))} {s : State V}
    (h : Going config input history s) {diagnostic : Diagnostic}
    (hmem : diagnostic ∈ s.retryDiagnostics) : diagnostic.attempt < history.length + 1 := by
  have hnumber : diagnostic.attempt ∈ List.range' 1 history.length :=
    h.numbers ▸ List.mem_map_of_mem hmem
  rw [List.mem_range'_1] at hnumber
  omega

/-- The numbers of the entries, when the last attempt is recorded too. -/
theorem Going.failedAttempts_concat {history : List (List (Call V))} {s : State V}
    (h : Going config input history s) (attempt : AttemptRecord) :
    failedAttempts 1 (s.attempts ++ [attempt]) =
      s.retryDiagnostics.map Diagnostic.attempt ++
        if attempt.error ≠ none then [s.attemptCount + 1] else [] := by
  rw [failedAttempts_append, failedAttempts_eq_range' 1 h.failing, h.attempts, h.numbers,
    h.attemptCount, Nat.add_comm 1]
  simp [failedAttempts]

/-- A last attempt that failed or came back empty leaves one more entry, not scheduled. -/
theorem Going.diagnosed_unscheduled {before : List (List (Call V))} {s₀ s : State V}
    {calls : List (Call V)} {attempt : AttemptRecord} {diagnostic : Diagnostic}
    (h : Going config input before s₀)
    (hattempts : s.attempts = s₀.attempts ++ [attempt]) (herror : attempt.error ≠ none)
    (hdiagnostics : s.retryDiagnostics = s₀.retryDiagnostics ++ [diagnostic])
    (hnumber : diagnostic.attempt = s₀.attemptCount + 1)
    (hscheduled : diagnostic.retryScheduled = false) (hrecovered : diagnostic.recovered = false)
    (hresult : ¬ (s.error = none ∧ s.result.truthy = true)) : Diagnosed (before ++ [calls]) s := by
  have hlength : (before ++ [calls]).length = before.length + 1 := by simp
  refine ⟨?_, ?_, ?_, ?_⟩
  · rw [hattempts, h.failedAttempts_concat, if_pos herror, hdiagnostics, List.map_append,
      List.map_singleton, hnumber]
  · intro d hmem
    rw [hdiagnostics, List.mem_append, List.mem_singleton] at hmem
    rw [hlength]
    rcases hmem with hmem | rfl
    · exact iff_of_true (h.scheduled d hmem).1 (h.attempt_lt hmem)
    · rw [hscheduled, hnumber, h.attemptCount]
      simp
  · intro d hmem
    rw [hdiagnostics, List.mem_append, List.mem_singleton] at hmem
    rcases hmem with hmem | rfl
    · exact iff_of_false (by simp [(h.scheduled d hmem).2]) hresult
    · exact iff_of_false (by simp [hrecovered]) hresult
  · rw [hdiagnostics, List.countP_append, h.countP_diagnostics, List.dropLast_concat,
      List.countP_singleton, hscheduled, Bool.and_false]
    rfl

theorem Going.diagnosed {before : List (List (Call V))} {s₀ s : State V} {calls : List (Call V)}
    (h : Going config input before s₀) (hround : (graph config).round s₀ = (calls, .ok s))
    (hstop : shouldRetry s = false) : Diagnosed (before ++ [calls]) s := by
  obtain ⟨queryText, hattempted⟩ := attempted_of_round hround
  cases hattempted with
  | @failed queryText' message retryable safeFailure stage reasonCode error feedback signs text =>
    exact h.diagnosed_unscheduled rfl (by simp) rfl rfl hstop rfl (by simp [failure])
  | @empty queryText' executed signs falsy =>
    rw [shouldRetry_emptyResult] at hstop
    rw [emptyResult_accept queryText' executed hstop]
    exact h.diagnosed_unscheduled rfl (by simp) rfl rfl rfl rfl (by simp [falsy])
  | @succeeded queryText' executed rows signs hrows nonempty aliases =>
    have htruthy : executed.result.truthy = true := by
      cases hresult : executed.result <;> simp_all [Result.rows?, Result.truthy]
    refine ⟨?_, ?_, ?_, ?_⟩
    · rw [show (success (asked config s₀ queryText) queryText' executed).attempts =
        s₀.attempts ++ [⟨queryText', none⟩] from rfl, h.failedAttempts_concat]
      simp [success, asked, Function.comp_def]
    · intro d hmem
      obtain ⟨d₀, hmem₀, rfl⟩ := List.mem_map.1 hmem
      have hlt : d₀.attempt < before.length + 1 := h.attempt_lt hmem₀
      rw [List.length_append]
      exact iff_of_true (h.scheduled d₀ hmem₀).1 hlt
    · intro d hmem
      obtain ⟨d₀, -, rfl⟩ := List.mem_map.1 hmem
      exact iff_of_true rfl ⟨rfl, htruthy⟩
    · rw [List.dropLast_concat, ← h.countP_diagnostics]
      simp [success, asked, List.countP_map, Function.comp_def]

/-- **The diagnostics of every run that ends describe what happened in it.** -/
theorem run_diagnosed {history : List (List (Call V))} {s : State V}
    (hrun : run config input = (history, .done s)) : Diagnosed history s := by
  obtain ⟨before, s₀, calls, rfl, h, hround, hstop⟩ := run_last hrun
  exact h.diagnosed hround hstop

end Retry
