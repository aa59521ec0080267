import Mathlib.Data.List.Range
import Text2Cypher.Retry.Attempt

/-!
# Runs of the retry agent

`Going` is what holds as long as the agent goes on: every attempt so far has failed or come back
empty, none of them for good, and each is diagnosed as followed by another one.  The last round of a
run then decides its final state.

* `Going.round`: a round that goes on keeps the invariant;
* `run_finished`: what holds when a run ends, whatever the callbacks answer;
* `run_diagnosed`: the recorded retry decisions are the regenerations that really happened.
-/

namespace Retry

open Query

variable {V : Type} {config : Config V} {input : Input V}

/-! ### The decision after an attempt -/

@[simp] theorem shouldRetry_failure (s : State V) (queryText message : String) (retryable : Bool)
    (safeFailure : QueryFailure) (stage reasonCode : String) (error : Option PyException)
    (feedback : Option String) :
    shouldRetry
        (failure config s queryText message retryable safeFailure stage reasonCode error feedback) =
      (retryable && decide (s.attemptCount < maxAttempts)) := rfl

@[simp] theorem shouldRetry_success (s : State V) (queryText : String) (executed : Executed V) :
    shouldRetry (success s queryText executed) = false := by
  simp [shouldRetry, success]

theorem shouldRetry_emptyResult (s : State V) (queryText : String) (executed : Executed V) :
    shouldRetry (emptyResult s queryText executed) =
      (!s.emptyRetried && decide (s.attemptCount < maxAttempts)) := by
  unfold emptyResult
  dsimp only
  split_ifs with h
  · simp only [Bool.and_eq_true, decide_eq_true_eq] at h
    simp [shouldRetry, h]
  · simpa [shouldRetry] using h

/-- The first empty result asks for one more query. -/
theorem emptyResult_retry {s : State V} (queryText : String) (executed : Executed V)
    (h : (!s.emptyRetried && decide (s.attemptCount < maxAttempts)) = true) :
    emptyResult s queryText executed =
      { s with
        result := executed.result
        attempts := s.attempts ++ [⟨queryText, some emptyResultError⟩]
        retryDiagnostics := s.retryDiagnostics ++
          [⟨"result", emptyResultError, none, none, false, s.attemptCount, true⟩]
        truncated := executed.truncated
        failure := none
        error := some emptyResultError
        retryFeedback := some (some emptyResultError)
        retryable := true
        emptyRetried := true } := by
  rw [emptyResult, if_pos h, h]

/-- A later empty result is accepted. -/
theorem emptyResult_accept {s : State V} (queryText : String) (executed : Executed V)
    (h : (!s.emptyRetried && decide (s.attemptCount < maxAttempts)) = false) :
    emptyResult s queryText executed =
      { s with
        result := executed.result
        attempts := s.attempts ++ [⟨queryText, some emptyResultError⟩]
        retryDiagnostics := s.retryDiagnostics ++
          [⟨"result", emptyResultError, none, none, false, s.attemptCount, false⟩]
        truncated := executed.truncated
        failure := none
        error := none
        retryFeedback := some none
        emptyReason := some (classifyEmptyResult s.attempts)
        retryable := false } := by
  rw [emptyResult, if_neg (by rw [h]; exact Bool.false_ne_true), h]

/-! ### The invariant -/

/-- While the agent goes on: the calls of the attempts so far, and the state before the next. -/
structure Going (config : Config V) (input : Input V) (history : List (List (Call V)))
    (s : State V) : Prop where
  requiredOutputs : s.requiredOutputs = input.requiredOutputs
  attemptCount : s.attemptCount = history.length
  bound : history.length < maxAttempts
  attempts : s.attempts.length = history.length
  failing : ∀ attempt ∈ s.attempts, attempt.error ≠ none
  cleared : ∀ calls ∈ history, Cleared config calls
  retryable : ∀ calls ∈ history, calls.any (Call.nonRetryable config) = false
  empties : history.countP (·.any Call.cameBackEmpty) = s.emptyRetried.toNat
  numbers : s.retryDiagnostics.map Diagnostic.attempt = List.range' 1 history.length
  scheduled : ∀ diagnostic ∈ s.retryDiagnostics,
    diagnostic.retryScheduled = true ∧ diagnostic.recovered = false
  stages : s.retryDiagnostics.map (fun diagnostic => diagnostic.stage == "result_invariant") =
    history.map (·.any Call.violatesInvariant)

theorem going_initialState (config : Config V) (input : Input V) :
    Going config input [] (initialState input) := by
  refine ⟨rfl, rfl, Nat.zero_lt_succ 2, rfl, ?_, ?_, ?_, rfl, rfl, ?_, rfl⟩ <;>
    simp [initialState]

/-- One more attempt that has failed or come back empty, and is followed by another one. -/
theorem Going.extend {history : List (List (Call V))} {s s' : State V} {calls : List (Call V)}
    {attempt : AttemptRecord} {diagnostic : Diagnostic} {empty : Bool}
    (h : Going config input history s) (cleared : Cleared config calls)
    (hdiagnostics : s'.retryDiagnostics = s.retryDiagnostics ++ [diagnostic])
    (signs : Signs config calls false empty (diagnostic.stage == "result_invariant"))
    (hinput : s'.requiredOutputs = s.requiredOutputs)
    (hcount : s'.attemptCount = s.attemptCount + 1) (hlt : s'.attemptCount < maxAttempts)
    (hattempts : s'.attempts = s.attempts ++ [attempt]) (herror : attempt.error ≠ none)
    (hnumber : diagnostic.attempt = s'.attemptCount)
    (hscheduled : diagnostic.retryScheduled = true ∧ diagnostic.recovered = false)
    (hempties : s'.emptyRetried.toNat = s.emptyRetried.toNat + empty.toNat) :
    Going config input (history ++ [calls]) s' := by
  have hlength : (history ++ [calls]).length = s'.attemptCount := by
    rw [List.length_append, List.length_singleton, hcount, h.attemptCount]
  refine ⟨hinput.trans h.requiredOutputs, hlength.symm, by omega, ?_, ?_, ?_, ?_, ?_, ?_, ?_, ?_⟩
  · rw [hattempts, List.length_append, List.length_append, h.attempts]
    rfl
  · intro a hmem
    rw [hattempts, List.mem_append, List.mem_singleton] at hmem
    rcases hmem with hmem | rfl
    · exact h.failing a hmem
    · exact herror
  · intro c hmem
    rcases List.mem_append.1 hmem with hmem | hmem
    · exact h.cleared c hmem
    · exact List.mem_singleton.1 hmem ▸ cleared
  · intro c hmem
    rcases List.mem_append.1 hmem with hmem | hmem
    · exact h.retryable c hmem
    · exact List.mem_singleton.1 hmem ▸ signs.final
  · rw [List.countP_append, h.empties, List.countP_singleton, signs.empty, hempties]
    cases empty <;> rfl
  · rw [hdiagnostics, List.map_append, h.numbers, List.map_singleton, hnumber, hcount,
      h.attemptCount, List.length_append, List.length_singleton, List.range'_concat, Nat.one_mul,
      Nat.add_comm 1]
  · intro d hmem
    rw [hdiagnostics, List.mem_append, List.mem_singleton] at hmem
    rcases hmem with hmem | rfl
    · exact h.scheduled d hmem
    · exact hscheduled
  · rw [hdiagnostics, List.map_append, h.stages, List.map_append, List.map_singleton,
      List.map_singleton, signs.invariant]

/-- A round that goes on keeps the invariant. -/
theorem Going.round {history : List (List (Call V))} {s s' : State V} {calls : List (Call V)}
    (h : Going config input history s) (hround : (graph config).round s = (calls, .ok s'))
    (hagain : shouldRetry s' = true) : Going config input (history ++ [calls]) s' := by
  have hcleared := cleared_round hround
  obtain ⟨queryText, hattempted⟩ := attempted_of_round hround
  cases hattempted with
  | succeeded => simp at hagain
  | @failed queryText' message retryable safeFailure stage reasonCode error feedback signs text =>
    rw [shouldRetry_failure, Bool.and_eq_true, decide_eq_true_eq] at hagain
    obtain ⟨rfl, hlt⟩ := hagain
    exact h.extend hcleared rfl signs rfl rfl hlt rfl (by simp) rfl ⟨by simp [hlt], rfl⟩ rfl
  | @empty queryText' executed signs falsy =>
    rw [shouldRetry_emptyResult] at hagain
    have hretried : s.emptyRetried = false ∧ s.attemptCount + 1 < maxAttempts := by
      rw [Bool.and_eq_true, Bool.not_eq_true', decide_eq_true_eq] at hagain
      exact hagain
    have hstate := emptyResult_retry queryText' executed hagain
    rw [hstate]
    exact h.extend hcleared rfl signs rfl rfl hretried.2 rfl (by simp) rfl ⟨rfl, rfl⟩
      (by rw [hretried.1]; rfl)

/-- The last round of a run, and what held before it. -/
theorem run_last {history : List (List (Call V))} {s : State V}
    (hrun : run config input = (history, .done s)) :
    ∃ before s₀ calls, history = before ++ [calls] ∧ Going config input before s₀ ∧
      (graph config).round s₀ = (calls, .ok s) ∧ shouldRetry s = false :=
  Rounds.run_done Going.round (going_initialState config input) hrun

/-- No run is cut off: its third attempt is the last. -/
theorem run_ne_cut (config : Config V) (input : Input V) : (run config input).2 ≠ .cut := by
  have hround : ∀ {s : State V} {calls s'}, (graph config).round s = (calls, .ok s') →
      shouldRetry s' = true → maxAttempts - 1 - s'.attemptCount < maxAttempts - 1 - s.attemptCount := by
    intro s calls s' hround hagain
    obtain ⟨queryText, hattempted⟩ := attempted_of_round hround
    have hcount : s'.attemptCount = s.attemptCount + 1 := by
      cases hattempted with
      | failed => rfl
      | empty => unfold emptyResult; dsimp only; split_ifs <;> rfl
      | succeeded => rfl
    have hlt : s'.attemptCount < maxAttempts := by
      simp only [shouldRetry, Bool.and_eq_true, decide_eq_true_eq] at hagain
      exact hagain.2
    omega
  exact Rounds.run_ne_cut hround (Nat.lt_succ_self 2)

/-! ### The final state -/

/-- What holds when a run has ended. -/
structure Finished (config : Config V) (input : Input V) (history : List (List (Call V)))
    (s : State V) : Prop where
  bound : history.length ≤ maxAttempts
  attemptCount : s.attemptCount = s.attempts.length
  attempts : s.attempts.length = history.length
  /-- only cleared queries are executed -/
  cleared : ∀ calls ∈ history, Cleared config calls
  /-- nothing follows a failure that is not retryable -/
  retryable : ∀ calls ∈ history.dropLast, calls.any (Call.nonRetryable config) = false
  /-- at most one regeneration follows an empty result -/
  empties : history.dropLast.countP (·.any Call.cameBackEmpty) ≤ 1
  /-- the code of the empty result is a final error only in the words of a contract -/
  error : s.error = some emptyResultError →
    ∃ calls, history.getLast? = some calls ∧ calls.any (Call.reports emptyResultError) = true
  failure : s.error = none ↔ s.failure = none
  result : s.error = none →
    (∃ rows, s.result.rows? = some rows ∧ rows ≠ [] ∧
      ∀ row ∈ rows, ∀ name ∈ input.requiredOutputs, row.hasAlias name = true) ∨
    (s.result.truthy = false ∧
      (s.emptyReason = some inconclusive ↔ ∃ attempt ∈ s.attempts.dropLast,
        attempt.error ≠ none ∧ attempt.error ≠ some emptyResultError) ∧
      (s.emptyReason ≠ some inconclusive → s.emptyReason = some noData))

theorem classifyEmptyResult_eq_inconclusive (attempts : List AttemptRecord) :
    classifyEmptyResult attempts = inconclusive ↔
      ∃ attempt ∈ attempts, attempt.error ≠ none ∧ attempt.error ≠ some emptyResultError := by
  have hne : noData ≠ inconclusive := by decide
  simp only [classifyEmptyResult, List.any_eq_true, decide_eq_true_eq]
  split_ifs with h
  · exact ⟨fun _ => h, fun _ => rfl⟩
  · exact ⟨fun heq => absurd heq hne, fun h' => absurd h' h⟩

theorem Going.finished {before : List (List (Call V))} {s₀ s : State V} {calls : List (Call V)}
    (h : Going config input before s₀) (hround : (graph config).round s₀ = (calls, .ok s))
    (hstop : shouldRetry s = false) : Finished config input (before ++ [calls]) s := by
  have hbound : (before ++ [calls]).length ≤ maxAttempts := by
    rw [List.length_append]
    exact h.bound
  have hempties : before.countP (·.any Call.cameBackEmpty) ≤ 1 := by
    rw [h.empties]
    exact Bool.toNat_le _
  have hcleared : ∀ c ∈ before ++ [calls], Cleared config c := by
    intro c hmem
    rcases List.mem_append.1 hmem with hmem | hmem
    · exact h.cleared c hmem
    · exact List.mem_singleton.1 hmem ▸ cleared_round hround
  have hlength : ∀ attempt : AttemptRecord,
      (s₀.attempts ++ [attempt]).length = (before ++ [calls]).length := by
    simp [h.attempts]
  have hcount : ∀ attempt : AttemptRecord,
      s₀.attemptCount + 1 = (s₀.attempts ++ [attempt]).length := by
    simp [h.attempts, h.attemptCount]
  obtain ⟨queryText, hattempted⟩ := attempted_of_round hround
  cases hattempted with
  | @failed queryText' message retryable safeFailure stage reasonCode error feedback signs text =>
    refine ⟨hbound, hcount _, hlength _, hcleared, ?_, ?_, ?_, ?_, ?_⟩
    · rw [List.dropLast_concat]; exact h.retryable
    · rw [List.dropLast_concat]; exact hempties
    · intro herror
      exact ⟨calls, List.getLast?_concat, text (Option.some.inj herror)⟩
    · simp [failure]
    · simp [failure]
  | @empty queryText' executed signs falsy =>
    rw [shouldRetry_emptyResult] at hstop
    rw [emptyResult_accept queryText' executed hstop]
    refine ⟨hbound, hcount _, hlength _, hcleared, ?_, ?_, ?_, ?_, ?_⟩
    · rw [List.dropLast_concat]; exact h.retryable
    · rw [List.dropLast_concat]; exact hempties
    · simp
    · simp
    · refine fun _ => Or.inr ⟨falsy, ?_, ?_⟩
      · rw [List.dropLast_concat, Option.some.injEq]
        exact classifyEmptyResult_eq_inconclusive _
      · intro hne
        simp only [classifyEmptyResult] at hne ⊢
        split_ifs at hne ⊢
        · exact absurd rfl hne
        · rfl
  | @succeeded queryText' executed rows signs hrows nonempty aliases =>
    refine ⟨hbound, hcount _, hlength _, hcleared, ?_, ?_, ?_, ?_, ?_⟩
    · rw [List.dropLast_concat]; exact h.retryable
    · rw [List.dropLast_concat]; exact hempties
    · simp [success]
    · simp [success]
    · exact fun _ => Or.inl ⟨rows, hrows, nonempty, fun row hrow name hname =>
        aliases row hrow name (by rw [asked, h.requiredOutputs]; exact hname)⟩

/-- **Runs of the agent**, under any behaviour of the callbacks: no run needs more than
`maxAttempts` attempts, and one that ends without an exception ends as `Finished` says. -/
theorem run_finished (config : Config V) (input : Input V) :
    (run config input).2 ≠ .cut ∧
      ∀ s, (run config input).2 = .done s → Finished config input (run config input).1 s := by
  refine ⟨run_ne_cut config input, fun s hs => ?_⟩
  have hrun : run config input = ((run config input).1, .done s) := Prod.ext rfl hs
  obtain ⟨before, s₀, calls, heq, h, hround, hstop⟩ := run_last hrun
  rw [heq]
  exact h.finished hround hstop

/-- Callbacks that generate one query, which the database answers with one row. -/
def plainConfig (queryContractError :
    Option (ℕ → String → List String → Except PyException (Option String))) : Config Unit where
  label := "cypher_agent"
  generate _ _ _ _ := .ok "MATCH (p:Product) RETURN p.name AS name"
  execute _ _ := .ok (.batch [.dict ⟨[("name", ())], List.nodup_singleton _⟩] false)
  connectionExceptions _ := false
  retryableExceptions _ := false
  emptyResultFeedback := ""
  guard := none
  queryContractError := queryContractError
  resultContractError := none
  redactQuery _ := none

def plainInput : Input Unit := ⟨"제품 이름", none, none, "", ["name"], .empty, []⟩

theorem run_finished_plain :
    ∃ s, (run (plainConfig none) plainInput).2 = .done s ∧
      Finished (plainConfig none) plainInput (run (plainConfig none) plainInput).1 s :=
  ⟨_, rfl, (run_finished (plainConfig none) plainInput).2 _ rfl⟩

/-- A query contract may complain with the very code of the empty result. -/
theorem run_error_emptyResult :
    ¬ ∀ (config : Config Unit) (input : Input Unit) (s : State Unit),
      (run config input).2 = .done s → s.error ≠ some emptyResultError := fun h =>
  h (plainConfig (some fun _ _ _ => .ok (some emptyResultError))) plainInput _ rfl rfl

end Retry
