import Text2Cypher.Execution.Alike

/-!
# Fetching within the row limit

Both executors fetch one row more than the limit, and `make_batch` cuts the rows and notes that some
are missing.  The databases and their drivers are parameters: all rows of a query, and what a fetch
of some number of them brings.

* `executed_of_run`: a run without an error keeps the batch of the last query that it executed.
-/

namespace Execution

open Query Retry

variable {V : Type}

/-! ### Batches -/

/-- `items[:limit]`. -/
def slice {α : Type} (items : List α) (limit : ℤ) : List α :=
  if 0 ≤ limit then items.take limit.toNat else items.take (items.length - limit.natAbs)

/-- `make_batch`. -/
def makeBatch (items : List (Dict String V)) (rowLimit : ℤ) : Executed V :=
  .batch ((slice items rowLimit).map .dict) (decide (rowLimit < items.length))

/-- Two databases, with their drivers. -/
structure Databases (V : Type) where
  /-- all rows of the query that a tool executes in an attempt, or what it raises -/
  rows : ToolName → ℕ → String → Except PyException (List (Dict String V))
  /-- `fetchmany(n)` and `fetch(n)` -/
  fetch : ℤ → List (Dict String V) → List (Dict String V)
  fetch_of_nonneg : ∀ n rows, 0 ≤ n → fetch n rows = rows.take n.toNat

/-- `execute_sql_with_pool` and `execute_cypher_with_driver`. -/
def Databases.execute (databases : Databases V) (rowLimit : ℤ) (tool : ToolName) (attempt : ℕ)
    (query : String) : Except PyException (Executed V) :=
  (databases.rows tool attempt query).map fun rows =>
    makeBatch (databases.fetch (rowLimit + 1) rows) rowLimit

/-- The retry agents, with the executors. -/
def Databases.configs (databases : Databases V) (rowLimit : ℤ) (configs : ToolName → Config V)
    (tool : ToolName) : Config V :=
  { configs tool with execute := databases.execute rowLimit tool }

/-- A batch of all rows tells whether some are missing. -/
theorem makeBatch_fetch (databases : Databases V) {rowLimit : ℤ} (h : 0 ≤ rowLimit)
    (rows : List (Dict String V)) :
    makeBatch (databases.fetch (rowLimit + 1) rows) rowLimit =
      .batch ((rows.take rowLimit.toNat).map .dict) (decide (rowLimit < rows.length)) := by
  have hnext : (rowLimit + 1).toNat = rowLimit.toNat + 1 := by omega
  rw [databases.fetch_of_nonneg _ _ (by omega), makeBatch, slice, if_pos h, List.take_take, hnext,
    Nat.min_eq_left (Nat.le_succ _), List.length_take]
  congr 1
  rw [decide_eq_decide]
  omega

/-! ### Executed queries -/

/-- The query of a call, if it executes one. -/
def executedQuery : Call V → Option String
  | .execute queryText _ => some queryText
  | _ => none

/-- The queries that a run has executed, with the number of the attempt. -/
def executions (history : List (List (Call V))) : List (ℕ × String) :=
  history.zipIdx.flatMap fun entry =>
    (entry.1.filterMap executedQuery).map fun queryText => (entry.2 + 1, queryText)

theorem executions_concat (history : List (List (Call V))) (calls : List (Call V)) :
    executions (history ++ [calls]) = executions history ++
      (calls.filterMap executedQuery).map fun queryText => (history.length + 1, queryText) := by
  rw [executions, List.zipIdx_append, List.flatMap_append]
  congr 1
  simp

theorem executedQuery_eq_none {calls : List (Call V)}
    (h : ∀ call ∈ calls, call.isExecute = false) : calls.filterMap executedQuery = [] := by
  rw [List.filterMap_eq_nil_iff]
  intro call hcall
  have hno := h call hcall
  cases call with
  | execute => cases hno
  | guard => rfl
  | contract => rfl
  | resultContract => rfl

/-- A state without an error holds the batch of the query that was executed. -/
theorem executed_of_classify {config : Config V} {s s' : State V} {queryText : String}
    (h : (executeAndClassify config s queryText).2 = .ok s') (herror : s'.error = none) :
    ∃ executed, config.execute s.attemptCount queryText = .ok executed ∧
      s'.result = executed.result ∧ s'.truncated = executed.truncated ∧
      s'.attemptCount = s.attemptCount := by
  unfold executeAndClassify at h
  cases hanswer : config.execute s.attemptCount queryText with
  | error exc =>
    rw [hanswer] at h
    obtain rfl := Except.ok.inj h
    have hfailed : (executionFailure config s queryText exc).error ≠ none := by
      unfold executionFailure
      split_ifs <;> exact Option.some_ne_none _
    exact absurd herror hfailed
  | ok executed =>
    rw [hanswer] at h
    refine ⟨executed, rfl, ?_⟩
    by_cases hempty : (!executed.result.truthy) = true
    · simp only [hempty, if_true] at h
      obtain rfl := Except.ok.inj h
      unfold emptyResult
      dsimp only
      split_ifs <;> exact ⟨rfl, rfl, rfl⟩
    · simp only [hempty, Bool.false_eq_true, if_false] at h
      unfold classifyResult at h
      cases hrows : executed.result.rows? with
      | none =>
        rw [hrows] at h
        cases h
      | some rows =>
        rw [hrows] at h
        dsimp only at h
        cases hmissing : missingAliases s.requiredOutputs 0 rows with
        | some missing =>
          rw [hmissing] at h
          obtain rfl := Except.ok.inj h
          cases herror
        | none =>
          rw [hmissing] at h
          dsimp only at h
          cases hcontract : config.resultContractError with
          | none =>
            rw [hcontract] at h
            obtain rfl := Except.ok.inj h
            exact ⟨rfl, rfl, rfl⟩
          | some contract =>
            rw [hcontract] at h
            dsimp only at h
            cases hcomplaint : contract s.attemptCount rows s with
            | error exc =>
              rw [hcomplaint] at h
              obtain rfl := Except.ok.inj h
              cases herror
            | ok complaint =>
              cases complaint with
              | some text =>
                rw [hcomplaint] at h
                obtain rfl := Except.ok.inj h
                cases herror
              | none =>
                rw [hcomplaint] at h
                obtain rfl := Except.ok.inj h
                exact ⟨rfl, rfl, rfl⟩

/-- The same for a whole attempt. -/
theorem executed_of_tools {config : Config V} {s s' : State V} {calls : List (Call V)}
    (h : tools config s = (calls, .ok s')) (herror : s'.error = none) :
    ∃ queryText executed, config.execute s.attemptCount queryText = .ok executed ∧
      s'.result = executed.result ∧ s'.truncated = executed.truncated ∧
      s'.attemptCount = s.attemptCount ∧ calls.filterMap executedQuery = [queryText] := by
  unfold tools at h
  dsimp only at h
  generalize (s.messages.getLast?.map Message.content).getD "" = queryText at h
  have hguardCalls := isExecute_checkGuard config s queryText
  have hcontractCalls := isExecute_checkContract config s queryText
  rcases hguard : checkGuard config s queryText with ⟨guardCalls, _ | outcome⟩
  · rcases hcontract : checkContract config s queryText with ⟨contractCalls, abort | _ | outcome⟩
    · rw [hguard, hcontract] at h
      cases (Prod.mk.inj h).2
    · rw [hguard, hcontract] at h
      rw [hguard] at hguardCalls
      rw [hcontract] at hcontractCalls
      obtain ⟨rfl, hstate⟩ := Prod.mk.inj h
      obtain ⟨executed, hexecuted, hresult, htruncated, hcount⟩ :=
        executed_of_classify hstate herror
      obtain ⟨answer, rest, hcalls, hrest⟩ := executeAndClassify_calls config s queryText
      refine ⟨queryText, executed, hexecuted, hresult, htruncated, hcount, ?_⟩
      rw [List.filterMap_append, List.filterMap_append, executedQuery_eq_none hguardCalls,
        executedQuery_eq_none hcontractCalls, hcalls, List.nil_append, List.nil_append,
        List.filterMap_cons]
      show queryText :: rest.filterMap executedQuery = [queryText]
      rw [executedQuery_eq_none hrest]
    · rw [hguard, hcontract] at h
      obtain ⟨-, hstate⟩ := Prod.mk.inj h
      obtain rfl := Except.ok.inj hstate
      have hfailed : outcome.error ≠ none := by
        unfold checkContract at hcontract
        split at hcontract
        · cases (Prod.mk.inj hcontract).2
        · split at hcontract
          · cases (Prod.mk.inj hcontract).2
          · cases (Prod.mk.inj hcontract).2
          · obtain ⟨-, hok⟩ := Prod.mk.inj hcontract
            obtain rfl := Option.some.inj (Except.ok.inj hok)
            exact Option.some_ne_none _
      exact absurd herror hfailed
  · rw [hguard] at h
    obtain ⟨-, hstate⟩ := Prod.mk.inj h
    obtain rfl := Except.ok.inj hstate
    have hfailed : outcome.error ≠ none := by
      unfold checkGuard at hguard
      split at hguard
      · cases (Prod.mk.inj hguard).2
      · dsimp only at hguard
        obtain ⟨-, houtcome⟩ := Prod.mk.inj hguard
        split at houtcome
        · obtain rfl := Option.some.inj houtcome
          exact Option.some_ne_none _
        · split_ifs at houtcome
          obtain rfl := Option.some.inj houtcome
          exact Option.some_ne_none _
    exact absurd herror hfailed

/-- **A run without an error** keeps the batch of the last query that it executed. -/
theorem executed_of_run {config : Config V} {input : Input V} {history : List (List (Call V))}
    {s : State V} (hrun : run config input = (history, .done s)) (herror : s.error = none) :
    ∃ attempt queryText executed, (executions history).getLast? = some (attempt, queryText) ∧
      config.execute attempt queryText = .ok executed ∧ s.result = executed.result ∧
      s.truncated = executed.truncated := by
  obtain ⟨before, s₀, calls, rfl, hgoing, hround, -⟩ := run_last hrun
  obtain ⟨content, htools⟩ := round_ok hround
  obtain ⟨queryText, executed, hexecuted, hresult, htruncated, -, hcalls⟩ :=
    executed_of_tools htools herror
  have hattempt : (asked config s₀ content).attemptCount = before.length + 1 := by
    show s₀.attemptCount + 1 = _
    rw [hgoing.attemptCount]
  rw [hattempt] at hexecuted
  refine ⟨before.length + 1, queryText, executed, ?_, hexecuted, hresult, htruncated⟩
  rw [executions_concat, hcalls]
  simp

end Execution
