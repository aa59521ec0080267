import Text2Cypher.Execution.Bindings

/-!
# Executing a plan

`execute_plan` works through a validated plan in waves.  The subqueries of a wave run concurrently,
but all of them see the outcomes of the waves before, and their results are recorded in the order of
the plan.  A subquery with a failed or an empty dependency is not run.

`Progress.handled` lists what was handled, in the order of recording; the source keeps no such list.
Events, metrics and logs are left out.
-/

namespace Execution

open Checks Planning Query Retry

/-- What `_result_summary` keeps of an agent's final state. -/
structure Summary (V : Type) where
  result : Result V
  error : Option String
  attempts : List AttemptRecord
  emptyReason : Option String
  truncated : Bool
  failure : Option QueryFailure
  retryDiagnostics : List Diagnostic
  failedQuery : Option String
  generatedQuery : Option String

/-- What the loop catches nowhere. -/
inductive Interrupt
  | agentRaised (abort : Abort)
  | keyError (key : String)
  /-- `result["messages"][-1]` of an agent that has written nothing -/
  | indexError
  /-- the `ValueError` of a plan that cannot go on -/
  | noReadySubquery

section

variable {V : Type}

/-- `_result_summary`. -/
def resultSummary (result : State V) : Summary V where
  result := result.result
  error := result.error
  attempts := result.attempts
  emptyReason := result.emptyReason
  truncated := result.truncated
  failure := result.failure
  retryDiagnostics := result.retryDiagnostics
  failedQuery := result.failedQuery
  generatedQuery := result.generatedQuery

/-- `_dependency_failure`. -/
def dependencyFailure (dependencyIds : List String) : Summary V where
  result := .none
  error := some ("선행 하위 질의가 실패하여 실행하지 않았습니다: " ++ ", ".intercalate dependencyIds)
  attempts := []
  emptyReason := none
  truncated := false
  failure := some {
    code := "DEPENDENCY_FAILED"
    stage := .dependency
    category := "DEPENDENCY_FAILED"
    kind := .userCorrectable
    retryable := false
    userSafeReason := "질의의 선행 조회가 완료되지 않아 후속 조회를 진행하지 못했습니다."
    suggestedAction := "조회 대상과 조건을 더 구체적으로 지정해 다시 질문해 주세요."
    dependentFailure := true }
  retryDiagnostics := []
  failedQuery := none
  generatedQuery := none

/-- `_dependency_empty`. -/
def dependencyEmpty (emptyReasons : List (Option String)) : Summary V where
  result := .list []
  error := none
  attempts := []
  emptyReason := some (if some inconclusive ∈ emptyReasons then inconclusive else noData)
  truncated := false
  failure := none
  retryDiagnostics := []
  failedQuery := none
  generatedQuery := none

/-- `_input_binding_failure`. -/
def inputBindingFailure : Summary V where
  result := .none
  error := some "하위 질의 입력 계획이 유효하지 않아 실행하지 않았습니다."
  attempts := []
  emptyReason := none
  truncated := false
  failure := some {
    code := "INPUT_BINDING_INVALID"
    stage := .dependency
    category := "QUERY_INVALID"
    kind := .internal
    retryable := false
    userSafeReason := "선행 조회 결과를 후속 조회 입력으로 전달하지 못했습니다."
    suggestedAction := "잠시 후 다시 시도해 주세요."
    dependentFailure := true }
  retryDiagnostics := []
  failedQuery := none
  generatedQuery := none

/-- `_FAILURE_PRIORITY`. -/
def failurePriority : FailureKind → ℕ
  | .infrastructure => 3
  | .internal => 2
  | .userCorrectable => 1

/-- `_prefer_failure`: the more severe failure, an actual one before a dependent one. -/
def preferFailure (current : Option QueryFailure) (candidate : QueryFailure) : QueryFailure :=
  match current with
  | none => candidate
  | some current =>
      if failurePriority current.kind < failurePriority candidate.kind ∨
          failurePriority current.kind = failurePriority candidate.kind ∧
            current.dependentFailure = true ∧ candidate.dependentFailure = false then candidate
      else current

/-- The fields that `execute_plan` returns. -/
structure Output (V : Type) where
  sqlQuery : Option String
  sqlResult : Option (Summary V)
  cypherQuery : Option String
  graphResult : Option (Summary V)
  queryFailure : Option QueryFailure
  resultInvariantRetryCount : ℕ

namespace Output

/-- The query field of `_TOOL_OUTPUT_FIELDS`. -/
def query (output : Output V) : ToolName → Option String
  | .sql => output.sqlQuery
  | .graph => output.cypherQuery

/-- The result field of `_TOOL_OUTPUT_FIELDS`. -/
def result (output : Output V) : ToolName → Option (Summary V)
  | .sql => output.sqlResult
  | .graph => output.graphResult

def setQuery (output : Output V) (tool : ToolName) (queryText : String) : Output V :=
  match tool with
  | .sql => { output with sqlQuery := some queryText }
  | .graph => { output with cypherQuery := some queryText }

def setResult (output : Output V) (tool : ToolName) (summary : Summary V) : Output V :=
  match tool with
  | .sql => { output with sqlResult := some summary }
  | .graph => { output with graphResult := some summary }

end Output

/-- A subquery with what became of it, and the run of its agent, if there was one. -/
structure Handled (V : Type) where
  subquery : Subquery
  invoked : Option (Input V × State V)
  queryText : Option String
  summary : Summary V

/-- What is injected into the node, and the parts of the state that it reads. -/
structure Env (V : Type) where
  agents : ToolName → Input V → Except Abort (State V)
  schemas : ToolName → String
  query : String
  entity : Option V

/-- `_initial_state`, with the entity as `execute_subquery` passes it. -/
def agentInput (env : Env V) (subquery : Subquery) (inputBindings : Dict String (List V)) :
    Input V where
  query := env.query
  sourceScope := if subquery.question ≠ env.query then some subquery.question else none
  entity := if inputBindings.entries = [] then env.entity else none
  schema := env.schemas subquery.tool
  requiredOutputs := subquery.requiredOutputs
  inputBindings := inputBindings
  businessRules := subquery.generatorRules

/-- `outcomes[dependency_id]`, for all dependencies. -/
def dependencyOutcomes (outcomes : Dict String (Summary V)) :
    List String → Except Interrupt (List (String × Summary V))
  | [] => .ok []
  | dependencyId :: dependencyIds =>
      match outcomes.get? dependencyId with
      | none => .error (.keyError dependencyId)
      | some outcome => do
          let rest ← dependencyOutcomes outcomes dependencyIds
          return (dependencyId, outcome) :: rest

/-- `outcome["error"] is not None or outcome["result"] is None`. -/
def Summary.isFailed (outcome : Summary V) : Bool :=
  outcome.error.isSome || (match outcome.result with
    | .none => true
    | _ => false)

/-- `outcome["result"] == []`. -/
def Summary.isEmpty (outcome : Summary V) : Bool :=
  match outcome.result with
  | .list [] => true
  | _ => false

/-- The run of an agent, and what is kept of it. -/
def invokeAgent (env : Env V) (subquery : Subquery) (inputBindings : Dict String (List V)) :
    Except Interrupt (Handled V) :=
  let input := agentInput env subquery inputBindings
  match env.agents subquery.tool input with
  | .error abort => .error (.agentRaised abort)
  | .ok result =>
      match result.messages.getLast? with
      | none => .error .indexError
      | some message =>
          .ok ⟨subquery, some (input, result), some message.content, resultSummary result⟩

/-- The part of `execute_subquery` behind its two early returns. -/
def bindAndInvoke (env : Env V) (outcomes : Dict String (Summary V)) (subquery : Subquery) :
    Except Interrupt (Handled V) :=
  match collectInputBindings subquery.inputBindings (outcomes.mapValues Summary.result) with
  | .error _ => .ok ⟨subquery, none, none, inputBindingFailure⟩
  | .ok inputBindings => invokeAgent env subquery inputBindings

/-- `execute_subquery`. -/
def executeSubquery (env : Env V) (outcomes : Dict String (Summary V)) (subquery : Subquery) :
    Except Interrupt (Handled V) := do
  let dependencies ← dependencyOutcomes outcomes subquery.dependsOn
  let failedDependencies := dependencies.filter fun dependency => dependency.2.isFailed
  let emptyDependencies := dependencies.filter fun dependency => dependency.2.isEmpty
  if failedDependencies ≠ [] then
    .ok ⟨subquery, none, none, dependencyFailure (failedDependencies.map Prod.fst)⟩
  else if emptyDependencies ≠ [] then
    .ok ⟨subquery, none, none,
      dependencyEmpty (emptyDependencies.map fun dependency => dependency.2.emptyReason)⟩
  else bindAndInvoke env outcomes subquery

structure Progress (V : Type) where
  outcomes : Dict String (Summary V)
  output : Output V
  handled : List (Handled V)

def Progress.start : Progress V where
  outcomes := .empty
  output := ⟨none, none, none, none, none, 0⟩
  handled := []

/-- The retries that a summary reports as scheduled for a violated result invariant. -/
def scheduledInvariantRetries (summary : Summary V) : ℕ :=
  summary.retryDiagnostics.countP fun diagnostic =>
    diagnostic.stage == "result_invariant" && diagnostic.retryScheduled

/-- The output after one more result. -/
def Output.record (output : Output V) (handled : Handled V) : Output V :=
  let output : Output V :=
    match handled.summary.failure with
    | none => output
    | some queryFailure =>
        { output with queryFailure := some (preferFailure output.queryFailure queryFailure) }
  let output :=
    match handled.queryText with
    | none => output
    | some queryText => output.setQuery handled.subquery.tool queryText
  let output := output.setResult handled.subquery.tool handled.summary
  { output with
    resultInvariantRetryCount :=
      output.resultInvariantRetryCount + scheduledInvariantRetries handled.summary }

/-- The body of the loop over the results of a wave. -/
def Progress.record (progress : Progress V) (handled : Handled V) : Progress V where
  outcomes := progress.outcomes.set handled.subquery.id handled.summary
  output := progress.output.record handled
  handled := progress.handled ++ [handled]

/-- One wave: the results of all its subqueries, then their records. -/
def executeWave (env : Env V) (progress : Progress V) (wave : List Subquery) :
    Except Interrupt (Progress V) := do
  let results ← each (executeSubquery env progress.outcomes) wave
  return results.foldl Progress.record progress

/-- `execute_plan`. -/
def executePlan (env : Env V) (plan : List Subquery) : Except Interrupt (Progress V) :=
  Waves.sweep Subquery.id Subquery.dependsOn (fun progress => progress.outcomes.keys)
    (executeWave env) .noReadySubquery plan.length .start plan

end

end Execution
