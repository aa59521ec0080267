import Mathlib.Data.List.Infix
import Text2Cypher.Guards.Shared
import Text2Cypher.Library.Rounds
import Text2Cypher.QueryFailures
import Text2Cypher.Rows

/-!
# The retry agent

`make_retry_agent_subgraph` wires one state machine for both databases: `agent` generates a query,
`tools` passes it through the guard, the query contract, the database and the result contract, and
`should_retry` sends it back to `agent` after a failure that another query may repair, or once after
an empty result.

The injected callbacks are parameters.  A callback may answer differently at every attempt, so each
is given the number of the attempt; within one attempt the machine calls it at most once.  `tools`
also returns the calls it has made, with their answers; the events and metrics that the source emits
are left out.
-/

namespace Retry

open Guards Query

/-- The original query and two regenerations. -/
def maxAttempts : ℕ := 3

def nonRetryableGuardReasons : List String := ["UNKNOWN_TABLE", "UNKNOWN_LABEL_OR_RELATIONSHIP"]

def emptyResultError : String := "EMPTY_RESULT"

def noData : String := "NO_DATA"

def inconclusive : String := "INCONCLUSIVE"

/-- What `execute` returns: a `QueryResultBatch`, or the bare result. -/
inductive Executed (V : Type)
  | batch (rows : List (Row V)) (truncated : Bool)
  | bare (result : Result V)

def Executed.result {V : Type} : Executed V → Result V
  | .batch rows _ => .list rows
  | .bare result => result

def Executed.truncated {V : Type} : Executed V → Bool
  | .batch _ truncated => truncated
  | .bare _ => false

structure Message where
  role : String
  content : String
  deriving DecidableEq, Repr

/-- One entry of the history: the query and the error it ended with. -/
structure AttemptRecord where
  query : String
  error : Option String
  deriving DecidableEq, Repr

/-- One entry of `retryDiagnostics`. -/
structure Diagnostic where
  stage : String
  reasonCode : String
  errorType : Option String
  sqlstate : Option String
  recovered : Bool
  attempt : ℕ
  retryScheduled : Bool
  deriving DecidableEq, Repr

/-- `RetryAgentState`.  `retryFeedback` is `none` as long as the key is missing. -/
structure State (V : Type) where
  query : String
  sourceScope : Option String
  entity : Option V
  schema : String
  requiredOutputs : List String
  inputBindings : Dict String (List V)
  businessRules : List String
  messages : List Message
  result : Result V
  error : Option String
  attemptCount : ℕ
  attempts : List AttemptRecord
  emptyRetried : Bool
  retryable : Bool
  emptyReason : Option String
  truncated : Bool
  failure : Option QueryFailure
  retryDiagnostics : List Diagnostic
  retryFeedback : Option (Option String)
  failedQuery : Option String
  generatedQuery : Option String

/-- The arguments of `make_retry_agent_subgraph`, and the redaction it imports. -/
structure Config (V : Type) where
  label : String
  generate : ℕ → State V → Option String → Option String → Except PyException String
  execute : ℕ → String → Except PyException (Executed V)
  connectionExceptions : PyException → Bool
  retryableExceptions : PyException → Bool
  emptyResultFeedback : String
  guard : Option (ℕ → String → Except PyException GuardResult)
  queryContractError : Option (ℕ → String → List String → Except PyException (Option String))
  resultContractError :
    Option (ℕ → List (Row V) → State V → Except PyException (Option String))
  redactQuery : String → Option String

/-- A call of an injected callback, with its answer. -/
inductive Call (V : Type)
  | guard (query : String) (answer : Except PyException GuardResult)
  | contract (query : String) (answer : Option String)
  | execute (query : String) (answer : Except PyException (Executed V))
  | resultContract (answer : Except PyException (Option String))

/-- What ends a run without a final state. -/
inductive Abort
  /-- `QueryInfrastructureError`, raised when no query can be generated -/
  | infrastructure
  /-- an exception of the query contract -/
  | contractRaised (exc : PyException)
  /-- the `TypeError` of `enumerate(result)` -/
  | notIterable

/-- `_classify_empty_result`. -/
def classifyEmptyResult (priorAttempts : List AttemptRecord) : String :=
  if priorAttempts.any fun attempt => attempt.error ≠ none ∧ attempt.error ≠ some emptyResultError
  then inconclusive else noData

section

variable {V : Type} (config : Config V)

def toolName : ToolName := if config.label.startsWith "sql" then .sql else .graph

def feedbackText : Option String → Option String
  | none => none
  | some error =>
      if error = emptyResultError then some config.emptyResultFeedback else some error

/-- The `agent` node.  Whatever `generate` raises leaves the graph as an infrastructure error. -/
def agent (s : State V) : Except Abort (State V) :=
  let attempt := s.attemptCount + 1
  match config.generate attempt s (s.messages.getLast?.map Message.content)
      (feedbackText config (s.retryFeedback.getD s.error)) with
  | .error _ => .error .infrastructure
  | .ok queryText => .ok { s with
      messages := s.messages ++ [⟨"assistant", queryText⟩]
      attemptCount := attempt
      generatedQuery := config.redactQuery queryText }

/-- `failure`, the update behind every failed attempt. -/
def failure (s : State V) (queryText message : String) (retryable : Bool)
    (safeFailure : QueryFailure) (stage reasonCode : String) (error : Option PyException)
    (feedback : Option String) : State V :=
  { s with
    error := some message
    retryFeedback := some (some (feedback.getD message))
    result := .none
    attempts := s.attempts ++ [⟨queryText, some message⟩]
    retryDiagnostics := s.retryDiagnostics ++ [{
      stage := stage
      reasonCode := reasonCode
      errorType := error.map PyException.typeName
      sqlstate := error.bind PyException.sqlstate
      recovered := false
      attempt := s.attemptCount
      retryScheduled := retryable && decide (s.attemptCount < maxAttempts) }]
    retryable := retryable
    failure := some safeFailure
    failedQuery := config.redactQuery queryText }

def internalValidationFailure (s : State V) (queryText : String) (exc : PyException) : State V :=
  failure config s queryText "쿼리 검증 중 오류가 발생했습니다." false
    { code := "QUERY_VALIDATION_INTERNAL_ERROR"
      stage := .validation
      category := "INTERNAL_QUERY_FAILURE"
      kind := .internal
      retryable := false
      userSafeReason := "질의를 검증하는 과정에서 내부 오류가 발생했습니다."
      suggestedAction := "잠시 후 다시 시도해 주세요."
      failedTool := toolName config }
    "validation" "QUERY_VALIDATION_INTERNAL_ERROR" exc none

/-- `check_guard`: the calls made, and the failure if the query does not pass. -/
def checkGuard (s : State V) (queryText : String) : List (Call V) × Option (State V) :=
  match config.guard with
  | none => ([], none)
  | some guard =>
      let answer := guard s.attemptCount queryText
      ([.guard queryText answer],
        match answer with
        | .error exc => some (internalValidationFailure config s queryText exc)
        | .ok guardResult =>
            if guardResult.allowed then none
            else some (failure config s queryText
              ("쿼리가 안전 정책에 의해 차단되었습니다(" ++ guardResult.reasonCode.getD "None" ++ ").")
              (!(guardResult.reasonCode.any (· ∈ nonRetryableGuardReasons)))
              { code := "QUERY_POLICY_BLOCKED"
                stage := .validation
                category := "POLICY_BLOCKED"
                kind := .userCorrectable
                retryable := false
                userSafeReason := "생성된 조회가 데이터 안전 정책을 통과하지 못했습니다."
                suggestedAction := "데이터를 변경하지 않는 조회 요청으로 질문을 바꿔 주세요."
                failedTool := toolName config }
              "validation"
              (match guardResult.reasonCode with
                | some code => if code = "" then "QUERY_POLICY_BLOCKED" else code
                | none => "QUERY_POLICY_BLOCKED")
              none none))

/-- `check_contract`.  An exception of the contract is not caught. -/
def checkContract (s : State V) (queryText : String) :
    List (Call V) × Except Abort (Option (State V)) :=
  match config.queryContractError with
  | none => ([], .ok none)
  | some queryContractError =>
      match queryContractError s.attemptCount queryText s.requiredOutputs with
      | .error exc => ([], .error (.contractRaised exc))
      | .ok none => ([.contract queryText none], .ok none)
      | .ok (some contractError) => ([.contract queryText (some contractError)],
          .ok (some (failure config s queryText contractError true
            { code := "QUERY_CONTRACT_FAILED"
              stage := .validation
              category := "QUERY_INVALID"
              kind := .userCorrectable
              retryable := true
              userSafeReason := "질문에 필요한 결과 형식을 만족하는 조회를 만들지 못했습니다."
              suggestedAction := "필요한 항목과 조회 조건을 더 구체적으로 지정해 주세요."
              failedTool := toolName config }
            "validation" "QUERY_CONTRACT_FAILED" none none)))

/-- `"timeout" in name.lower() or "canceled" in name.lower()`. -/
def isTimeout (exc : PyException) : Bool :=
  let name := exc.typeName.toList.map Char.toLower
  decide ("timeout".toList <:+: name ∨ "canceled".toList <:+: name)

/-- The three classes of exceptions; retryable ones are looked for first. -/
def executionFailure (s : State V) (queryText : String) (exc : PyException) : State V :=
  if config.retryableExceptions exc then
    failure config s queryText "쿼리를 실행하지 못했습니다." true
      { code := if isTimeout exc then "QUERY_TIMEOUT" else "QUERY_EXECUTION_FAILED"
        stage := .execution
        category := if isTimeout exc then "TIMEOUT" else "QUERY_INVALID"
        kind := .userCorrectable
        retryable := true
        userSafeReason :=
          if isTimeout exc then "조회가 제한 시간 안에 완료되지 않았습니다."
          else "생성된 조회를 정상적으로 실행하지 못했습니다."
        suggestedAction :=
          if isTimeout exc then "조회 기간이나 대상 범위를 줄여 다시 질문해 주세요."
          else "조회 대상과 조건을 더 구체적으로 지정해 주세요."
        failedTool := toolName config }
      "execution" (if isTimeout exc then "QUERY_TIMEOUT" else "QUERY_EXECUTION_FAILED")
      exc exc.message
  else if config.connectionExceptions exc then
    failure config s queryText "접속 오류가 발생했습니다." false
      { code := "INFRASTRUCTURE_UNAVAILABLE"
        stage := .execution
        category := "CONNECTION_ERROR"
        kind := .infrastructure
        retryable := true
        userSafeReason := "조회 시스템에 일시적으로 연결할 수 없습니다."
        suggestedAction := "잠시 후 다시 시도해 주세요."
        failedTool := toolName config }
      "execution" "INFRASTRUCTURE_UNAVAILABLE" exc none
  else
    failure config s queryText "질의 실행 중 내부 오류가 발생했습니다." false
      { code := "INTERNAL_QUERY_FAILURE"
        stage := .execution
        category := "INTERNAL_QUERY_FAILURE"
        kind := .internal
        retryable := false
        userSafeReason := "질의 실행 중 내부 오류가 발생했습니다."
        suggestedAction := "잠시 후 다시 시도해 주세요."
        failedTool := toolName config }
      "execution" "INTERNAL_QUERY_FAILURE" exc none

/-- The branch for an empty result: one regeneration, then the result is accepted. -/
def emptyResult (s : State V) (queryText : String) (executed : Executed V) : State V :=
  let canRetryEmpty := !s.emptyRetried && decide (s.attemptCount < maxAttempts)
  let s' : State V := { s with
    result := executed.result
    attempts := s.attempts ++ [⟨queryText, some emptyResultError⟩]
    retryDiagnostics := s.retryDiagnostics ++ [{
      stage := "result"
      reasonCode := emptyResultError
      errorType := none
      sqlstate := none
      recovered := false
      attempt := s.attemptCount
      retryScheduled := canRetryEmpty }]
    truncated := executed.truncated
    failure := none }
  if canRetryEmpty then
    { s' with
      error := some emptyResultError
      retryFeedback := some (some emptyResultError)
      retryable := true
      emptyRetried := true }
  else
    { s' with
      error := none
      retryFeedback := some none
      emptyReason := some (classifyEmptyResult s.attempts)
      retryable := false }

/-- The first row that lacks required aliases, with its number and these aliases. -/
def missingAliases (requiredOutputs : List String) : ℕ → List (Row V) → Option (ℕ × List String)
  | _, [] => none
  | rowIndex, row :: rows =>
      let missing := requiredOutputs.filter (!row.hasAlias ·)
      if missing ≠ [] then some (rowIndex, missing)
      else missingAliases requiredOutputs (rowIndex + 1) rows

def aliasFailure (s : State V) (queryText : String) (rowIndex : ℕ) (missing : List String) :
    State V :=
  failure config s queryText
    ("결과의 " ++ toString rowIndex ++ "번 행에 필수 alias가 없습니다: " ++ ", ".intercalate missing)
    true
    { code := "QUERY_CONTRACT_FAILED"
      stage := .validation
      category := "QUERY_INVALID"
      kind := .userCorrectable
      retryable := true
      userSafeReason := "질문에 필요한 항목을 조회 결과에서 확인하지 못했습니다."
      suggestedAction := "필요한 결과 항목을 명확하게 지정해 다시 질문해 주세요."
      failedTool := toolName config }
    "result_contract" "REQUIRED_ALIAS_MISSING" none none

def invariantFailure (s : State V) (queryText invariantError : String) : State V :=
  failure config s queryText invariantError true
    { code := "QUERY_CONTRACT_FAILED"
      stage := .validation
      category := "QUERY_INVALID"
      kind := .userCorrectable
      retryable := true
      userSafeReason := "질문에 필요한 결과 형식을 조회 결과에서 확인하지 못했습니다."
      suggestedAction := "필요한 결과 항목을 명확하게 지정해 다시 질문해 주세요."
      failedTool := toolName config }
    "result_invariant" "RESULT_INVARIANT_VIOLATION" none none

/-- The accepted result; what was diagnosed before counts as recovered. -/
def success (s : State V) (queryText : String) (executed : Executed V) : State V :=
  { s with
    result := executed.result
    error := none
    retryFeedback := some none
    emptyReason := none
    attempts := s.attempts ++ [⟨queryText, none⟩]
    retryDiagnostics := s.retryDiagnostics.map fun item : Diagnostic => { item with recovered := true }
    retryable := false
    truncated := executed.truncated
    failure := none }

/-- The checks of a result that is not empty. -/
def classifyResult (s : State V) (queryText : String) (executed : Executed V) :
    List (Call V) × Except Abort (State V) :=
  match executed.result.rows? with
  | none => ([], .error .notIterable)
  | some rows =>
      match missingAliases s.requiredOutputs 0 rows with
      | some (rowIndex, missing) => ([], .ok (aliasFailure config s queryText rowIndex missing))
      | none =>
          match config.resultContractError with
          | none => ([], .ok (success s queryText executed))
          | some resultContractError =>
              let answer := resultContractError s.attemptCount rows s
              ([.resultContract answer],
                match answer with
                | .error exc => .ok (internalValidationFailure config s queryText exc)
                | .ok (some invariantError) =>
                    .ok (invariantFailure config s queryText invariantError)
                | .ok none => .ok (success s queryText executed))

def executeAndClassify (s : State V) (queryText : String) :
    List (Call V) × Except Abort (State V) :=
  let answer := config.execute s.attemptCount queryText
  match answer with
  | .error exc => ([.execute queryText answer], .ok (executionFailure config s queryText exc))
  | .ok executed =>
      if !executed.result.truthy then
        ([.execute queryText answer], .ok (emptyResult s queryText executed))
      else
        let (calls, outcome) := classifyResult config s queryText executed
        (.execute queryText answer :: calls, outcome)

/-- The `tools` node: guard, query contract, execution. -/
def tools (s : State V) : List (Call V) × Except Abort (State V) :=
  let queryText := (s.messages.getLast?.map Message.content).getD ""
  match checkGuard config s queryText with
  | (guardCalls, some outcome) => (guardCalls, .ok outcome)
  | (guardCalls, none) =>
      match checkContract config s queryText with
      | (contractCalls, .error abort) => (guardCalls ++ contractCalls, .error abort)
      | (contractCalls, .ok (some outcome)) => (guardCalls ++ contractCalls, .ok outcome)
      | (contractCalls, .ok none) =>
          let (calls, outcome) := executeAndClassify config s queryText
          (guardCalls ++ contractCalls ++ calls, outcome)

end

/-- `should_retry`: whether the graph goes back to `agent`. -/
def shouldRetry {V : Type} (s : State V) : Bool :=
  s.error ≠ none && s.retryable && decide (s.attemptCount < maxAttempts)

/-- The compiled graph: one round is `agent` and `tools`, its record the calls of `tools`. -/
def graph {V : Type} (config : Config V) : Rounds (State V) (List (Call V)) Abort where
  round s :=
    match agent config s with
    | .error abort => ([], .error abort)
    | .ok s' => tools config s'
  again := shouldRetry

/-- What `execute_plan` hands to an agent. -/
structure Input (V : Type) where
  query : String
  sourceScope : Option String
  entity : Option V
  schema : String
  requiredOutputs : List String
  inputBindings : Dict String (List V)
  businessRules : List String

/-- The state a run begins with, as `_initial_state` builds it. -/
def initialState {V : Type} (input : Input V) : State V where
  query := input.query
  sourceScope := input.sourceScope
  entity := input.entity
  schema := input.schema
  requiredOutputs := input.requiredOutputs
  inputBindings := input.inputBindings
  businessRules := input.businessRules
  messages := []
  result := .none
  error := none
  attemptCount := 0
  attempts := []
  emptyRetried := false
  retryable := false
  emptyReason := none
  truncated := false
  failure := none
  retryDiagnostics := []
  retryFeedback := none
  failedQuery := none
  generatedQuery := none

/-- A run of the agent: the calls of every attempt, and the end. -/
def run {V : Type} (config : Config V) (input : Input V) :
    List (List (Call V)) × Ending (State V) Abort :=
  (graph config).run maxAttempts (initialState input)

end Retry
