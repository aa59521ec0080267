import Text2Cypher.Composition.Results
import Text2Cypher.Execution.Alike

/-!
# The response of the chat

What becomes of a plan behind its execution: the composition, the answer, the response of `/chat`
and the conversation that is saved.  Where a query has failed, the answer is a fixed text, and the
response withholds the query, the attempts and the error of the failed tool.

The answer to a plan without a failure, and the encoding of values as JSON, are parameters.  Logs,
events, metrics and the failure reviews are left out.
-/

namespace Chat

open Checks Composition Execution Planning Query Retry

/-! ### The answer -/

/-- `QueryInfrastructureError`. -/
def queryInfrastructureError : PyException :=
  ⟨"QueryInfrastructureError",
    "조회 시스템에 일시적으로 연결할 수 없습니다. 잠시 후 다시 시도해 주세요.", none⟩

/-- `_INTERNAL_FAILURE_ANSWER`. -/
def internalFailureAnswer : String :=
  "질의를 처리하는 과정에서 일시적인 문제가 발생했습니다. 질문을 바꾸기보다 잠시 후 다시 시도해 주세요."

/-- `generate_failure_answer`. -/
def generateFailureAnswer (queryFailure : QueryFailure) : Except PyException String :=
  if queryFailure.kind ≠ .userCorrectable then
    .error (Python.valueError "Only user-correctable failures may be formatted this way.")
  else .ok (queryFailure.userSafeReason ++ " " ++ queryFailure.suggestedAction)

/-- The final answer, with a visualization of the result. -/
structure Answer (V : Type) where
  finalAnswer : String
  visualization : Option V

section

variable {V W : Type}

/-- `generate_answer`, with what it makes of a composed result. -/
def generateAnswer (answer : Composed V → Except PyException (Answer V))
    (queryFailure : Option QueryFailure) (composed : Composed V) :
    Except PyException (Answer V) :=
  match queryFailure with
  | none => answer composed
  | some queryFailure =>
      match queryFailure.kind with
      | .infrastructure => .error queryInfrastructureError
      | .userCorrectable => do
          let finalAnswer ← generateFailureAnswer queryFailure
          return ⟨finalAnswer, none⟩
      | .internal => .ok ⟨internalFailureAnswer, none⟩

/-! ### The graph behind the execution -/

/-- The parts of the state that `chat` reads. -/
structure GraphState (V : Type) where
  query : String
  entity : Option V := none
  toolPlan : Option (List String) := none
  sqlQuery : Option String := none
  cypherQuery : Option String := none
  sqlResult : Option (Summary V) := none
  graphResult : Option (Summary V) := none
  finalAnswer : Option String := none
  visualization : Option V := none
  queryFailure : Option QueryFailure := none

/-- What the nodes behind `execute_plan` are given, the output of this node apart. -/
structure Context (V : Type) where
  query : String
  entity : Option V
  toolPlan : Option (List String)
  rowLimit : ℤ
  resultTransform : Option (BomShortageTransform V)
  semanticCatalog : Option (Dict String TransformSpec)
  answer : Composed V → Except PyException (Answer V)

variable [PyValue V] [PyBuild V]

/-- A result of a tool, as `compose_results` finds it in the state. -/
def toSource (summary : Summary V) : Source V where
  error := summary.error
  result := summary.result
  truncated := some (PyBuild.ofKind (.bool summary.truncated))
  emptyReason := summary.emptyReason.map fun reason => PyBuild.ofKind (.str reason)

/-- The nodes behind `execute_plan`. -/
def finishGraph (context : Context V) (plan : List Subquery) (output : Output V) :
    Except PyException (GraphState V) := do
  let composed ← composeResults plan (fun tool => (output.result tool).map toSource)
    context.rowLimit context.resultTransform context.semanticCatalog
  let answer ← generateAnswer context.answer output.queryFailure composed
  return {
    query := context.query
    entity := context.entity
    toolPlan := context.toolPlan
    sqlQuery := output.sqlQuery
    cypherQuery := output.cypherQuery
    sqlResult := output.sqlResult
    graphResult := output.graphResult
    finalAnswer := some answer.finalAnswer
    visualization := answer.visualization
    queryFailure := output.queryFailure }

end

/-! ### The response -/

/-- What ends the graph without a state: the exceptions that `chat` answers, and all others. -/
inductive GraphError
  | entityNotFound (entityName : Option String)
  | entityExtraction
  | routePlan
  | outputPlanning
  | other (exception : PyException)

/-- `entity_not_found_failure`. -/
def entityNotFoundFailure (entityName : Option String) : QueryFailure where
  code := "ENTITY_NOT_FOUND"
  stage := .entityResolution
  category := "NOT_FOUND"
  kind := .userCorrectable
  retryable := false
  userSafeReason :=
    match entityName.filter (· ≠ "") with
    | some name => "'" ++ name ++ "'에 해당하는 대상을 데이터에서 찾지 못했습니다."
    | none => "질문에서 지정한 조회 대상을 데이터에서 식별하지 못했습니다."
  suggestedAction := "대상의 정확한 이름이나 식별자를 포함해 다시 질문해 주세요."

/-- `_QUERY_UNDERSTANDING_REASONS`, with the default. -/
def queryUnderstandingReason : FailureStage → String
  | .entityResolution => "질문에서 조회 대상을 정확히 식별하지 못했습니다."
  | .routing => "질문을 처리할 조회 절차를 구성하지 못했습니다."
  | .planning => "조회에 필요한 항목을 결정하지 못했습니다."
  | _ => "현재 질문을 실행 가능한 조회 조건으로 구성하지 못했습니다."

/-- `query_understanding_failure`. -/
def queryUnderstandingFailure (stage : FailureStage) : QueryFailure where
  code := "QUERY_UNDERSTANDING_FAILED"
  stage := stage
  category := "UNSUPPORTED"
  kind := .userCorrectable
  retryable := false
  userSafeReason := queryUnderstandingReason stage
  suggestedAction := "조회 대상, 기간, 조건을 조금 더 구체적으로 지정해 주세요."

/-- `QueryOutcome`; `R` is what encoding and validation make of the rows. -/
structure QueryOutcome (R : Type) where
  result : R
  error : Option String
  attempts : List AttemptRecord
  emptyReason : Option String
  deriving DecidableEq

/-- `ChatResponse`. -/
structure ChatResponse (W R : Type) where
  query : String
  entity : Option W
  toolPlan : Option (List String)
  sqlQuery : Option String
  cypherQuery : Option String
  sqlResult : Option (QueryOutcome R)
  graphResult : Option (QueryOutcome R)
  finalAnswer : Option String
  visualization : Option W
  deriving DecidableEq

/-- The result field of a tool. -/
def ChatResponse.result {W R : Type} (response : ChatResponse W R) :
    ToolName → Option (QueryOutcome R)
  | .sql => response.sqlResult
  | .graph => response.graphResult

/-- The row of `app.conversation_history`. -/
structure Conversation (W R : Type) where
  username : String
  query : String
  finalAnswer : Option String
  sqlQuery : Option String
  cypherQuery : Option String
  sqlResult : Option (QueryOutcome R)
  graphResult : Option (QueryOutcome R)
  visualization : Option W
  deriving DecidableEq

/-- `jsonable_encoder` and the validation of the response, on values and on the results of tools. -/
structure Encoding (V W R : Type) where
  value : V → Except PyException W
  rows : Result V → Except PyException R

section

variable {V W R : Type}

/-- `_tool_failed`. -/
def toolFailed (queryFailure : Option QueryFailure) (tool : ToolName) : Bool :=
  match queryFailure with
  | none => false
  | some queryFailure =>
      queryFailure.failedTool == none || queryFailure.failedTool == some tool

/-- `_safe_failed_result`. -/
def safeFailedResult (summary : Summary V) : Summary V :=
  { summary with
    error := summary.error.map fun _ => "질의를 완료하지 못했습니다."
    attempts := []
    failure := none
    retryDiagnostics := []
    failedQuery := none
    generatedQuery := none }

/-- The result of a tool in the response. -/
def shownResult (queryFailure : Option QueryFailure) (tool : ToolName)
    (result : Option (Summary V)) : Option (Summary V) :=
  if toolFailed queryFailure tool then result.map safeFailedResult else result

/-- The query of a tool in the response. -/
def shownQuery (queryFailure : Option QueryFailure) (tool : ToolName) (query : Option String) :
    Option String := if toolFailed queryFailure tool then none else query

/-- A function on a value that can be missing. -/
def ifPresent {A B : Type} (f : A → Except PyException B) : Option A → Except PyException (Option B)
  | none => .ok none
  | some a => (f a).map some

/-- A result as a `QueryOutcome`. -/
def toOutcome (encoding : Encoding V W R) (summary : Summary V) :
    Except PyException (QueryOutcome R) := do
  let result ← encoding.rows summary.result
  return ⟨result, summary.error, summary.attempts, summary.emptyReason⟩

/-- The response to a state of the graph. -/
def respond (encoding : Encoding V W R) (state : GraphState V) :
    Except PyException (ChatResponse W R) := do
  let queryFailure := state.queryFailure
  let entity ← ifPresent encoding.value state.entity
  let sqlResult ← ifPresent (toOutcome encoding) (shownResult queryFailure .sql state.sqlResult)
  let graphResult ← ifPresent (toOutcome encoding) (shownResult queryFailure .graph state.graphResult)
  let visualization ← ifPresent encoding.value state.visualization
  return {
    query := state.query
    entity := entity
    toolPlan := state.toolPlan
    sqlQuery := shownQuery queryFailure .sql state.sqlQuery
    cypherQuery := shownQuery queryFailure .graph state.cypherQuery
    sqlResult := sqlResult
    graphResult := graphResult
    finalAnswer := state.finalAnswer
    visualization := visualization }

/-- What `save_conversation` is given. -/
def toConversation (username : String) (response : ChatResponse W R) : Conversation W R where
  username := username
  query := response.query
  finalAnswer := response.finalAnswer
  sqlQuery := response.sqlQuery
  cypherQuery := response.cypherQuery
  sqlResult := response.sqlResult
  graphResult := response.graphResult
  visualization := response.visualization

/-- The state that stands for a question that could not be understood. -/
def failedState (query : String) (queryFailure : QueryFailure) :
    Except PyException (GraphState V) := do
  let finalAnswer ← generateFailureAnswer queryFailure
  return { query := query, finalAnswer := some finalAnswer, queryFailure := some queryFailure }

/-- `chat`: the response, and the conversation that is saved with it. -/
def chat (encoding : Encoding V W R) (username query : String)
    (graph : Except GraphError (GraphState V)) :
    Except PyException (ChatResponse W R × Conversation W R) := do
  let result ←
    match graph with
    | .ok state => .ok state
    | .error (.entityNotFound entityName) => failedState query (entityNotFoundFailure entityName)
    | .error .entityExtraction =>
        failedState query (queryUnderstandingFailure .entityResolution)
    | .error .routePlan => failedState query (queryUnderstandingFailure .routing)
    | .error .outputPlanning => failedState query (queryUnderstandingFailure .planning)
    | .error (.other exception) => .error exception
  let response ← respond encoding result
  return (response, toConversation username response)

/-- `chat`, where the graph has executed a plan. -/
def chatPlan [PyValue V] [PyBuild V] (encoding : Encoding V W R) (username : String)
    (context : Context V) (plan : List Subquery) (output : Output V) :
    Except PyException (ChatResponse W R × Conversation W R) :=
  chat encoding username context.query ((finishGraph context plan output).mapError .other)

end

end Chat
