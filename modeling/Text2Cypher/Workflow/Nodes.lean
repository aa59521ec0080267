import Text2Cypher.Answer.Generation
import Text2Cypher.Chat.Response
import Text2Cypher.Guards.WriteIntent
import Text2Cypher.Library.StateGraph

/-!
# The workflow of a question

The graph of the orchestrator: the request guard, the topic classifier, the strict query, and the
nodes of the general path, each of which updates a state with optional fields.

The guard, the strict query around its five nodes, the composition and the answer are modelled;
what the other nodes write is a parameter, as are the answers of the language model.  Audit logs,
events and the measuring of times are left out.
-/

namespace Workflow

open Answer Composition Execution Guards Planning StateGraph

/-! ### The state -/

/-- The optional fields of `OrchestratorState`. -/
inductive Field
  | queryStrategy | strictAttempt | entity | confirmedEntity | toolPlan | routeDraft | rawRouteDraft
  | subqueries | resultTransform | sqlQuery | cypherQuery | sqlResult | graphResult
  | composedResult | queryFailure | finalAnswer | answerMetadata | routeRepairCount
  | outputPlanRepairCount | resultInvariantRetryCount | visualization | error
  deriving DecidableEq

inductive Strategy
  | strict
  | pr61
  deriving DecidableEq

/-- The diagnostic of the strict query; it is accepted when there is no reason. -/
structure StrictAttempt where
  reason : Option String
  elapsedMs : ℚ
  deriving DecidableEq

/-- `AnswerGenerationMetadata`, with the mode of the fixed texts. -/
inductive Metadata
  | fixed
  | generated (metadata : AnswerMetadata)
  deriving DecidableEq

/-- The values of a field. -/
@[reducible] def Field.Value (V : Type) : Field → Type
  | queryStrategy => Strategy
  | strictAttempt => StrictAttempt
  | entity | confirmedEntity | visualization => Option V
  | toolPlan => List String
  | routeDraft | rawRouteDraft => V
  | subqueries => List Subquery
  | resultTransform => Option (BomShortageTransform V)
  | sqlQuery | cypherQuery | finalAnswer | error => Option String
  | sqlResult | graphResult => Option (Summary V)
  | composedResult => Composed V
  | queryFailure => Option QueryFailure
  | answerMetadata => Metadata
  | routeRepairCount | outputPlanRepairCount | resultInvariantRetryCount => ℕ

/-- A dict with some of the fields. -/
abbrev Fields (V : Type) : Type := ∀ f : Field, Option (f.Value V)

def Fields.empty {V : Type} : Fields V := fun _ => none

def Fields.set {V : Type} (u : Fields V) (f : Field) (v : f.Value V) : Fields V :=
  Function.update u f (some v)

/-- `OrchestratorState`.  No node writes the query. -/
structure State (V : Type) where
  query : Text
  fields : Fields V

section

variable {V : Type}

/-- The update of a node goes into the state. -/
def State.update (s : State V) (u : Fields V) : State V :=
  ⟨s.query, fun f => (u f).or (s.fields f)⟩

/-- `state.get("query_failure")`. -/
def State.queryFailure (s : State V) : Option QueryFailure := (s.fields .queryFailure).join

/-- `state.get("confirmed_entity")`. -/
def State.confirmedEntity (s : State V) : Option V := (s.fields .confirmedEntity).join

/-- The text of the answer. -/
def State.finalAnswer (s : State V) : Option String := (s.fields .finalAnswer).join

@[simp] theorem State.update_query (s : State V) (u : Fields V) :
    (s.update u).query = s.query := rfl

@[simp] theorem State.update_fields (s : State V) (u : Fields V) (f : Field) :
    (s.update u).fields f = (u f).or (s.fields f) := rfl

@[simp] theorem Fields.set_self (u : Fields V) (f : Field) (v : f.Value V) :
    u.set f v f = some v :=
  Function.update_self ..

theorem Fields.set_of_ne (u : Fields V) {f g : Field} (v : f.Value V) (h : g ≠ f) :
    u.set f v g = u g :=
  Function.update_of_ne h ..

/-! ### The strict query -/

/-- A node of the general or of the strict path. -/
abbrev Step (V : Type) : Type := State V → Except PyException (Fields V)

/-- `run` of `build_strict_query`: the nodes in turn, until one reports a failure. -/
def runStrict : List (Step V) → State V → Except PyException (State V)
  | [], state => .ok state
  | node :: nodes, state =>
      match node state with
      | .error exception => .error exception
      | .ok u =>
          let state := state.update u
          if state.queryFailure.isSome then .ok state else runStrict nodes state

/-- A text that is there and not empty. -/
def truthy (text : Option String) : Bool := text.any (· ≠ "")

/-- `_has_answer_rows`. -/
def hasAnswerRows (composed : Composed V) : Bool :=
  !composed.rows.isEmpty || composed.sections.entries.any fun entry => !entry.2.rows.isEmpty

/-- `_rejection_reason`. -/
def rejectionReason (result : State V) : Option String :=
  if result.queryFailure.isSome || truthy (result.fields .error).join then some "query_failure"
  else
    match result.fields .composedResult with
    | none => some "composition_failure"
    | some composed =>
        if truthy composed.error then some "composition_failure"
        else if composed.truncated then some "truncated"
        else if !hasAnswerRows composed then some "empty_result"
        else none

/-- What the workflow depends on. -/
structure Services (V : Type) where
  words : WordClass
  /-- the content of the first choice of the topic classifier, if there is one -/
  topic : Text → Except PyException (Option String)
  /-- the type of the exception that `build_strict_query` has raised -/
  initialError : Option String
  /-- the five nodes of the strict path -/
  strictNodes : List (Step V)
  /-- the strict path runs into its deadline -/
  interrupted : State V → Bool
  elapsedMs : State V → ℚ
  resolveEntity : Step V
  routeQuery : Step V
  planOutputs : Step V
  executePlan : Step V
  rowLimit : ℤ
  semanticCatalog : Option (Dict String TransformSpec)
  settings : Settings V
  /-- the responses of the model that is asked to answer a question from a result -/
  model : Text → Composed V → ℕ → Response
  visualize : Composed V → Except PyException (Option V)

variable (services : Services V)

/-- What the strict path is given: the question, and the entity that the user has confirmed. -/
def strictInput (state : State V) : State V :=
  ⟨state.query,
    match state.confirmedEntity with
    | some entity => Fields.empty.set .confirmedEntity (some entity)
    | none => Fields.empty⟩

/-- The result of the strict path, or the reason to go on without it. -/
def strictResult (state : State V) : Except String (State V) :=
  match services.initialError with
  | some typeName => .error ("initialization:" ++ typeName)
  | none =>
      if services.interrupted state then .error "timeout"
      else
        match runStrict services.strictNodes (strictInput state) with
        | .error exception =>
            .error (if exception.typeName = "TimeoutError" then "timeout" else exception.typeName)
        | .ok result =>
            match rejectionReason result with
            | some reason => .error reason
            | none => .ok result

/-- The fields of an accepted result that go into the state. -/
def accepted (result : State V) : Fields V := fun f =>
  if f = .confirmedEntity ∨ f = .finalAnswer ∨ f = .answerMetadata then none else result.fields f

/-- `strict_query`. -/
def strictQuery : Step V := fun state =>
  match strictResult services state with
  | .error reason =>
      .ok ((Fields.empty.set .queryStrategy .pr61).set .strictAttempt
        ⟨some reason, services.elapsedMs state⟩)
  | .ok result =>
      .ok (((accepted result).set .queryStrategy .strict).set .strictAttempt
        ⟨none, services.elapsedMs state⟩)

/-! ### The guards -/

/-- The failure of a request that asks for a change. -/
def requestPolicyBlocked : QueryFailure where
  code := "REQUEST_POLICY_BLOCKED"
  stage := .validation
  category := "POLICY_BLOCKED"
  kind := .userCorrectable
  retryable := false
  userSafeReason := "데이터를 변경하는 요청은 안전 정책상 실행할 수 없습니다."
  suggestedAction := "조회하거나 확인하려는 내용으로 질문을 바꿔 주세요."

/-- `_off_topic_failure`. -/
def offTopicFailure : QueryFailure where
  code := "OFF_TOPIC"
  stage := .validation
  category := "OFF_TOPIC"
  kind := .userCorrectable
  retryable := false
  userSafeReason := "제조 데이터와 관련된 질문을 입력해 주세요."
  suggestedAction := "제품, 재고, 부품, 공급업체, 생산 정보 등을 조회하고 분석할 수 있습니다."

/-- An update with the query failure alone. -/
def failureUpdate (queryFailure : Option QueryFailure) : Fields V :=
  Fields.empty.set .queryFailure queryFailure

@[simp] theorem queryFailure_update_failureUpdate (state : State V)
    (queryFailure : Option QueryFailure) :
    (state.update (failureUpdate queryFailure)).queryFailure = queryFailure := by
  simp [State.queryFailure, failureUpdate]

/-- `guard_request`. -/
def guardRequest : Step V := fun state =>
  .ok (failureUpdate
    (if hasWriteIntent services.words state.query then some requestPolicyBlocked else none))

/-- The classifier has answered that a question is off topic; what it raises lets it pass. -/
def isOffTopic (query : Text) : Bool :=
  match services.topic query with
  | .ok (some content) => Python.strip content.toList = "OFF_TOPIC".toList
  | _ => false

/-- `classify_topic`. -/
def classifyTopic : Step V := fun state =>
  .ok (failureUpdate (if isOffTopic services state.query then some offTopicFailure else none))

/-! ### The edges -/

inductive Node
  | guardRequest | classifyTopic | strictQuery | resolveEntity | routeQuery | planOutputs
  | executePlan | composeResults | generateAnswer
  deriving DecidableEq

/-- The edges; `generate_answer` leads to the end. -/
def next : Node → State V → Option Node
  | .guardRequest, state =>
      some (if state.queryFailure.isSome then .generateAnswer else .classifyTopic)
  | .classifyTopic, state =>
      some (if state.queryFailure.isSome then .generateAnswer else .strictQuery)
  | .strictQuery, state =>
      match (state.fields .queryStrategy).getD .pr61 with
      | .strict => some .generateAnswer
      | .pr61 => some .resolveEntity
  | .resolveEntity, _ => some .routeQuery
  | .routeQuery, _ => some .planOutputs
  | .planOutputs, _ => some .executePlan
  | .executePlan, _ => some .composeResults
  | .composeResults, _ => some .generateAnswer
  | .generateAnswer, _ => none

def rank : Node → ℕ
  | .guardRequest => 8
  | .classifyTopic => 7
  | .strictQuery => 6
  | .resolveEntity => 5
  | .routeQuery => 4
  | .planOutputs => 3
  | .executePlan => 2
  | .composeResults => 1
  | .generateAnswer => 0

theorem rank_lt_of_next {n m : Node} {state : State V} (h : next n state = some m) :
    rank m < rank n := by
  cases n with
  | guardRequest =>
    rw [next] at h
    split_ifs at h <;> cases h <;> decide
  | classifyTopic =>
    rw [next] at h
    split_ifs at h <;> cases h <;> decide
  | strictQuery =>
    rw [next] at h
    split at h <;> cases h <;> decide
  | generateAnswer => cases h
  | _ =>
    cases h
    decide

/-! ### The composition and the answer -/

section

variable [PyValue V] [PyStr V] [PyBuild V]

/-- `compose_results_node`. -/
def composeResultsNode : Step V := fun state => do
  let summary : ToolName → Option (Summary V)
    | .sql => (state.fields .sqlResult).join
    | .graph => (state.fields .graphResult).join
  let composed ← composeResults ((state.fields .subqueries).getD [])
    (fun tool => (summary tool).map Chat.toSource) services.rowLimit
    (state.fields .resultTransform).join services.semanticCatalog
  return Fields.empty.set .composedResult composed

/-- `_COMPOSITION_ERROR_ANSWER`. -/
def compositionErrorAnswer : String :=
  "요청한 결과를 안전하게 조합하지 못했습니다. 질의를 조금 더 구체적으로 바꿔 다시 시도해 주세요."

/-- `_NO_DATA_ANSWER`. -/
def noDataAnswer : String := "질문에 해당하는 조회 결과가 없습니다."

/-- `_INCONCLUSIVE_ANSWER`. -/
def inconclusiveAnswer : String :=
  "현재 조회 결과만으로는 질문에 대한 답을 확정할 수 없습니다. " ++
    "조건을 조금 더 구체적으로 지정해 다시 질문해 주세요."

/-- An answer in a text that no model has written. -/
def fixedAnswer (text : String) : Fields V :=
  (Fields.empty.set .finalAnswer (some text)).set .answerMetadata .fixed

/-- The answer to a composed result without a failure. -/
def answerComposed (state : State V) (composed : Composed V) : Except PyException (Fields V) :=
  if composed.error.isSome then .ok (fixedAnswer compositionErrorAnswer)
  else if !hasAnswerRows composed then
    match composed.emptyReason with
    | some .inconclusive => .ok (fixedAnswer inconclusiveAnswer)
    | some .noData => .ok (fixedAnswer noDataAnswer)
    | none => .ok (fixedAnswer compositionErrorAnswer)
  else do
    let visualization ← services.visualize composed
    let (text, metadata) ←
      (generateMarkdownAnswer services.settings composed (services.model state.query composed)).outcome
    return ((Fields.empty.set .finalAnswer (some text)).set .answerMetadata
      (.generated metadata)).set .visualization visualization

/-- `generate_answer`. -/
def generateAnswer : Step V := fun state =>
  match state.queryFailure with
  | some queryFailure =>
      match queryFailure.kind with
      | .infrastructure => .error Chat.queryInfrastructureError
      | .userCorrectable => (Chat.generateFailureAnswer queryFailure).map fixedAnswer
      | .internal => .ok (fixedAnswer Chat.internalFailureAnswer)
  | none =>
      match state.fields .composedResult with
      | none => .ok (fixedAnswer compositionErrorAnswer)
      | some composed => answerComposed services state composed

/-! ### The graph -/

/-- The node of a name. -/
def step : Node → Step V
  | .guardRequest => guardRequest services
  | .classifyTopic => classifyTopic services
  | .strictQuery => strictQuery services
  | .resolveEntity => services.resolveEntity
  | .routeQuery => services.routeQuery
  | .planOutputs => services.planOutputs
  | .executePlan => services.executePlan
  | .composeResults => composeResultsNode services
  | .generateAnswer => generateAnswer services

/-- The graph of `build_orchestrator_graph`. -/
def graph : Graph Node (State V) PyException where
  node n state := (step services n state).map state.update
  next := next
  rank := rank
  rank_lt := rank_lt_of_next

/-- The state that `/chat` starts with. -/
def initial (query : Text) (confirmedEntity : Option V) : State V :=
  ⟨query, Fields.empty.set .confirmedEntity confirmedEntity⟩

/-- `graph.ainvoke({"query": ..., "confirmed_entity": ...})`. -/
def invoke (query : Text) (confirmedEntity : Option V) : Run Node (State V) PyException :=
  (graph services).run .guardRequest (initial query confirmedEntity)

end

end

end Workflow
