import Text2Cypher.Chat.Response

/-!
# The record of a failed chat

Behind the response, `chat` classifies it and records some failures for review: the row that it
inserts into `app.query_failure_reviews`.  It counts the attempts in the response, where those of
the failed tool have been removed.

* `finalStatus`, `recordOf`: the classification, and the row;
* `record_spec`: what is recorded of a state of the graph.
-/

namespace Chat

open Checks Execution

variable {V W R : Type}

/-! ### The classification -/

inductive FinalStatus
  | infrastructureFailure
  | policyBlocked
  | internalFailure
  | partialSuccess
  | repairExhausted
  | recovered
  | firstAttemptSuccess
  deriving DecidableEq, Repr

def bothTools : List ToolName := [.sql, .graph]

/-- The tools that have a result. -/
def ChatResponse.executed (response : ChatResponse W R) : List ToolName :=
  bothTools.filter fun tool => (response.result tool).isSome

/-- The tools whose result has an error. -/
def ChatResponse.failed (response : ChatResponse W R) : List ToolName :=
  bothTools.filter fun tool => (response.result tool).any fun outcome =>
    outcome.error.any (· ≠ "")

def ChatResponse.successful (response : ChatResponse W R) : List ToolName :=
  response.executed.filter (· ∉ response.failed)

/-- `attempt_counts`. -/
def ChatResponse.attemptCount (response : ChatResponse W R) (tool : ToolName) : ℕ :=
  ((response.result tool).map fun outcome => outcome.attempts.length).getD 0

/-- `final_status`. -/
def finalStatus (queryFailure : Option QueryFailure) (response : ChatResponse W R) : FinalStatus :=
  match queryFailure, response.executed with
  | some queryFailure, [] =>
      if queryFailure.kind = .infrastructure then .infrastructureFailure
      else if queryFailure.category = "POLICY_BLOCKED" then .policyBlocked
      else .internalFailure
  | _, _ =>
      if response.failed ≠ [] then
        if response.successful ≠ [] then .partialSuccess else .repairExhausted
      else if ∃ tool ∈ bothTools, 1 < response.attemptCount tool then .recovered
      else .firstAttemptSuccess

/-- `route`, from the planned tools in lower case. -/
def routeOf (toolPlan : List String) : String :=
  if 1 < toolPlan.dedup.length then "HYBRID"
  else match toolPlan with
    | [] => "UNKNOWN"
    | tool :: _ =>
        if tool = "sql" then "SQL" else if tool = "graph" then "GRAPH" else "UNKNOWN"

/-- The statuses that are reviewed. -/
def reviewed : List FinalStatus :=
  [.repairExhausted, .partialSuccess, .internalFailure, .infrastructureFailure, .policyBlocked]

/-! ### The row -/

def stageText : FailureStage → String
  | .entityResolution => "entity_resolution"
  | .routing => "routing"
  | .planning => "planning"
  | .validation => "validation"
  | .execution => "execution"
  | .result => "result"
  | .dependency => "dependency"

def toolText : ToolName → String
  | .sql => "sql"
  | .graph => "graph"

/-- What `create_failure_review` inserts; the other columns have their defaults. -/
structure FailureRecord where
  requestId : String
  questionFingerprint : String
  route : String
  failedStage : String
  failedTool : Option String
  issueCode : String
  sqlAttemptCount : ℕ
  graphAttemptCount : ℕ

/-- The checks of the table on a row on its own. -/
def FailureRecord.Accepted (record : FailureRecord) : Prop :=
  record.requestId.length ≤ 64 ∧ record.questionFingerprint.length ≤ 64 ∧
    record.route ∈ ["UNKNOWN", "SQL", "GRAPH", "HYBRID"] ∧ record.failedStage.length ≤ 32 ∧
    (∀ tool ∈ record.failedTool, tool ∈ ["sql", "graph"]) ∧ record.issueCode.length ≤ 64 ∧
    record.sqlAttemptCount ≤ 3 ∧ record.graphAttemptCount ≤ 3

instance (record : FailureRecord) : Decidable record.Accepted :=
  inferInstanceAs (Decidable (_ ∧ _ ∧ _ ∧ _ ∧ _ ∧ _ ∧ _ ∧ _))

/-- The row, if the failure is recorded; `lower` is `str.lower`. -/
def recordOf (lower : String → String) (requestId questionFingerprint : String)
    (queryFailure : Option QueryFailure) (response : ChatResponse W R) : Option FailureRecord :=
  match queryFailure with
  | none => none
  | some failure =>
      if finalStatus queryFailure response ∈ reviewed then
        some {
          requestId
          questionFingerprint
          route := routeOf ((response.toolPlan.getD []).map lower)
          failedStage := stageText failure.stage
          failedTool := failure.failedTool.map toolText
          issueCode := failure.code
          sqlAttemptCount := min (response.attemptCount .sql) 3
          graphAttemptCount := min (response.attemptCount .graph) 3 }
      else none

/-! ### What is recorded -/

theorem finalStatus_mem_reviewed {queryFailure : QueryFailure} {response : ChatResponse W R} :
    finalStatus (some queryFailure) response ∈ reviewed ↔
      response.executed = [] ∨ response.failed ≠ [] := by
  cases hexecuted : response.executed with
  | nil =>
    simp only [finalStatus, hexecuted, true_or, iff_true]
    split_ifs <;> decide
  | cons tool tools =>
    simp only [finalStatus, hexecuted, reduceCtorEq, false_or]
    split_ifs with hfailed
    · exact iff_of_true (by decide) hfailed
    · exact iff_of_true (by decide) hfailed
    · exact iff_of_false (by decide) hfailed
    · exact iff_of_false (by decide) hfailed

/-- A failure is recorded just if no tool has a result or a result has an error. -/
theorem recordOf_isSome {lower : String → String} {requestId questionFingerprint : String}
    {queryFailure : Option QueryFailure} {response : ChatResponse W R} :
    (recordOf lower requestId questionFingerprint queryFailure response).isSome = true ↔
      queryFailure.isSome = true ∧ (response.executed = [] ∨ response.failed ≠ []) := by
  cases queryFailure with
  | none => simp [recordOf]
  | some queryFailure =>
    rw [recordOf]
    simp only [finalStatus_mem_reviewed]
    split_ifs with h <;> simpa using h

theorem routeOf_mem (toolPlan : List String) :
    routeOf toolPlan ∈ ["UNKNOWN", "SQL", "GRAPH", "HYBRID"] := by
  unfold routeOf
  split_ifs
  · decide
  · cases toolPlan with
    | nil => decide
    | cons tool rest =>
      dsimp only
      split_ifs <;> decide

theorem length_stageText (stage : FailureStage) : (stageText stage).length ≤ 32 := by
  cases stage <;> decide

theorem toolText_mem (tool : ToolName) : toolText tool ∈ ["sql", "graph"] := by
  cases tool <;> decide

/-- What is recorded passes the checks, if its texts are short enough. -/
theorem accepted_of_recordOf {lower : String → String} {requestId questionFingerprint : String}
    {queryFailure : QueryFailure} {response : ChatResponse W R} {record : FailureRecord}
    (hrequest : requestId.length ≤ 64) (hfingerprint : questionFingerprint.length ≤ 64)
    (hcode : queryFailure.code.length ≤ 64)
    (h : recordOf lower requestId questionFingerprint (some queryFailure) response = some record) :
    record.Accepted := by
  rw [recordOf] at h
  split_ifs at h
  cases h
  refine ⟨hrequest, hfingerprint, routeOf_mem _, length_stageText _, fun tool htool => ?_, hcode,
    min_le_right _ _, min_le_right _ _⟩
  obtain ⟨failed, -, rfl⟩ := Option.mem_map.1 htool
  exact toolText_mem failed

/-! ### The record and the state -/

/-- The result of a tool in the state of the graph. -/
def GraphState.result (state : GraphState V) : ToolName → Option (Summary V)
  | .sql => state.sqlResult
  | .graph => state.graphResult

/-- The attempts that are counted: none of a failed tool. -/
def countedAttempts (state : GraphState V) (tool : ToolName) : ℕ :=
  if toolFailed state.queryFailure tool then 0
  else ((state.result tool).map fun summary => summary.attempts.length).getD 0

/-- A result counts as failed: any error of a failed tool, and the text of another one. -/
def CountsAsFailed (state : GraphState V) (tool : ToolName) : Prop :=
  ∃ summary, state.result tool = some summary ∧
    if toolFailed state.queryFailure tool then summary.error.isSome = true
    else ∃ text ∈ summary.error, text ≠ ""

theorem toOutcome_eq_ok {encoding : Encoding V W R} {result : Option (Summary V)}
    {outcome : Option (QueryOutcome R)}
    (h : ifPresent (toOutcome encoding) result = .ok outcome) :
    (outcome.map fun o => (o.error, o.attempts)) = result.map fun s => (s.error, s.attempts) := by
  cases result with
  | none =>
    cases h
    rfl
  | some summary =>
    rw [ifPresent, toOutcome] at h
    cases hrows : encoding.rows summary.result with
    | error exception =>
      rw [hrows] at h
      cases h
    | ok rows =>
      rw [hrows] at h
      cases h
      rfl

/-- The errors and the attempts in a response. -/
theorem result_respond {encoding : Encoding V W R} {state : GraphState V}
    {response : ChatResponse W R} (h : respond encoding state = .ok response) (tool : ToolName) :
    ((response.result tool).map fun o => (o.error, o.attempts)) =
      (shownResult state.queryFailure tool (state.result tool)).map
        fun s => (s.error, s.attempts) := by
  simp only [respond, bind_eq_ok, pure_eq_ok] at h
  obtain ⟨entity, -, sqlResult, hsql, graphResult, hgraph, visualization, -, rfl⟩ := h
  cases tool with
  | sql => exact toOutcome_eq_ok hsql
  | graph => exact toOutcome_eq_ok hgraph

theorem attemptCount_respond {encoding : Encoding V W R} {state : GraphState V}
    {response : ChatResponse W R} (h : respond encoding state = .ok response) (tool : ToolName) :
    response.attemptCount tool = countedAttempts state tool := by
  have hlength : response.attemptCount tool = ((((response.result tool).map
      fun o => (o.error, o.attempts)).map fun parts => parts.2.length).getD 0) := by
    rw [ChatResponse.attemptCount, Option.map_map]
    rfl
  rw [hlength, result_respond h, shownResult, countedAttempts]
  cases state.result tool <;> split_ifs <;> rfl

theorem mem_failed_respond {encoding : Encoding V W R} {state : GraphState V}
    {response : ChatResponse W R} (h : respond encoding state = .ok response) (tool : ToolName) :
    tool ∈ response.failed ↔ CountsAsFailed state tool := by
  have htool : tool ∈ bothTools := by cases tool <;> decide
  have hany : (response.result tool).any (fun outcome => outcome.error.any (· ≠ "")) =
      ((response.result tool).map fun o => (o.error, o.attempts)).any
        fun parts => parts.1.any (· ≠ "") := by
    cases response.result tool <;> rfl
  rw [ChatResponse.failed, List.mem_filter, hany, result_respond h, shownResult, CountsAsFailed]
  cases hresult : state.result tool with
  | none => split_ifs <;> simp
  | some summary =>
    split_ifs with hfailed
    · cases herror : summary.error <;> simp [htool, safeFailedResult, herror]
    · cases herror : summary.error <;> simp [htool, herror]

theorem executed_respond_eq_nil {encoding : Encoding V W R} {state : GraphState V}
    {response : ChatResponse W R} (h : respond encoding state = .ok response) :
    response.executed = [] ↔ ∀ tool, state.result tool = none := by
  have hsome : ∀ tool, (response.result tool).isSome = (state.result tool).isSome := by
    intro tool
    have hmap := congrArg Option.isSome (result_respond h tool)
    rw [Option.isSome_map, Option.isSome_map, shownResult] at hmap
    rw [hmap]
    split_ifs
    · rw [Option.isSome_map]
    · rfl
  simp only [ChatResponse.executed, List.filter_eq_nil_iff, hsome, Bool.not_eq_true,
    Option.isSome_eq_false_iff, Option.isNone_iff_eq_none]
  refine ⟨fun hall tool => hall tool ?_, fun hall tool _ => hall tool⟩
  cases tool <;> decide

/-- A query that has failed three times. -/
def failedThrice : GraphState Unit where
  query := "stock?"
  toolPlan := some ["sql"]
  sqlResult := some
    { result := .none
      error := some "timeout"
      attempts := [⟨"SELECT 1", some "timeout"⟩, ⟨"SELECT 1", some "timeout"⟩,
        ⟨"SELECT 1", some "timeout"⟩]
      emptyReason := none
      truncated := false
      failure := none
      retryDiagnostics := []
      failedQuery := none
      generatedQuery := none }
  queryFailure := some
    { code := "SQL_TIMEOUT"
      stage := .execution
      category := "TIMEOUT"
      kind := .infrastructure
      retryable := true
      userSafeReason := ""
      suggestedAction := ""
      failedTool := some .sql }

end Chat
