import Mathlib.Data.List.MinMax
import Text2Cypher.Chat.Response
import Text2Cypher.Planning.Validation

/-!
# What a response discloses of failed queries

The response withholds query, attempts and error of one tool: the one that the preferred failure
names, or all tools if it names none.  When two tools fail on their own, what the other one has
written is shown.

* `replay_queryFailure`: the preferred failure is the first one of the highest rank;
* `undisclosed_iff`: when the texts of a failed tool have no influence on the response and the saved
  conversation.
-/

namespace Chat

open Checks Composition Execution Planning Query Retry

variable {V W R : Type}

/-! ### The preferred failure -/

/-- The rank by which failures are preferred: by severity, then actual before dependent ones. -/
def failureRank (queryFailure : QueryFailure) : ℕ :=
  2 * failurePriority queryFailure.kind + if queryFailure.dependentFailure then 0 else 1

theorem preferFailure_some (current candidate : QueryFailure) :
    preferFailure (some current) candidate =
      if failureRank current < failureRank candidate then candidate else current := by
  unfold preferFailure
  dsimp only
  refine if_congr ?_ rfl rfl
  unfold failureRank
  cases current.dependentFailure <;> cases candidate.dependentFailure <;> simp <;> omega

/-- The failures that were recorded, in order. -/
def recordedFailures (handled : List (Handled V)) : List QueryFailure :=
  handled.filterMap fun h => h.summary.failure

theorem record_queryFailure (output : Output V) (h : Handled V) :
    (output.record h).queryFailure =
      match h.summary.failure with
      | none => output.queryFailure
      | some queryFailure => some (preferFailure output.queryFailure queryFailure) := by
  unfold Output.record
  cases h.summary.failure <;> cases h.queryText <;> cases h.subquery.tool <;> rfl

/-- **The preferred failure** is the first of those with the highest rank. -/
theorem replay_queryFailure (handled : List (Handled V)) :
    (replay handled).output.queryFailure = (recordedFailures handled).argmax failureRank := by
  unfold recordedFailures
  induction handled using List.reverseRecOn with
  | nil => rfl
  | append_singleton handled last ih =>
    rw [replay_concat, Progress.record, record_queryFailure, List.filterMap_append, ih]
    cases hlast : last.summary.failure with
    | none => simp [hlast]
    | some queryFailure =>
      simp only [List.filterMap_cons, hlast, List.filterMap_nil, List.argmax_concat]
      cases (handled.filterMap fun h => h.summary.failure).argmax failureRank with
      | none => rfl
      | some current =>
        simp only [preferFailure_some]
        split_ifs <;> rfl

/-! ### The graph behind a failed query -/

section

variable [PyValue V] [PyBuild V]

/-- Reading the results of the tools raises nothing. -/
theorem settled_toSource (label : String) (summary : Summary V) :
    Settled (readEmptyReason label (toSource summary).emptyReason) := by
  cases hreason : summary.emptyReason with
  | none =>
    simp only [toSource, hreason, Option.map_none]
    exact settled_ok _
  | some reason =>
    simp only [toSource, hreason, Option.map_some, readEmptyReason, PyBuild.kind_ofKind,
      PyBuild.repr_ofText]
    split_ifs
    · exact settled_ok _
    · exact settled_ok _
    · exact settled_failure _

omit [PyBuild V] in
/-- A source with an error is not read. -/
theorem allSourceRows_of_error (toolResults : ToolName → Option (Source V)) {plan : List Subquery}
    {subquery : Subquery} {source : Source V} (hmem : subquery ∈ plan)
    (hsource : toolResults subquery.tool = some source) (herror : source.error ≠ none)
    (sources : List (SourceRows V)) : allSourceRows toolResults plan ≠ .ok sources := by
  obtain ⟨error, herror⟩ := Option.ne_none_iff_exists'.1 herror
  induction plan generalizing sources with
  | nil => cases hmem
  | cons first rest ih =>
    intro hok
    simp only [allSourceRows, bind_eq_ok] at hok
    obtain ⟨s, hs, rows, hrows, -⟩ := hok
    rcases List.mem_cons.1 hmem with rfl | hmem
    · simp only [sourceRows, hsource, herror] at hs
      cases hs
    · exact ih hmem rows hrows

/-- With a failed tool there is nothing to compose; that is no exception. -/
theorem exists_composeResults {plan : List Subquery} {output : Output V} {subquery : Subquery}
    {summary : Summary V} (hmem : subquery ∈ plan)
    (hresult : output.result subquery.tool = some summary) (herror : summary.error ≠ none)
    (rowLimit : ℤ) (resultTransform : Option (BomShortageTransform V))
    (semanticCatalog : Option (Dict String TransformSpec)) :
    ∃ composed, composeResults plan (fun tool => (output.result tool).map toSource) rowLimit
      resultTransform semanticCatalog = .ok composed := by
  unfold composeResults
  cases modeOf plan with
  | error problem => exact ⟨_, rfl⟩
  | ok mode =>
    dsimp only
    split_ifs
    · exact ⟨_, rfl⟩
    · cases validateResultTransform resultTransform plan semanticCatalog with
      | error message => exact ⟨_, rfl⟩
      | ok transform =>
        have hsettled := settled_allSourceRows (fun tool => (output.result tool).map toSource) plan
          fun q _ s hs label => by
            obtain ⟨summary, -, rfl⟩ := Option.map_eq_some_iff.1 hs
            exact settled_toSource label summary
        have hsource : (output.result subquery.tool).map toSource = some (toSource summary) := by
          rw [hresult, Option.map_some]
        have hnone := allSourceRows_of_error (fun tool => (output.result tool).map toSource) hmem
          hsource herror
        dsimp only
        cases hrows : allSourceRows (fun tool => (output.result tool).map toSource) plan with
        | ok sources => exact absurd hrows (hnone sources)
        | error stop =>
          cases stop with
          | failure message => exact ⟨_, rfl⟩
          | raised exception => exact absurd hrows (hsettled exception)

end

/-! ### Two executions -/

/-- Two runs of one agent, both with an error, that differ only in the query text, in the attempts
and in the message of the error. -/
structure SameButTexts (h h' : Handled V) : Prop where
  subquery : h'.subquery = h.subquery
  invoked : h.invoked.isSome = true ∧ h'.invoked.isSome = true
  failed : h.summary.error ≠ none ∧ h'.summary.error ≠ none
  rest : h'.summary = { h.summary with
    error := h'.summary.error
    attempts := h'.summary.attempts
    failedQuery := h'.summary.failedQuery
    generatedQuery := h'.summary.generatedQuery }

/-- The same, except for the texts of the agent of the tool. -/
def DiffersAt (tool : ToolName) (h h' : Handled V) : Prop :=
  h' = h ∨ h.subquery.tool = tool ∧ SameButTexts h h'

/-- **Not disclosed**: another execution of the plan that differs only in the texts of the tool
leads to the same response and the same saved conversation. -/
def Undisclosed [PyValue V] [PyBuild V] (encoding : Encoding V W R) (username : String)
    (context : Context V) (plan : List Subquery) (progress : Progress V) (tool : ToolName) : Prop :=
  ∀ env' progress', executePlan env' plan = .ok progress' →
    List.Forall₂ (DiffersAt tool) progress.handled progress'.handled →
    chatPlan encoding username context plan progress'.output =
      chatPlan encoding username context plan progress.output

/-- The failure that leads the recorded ones ends the request, or withholds the tool. -/
def Withheld (failures : List QueryFailure) (tool : ToolName) : Prop :=
  ∀ queryFailure, failures.argmax failureRank = some queryFailure →
    queryFailure.kind = .infrastructure ∨ queryFailure.failedTool = none ∨
      queryFailure.failedTool = some tool

/-- No agent of the tool was invoked. -/
def Skipped (handled : List (Handled V)) (tool : ToolName) : Prop :=
  ∀ h ∈ handled, h.subquery.tool = tool → h.invoked = none

/-- Entity and rows can be written as JSON, so that there is a response. -/
def Encodable (encoding : Encoding V W R) (context : Context V) (output : Output V) : Prop :=
  (∀ entity, context.entity = some entity → ∃ w, encoding.value entity = .ok w) ∧
    ∀ tool summary, output.result tool = some summary → ∃ r, encoding.rows summary.result = .ok r

section

variable {handled handled' : List (Handled V)} {tool : ToolName}

theorem DiffersAt.subquery {h h' : Handled V} (hd : DiffersAt tool h h') :
    h'.subquery = h.subquery := by
  rcases hd with rfl | ⟨-, hsame⟩
  · rfl
  · exact hsame.subquery

theorem DiffersAt.failure {h h' : Handled V} (hd : DiffersAt tool h h') :
    h'.summary.failure = h.summary.failure := by
  rcases hd with rfl | ⟨-, hsame⟩
  · rfl
  · rw [hsame.rest]

/-- Such executions record the same failures. -/
theorem recordedFailures_eq (h : List.Forall₂ (DiffersAt tool) handled handled') :
    recordedFailures handled' = recordedFailures handled := by
  induction h with
  | nil => rfl
  | cons hd _ ih =>
    simp only [recordedFailures, List.filterMap_cons, hd.failure] at ih ⊢
    rw [ih]

/-- If the agent of the tool was not invoked, there is nothing to differ. -/
theorem eq_of_skipped (h : List.Forall₂ (DiffersAt tool) handled handled')
    (hskipped : Skipped handled tool) : handled' = handled := by
  induction h with
  | nil => rfl
  | cons hd _ ih =>
    rcases hd with rfl | ⟨htool, hsame⟩
    · rw [ih fun h hmem => hskipped h (List.mem_cons_of_mem _ hmem)]
    · have hinvoked := hsame.invoked.1
      rw [hskipped _ List.mem_cons_self htool] at hinvoked
      cases hinvoked

/-- Outputs that say the same, except for the texts of the tool. -/
structure SameOutput (tool : ToolName) (output output' : Output V) : Prop where
  others : ∀ tool', tool' ≠ tool → output'.result tool' = output.result tool' ∧
    output'.query tool' = output.query tool'
  masked : (output'.result tool).map safeFailedResult = (output.result tool).map safeFailedResult

theorem SameOutput.record {output output' : Output V} (h : SameOutput tool output output')
    {h₁ h₂ : Handled V} (hd : DiffersAt tool h₁ h₂) :
    SameOutput tool (output.record h₁) (output'.record h₂) := by
  refine ⟨fun tool' hne => ?_, ?_⟩
  · obtain ⟨hresult, hquery⟩ := h.others tool' hne
    rw [record_result, record_result, record_query, record_query, hd.subquery, hresult, hquery]
    rcases hd with rfl | ⟨htool, -⟩
    · exact ⟨rfl, rfl⟩
    · have hother : h₁.subquery.tool ≠ tool' := htool ▸ hne.symm
      constructor <;> simp only [if_neg hother]
  · rw [record_result, record_result, hd.subquery]
    split_ifs
    · rcases hd with rfl | ⟨-, hsame⟩
      · rfl
      · obtain ⟨error, herror⟩ := Option.ne_none_iff_exists'.1 hsame.failed.1
        obtain ⟨error', herror'⟩ := Option.ne_none_iff_exists'.1 hsame.failed.2
        rw [Option.map_some, Option.map_some, hsame.rest]
        simp only [safeFailedResult, herror, herror', Option.map_some]
    · exact h.masked

/-- Such executions have such outputs. -/
theorem sameOutput_replay (h : List.Forall₂ (DiffersAt tool) handled handled') :
    SameOutput tool (replay handled).output (replay handled').output := by
  have hfold : ∀ {progress progress' : Progress V},
      SameOutput tool progress.output progress'.output →
        SameOutput tool (handled.foldl Progress.record progress).output
          (handled'.foldl Progress.record progress').output := by
    induction h with
    | nil => exact fun hsame => hsame
    | cons hd _ ih => exact fun hsame => ih (hsame.record hd)
  exact hfold ⟨fun _ _ => ⟨rfl, rfl⟩, rfl⟩

end

/-! ### The response to a failed plan -/

/-- The answer to a failure, unless the failure is raised. -/
def failureAnswer (queryFailure : QueryFailure) : Except PyException String :=
  match queryFailure.kind with
  | .infrastructure => .error queryInfrastructureError
  | .userCorrectable => .ok (queryFailure.userSafeReason ++ " " ++ queryFailure.suggestedAction)
  | .internal => .ok internalFailureAnswer

/-- The entity and the rows of the two results, as JSON. -/
def encodeAll (encoding : Encoding V W R) (context : Context V) (output : Output V) :
    Except PyException (Option W × (ToolName → Option R)) := do
  let rows := fun tool => ifPresent (fun summary => encoding.rows summary.result)
    (output.result tool)
  let entity ← ifPresent encoding.value context.entity
  let sql ← rows .sql
  let graph ← rows .graph
  return (entity, fun
    | .sql => sql
    | .graph => graph)

/-- The outcome of a tool in the response, with its rows as JSON. -/
def shownOutcome (queryFailure : QueryFailure) (output : Output V) (rows : ToolName → Option R)
    (tool : ToolName) : Option (QueryOutcome R) :=
  Option.map₂ (fun rows summary => ⟨rows, summary.error, summary.attempts, summary.emptyReason⟩)
    (rows tool) (shownResult (some queryFailure) tool (output.result tool))

/-- The response to a failed plan. -/
def failedResponse (context : Context V) (output : Output V) (queryFailure : QueryFailure)
    (finalAnswer : String) (encoded : Option W × (ToolName → Option R)) : ChatResponse W R where
  query := context.query
  entity := encoded.1
  toolPlan := context.toolPlan
  sqlQuery := shownQuery (some queryFailure) .sql (output.query .sql)
  cypherQuery := shownQuery (some queryFailure) .graph (output.query .graph)
  sqlResult := shownOutcome queryFailure output encoded.2 .sql
  graphResult := shownOutcome queryFailure output encoded.2 .graph
  finalAnswer := some finalAnswer
  visualization := none

theorem ifPresent_toOutcome (encoding : Encoding V W R) (queryFailure : QueryFailure)
    (tool : ToolName) (result : Option (Summary V)) :
    ifPresent (toOutcome encoding) (shownResult (some queryFailure) tool result) =
      (ifPresent (fun summary => encoding.rows summary.result) result).map fun rows =>
        Option.map₂ (fun rows summary => ⟨rows, summary.error, summary.attempts,
          summary.emptyReason⟩) rows (shownResult (some queryFailure) tool result) := by
  cases result with
  | none => unfold shownResult; split_ifs <;> rfl
  | some summary =>
    unfold shownResult
    split_ifs
    · simp only [Option.map_some, ifPresent, toOutcome, safeFailedResult]
      cases encoding.rows summary.result <;> rfl
    · simp only [ifPresent, toOutcome]
      cases encoding.rows summary.result <;> rfl

/-- The response to a plan with a failed query, as the values it is made of. -/
theorem chatPlan_eq [PyValue V] [PyBuild V] (encoding : Encoding V W R) (username : String)
    {context : Context V} {plan : List Subquery} {output : Output V} {queryFailure : QueryFailure}
    (hfailure : output.queryFailure = some queryFailure) {composed : Composed V}
    (hcomposed : composeResults plan (fun tool => (output.result tool).map toSource)
      context.rowLimit context.resultTransform context.semanticCatalog = .ok composed) :
    chatPlan encoding username context plan output = (do
      let finalAnswer ← failureAnswer queryFailure
      let encoded ← encodeAll encoding context output
      let response := failedResponse context output queryFailure finalAnswer encoded
      return (response, toConversation username response)) := by
  have hanswer : generateAnswer context.answer (some queryFailure) composed =
      (failureAnswer queryFailure).map fun finalAnswer => ⟨finalAnswer, none⟩ := by
    unfold generateAnswer failureAnswer generateFailureAnswer
    cases hkind : queryFailure.kind <;> simp only [hkind] <;> rfl
  unfold chatPlan finishGraph
  rw [hcomposed, ok_bind, hfailure, hanswer]
  cases failureAnswer queryFailure with
  | error exception => rfl
  | ok finalAnswer =>
    simp only [Except.map, ok_bind, chat, Except.mapError, pure, Except.pure, respond, encodeAll,
      ifPresent_toOutcome]
    cases ifPresent encoding.value context.entity with
    | error exception => rfl
    | ok entity =>
      simp only [ok_bind]
      rw [show output.sqlResult = output.result .sql from rfl,
        show output.graphResult = output.result .graph from rfl]
      cases ifPresent (fun summary => encoding.rows summary.result) (output.result .sql) with
      | error exception => rfl
      | ok sql =>
        cases ifPresent (fun summary => encoding.rows summary.result) (output.result .graph) with
        | error exception => rfl
        | ok graph => rfl

/-! ### Disclosure -/

section

variable {encoding : Encoding V W R} {context : Context V} {output output' : Output V}
  {tool : ToolName}

/-- The encoding does not look at the texts. -/
theorem encodeAll_congr (hsame : SameOutput tool output output') :
    encodeAll encoding context output' = encodeAll encoding context output := by
  have hresults : ∀ tool', (output'.result tool').map Summary.result =
      (output.result tool').map Summary.result := by
    intro tool'
    by_cases htool : tool' = tool
    · have hmasked := congrArg (Option.map Summary.result) hsame.masked
      rwa [Option.map_map, Option.map_map, ← htool] at hmasked
    · rw [(hsame.others tool' htool).1]
  have hrows : ∀ tool', ifPresent (fun summary => encoding.rows summary.result)
      (output'.result tool') =
        ifPresent (fun summary => encoding.rows summary.result) (output.result tool') := by
    intro tool'
    have heq : ∀ result : Option (Summary V),
        ifPresent (fun summary => encoding.rows summary.result) result =
          ifPresent encoding.rows (result.map Summary.result) := by
      intro result
      cases result <;> rfl
    rw [heq, heq, hresults]
  unfold encodeAll
  simp only [hrows]

/-- What can be encoded, and what cannot. -/
theorem encodable_iff : Encodable encoding context output ↔
    ∃ encoded, encodeAll encoding context output = .ok encoded := by
  have hpresent : ∀ {A B : Type} (f : A → Except PyException B) (x : Option A),
      (∃ y, ifPresent f x = .ok y) ↔ ∀ a, x = some a → ∃ b, f a = .ok b := by
    intro A B f x
    cases x with
    | none => simp [ifPresent]
    | some a => cases hfa : f a <;> simp [ifPresent, hfa, Except.map]
  have htools : ∀ P : ToolName → Prop, (∀ tool', P tool') ↔ P .sql ∧ P .graph := fun P =>
    ⟨fun h => ⟨h _, h _⟩, fun h tool' => by cases tool' <;> simp [h]⟩
  have hrows := fun tool' => hpresent (fun summary : Summary V => encoding.rows summary.result)
    (output.result tool')
  unfold Encodable
  rw [htools, ← hpresent encoding.value, ← hrows .sql, ← hrows .graph]
  simp only [encodeAll, bind_eq_ok, pure_eq_ok]
  constructor
  · rintro ⟨⟨entity, hentity⟩, ⟨sql, hsql⟩, graph, hgraph⟩
    exact ⟨_, entity, hentity, sql, hsql, graph, hgraph, rfl⟩
  · rintro ⟨_, entity, hentity, sql, hsql, graph, hgraph, -⟩
    exact ⟨⟨entity, hentity⟩, ⟨sql, hsql⟩, graph, hgraph⟩

/-- A withheld tool looks the same in both responses. -/
theorem failedResponse_congr (hsame : SameOutput tool output output')
    {queryFailure : QueryFailure} (hwithheld : toolFailed (some queryFailure) tool = true)
    (finalAnswer : String) (encoded : Option W × (ToolName → Option R)) :
    failedResponse context output' queryFailure finalAnswer encoded =
      failedResponse context output queryFailure finalAnswer encoded := by
  have hquery : ∀ tool', shownQuery (some queryFailure) tool' (output'.query tool') =
      shownQuery (some queryFailure) tool' (output.query tool') := by
    intro tool'
    by_cases htool : tool' = tool
    · rw [htool, shownQuery, shownQuery, if_pos hwithheld, if_pos hwithheld]
    · rw [(hsame.others tool' htool).2]
  have houtcome : ∀ tool', shownOutcome queryFailure output' encoded.2 tool' =
      shownOutcome queryFailure output encoded.2 tool' := by
    intro tool'
    by_cases htool : tool' = tool
    · rw [htool, shownOutcome, shownOutcome, shownResult, shownResult, if_pos hwithheld,
        if_pos hwithheld, hsame.masked]
    · rw [shownOutcome, shownOutcome, (hsame.others tool' htool).1]
  simp only [failedResponse, hquery, houtcome]

/-- The error of a tool that is not withheld stands in the response. -/
theorem error_of_failedResponse {queryFailure : QueryFailure}
    (hshown : toolFailed (some queryFailure) tool = false) {summary : Summary V}
    (hresult : output.result tool = some summary) (finalAnswer : String)
    {encoded : Option W × (ToolName → Option R)}
    (hencoded : encodeAll encoding context output = .ok encoded) :
    ((failedResponse context output queryFailure finalAnswer encoded).result tool).map
      QueryOutcome.error = some summary.error := by
  have hrows : ifPresent (fun summary => encoding.rows summary.result) (output.result tool) =
      .ok (encoded.2 tool) := by
    simp only [encodeAll, bind_eq_ok, pure_eq_ok] at hencoded
    obtain ⟨entity, -, sql, hsql, graph, hgraph, rfl⟩ := hencoded
    cases tool
    · exact hsql
    · exact hgraph
  have houtcome : (failedResponse context output queryFailure finalAnswer encoded).result tool =
      shownOutcome queryFailure output encoded.2 tool := by
    cases tool <;> rfl
  rw [hresult, ifPresent] at hrows
  cases hr : encoding.rows summary.result with
  | error exception => rw [hr] at hrows; cases hrows
  | ok rows =>
    rw [hr] at hrows
    rw [houtcome, shownOutcome, shownResult, hshown, hresult, ← Except.ok.inj hrows]
    rfl

end

/-- The handled subquery behind the result of a tool. -/
theorem exists_handled {plan : List Subquery} (hplan : ValidPlan plan) {env : Env V}
    {progress : Progress V} (hrun : executePlan env plan = .ok progress) {tool : ToolName}
    {summary : Summary V} (hresult : progress.output.result tool = some summary) :
    ∃ h ∈ progress.handled, h.subquery ∈ plan ∧ h.subquery.tool = tool ∧ h.summary = summary ∧
      (progress.handled.map fun h => h.subquery.tool).Nodup := by
  have hperm := perm_of_executePlan hplan.ids hrun
  have htools : (progress.handled.map fun h => h.subquery.tool).Nodup := by
    have hnodup := (hperm.map Subquery.tool).nodup_iff.2 hplan.tools
    rwa [List.map_map] at hnodup
  have hreplay := (reported_of_executePlan hrun).1
  by_cases hnone : ∀ h ∈ progress.handled, h.subquery.tool ≠ tool
  · rw [hreplay, (replay_result_none hnone).1] at hresult
    cases hresult
  · push Not at hnone
    obtain ⟨h, hmem, htool⟩ := hnone
    have hh := (replay_result htools hmem).1
    rw [← hreplay, htool, hresult] at hh
    exact ⟨h, hmem, hperm.mem_iff.1 (List.mem_map_of_mem hmem), htool,
      (Option.some.inj hh).symm, htools⟩

theorem reword_other {h : Handled V} {tool : ToolName} (htool : h.subquery.tool ≠ tool)
    (reword : String → String) : h.reword tool reword = h := by
  unfold Handled.reword
  split
  · rfl
  · rw [if_neg htool]

/-- Another wording of an error differs in the texts only. -/
theorem sameButTexts_reword {h : Handled V} {tool : ToolName} (htool : h.subquery.tool = tool)
    (hinvoked : h.invoked ≠ none) (herror : h.summary.error ≠ none) (reword : String → String) :
    SameButTexts h (h.reword tool reword) ∧
      (h.reword tool reword).summary.error = h.summary.error.map reword := by
  obtain ⟨⟨input, s⟩, hsome⟩ := Option.ne_none_iff_exists'.1 hinvoked
  have hreword : h.reword tool reword = ⟨h.subquery, some (input, rewordState reword s),
      h.queryText, { h.summary with error := h.summary.error.map reword }⟩ := by
    rw [Handled.reword, hsome]
    exact if_pos htool
  rw [hreword]
  refine ⟨⟨rfl, ⟨by rw [hsome]; rfl, rfl⟩, ⟨herror, ?_⟩, rfl⟩, rfl⟩
  simpa using herror

/-- **When failed queries are not disclosed**: the texts of a failed tool have no influence on the
response and the saved conversation exactly if the preferred failure ends the request, names no tool
or names this one; unless the tool was not asked at all, or nothing can be encoded. -/
theorem undisclosed_iff [PyValue V] [PyBuild V] {repr : Json → String} {allowEmpty : Bool}
    {subqueries : Json} {plan : List Subquery}
    (hplan : validateSubqueries repr allowEmpty subqueries = .ok plan) (encoding : Encoding V W R)
    (username : String) (context : Context V) {env : Env V} {progress : Progress V}
    (hrun : executePlan env plan = .ok progress) (hfailed : progress.output.queryFailure ≠ none)
    {tool : ToolName} {summary : Summary V} (hresult : progress.output.result tool = some summary)
    (herror : summary.error ≠ none) :
    Undisclosed encoding username context plan progress tool ↔
      Withheld (recordedFailures progress.handled) tool ∨ Skipped progress.handled tool ∨
        ¬ Encodable encoding context progress.output := by
  have hvalid := validPlan_of_validateSubqueries hplan
  obtain ⟨queryFailure, hfailure⟩ := Option.ne_none_iff_exists'.1 hfailed
  have hreplay := (reported_of_executePlan hrun).1
  have hleads : (recordedFailures progress.handled).argmax failureRank = some queryFailure := by
    rw [← replay_queryFailure, ← hreplay, hfailure]
  obtain ⟨h, hmem, hplanned, htool, hsummary, htools⟩ := exists_handled hvalid hrun hresult
  -- the response, for this output and every other one with an error of the tool
  have hchat : ∀ {output' : Output V} {summary' : Summary V},
      output'.queryFailure = some queryFailure → output'.result tool = some summary' →
        summary'.error ≠ none → chatPlan encoding username context plan output' = (do
          let finalAnswer ← failureAnswer queryFailure
          let encoded ← encodeAll encoding context output'
          let response := failedResponse context output' queryFailure finalAnswer encoded
          return (response, toConversation username response)) := by
    intro output' summary' hfailure' hresult' herror'
    obtain ⟨composed, hcomposed⟩ := exists_composeResults hplanned (htool ▸ hresult') herror'
      context.rowLimit context.resultTransform context.semanticCatalog
    exact chatPlan_eq encoding username hfailure' hcomposed
  constructor
  · intro hundisclosed
    by_contra hnot
    push Not at hnot
    obtain ⟨hwithheld, hskipped, hencodable⟩ := hnot
    obtain ⟨encoded, hencoded⟩ := encodable_iff.1 hencodable
    -- the tool was asked, and is not withheld
    have hinvoked : h.invoked ≠ none := by
      simp only [Skipped, not_forall] at hskipped
      obtain ⟨h', hmem', htool', hinvoked⟩ := hskipped
      obtain rfl := List.inj_on_of_nodup_map htools hmem' hmem (htool'.trans htool.symm)
      exact hinvoked
    have hshown : queryFailure.kind ≠ .infrastructure ∧
        toolFailed (some queryFailure) tool = false := by
      simp only [Withheld, not_forall, hleads, Option.some.injEq] at hwithheld
      obtain ⟨_, rfl, hnot⟩ := hwithheld
      push Not at hnot
      exact ⟨hnot.1, by simp [toolFailed, Option.isSome_iff_ne_none, hnot.2.1, hnot.2.2]⟩
    -- its agent could have said something else
    have hrun' := executePlan_reword tool (fun error => error ++ "!") hrun
    have hdiffers : List.Forall₂ (DiffersAt tool) progress.handled
        (progress.handled.map (Handled.reword tool fun error => error ++ "!")) := by
      rw [List.forall₂_map_right_iff, List.forall₂_same]
      intro h' hmem'
      by_cases htool' : h'.subquery.tool = tool
      · obtain rfl := List.inj_on_of_nodup_map htools hmem' hmem (htool'.trans htool.symm)
        exact Or.inr ⟨htool, (sameButTexts_reword htool hinvoked (hsummary ▸ herror) _).1⟩
      · exact Or.inl (reword_other htool' _)
    obtain ⟨hsame, herror'⟩ := sameButTexts_reword htool hinvoked (hsummary ▸ herror)
      fun error => error ++ "!"
    have hresult' : (replay (progress.handled.map
        (Handled.reword tool fun error => error ++ "!"))).output.result tool =
          some (h.reword tool fun error => error ++ "!").summary := by
      have htools' : ((progress.handled.map (Handled.reword tool fun error => error ++ "!")).map
          fun h => h.subquery.tool).Nodup := by
        simpa only [List.map_map, Function.comp_def, reword_subquery] using htools
      have hh := (replay_result htools' (List.mem_map_of_mem hmem)).1
      rwa [reword_subquery, htool] at hh
    have hsame' := sameOutput_replay hdiffers
    rw [← hreplay] at hsame'
    have hfailure' : (replay (progress.handled.map
        (Handled.reword tool fun error => error ++ "!"))).output.queryFailure =
          some queryFailure := by
      rw [replay_queryFailure, recordedFailures_eq hdiffers, hleads]
    have hencoded' : encodeAll encoding context _ = .ok encoded :=
      (encodeAll_congr hsame').trans hencoded
    -- and this would show
    have heq := hundisclosed _ _ hrun' (by rw [replay_handled]; exact hdiffers)
    rw [hchat hfailure' hresult' hsame.failed.2, hchat hfailure hresult herror, hencoded,
      hencoded'] at heq
    obtain ⟨finalAnswer, hanswer⟩ : ∃ finalAnswer, failureAnswer queryFailure = .ok finalAnswer := by
      unfold failureAnswer
      cases hkind : queryFailure.kind with
      | infrastructure => exact absurd hkind hshown.1
      | userCorrectable => exact ⟨_, rfl⟩
      | internal => exact ⟨_, rfl⟩
    rw [hanswer] at heq
    have hresponses := (Prod.mk.inj (Except.ok.inj heq)).1
    have herrors := error_of_failedResponse hshown.2 hresult' finalAnswer hencoded'
    rw [hresponses, error_of_failedResponse hshown.2 hresult finalAnswer hencoded, herror',
      hsummary] at herrors
    obtain ⟨error, herror⟩ := Option.ne_none_iff_exists'.1 herror
    rw [herror, Option.map_some] at herrors
    have hlength := congrArg String.length (Option.some.inj (Option.some.inj herrors))
    rw [String.length_append] at hlength
    exact absurd hlength (by simp)
  · intro hcondition env' progress' hrun' hdiffers
    have hreplay' := (reported_of_executePlan hrun').1
    by_cases hskipped : Skipped progress.handled tool
    · rw [hreplay', eq_of_skipped hdiffers hskipped, ← hreplay]
    · have hfailure' : progress'.output.queryFailure = some queryFailure := by
        rw [hreplay', replay_queryFailure, recordedFailures_eq hdiffers, hleads]
      have hsame : SameOutput tool progress.output progress'.output := by
        rw [hreplay, hreplay']
        exact sameOutput_replay hdiffers
      obtain ⟨summary', hresult', hmasked⟩ : ∃ summary',
          progress'.output.result tool = some summary' ∧
            safeFailedResult summary' = safeFailedResult summary := by
        have hmap := hsame.masked
        rw [hresult, Option.map_some, Option.map_eq_some_iff] at hmap
        exact hmap
      have herror' : summary'.error ≠ none := by
        have hsome := congrArg (fun s => s.error.isSome) hmasked
        simp only [safeFailedResult, Option.isSome_map] at hsome
        rw [Ne, ← Option.isNone_iff_eq_none, ← Option.not_isSome, hsome]
        simpa using herror
      rw [hchat hfailure' hresult' herror', hchat hfailure hresult herror, encodeAll_congr hsame]
      rcases hcondition with hwithheld | hskipped' | hencodable
      · rcases hwithheld queryFailure hleads with hkind | htools'
        · rw [failureAnswer, hkind]
          rfl
        · have hwithheld : toolFailed (some queryFailure) tool = true := by
            rcases htools' with hnone | hsome
            · simp [toolFailed, hnone]
            · simp [toolFailed, hsome]
          simp only [failedResponse_congr hsame hwithheld]
      · exact absurd hskipped' hskipped
      · cases hencoded : encodeAll encoding context progress.output with
        | ok encoded => exact absurd (encodable_iff.2 ⟨encoded, hencoded⟩) hencodable
        | error exception => cases failureAnswer queryFailure <;> rfl

/-! ### Two failed tools -/

/-- Two independent questions. -/
def twoPlan : List Subquery :=
  [⟨"stock", .sql, "stock?", [], ["stock"], [], .empty, []⟩,
    ⟨"parts", .graph, "parts?", [], ["name"], [], .empty, []⟩]

/-- Agents that fail, each with a message of its own. -/
def failingAgent (message : ToolName → String) (tool : ToolName) (input : Input Cell) :
    Except Abort (State Cell) :=
  .ok { initialState input with
    messages := [⟨"assistant", "SELECT 1"⟩]
    error := some (message tool)
    attempts := [⟨"SELECT 1", some (message tool)⟩]
    failure := some {
      code := "QUERY_EXECUTION_FAILED"
      stage := .execution
      category := "QUERY_INVALID"
      kind := .internal
      retryable := false
      userSafeReason := "질의를 실행하지 못했습니다."
      suggestedAction := "잠시 후 다시 시도해 주세요."
      failedTool := some tool } }

/-- An environment in which the graph query fails with the message. -/
def failingEnv (message : String) : Env Cell where
  agents := failingAgent fun
    | .sql => "timeout"
    | .graph => message
  schemas _ := ""
  query := "stock and parts?"
  entity := none

def plainEncoding : Encoding Cell Unit Unit := ⟨fun _ => .ok (), fun _ => .ok ()⟩

def plainContext : Context Cell where
  query := "stock and parts?"
  entity := none
  toolPlan := some ["sql", "graph"]
  rowLimit := 200
  resultTransform := none
  semanticCatalog := none
  answer _ := .ok ⟨"", none⟩

/-- Where both tools fail, the error of the second one is in the response. -/
theorem not_undisclosed_both_failed :
    ∃ progress summary,
      executePlan (failingEnv "Variable `p` not defined") twoPlan = .ok progress ∧
      progress.output.queryFailure ≠ none ∧
      progress.output.result .graph = some summary ∧ summary.error ≠ none ∧
      ¬ Undisclosed plainEncoding "analyst" plainContext twoPlan progress .graph := by
  refine ⟨_, _, rfl, Option.some_ne_none _, rfl, Option.some_ne_none _, fun hundisclosed => ?_⟩
  have heq := hundisclosed (failingEnv "Variable `q` not defined") _ rfl
    (.cons (Or.inl rfl) (.cons (Or.inr ⟨rfl, rfl, ⟨rfl, rfl⟩,
      ⟨Option.some_ne_none _, Option.some_ne_none _⟩, rfl⟩) .nil))
  have herror := congrArg (fun response => response.toOption.map fun r =>
    r.1.graphResult.map QueryOutcome.error) heq
  revert herror
  decide +kernel

/-- The plan with the tool that the preferred failure names. -/
theorem undisclosed_iff_both_failed :
    ∃ progress, executePlan (failingEnv "Variable `p` not defined") twoPlan = .ok progress ∧
      (Undisclosed plainEncoding "analyst" plainContext twoPlan progress .sql ↔
        Withheld (recordedFailures progress.handled) .sql ∨ Skipped progress.handled .sql ∨
          ¬ Encodable plainEncoding plainContext progress.output) := by
  have hplan : validateSubqueries (fun _ => "") false (.array (twoPlan.map Subquery.toJson)) =
      .ok twoPlan := by rfl
  exact ⟨_, rfl, undisclosed_iff hplan _ _ _
    (show executePlan (failingEnv "Variable `p` not defined") twoPlan = .ok _ from rfl)
    (Option.some_ne_none _) rfl (Option.some_ne_none _)⟩

end Chat
