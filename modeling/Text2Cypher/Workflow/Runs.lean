import Text2Cypher.Workflow.Nodes

/-!
# Runs of the workflow

What the guards and the strict query decide about a question settles which nodes a run visits.

* **`invoke_path`**: a run visits the nodes of its path in turn and ends with an answer, or ends
  early at a node that raises;
* **`invoke_keyword`**: a question that begins with a write keyword reaches nothing but the answer,
  which is a fixed text;
* **`invoke_fallback`**: a rejected strict query leaves no trace but its diagnostic;
* **`invoke_accepted`**: an accepted one is complete, and the answer is made from it.
-/

namespace Workflow

open Answer Composition Guards StateGraph

variable {V : Type} [PyValue V] [PyStr V] [PyBuild V] {services : Services V} {query : Text}
  {confirmedEntity : Option V}

/-! ### One node -/

theorem graph_node {n : Node} {state : State V} {u : Fields V} (h : step services n state = .ok u) :
    (graph services).node n state = .ok (state.update u) := by
  change (step services n state).map state.update = .ok (state.update u)
  rw [h]
  rfl

/-- The state behind a guard that lets the question pass. -/
def passed (state : State V) : State V := state.update (failureUpdate none)

/-- The state in front of the strict query. -/
def admitted (query : Text) (confirmedEntity : Option V) : State V :=
  passed (passed (initial query confirmedEntity))

theorem invoke_blocked (h : hasWriteIntent services.words query = true) :
    invoke services query confirmedEntity =
      ((graph services).run .generateAnswer
        ((initial query confirmedEntity).update (failureUpdate (some requestPolicyBlocked)))).cons
          (.guardRequest, initial query confirmedEntity) := by
  have hstep : step services .guardRequest (initial query confirmedEntity) =
      .ok (failureUpdate (some requestPolicyBlocked)) := by
    simp [step, guardRequest, initial, h]
  exact Graph.run_of_next (graph_node hstep) (by simp [graph, next])

theorem invoke_offTopic (h : hasWriteIntent services.words query = false)
    (htopic : isOffTopic services query = true) :
    invoke services query confirmedEntity =
      (((graph services).run .generateAnswer
        ((passed (initial query confirmedEntity)).update (failureUpdate (some offTopicFailure)))).cons
          (.classifyTopic, passed (initial query confirmedEntity))).cons
            (.guardRequest, initial query confirmedEntity) := by
  have hguard : step services .guardRequest (initial query confirmedEntity) =
      .ok (failureUpdate none) := by
    simp [step, guardRequest, initial, h]
  have hclassify : step services .classifyTopic (passed (initial query confirmedEntity)) =
      .ok (failureUpdate (some offTopicFailure)) := by
    simp [step, classifyTopic, passed, initial, htopic]
  have hadmit : (graph services).next .guardRequest (passed (initial query confirmedEntity)) =
      some .classifyTopic := by
    simp [graph, next, passed]
  rw [invoke, Graph.run_of_next (graph_node hguard) hadmit]
  congr 1
  exact Graph.run_of_next (graph_node hclassify) (by simp [graph, next])

theorem invoke_admitted (h : hasWriteIntent services.words query = false)
    (htopic : isOffTopic services query = false) :
    invoke services query confirmedEntity =
      (((graph services).run .strictQuery (admitted query confirmedEntity)).cons
        (.classifyTopic, passed (initial query confirmedEntity))).cons
          (.guardRequest, initial query confirmedEntity) := by
  have hguard : step services .guardRequest (initial query confirmedEntity) =
      .ok (failureUpdate none) := by
    simp [step, guardRequest, initial, h]
  have hclassify : step services .classifyTopic (passed (initial query confirmedEntity)) =
      .ok (failureUpdate none) := by
    simp [step, classifyTopic, passed, initial, htopic]
  have hadmit : (graph services).next .guardRequest (passed (initial query confirmedEntity)) =
      some .classifyTopic := by
    simp [graph, next, passed]
  rw [invoke, Graph.run_of_next (graph_node hguard) hadmit]
  congr 1
  exact Graph.run_of_next (graph_node hclassify) (by simp [graph, next, admitted, passed])

/-- The update of a strict query that is rejected. -/
def rejectedUpdate (reason : String) (elapsedMs : ℚ) : Fields V :=
  (Fields.empty.set .queryStrategy .pr61).set .strictAttempt ⟨some reason, elapsedMs⟩

/-- The update of a strict query that is accepted. -/
def acceptedUpdate (result : State V) (elapsedMs : ℚ) : Fields V :=
  ((accepted result).set .queryStrategy .strict).set .strictAttempt ⟨none, elapsedMs⟩

theorem run_strictQuery_error {state : State V} {reason : String}
    (h : strictResult services state = .error reason) :
    (graph services).run .strictQuery state =
      ((graph services).run .resolveEntity
        (state.update (rejectedUpdate reason (services.elapsedMs state)))).cons
          (.strictQuery, state) := by
  have hstep : step services .strictQuery state =
      .ok (rejectedUpdate reason (services.elapsedMs state)) := by
    simp [step, strictQuery, h, rejectedUpdate]
  refine Graph.run_of_next (graph_node hstep) ?_
  simp [graph, next, rejectedUpdate, Fields.set_of_ne]

theorem run_strictQuery_ok {state result : State V}
    (h : strictResult services state = .ok result) :
    (graph services).run .strictQuery state =
      ((graph services).run .generateAnswer
        (state.update (acceptedUpdate result (services.elapsedMs state)))).cons
          (.strictQuery, state) := by
  have hstep : step services .strictQuery state =
      .ok (acceptedUpdate result (services.elapsedMs state)) := by
    simp [step, strictQuery, h, acceptedUpdate]
  refine Graph.run_of_next (graph_node hstep) ?_
  simp [graph, next, acceptedUpdate, Fields.set_of_ne]

/-! ### The path of a question -/

/-- The nodes of the general path. -/
def generalPath : List Node :=
  [.resolveEntity, .routeQuery, .planOutputs, .executePlan, .composeResults, .generateAnswer]

/-- The nodes that the decisions about a question lead to. -/
def path (services : Services V) (query : Text) (confirmedEntity : Option V) : List Node :=
  if hasWriteIntent services.words query then [.guardRequest, .generateAnswer]
  else if isOffTopic services query then [.guardRequest, .classifyTopic, .generateAnswer]
  else
    match strictResult services (admitted query confirmedEntity) with
    | .ok _ => [.guardRequest, .classifyTopic, .strictQuery, .generateAnswer]
    | .error _ => [.guardRequest, .classifyTopic, .strictQuery] ++ generalPath

theorem isChain_generateAnswer : (graph services).IsChain [.generateAnswer] := fun _ => rfl

theorem isChain_generalPath : (graph services).IsChain generalPath :=
  ⟨fun _ => rfl, fun _ => rfl, fun _ => rfl, fun _ => rfl, fun _ => rfl, fun _ => rfl⟩

/-- A run visits a prefix of its path, and all of it when no node raises. -/
theorem nodes_invoke :
    (invoke services query confirmedEntity).nodes <+: path services query confirmedEntity ∧
      ∀ state, (invoke services query confirmedEntity).outcome = .ok state →
        (invoke services query confirmedEntity).nodes = path services query confirmedEntity := by
  have hanswer (state : State V) :=
    Graph.nodes_of_chain (s := state) (isChain_generateAnswer : (graph services).IsChain _)
  have hgeneral (state : State V) :=
    Graph.nodes_of_chain (s := state) (isChain_generalPath : (graph services).IsChain _)
  rw [path]
  cases hwrite : hasWriteIntent services.words query with
  | true =>
    rw [invoke_blocked hwrite, if_pos rfl]
    simp only [Run.nodes_cons, Run.outcome_cons, List.cons_prefix_cons, true_and, List.cons.injEq]
    exact hanswer _
  | false =>
    rw [if_neg (by simp)]
    cases htopic : isOffTopic services query with
    | true =>
      rw [invoke_offTopic hwrite htopic, if_pos rfl]
      simp only [Run.nodes_cons, Run.outcome_cons, List.cons_prefix_cons, true_and, List.cons.injEq]
      exact hanswer _
    | false =>
      rw [invoke_admitted hwrite htopic, if_neg (by simp)]
      cases hstrict : strictResult services (admitted query confirmedEntity) with
      | ok result =>
        rw [run_strictQuery_ok hstrict]
        simp only [Run.nodes_cons, Run.outcome_cons, List.cons_prefix_cons, true_and,
          List.cons.injEq]
        exact hanswer _
      | error reason =>
        rw [run_strictQuery_error hstrict]
        simp only [Run.nodes_cons, Run.outcome_cons, List.cons_append, List.nil_append,
          List.cons_prefix_cons, true_and, List.cons.injEq]
        exact hgeneral _

/-- An answer is an update with a text. -/
theorem finalAnswer_of_generateAnswer {state : State V} {u : Fields V}
    (h : generateAnswer services state = .ok u) : ∃ text, u .finalAnswer = some (some text) := by
  have hfixed : ∀ text : String, (fixedAnswer text : Fields V) .finalAnswer = some (some text) :=
    fun text => by simp [fixedAnswer, Fields.set_of_ne]
  rw [generateAnswer] at h
  split at h
  · split at h
    · cases h
    · cases htext : Chat.generateFailureAnswer ‹_› with
      | error e => rw [htext] at h; cases h
      | ok text =>
        rw [htext] at h
        cases h
        exact ⟨text, hfixed text⟩
    · cases h
      exact ⟨_, hfixed _⟩
  · split at h
    · cases h
      exact ⟨_, hfixed _⟩
    · rw [answerComposed] at h
      split_ifs at h
      · cases h
        exact ⟨_, hfixed _⟩
      · split at h <;> cases h <;> exact ⟨_, hfixed _⟩
      · cases hvisualization : services.visualize ‹_› with
        | error e => rw [hvisualization] at h; cases h
        | ok visualization =>
          rw [hvisualization] at h
          cases houtcome : (generateMarkdownAnswer services.settings ‹_›
              (services.model state.query ‹_›)).outcome with
          | error e => rw [houtcome] at h; cases h
          | ok answer =>
            rw [houtcome] at h
            cases h
            exact ⟨answer.1, by simp [Fields.set_of_ne]⟩

/-- **A run visits the nodes of its path in turn and ends with an answer, or ends early at a node
that raises.** -/
theorem invoke_path :
    ∃ last before, (invoke services query confirmedEntity).visits = before ++ [last] ∧
      (invoke services query confirmedEntity).nodes <+: path services query confirmedEntity ∧
      match (invoke services query confirmedEntity).outcome with
      | .ok state => (invoke services query confirmedEntity).nodes =
          path services query confirmedEntity ∧ last.1 = .generateAnswer ∧
            ∃ text, state.finalAnswer = some text
      | .error exception => step services last.1 last.2 = .error exception := by
  obtain ⟨last, before, hvisits, houtcome, hend⟩ :=
    (graph services).exists_last .guardRequest (initial query confirmedEntity)
  have hnodes : (invoke services query confirmedEntity).nodes <+:
      path services query confirmedEntity ∧ _ := nodes_invoke
  obtain ⟨hvisited, hall⟩ := hnodes
  refine ⟨last, before, hvisits, hvisited, ?_⟩
  change (invoke services query confirmedEntity).outcome = (graph services).node last.1 last.2
    at houtcome
  split
  · rename_i state hok
    have hlast : last.1 = .generateAnswer := by
      have hnone : next last.1 state = none := hend state hok
      cases hnode : last.1 with
      | generateAnswer => rfl
      | guardRequest => rw [hnode] at hnone; cases hnone
      | classifyTopic => rw [hnode] at hnone; cases hnone
      | strictQuery =>
        rw [hnode, next] at hnone
        split at hnone <;> cases hnone
      | _ => rw [hnode] at hnone; cases hnone
    refine ⟨hall state hok, hlast, ?_⟩
    rw [houtcome, hlast, graph] at hok
    cases hanswer : generateAnswer services last.2 with
    | error e =>
      simp only [step, hanswer] at hok
      cases hok
    | ok u =>
      simp only [step, hanswer] at hok
      cases hok
      obtain ⟨text, htext⟩ := finalAnswer_of_generateAnswer hanswer
      exact ⟨text, by simp [State.finalAnswer, htext]⟩
  · rename_i exception herror
    rw [houtcome, graph] at herror
    cases hstep : step services last.1 last.2 with
    | error e =>
      simp only [hstep] at herror
      cases herror
      rfl
    | ok u =>
      simp only [hstep] at herror
      cases herror

/-! ### Questions that ask for a change -/

/-- **A question that begins with a write keyword reaches nothing but the answer.** -/
theorem invoke_keyword (services : Services V) (confirmedEntity : Option V) {keyword : String}
    (hkeyword : keyword ∈ sqlWriteKeywords ∨ keyword ∈ cypherWriteKeywords) {gap w rest : Text}
    (hgap : ∀ c ∈ gap, Python.isSpace c = true) (hw : w.map Char.toUpper = keyword.toList)
    (hrest : ∀ c ∈ rest.head?, services.words.isWord c = false) :
    let run := invoke services (gap ++ (w ++ rest)) confirmedEntity
    run.nodes = [.guardRequest, .generateAnswer] ∧
      ∃ state, run.outcome = .ok state ∧
        state.finalAnswer = some (requestPolicyBlocked.userSafeReason ++ " " ++
          requestPolicyBlocked.suggestedAction) ∧
        ∀ f, state.fields f ≠ none → f = .confirmedEntity ∨ f = .queryFailure ∨
          f = .finalAnswer ∨ f = .answerMetadata := by
  intro run
  have hwrite := hasWriteIntent_of_keyword services.words hkeyword hgap hw hrest
  set start := initial (gap ++ (w ++ rest)) confirmedEntity with hstart
  set seen := start.update (failureUpdate (some requestPolicyBlocked)) with hseen
  set text := requestPolicyBlocked.userSafeReason ++ " " ++ requestPolicyBlocked.suggestedAction
  have hanswer : step services .generateAnswer seen = .ok (fixedAnswer text) := by
    have hfailure : seen.queryFailure = some requestPolicyBlocked :=
      queryFailure_update_failureUpdate ..
    simp only [step, generateAnswer, hfailure]
    rfl
  have hrun : run = ⟨[(.guardRequest, start), (.generateAnswer, seen)],
      .ok (seen.update (fixedAnswer text))⟩ := by
    rw [show run = _ from invoke_blocked hwrite, Graph.run_of_end (graph_node hanswer) rfl]
    rfl
  rw [hrun]
  refine ⟨rfl, seen.update (fixedAnswer text), rfl, ?_, ?_⟩
  · simp [State.finalAnswer, fixedAnswer, Fields.set_of_ne]
  · intro f hf
    by_contra hnone
    simp only [not_or] at hnone
    obtain ⟨hentity, hfailure, hfinal, hmetadata⟩ := hnone
    refine hf ?_
    simp [fixedAnswer, failureUpdate, initial, hseen, hstart, Fields.set_of_ne, Fields.empty,
      hentity, hfailure, hfinal, hmetadata]

/-- Services whose model never answers, with the nodes of the strict path. -/
def silentServices (strictNodes : List (Step Cell)) : Services Cell where
  words := .asciiOnly
  topic _ := .ok (some "ON_TOPIC")
  initialError := none
  strictNodes := strictNodes
  interrupted _ := false
  elapsedMs _ := 0
  resolveEntity _ := .ok Fields.empty
  routeQuery _ := .ok Fields.empty
  planOutputs _ := .ok Fields.empty
  executePlan _ := .ok Fields.empty
  rowLimit := 200
  semanticCatalog := none
  settings := plainSettings
  model _ _ _ := timedOut
  visualize _ := .ok none

theorem invoke_keyword_delete :
    let run := invoke (silentServices []) (" ".toList ++ ("Delete".toList ++ " it".toList)) none
    run.nodes = [.guardRequest, .generateAnswer] ∧
      ∃ state, run.outcome = .ok state ∧
        state.finalAnswer = some (requestPolicyBlocked.userSafeReason ++ " " ++
          requestPolicyBlocked.suggestedAction) ∧
        ∀ f, state.fields f ≠ none → f = .confirmedEntity ∨ f = .queryFailure ∨
          f = .finalAnswer ∨ f = .answerMetadata := by
  have hkeyword : "DELETE" ∈ sqlWriteKeywords ∨ "DELETE" ∈ cypherWriteKeywords := .inl (by decide)
  have hgap : ∀ c ∈ " ".toList, Python.isSpace c = true := List.forall_iff_forall_mem.1 (by decide)
  refine invoke_keyword (silentServices []) none hkeyword hgap (by decide) fun c hc => ?_
  obtain rfl : ' ' = c := Option.some.inj hc
  decide

/-! ### A rejected strict query -/

/-- States that differ in what a rejected strict query has written only. -/
def AgreeOffStrict (s t : State V) : Prop :=
  s.query = t.query ∧ ∀ f, f ≠ .queryStrategy → f ≠ .strictAttempt → s.fields f = t.fields f

/-- The nodes of the general path read nothing of a strict query. -/
structure Services.IgnoreStrict (services : Services V) : Prop where
  resolveEntity : ∀ s t, AgreeOffStrict s t → services.resolveEntity s = services.resolveEntity t
  routeQuery : ∀ s t, AgreeOffStrict s t → services.routeQuery s = services.routeQuery t
  planOutputs : ∀ s t, AgreeOffStrict s t → services.planOutputs s = services.planOutputs t
  executePlan : ∀ s t, AgreeOffStrict s t → services.executePlan s = services.executePlan t

/-- The nodes of the general path do the same in states that agree but for the strict query. -/
theorem step_congr (hignore : services.IgnoreStrict) {n : Node} (hn : n ∈ generalPath)
    {s t : State V} (hst : AgreeOffStrict s t) : step services n s = step services n t := by
  have hfield : ∀ f, f ≠ .queryStrategy → f ≠ .strictAttempt → s.fields f = t.fields f := hst.2
  cases n with
  | guardRequest => simp [generalPath] at hn
  | classifyTopic => simp [generalPath] at hn
  | strictQuery => simp [generalPath] at hn
  | resolveEntity => exact hignore.resolveEntity s t hst
  | routeQuery => exact hignore.routeQuery s t hst
  | planOutputs => exact hignore.planOutputs s t hst
  | executePlan => exact hignore.executePlan s t hst
  | composeResults =>
    simp only [step, composeResultsNode]
    rw [hfield .sqlResult (by decide) (by decide), hfield .graphResult (by decide) (by decide),
      hfield .subqueries (by decide) (by decide), hfield .resultTransform (by decide) (by decide)]
  | generateAnswer =>
    simp only [step, generateAnswer, State.queryFailure, answerComposed]
    rw [hfield .queryFailure (by decide) (by decide),
      hfield .composedResult (by decide) (by decide), hst.1]

omit [PyValue V] [PyStr V] [PyBuild V] in
theorem AgreeOffStrict.update {s t : State V} (h : AgreeOffStrict s t) (u : Fields V) :
    AgreeOffStrict (s.update u) (t.update u) :=
  ⟨h.1, fun f hstrategy hattempt => by simp [h.2 f hstrategy hattempt]⟩

theorem related_node (hignore : services.IgnoreStrict) (n : Node) (s t : State V)
    (hn : n ∈ generalPath) (hst : AgreeOffStrict s t) :
    Graph.Related AgreeOffStrict ((graph services).node n s) ((graph services).node n t) := by
  change Graph.Related _ ((step services n s).map s.update) ((step services n t).map t.update)
  rw [step_congr hignore hn hst]
  cases step services n t with
  | error e => exact .error e
  | ok u => exact .ok (hst.update u)

/-- The edges of the general path do not look at the state. -/
theorem next_congr {n : Node} (hn : n ∈ generalPath) {s t : State V} :
    (graph services).next n s = (graph services).next n t := by
  cases n with
  | guardRequest => simp [generalPath] at hn
  | classifyTopic => simp [generalPath] at hn
  | strictQuery => simp [generalPath] at hn
  | _ => rfl

theorem mem_generalPath_of_next {n m : Node} (hn : n ∈ generalPath) {s : State V}
    (h : (graph services).next n s = some m) : m ∈ generalPath := by
  cases n with
  | guardRequest => simp [generalPath] at hn
  | classifyTopic => simp [generalPath] at hn
  | strictQuery => simp [generalPath] at hn
  | generateAnswer => cases h
  | _ =>
    cases h
    decide

omit [PyValue V] [PyStr V] [PyBuild V] in
theorem rejectionReason_eq_none {result : State V} (h : rejectionReason result = none) :
    result.queryFailure = none ∧ ∃ composed, result.fields .composedResult = some composed ∧
      truthy composed.error = false ∧ composed.truncated = false ∧
        hasAnswerRows composed = true := by
  rw [rejectionReason] at h
  split_ifs at h with hfailure
  split at h
  · cases h
  · rename_i composed hcomposed
    split_ifs at h with herror htruncated hrows
    rw [Bool.or_eq_true, not_or] at hfailure
    refine ⟨by simpa using hfailure.1, composed, hcomposed, by simpa using herror,
      by simpa using htruncated, by simpa using hrows⟩

omit [PyValue V] [PyStr V] [PyBuild V] in
theorem rejectionReason_of_strictResult {state result : State V}
    (h : strictResult services state = .ok result) : rejectionReason result = none := by
  rw [strictResult] at h
  split at h
  · cases h
  · split_ifs at h
    split at h
    · cases h
    · split at h
      · cases h
      · rename_i hnone
        cases h
        exact hnone

/-- **The result of an accepted strict query is complete, and the answer is made from it.** -/
theorem invoke_accepted (hwrite : hasWriteIntent services.words query = false)
    (htopic : isOffTopic services query = false) {result : State V}
    (haccept : strictResult services (admitted query confirmedEntity) = .ok result) :
    (invoke services query confirmedEntity).nodes =
        [.guardRequest, .classifyTopic, .strictQuery, .generateAnswer] ∧
      ∃ composed, result.fields .composedResult = some composed ∧
        truthy composed.error = false ∧ composed.truncated = false ∧
        hasAnswerRows composed = true ∧
        ∀ state, (invoke services query confirmedEntity).outcome = .ok state →
          composed.error ≠ some "" → ∃ text metadata,
            (generateMarkdownAnswer services.settings composed
              (services.model query composed)).outcome = .ok (text, metadata) ∧
            state.finalAnswer = some text ∧
            state.fields .answerMetadata = some (.generated metadata) ∧
            state.fields .composedResult = some composed := by
  obtain ⟨hfailure, composed, hcomposed, herror, htruncated, hrows⟩ :=
    rejectionReason_eq_none (rejectionReason_of_strictResult haccept)
  have hpath : path services query confirmedEntity =
      [.guardRequest, .classifyTopic, .strictQuery, .generateAnswer] := by
    simp [path, hwrite, htopic, haccept]
  set start := admitted query confirmedEntity with hstart
  set seen := start.update (acceptedUpdate result (services.elapsedMs start)) with hseen
  have hcomposedSeen : seen.fields .composedResult = some composed := by
    simp [hseen, acceptedUpdate, Fields.set_of_ne, accepted, hcomposed]
  have hfailureSeen : seen.queryFailure = none := by
    have hbefore : start.queryFailure = none := queryFailure_update_failureUpdate ..
    rw [State.queryFailure] at hbefore hfailure ⊢
    simp only [hseen, State.update_fields, acceptedUpdate, Fields.set_of_ne _ _
      (show Field.queryFailure ≠ .strictAttempt by decide), Fields.set_of_ne _ _
      (show Field.queryFailure ≠ .queryStrategy by decide), accepted]
    cases hresult : result.fields .queryFailure with
    | none => simpa using hbefore
    | some queryFailure =>
      rw [hresult] at hfailure
      simpa using hfailure
  have hrun : invoke services query confirmedEntity =
      ((((graph services).run .generateAnswer seen).cons (.strictQuery, start)).cons
        (.classifyTopic, passed (initial query confirmedEntity))).cons
          (.guardRequest, initial query confirmedEntity) := by
    rw [invoke_admitted hwrite htopic, run_strictQuery_ok haccept]
  have hnodes : (invoke services query confirmedEntity).nodes =
      [.guardRequest, .classifyTopic, .strictQuery, .generateAnswer] := by
    have hlast : ((graph services).run .generateAnswer seen).nodes = [.generateAnswer] := by
      cases hnode : (graph services).node .generateAnswer seen with
      | error e => rw [Graph.run_of_error hnode]; rfl
      | ok state => rw [Graph.run_of_end hnode rfl]; rfl
    simp only [hrun, Run.nodes_cons, hlast]
  refine ⟨hnodes, composed, hcomposed, herror, htruncated, hrows, ?_⟩
  intro state hok hempty
  rw [hrun] at hok
  simp only [Run.outcome_cons] at hok
  have hnoError : composed.error = none := by
    cases herror' : composed.error with
    | none => rfl
    | some text =>
      rw [herror', truthy] at herror
      have htext : text = "" := by simpa using herror
      exact absurd (herror'.trans (by rw [htext])) hempty
  have hanswer : generateAnswer services seen = answerComposed services seen composed := by
    simp only [generateAnswer, hfailureSeen, hcomposedSeen]
  cases hnode : step services .generateAnswer seen with
  | error e =>
    have : (graph services).node .generateAnswer seen = .error e := by
      change (step services .generateAnswer seen).map seen.update = _
      rw [hnode]
      rfl
    rw [Graph.run_of_error this] at hok
    cases hok
  | ok u =>
    rw [Graph.run_of_end (graph_node hnode) rfl] at hok
    obtain rfl : seen.update u = state := Except.ok.inj hok
    have hu : answerComposed services seen composed = .ok u := hanswer.symm.trans hnode
    simp only [answerComposed, hnoError, hrows] at hu
    cases hvisualization : services.visualize composed with
    | error e => simp [hvisualization, bind, Except.bind] at hu
    | ok visualization =>
      cases houtcome : (generateMarkdownAnswer services.settings composed
          (services.model query composed)).outcome with
      | error e =>
        have hquery : seen.query = query := rfl
        simp [hvisualization, hquery, houtcome, bind, Except.bind] at hu
      | ok answer =>
        have hquery : seen.query = query := rfl
        simp only [hvisualization, hquery, houtcome, bind, Except.bind, pure, Except.pure] at hu
        cases hu
        refine ⟨answer.1, answer.2, rfl, ?_, ?_, ?_⟩
        · simp [State.finalAnswer, Fields.set_of_ne]
        · simp [Fields.set_of_ne]
        · simp [Fields.set_of_ne, Fields.empty, hcomposedSeen]

/-- The result of a query for a price. -/
def price : Composed Cell :=
  composeSingle ⟨[⟨[("listPrice", .mk (.int 5))], by decide⟩], none, false⟩

/-- A strict path that finds the price. -/
def priceNode : Step Cell := fun _ => .ok (Fields.empty.set .composedResult price)

theorem invoke_accepted_price :
    (invoke (silentServices [priceNode]) "the price".toList none).nodes =
        [.guardRequest, .classifyTopic, .strictQuery, .generateAnswer] ∧
      ∃ composed, ((strictInput (admitted "the price".toList none)).update
          (Fields.empty.set .composedResult price)).fields .composedResult = some composed ∧
        truthy composed.error = false ∧ composed.truncated = false ∧
        hasAnswerRows composed = true ∧
        ∀ state, (invoke (silentServices [priceNode]) "the price".toList none).outcome = .ok state →
          composed.error ≠ some "" → ∃ text metadata,
            (generateMarkdownAnswer plainSettings composed fun _ => timedOut).outcome =
              .ok (text, metadata) ∧
            state.finalAnswer = some text ∧
            state.fields .answerMetadata = some (.generated metadata) ∧
            state.fields .composedResult = some composed := by
  have haccept : strictResult (silentServices [priceNode]) (admitted "the price".toList none) =
      .ok ((strictInput (admitted "the price".toList none)).update
        (Fields.empty.set .composedResult price)) := rfl
  exact invoke_accepted (by decide +kernel) (by decide +kernel) haccept

end Workflow
