import Text2Cypher.Answer.Generation
import Text2Cypher.Chat.Disclosure
import Text2Cypher.Composition.Limits
import Text2Cypher.Execution.Fetching

/-!
# Truncation from the databases to the answer

A query whose rows are cut at the limit leaves its mark on everything that is made of them: the
batch, the state of the agent, the result of the tool, the composed result, the context of the
answer, and the caveat in the answer.  What counts is the last query that an agent executed; the
results of earlier attempts are dropped.

* `hasCaveat_renderChecked`, `hasCaveat_renderFallbackAnswer`: the caveat stands in both answers;
* `truncation_reported`: the whole way, and back from an exact total to complete rows.
-/

namespace Answer

open Checks Composition Execution Planning Python Query Retry

/-! ### The caveat -/

/-- The words that all caveats begin with. -/
def partialDataCaveat : String := "일부 결과만 바탕으로 한 답변"

/-- A text contains a caveat about partial data. -/
def HasCaveat (text : String) : Prop := partialDataCaveat.toList <:+: text.toList

theorem dropWhile_append_of_neg {p : Char → Bool} {c : Char} (hc : p c = false) (s t : Text) :
    ∃ s', (s ++ c :: t).dropWhile p = s' ++ c :: t := by
  induction s with
  | nil => exact ⟨[], List.dropWhile_cons_of_neg (by simp [hc])⟩
  | cons d s ih =>
    by_cases hd : p d = true
    · rw [List.cons_append, List.dropWhile_cons_of_pos hd]
      exact ih
    · exact ⟨d :: s, List.dropWhile_cons_of_neg hd⟩

/-- `str.strip` leaves what stands between two characters that are no blanks. -/
theorem infix_strip {c d : Char} (hc : isSpace c = false) (hd : isSpace d = false) (s t : Text) :
    c :: (t ++ [d]) <:+: strip (s ++ c :: (t ++ [d])) := by
  obtain ⟨s', hs'⟩ := dropWhile_append_of_neg hc s (t ++ [d])
  have hreverse : (s' ++ c :: (t ++ [d])).reverse = d :: (s' ++ c :: t).reverse := by simp
  rw [strip, hs', hreverse, List.dropWhile_cons_of_neg (by simp [hd]), ← hreverse,
    List.reverse_reverse]
  exact (List.suffix_append s' _).isInfix

/-- A line between asterisks at the end of an answer. -/
theorem hasCaveat_stripped {lines : List String} (hlines : lines ≠ []) {caveat : String}
    (h : HasCaveat caveat) :
    HasCaveat (stripped ("\n".intercalate (lines ++ ["", "*" ++ caveat ++ "*"]))) := by
  have hjoin : ("\n".intercalate (lines ++ ["", "*" ++ caveat ++ "*"])).toList =
      ("\n".intercalate lines ++ "\n" ++ "\n").toList ++ '*' :: (caveat.toList ++ ['*']) := by
    rw [String.intercalate_append_of_ne_nil hlines (List.cons_ne_nil _ _),
      String.intercalate_cons_cons, String.intercalate_singleton]
    simp only [String.toList_append, List.append_assoc]
    rfl
  have hstar : isSpace '*' = false := by decide
  have hline := infix_strip hstar hstar ("\n".intercalate lines ++ "\n" ++ "\n").toList caveat.toList
  rw [← hjoin] at hline
  unfold HasCaveat stripped
  rw [String.toList_ofList]
  refine h.trans (List.IsInfix.trans ?_ hline)
  exact ⟨['*'], ['*'], rfl⟩

section

variable {V : Type} [PyValue V] [PyStr V] [PyBuild V]

/-- The structured answer for a context with missing rows. -/
theorem hasCaveat_renderChecked {floats : Floats} {parsed : Dict String V}
    {context : AnswerContext V} {text : String}
    (h : renderChecked floats parsed context = .ok text) (htruncated : context.sourceTruncated = true)
    (hexact : context.totalCountIsExact = false) : HasCaveat text := by
  simp only [renderChecked, renderAnswerMarkdown, bind_eq_ok, pure_eq_ok] at h
  obtain ⟨highlighted, -, sections, -, summary, -, body, -, rfl⟩ := h
  have hcaveat : caveatTemplate context =
      some "일부 결과만 바탕으로 한 답변이며, 전체 건수는 정확하지 않을 수 있습니다." := by
    simp [caveatTemplate, htruncated, hexact]
  have hstripped : stripped "일부 결과만 바탕으로 한 답변이며, 전체 건수는 정확하지 않을 수 있습니다." =
      "일부 결과만 바탕으로 한 답변이며, 전체 건수는 정확하지 않을 수 있습니다." := by decide +kernel
  rw [hcaveat, caveatLines, hstripped, ← List.cons_append]
  refine hasCaveat_stripped (List.cons_ne_nil _ _) ?_
  unfold HasCaveat
  decide +kernel

/-- The fallback answer for a result with missing rows. -/
theorem hasCaveat_renderFallbackAnswer {floats : Floats} {composed : Composed V} {text : String}
    (h : renderFallbackAnswer floats composed = .ok text) (htruncated : composed.truncated = true) :
    HasCaveat text := by
  simp only [renderFallbackAnswer, bind_eq_ok, pure_eq_ok] at h
  obtain ⟨lines, -, rfl⟩ := h
  rw [if_pos (Or.inl htruncated), ← List.cons_append]
  have hline : "*일부 결과만 바탕으로 한 답변입니다.*" =
      "*" ++ "일부 결과만 바탕으로 한 답변입니다." ++ "*" := by decide +kernel
  rw [hline]
  refine hasCaveat_stripped (List.cons_ne_nil _ _) ?_
  unfold HasCaveat
  decide +kernel

/-! ### Executed queries and results -/

/-- The queries that were executed for a subquery, with the number of the attempt. -/
def executedBy (configs : ToolName → Config V) (h : Handled V) : List (ℕ × String) :=
  match h.invoked with
  | none => []
  | some (input, _) => executions (run (configs h.subquery.tool) input).1

/-- An executed query has more rows than the limit. -/
def Exceeds (databases : Databases V) (rowLimit : ℤ) (tool : ToolName) (execution : ℕ × String) :
    Prop :=
  ∃ rows, databases.rows tool execution.1 execution.2 = .ok rows ∧ rowLimit < rows.length

/-- The result of a subquery with all rows of the last query that was executed for it. -/
def completeResult (databases : Databases V) (configs : ToolName → Config V) (h : Handled V) :
    Source V :=
  match (executedBy configs h).getLast?.map fun e => databases.rows h.subquery.tool e.1 e.2 with
  | some (.ok rows) =>
      { Chat.toSource h.summary with
        result := .list (rows.map Row.dict)
        truncated := some (PyBuild.ofKind (.bool false)) }
  | _ => Chat.toSource h.summary

/-- The results of the tools with all rows. -/
def completeResults (databases : Databases V) (configs : ToolName → Config V)
    (handled : List (Handled V)) (tool : ToolName) : Option (Source V) :=
  (handled.find? fun h => decide (h.subquery.tool = tool)).map (completeResult databases configs)

variable {databases : Databases V} {rowLimit : ℤ} {configs : ToolName → Config V}
  {schemas : ToolName → String} {query : String} {entity : Option V}

omit [PyValue V] [PyStr V] [PyBuild V] in
/-- A subquery that ended without an error reports the batch of the last query. -/
theorem batch_of_reported (hlimit : 0 ≤ rowLimit) {h : Handled V}
    (hreported : Reported
      ⟨fun tool => retryAgent (databases.configs rowLimit configs tool), schemas, query, entity⟩ h)
    (herror : h.summary.error = none) {e : ℕ × String}
    (hlast : (executedBy (databases.configs rowLimit configs) h).getLast? = some e) :
    ∃ rows, databases.rows h.subquery.tool e.1 e.2 = .ok rows ∧
      h.summary.result = .list ((rows.take rowLimit.toNat).map Row.dict) ∧
      h.summary.truncated = decide (rowLimit < rows.length) := by
  unfold Reported at hreported
  unfold executedBy at hlast
  cases hinvoked : h.invoked with
  | none =>
    rw [hinvoked] at hlast
    cases hlast
  | some invoked =>
    obtain ⟨input, s⟩ := invoked
    rw [hinvoked] at hreported hlast
    obtain ⟨hagent, hsummary⟩ := hreported
    rw [hsummary] at herror ⊢
    obtain ⟨attempt, queryText, executed, hlast', hexecuted, hresult, htruncated⟩ :=
      executed_of_run (run_of_retryAgent hagent) herror
    obtain rfl := Option.some.inj (hlast.symm.trans hlast')
    have hexecute : (databases.rows h.subquery.tool attempt queryText).map (fun rows =>
        makeBatch (databases.fetch (rowLimit + 1) rows) rowLimit) = .ok executed := hexecuted
    cases hrows : databases.rows h.subquery.tool attempt queryText with
    | error exception =>
      rw [hrows] at hexecute
      cases hexecute
    | ok rows =>
      rw [hrows] at hexecute
      obtain rfl := Except.ok.inj hexecute
      dsimp only at hresult htruncated
      rw [makeBatch_fetch databases hlimit] at hresult htruncated
      exact ⟨rows, rfl, hresult, htruncated⟩

omit [PyStr V] in
/-- What a source is read from. -/
theorem sourceRows_toSource {subquery : Subquery} {summary : Summary V} {source : SourceRows V}
    (h : sourceRows subquery (some (Chat.toSource summary)) = .ok source) :
    summary.error = none ∧ source.truncated = summary.truncated := by
  have htruncated : ∀ label, readTruncated label (Chat.toSource summary).truncated =
      .ok summary.truncated := by
    intro label
    simp [readTruncated, Chat.toSource, PyBuild.kind_ofKind]
  unfold sourceRows at h
  dsimp only at h
  cases herror : summary.error with
  | some error =>
    have hsource : (Chat.toSource summary).error = some error := herror
    rw [hsource] at h
    cases h
  | none =>
    have hsource : (Chat.toSource summary).error = none := herror
    rw [hsource] at h
    dsimp only at h
    split at h
    · cases h
    · simp only [bind_eq_ok, htruncated, Except.ok.injEq] at h
      obtain ⟨rows, -, truncated, rfl, emptyReason, -, h⟩ := h
      split_ifs at h
      obtain rfl := Except.ok.inj h
      exact ⟨rfl, rfl⟩
    · cases h

/-! ### The whole way -/

section

variable {repr : Json → String} {allowEmpty : Bool} {subqueries : Json} {plan : List Subquery}
  {progress : Progress V}

omit [PyValue V] [PyStr V] [PyBuild V] in
/-- What is known of the handled subqueries of an executed plan. -/
theorem handled_spec {env : Env V} (hplan : ValidPlan plan)
    (hrun : executePlan env plan = .ok progress) :
    (progress.handled.map fun h => h.subquery.tool).Nodup ∧
      ∀ h ∈ progress.handled, h.subquery ∈ plan ∧ Reported env h ∧
        progress.output.result h.subquery.tool = some h.summary := by
  have hperm := perm_of_executePlan hplan.ids hrun
  have htools : (progress.handled.map fun h => h.subquery.tool).Nodup := by
    have hnodup := (hperm.map Subquery.tool).nodup_iff.2 hplan.tools
    rwa [List.map_map] at hnodup
  obtain ⟨hreplay, hreported⟩ := reported_of_executePlan hrun
  refine ⟨htools, fun h hmem => ⟨hperm.mem_iff.1 (List.mem_map_of_mem hmem), hreported h hmem, ?_⟩⟩
  rw [hreplay]
  exact (replay_result htools hmem).1

omit [PyStr V] in
/-- Reading the results of an executed plan raises nothing. -/
theorem settled_results (output : Output V) (plan : List Subquery) :
    Settled (allSourceRows (fun tool => (output.result tool).map Chat.toSource) plan) :=
  settled_allSourceRows _ plan fun q _ s hs label => by
    obtain ⟨summary, -, rfl⟩ := Option.map_eq_some_iff.1 hs
    exact Chat.settled_toSource label summary

omit [PyStr V] in
/-- The source of a handled subquery. -/
theorem source_of_handled {env : Env V} (hplan : ValidPlan plan)
    (hrun : executePlan env plan = .ok progress) {sources : List (SourceRows V)}
    (hsources : allSourceRows (fun tool => (progress.output.result tool).map Chat.toSource) plan =
      .ok sources) {h : Handled V} (hmem : h ∈ progress.handled) :
    h.summary.error = none ∧ ∃ source ∈ sources, source.truncated = h.summary.truncated := by
  obtain ⟨hsubquery, -, hresult⟩ := (handled_spec hplan hrun).2 h hmem
  obtain ⟨source, hsource, hread⟩ :=
    exists_of_forall₂ (forall₂_of_allSourceRows hsources).flip hsubquery
  rw [hresult, Option.map_some] at hread
  obtain ⟨herror, htruncated⟩ := sourceRows_toSource hread
  exact ⟨herror, source, hsource, htruncated⟩

/-- What the user is told of a result with missing rows, if it is no error. -/
def Reports (composed : Composed V) : Prop :=
  composed.truncated = true ∧ ∀ (limits : Limits V) (context : AnswerContext V),
    buildAnswerContext limits composed = .ok context → context.totalCountIsExact = false ∧
      ∀ (floats : Floats) (text : String),
        (∀ parsed, renderChecked floats parsed context = .ok text → HasCaveat text) ∧
          (renderFallbackAnswer floats composed = .ok text → HasCaveat text)

theorem reports_of_truncated {composed : Composed V} (hmode : composed.mode ≠ .joined)
    (htruncated : composed.truncated = true) : Reports composed := by
  refine ⟨htruncated, fun limits context hcontext => ?_⟩
  obtain ⟨hsource, -, -, hexact⟩ := buildAnswerContext_flags hcontext
  have hinexact : context.totalCountIsExact = false := by
    rw [← Bool.not_eq_true, hexact]
    simp [hmode, htruncated]
  refine ⟨hinexact, fun floats text => ⟨fun parsed hrender => ?_, fun hrender => ?_⟩⟩
  · exact hasCaveat_renderChecked hrender (hsource.trans htruncated) hinexact
  · exact hasCaveat_renderFallbackAnswer hrender htruncated

variable {resultTransform : Option (BomShortageTransform V)}
  {semanticCatalog : Option (Dict String TransformSpec)}

/-- Too many rows of a last query are reported, or there is an error. -/
theorem reports_of_exceeds (hplan : ValidPlan plan)
    (hrun : executePlan
      ⟨fun tool => retryAgent (databases.configs rowLimit configs tool), schemas, query, entity⟩
        plan = .ok progress) {h : Handled V} (hmem : h ∈ progress.handled) {e : ℕ × String}
    (hlast : (executedBy (databases.configs rowLimit configs) h).getLast? = some e)
    (hexceeds : Exceeds databases rowLimit h.subquery.tool e) :
    ∃ composed, composeResults plan (fun tool => (progress.output.result tool).map Chat.toSource)
        rowLimit resultTransform semanticCatalog = .ok composed ∧
      (composed.error ≠ none ∨ Reports composed) := by
  rcases composeResults_cases rowLimit resultTransform semanticCatalog plan
      (settled_results progress.output plan) with
    ⟨composed, hcomposed, herror⟩ | ⟨mode, transform, sources, hcomposes, hsources⟩
  · exact ⟨composed, hcomposed, Or.inl herror⟩
  · obtain ⟨hnone, source, hsource, htruncated⟩ := source_of_handled hplan hrun hsources hmem
    have hreported := ((handled_spec hplan hrun).2 h hmem).2.1
    obtain ⟨rows, hrows, -, hflag⟩ := batch_of_reported hcomposes.rowLimit hreported hnone hlast
    obtain ⟨rows', hrows', hlt⟩ := hexceeds
    obtain rfl := Except.ok.inj (hrows.symm.trans hrows')
    rw [hflag, decide_eq_true hlt] at htruncated
    obtain ⟨composed, hcomposed⟩ := exists_composeSources mode plan
      ⟨source, hsource, htruncated⟩ rowLimit.toNat transform
    refine ⟨composed, (hcomposes.composeResults_eq hsources).trans hcomposed, ?_⟩
    by_cases herror : composed.error = none
    · rcases composeSources_truncated hcomposed herror with ⟨hmode, hany⟩ | ⟨-, hall⟩
      · refine Or.inr (reports_of_truncated hmode ?_)
        rw [hany]
        exact List.any_eq_true.2 ⟨source, hsource, htruncated⟩
      · rw [hall source hsource] at htruncated
        cases htruncated
    · exact Or.inl herror

omit [PyStr V] in
/-- A result that is not truncated is complete. -/
theorem completeResult_eq (hlimit : 0 ≤ rowLimit) {h : Handled V}
    (hreported : Reported
      ⟨fun tool => retryAgent (databases.configs rowLimit configs tool), schemas, query, entity⟩ h)
    (herror : h.summary.error = none) (htruncated : h.summary.truncated = false) :
    completeResult databases (databases.configs rowLimit configs) h = Chat.toSource h.summary := by
  unfold completeResult
  cases hlast : (executedBy (databases.configs rowLimit configs) h).getLast? with
  | none => rfl
  | some e =>
    obtain ⟨rows, hrows, hresult, hflag⟩ := batch_of_reported hlimit hreported herror hlast
    have hshort : ¬ rowLimit < rows.length := by
      rw [htruncated] at hflag
      exact of_decide_eq_false hflag.symm
    rw [List.take_of_length_le (by omega)] at hresult
    rw [Option.map_some, hrows]
    show ({ Chat.toSource h.summary with
      result := .list (rows.map Row.dict)
      truncated := some (PyBuild.ofKind (.bool false)) } : Source V) = Chat.toSource h.summary
    rw [← hresult, ← htruncated]
    rfl

omit [PyStr V] in
/-- If no source is truncated, the results with all rows are the results. -/
theorem completeResults_eq (hplan : ValidPlan plan) (hlimit : 0 ≤ rowLimit)
    (hrun : executePlan
      ⟨fun tool => retryAgent (databases.configs rowLimit configs tool), schemas, query, entity⟩
        plan = .ok progress)
    {sources : List (SourceRows V)}
    (hsources : allSourceRows (fun tool => (progress.output.result tool).map Chat.toSource) plan =
      .ok sources) (hcomplete : ∀ source ∈ sources, source.truncated = false) :
    allSourceRows (completeResults databases (databases.configs rowLimit configs)
      progress.handled) plan = .ok sources := by
  rw [← hsources]
  refine allSourceRows_congr fun subquery hsubquery => ?_
  obtain ⟨htools, hhandled⟩ := handled_spec hplan hrun
  have hperm := perm_of_executePlan hplan.ids hrun
  obtain ⟨h, hmem, rfl⟩ := List.mem_map.1 (hperm.mem_iff.2 hsubquery)
  obtain ⟨-, hreported, hresult⟩ := hhandled h hmem
  obtain ⟨herror, source, hsource, htruncated⟩ := source_of_handled hplan hrun hsources hmem
  have hfind : progress.handled.find? (fun h' => decide (h'.subquery.tool = h.subquery.tool)) =
      some h := by
    have hsome : (progress.handled.find? fun h' =>
        decide (h'.subquery.tool = h.subquery.tool)).isSome = true :=
      List.find?_isSome.2 ⟨h, hmem, by simp⟩
    obtain ⟨h', hfound⟩ := Option.isSome_iff_exists.1 hsome
    have htool : h'.subquery.tool = h.subquery.tool := by simpa using List.find?_some hfound
    rw [hfound, List.inj_on_of_nodup_map htools (List.mem_of_find?_eq_some hfound) hmem htool]
  have hcompleteResult := completeResult_eq hlimit hreported herror
    (htruncated.symm.trans (hcomplete source hsource))
  rw [completeResults, hfind, Option.map_some, hresult, Option.map_some, hcompleteResult]

/-- **Truncation is reported from the databases to the answer**: if the last query that was executed
for a subquery has more rows than the limit, the composition ends with an error, or its result, the
context and both answers tell that rows are missing.  And where the context claims an exact total,
it is the number of rows that the last queries give without any limit. -/
theorem truncation_reported (hplan : validateSubqueries repr allowEmpty subqueries = .ok plan)
    (hrun : executePlan
      ⟨fun tool => retryAgent (databases.configs rowLimit configs tool), schemas, query, entity⟩
        plan = .ok progress)
    (resultTransform : Option (BomShortageTransform V))
    (semanticCatalog : Option (Dict String TransformSpec)) :
    (∀ h ∈ progress.handled, ∀ e,
      (executedBy (databases.configs rowLimit configs) h).getLast? = some e →
      Exceeds databases rowLimit h.subquery.tool e →
      ∃ composed, composeResults plan (fun tool => (progress.output.result tool).map Chat.toSource)
          rowLimit resultTransform semanticCatalog = .ok composed ∧
        (composed.error ≠ none ∨ Reports composed)) ∧
    ∀ composed limits context,
      composeResults plan (fun tool => (progress.output.result tool).map Chat.toSource)
        rowLimit resultTransform semanticCatalog = .ok composed →
      composed.error = none → buildAnswerContext limits composed = .ok context →
      context.totalCountIsExact = true →
      ∀ noLimit : ℤ, context.totalCount ≤ noLimit →
        ∃ composed', composeResults plan
            (completeResults databases (databases.configs rowLimit configs) progress.handled)
            noLimit resultTransform semanticCatalog = .ok composed' ∧
          composed'.error = none ∧ composed'.rowCount = context.totalCount := by
  have hvalid := validPlan_of_validateSubqueries hplan
  refine ⟨fun h hmem e hlast hexceeds => reports_of_exceeds hvalid hrun hmem hlast hexceeds, ?_⟩
  intro composed limits context hcomposed herror hcontext hexact noLimit hnoLimit
  obtain ⟨-, htotal, -, hiff⟩ := buildAnswerContext_flags hcontext
  rcases composeResults_cases rowLimit resultTransform semanticCatalog plan
      (settled_results progress.output plan) with
    ⟨failed, hfailed, hne⟩ | ⟨mode, transform, sources, hcomposes, hsources⟩
  · obtain rfl := Except.ok.inj (hcomposed.symm.trans hfailed)
    exact absurd herror hne
  · rw [hcomposes.composeResults_eq hsources] at hcomposed
    have hcomplete : ∀ source ∈ sources, source.truncated = false := by
      rcases composeSources_truncated hcomposed herror with ⟨hmode, hany⟩ | ⟨-, hall⟩
      · have hfalse : composed.truncated = false := (hiff.1 hexact).resolve_left hmode
        rw [hfalse] at hany
        intro source hsource
        exact Bool.eq_false_iff.2 (List.any_eq_false.1 hany.symm source hsource)
      · exact hall
    have hcompleteSources := completeResults_eq hvalid hcomposes.rowLimit hrun hsources hcomplete
    have hcomposes' : Composes plan noLimit resultTransform semanticCatalog mode transform :=
      ⟨hcomposes.mode, by omega, hcomposes.transform⟩
    obtain ⟨composed', hcomposed', herror', hcount⟩ := composeSources_unlimited hcomposed herror
      hvalid.ids noLimit.toNat (by omega)
    refine ⟨composed', (hcomposes'.composeResults_eq hcompleteSources).trans hcomposed', herror', ?_⟩
    rw [hcount, htotal]

end

end

/-! ### A superseded query -/

/-- Two products, or the name of one. -/
def supersededRows (attempt : ℕ) : List (Dict String Cell) :=
  if attempt = 1 then
    [⟨[("productId", .mk (.int 1))], List.nodup_singleton _⟩,
      ⟨[("productId", .mk (.int 2))], List.nodup_singleton _⟩]
  else [⟨[("name", .mk (.str "HL Road Frame"))], List.nodup_singleton _⟩]

/-- Databases where the first query has two rows, and any other query one. -/
def supersededDatabases : Databases Cell where
  rows _ attempt _ := .ok (supersededRows attempt)
  fetch n rows := rows.take n.toNat
  fetch_of_nonneg _ _ _ := rfl

/-- An agent that writes the same query again and again. -/
def namesConfig (_ : ToolName) : Config Cell where
  label := "cypher_agent"
  generate _ _ _ _ := .ok "MATCH (p:Product) RETURN p.name AS name"
  execute _ _ := .ok (.bare .none)
  connectionExceptions _ := false
  retryableExceptions _ := false
  emptyResultFeedback := ""
  guard := none
  queryContractError := none
  resultContractError := none
  redactQuery _ := none

/-- The environment of these agents, with a limit of one row. -/
def supersededEnv : Env Cell :=
  ⟨fun tool => retryAgent (supersededDatabases.configs 1 namesConfig tool), fun _ => "",
    "제품 이름", none⟩

/-- The first query has more rows than the limit, but its rows lack an alias, and the result of the
second one is composed: nothing is truncated. -/
theorem not_reported_superseded :
    ∃ progress composed, executePlan supersededEnv oncePlan = .ok progress ∧
      (∃ h ∈ progress.handled, ∃ e ∈ executedBy (supersededDatabases.configs 1 namesConfig) h,
        Exceeds supersededDatabases 1 h.subquery.tool e) ∧
      composeResults oncePlan (fun tool => (progress.output.result tool).map Chat.toSource) 1 none
        none = .ok composed ∧ composed.error = none ∧ composed.truncated = false := by
  refine ⟨_, _, rfl, ⟨_, List.mem_cons_self, (1, "MATCH (p:Product) RETURN p.name AS name"),
    List.mem_cons_self, supersededRows 1, rfl, by decide⟩, rfl, rfl, rfl⟩

/-- The same plan, for the last query. -/
theorem truncation_reported_superseded :
    ∃ progress, executePlan supersededEnv oncePlan = .ok progress ∧
      ∀ composed limits context,
        composeResults oncePlan (fun tool => (progress.output.result tool).map Chat.toSource) 1 none
          none = .ok composed →
        composed.error = none → buildAnswerContext limits composed = .ok context →
        context.totalCountIsExact = true → ∀ noLimit : ℤ, context.totalCount ≤ noLimit →
          ∃ composed', composeResults oncePlan (completeResults supersededDatabases
              (supersededDatabases.configs 1 namesConfig) progress.handled) noLimit none none =
                .ok composed' ∧
            composed'.error = none ∧ composed'.rowCount = context.totalCount := by
  have hplan : validateSubqueries (fun _ => "") false (.array (oncePlan.map Subquery.toJson)) =
      .ok oncePlan := by rfl
  exact ⟨_, rfl, (truncation_reported hplan
    (show executePlan supersededEnv oncePlan = .ok _ from rfl) none none).2⟩

end Answer
