import Text2Cypher.Retry.Agent

/-!
# One attempt of the retry agent

All that a round of the graph can do: it fails, comes back empty, or succeeds.  `Attempted` says for
each which calls were made and what becomes of the state; everything about runs rests on it.

* `attempted_of_round`: every round that does not abort is one of the three;
* `cleared_round`: a query is executed only when the guard has let it pass and the query contract has
  accepted it, in the same attempt.
-/

namespace Retry

open Query

variable {V : Type}

namespace Call

/-- The answers that make the failure of an attempt final: an exception of a validator, a blocked
unknown name, and every exception of the database that is not retryable. -/
def nonRetryable (config : Config V) : Call V → Bool
  | .guard _ (.error _) => true
  | .guard _ (.ok guardResult) =>
      !guardResult.allowed && guardResult.reasonCode.any (· ∈ nonRetryableGuardReasons)
  | .execute _ (.error exc) => !config.retryableExceptions exc
  | .resultContract (.error _) => true
  | _ => false

def cameBackEmpty : Call V → Bool
  | .execute _ (.ok executed) => !executed.result.truthy
  | _ => false

def violatesInvariant : Call V → Bool
  | .resultContract (.ok (some _)) => true
  | _ => false

/-- A contract complains in these very words. -/
def reports (text : String) : Call V → Bool
  | .contract _ (some error) => error == text
  | .resultContract (.ok (some error)) => error == text
  | _ => false

/-- The answer neither fails for good nor decides about the result. -/
def Quiet (config : Config V) (call : Call V) : Prop :=
  call.nonRetryable config = false ∧ call.cameBackEmpty = false ∧ call.violatesInvariant = false

end Call

/-- What the calls of an attempt amount to. -/
structure Signs (config : Config V) (calls : List (Call V)) (final empty invariant : Bool) :
    Prop where
  final : calls.any (Call.nonRetryable config) = final
  empty : calls.any Call.cameBackEmpty = empty
  invariant : calls.any Call.violatesInvariant = invariant

/-- Calls that are quiet do not change what the others amount to. -/
theorem Signs.quiet_append {config : Config V} {before calls : List (Call V)} {f e i : Bool}
    (h : Signs config calls f e i) (hquiet : ∀ call ∈ before, call.Quiet config) :
    Signs config (before ++ calls) f e i := by
  have hfalse : ∀ p : Call V → Bool, (∀ call ∈ before, p call = false) → before.any p = false :=
    fun p hp => List.any_eq_false.2 fun call hcall => by simp [hp call hcall]
  refine ⟨?_, ?_, ?_⟩
  · rw [List.any_append, hfalse _ fun c hc => (hquiet c hc).1, Bool.false_or, h.final]
  · rw [List.any_append, hfalse _ fun c hc => (hquiet c hc).2.1, Bool.false_or, h.empty]
  · rw [List.any_append, hfalse _ fun c hc => (hquiet c hc).2.2, Bool.false_or, h.invariant]

/-- What an attempt can come to: the calls it made, and the state it leaves behind. -/
inductive Attempted (config : Config V) (s : State V) (calls : List (Call V)) : State V → Prop
  | failed {queryText message : String} {retryable : Bool} {safeFailure : QueryFailure}
      {stage reasonCode : String} {error : Option PyException} {feedback : Option String}
      (signs : Signs config calls (!retryable) false (stage == "result_invariant"))
      (text : message = emptyResultError → calls.any (Call.reports emptyResultError) = true) :
      Attempted config s calls
        (failure config s queryText message retryable safeFailure stage reasonCode error feedback)
  | empty {queryText : String} {executed : Executed V} (signs : Signs config calls false true false)
      (falsy : executed.result.truthy = false) :
      Attempted config s calls (emptyResult s queryText executed)
  | succeeded {queryText : String} {executed : Executed V} {rows : List (Row V)}
      (signs : Signs config calls false false false) (hrows : executed.result.rows? = some rows)
      (nonempty : rows ≠ [])
      (aliases : ∀ row ∈ rows, ∀ name ∈ s.requiredOutputs, row.hasAlias name = true) :
      Attempted config s calls (success s queryText executed)

/-- Quiet calls before do not change what an attempt comes to. -/
theorem Attempted.quiet_append {config : Config V} {s s' : State V} {before calls : List (Call V)}
    (h : Attempted config s calls s') (hquiet : ∀ call ∈ before, call.Quiet config) :
    Attempted config s (before ++ calls) s' := by
  cases h with
  | failed signs text =>
    exact .failed (signs.quiet_append hquiet) fun h => by
      rw [List.any_append, text h, Bool.or_true]
  | empty signs falsy => exact .empty (signs.quiet_append hquiet) falsy
  | succeeded signs hrows nonempty aliases =>
    exact .succeeded (signs.quiet_append hquiet) hrows nonempty aliases

/-! ### The three checks -/

section

variable {config : Config V} {s : State V} {queryText : String}

/-- A message that begins otherwise is not the code of the empty result. -/
theorem append_ne_emptyResultError {a : String} (ha : a.toList.head?.any (· ≠ 'E') = true)
    (b : String) : a ++ b ≠ emptyResultError := by
  intro h
  have hhead : (a.toList ++ b.toList).head? = some 'E' := by
    rw [← String.toList_append, h]
    decide
  cases hlist : a.toList with
  | nil => simp [hlist] at ha
  | cons c rest =>
    rw [hlist] at ha hhead
    simp only [List.cons_append, List.head?_cons, Option.some.injEq] at hhead
    simp [hhead] at ha

theorem attempted_internalValidationFailure {calls : List (Call V)} {exc : PyException}
    (signs : Signs config calls true false false) :
    Attempted config s calls (internalValidationFailure config s queryText exc) :=
  .failed signs fun h => absurd h (by decide +kernel)

theorem checkGuard_some {outcome : State V}
    (h : (checkGuard config s queryText).2 = some outcome) :
    Attempted config s (checkGuard config s queryText).1 outcome := by
  unfold checkGuard at h ⊢
  cases hguard : config.guard with
  | none => simp [hguard] at h
  | some guard =>
    simp only [hguard] at h ⊢
    cases hanswer : guard s.attemptCount queryText with
    | error exc =>
      simp only [hanswer, Option.some.injEq] at h
      subst h
      exact attempted_internalValidationFailure ⟨rfl, rfl, rfl⟩
    | ok guardResult =>
      simp only [hanswer] at h
      split_ifs at h with hallowed
      obtain rfl := Option.some.inj h
      refine .failed ⟨?_, rfl, rfl⟩ fun h => absurd h ?_
      · simp [Call.nonRetryable, hallowed]
      · rw [String.append_assoc]
        exact append_ne_emptyResultError (by decide +kernel) _

/-- A query that passes the guard. -/
theorem checkGuard_none (h : (checkGuard config s queryText).2 = none) :
    (∀ call ∈ (checkGuard config s queryText).1, call.Quiet config) ∧
      (config.guard.isSome = true → ∃ guardResult, guardResult.allowed = true ∧
        .guard queryText (.ok guardResult) ∈ (checkGuard config s queryText).1) := by
  unfold checkGuard at h ⊢
  cases hguard : config.guard with
  | none => simp
  | some guard =>
    simp only [hguard] at h ⊢
    cases hanswer : guard s.attemptCount queryText with
    | error exc => simp [hanswer] at h
    | ok guardResult =>
      simp only [hanswer] at h
      split_ifs at h with hallowed
      refine ⟨?_, fun _ => ⟨guardResult, hallowed, List.mem_singleton.2 rfl⟩⟩
      simp [Call.Quiet, Call.nonRetryable, Call.cameBackEmpty, Call.violatesInvariant, hallowed]

theorem checkContract_some {outcome : State V}
    (h : (checkContract config s queryText).2 = .ok (some outcome)) :
    Attempted config s (checkContract config s queryText).1 outcome := by
  unfold checkContract at h ⊢
  cases hcontract : config.queryContractError with
  | none => simp [hcontract] at h
  | some queryContractError =>
    simp only [hcontract] at h ⊢
    rcases hanswer : queryContractError s.attemptCount queryText s.requiredOutputs with
      exc | _ | contractError
    · simp [hanswer] at h
    · simp [hanswer] at h
    · simp only [hanswer, Except.ok.injEq, Option.some.injEq] at h ⊢
      subst h
      exact .failed ⟨rfl, rfl, rfl⟩ fun h => by simp [Call.reports, h]

/-- A query that the contract accepts. -/
theorem checkContract_none (h : (checkContract config s queryText).2 = .ok none) :
    (∀ call ∈ (checkContract config s queryText).1, call.Quiet config) ∧
      (config.queryContractError.isSome = true →
        .contract queryText none ∈ (checkContract config s queryText).1) := by
  unfold checkContract at h ⊢
  cases hcontract : config.queryContractError with
  | none => simp
  | some queryContractError =>
    simp only [hcontract] at h ⊢
    rcases hanswer : queryContractError s.attemptCount queryText s.requiredOutputs with
      exc | _ | contractError
    · simp [hanswer] at h
    · simp [Call.Quiet, Call.nonRetryable, Call.cameBackEmpty, Call.violatesInvariant]
    · simp [hanswer] at h

/-- Where no row is found to lack an alias, none does. -/
theorem hasAlias_of_missingAliases {requiredOutputs : List String} {rowIndex : ℕ}
    {rows : List (Row V)} (h : missingAliases requiredOutputs rowIndex rows = none) :
    ∀ row ∈ rows, ∀ name ∈ requiredOutputs, row.hasAlias name = true := by
  induction rows generalizing rowIndex with
  | nil => simp
  | cons row rows ih =>
    simp only [missingAliases] at h
    split_ifs at h with hmissing
    intro r hr name hname
    rcases List.mem_cons.1 hr with rfl | hr
    · have hfilter : requiredOutputs.filter (!r.hasAlias ·) = [] := not_not.1 hmissing
      simpa using List.filter_eq_nil_iff.1 hfilter name hname
    · exact ih h r hr name hname

theorem executionFailure_attempted {exc : PyException} {answer : Except PyException (Executed V)}
    (hanswer : answer = .error exc) :
    Attempted config s [.execute queryText answer]
      (executionFailure config s queryText exc) := by
  subst hanswer
  unfold executionFailure
  split_ifs with hretryable _ hconnection
  · exact .failed ⟨by simp [Call.nonRetryable, hretryable], rfl, rfl⟩
      fun h => absurd h (by decide +kernel)
  · exact .failed ⟨by simp [Call.nonRetryable, hretryable], rfl, rfl⟩
      fun h => absurd h (by decide +kernel)
  · exact .failed ⟨by simp [Call.nonRetryable, hretryable], rfl, rfl⟩
      fun h => absurd h (by decide +kernel)
  · exact .failed ⟨by simp [Call.nonRetryable, hretryable], rfl, rfl⟩
      fun h => absurd h (by decide +kernel)

theorem classifyResult_attempted {executed : Executed V} {s' : State V}
    (htruthy : executed.result.truthy = true)
    (h : (classifyResult config s queryText executed).2 = .ok s') :
    Attempted config s (classifyResult config s queryText executed).1 s' := by
  have hnonempty : ∀ {rows}, executed.result.rows? = some rows → rows ≠ [] := by
    intro rows hrows
    cases hresult : executed.result <;>
      simp_all [Result.rows?, Result.truthy]
  unfold classifyResult at h ⊢
  cases hrows : executed.result.rows? with
  | none => simp [hrows] at h
  | some rows =>
    simp only [hrows] at h ⊢
    rcases hmissing : missingAliases s.requiredOutputs 0 rows with _ | ⟨rowIndex, missing⟩
    · have haliases := hasAlias_of_missingAliases hmissing
      simp only [hmissing] at h ⊢
      cases hcontract : config.resultContractError with
      | none =>
        simp only [hcontract, Except.ok.injEq] at h ⊢
        subst h
        exact .succeeded ⟨rfl, rfl, rfl⟩ hrows (hnonempty hrows) haliases
      | some resultContractError =>
        simp only [hcontract] at h ⊢
        rcases hanswer : resultContractError s.attemptCount rows s with exc | _ | invariantError
        · simp only [hanswer, Except.ok.injEq] at h ⊢
          subst h
          exact attempted_internalValidationFailure ⟨rfl, rfl, rfl⟩
        · simp only [hanswer, Except.ok.injEq] at h ⊢
          subst h
          exact .succeeded ⟨rfl, rfl, rfl⟩ hrows (hnonempty hrows) haliases
        · simp only [hanswer, Except.ok.injEq] at h ⊢
          subst h
          exact .failed ⟨rfl, rfl, rfl⟩ fun h => by simp [Call.reports, h]
    · simp only [hmissing, Except.ok.injEq] at h ⊢
      subst h
      refine .failed ⟨rfl, rfl, rfl⟩ fun h => absurd h ?_
      rw [String.append_assoc, String.append_assoc]
      exact append_ne_emptyResultError (by decide +kernel) _

theorem executeAndClassify_attempted {s' : State V}
    (h : (executeAndClassify config s queryText).2 = .ok s') :
    Attempted config s (executeAndClassify config s queryText).1 s' := by
  unfold executeAndClassify at h ⊢
  cases hanswer : config.execute s.attemptCount queryText with
  | error exc =>
    simp only [hanswer, Except.ok.injEq] at h ⊢
    subst h
    exact executionFailure_attempted rfl
  | ok executed =>
    simp only [hanswer] at h ⊢
    cases htruthy : executed.result.truthy with
    | false =>
      simp only [htruthy, Bool.not_false, if_true, Except.ok.injEq] at h ⊢
      subst h
      exact .empty ⟨rfl, by simp [Call.cameBackEmpty, htruthy], rfl⟩ htruthy
    | true =>
      simp only [htruthy, Bool.not_true, Bool.false_eq_true, if_false] at h ⊢
      have hquiet : ∀ call ∈ [Call.execute queryText (.ok executed)], call.Quiet config := by
        simp [Call.Quiet, Call.nonRetryable, Call.cameBackEmpty, Call.violatesInvariant, htruthy]
      exact (classifyResult_attempted htruthy h).quiet_append hquiet

/-- A call of `tools` fails, comes back empty, or succeeds. -/
theorem attempted_of_tools {s' : State V} (h : (tools config s).2 = .ok s') :
    Attempted config s (tools config s).1 s' := by
  unfold tools at h ⊢
  generalize (s.messages.getLast?.map Message.content).getD "" = queryText at h ⊢
  rcases hguard : checkGuard config s queryText with ⟨guardCalls, _ | outcome⟩
  · have hquiet := (checkGuard_none (by rw [hguard])).1
    rw [hguard] at hquiet
    rcases hcontract : checkContract config s queryText with ⟨contractCalls, abort | _ | outcome⟩
    · simp [hguard, hcontract] at h
    · have hquiet' := (checkContract_none (by rw [hcontract])).1
      rw [hcontract] at hquiet'
      simp only [hguard, hcontract] at h ⊢
      rw [List.append_assoc]
      exact ((executeAndClassify_attempted h).quiet_append hquiet').quiet_append hquiet
    · have hfailed := checkContract_some (by rw [hcontract])
      rw [hcontract] at hfailed
      simp only [hguard, hcontract, Except.ok.injEq] at h ⊢
      subst h
      exact hfailed.quiet_append hquiet
  · have hfailed := checkGuard_some (by rw [hguard])
    rw [hguard] at hfailed
    simp only [hguard, Except.ok.injEq] at h ⊢
    subst h
    exact hfailed

end

/-! ### What is executed -/

/-- A query is executed only behind the guard's permission and the contract's consent to this very
query. -/
def Cleared (config : Config V) (calls : List (Call V)) : Prop :=
  ∀ before queryText answer after, calls = before ++ .execute queryText answer :: after →
    (config.guard.isSome = true → ∃ guardResult, guardResult.allowed = true ∧
      .guard queryText (.ok guardResult) ∈ before) ∧
    (config.queryContractError.isSome = true → .contract queryText none ∈ before)

def Call.isExecute : Call V → Bool
  | .execute _ _ => true
  | _ => false

/-- The only execution in a list of calls. -/
theorem append_execute_inj {a before after b : List (Call V)} {queryText queryText' : String}
    {answer answer' : Except PyException (Executed V)} (ha : ∀ call ∈ a, call.isExecute = false)
    (hb : ∀ call ∈ b, call.isExecute = false)
    (h : a ++ .execute queryText answer :: b = before ++ .execute queryText' answer' :: after) :
    before = a ∧ queryText' = queryText := by
  induction a generalizing before with
  | nil =>
    cases before with
    | nil =>
      obtain ⟨hcall, -⟩ := List.cons.inj h
      exact ⟨rfl, (Call.execute.inj hcall).1.symm⟩
    | cons c before =>
      obtain ⟨-, hb'⟩ := List.cons.inj h
      have := hb (.execute queryText' answer') (by simp [hb'])
      simp [Call.isExecute] at this
  | cons c a ih =>
    cases before with
    | nil =>
      obtain ⟨hcall, -⟩ := List.cons.inj h
      have := ha c List.mem_cons_self
      simp [hcall, Call.isExecute] at this
    | cons c' before =>
      obtain ⟨rfl, htail⟩ := List.cons.inj h
      obtain ⟨rfl, hquery⟩ := ih (fun call hcall => ha call (List.mem_cons_of_mem _ hcall)) htail
      exact ⟨rfl, hquery⟩

theorem cleared_of_not_execute {config : Config V} {calls : List (Call V)}
    (h : ∀ call ∈ calls, call.isExecute = false) : Cleared config calls := by
  rintro before queryText answer after rfl
  have := h (.execute queryText answer) (by simp)
  simp [Call.isExecute] at this

section

variable (config : Config V) (s : State V) (queryText : String)

theorem isExecute_checkGuard :
    ∀ call ∈ (checkGuard config s queryText).1, call.isExecute = false := by
  unfold checkGuard
  cases config.guard <;> simp [Call.isExecute]

theorem isExecute_checkContract :
    ∀ call ∈ (checkContract config s queryText).1, call.isExecute = false := by
  unfold checkContract
  cases hcontract : config.queryContractError with
  | none => simp
  | some queryContractError =>
    simp only
    rcases queryContractError s.attemptCount queryText s.requiredOutputs with _ | _ | _ <;>
      simp [Call.isExecute]

theorem isExecute_classifyResult (executed : Executed V) :
    ∀ call ∈ (classifyResult config s queryText executed).1, call.isExecute = false := by
  unfold classifyResult
  cases executed.result.rows? with
  | none => simp
  | some rows =>
    simp only
    cases missingAliases s.requiredOutputs 0 rows with
    | none => cases config.resultContractError <;> simp [Call.isExecute]
    | some missing => simp

/-- Execution is the first call of its stage, and the only one of its kind. -/
theorem executeAndClassify_calls :
    ∃ answer rest, (executeAndClassify config s queryText).1 = .execute queryText answer :: rest ∧
      ∀ call ∈ rest, call.isExecute = false := by
  unfold executeAndClassify
  cases config.execute s.attemptCount queryText with
  | error exc => exact ⟨_, [], rfl, by simp⟩
  | ok executed =>
    simp only
    split_ifs
    · exact ⟨_, [], rfl, by simp⟩
    · exact ⟨_, _, rfl, isExecute_classifyResult config s queryText executed⟩

theorem cleared_tools : Cleared config (tools config s).1 := by
  unfold tools
  generalize (s.messages.getLast?.map Message.content).getD "" = queryText
  have hguardCalls := isExecute_checkGuard config s queryText
  have hcontractCalls := isExecute_checkContract config s queryText
  have hboth : ∀ call ∈ (checkGuard config s queryText).1 ++ (checkContract config s queryText).1,
      call.isExecute = false := fun call hcall =>
    (List.mem_append.1 hcall).elim (hguardCalls call) (hcontractCalls call)
  rcases hguard : checkGuard config s queryText with ⟨guardCalls, _ | outcome⟩
  · obtain ⟨-, hallowed⟩ := checkGuard_none (by rw [hguard])
    rcases hcontract : checkContract config s queryText with ⟨contractCalls, abort | _ | outcome⟩
    · rw [hguard, hcontract] at hboth
      simp only [hguard, hcontract]
      exact cleared_of_not_execute hboth
    · obtain ⟨-, haccepted⟩ := checkContract_none (by rw [hcontract])
      rw [hguard] at hallowed hboth
      rw [hcontract] at haccepted hboth
      obtain ⟨answer, rest, hcalls, hrest⟩ := executeAndClassify_calls config s queryText
      intro before queryText' answer' after heq
      simp only [hguard, hcontract, hcalls] at heq
      obtain ⟨rfl, rfl⟩ := append_execute_inj hboth hrest heq
      refine ⟨fun hsome => ?_, fun hsome => List.mem_append_right _ (haccepted hsome)⟩
      obtain ⟨guardResult, hr, hmem⟩ := hallowed hsome
      exact ⟨guardResult, hr, List.mem_append_left _ hmem⟩
    · rw [hguard, hcontract] at hboth
      simp only [hguard, hcontract]
      exact cleared_of_not_execute hboth
  · rw [hguard] at hguardCalls
    simp only [hguard]
    exact cleared_of_not_execute hguardCalls

end

/-! ### A round of the graph -/

/-- The state that `agent` hands to `tools`. -/
def asked (config : Config V) (s : State V) (queryText : String) : State V :=
  { s with
    messages := s.messages ++ [⟨"assistant", queryText⟩]
    attemptCount := s.attemptCount + 1
    generatedQuery := config.redactQuery queryText }

theorem round_ok {config : Config V} {s s' : State V} {calls : List (Call V)}
    (h : (graph config).round s = (calls, .ok s')) :
    ∃ queryText, tools config (asked config s queryText) = (calls, .ok s') := by
  simp only [graph, agent] at h
  split at h
  · simp at h
  · rename_i s₁ hs₁
    split at hs₁
    · cases hs₁
    · rename_i queryText _
      cases hs₁
      exact ⟨queryText, h⟩

/-- **Every round that does not abort** fails, comes back empty, or succeeds. -/
theorem attempted_of_round {config : Config V} {s s' : State V} {calls : List (Call V)}
    (h : (graph config).round s = (calls, .ok s')) :
    ∃ queryText, Attempted config (asked config s queryText) calls s' := by
  obtain ⟨queryText, h⟩ := round_ok h
  have htools : (tools config (asked config s queryText)).2 = .ok s' := by rw [h]
  have hattempted := attempted_of_tools htools
  rw [h] at hattempted
  exact ⟨queryText, hattempted⟩

theorem cleared_round {config : Config V} {s s' : State V} {calls : List (Call V)}
    (h : (graph config).round s = (calls, .ok s')) : Cleared config calls := by
  obtain ⟨queryText, h⟩ := round_ok h
  have hcleared := cleared_tools config (asked config s queryText)
  rwa [h] at hcleared

end Retry
