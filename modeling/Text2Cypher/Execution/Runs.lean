import Mathlib.Data.List.Dedup
import Text2Cypher.Execution.Replay
import Text2Cypher.Planning.Validation

/-!
# Executing validated plans

Over every plan that `validate_subqueries` has accepted and agents that end with an error, with an
empty result or with complete rows, `execute_plan` comes to its end.

* `executeSubquery_spec`: what happens to a subquery whose dependencies are known;
* `Progressed.wave`: what a wave keeps;
* `executePlan_spec`: what holds when the plan is executed.
-/

namespace Execution

open Checks Planning Query Retry

variable {V : Type} {env : Env V}

/-! ### Outcomes -/

/-- What an agent may end with: an error, an empty result, or rows with every required output. -/
inductive Delivers (requiredOutputs : List String) (outcome : Summary V) : Prop
  | failed (error : outcome.error ≠ none)
  | empty (error : outcome.error = none) (result : outcome.result = .list [])
  | rows (rows : List (Row V)) (error : outcome.error = none) (result : outcome.result = .list rows)
      (nonempty : rows ≠ [])
      (aliases : ∀ row ∈ rows, ∀ name ∈ requiredOutputs, row.hasAlias name = true)

/-- Agents end, after they have written a query, with such an outcome. -/
def WellBehaved (env : Env V) : Prop :=
  ∀ tool input, ∃ s, env.agents tool input = .ok s ∧ s.messages ≠ [] ∧
    Delivers input.requiredOutputs (resultSummary s)

section

variable {requiredOutputs : List String} {outcome : Summary V}

theorem Delivers.isFailed_iff (h : Delivers requiredOutputs outcome) :
    outcome.isFailed = true ↔ outcome.error ≠ none := by
  unfold Summary.isFailed
  cases h with
  | failed error => simp [Option.isSome_iff_ne_none, error]
  | empty error result => simp [error, result]
  | rows rows error result nonempty aliases => simp [error, result]

theorem isEmpty_iff : outcome.isEmpty = true ↔ outcome.result = .list [] := by
  unfold Summary.isEmpty
  split
  · rename_i h; exact iff_of_true rfl h
  · rename_i h; exact iff_of_false Bool.false_ne_true h

/-- What is neither failed nor empty are the rows. -/
theorem Delivers.rows_iff (h : Delivers requiredOutputs outcome) :
    outcome.error = none ∧ outcome.result.truthy = true ↔
      outcome.isFailed = false ∧ outcome.isEmpty = false := by
  rw [← Bool.not_eq_true, ← Bool.not_eq_true, h.isFailed_iff, isEmpty_iff, not_not]
  refine and_congr_right fun herror => ?_
  cases h with
  | failed error => exact absurd herror error
  | empty error result => simp [result, Result.truthy]
  | rows rows error result nonempty aliases => simp [result, Result.truthy, nonempty]

theorem Delivers.exists_rows (h : Delivers requiredOutputs outcome)
    (hfailed : outcome.isFailed = false) (hempty : outcome.isEmpty = false) :
    ∃ rows, outcome.result = .list rows ∧
      ∀ row ∈ rows, ∀ name ∈ requiredOutputs, row.hasAlias name = true := by
  cases h with
  | failed error =>
    rw [Summary.isFailed, Bool.or_eq_false_iff] at hfailed
    exact absurd hfailed.1 (by simpa [Option.isSome_iff_ne_none] using error)
  | empty error result => exact absurd (isEmpty_iff.2 result) (by simp [hempty])
  | rows rows error result nonempty aliases => exact ⟨rows, result, aliases⟩

end

/-! ### One subquery -/

/-- What a handled subquery owes to the outcomes of its dependencies. -/
structure Answered (env : Env V) (outcomes : Dict String (Summary V)) (h : Handled V) : Prop where
  /-- its dependencies were handled before -/
  known : ∀ d ∈ h.subquery.dependsOn, d ∈ outcomes.keys
  /-- its agent is invoked exactly if every dependency has rows -/
  invoked : h.invoked.isSome = true ↔ ∀ d ∈ h.subquery.dependsOn, ∀ o,
    outcomes.get? d = some o → o.error = none ∧ o.result.truthy = true
  /-- the agent is given the arrays of its bindings, and its run is what is recorded -/
  agent : ∀ input s, h.invoked = some (input, s) →
    input = agentInput env h.subquery input.inputBindings ∧
    Bound (outcomes.mapValues Summary.result) h.subquery.inputBindings input.inputBindings ∧
    env.agents h.subquery.tool input = .ok s ∧ h.summary = resultSummary s ∧
    h.queryText = s.messages.getLast?.map Message.content
  /-- skipped for a failure -/
  failed : h.invoked = none →
    (∃ d ∈ h.subquery.dependsOn, ∃ o, outcomes.get? d = some o ∧ o.error ≠ none) →
    h.queryText = none ∧ h.summary = dependencyFailure
      (h.subquery.dependsOn.filter fun d => (outcomes.get? d).any Summary.isFailed)
  /-- skipped for an empty result -/
  empty : h.invoked = none →
    (¬ ∃ d ∈ h.subquery.dependsOn, ∃ o, outcomes.get? d = some o ∧ o.error ≠ none) →
    h.queryText = none ∧ ∃ reasons, h.summary = dependencyEmpty reasons ∧
      (some inconclusive ∈ reasons ↔ ∃ d ∈ h.subquery.dependsOn, ∃ o,
        outcomes.get? d = some o ∧ o.result = .list [] ∧ o.emptyReason = some inconclusive)

/-- What is owed to some outcomes is owed to more outcomes. -/
theorem Answered.mono {outcomes outcomes' : Dict String (Summary V)} {h : Handled V}
    (ha : Answered env outcomes h)
    (hget : ∀ d ∈ outcomes.keys, outcomes'.get? d = outcomes.get? d) :
    Answered env outcomes' h := by
  have hd : ∀ d ∈ h.subquery.dependsOn, outcomes'.get? d = outcomes.get? d := fun d hd =>
    hget d (ha.known d hd)
  have hexists : ∀ P : Summary V → Prop,
      (∃ d ∈ h.subquery.dependsOn, ∃ o, outcomes'.get? d = some o ∧ P o) ↔
        ∃ d ∈ h.subquery.dependsOn, ∃ o, outcomes.get? d = some o ∧ P o := fun P =>
    exists_congr fun d => and_congr_right fun hmem => by rw [hd d hmem]
  refine ⟨fun d hmem => ?_, ?_, fun input s hinvoked => ?_, fun hnone => ?_, fun hnone => ?_⟩
  · rw [← Dict.get?_isSome_iff, hd d hmem, Dict.get?_isSome_iff]
    exact ha.known d hmem
  · exact ha.invoked.trans (forall₂_congr fun d hmem => by rw [hd d hmem])
  · obtain ⟨hinput, hbound, hrun⟩ := ha.agent input s hinvoked
    refine ⟨hinput, hbound.mono fun d rows hrows => ?_, hrun⟩
    rw [Dict.get?_mapValues] at hrows ⊢
    obtain ⟨o, ho, rfl⟩ := Option.map_eq_some_iff.1 hrows
    rw [hget d (Dict.get?_isSome_iff.1 (by rw [ho]; rfl)), ho]
    rfl
  · rw [hexists, List.filter_congr fun d hmem => by rw [hd d hmem]]
    exact ha.failed hnone
  · simp only [hexists]
    exact ha.empty hnone

theorem dependencyOutcomes_eq {outcomes : Dict String (Summary V)} {ids : List String}
    {o : String → Summary V} (h : ∀ d ∈ ids, outcomes.get? d = some (o d)) :
    dependencyOutcomes outcomes ids = .ok (ids.map fun d => (d, o d)) := by
  induction ids with
  | nil => rfl
  | cons d ids ih =>
    rw [dependencyOutcomes, h d List.mem_cons_self, ih fun d' hd' => h d' (List.mem_cons_of_mem d hd')]
    rfl

/-- `execute_subquery`, when the outcomes of the dependencies are known. -/
theorem executeSubquery_eq {outcomes : Dict String (Summary V)} {subquery : Subquery}
    {o : String → Summary V} (h : ∀ d ∈ subquery.dependsOn, outcomes.get? d = some (o d)) :
    executeSubquery env outcomes subquery =
      let failed := subquery.dependsOn.filter fun d => (o d).isFailed
      let empty := subquery.dependsOn.filter fun d => (o d).isEmpty
      if failed ≠ [] then .ok ⟨subquery, none, none, dependencyFailure failed⟩
      else if empty ≠ [] then
        .ok ⟨subquery, none, none, dependencyEmpty (empty.map fun d => (o d).emptyReason)⟩
      else bindAndInvoke env outcomes subquery := by
  have hfilter : ∀ p : Summary V → Bool,
      (subquery.dependsOn.map fun d => (d, o d)).filter (fun dependency => p dependency.2) =
        (subquery.dependsOn.filter fun d => p (o d)).map fun d => (d, o d) := fun p =>
    List.filter_map
  have hids : ∀ ids : List String, (ids.map fun d => (d, o d)).map Prod.fst = ids := fun ids => by
    rw [List.map_map]
    exact List.map_id ids
  rw [executeSubquery, dependencyOutcomes_eq h]
  change (if List.filter _ (List.map _ _) ≠ [] then _ else
    if List.filter _ (List.map _ _) ≠ [] then _ else _) = _
  simp only [hfilter, hids, ne_eq, List.map_eq_nil_iff, List.map_map, Function.comp_def]

/-- **One subquery**, when the outcomes of its dependencies are known, each with what it owes, and
its bindings can be projected once all of them have rows. -/
theorem executeSubquery_spec {outcomes : Dict String (Summary V)} {subquery : Subquery}
    (hagents : WellBehaved env)
    (hknown : ∀ d ∈ subquery.dependsOn, ∃ o outputs, outcomes.get? d = some o ∧
      Delivers outputs o)
    (hprojects : (∀ d ∈ subquery.dependsOn, ∀ o, outcomes.get? d = some o →
        o.isFailed = false ∧ o.isEmpty = false) →
      ∀ source ∈ subquery.inputBindings.values, ∃ array,
        Projects (outcomes.mapValues Summary.result) source array) :
    ∃ h, executeSubquery env outcomes subquery = .ok h ∧ Answered env outcomes h ∧
      Delivers subquery.requiredOutputs h.summary := by
  have : Nonempty (Summary V) := ⟨dependencyEmpty []⟩
  choose! o outputs ho hdelivers using hknown
  have hkeys : ∀ d ∈ subquery.dependsOn, d ∈ outcomes.keys := fun d hd =>
    Dict.get?_isSome_iff.1 (by rw [ho d hd]; rfl)
  have hall : ∀ P : Summary V → Prop, (∀ d ∈ subquery.dependsOn, ∀ o', outcomes.get? d = some o' →
      P o') ↔ ∀ d ∈ subquery.dependsOn, P (o d) := fun P =>
    forall₂_congr fun d hd => by rw [ho d hd]; exact ⟨fun h => h _ rfl, fun h o' ho' => by
      cases ho'; exact h⟩
  have hany : ∀ P : Summary V → Prop, (∃ d ∈ subquery.dependsOn, ∃ o', outcomes.get? d = some o' ∧
      P o') ↔ ∃ d ∈ subquery.dependsOn, P (o d) := fun P =>
    exists_congr fun d => and_congr_right fun hd => by rw [ho d hd]; simp
  rw [executeSubquery_eq ho]
  dsimp only
  split_ifs with hfailed hempty
  · obtain ⟨d, hd⟩ := List.exists_mem_of_ne_nil _ hfailed
    obtain ⟨hmem, hisFailed⟩ := List.mem_filter.1 hd
    have herror := ((hdelivers d hmem).isFailed_iff).1 hisFailed
    refine ⟨_, rfl, ⟨hkeys, ?_, ?_, ?_, ?_⟩, .failed (by simp [dependencyFailure])⟩
    · refine iff_of_false Bool.false_ne_true fun hrows => herror ?_
      exact (hrows d hmem _ (ho d hmem)).1
    · intro input s hinvoked
      cases hinvoked
    · refine fun _ _ => ⟨rfl, congrArg dependencyFailure (List.filter_congr fun d hd => ?_)⟩
      rw [ho d hd, Option.any_some]
    · exact fun _ hnone => absurd ⟨d, hmem, _, ho d hmem, herror⟩ hnone
  · have hwell : ∀ d ∈ subquery.dependsOn, (o d).error = none := by
      intro d hd
      by_contra herror
      exact hfailed (List.ne_nil_of_mem
        (List.mem_filter.2 ⟨hd, (hdelivers d hd).isFailed_iff.2 herror⟩))
    obtain ⟨d, hd⟩ := List.exists_mem_of_ne_nil _ hempty
    obtain ⟨hmem, hisEmpty⟩ := List.mem_filter.1 hd
    refine ⟨_, rfl, ⟨hkeys, ?_, ?_, ?_, ?_⟩, .empty rfl rfl⟩
    · refine iff_of_false Bool.false_ne_true fun hrows => ?_
      have htruthy := (hrows d hmem _ (ho d hmem)).2
      rw [isEmpty_iff.1 hisEmpty] at htruthy
      cases htruthy
    · intro input s hinvoked
      cases hinvoked
    · rintro - ⟨d, hd, _, hget, herror⟩
      obtain rfl := Option.some.inj ((ho d hd).symm.trans hget)
      exact absurd (hwell d hd) herror
    · refine fun _ _ => ⟨rfl, _, rfl, ?_⟩
      rw [hany fun o => o.result = .list [] ∧ o.emptyReason = some inconclusive]
      simp only [List.mem_map, List.mem_filter, isEmpty_iff, and_assoc]
  · have hrows : ∀ d ∈ subquery.dependsOn, (o d).isFailed = false ∧ (o d).isEmpty = false := by
      intro d hd
      exact ⟨by simpa using List.filter_eq_nil_iff.1 (not_not.1 hfailed) d hd,
        by simpa using List.filter_eq_nil_iff.1 (not_not.1 hempty) d hd⟩
    obtain ⟨arrays, hcollect, hbound⟩ := collectInputBindings_spec (hprojects ((hall _).2 hrows))
    obtain ⟨s, hagent, hmessages, hdelivers'⟩ :=
      hagents subquery.tool (agentInput env subquery arrays)
    obtain ⟨message, hmessage⟩ : ∃ message, s.messages.getLast? = some message :=
      ⟨_, List.getLast?_eq_some_getLast hmessages⟩
    rw [bindAndInvoke, hcollect]
    refine ⟨⟨subquery, some (agentInput env subquery arrays, s), some message.content,
      resultSummary s⟩, by simp only [invokeAgent, hagent, hmessage], ⟨hkeys, ?_, ?_, ?_, ?_⟩,
      hdelivers'⟩
    · refine iff_of_true rfl ((hall _).2 fun d hd => ?_)
      exact (hdelivers d hd).rows_iff.2 (hrows d hd)
    · intro input s' hinvoked
      obtain ⟨rfl, rfl⟩ := Prod.mk.inj (Option.some.inj hinvoked)
      exact ⟨rfl, hbound, hagent, rfl, by rw [hmessage]; rfl⟩
    · intro hnone
      cases hnone
    · intro hnone
      cases hnone

/-! ### Waves -/

/-- What holds between waves: the progress is a replay of subqueries in a possible order, each with
what it owes. -/
structure Progressed (env : Env V) (plan : List Subquery) (progress : Progress V)
    (pending : List Subquery) : Prop where
  replayed : progress = replay progress.handled
  perm : (progress.handled.map Handled.subquery ++ pending).Perm plan
  ordered : Waves.Ordered Subquery.id Subquery.dependsOn []
    (progress.handled.map Handled.subquery)
  answered : ∀ h ∈ progress.handled, Answered env progress.outcomes h
  delivers : ∀ h ∈ progress.handled, Delivers h.subquery.requiredOutputs h.summary

section

variable {plan pending : List Subquery} {progress : Progress V}

theorem Progressed.ids_nodup (hplan : ValidPlan plan) (h : Progressed env plan progress pending) :
    (progress.handled.map fun h => h.subquery.id).Nodup := by
  have hnodup := (h.perm.map Subquery.id).nodup_iff.2 hplan.ids
  rw [List.map_append, List.map_map] at hnodup
  exact (List.nodup_append.1 hnodup).1

theorem Progressed.get?_eq_some_iff (hplan : ValidPlan plan)
    (h : Progressed env plan progress pending) {id : String} {summary : Summary V} :
    progress.outcomes.get? id = some summary ↔
      ∃ h ∈ progress.handled, h.subquery.id = id ∧ h.summary = summary := by
  rw [h.replayed, get?_replay (h.ids_nodup hplan), ← h.replayed]

theorem Progressed.mem_keys_iff (h : Progressed env plan progress pending) {id : String} :
    id ∈ progress.outcomes.keys ↔ ∃ h ∈ progress.handled, h.subquery.id = id := by
  rw [h.replayed, mem_keys_replay, ← h.replayed]

/-- The outcome of a handled subquery. -/
theorem Progressed.exists_outcome (hplan : ValidPlan plan)
    (h : Progressed env plan progress pending) {id : String} (hid : id ∈ progress.outcomes.keys) :
    ∃ producer ∈ plan, ∃ outcome, producer.id = id ∧ progress.outcomes.get? id = some outcome ∧
      Delivers producer.requiredOutputs outcome := by
  obtain ⟨handled, hmem, hid⟩ := h.mem_keys_iff.1 hid
  have hplanned : handled.subquery ∈ plan :=
    h.perm.mem_iff.1 (List.mem_append_left _ (List.mem_map_of_mem hmem))
  exact ⟨handled.subquery, hplanned, handled.summary, hid,
    (h.get?_eq_some_iff hplan).2 ⟨handled, hmem, hid, rfl⟩, h.delivers handled hmem⟩

/-- Bindings can be projected, if the dependencies have rows. -/
theorem Progressed.projects (hplan : ValidPlan plan) (h : Progressed env plan progress pending)
    {subquery : Subquery} (hmem : subquery ∈ plan)
    (hknown : ∀ d ∈ subquery.dependsOn, d ∈ progress.outcomes.keys)
    (hrows : ∀ d ∈ subquery.dependsOn, ∀ o, progress.outcomes.get? d = some o →
      o.isFailed = false ∧ o.isEmpty = false) :
    ∀ source ∈ subquery.inputBindings.values, ∃ array,
      Projects (progress.outcomes.mapValues Summary.result) source array := by
  intro source hsource
  obtain ⟨d, output, producer, hsplit, hdep, hproducer, rfl, howns⟩ :=
    (hplan.wired subquery hmem).bound source hsource
  obtain ⟨producer', hproducer', outcome, hid, hget, hdelivers⟩ :=
    h.exists_outcome hplan (hknown _ hdep)
  obtain rfl := List.inj_on_of_nodup_map hplan.ids hproducer' hproducer hid
  obtain ⟨hfailed, hempty⟩ := hrows _ hdep _ hget
  obtain ⟨rows, hresult, haliases⟩ := hdelivers.exists_rows hfailed hempty
  obtain ⟨array, harray⟩ := exists_projection fun row hrow => haliases row hrow output howns
  exact ⟨array, producer'.id, output, rows, hsplit, by rw [Dict.get?_mapValues, hget, ← hresult]; rfl,
    harray⟩

/-- The results of a wave. -/
theorem Progressed.results (hplan : ValidPlan plan) (hagents : WellBehaved env)
    (h : Progressed env plan progress pending) :
    ∃ results, each (executeSubquery env progress.outcomes)
        (Waves.ready Subquery.dependsOn progress.outcomes.keys pending) = .ok results ∧
      List.Forall₂ (fun subquery h => h.subquery = subquery ∧ Answered env progress.outcomes h ∧
        Delivers subquery.requiredOutputs h.summary)
        (Waves.ready Subquery.dependsOn progress.outcomes.keys pending) results := by
  refine exists_each fun subquery hsubquery => ?_
  obtain ⟨hpending, hknown⟩ := Waves.mem_ready.1 hsubquery
  have hmem : subquery ∈ plan := h.perm.mem_iff.1 (List.mem_append_right _ hpending)
  obtain ⟨handled, hrun, hanswered, hdelivers⟩ := executeSubquery_spec hagents
    (fun d hd => by
      obtain ⟨producer, -, outcome, -, hget, hdelivers⟩ := h.exists_outcome hplan (hknown d hd)
      exact ⟨outcome, producer.requiredOutputs, hget, hdelivers⟩)
    (h.projects hplan hmem hknown)
  exact ⟨handled, hrun, executeSubquery_subquery hrun, hanswered, hdelivers⟩

/-- What holds between waves, with the results of one more wave. -/
theorem Progressed.extend (hplan : ValidPlan plan) (h : Progressed env plan progress pending)
    {results : List (Handled V)} {pending' : List Subquery}
    (hperm : ((progress.handled ++ results).map Handled.subquery ++ pending').Perm plan)
    (hresults : ∀ h' ∈ results, Answered env progress.outcomes h' ∧
      Delivers h'.subquery.requiredOutputs h'.summary) :
    Progressed env plan (replay (progress.handled ++ results)) pending' := by
  have hhandled : (replay (progress.handled ++ results)).handled = progress.handled ++ results :=
    replay_handled
  have hnodup : ((progress.handled ++ results).map fun h => h.subquery.id).Nodup := by
    have hids := (hperm.map Subquery.id).nodup_iff.2 hplan.ids
    rw [List.map_append, List.map_map] at hids
    exact (List.nodup_append.1 hids).1
  have hget : ∀ d ∈ progress.outcomes.keys,
      (replay (progress.handled ++ results)).outcomes.get? d = progress.outcomes.get? d := by
    intro d hd
    rw [h.replayed] at hd
    rw [get?_replay_append hnodup hd, ← h.replayed]
  refine ⟨by rw [hhandled], by rw [hhandled]; exact hperm, ?_, ?_, ?_⟩
  · rw [hhandled, List.map_append, Waves.ordered_append]
    refine ⟨h.ordered, Waves.ordered_of_forall fun subquery hmem d hd => ?_⟩
    obtain ⟨h', hmem', rfl⟩ := List.mem_map.1 hmem
    obtain ⟨h'', hmem'', rfl⟩ := h.mem_keys_iff.1 ((hresults h' hmem').1.known d hd)
    rw [List.append_nil]
    exact List.mem_map_of_mem (List.mem_map_of_mem hmem'')
  · rw [hhandled]
    intro h' hmem
    rcases List.mem_append.1 hmem with hmem | hmem
    · exact (h.answered h' hmem).mono hget
    · exact (hresults h' hmem).1.mono hget
  · rw [hhandled]
    intro h' hmem
    rcases List.mem_append.1 hmem with hmem | hmem
    · exact h.delivers h' hmem
    · exact (hresults h' hmem).2

/-- **A wave** of a validated plan goes through, and keeps what holds between waves. -/
theorem Progressed.wave (hplan : ValidPlan plan) (hagents : WellBehaved env)
    (h : Progressed env plan progress pending) :
    ∃ progress', executeWave env progress
        (Waves.ready Subquery.dependsOn progress.outcomes.keys pending) = .ok progress' ∧
      progress.outcomes.keys ++
        (Waves.ready Subquery.dependsOn progress.outcomes.keys pending).map Subquery.id ⊆
          progress'.outcomes.keys ∧
      Progressed env plan progress' (Waves.rest Subquery.id
        (Waves.ready Subquery.dependsOn progress.outcomes.keys pending) pending) := by
  obtain ⟨results, hresults, hforall⟩ := h.results hplan hagents
  have hpending : (pending.map Subquery.id).Nodup := by
    have hids := (h.perm.map Subquery.id).nodup_iff.2 hplan.ids
    rw [List.map_append] at hids
    exact (List.nodup_append.1 hids).2.1
  have hwave : (Waves.ready Subquery.dependsOn progress.outcomes.keys pending ++
      Waves.rest Subquery.id (Waves.ready Subquery.dependsOn progress.outcomes.keys pending)
        pending).Perm pending := Waves.ready_append_rest_perm hpending _
  generalize Waves.ready Subquery.dependsOn progress.outcomes.keys pending = wave at *
  have hsubqueries : results.map Handled.subquery = wave := by
    have heq : List.Forall₂ (fun subquery h => subquery = Handled.subquery h) wave results :=
      hforall.imp fun _ _ hr => hr.1.symm
    rw [← List.forall₂_map_right_iff, List.forall₂_eq_eq_eq] at heq
    exact heq.symm
  refine ⟨replay (progress.handled ++ results), ?_, ?_, h.extend hplan ?_ ?_⟩
  · have hrun := executeWave_eq_ok.2 ⟨results, h.replayed ▸ hresults, rfl⟩
    rwa [← h.replayed] at hrun
  · intro id hid
    rw [mem_keys_replay]
    rcases List.mem_append.1 hid with hid | hid
    · obtain ⟨h', hmem, hid⟩ := h.mem_keys_iff.1 hid
      exact ⟨h', List.mem_append_left _ hmem, hid⟩
    · rw [← hsubqueries, List.map_map] at hid
      obtain ⟨h', hmem, hid⟩ := List.mem_map.1 hid
      exact ⟨h', List.mem_append_right _ hmem, hid⟩
  · rw [List.map_append, hsubqueries, List.append_assoc]
    exact (hwave.append_left _).trans h.perm
  · intro h' hmem
    obtain ⟨subquery, -, rfl, hanswered, hdelivers⟩ := exists_of_forall₂ hforall hmem
    exact ⟨hanswered, hdelivers⟩

end

/-! ### Whole plans -/

/-- What holds when a plan has been executed. -/
structure ExecutedPlan (env : Env V) (plan : List Subquery) (progress : Progress V) : Prop where
  /-- each subquery is handled once -/
  once : (progress.handled.map Handled.subquery).Perm plan
  /-- and after its dependencies -/
  ordered : Waves.Ordered Subquery.id Subquery.dependsOn []
    (progress.handled.map Handled.subquery)
  /-- `outcomes` holds what was recorded -/
  outcomes : ∀ h ∈ progress.handled, progress.outcomes.get? h.subquery.id = some h.summary
  /-- each gets what it is owed -/
  answered : ∀ h ∈ progress.handled, Answered env progress.outcomes h
  /-- arrays of one producer are equally long -/
  aligned : ∀ h ∈ progress.handled, ∀ input s, h.invoked = some (input, s) →
    ∀ target source target' source' array array',
      (target, source) ∈ h.subquery.inputBindings.entries →
      (target', source') ∈ h.subquery.inputBindings.entries →
      (splitDot source).map Prod.fst = (splitDot source').map Prod.fst →
      input.inputBindings.get? target = some array →
      input.inputBindings.get? target' = some array' → array.length = array'.length
  /-- the fields of a tool hold the outcome of its subquery -/
  written : ∀ h ∈ progress.handled,
    progress.output.result h.subquery.tool = some h.summary ∧
      progress.output.query h.subquery.tool = h.queryText
  /-- and nothing else -/
  unwritten : ∀ tool, tool ∉ plan.map Subquery.tool →
    progress.output.result tool = none ∧ progress.output.query tool = none

/-- **Executing a validated plan**: for every plan that `validate_subqueries` has accepted and every
behaviour of the agents, `execute_plan` ends without raising, as `ExecutedPlan` says. -/
theorem executePlan_spec {repr : Json → String} {allowEmpty : Bool} {subqueries : Json}
    {plan : List Subquery} (hplan : validateSubqueries repr allowEmpty subqueries = .ok plan)
    (hagents : WellBehaved env) :
    ∃ progress, executePlan env plan = .ok progress ∧ ExecutedPlan env plan progress := by
  have h := validPlan_of_validateSubqueries hplan
  have hstart : Progressed env plan .start plan :=
    ⟨rfl, .refl _, trivial, by simp [Progress.start], by simp [Progress.start]⟩
  obtain ⟨progress, hrun, hend⟩ := Waves.sweep_total (I := Progressed env plan)
    (fun hprogress _ => hprogress.wave h hagents) (Nat.le_refl _) hstart h.ordered
  refine ⟨progress, hrun, ?_⟩
  have hperm : (progress.handled.map Handled.subquery).Perm plan := by
    simpa using hend.perm
  have htools : (progress.handled.map fun h => h.subquery.tool).Nodup := by
    have hnodup := (hperm.map Subquery.tool).nodup_iff.2 h.tools
    rwa [List.map_map] at hnodup
  refine ⟨hperm, hend.ordered, fun h' hmem => (hend.get?_eq_some_iff h).2 ⟨h', hmem, rfl, rfl⟩,
    hend.answered, ?_, ?_, ?_⟩
  · intro h' hmem input s hinvoked target source target' source' array array' hsource hsource'
      hsame harray harray'
    have hbound := ((hend.answered h' hmem).agent input s hinvoked).2.1
    exact (hbound.projects hsource harray).length_eq (hbound.projects hsource' harray') hsame
  · intro h' hmem
    rw [hend.replayed]
    exact replay_result htools hmem
  · intro tool htool
    rw [hend.replayed]
    refine replay_result_none fun h' hmem heq => htool ?_
    rw [← heq, ← (hperm.map Subquery.tool).mem_iff, List.map_map]
    exact List.mem_map_of_mem hmem

/-! ### A plan with a binding -/

/-- A row with every required output. -/
def plainRow (requiredOutputs : List String) : Dict String Unit where
  entries := requiredOutputs.dedup.map fun name => (name, ())
  nodup := by
    rw [List.map_map]
    exact (List.nodup_dedup requiredOutputs).map fun _ _ h => h

/-- Agents that return every required output, in two rows. -/
def plainAgent (_ : ToolName) (input : Input Unit) : Except Abort (State Unit) :=
  .ok { initialState input with
    messages := [⟨"assistant", "SELECT 1"⟩]
    result := .list [.dict (plainRow input.requiredOutputs), .dict (plainRow input.requiredOutputs)] }

def plainEnv : Env Unit := ⟨plainAgent, fun _ => "", "stock of the parts?", none⟩

theorem wellBehaved_plain : WellBehaved plainEnv := by
  intro tool input
  refine ⟨_, rfl, by simp, .rows _ rfl rfl (by simp) fun row hrow name hname => ?_⟩
  simp only [List.mem_cons, List.not_mem_nil, or_false, or_self] at hrow
  subst hrow
  simpa [Row.hasAlias, plainRow, Dict.keys, List.mem_dedup] using hname

/-- The parts of a product, and their stock. -/
def plainPlan : List Subquery :=
  [⟨"parts", .graph, "parts?", [], ["componentId"], [], .empty, []⟩,
    ⟨"stock", .sql, "stock?", ["parts"], ["stock"], [],
      ⟨[("componentIds", "parts.componentId")], List.nodup_singleton _⟩, []⟩]

theorem executePlan_plain :
    ∃ progress, executePlan plainEnv plainPlan = .ok progress ∧
      ExecutedPlan plainEnv plainPlan progress := by
  have hplan : validateSubqueries (fun _ => "") false (.array (plainPlan.map Subquery.toJson)) =
      .ok plainPlan := by rfl
  exact executePlan_spec hplan wellBehaved_plain

end Execution
