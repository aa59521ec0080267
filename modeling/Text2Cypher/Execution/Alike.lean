import Text2Cypher.Execution.Retries

/-!
# Executions that differ in texts

What an agent writes into its error, its attempts and its query is looked at by nothing else in the
execution of a plan: a plan runs the same way when the agent of one tool words its failures
differently.

* `perm_of_executePlan`: every subquery is handled once;
* `executePlan_reword`: the execution with the reworded agent.
-/

namespace Execution

open Checks Planning Query Retry

variable {V : Type} {env : Env V}

/-- A wave handles its subqueries, in order. -/
theorem map_subquery_of_each {outcomes : Dict String (Summary V)} {wave : List Subquery}
    {results : List (Handled V)} (h : each (executeSubquery env outcomes) wave = .ok results) :
    results.map Handled.subquery = wave := by
  have hforall : List.Forall₂ (fun subquery h => subquery = Handled.subquery h) wave results :=
    (forall₂_of_each h).imp fun _ _ hrun => (executeSubquery_subquery hrun).symm
  rw [← List.forall₂_map_right_iff, List.forall₂_eq_eq_eq] at hforall
  exact hforall.symm

/-- Every subquery of a plan that is executed is handled once. -/
theorem perm_of_executePlan {plan : List Subquery} {progress : Progress V}
    (hnodup : (plan.map Subquery.id).Nodup) (hrun : executePlan env plan = .ok progress) :
    (progress.handled.map Handled.subquery).Perm plan := by
  have hend := Waves.sweep_rule (I := fun progress pending => progress = replay progress.handled ∧
    (progress.handled.map Handled.subquery ++ pending).Perm plan) ?_ ⟨rfl, .refl _⟩ hrun
  · simpa using hend.2
  · rintro s s' pending ⟨hs, hperm⟩ - hwave
    have hpending : (pending.map Subquery.id).Nodup := by
      have hids := (hperm.map Subquery.id).nodup_iff.2 hnodup
      rw [List.map_append] at hids
      exact (List.nodup_append.1 hids).2.1
    have hrest : (Waves.ready Subquery.dependsOn s.outcomes.keys pending ++
        Waves.rest Subquery.id (Waves.ready Subquery.dependsOn s.outcomes.keys pending)
          pending).Perm pending := Waves.ready_append_rest_perm hpending _
    rw [hs] at hwave
    obtain ⟨results, hresults, rfl⟩ := executeWave_eq_ok.1 hwave
    rw [← hs] at hresults
    refine ⟨by rw [replay_handled], ?_⟩
    rw [replay_handled, List.map_append, map_subquery_of_each hresults, List.append_assoc]
    exact (hrest.append_left _).trans hperm

/-! ### What a subquery sees -/

/-- What the other subqueries see of an outcome. -/
structure View (V : Type) where
  isFailed : Bool
  isEmpty : Bool
  result : Result V
  emptyReason : Option String

def Summary.view (outcome : Summary V) : View V :=
  ⟨outcome.isFailed, outcome.isEmpty, outcome.result, outcome.emptyReason⟩

theorem map_view_of_dependencyOutcomes {outcomes outcomes' : Dict String (Summary V)}
    (h : outcomes.mapValues Summary.view = outcomes'.mapValues Summary.view) (ids : List String) :
    (dependencyOutcomes outcomes ids).map (List.map (Prod.map id Summary.view)) =
      (dependencyOutcomes outcomes' ids).map (List.map (Prod.map id Summary.view)) := by
  induction ids with
  | nil => rfl
  | cons d ids ih =>
    have hd := congrArg (fun views => views.get? d) h
    simp only [Dict.get?_mapValues] at hd
    unfold dependencyOutcomes
    cases ho : outcomes.get? d with
    | none =>
      rw [ho, Option.map_none, eq_comm, Option.map_eq_none_iff] at hd
      rw [hd]
    | some o =>
      rw [ho, Option.map_some, eq_comm, Option.map_eq_some_iff] at hd
      obtain ⟨o', ho', hview⟩ := hd
      rw [ho']
      cases hrest : dependencyOutcomes outcomes ids <;>
        cases hrest' : dependencyOutcomes outcomes' ids <;> rw [hrest, hrest'] at ih
      · exact ih
      · cases ih
      · cases ih
      · have hl := Except.ok.inj ih
        change Except.ok _ = Except.ok _
        rw [List.map_cons, List.map_cons, hl, Prod.map, Prod.map, hview]

/-- A subquery sees no more than that. -/
theorem executeSubquery_congr {outcomes outcomes' : Dict String (Summary V)}
    (h : outcomes.mapValues Summary.view = outcomes'.mapValues Summary.view)
    (subquery : Subquery) :
    executeSubquery env outcomes subquery = executeSubquery env outcomes' subquery := by
  have hresults : outcomes.mapValues Summary.result = outcomes'.mapValues Summary.result := by
    have hmap := congrArg (Dict.mapValues View.result) h
    rwa [Dict.mapValues_mapValues, Dict.mapValues_mapValues] at hmap
  have hbind : bindAndInvoke env outcomes subquery = bindAndInvoke env outcomes' subquery := by
    rw [bindAndInvoke, bindAndInvoke, hresults]
  have hfilter : ∀ (p : View V → Bool) (l : List (String × Summary V)),
      (l.filter fun d => p d.2.view).map (Prod.map id Summary.view) =
        (l.map (Prod.map id Summary.view)).filter fun d => p d.2 := fun p l => by
    rw [List.filter_map]
    rfl
  have hdependencies := map_view_of_dependencyOutcomes h subquery.dependsOn
  unfold executeSubquery
  cases hd : dependencyOutcomes outcomes subquery.dependsOn <;>
    cases hd' : dependencyOutcomes outcomes' subquery.dependsOn <;> rw [hd, hd'] at hdependencies
  · exact congrArg Except.error (Except.error.inj hdependencies)
  · cases hdependencies
  · cases hdependencies
  · rename_i l l'
    have hl : l.map (Prod.map id Summary.view) = l'.map (Prod.map id Summary.view) :=
      Except.ok.inj hdependencies
    have hfailed := congrArg (List.filter fun d => View.isFailed d.2) hl
    have hempty := congrArg (List.filter fun d => View.isEmpty d.2) hl
    rw [← hfilter, ← hfilter] at hfailed hempty
    have hids := congrArg (List.map Prod.fst) hfailed
    have hreasons := congrArg (List.map fun d => View.emptyReason d.2) hempty
    simp only [List.map_map] at hids hreasons
    have hnil : ∀ {m m' : List (String × Summary V)},
        m.map (Prod.map id Summary.view) = m'.map (Prod.map id Summary.view) →
          (m ≠ [] ↔ m' ≠ []) := fun hm => by
      rw [← not_iff_not, not_not, not_not, ← List.map_eq_nil_iff, hm, List.map_eq_nil_iff]
    simp only [ok_bind]
    refine if_congr (hnil hfailed) ?_ (if_congr (hnil hempty) ?_ hbind)
    · refine congrArg Except.ok (congrArg (Handled.mk subquery none none) ?_)
      exact congrArg dependencyFailure hids
    · refine congrArg Except.ok (congrArg (Handled.mk subquery none none) ?_)
      exact congrArg dependencyEmpty hreasons

/-! ### Another wording -/

/-- A run of an agent, with another wording of its error. -/
def rewordState (reword : String → String) (s : State V) : State V :=
  { s with error := s.error.map reword }

/-- A handled subquery, with another wording of the error of an agent of the tool. -/
def Handled.reword (tool : ToolName) (reword : String → String) (h : Handled V) : Handled V :=
  match h.invoked with
  | none => h
  | some (input, s) =>
      if h.subquery.tool = tool then
        ⟨h.subquery, some (input, rewordState reword s), h.queryText,
          { h.summary with error := h.summary.error.map reword }⟩
      else h

/-- The agent of the tool words its errors in another way. -/
def Env.reword (env : Env V) (tool : ToolName) (reword : String → String) : Env V :=
  { env with
    agents := fun tool' input =>
      if tool' = tool then (env.agents tool' input).map (rewordState reword)
      else env.agents tool' input }

section

variable {tool : ToolName} {reword : String → String}

theorem reword_subquery (h : Handled V) : (h.reword tool reword).subquery = h.subquery := by
  unfold Handled.reword
  split
  · rfl
  · split_ifs <;> rfl

theorem view_reword (h : Handled V) : (h.reword tool reword).summary.view = h.summary.view := by
  unfold Handled.reword
  split
  · rfl
  · split_ifs
    · simp only [Summary.view, Summary.isFailed, Summary.isEmpty, Option.isSome_map]
    · rfl

theorem mapValues_view_replay (tool : ToolName) (reword : String → String)
    (handled : List (Handled V)) :
    (replay (handled.map (Handled.reword tool reword))).outcomes.mapValues Summary.view =
      (replay handled).outcomes.mapValues Summary.view := by
  induction handled using List.reverseRecOn with
  | nil => rfl
  | append_singleton handled last ih =>
    rw [List.map_append, List.map_singleton, replay_concat, replay_concat, Progress.record,
      Progress.record, Dict.mapValues_set, Dict.mapValues_set, ih, reword_subquery, view_reword]

/-- One subquery with the reworded agent. -/
theorem executeSubquery_reword (outcomes : Dict String (Summary V)) (subquery : Subquery) :
    executeSubquery (env.reword tool reword) outcomes subquery =
      (executeSubquery env outcomes subquery).map (Handled.reword tool reword) := by
  have hinvoke : ∀ arrays, invokeAgent (env.reword tool reword) subquery arrays =
      (invokeAgent env subquery arrays).map (Handled.reword tool reword) := by
    intro arrays
    show invokeAgent (env.reword tool reword) subquery arrays = _
    by_cases htool : subquery.tool = tool
    · have hagent : (env.reword tool reword).agents subquery.tool (agentInput env subquery arrays) =
          (env.agents subquery.tool (agentInput env subquery arrays)).map (rewordState reword) :=
        if_pos htool
      simp only [invokeAgent]
      rw [show agentInput (env.reword tool reword) subquery arrays = agentInput env subquery arrays
        from rfl, hagent]
      cases env.agents subquery.tool (agentInput env subquery arrays) with
      | error abort => rfl
      | ok s =>
        simp only [Except.map, rewordState]
        cases s.messages.getLast? with
        | none => rfl
        | some message =>
          simp only [Handled.reword, if_pos htool]
          rfl
    · have hagent : (env.reword tool reword).agents subquery.tool (agentInput env subquery arrays) =
          env.agents subquery.tool (agentInput env subquery arrays) := if_neg htool
      simp only [invokeAgent]
      rw [show agentInput (env.reword tool reword) subquery arrays = agentInput env subquery arrays
        from rfl, hagent]
      cases env.agents subquery.tool (agentInput env subquery arrays) with
      | error abort => rfl
      | ok s =>
        dsimp only
        cases s.messages.getLast? with
        | none => rfl
        | some message => simp only [Except.map, Handled.reword, if_neg htool]
  have hbind : bindAndInvoke (env.reword tool reword) outcomes subquery =
      (bindAndInvoke env outcomes subquery).map (Handled.reword tool reword) := by
    unfold bindAndInvoke
    cases collectInputBindings subquery.inputBindings (outcomes.mapValues Summary.result) with
    | error message => rfl
    | ok arrays => exact hinvoke arrays
  unfold executeSubquery
  cases dependencyOutcomes outcomes subquery.dependsOn with
  | error interrupt => rfl
  | ok dependencies =>
    simp only [ok_bind]
    rw [hbind]
    split_ifs <;> rfl

/-- **A plan with the reworded agent** runs the same way. -/
theorem executePlan_reword (tool : ToolName) (reword : String → String) {plan : List Subquery}
    {progress : Progress V} (hrun : executePlan env plan = .ok progress) :
    executePlan (env.reword tool reword) plan =
      .ok (replay (progress.handled.map (Handled.reword tool reword))) := by
  let R : Progress V → Progress V → Prop := fun s t => s = replay s.handled ∧
    t = replay (s.handled.map (Handled.reword tool reword))
  have hdone : ∀ s t, R s t → t.outcomes.keys = s.outcomes.keys := by
    rintro s t ⟨hs, rfl⟩
    have hviews := mapValues_view_replay tool reword s.handled
    rw [← Dict.keys_mapValues Summary.view, hviews, Dict.keys_mapValues, ← hs]
  have hstep : ∀ s s' t wave, R s t → executeWave env s wave = .ok s' →
      ∃ t', executeWave (env.reword tool reword) t wave = .ok t' ∧ R s' t' := by
    rintro s s' t wave ⟨hs, rfl⟩ hwave
    rw [hs] at hwave
    obtain ⟨results, hresults, rfl⟩ := executeWave_eq_ok.1 hwave
    refine ⟨_, executeWave_eq_ok.2 ⟨results.map (Handled.reword tool reword), ?_, rfl⟩, ?_, ?_⟩
    · have heach : executeSubquery (env.reword tool reword)
          (replay (s.handled.map (Handled.reword tool reword))).outcomes = fun subquery =>
            (executeSubquery env (replay s.handled).outcomes subquery).map
              (Handled.reword tool reword) := by
        funext subquery
        rw [executeSubquery_congr (mapValues_view_replay tool reword s.handled),
          executeSubquery_reword]
      rw [heach, each_map, hresults]
      rfl
    · rw [replay_handled]
    · rw [replay_handled, List.map_append]
  have hstart : R .start .start := ⟨rfl, rfl⟩
  unfold executePlan at hrun ⊢
  obtain ⟨t, ht, -, rfl⟩ := Waves.sweep_rel hdone hstep hstart hrun
  exact ht

end

end Execution
