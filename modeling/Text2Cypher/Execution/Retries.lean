import Mathlib.Algebra.GroupWithZero.Nat
import Text2Cypher.Execution.Replay
import Text2Cypher.Retry.Diagnostics

/-!
# The retry counter of a plan

When the injected agents are retry agents, the counter that `execute_plan` returns is the number of
regenerations that a violated result invariant has really caused.
-/

namespace Execution

open Checks Planning Query Retry

variable {V : Type} {env : Env V}

/-- What a handled subquery has to do with its agent: its summary is that of the run, and a subquery
that was skipped reports no diagnostics. -/
def Reported (env : Env V) (h : Handled V) : Prop :=
  match h.invoked with
  | none => h.summary.retryDiagnostics = []
  | some (input, s) => env.agents h.subquery.tool input = .ok s ∧ h.summary = resultSummary s

theorem reported_of_executeSubquery {outcomes : Dict String (Summary V)} {subquery : Subquery}
    {h : Handled V} (hrun : executeSubquery env outcomes subquery = .ok h) : Reported env h := by
  obtain ⟨_, hdiagnostics, rfl⟩ | ⟨_, _, _, hagent, rfl⟩ := executeSubquery_cases hrun
  · exact hdiagnostics
  · exact ⟨hagent, rfl⟩

/-- Every plan that is executed is a replay of reported subqueries. -/
theorem reported_of_executePlan {plan : List Subquery} {progress : Progress V}
    (hrun : executePlan env plan = .ok progress) :
    progress = replay progress.handled ∧ ∀ h ∈ progress.handled, Reported env h := by
  refine Waves.sweep_rule (I := fun progress _ => progress = replay progress.handled ∧
    ∀ h ∈ progress.handled, Reported env h) ?_ ⟨rfl, by simp [Progress.start]⟩ hrun
  rintro s s' pending ⟨hs, hreported⟩ - hwave
  rw [hs] at hwave
  obtain ⟨results, hresults, rfl⟩ := executeWave_eq_ok.1 hwave
  rw [replay_handled]
  refine ⟨rfl, fun h hmem => ?_⟩
  rcases List.mem_append.1 hmem with hmem | hmem
  · exact hreported h hmem
  · obtain ⟨subquery, -, hsubquery⟩ := exists_of_forall₂ (forall₂_of_each hresults) hmem
    exact reported_of_executeSubquery hsubquery

/-! ### Retry agents -/

/-- The agent that `make_retry_agent_subgraph` builds from a configuration. -/
def retryAgent (config : Config V) (input : Input V) : Except Abort (State V) :=
  match hend : (run config input).2 with
  | .done s => .ok s
  | .aborted abort => .error abort
  | .cut => absurd hend (run_ne_cut config input)

theorem run_of_retryAgent {config : Config V} {input : Input V} {s : State V}
    (h : retryAgent config input = .ok s) : run config input = ((run config input).1, .done s) := by
  unfold retryAgent at h
  split at h
  · rename_i s' hend
    obtain rfl := Except.ok.inj h
    exact Prod.ext rfl hend
  · cases h
  · rename_i hend
    exact absurd hend (run_ne_cut config input)

/-- The regenerations behind a handled subquery that a violated result invariant has caused: the
attempts of its run, the last one apart, in which the result contract complained. -/
def invariantRegenerations (configs : ToolName → Config V) (h : Handled V) : ℕ :=
  match h.invoked with
  | none => 0
  | some (input, _) =>
      (run (configs h.subquery.tool) input).1.dropLast.countP (·.any Call.violatesInvariant)

/-- **Recorded retry decisions are the decisions taken**: in every run of a retry agent the
diagnostics describe what happened, and for every plan the counter of the output is the number of
regenerations that a violated result invariant has caused, over all agents. -/
theorem retry_decisions_agree (configs : ToolName → Config V) (schemas : ToolName → String)
    (query : String) (entity : Option V) :
    (∀ tool input history s, run (configs tool) input = (history, .done s) →
      Diagnosed history s) ∧
    ∀ plan progress,
      executePlan ⟨fun tool => retryAgent (configs tool), schemas, query, entity⟩ plan =
        .ok progress →
      progress.output.resultInvariantRetryCount =
        (progress.handled.map (invariantRegenerations configs)).sum := by
  refine ⟨fun tool input history s => run_diagnosed, fun plan progress hrun => ?_⟩
  obtain ⟨hreplay, hreported⟩ := reported_of_executePlan hrun
  rw [hreplay, replay_retryCount, replay_handled]
  refine congrArg List.sum (List.map_congr_left fun h hmem => ?_)
  have hh := hreported h hmem
  unfold Reported at hh
  unfold invariantRegenerations
  split at hh
  · rename_i hnone
    rw [scheduledInvariantRetries, hh]
    rfl
  · rename_i input s hsome
    rw [scheduledInvariantRetries, hh.2]
    exact (run_diagnosed (run_of_retryAgent hh.1)).regenerations

/-- A retry agent whose result contract complains once. -/
def onceConfig (_ : ToolName) : Config Unit :=
  { plainConfig none with
    resultContractError := some fun attempt _ _ =>
      .ok (if attempt = 1 then some "bom_path_v1" else none) }

def oncePlan : List Subquery := [⟨"names", .graph, "제품 이름", [], ["name"], [], .empty, []⟩]

theorem retry_decisions_agree_once :
    ∃ progress, executePlan
        ⟨fun tool => retryAgent (onceConfig tool), fun _ => "", "제품 이름", none⟩ oncePlan =
          .ok progress ∧
      progress.output.resultInvariantRetryCount =
        (progress.handled.map (invariantRegenerations onceConfig)).sum ∧
      progress.output.resultInvariantRetryCount = 1 :=
  ⟨_, rfl, (retry_decisions_agree onceConfig _ _ _).2 oncePlan _ rfl, rfl⟩

end Execution
