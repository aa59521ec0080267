import Mathlib.Algebra.GroupWithZero.Nat
import Text2Cypher.Execution.Plan

/-!
# The progress as a replay

Whatever `execute_plan` has recorded is determined by what it has handled, in order: the progress is
the replay of this list.  Facts about the output are then facts about lists.

* `replay_outcomes`, `replay_retryCount`, `replay_result`: outcomes, counter and result fields of a
  replay;
* `executeWave_eq_ok`: a wave continues the replay with the results of its subqueries.
-/

namespace Execution

open Checks Planning Query Retry

variable {V : Type} {env : Env V} {handled : List (Handled V)}

/-- The progress after these were handled, in this order. -/
def replay (handled : List (Handled V)) : Progress V := handled.foldl Progress.record .start

theorem replay_append (a b : List (Handled V)) :
    replay (a ++ b) = b.foldl Progress.record (replay a) := List.foldl_append

theorem replay_concat (handled : List (Handled V)) (last : Handled V) :
    replay (handled ++ [last]) = (replay handled).record last := replay_append _ _

theorem replay_handled : (replay handled).handled = handled := by
  induction handled using List.reverseRecOn with
  | nil => rfl
  | append_singleton handled last ih =>
    rw [replay_concat, Progress.record, ih]

/-! ### Outcomes -/

theorem mem_keys_replay {id : String} :
    id ∈ (replay handled).outcomes.keys ↔ ∃ h ∈ handled, h.subquery.id = id := by
  induction handled using List.reverseRecOn with
  | nil => exact iff_of_false List.not_mem_nil (by simp)
  | append_singleton handled last ih =>
    rw [replay_concat, Progress.record, Dict.mem_keys_set, ih]
    simp only [List.mem_append, List.mem_singleton, or_and_right, exists_or, exists_eq_left]
    rw [or_comm, @eq_comm _ id]

/-- The outcomes of subqueries with distinct IDs, in the order of handling. -/
theorem replay_outcomes (hnodup : (handled.map fun h => h.subquery.id).Nodup) :
    (replay handled).outcomes.entries = handled.map fun h => (h.subquery.id, h.summary) := by
  induction handled using List.reverseRecOn with
  | nil => rfl
  | append_singleton handled last ih =>
    rw [List.map_append, List.nodup_append] at hnodup
    have hnew : last.subquery.id ∉ (replay handled).outcomes.keys := by
      rw [mem_keys_replay]
      rintro ⟨h, hmem, hid⟩
      exact hnodup.2.2 _ (List.mem_map_of_mem hmem) _ List.mem_cons_self hid
    rw [replay_concat, Progress.record, Dict.entries_set_of_not_mem hnew, ih hnodup.1,
      List.map_append, List.map_singleton]

theorem get?_replay (hnodup : (handled.map fun h => h.subquery.id).Nodup) {id : String}
    {summary : Summary V} :
    (replay handled).outcomes.get? id = some summary ↔
      ∃ h ∈ handled, h.subquery.id = id ∧ h.summary = summary := by
  rw [Dict.get?_eq_some_iff, replay_outcomes hnodup, List.mem_map]
  simp only [Prod.mk.injEq]

/-- What is known is not forgotten. -/
theorem get?_replay_append {results : List (Handled V)}
    (hnodup : ((handled ++ results).map fun h => h.subquery.id).Nodup) {id : String}
    (hid : id ∈ (replay handled).outcomes.keys) :
    (replay (handled ++ results)).outcomes.get? id = (replay handled).outcomes.get? id := by
  obtain ⟨summary, hsummary⟩ := Dict.exists_get?_of_mem_keys hid
  rw [hsummary, get?_replay hnodup]
  rw [List.map_append, List.nodup_append] at hnodup
  obtain ⟨h, hmem, hh⟩ := (get?_replay hnodup.1).1 hsummary
  exact ⟨h, List.mem_append_left _ hmem, hh⟩

/-! ### Output -/

theorem record_result (output : Output V) (h : Handled V) (tool : ToolName) :
    (output.record h).result tool =
      if h.subquery.tool = tool then some h.summary else output.result tool := by
  unfold Output.record
  cases h.summary.failure <;> cases h.queryText <;> cases h.subquery.tool <;> cases tool <;> rfl

theorem record_query (output : Output V) (h : Handled V) (tool : ToolName) :
    (output.record h).query tool =
      if h.subquery.tool = tool then h.queryText.or (output.query tool)
      else output.query tool := by
  unfold Output.record
  cases h.summary.failure <;> cases h.queryText <;> cases h.subquery.tool <;> cases tool <;> rfl

theorem record_retryCount (output : Output V) (h : Handled V) :
    (output.record h).resultInvariantRetryCount =
      output.resultInvariantRetryCount + scheduledInvariantRetries h.summary := by
  unfold Output.record
  cases h.summary.failure <;> cases h.queryText <;> cases h.subquery.tool <;> rfl

/-- The counter adds up what the summaries report. -/
theorem replay_retryCount :
    (replay handled).output.resultInvariantRetryCount =
      (handled.map fun h => scheduledInvariantRetries h.summary).sum := by
  induction handled using List.reverseRecOn with
  | nil => rfl
  | append_singleton handled last ih =>
    rw [replay_concat, Progress.record, record_retryCount, ih, List.map_append, List.sum_append,
      List.map_singleton, List.sum_singleton]

/-- A tool that was not asked for leaves its fields empty. -/
theorem replay_result_none {tool : ToolName} (h : ∀ h ∈ handled, h.subquery.tool ≠ tool) :
    (replay handled).output.result tool = none ∧ (replay handled).output.query tool = none := by
  induction handled using List.reverseRecOn with
  | nil => cases tool <;> exact ⟨rfl, rfl⟩
  | append_singleton handled last ih =>
    have hlast := h last (List.mem_append_right _ List.mem_cons_self)
    rw [replay_concat, Progress.record, record_result, record_query, if_neg hlast, if_neg hlast]
    exact ih fun h' hmem => h h' (List.mem_append_left _ hmem)

/-- With one subquery for a tool, its fields hold the outcome of this subquery. -/
theorem replay_result (hnodup : (handled.map fun h => h.subquery.tool).Nodup) {h : Handled V}
    (hmem : h ∈ handled) :
    (replay handled).output.result h.subquery.tool = some h.summary ∧
      (replay handled).output.query h.subquery.tool = h.queryText := by
  induction handled using List.reverseRecOn with
  | nil => cases hmem
  | append_singleton handled last ih =>
    rw [List.map_append, List.nodup_append] at hnodup
    have hother : ∀ h' ∈ handled, h'.subquery.tool ≠ last.subquery.tool := fun h' hmem' htool =>
      hnodup.2.2 _ (List.mem_map_of_mem hmem') _ List.mem_cons_self htool
    rw [replay_concat, Progress.record, record_result, record_query]
    rcases List.mem_append.1 hmem with hmem | hmem
    · rw [if_neg (hother h hmem).symm, if_neg (hother h hmem).symm]
      exact ih hnodup.1 hmem
    · obtain rfl := List.mem_singleton.1 hmem
      rw [if_pos rfl, if_pos rfl, (replay_result_none hother).2, Option.or_none]
      exact ⟨rfl, rfl⟩

/-! ### Waves -/

theorem executeWave_eq_ok {wave : List Subquery} {progress : Progress V} :
    executeWave env (replay handled) wave = .ok progress ↔
      ∃ results, each (executeSubquery env (replay handled).outcomes) wave = .ok results ∧
        progress = replay (handled ++ results) := by
  simp only [executeWave, bind_eq_ok, pure_eq_ok, replay_append]
  exact exists_congr fun results => and_congr_right fun _ => eq_comm

/-- What became of a subquery: it was skipped, or its agent has run. -/
theorem executeSubquery_cases {outcomes : Dict String (Summary V)} {subquery : Subquery}
    {h : Handled V} (hrun : executeSubquery env outcomes subquery = .ok h) :
    (∃ summary, summary.retryDiagnostics = [] ∧ h = ⟨subquery, none, none, summary⟩) ∨
      ∃ input s queryText, env.agents subquery.tool input = .ok s ∧
        h = ⟨subquery, some (input, s), some queryText, resultSummary s⟩ := by
  simp only [executeSubquery, bind_eq_ok] at hrun
  obtain ⟨dependencies, -, hrun⟩ := hrun
  split_ifs at hrun
  · exact Or.inl ⟨_, rfl, (Except.ok.inj hrun).symm⟩
  · exact Or.inl ⟨_, rfl, (Except.ok.inj hrun).symm⟩
  · unfold bindAndInvoke at hrun
    split at hrun
    · exact Or.inl ⟨_, rfl, (Except.ok.inj hrun).symm⟩
    · unfold invokeAgent at hrun
      dsimp only at hrun
      split at hrun
      · cases hrun
      · rename_i s hagent
        split at hrun
        · cases hrun
        · exact Or.inr ⟨_, s, _, hagent, (Except.ok.inj hrun).symm⟩

theorem executeSubquery_subquery {outcomes : Dict String (Summary V)} {subquery : Subquery}
    {h : Handled V} (hrun : executeSubquery env outcomes subquery = .ok h) :
    h.subquery = subquery := by
  obtain ⟨_, _, rfl⟩ | ⟨_, _, _, _, rfl⟩ := executeSubquery_cases hrun <;> rfl

end Execution
