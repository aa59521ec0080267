import Mathlib.Data.Prod.Lex
import Mathlib.Data.String.Basic
import Text2Cypher.Library.Grouping
import Text2Cypher.Planning.Subquery

/-!
# The change regression gate

The records of an evaluation are judged against a classification of the cases that was fixed
before, and against the cases that passed in the last clean run.  Every case is judged by the
outcomes of all its runs.

* `mem_regressions`, `mem_rerunRequired`: what is listed, as a property of the set of records;
* **`changeRegressionGate_exact`**: the gate does not depend on the order of the records, a failure
  more never improves it, and it passes exactly when the policy asks for it.
-/

namespace RegressionGate

open Planning (Json)

/-! ### The gate -/

/-- What the gate reads of a record, with `null` for what is missing. -/
structure Record where
  caseId : Json
  queryPipelinePass : Json
  status : Json

/-- The policy: its errors, and the classified cases; `none` if `cases` is not a dictionary. -/
structure StabilityPolicy where
  compatibilityErrors : List String
  cases : Option (Dict String Json)

/-- The last clean run: its errors, and `[]` for missing IDs of passed cases. -/
structure RatchetBaseline where
  compatibilityErrors : List String
  passCaseIds : Json

inductive Status
  | notEvaluated
  | fail
  | rerunRequired
  | pass
  deriving DecidableEq

def Status.text : Status → String
  | .notEvaluated => "NOT_EVALUATED"
  | .fail => "FAIL"
  | .rerunRequired => "RERUN_REQUIRED"
  | .pass => "PASS"

/-- The result of the gate; a regression is a case with the reason. -/
structure Gate where
  status : Status
  compatibilityErrors : List String
  regressions : List (String × String)
  rerunRequired : List String

def incomplete : String := "INCOMPLETE_OR_INFRASTRUCTURE_ERROR"

def consistentPassRegression : String := "G0_CONSISTENT_PASS_REGRESSION"

def variableBecameFail : String := "G0_VARIABLE_BECAME_CONSISTENT_FAIL"

def ratchetRegression : String := "RATCHET_PASS_REGRESSION"

def Record.isError (record : Record) : Bool :=
  match record.status with
  | .str status => status == "ERROR"
  | _ => false

/-- `isinstance(outcome, bool)`. -/
def Record.hasOutcome (record : Record) : Bool :=
  match record.queryPipelinePass with
  | .bool _ => true
  | _ => false

/-- `outcome is False`. -/
def Record.failed (record : Record) : Bool :=
  match record.queryPipelinePass with
  | .bool outcome => !outcome
  | _ => false

/-- `outcome` of the item of a case. -/
def baselineOutcome (policyCases : Dict String Json) (caseId : String) : Option String :=
  match policyCases.get? caseId with
  | some (.object fields) =>
    match Json.get? fields "outcome" with
    | some (.str outcome) => some outcome
    | _ => none
  | _ => none

/-- `records_by_case`. -/
def recordsByCase (records : List Record) : List (String × List Record) :=
  Join.group [] (records.filterMap fun record =>
    match record.caseId with
    | .str caseId => some (caseId, record)
    | _ => none)

/-- `sorted(records_by_case.items())`. -/
def sortedCases (records : List Record) : List (String × List Record) :=
  (recordsByCase records).insertionSort fun group group' => group.1 ≤ group'.1

def ratchetIds : Option RatchetBaseline → List String
  | some ⟨_, .array ids⟩ => ids.filterMap fun id =>
    match id with
    | .str caseId => some caseId
    | _ => none
  | _ => []

section

variable (policyCases : Dict String Json) (passIds : List String)

/-- The regressions of a case, and whether it must run again. -/
def judgeCase (caseId : String) (caseRecords : List Record) : List String × Bool :=
  if caseRecords.any Record.isError || caseRecords.any fun record => !record.hasOutcome then
    ([incomplete], false)
  else
    let failures := caseRecords.countP Record.failed
    let outcome := baselineOutcome policyCases caseId
    let classified :=
      if outcome = some "CONSISTENT_PASS" ∧ failures ≠ 0 then ([consistentPassRegression], false)
      else if outcome = some "VARIABLE" ∧ failures ≠ 0 then
        if 3 ≤ caseRecords.length ∧ failures = caseRecords.length then ([variableBecameFail], false)
        else ([], decide (caseRecords.length < 3))
      else ([], false)
    let ratcheted := if caseId ∈ passIds ∧ failures ≠ 0 then [ratchetRegression] else []
    (classified.1 ++ ratcheted, classified.2)

/-- The loop over the cases. -/
def regressionsOf (cases : List (String × List Record)) : List (String × String) :=
  cases.flatMap fun group =>
    (judgeCase policyCases passIds group.1 group.2).1.map fun reason => (group.1, reason)

def rerunsOf (cases : List (String × List Record)) : List String :=
  (cases.filter fun group => (judgeCase policyCases passIds group.1 group.2).2).map Prod.fst

end

/-- The errors of policy and baseline, and of the set of cases. -/
def compatibilityErrorsOf (policy : StabilityPolicy) (ratchetBaseline : Option RatchetBaseline)
    (cases : List (String × List Record)) : List String :=
  let policyKeys := (policy.cases.map Dict.keys).getD []
  policy.compatibilityErrors ++
    (if policy.cases.isSome then [] else ["stability policy cases are invalid"]) ++
    (if cases.map Prod.fst ⊆ policyKeys ∧ policyKeys ⊆ cases.map Prod.fst then []
      else ["stability policy case set mismatch"]) ++
    (ratchetBaseline.map RatchetBaseline.compatibilityErrors).getD []

/-- Pairs as a sorted set. -/
def sortedItems (items : List (String × String)) : List (String × String) :=
  (Grouping.sortedSet (items.map toLex)).map ofLex

/-- **`build_change_regression_gate`.** -/
def changeRegressionGate (records : List Record) (stabilityPolicy : Option StabilityPolicy)
    (ratchetBaseline : Option RatchetBaseline) : Gate :=
  match stabilityPolicy with
  | none => ⟨.notEvaluated, ["stability policy unavailable"], [], []⟩
  | some policy =>
    let policyCases := policy.cases.getD Dict.empty
    let passIds := ratchetIds ratchetBaseline
    let cases := sortedCases records
    let compatibilityErrors := compatibilityErrorsOf policy ratchetBaseline cases
    let regressions := regressionsOf policyCases passIds cases
    let rerunRequired := rerunsOf policyCases passIds cases
    let items := sortedItems regressions
    let status :=
      if compatibilityErrors ≠ [] ∨ items ≠ [] then Status.fail
      else if rerunRequired ≠ [] then .rerunRequired
      else .pass
    ⟨status, Grouping.sortedSet compatibilityErrors, items, Grouping.sortedSet rerunRequired⟩

/-! ### The records of a case -/

/-- A record of a case. -/
def Record.isOf (caseId : String) (record : Record) : Bool :=
  match record.caseId with
  | .str name => name == caseId
  | _ => false

theorem Record.isOf_eq_true {caseId : String} {record : Record} :
    record.isOf caseId = true ↔ record.caseId = .str caseId := by
  unfold Record.isOf
  cases record.caseId <;> simp

def recordsOf (records : List Record) (caseId : String) : List Record :=
  records.filter (Record.isOf caseId)

/-- A case with records. -/
def HasRecords (records : List Record) (caseId : String) : Prop :=
  ∃ record ∈ records, record.caseId = .str caseId

/-- The cases of the loop are the cases with records. -/
theorem mem_recordsByCase {records : List Record} {group : String × List Record} :
    group ∈ recordsByCase records ↔
      HasRecords records group.1 ∧ group.2 = recordsOf records group.1 := by
  rw [recordsByCase, Grouping.mem_group]
  refine and_congr ?_ ?_
  · constructor
    · intro h
      obtain ⟨row, hrow, hkey⟩ := List.mem_map.1 h
      obtain ⟨record, hrecord, hsome⟩ := List.mem_filterMap.1 hrow
      refine ⟨record, hrecord, ?_⟩
      split at hsome
      · next heq =>
        obtain rfl := Option.some.inj hsome
        rw [← hkey, heq]
      · cases hsome
    · rintro ⟨record, hrecord, hcase⟩
      refine List.mem_map.2 ⟨(group.1, record), List.mem_filterMap.2 ⟨record, hrecord, ?_⟩, rfl⟩
      rw [hcase]
  · have hlist : ((records.filterMap fun record =>
        match record.caseId with
        | .str caseId => some (caseId, record)
        | _ => none).filter fun row => row.1 == group.1).map Prod.snd =
          recordsOf records group.1 := by
      induction records with
      | nil => rfl
      | cons record records ih =>
        cases hcase : record.caseId with
        | str name =>
          by_cases hname : name = group.1
          · have hof : record.isOf group.1 = true := by
              rw [Record.isOf_eq_true, hcase, hname]
            simp [recordsOf, hcase, hname, hof, ih]
          · have hof : ¬ record.isOf group.1 = true := by
              rw [Record.isOf_eq_true, hcase]
              simpa using hname
            simp [recordsOf, hcase, hname, hof, ih]
        | _ =>
          have hof : ¬ record.isOf group.1 = true := by
            rw [Record.isOf_eq_true, hcase]
            simp
          simp [recordsOf, hcase, hof, ih]
    rw [hlist]

/-! ### One case -/

/-- Every run of a case has an outcome. -/
def Complete (caseRecords : List Record) : Prop :=
  ∀ record ∈ caseRecords, record.status ≠ .str "ERROR" ∧
    ∃ outcome, record.queryPipelinePass = .bool outcome

theorem Record.isError_eq_true {record : Record} :
    record.isError = true ↔ record.status = .str "ERROR" := by
  unfold Record.isError
  cases record.status <;> simp

theorem Record.hasOutcome_eq_true {record : Record} :
    record.hasOutcome = true ↔ ∃ outcome, record.queryPipelinePass = .bool outcome := by
  unfold Record.hasOutcome
  cases record.queryPipelinePass <;> simp

theorem Record.failed_eq_true {record : Record} :
    record.failed = true ↔ record.queryPipelinePass = .bool false := by
  unfold Record.failed
  cases record.queryPipelinePass <;> simp

theorem complete_iff {caseRecords : List Record} :
    Complete caseRecords ↔
      (caseRecords.any Record.isError || caseRecords.any fun record => !record.hasOutcome) =
        false := by
  rw [Bool.or_eq_false_iff, List.any_eq_false, List.any_eq_false, ← forall₂_and]
  refine forall₂_congr fun record _ => ?_
  rw [Record.isError_eq_true, Bool.not_eq_true', Bool.not_eq_false, Record.hasOutcome_eq_true]

section

variable (policyCases : Dict String Json) (passIds : List String)

theorem judgeCase_of_not_complete {caseRecords : List Record} (h : ¬ Complete caseRecords)
    (caseId : String) : judgeCase policyCases passIds caseId caseRecords = ([incomplete], false) := by
  rw [complete_iff, Bool.not_eq_false] at h
  rw [judgeCase, if_pos h]

/-- What is listed for a case whose runs all have outcomes. -/
theorem judgeCase_of_complete {caseRecords : List Record} (h : Complete caseRecords)
    (caseId : String) :
    let failures := caseRecords.countP Record.failed
    let outcome := baselineOutcome policyCases caseId
    (∀ reason, reason ∈ (judgeCase policyCases passIds caseId caseRecords).1 ↔
      failures ≠ 0 ∧ (reason = consistentPassRegression ∧ outcome = some "CONSISTENT_PASS" ∨
        reason = variableBecameFail ∧ outcome = some "VARIABLE" ∧ 3 ≤ caseRecords.length ∧
          failures = caseRecords.length ∨
        reason = ratchetRegression ∧ caseId ∈ passIds)) ∧
    ((judgeCase policyCases passIds caseId caseRecords).2 = true ↔
      failures ≠ 0 ∧ outcome = some "VARIABLE" ∧ caseRecords.length < 3) := by
  intro failures outcome
  rw [complete_iff] at h
  rw [judgeCase, if_neg (by rw [h]; exact Bool.false_ne_true)]
  simp only [failures, outcome]
  generalize caseRecords.countP Record.failed = failed
  generalize caseRecords.length = runs
  by_cases hfailed : failed = 0
  · simp [hfailed]
  by_cases hpass : baselineOutcome policyCases caseId = some "CONSISTENT_PASS"
  · simp [hfailed, hpass, and_comm]
  by_cases hvariable : baselineOutcome policyCases caseId = some "VARIABLE"
  · by_cases hruns : 3 ≤ runs ∧ failed = runs
    · obtain ⟨hthree, rfl⟩ := hruns
      have hmore : ¬ failed < 3 := by omega
      simp [hfailed, hvariable, hthree, hmore, and_comm]
    · simp [hfailed, hvariable, hruns, and_comm]
  · simp [hfailed, hpass, hvariable, and_comm]

/-- The verdict on a case does not see the order of its runs. -/
theorem judgeCase_perm {caseRecords caseRecords' : List Record}
    (h : caseRecords.Perm caseRecords') (caseId : String) :
    judgeCase policyCases passIds caseId caseRecords =
      judgeCase policyCases passIds caseId caseRecords' := by
  have hany : ∀ p : Record → Bool, caseRecords.any p = caseRecords'.any p := fun p => by
    rw [Bool.eq_iff_iff, List.any_eq_true, List.any_eq_true]
    exact exists_congr fun record => and_congr_left' h.mem_iff
  simp only [judgeCase, hany, h.countP_eq, h.length_eq]

/-- A run that passed, as a failure. -/
def Record.turned (record : Record) : Record := { record with queryPipelinePass := .bool false }

theorem Record.isOf_turned (caseId : String) (record : Record) :
    record.turned.isOf caseId = record.isOf caseId := rfl

theorem complete_turned {before after : List Record} {record : Record}
    (hpassed : record.queryPipelinePass = .bool true) :
    Complete (before ++ record.turned :: after) ↔ Complete (before ++ record :: after) := by
  have hsame : (record.turned.status ≠ .str "ERROR" ∧
      ∃ outcome, record.turned.queryPipelinePass = .bool outcome) ↔
        (record.status ≠ .str "ERROR" ∧ ∃ outcome, record.queryPipelinePass = .bool outcome) :=
    and_congr_right fun _ => iff_of_true ⟨false, rfl⟩ ⟨true, hpassed⟩
  simp only [Complete, List.forall_mem_append, List.forall_mem_cons, hsame]

/-- **A failure more lists no less**, and a case that had to run again still has to. -/
theorem judgeCase_turned {before after : List Record} {record : Record}
    (hpassed : record.queryPipelinePass = .bool true) (caseId : String) :
    (∀ reason ∈ (judgeCase policyCases passIds caseId (before ++ record :: after)).1,
      reason ∈ (judgeCase policyCases passIds caseId (before ++ record.turned :: after)).1) ∧
    ((judgeCase policyCases passIds caseId (before ++ record :: after)).2 = true →
      (judgeCase policyCases passIds caseId (before ++ record.turned :: after)).2 = true) := by
  by_cases h : Complete (before ++ record :: after)
  · have h' := (complete_turned hpassed).2 h
    obtain ⟨hreasons, hrerun⟩ := judgeCase_of_complete policyCases passIds h caseId
    obtain ⟨hreasons', hrerun'⟩ := judgeCase_of_complete policyCases passIds h' caseId
    have hlength : (before ++ record.turned :: after).length = (before ++ record :: after).length :=
      by simp
    have hfailed : record.failed = false := by simp [Record.failed, hpassed]
    have hturned : record.turned.failed = true := rfl
    have hcount : (before ++ record.turned :: after).countP Record.failed =
        (before ++ record :: after).countP Record.failed + 1 := by
      simp only [List.countP_append, List.countP_cons, hfailed, hturned, if_true,
        Bool.false_eq_true, if_false]
      omega
    have hle : (before ++ record.turned :: after).countP Record.failed ≤
        (before ++ record.turned :: after).length := List.countP_le_length
    constructor
    · intro reason hreason
      rw [hreasons] at hreason
      rw [hreasons']
      obtain ⟨hne, hcases⟩ := hreason
      refine ⟨by omega, ?_⟩
      rcases hcases with hpass | ⟨-, -, -, hall⟩ | hratchet
      · exact Or.inl hpass
      · -- the run that passed is counted among the failures
        omega
      · exact Or.inr (Or.inr hratchet)
    · rw [hrerun, hrerun']
      rintro ⟨hne, hvariable, hruns⟩
      exact ⟨by omega, hvariable, by omega⟩
  · have h' := mt (complete_turned hpassed).1 h
    rw [judgeCase_of_not_complete policyCases passIds h,
      judgeCase_of_not_complete policyCases passIds h']
    exact ⟨fun _ h => h, fun h => h⟩

theorem countP_failed_eq_zero {caseRecords : List Record} :
    caseRecords.countP Record.failed = 0 ↔
      ∀ record ∈ caseRecords, record.queryPipelinePass ≠ .bool false := by
  rw [List.countP_eq_zero]
  exact forall₂_congr fun record _ => not_congr Record.failed_eq_true

/-- Not all runs failed: one of them passed. -/
theorem countP_failed_ne_length {caseRecords : List Record} (h : Complete caseRecords) :
    caseRecords.countP Record.failed ≠ caseRecords.length ↔
      ∃ record ∈ caseRecords, record.queryPipelinePass = .bool true := by
  rw [Ne, List.countP_eq_length]
  constructor
  · intro hnot
    push Not at hnot
    obtain ⟨record, hrecord, hfailed⟩ := hnot
    obtain ⟨outcome, houtcome⟩ := (h record hrecord).2
    refine ⟨record, hrecord, ?_⟩
    cases outcome with
    | true => exact houtcome
    | false => exact absurd (Record.failed_eq_true.2 houtcome) hfailed
  · rintro ⟨record, hrecord, hpassed⟩ hall
    have hfailed := Record.failed_eq_true.1 (hall record hrecord)
    rw [hpassed] at hfailed
    cases hfailed

/-- **A case is clean** if the policy asks for nothing else. -/
theorem judgeCase_eq_clean {caseRecords : List Record} {caseId : String} :
    judgeCase policyCases passIds caseId caseRecords = ([], false) ↔
      Complete caseRecords ∧
      ((baselineOutcome policyCases caseId = some "CONSISTENT_PASS" ∨ caseId ∈ passIds) →
        ∀ record ∈ caseRecords, record.queryPipelinePass ≠ .bool false) ∧
      (baselineOutcome policyCases caseId = some "VARIABLE" →
        (∃ record ∈ caseRecords, record.queryPipelinePass = .bool false) →
        3 ≤ caseRecords.length ∧ ∃ record ∈ caseRecords, record.queryPipelinePass = .bool true) := by
  by_cases h : Complete caseRecords
  · obtain ⟨hreasons, hrerun⟩ := judgeCase_of_complete policyCases passIds h caseId
    have hfailure : (∃ record ∈ caseRecords, record.queryPipelinePass = .bool false) ↔
        caseRecords.countP Record.failed ≠ 0 := by
      rw [Ne, countP_failed_eq_zero]
      push Not
      rfl
    rw [Prod.ext_iff, hfailure, ← countP_failed_eq_zero, ← countP_failed_ne_length h,
      List.eq_nil_iff_forall_not_mem, ← Bool.not_eq_true, hrerun]
    simp only [hreasons]
    constructor
    · rintro ⟨hnone, hruns⟩
      refine ⟨h, fun hpass => ?_, fun hvariable hne => ⟨?_, fun hall => ?_⟩⟩
      · by_contra hne
        rcases hpass with hpass | hratchet
        · exact hnone consistentPassRegression ⟨hne, Or.inl ⟨rfl, hpass⟩⟩
        · exact hnone ratchetRegression ⟨hne, Or.inr (Or.inr ⟨rfl, hratchet⟩)⟩
      · by_contra hfew
        exact hruns ⟨hne, hvariable, by omega⟩
      · by_cases hfew : caseRecords.length < 3
        · exact hruns ⟨hne, hvariable, hfew⟩
        · exact hnone variableBecameFail
            ⟨hne, Or.inr (Or.inl ⟨rfl, hvariable, by omega, hall⟩)⟩
    · rintro ⟨-, hpass, hvariable⟩
      refine ⟨?_, ?_⟩
      · rintro reason ⟨hne, ⟨-, hcase⟩ | ⟨-, hcase, -, hall⟩ | ⟨-, hratchet⟩⟩
        · exact hne (hpass (Or.inl hcase))
        · exact (hvariable hcase hne).2 hall
        · exact hne (hpass (Or.inr hratchet))
      · rintro ⟨hne, hcase, hfew⟩
        have hthree := (hvariable hcase hne).1
        omega
  · rw [judgeCase_of_not_complete policyCases passIds h]
    exact iff_of_false (by simp) fun hclean => h hclean.1

end

/-! ### What is listed -/

@[simp] theorem mem_sortedItems {items : List (String × String)} {item : String × String} :
    item ∈ sortedItems items ↔ item ∈ items := by
  rw [sortedItems, List.mem_map]
  constructor
  · rintro ⟨a, ha, rfl⟩
    obtain ⟨b, hb, rfl⟩ := List.mem_map.1 (Grouping.mem_sortedSet.1 ha)
    exact hb
  · exact fun h => ⟨toLex item, Grouping.mem_sortedSet.2 (List.mem_map_of_mem h), rfl⟩

theorem sortedItems_congr {items items' : List (String × String)}
    (h : ∀ item, item ∈ items ↔ item ∈ items') : sortedItems items = sortedItems items' := by
  have hset : Grouping.sortedSet (items.map toLex) = Grouping.sortedSet (items'.map toLex) := by
    apply Grouping.sortedSet_congr
    intro a
    rw [List.mem_map, List.mem_map]
    exact exists_congr fun item => and_congr_left' (h item)
  rw [sortedItems, sortedItems, hset]

theorem mem_sortedCases {records : List Record} {group : String × List Record} :
    group ∈ sortedCases records ↔
      HasRecords records group.1 ∧ group.2 = recordsOf records group.1 := by
  rw [sortedCases, List.mem_insertionSort, mem_recordsByCase]

theorem mem_caseIds {records : List Record} {caseId : String} :
    caseId ∈ (sortedCases records).map Prod.fst ↔ HasRecords records caseId := by
  rw [List.mem_map]
  constructor
  · rintro ⟨group, hgroup, rfl⟩
    exact (mem_sortedCases.1 hgroup).1
  · exact fun h => ⟨(caseId, recordsOf records caseId), mem_sortedCases.2 ⟨h, rfl⟩, rfl⟩

theorem mem_regressionsOf {policyCases : Dict String Json} {passIds : List String}
    {records : List Record} {item : String × String} :
    item ∈ regressionsOf policyCases passIds (sortedCases records) ↔ HasRecords records item.1 ∧
      item.2 ∈ (judgeCase policyCases passIds item.1 (recordsOf records item.1)).1 := by
  rw [regressionsOf, List.mem_flatMap]
  constructor
  · rintro ⟨group, hgroup, hitem⟩
    obtain ⟨hrecords, hof⟩ := mem_sortedCases.1 hgroup
    obtain ⟨reason, hreason, rfl⟩ := List.mem_map.1 hitem
    rw [hof] at hreason
    exact ⟨hrecords, hreason⟩
  · rintro ⟨hrecords, hreason⟩
    exact ⟨(item.1, recordsOf records item.1), mem_sortedCases.2 ⟨hrecords, rfl⟩,
      List.mem_map.2 ⟨item.2, hreason, rfl⟩⟩

theorem mem_rerunsOf {policyCases : Dict String Json} {passIds : List String}
    {records : List Record} {caseId : String} :
    caseId ∈ rerunsOf policyCases passIds (sortedCases records) ↔ HasRecords records caseId ∧
      (judgeCase policyCases passIds caseId (recordsOf records caseId)).2 = true := by
  rw [rerunsOf, List.mem_map]
  constructor
  · rintro ⟨group, hgroup, rfl⟩
    obtain ⟨hmem, hrerun⟩ := List.mem_filter.1 hgroup
    obtain ⟨hrecords, hof⟩ := mem_sortedCases.1 hmem
    rw [hof] at hrerun
    exact ⟨hrecords, hrerun⟩
  · rintro ⟨hrecords, hrerun⟩
    exact ⟨(caseId, recordsOf records caseId),
      List.mem_filter.2 ⟨mem_sortedCases.2 ⟨hrecords, rfl⟩, hrerun⟩, rfl⟩

section

variable {records records' : List Record} {policy : StabilityPolicy}
  {ratchetBaseline : Option RatchetBaseline}

/-- The two sets of cases are the same. -/
theorem caseIds_eq_iff {keys : List String} :
    ((sortedCases records).map Prod.fst ⊆ keys ∧ keys ⊆ (sortedCases records).map Prod.fst) ↔
      ∀ caseId, HasRecords records caseId ↔ caseId ∈ keys := by
  constructor
  · rintro ⟨hsub, hsub'⟩ caseId
    exact ⟨fun h => hsub (mem_caseIds.2 h), fun h => mem_caseIds.1 (hsub' h)⟩
  · intro h
    exact ⟨fun caseId hmem => (h caseId).1 (mem_caseIds.1 hmem),
      fun caseId hmem => mem_caseIds.2 ((h caseId).2 hmem)⟩

/-- The errors only depend on which cases have records. -/
theorem compatibilityErrorsOf_congr
    (h : ∀ caseId, HasRecords records caseId ↔ HasRecords records' caseId) :
    compatibilityErrorsOf policy ratchetBaseline (sortedCases records) =
      compatibilityErrorsOf policy ratchetBaseline (sortedCases records') := by
  have hsets : ∀ keys : List String,
      ((sortedCases records).map Prod.fst ⊆ keys ∧ keys ⊆ (sortedCases records).map Prod.fst) ↔
        ((sortedCases records').map Prod.fst ⊆ keys ∧
          keys ⊆ (sortedCases records').map Prod.fst) := by
    intro keys
    rw [caseIds_eq_iff, caseIds_eq_iff]
    exact forall_congr' fun caseId => iff_congr (h caseId) Iff.rfl
  simp only [compatibilityErrorsOf, hsets]

theorem compatibilityErrorsOf_eq_nil :
    compatibilityErrorsOf policy ratchetBaseline (sortedCases records) = [] ↔
      policy.compatibilityErrors = [] ∧
      (∀ baseline, ratchetBaseline = some baseline → baseline.compatibilityErrors = []) ∧
      ∃ policyCases, policy.cases = some policyCases ∧
        ∀ caseId, HasRecords records caseId ↔ caseId ∈ policyCases.keys := by
  have hratchet : (ratchetBaseline.map RatchetBaseline.compatibilityErrors).getD [] = [] ↔
      ∀ baseline, ratchetBaseline = some baseline → baseline.compatibilityErrors = [] := by
    cases ratchetBaseline <;> simp
  rw [compatibilityErrorsOf, List.append_eq_nil_iff, List.append_eq_nil_iff,
    List.append_eq_nil_iff, hratchet]
  cases policy.cases with
  | none => simp
  | some policyCases =>
    simp only [Option.isSome_some, if_true, Option.map_some, Option.getD_some, Option.some_inj,
      exists_eq_left', and_true, caseIds_eq_iff, and_assoc, ite_eq_left_iff, List.cons_ne_nil,
      imp_false, Classical.not_not]
    exact and_congr_right fun _ => and_comm

/-- The verdict on a case under a policy. -/
def verdict (policy : StabilityPolicy) (ratchetBaseline : Option RatchetBaseline)
    (records : List Record) (caseId : String) : List String × Bool :=
  judgeCase (policy.cases.getD Dict.empty) (ratchetIds ratchetBaseline) caseId
    (recordsOf records caseId)

/-- The regressions of the gate are those of the cases with records. -/
theorem mem_regressions {item : String × String} :
    item ∈ (changeRegressionGate records (some policy) ratchetBaseline).regressions ↔
      HasRecords records item.1 ∧ item.2 ∈ (verdict policy ratchetBaseline records item.1).1 :=
  mem_sortedItems.trans mem_regressionsOf

theorem mem_rerunRequired {caseId : String} :
    caseId ∈ (changeRegressionGate records (some policy) ratchetBaseline).rerunRequired ↔
      HasRecords records caseId ∧ (verdict policy ratchetBaseline records caseId).2 = true :=
  Grouping.mem_sortedSet.trans mem_rerunsOf

theorem compatibilityErrors_eq_nil :
    (changeRegressionGate records (some policy) ratchetBaseline).compatibilityErrors = [] ↔
      policy.compatibilityErrors = [] ∧
      (∀ baseline, ratchetBaseline = some baseline → baseline.compatibilityErrors = []) ∧
      ∃ policyCases, policy.cases = some policyCases ∧
        ∀ caseId, HasRecords records caseId ↔ caseId ∈ policyCases.keys :=
  Grouping.sortedSet_eq_nil.trans compatibilityErrorsOf_eq_nil

/-- **The gate only depends on the verdicts on the cases with records.** -/
theorem changeRegressionGate_congr
    (h : ∀ caseId, HasRecords records caseId ↔ HasRecords records' caseId)
    (hverdict : ∀ caseId, verdict policy ratchetBaseline records caseId =
      verdict policy ratchetBaseline records' caseId) :
    changeRegressionGate records (some policy) ratchetBaseline =
      changeRegressionGate records' (some policy) ratchetBaseline := by
  have hitems : ∀ item,
      item ∈ regressionsOf (policy.cases.getD Dict.empty) (ratchetIds ratchetBaseline)
          (sortedCases records) ↔
        item ∈ regressionsOf (policy.cases.getD Dict.empty) (ratchetIds ratchetBaseline)
          (sortedCases records') := by
    intro item
    rw [mem_regressionsOf, mem_regressionsOf, h item.1]
    exact and_congr_right fun _ => by rw [← verdict, hverdict, verdict]
  have hreruns : ∀ caseId,
      caseId ∈ rerunsOf (policy.cases.getD Dict.empty) (ratchetIds ratchetBaseline)
          (sortedCases records) ↔
        caseId ∈ rerunsOf (policy.cases.getD Dict.empty) (ratchetIds ratchetBaseline)
          (sortedCases records') := by
    intro caseId
    rw [mem_rerunsOf, mem_rerunsOf, h caseId]
    exact and_congr_right fun _ => by rw [← verdict, hverdict, verdict]
  have hempty : rerunsOf (policy.cases.getD Dict.empty) (ratchetIds ratchetBaseline)
        (sortedCases records) = [] ↔
      rerunsOf (policy.cases.getD Dict.empty) (ratchetIds ratchetBaseline)
        (sortedCases records') = [] := by
    rw [List.eq_nil_iff_forall_not_mem, List.eq_nil_iff_forall_not_mem]
    exact forall_congr' fun caseId => not_congr (hreruns caseId)
  simp only [changeRegressionGate, compatibilityErrorsOf_congr h, sortedItems_congr hitems,
    Grouping.sortedSet_congr hreruns, Ne, hempty]

variable (records policy ratchetBaseline) in
/-- The status, from what is listed. -/
theorem status_cases :
    let gate := changeRegressionGate records (some policy) ratchetBaseline
    (gate.status = .fail ↔ gate.compatibilityErrors ≠ [] ∨ gate.regressions ≠ []) ∧
    (gate.status = .pass ↔
      gate.compatibilityErrors = [] ∧ gate.regressions = [] ∧ gate.rerunRequired = []) ∧
    gate.status ≠ .notEvaluated := by
  intro gate
  have hstatus : gate.status =
      if gate.compatibilityErrors ≠ [] ∨ gate.regressions ≠ [] then Status.fail
      else if gate.rerunRequired ≠ [] then .rerunRequired else .pass := by
    simp [gate, changeRegressionGate]
  rw [hstatus]
  split_ifs with hfail hrerun
  · refine ⟨iff_of_true rfl hfail, iff_of_false (by decide) fun hpass => ?_, by decide⟩
    rcases hfail with hfail | hfail
    · exact hfail hpass.1
    · exact hfail hpass.2.1
  · exact ⟨iff_of_false (by decide) hfail,
      iff_of_false (by decide) fun hpass => hrerun hpass.2.2, by decide⟩
  · push Not at hfail hrerun
    refine ⟨iff_of_false (by decide) ?_, iff_of_true rfl ⟨hfail.1, hfail.2, hrerun⟩, by decide⟩
    rintro (h | h)
    · exact h hfail.1
    · exact h hfail.2

end

/-! ### Order of records, failures, and the policy -/

/-- `FAIL < RERUN_REQUIRED < PASS`. -/
inductive Status.AtMost : Status → Status → Prop
  | refl (status : Status) : AtMost status status
  | fail_rerunRequired : AtMost .fail .rerunRequired
  | fail_pass : AtMost .fail .pass
  | rerunRequired_pass : AtMost .rerunRequired .pass

section

variable {records : List Record} {policy : StabilityPolicy}
  {ratchetBaseline : Option RatchetBaseline}

theorem hasRecords_perm {records' : List Record} (h : records.Perm records') (caseId : String) :
    HasRecords records caseId ↔ HasRecords records' caseId :=
  exists_congr fun _ => and_congr_left' h.mem_iff

theorem verdict_perm {records' : List Record} (h : records.Perm records') (caseId : String) :
    verdict policy ratchetBaseline records caseId =
      verdict policy ratchetBaseline records' caseId :=
  judgeCase_perm _ _ (h.filter _) caseId

variable {before after : List Record} {record : Record}

theorem hasRecords_turned (caseId : String) :
    HasRecords (before ++ record.turned :: after) caseId ↔
      HasRecords (before ++ record :: after) caseId := by
  unfold HasRecords
  simp [Record.turned, or_and_right, exists_or]

theorem verdict_turned (hpassed : record.queryPipelinePass = .bool true) (caseId : String) :
    (∀ reason ∈ (verdict policy ratchetBaseline (before ++ record :: after) caseId).1,
      reason ∈ (verdict policy ratchetBaseline (before ++ record.turned :: after) caseId).1) ∧
    ((verdict policy ratchetBaseline (before ++ record :: after) caseId).2 = true →
      (verdict policy ratchetBaseline (before ++ record.turned :: after) caseId).2 = true) := by
  unfold verdict recordsOf
  rw [List.filter_append, List.filter_append, List.filter_cons, List.filter_cons,
    Record.isOf_turned]
  split_ifs
  · exact judgeCase_turned _ _ hpassed caseId
  · exact ⟨fun _ h => h, fun h => h⟩

/-- A failure more leaves the errors, and lists no less. -/
theorem listed_turned (hpassed : record.queryPipelinePass = .bool true) :
    let gate := changeRegressionGate (before ++ record :: after) (some policy) ratchetBaseline
    let gate' := changeRegressionGate (before ++ record.turned :: after) (some policy)
      ratchetBaseline
    gate'.compatibilityErrors = gate.compatibilityErrors ∧
      gate.regressions ⊆ gate'.regressions ∧ gate.rerunRequired ⊆ gate'.rerunRequired := by
  intro gate gate'
  refine ⟨?_, fun item hitem => ?_, fun caseId hcase => ?_⟩
  · show Grouping.sortedSet _ = Grouping.sortedSet _
    rw [compatibilityErrorsOf_congr hasRecords_turned]
  · obtain ⟨hrecords, hreason⟩ := mem_regressions.1 hitem
    refine mem_regressions.2 ⟨(hasRecords_turned _).2 hrecords, ?_⟩
    exact (verdict_turned hpassed item.1).1 item.2 hreason
  · obtain ⟨hrecords, hrerun⟩ := mem_rerunRequired.1 hcase
    refine mem_rerunRequired.2 ⟨(hasRecords_turned _).2 hrecords, ?_⟩
    exact (verdict_turned hpassed caseId).2 hrerun

/-- **A failure more never raises the status.** -/
theorem status_turned (hpassed : record.queryPipelinePass = .bool true) :
    (changeRegressionGate (before ++ record.turned :: after) (some policy)
        ratchetBaseline).status.AtMost
      (changeRegressionGate (before ++ record :: after) (some policy) ratchetBaseline).status := by
  obtain ⟨herrors, hregressions, hreruns⟩ :
      let gate := changeRegressionGate (before ++ record :: after) (some policy) ratchetBaseline
      let gate' := changeRegressionGate (before ++ record.turned :: after) (some policy)
        ratchetBaseline
      gate'.compatibilityErrors = gate.compatibilityErrors ∧
        gate.regressions ⊆ gate'.regressions ∧ gate.rerunRequired ⊆ gate'.rerunRequired :=
    listed_turned hpassed
  obtain ⟨hfail, hpass, hevaluated⟩ :=
    status_cases (before ++ record :: after) policy ratchetBaseline
  obtain ⟨hfail', hpass', hevaluated'⟩ :=
    status_cases (before ++ record.turned :: after) policy ratchetBaseline
  cases hstatus' : (changeRegressionGate (before ++ record.turned :: after) (some policy)
    ratchetBaseline).status with
  | notEvaluated => exact absurd hstatus' hevaluated'
  | fail =>
    cases hstatus : (changeRegressionGate (before ++ record :: after) (some policy)
      ratchetBaseline).status with
    | notEvaluated => exact absurd hstatus hevaluated
    | fail => exact .refl _
    | rerunRequired => exact .fail_rerunRequired
    | pass => exact .fail_pass
  | rerunRequired =>
    cases hstatus : (changeRegressionGate (before ++ record :: after) (some policy)
      ratchetBaseline).status with
    | notEvaluated => exact absurd hstatus hevaluated
    | fail =>
      -- what is listed before is still listed
      have hstill := hfail'.2 ((hfail.1 hstatus).imp (fun h => by rwa [herrors]) fun h hnil =>
        h (List.subset_nil.1 (hnil ▸ hregressions)))
      rw [hstatus'] at hstill
      cases hstill
    | rerunRequired => exact .refl _
    | pass => exact .rerunRequired_pass
  | pass =>
    obtain ⟨hnone, hnone', hnone''⟩ := hpass'.1 hstatus'
    have hstatus := hpass.2 ⟨herrors ▸ hnone, List.subset_nil.1 (hnone' ▸ hregressions),
      List.subset_nil.1 (hnone'' ▸ hreruns)⟩
    rw [hstatus]
    exact .refl _

/-- What the policy asks for. -/
structure Passes (policy : StabilityPolicy) (ratchetBaseline : Option RatchetBaseline)
    (records : List Record) : Prop where
  policy_compatible : policy.compatibilityErrors = []
  ratchet_compatible :
    ∀ baseline, ratchetBaseline = some baseline → baseline.compatibilityErrors = []
  cases : ∃ policyCases, policy.cases = some policyCases ∧
    ∀ caseId, HasRecords records caseId ↔ caseId ∈ policyCases.keys
  complete : ∀ caseId, Complete (recordsOf records caseId)
  /-- no failure of a case that passed consistently, or in the last clean run -/
  consistent_cases : ∀ caseId,
    (baselineOutcome (policy.cases.getD Dict.empty) caseId = some "CONSISTENT_PASS" ∨
      caseId ∈ ratchetIds ratchetBaseline) →
    ∀ record ∈ recordsOf records caseId, record.queryPipelinePass ≠ .bool false
  /-- a failure of a variable case stands among three runs, of which one passed -/
  variable_cases : ∀ caseId,
    baselineOutcome (policy.cases.getD Dict.empty) caseId = some "VARIABLE" →
    (∃ record ∈ recordsOf records caseId, record.queryPipelinePass = .bool false) →
    3 ≤ (recordsOf records caseId).length ∧
      ∃ record ∈ recordsOf records caseId, record.queryPipelinePass = .bool true

/-- A case without records has nothing to be judged. -/
theorem verdict_of_not_hasRecords {caseId : String} (h : ¬ HasRecords records caseId) :
    verdict policy ratchetBaseline records caseId = ([], false) := by
  have hnone : recordsOf records caseId = [] := by
    rw [recordsOf, List.filter_eq_nil_iff]
    exact fun record hrecord hof => h ⟨record, hrecord, Record.isOf_eq_true.1 hof⟩
  rw [verdict, hnone, judgeCase_eq_clean]
  exact ⟨fun _ h => absurd h List.not_mem_nil, fun _ _ h => absurd h List.not_mem_nil,
    fun _ ⟨_, h, _⟩ => absurd h List.not_mem_nil⟩

theorem status_eq_pass_iff :
    (changeRegressionGate records (some policy) ratchetBaseline).status = .pass ↔
      Passes policy ratchetBaseline records := by
  have hclean : ∀ caseId, verdict policy ratchetBaseline records caseId = ([], false) ↔
      (∀ reason, (caseId, reason) ∉
        (changeRegressionGate records (some policy) ratchetBaseline).regressions) ∧
      caseId ∉ (changeRegressionGate records (some policy) ratchetBaseline).rerunRequired := by
    intro caseId
    by_cases hrecords : HasRecords records caseId
    · rw [Prod.ext_iff, List.eq_nil_iff_forall_not_mem, ← Bool.not_eq_true]
      refine and_congr (forall_congr' fun reason => not_congr ?_) (not_congr ?_)
      · rw [mem_regressions]
        exact ⟨fun h => ⟨hrecords, h⟩, fun h => h.2⟩
      · rw [mem_rerunRequired]
        exact ⟨fun h => ⟨hrecords, h⟩, fun h => h.2⟩
    · refine iff_of_true (verdict_of_not_hasRecords hrecords) ⟨fun reason h => ?_, fun h => ?_⟩
      · exact hrecords (mem_regressions.1 h).1
      · exact hrecords (mem_rerunRequired.1 h).1
  have hlisted : ((changeRegressionGate records (some policy) ratchetBaseline).regressions = [] ∧
      (changeRegressionGate records (some policy) ratchetBaseline).rerunRequired = []) ↔
      ∀ caseId, verdict policy ratchetBaseline records caseId = ([], false) := by
    simp only [List.eq_nil_iff_forall_not_mem, hclean, forall_and, Prod.forall]
  rw [(status_cases records policy ratchetBaseline).2.1, hlisted, compatibilityErrors_eq_nil]
  constructor
  · rintro ⟨⟨hpolicy, hratchet, hcases⟩, hverdicts⟩
    have hcase := fun caseId => (judgeCase_eq_clean _ _).1 (hverdicts caseId)
    exact ⟨hpolicy, hratchet, hcases, fun caseId => (hcase caseId).1,
      fun caseId => (hcase caseId).2.1, fun caseId => (hcase caseId).2.2⟩
  · rintro ⟨hpolicy, hratchet, hcases, hcomplete, hconsistent, hvariable⟩
    refine ⟨⟨hpolicy, hratchet, hcases⟩, fun caseId => (judgeCase_eq_clean _ _).2 ?_⟩
    exact ⟨hcomplete caseId, hconsistent caseId, hvariable caseId⟩

end

/-- **The gate is monotone and exact.**  It does not depend on the order of the records; a failure
more never raises the status nor removes a regression; and under a policy it passes exactly when
the policy asks for it. -/
theorem changeRegressionGate_exact (stabilityPolicy : Option StabilityPolicy)
    (ratchetBaseline : Option RatchetBaseline) :
    let gate (records : List Record) := changeRegressionGate records stabilityPolicy ratchetBaseline
    (∀ records records', records.Perm records' → gate records = gate records') ∧
    (∀ before record after, record.queryPipelinePass = .bool true →
      (gate (before ++ record.turned :: after)).status.AtMost
        (gate (before ++ record :: after)).status ∧
      (gate (before ++ record :: after)).regressions ⊆
        (gate (before ++ record.turned :: after)).regressions) ∧
    ∀ policy, stabilityPolicy = some policy → ∀ records,
      (gate records).status = .pass ↔ Passes policy ratchetBaseline records := by
  intro gate
  refine ⟨fun records records' hperm => ?_, fun before record after hpassed => ?_, ?_⟩
  · cases stabilityPolicy with
    | none => rfl
    | some policy => exact changeRegressionGate_congr (hasRecords_perm hperm) (verdict_perm hperm)
  · cases stabilityPolicy with
    | none => exact ⟨.refl _, List.Subset.refl _⟩
    | some policy =>
      exact ⟨status_turned hpassed, (listed_turned hpassed).2.1⟩
  · rintro policy rfl records
    exact status_eq_pass_iff

/-- The policy of `test_change_regression_gate_uses_g0_classification_and_ratchet`. -/
def g0Policy : StabilityPolicy where
  compatibilityErrors := []
  cases := some (Dict.ofEntries [("RQ01", .object [("outcome", .str "CONSISTENT_PASS")]),
    ("RQ02", .object [("outcome", .str "VARIABLE")]),
    ("RQ03", .object [("outcome", .str "CONSISTENT_FAIL")])])

/-- A failure of the variable case. -/
theorem changeRegressionGate_exact_g0 :
    let run (caseId : String) (passed : Bool) : Record := ⟨.str caseId, .bool passed, .str "PASS"⟩
    (changeRegressionGate [run "RQ01" true, run "RQ02" false, run "RQ03" false] (some g0Policy)
        none).status.AtMost
      (changeRegressionGate [run "RQ01" true, run "RQ02" true, run "RQ03" false] (some g0Policy)
        none).status := by
  intro run
  exact ((changeRegressionGate_exact (some g0Policy) none).2.1 [run "RQ01" true] (run "RQ02" true)
    [run "RQ03" false] rfl).1

end RegressionGate
