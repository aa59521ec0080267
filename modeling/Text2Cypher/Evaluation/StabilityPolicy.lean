import Mathlib.Data.Rat.Floor
import Text2Cypher.Evaluation.RegressionGate

/-!
# The stability policy

`build_stability_policy` reads a clean evaluation of all cases with three runs each, and classifies
every case by its outcomes.  A later evaluation is judged against this policy, and against the cases
that passed in the last clean run (`_load_ratchet_baseline`); `build_summary` compares the settings
of the two evaluations first.

A document is given here as it is decoded, and a number by the text that it prints as.

* `buildStabilityPolicy`, `loadRatchetBaseline`: what is made of an artifact;
* `changeGate`: the part of `build_summary` that judges an evaluation;
* **`policy_pass_iff`**: an evaluation passes exactly if every case that had always passed passes
  again every time, and every case that had passed at all passes at least once.
-/

namespace StabilityPolicy

open Checks RegressionGate
open Planning (Json isBlank)

/-! ### The artifact -/

/-- `run` of a record, as far as `int` and `==` tell values apart. -/
inductive RunNumber
  | number (q : ℚ)
  | missing
  /-- a string that `int` reads -/
  | digits (z : ℤ)
  /-- `int` fails -/
  | other
  deriving DecidableEq

/-- `int(item.get("run", 0))`. -/
def RunNumber.key? : RunNumber → Option ℤ
  | .number q => some (if 0 ≤ q then ⌊q⌋ else ⌈q⌉)
  | .missing => some 0
  | .digits z => some z
  | .other => none

/-- What the policy reads of a record. -/
structure CaseRecord extends Record where
  executionMode : Json
  run : RunNumber
  contractId : Json
  suite : Json

/-- What the policy reads of the summary, with `null` for what is missing; `none` stands for a value
that is no dictionary. -/
structure Summary where
  commit : Json
  workingTreeDirty : Json
  model : Json
  reasoningEffort : Json
  /-- `summary["metrics"].get("executionMode")` -/
  executionMode : Option Json
  /-- `summary.get("snapshot").get("sha256")` -/
  snapshotSha256 : Option Json
  /-- `summary.get("evaluationSet", {}).get("caseIds")` -/
  caseIds : Option Json

/-- A decoded artifact: `none` for cases that are no list, and for a case that is no dictionary. -/
structure Artifact where
  sha256 : String
  summary : Summary
  cases : Option (List (Option CaseRecord))

inductive PolicyError
  | configuration (message : String)
  /-- a `TypeError`, `AttributeError` or `ValueError` that nothing expects -/
  | unexpected
  deriving DecidableEq

/-! ### The policy -/

def expectedRuns : List RunNumber := [.number 1, .number 2, .number 3]

inductive Outcome
  | consistentPass
  | varying
  | consistentFail
  deriving DecidableEq

def Outcome.text : Outcome → String
  | .consistentPass => "CONSISTENT_PASS"
  | .varying => "VARIABLE"
  | .consistentFail => "CONSISTENT_FAIL"

/-- `_classify`; nothing for `INCOMPLETE`. -/
def classify (records : List CaseRecord) : Option Outcome :=
  if records.length ≠ expectedRuns.length ∨ (records.any fun record => !record.hasOutcome) then none
  else if records.all fun record => !record.failed then some .consistentPass
  else if records.all fun record => record.failed then some .consistentFail
  else some .varying

structure Item where
  contractId : Json
  suite : Json
  outcome : Outcome
  passCount : ℕ

/-- The item as it is written. -/
def Item.json (item : Item) : Json :=
  .object [("contractId", item.contractId), ("suite", item.suite),
    ("outcome", .str item.outcome.text), ("passCount", .number (toString item.passCount))]

structure Baseline where
  commit : String
  artifactSha256 : String
  model : String
  reasoningEffort : String
  snapshotSha256 : String
  caseCount : ℕ

structure Policy where
  baseline : Baseline
  cases : Dict String Item
  ratchetPassCaseIds : List String

def complain {α : Type} (message : String) : Except PolicyError α := .error (.configuration message)

/-- `_non_empty_string`. -/
def nonEmptyString (value : Json) (label : String) : Except PolicyError String :=
  match value with
  | .str s => if isBlank s then complain (label ++ "이 비어 있습니다.") else .ok s
  | _ => complain (label ++ "이 비어 있습니다.")

/-- What a set takes for one value: `True` is `1`. -/
inductive Hashed
  | null
  | number (text : String)
  | str (s : String)
  deriving DecidableEq

/-- A list or a dictionary cannot be an element of a set. -/
def hashed : Json → Except PolicyError Hashed
  | .null => .ok .null
  | .bool b => .ok (.number (if b then "1" else "0"))
  | .number text => .ok (.number text)
  | .str s => .ok (.str s)
  | .array _ | .object _ => .error .unexpected

/-- `value == text`. -/
def isText (value : Json) (text : String) : Bool :=
  match value with
  | .str s => s == text
  | _ => false

/-- `value is False`. -/
def isFalse (value : Json) : Bool :=
  match value with
  | .bool b => !b
  | _ => false

/-- A value that has to be there. -/
def given {α : Type} (value : Option α) (complaint : PolicyError) : Except PolicyError α :=
  match value with
  | some a => .ok a
  | none => .error complaint

/-- The checks of one record, and the case it belongs to. -/
def checkRecord (record : Option CaseRecord) : Except PolicyError (String × CaseRecord) :=
  match record with
  | none => complain "cases 항목은 객체여야 합니다."
  | some record => do
    let caseId ← nonEmptyString record.caseId "case ID"
    if !isText record.executionMode "orchestrator" then
      complain (caseId ++ "가 orchestrator mode가 아닙니다.")
    else if record.isError then
      complain (caseId ++ "에 incomplete infrastructure run이 있습니다.")
    else return (caseId, record)

/-- `records_by_case`, sorted. -/
def sortedGroups (pairs : List (String × CaseRecord)) : List (String × List CaseRecord) :=
  (Join.group [] pairs).insertionSort fun group group' => group.1 ≤ group'.1

/-- The key of `sorted` with the record. -/
def keyed (record : CaseRecord) : Except PolicyError (ℤ × CaseRecord) :=
  match record.run.key? with
  | some key => .ok (key, record)
  | none => .error .unexpected

def orderedByRun (records : List CaseRecord) : Except PolicyError (List CaseRecord) := do
  let pairs ← each keyed records
  return (pairs.insertionSort fun pair pair' => pair.1 ≤ pair'.1).map Prod.snd

section

variable (reprRuns : List RunNumber → String)

/-- The loop over the cases. -/
def itemOf (group : String × List CaseRecord) : Except PolicyError (String × Item) := do
  let (caseId, caseRecords) := group
  let ordered ← orderedByRun caseRecords
  let runs := ordered.map CaseRecord.run
  if runs ≠ expectedRuns then
    complain (caseId ++ " run은 정확히 1, 2, 3이어야 합니다: " ++ reprRuns runs)
  else match classify ordered with
    | none => complain (caseId ++ " 분류가 INCOMPLETE입니다.")
    | some outcome => do
      let contractIds ← each (fun record => hashed record.contractId) ordered
      let suites ← each (fun record => hashed record.suite) ordered
      if contractIds.dedup.length ≠ 1 ∨ suites.dedup.length ≠ 1 then
        complain (caseId ++ "의 contract/suite가 run 사이에 다릅니다.")
      else return (caseId,
        { contractId := (ordered.head?.map CaseRecord.contractId).getD .null
          suite := (ordered.head?.map CaseRecord.suite).getD .null
          outcome
          passCount := ordered.countP fun record => !record.failed })

/-- `summary_case_ids != sorted(records_by_case)`. -/
def isTexts (value : Json) (texts : List String) : Bool :=
  match value with
  | .array items => items.length == texts.length &&
    (items.zip texts).all fun pair => isText pair.1 pair.2
  | _ => false

/-- **`build_stability_policy`**, for the number of cases that it expects. -/
def buildStabilityPolicy (expectedCaseCount : ℕ) (artifact : Artifact)
    (expectedCommit : Option String) : Except PolicyError Policy := do
  let summary := artifact.summary
  let records ← given artifact.cases
    (.configuration "평가 artifact의 summary/cases 형식이 잘못됐습니다.")
  require (records.length = expectedCaseCount * expectedRuns.length)
    (.configuration "stability policy는 정확히 90 case × 3 run이 필요합니다.")
  require (isFalse summary.workingTreeDirty)
    (.configuration "stability baseline은 clean worktree여야 합니다.")
  require (summary.executionMode.any fun mode => isText mode "orchestrator")
    (.configuration "stability baseline은 orchestrator mode여야 합니다.")
  let commit ← nonEmptyString summary.commit "baseline commit"
  require (commit ≠ "unknown") (.configuration "baseline commit을 확인할 수 없습니다.")
  require (expectedCommit.all fun expected => commit = expected)
    (.configuration ("baseline commit 불일치: expected=" ++ expectedCommit.getD "" ++ ", actual=" ++
      commit))
  let model ← nonEmptyString summary.model "model"
  let reasoningEffort ← nonEmptyString summary.reasoningEffort "reasoning effort"
  let sha256 ← given summary.snapshotSha256 (.configuration "snapshot 메타데이터가 없습니다.")
  let snapshotSha256 ← nonEmptyString sha256 "snapshot SHA-256"
  let pairs ← each checkRecord records
  let groups := sortedGroups pairs
  require (groups.length = expectedCaseCount)
    (.configuration "stability policy는 정확히 90개의 고유 case가 필요합니다.")
  let items ← each (itemOf reprRuns) groups
  let caseIds ← given summary.caseIds .unexpected
  require (isTexts caseIds (groups.map Prod.fst))
    (.configuration "summary와 cases의 case 집합이 일치하지 않습니다.")
  return {
    baseline :=
      { commit, artifactSha256 := artifact.sha256, model, reasoningEffort, snapshotSha256,
        caseCount := expectedCaseCount }
    cases := Dict.ofEntries items
    ratchetPassCaseIds :=
      ((items.filter fun item => item.2.outcome = .consistentPass).map Prod.fst).insertionSort (· ≤ ·) }

end

/-! ### A later evaluation -/

/-- The last clean run. -/
structure Ratchet where
  workingTreeDirty : Json
  executionMode : Json
  model : Json
  reasoningEffort : Json
  snapshotSha256 : Json
  caseIds : Json
  passCaseIds : List String

/-- What the gate reads of the records of an artifact. -/
def Artifact.records (artifact : Artifact) : List Record :=
  (artifact.cases.getD []).filterMap fun record => record.map CaseRecord.toRecord

/-- `queryPipelinePass is True`. -/
def passed (record : Record) : Bool :=
  match record.queryPipelinePass with
  | .bool outcome => outcome
  | _ => false

/-- `_load_ratchet_baseline`. -/
def loadRatchetBaseline (artifact : Artifact) : Except PolicyError Ratchet :=
  match artifact.cases, artifact.summary.snapshotSha256, artifact.summary.executionMode,
    artifact.summary.caseIds with
  | none, _, _, _ => complain "ratchet baseline artifact를 읽을 수 없습니다"
  | some _, some snapshotSha256, some executionMode, some caseIds => .ok
    { workingTreeDirty := artifact.summary.workingTreeDirty
      executionMode
      model := artifact.summary.model
      reasoningEffort := artifact.summary.reasoningEffort
      snapshotSha256
      caseIds
      passCaseIds := ((sortedCases artifact.records).filter fun group =>
        group.2.all passed).map Prod.fst }
  | some _, _, _, _ => .error .unexpected

/-- What `build_summary` is given of the evaluation that is judged; `none` for `None`. -/
structure Candidate where
  workingTreeDirty : Option Bool
  model : Option String
  reasoningEffort : Option String
  snapshotSha256 : Option String
  executionMode : Option String
  records : List Record

/-- The case IDs of the records. -/
def caseIdsOf (records : List Record) : List String :=
  Grouping.sortedSet (records.filterMap fun record =>
    match record.caseId with
    | .str caseId => some caseId
    | _ => none)

/-- The messages of the conditions that do not hold. -/
def errorsOf (checks : List (Bool × String)) : List String :=
  (checks.filter fun check => !check.1).map Prod.snd

/-- `policy_errors`. -/
def policyErrors (policy : Policy) (candidate : Candidate) : List String :=
  errorsOf
    [(candidate.workingTreeDirty == some false, "candidate working tree is not clean"),
      (candidate.model == some policy.baseline.model, "stability policy model mismatch"),
      (candidate.reasoningEffort == some policy.baseline.reasoningEffort,
        "stability policy reasoningEffort mismatch"),
      (candidate.snapshotSha256 == some policy.baseline.snapshotSha256,
        "stability policy snapshotSha256 mismatch"),
      (candidate.executionMode == some "orchestrator", "stability policy execution mode mismatch"),
      (policy.cases.keys.insertionSort (· ≤ ·) == caseIdsOf candidate.records,
        "stability policy case set mismatch")]

/-- A decoded value against one of the evaluation. -/
def agrees (value : Json) (current : Option String) : Bool :=
  match value, current with
  | .str s, some t => s == t
  | .null, none => true
  | _, _ => false

/-- `ratchet_errors`. -/
def ratchetErrors (ratchet : Ratchet) (candidate : Candidate) : List String :=
  errorsOf
    [(isFalse ratchet.workingTreeDirty, "ratchet baseline working tree is not clean"),
      (isText ratchet.executionMode "orchestrator", "ratchet baseline is not orchestrator mode"),
      (agrees ratchet.model candidate.model, "ratchet baseline model mismatch"),
      (agrees ratchet.reasoningEffort candidate.reasoningEffort,
        "ratchet baseline reasoningEffort mismatch"),
      (agrees ratchet.snapshotSha256 candidate.snapshotSha256,
        "ratchet baseline snapshotSha256 mismatch"),
      (isTexts ratchet.caseIds (caseIdsOf candidate.records), "ratchet baseline caseIds mismatch")]

/-- The part of `build_summary` that judges an evaluation. -/
def changeGate (candidate : Candidate) (policy : Option Policy) (ratchet : Option Ratchet) : Gate :=
  changeRegressionGate candidate.records
    (policy.map fun policy =>
      ⟨policyErrors policy candidate, some (policy.cases.mapValues Item.json)⟩)
    (ratchet.map fun ratchet =>
      ⟨ratchetErrors ratchet candidate, .array (ratchet.passCaseIds.map .str)⟩)

/-! ### One case of the artifact -/

theorem nonEmptyString_eq_ok {value : Json} {label s : String}
    (h : nonEmptyString value label = .ok s) : value = .str s := by
  cases value with
  | str t =>
    simp only [nonEmptyString, complain] at h
    split_ifs at h
    rw [Except.ok.inj h]
  | _ => cases h

theorem isFalse_eq_true {value : Json} : isFalse value = true ↔ value = .bool false := by
  cases value <;> simp [isFalse]

theorem given_eq_ok {α : Type} {value : Option α} {complaint : PolicyError} {a : α} :
    given value complaint = .ok a ↔ value = some a := by
  cases value <;> simp [given]

theorem isText_eq_true {value : Json} {text : String} :
    isText value text = true ↔ value = .str text := by
  cases value <;> simp [isText]

theorem isTexts_eq_true {value : Json} {texts : List String} :
    isTexts value texts = true ↔ value = .array (texts.map .str) := by
  cases value with
  | array items =>
    simp only [isTexts, Bool.and_eq_true, beq_iff_eq, Json.array.injEq]
    induction items generalizing texts with
    | nil => cases texts <;> simp
    | cons item items ih =>
      cases texts with
      | nil => simp
      | cons text texts =>
        simp only [List.length_cons, Nat.add_right_cancel_iff, List.zip_cons_cons, List.all_cons,
          Bool.and_eq_true, isText_eq_true, List.map_cons, List.cons.injEq, ← ih]
        tauto
  | _ => simp [isTexts]

theorem checkRecord_eq_ok {record : Option CaseRecord} {pair : String × CaseRecord}
    (h : checkRecord record = .ok pair) :
    record = some pair.2 ∧ pair.2.caseId = .str pair.1 ∧ pair.2.isError = false := by
  cases record with
  | none => cases h
  | some record =>
    obtain ⟨caseId, hcaseId, h⟩ := bind_eq_ok.1 h
    split_ifs at h with hmode herror
    · cases h
    · cases h
    · obtain rfl := pure_eq_ok.1 h
      exact ⟨rfl, nonEmptyString_eq_ok hcaseId, Bool.eq_false_iff.2 herror⟩

theorem orderedByRun_perm {records ordered : List CaseRecord} (h : orderedByRun records = .ok ordered) :
    ordered.Perm records := by
  obtain ⟨pairs, hpairs, h⟩ := bind_eq_ok.1 h
  obtain rfl := pure_eq_ok.1 h
  have hkeyed : ∀ record pair, keyed record = .ok pair → pair.2 = record := by
    intro record pair hpair
    rw [keyed] at hpair
    split at hpair
    · rw [← Except.ok.inj hpair]
    · cases hpair
  have hsame : pairs.map Prod.snd = records := by
    have hall := (forall₂_of_each hpairs).imp hkeyed
    rw [← List.forall₂_eq_eq_eq, List.forall₂_map_left_iff]
    exact hall.flip
  rw [← hsame]
  exact (List.perm_insertionSort _ pairs).map Prod.snd

/-- What a classification says. -/
theorem classify_eq_some {records : List CaseRecord} {outcome : Outcome}
    (h : classify records = some outcome) :
    records.length = 3 ∧ (∀ record ∈ records, record.hasOutcome = true) ∧
      (outcome = .consistentPass ↔ ∀ record ∈ records, record.failed = false) ∧
      (outcome = .consistentFail ↔ ∀ record ∈ records, record.failed = true) := by
  rw [classify] at h
  split_ifs at h with hbad hpass hfail
  all_goals
    obtain rfl := Option.some.inj h
    push Not at hbad
    obtain ⟨hlength, hall⟩ := hbad
    have hlength : records.length = 3 := hlength
    have hne : records ≠ [] := by
      rintro rfl
      cases hlength
    refine ⟨hlength, by simpa using hall, ?_⟩
  · have hpass : ∀ record ∈ records, record.failed = false := by simpa using hpass
    refine ⟨iff_of_true rfl hpass, iff_of_false (by simp) fun hfail => ?_⟩
    obtain ⟨record, hrecord⟩ := List.exists_mem_of_ne_nil records hne
    exact absurd (hfail record hrecord) (by simp [hpass record hrecord])
  · exact ⟨iff_of_false (by simp) (by simpa using hpass), iff_of_true rfl (by simpa using hfail)⟩
  · exact ⟨iff_of_false (by simp) (by simpa using hpass), iff_of_false (by simp) (by simpa using hfail)⟩

theorem itemOf_eq_ok {reprRuns : List RunNumber → String} {group : String × List CaseRecord}
    {pair : String × Item} (h : itemOf reprRuns group = .ok pair) :
    pair.1 = group.1 ∧ (∀ record ∈ group.2, record.hasOutcome = true) ∧
      (pair.2.outcome = .consistentPass ↔ ∀ record ∈ group.2, record.failed = false) ∧
      (pair.2.outcome = .consistentFail ↔ ∀ record ∈ group.2, record.failed = true) := by
  obtain ⟨ordered, hordered, h⟩ := bind_eq_ok.1 h
  have hmem : ∀ p : CaseRecord → Prop, (∀ record ∈ ordered, p record) ↔
      ∀ record ∈ group.2, p record :=
    fun p => forall_congr' fun record => imp_congr_left (orderedByRun_perm hordered).mem_iff
  dsimp only at h
  split_ifs at h
  · cases h
  · split at h
    · cases h
    · rename_i outcome hclassify
      obtain ⟨contractIds, -, h⟩ := bind_eq_ok.1 h
      obtain ⟨suites, -, h⟩ := bind_eq_ok.1 h
      split_ifs at h
      · cases h
      · obtain rfl := pure_eq_ok.1 h
        obtain ⟨-, houtcome, hpass, hfail⟩ := classify_eq_some hclassify
        exact ⟨rfl, (hmem _).1 houtcome, hpass.trans (hmem _), hfail.trans (hmem _)⟩

/-! ### The policy of an artifact -/

/-- The records that the checks let through, with their cases. -/
theorem records_of_pairs {records : List (Option CaseRecord)}
    {pairs : List (String × CaseRecord)} (hpairs : each checkRecord records = .ok pairs) :
    records.filterMap (fun record => record.map CaseRecord.toRecord) =
        pairs.map (fun pair => pair.2.toRecord) ∧
      ∀ pair ∈ pairs, pair.2.caseId = .str pair.1 ∧ pair.2.isError = false := by
  have hall := (forall₂_of_each hpairs).imp fun _ _ h => checkRecord_eq_ok h
  constructor
  · clear hpairs
    induction hall with
    | nil => rfl
    | cons hpair _ ih =>
      obtain ⟨rfl, -, -⟩ := hpair
      simpa using ih
  · intro pair hpair
    obtain ⟨record, -, h⟩ := exists_of_forall₂ hall hpair
    exact h.2

section

variable {pairs : List (String × CaseRecord)}
  (hcase : ∀ pair ∈ pairs, pair.2.caseId = .str pair.1)

include hcase

/-- The groups are the cases with records, each with its records. -/
theorem mem_groups {group : String × List CaseRecord} (hgroup : group ∈ sortedGroups pairs) :
    group.2.map CaseRecord.toRecord = recordsOf (pairs.map fun pair => pair.2.toRecord) group.1 := by
  rw [sortedGroups, List.mem_insertionSort, Grouping.mem_group] at hgroup
  rw [hgroup.2, recordsOf, List.filter_map, List.map_map]
  refine congrArg (List.map _) (List.filter_congr fun pair hpair => ?_)
  show (pair.1 == group.1) = pair.2.toRecord.isOf group.1
  rw [Record.isOf, hcase pair hpair]

theorem mem_groupKeys {caseId : String} :
    caseId ∈ (sortedGroups pairs).map Prod.fst ↔
      HasRecords (pairs.map fun pair => pair.2.toRecord) caseId := by
  have hkeys : caseId ∈ (sortedGroups pairs).map Prod.fst ↔ caseId ∈ pairs.map Prod.fst := by
    rw [sortedGroups, ((List.perm_insertionSort _ _).map Prod.fst).mem_iff, Grouping.keys_group,
      Grouping.mem_appendNew]
    simp
  rw [hkeys, List.mem_map]
  constructor
  · rintro ⟨pair, hpair, rfl⟩
    exact ⟨pair.2.toRecord, List.mem_map_of_mem hpair, hcase pair hpair⟩
  · rintro ⟨record, hrecord, hid⟩
    obtain ⟨pair, hpair, rfl⟩ := List.mem_map.1 hrecord
    exact ⟨pair, hpair, Json.str.inj ((hcase pair hpair).symm.trans hid)⟩

end

theorem mem_caseIdsOf {records : List Record} {caseId : String} :
    caseId ∈ caseIdsOf records ↔ HasRecords records caseId := by
  rw [caseIdsOf, Grouping.mem_sortedSet, List.mem_filterMap]
  refine exists_congr fun record => and_congr_right fun _ => ?_
  cases record.caseId <;> simp

theorem caseIdsOf_congr {records records' : List Record}
    (h : ∀ caseId, HasRecords records caseId ↔ HasRecords records' caseId) :
    caseIdsOf records = caseIdsOf records' := by
  apply Grouping.sortedSet_congr
  intro caseId
  exact (Grouping.mem_sortedSet.symm.trans mem_caseIdsOf).trans
    ((h caseId).trans (mem_caseIdsOf.symm.trans Grouping.mem_sortedSet))

theorem nodup_groupKeys (pairs : List (String × CaseRecord)) :
    ((sortedGroups pairs).map Prod.fst).Nodup := by
  rw [sortedGroups, ((List.perm_insertionSort _ _).map Prod.fst).nodup_iff, Grouping.keys_group]
  exact Grouping.nodup_appendNew List.nodup_nil

/-- The keys of the groups, in order. -/
theorem groupKeys_eq {pairs : List (String × CaseRecord)}
    (hcase : ∀ pair ∈ pairs, pair.2.caseId = .str pair.1) :
    (sortedGroups pairs).map Prod.fst = caseIdsOf (pairs.map fun pair => pair.2.toRecord) := by
  apply Grouping.eq_sortedSet (nodup_groupKeys pairs)
  · rw [List.pairwise_map]
    have : Std.Total fun g g' : String × List CaseRecord => g.1 ≤ g'.1 :=
      ⟨fun g g' => Std.Total.total g.1 g'.1⟩
    have : IsTrans (String × List CaseRecord) fun g g' => g.1 ≤ g'.1 :=
      ⟨fun _ _ _ => IsTrans.trans _ _ _⟩
    exact List.pairwise_insertionSort _ _
  · intro caseId
    rw [mem_groupKeys hcase, ← mem_caseIdsOf, caseIdsOf, Grouping.mem_sortedSet]

/-- **What a policy says about its artifact.** -/
structure Describes (policy : Policy) (artifact : Artifact) : Prop where
  clean : artifact.summary.workingTreeDirty = .bool false
  mode : artifact.summary.executionMode = some (.str "orchestrator")
  model : artifact.summary.model = .str policy.baseline.model
  reasoningEffort : artifact.summary.reasoningEffort = .str policy.baseline.reasoningEffort
  snapshotSha256 : artifact.summary.snapshotSha256 = some (.str policy.baseline.snapshotSha256)
  caseIds : artifact.summary.caseIds = some (.array ((caseIdsOf artifact.records).map .str))
  keys : ∀ caseId, caseId ∈ policy.cases.keys ↔ HasRecords artifact.records caseId
  complete : ∀ caseId, Complete (recordsOf artifact.records caseId)
  outcome : ∀ caseId item, policy.cases.get? caseId = some item →
    (item.outcome = .consistentPass ↔
      ∀ record ∈ recordsOf artifact.records caseId, record.failed = false) ∧
    (item.outcome = .consistentFail ↔
      ∀ record ∈ recordsOf artifact.records caseId, record.failed = true)
  cases : artifact.cases ≠ none

theorem describes_of_build {reprRuns : List RunNumber → String} {expectedCaseCount : ℕ}
    {artifact : Artifact} {expectedCommit : Option String} {policy : Policy}
    (h : buildStabilityPolicy reprRuns expectedCaseCount artifact expectedCommit = .ok policy) :
    Describes policy artifact := by
  obtain ⟨records, hrecords, h⟩ := bind_eq_ok.1 h
  obtain ⟨_, -, h⟩ := bind_eq_ok.1 h
  obtain ⟨_, hclean, h⟩ := bind_eq_ok.1 h
  obtain ⟨_, hmode, h⟩ := bind_eq_ok.1 h
  obtain ⟨commit, -, h⟩ := bind_eq_ok.1 h
  obtain ⟨_, -, h⟩ := bind_eq_ok.1 h
  obtain ⟨_, -, h⟩ := bind_eq_ok.1 h
  obtain ⟨model, hmodel, h⟩ := bind_eq_ok.1 h
  obtain ⟨reasoningEffort, hreasoning, h⟩ := bind_eq_ok.1 h
  obtain ⟨sha256, hsha256, h⟩ := bind_eq_ok.1 h
  obtain ⟨snapshotSha256, hsnapshot, h⟩ := bind_eq_ok.1 h
  obtain ⟨pairs, hpairs, h⟩ := bind_eq_ok.1 h
  obtain ⟨_, -, h⟩ := bind_eq_ok.1 h
  obtain ⟨items, hitems, h⟩ := bind_eq_ok.1 h
  obtain ⟨caseIds, hcaseIds, h⟩ := bind_eq_ok.1 h
  obtain ⟨_, htexts, h⟩ := bind_eq_ok.1 h
  obtain rfl := pure_eq_ok.1 h
  rw [given_eq_ok] at hrecords hsha256 hcaseIds
  obtain ⟨hall, hcase⟩ := records_of_pairs hpairs
  have hrecordsOf : artifact.records = pairs.map fun pair => pair.2.toRecord := by
    rw [← hall, Artifact.records, hrecords]
    rfl
  have hid : ∀ pair ∈ pairs, pair.2.caseId = .str pair.1 := fun pair hpair => (hcase pair hpair).1
  have hitem := (forall₂_of_each hitems).imp fun _ _ h => itemOf_eq_ok h
  have hkeys : items.map Prod.fst = (sortedGroups pairs).map Prod.fst := by
    rw [← List.forall₂_eq_eq_eq, List.forall₂_map_left_iff, List.forall₂_map_right_iff]
    exact hitem.flip.imp fun _ _ h => h.1
  have hentries : (Dict.ofEntries items).entries = items :=
    Dict.entries_ofEntries (hkeys ▸ nodup_groupKeys pairs)
  refine ⟨isFalse_eq_true.1 (require_eq_ok.1 hclean), ?_, nonEmptyString_eq_ok hmodel,
    nonEmptyString_eq_ok hreasoning, ?_, ?_, fun caseId => ?_, fun caseId record hrecord => ?_,
    fun caseId item hget => ?_, by simp [hrecords]⟩
  · obtain ⟨mode, hmode, htext⟩ := (Option.any_eq_true _ _).1 (require_eq_ok.1 hmode)
    rw [hmode, isText_eq_true.1 htext]
  · rw [hsha256, nonEmptyString_eq_ok hsnapshot]
  · rw [hcaseIds, isTexts_eq_true.1 (require_eq_ok.1 htexts), hrecordsOf, groupKeys_eq hid]
  · rw [Dict.keys, hentries, hkeys, mem_groupKeys hid, hrecordsOf]
  · rw [hrecordsOf] at hrecord
    obtain ⟨hmem, hof⟩ := List.mem_filter.1 hrecord
    have hkey := (mem_groupKeys hid).2 ⟨record, hmem, Record.isOf_eq_true.1 hof⟩
    obtain ⟨group, hgroup, rfl⟩ := List.mem_map.1 hkey
    obtain ⟨item, -, -, houtcome, -⟩ := exists_of_forall₂ hitem.flip hgroup
    rw [← mem_groups hid hgroup] at hrecord
    obtain ⟨caseRecord, hcaseRecord, rfl⟩ := List.mem_map.1 hrecord
    obtain ⟨pair, hpair, hsame⟩ := List.mem_map.1 hmem
    refine ⟨fun herror => ?_, Record.hasOutcome_eq_true.1 (houtcome caseRecord hcaseRecord)⟩
    have hnot := (hcase pair hpair).2
    rw [hsame, Record.isError_eq_true.2 herror] at hnot
    cases hnot
  · rw [Dict.get?_eq_some_iff, hentries] at hget
    obtain ⟨group, hgroup, hname, -, hpass, hfail⟩ := exists_of_forall₂ hitem hget
    obtain rfl : caseId = group.1 := hname
    rw [hrecordsOf, ← mem_groups hid hgroup]
    simp only [List.forall_mem_map]
    exact ⟨hpass, hfail⟩

/-! ### The verdict on a later evaluation -/

/-- The evaluation that is judged was made as the artifact was, on a clean work tree. -/
structure SameSettings (candidate : Candidate) (artifact : Artifact) : Prop where
  clean : candidate.workingTreeDirty = some false
  mode : candidate.executionMode = some "orchestrator"
  model : agrees artifact.summary.model candidate.model = true
  reasoningEffort : agrees artifact.summary.reasoningEffort candidate.reasoningEffort = true
  snapshotSha256 : ∀ sha256 ∈ artifact.summary.snapshotSha256,
    agrees sha256 candidate.snapshotSha256 = true

theorem errorsOf_eq_nil {checks : List (Bool × String)} :
    errorsOf checks = [] ↔ ∀ check ∈ checks, check.1 = true := by
  rw [errorsOf, List.map_eq_nil_iff, List.filter_eq_nil_iff]
  simp

theorem agrees_str {s : String} {current : Option String} :
    agrees (.str s) current = true ↔ current = some s := by
  cases current with
  | none => simp [agrees]
  | some t =>
    simp only [agrees, beq_iff_eq, Option.some.injEq]
    exact eq_comm

theorem passed_eq_true {record : Record} :
    passed record = true ↔ record.queryPipelinePass = .bool true := by
  unfold passed
  cases record.queryPipelinePass <;> simp

/-- A record with an outcome has passed or failed. -/
theorem passed_iff {records : List Record} (h : Complete records) {record : Record}
    (hrecord : record ∈ records) : passed record = true ↔ record.failed = false := by
  obtain ⟨outcome, houtcome⟩ := (h record hrecord).2
  simp [passed, Record.failed, houtcome]

section

variable {policy : Policy} {artifact : Artifact} {candidate : Candidate}

/-- With the same settings the only error is another set of cases. -/
theorem policyErrors_eq_nil (h : Describes policy artifact)
    (hsame : SameSettings candidate artifact) : policyErrors policy candidate = [] ↔
      ∀ caseId, HasRecords candidate.records caseId ↔ HasRecords artifact.records caseId := by
  have hmodel := hsame.model
  have hreasoning := hsame.reasoningEffort
  have hsnapshot := hsame.snapshotSha256 _ h.snapshotSha256
  rw [h.model, agrees_str] at hmodel
  rw [h.reasoningEffort, agrees_str] at hreasoning
  rw [agrees_str] at hsnapshot
  have hkeys : policy.cases.keys.insertionSort (· ≤ ·) = caseIdsOf artifact.records := by
    apply Grouping.eq_sortedSet ((List.perm_insertionSort _ _).nodup_iff.2 policy.cases.nodup)
      (List.pairwise_insertionSort _ _)
    intro caseId
    rw [List.mem_insertionSort]
    exact (h.keys caseId).trans (mem_caseIdsOf.symm.trans Grouping.mem_sortedSet)
  rw [policyErrors, errorsOf_eq_nil]
  simp only [hsame.clean, hsame.mode, hmodel, hreasoning, hsnapshot, hkeys, List.forall_mem_cons,
    beq_self_eq_true, beq_iff_eq, true_and, List.not_mem_nil, false_implies, implies_true, and_true]
  constructor
  · intro heq caseId
    rw [← mem_caseIdsOf, ← heq, mem_caseIdsOf]
  · exact fun hall => caseIdsOf_congr fun caseId => (hall caseId).symm

theorem ratchetErrors_eq_nil (h : Describes policy artifact)
    (hsame : SameSettings candidate artifact) {ratchet : Ratchet}
    (hload : loadRatchetBaseline artifact = .ok ratchet)
    (hcases : ∀ caseId, HasRecords candidate.records caseId ↔ HasRecords artifact.records caseId) :
    ratchetErrors ratchet candidate = [] := by
  have hids : caseIdsOf artifact.records = caseIdsOf candidate.records :=
    caseIdsOf_congr fun caseId => (hcases caseId).symm
  obtain ⟨records, hrecords⟩ := Option.ne_none_iff_exists'.1 h.cases
  rw [loadRatchetBaseline, hrecords, h.snapshotSha256, h.mode, h.caseIds] at hload
  obtain rfl := Except.ok.inj hload
  rw [ratchetErrors, errorsOf_eq_nil]
  simp only [List.forall_mem_cons, List.not_mem_nil, false_implies, implies_true, and_true]
  refine ⟨isFalse_eq_true.2 h.clean, rfl, hsame.model, hsame.reasoningEffort,
    hsame.snapshotSha256 _ h.snapshotSha256, isTexts_eq_true.2 ?_⟩
  rw [hids]

/-- The cases that the last clean run had passed. -/
theorem mem_passCaseIds {ratchet : Ratchet} (hload : loadRatchetBaseline artifact = .ok ratchet)
    {caseId : String} : caseId ∈ ratchet.passCaseIds ↔
      HasRecords artifact.records caseId ∧
        ∀ record ∈ recordsOf artifact.records caseId, passed record = true := by
  rw [loadRatchetBaseline] at hload
  split at hload
  · cases hload
  · obtain rfl := Except.ok.inj hload
    rw [List.mem_map]
    constructor
    · rintro ⟨group, hgroup, rfl⟩
      obtain ⟨hmem, hall⟩ := List.mem_filter.1 hgroup
      obtain ⟨hrecords, hof⟩ := mem_sortedCases.1 hmem
      rw [hof] at hall
      exact ⟨hrecords, List.all_eq_true.1 hall⟩
    · rintro ⟨hrecords, hall⟩
      refine ⟨(caseId, recordsOf artifact.records caseId), List.mem_filter.2 ⟨?_, ?_⟩, rfl⟩
      · exact mem_sortedCases.2 ⟨hrecords, rfl⟩
      · exact List.all_eq_true.2 hall
  · cases hload

/-- The class of a case in the policy. -/
theorem baselineOutcome_eq (h : Describes policy artifact) {caseId : String}
    (hcase : HasRecords artifact.records caseId) :
    ∃ outcome : Outcome,
      baselineOutcome (policy.cases.mapValues Item.json) caseId = some outcome.text ∧
      (outcome = .consistentPass ↔
        ∀ record ∈ recordsOf artifact.records caseId, passed record = true) ∧
      (outcome = .consistentFail ↔
        ∀ record ∈ recordsOf artifact.records caseId, ¬ passed record = true) := by
  obtain ⟨item, hget⟩ := Dict.exists_get?_of_mem_keys ((h.keys caseId).2 hcase)
  obtain ⟨hpass, hfail⟩ := h.outcome caseId item hget
  refine ⟨item.outcome, ?_, hpass.trans ?_, hfail.trans ?_⟩
  · rw [baselineOutcome, Dict.get?_mapValues, hget]
    rfl
  · exact forall₂_congr fun record hrecord => (passed_iff (h.complete caseId) hrecord).symm
  · refine forall₂_congr fun record hrecord => ?_
    rw [passed_iff (h.complete caseId) hrecord, Bool.not_eq_false]

/-- **A case is clean under the policy of an artifact** if it passes as the artifact asks. -/
theorem judgeCase_clean_iff (h : Describes policy artifact) {passIds : List String} {caseId : String}
    (hcase : HasRecords artifact.records caseId)
    (hpassIds : caseId ∈ passIds →
      ∀ record ∈ recordsOf artifact.records caseId, passed record = true)
    {caseRecords : List Record} (hruns : 3 ≤ caseRecords.length) :
    judgeCase (policy.cases.mapValues Item.json) passIds caseId caseRecords = ([], false) ↔
      Complete caseRecords ∧
      ((∀ record ∈ recordsOf artifact.records caseId, passed record = true) →
        ∀ record ∈ caseRecords, passed record = true) ∧
      ((∃ record ∈ recordsOf artifact.records caseId, passed record = true) →
        ∃ record ∈ caseRecords, passed record = true) := by
  obtain ⟨outcome, hbaseline, hpass, hfail⟩ := baselineOutcome_eq h hcase
  rw [judgeCase_eq_clean, hbaseline]
  refine and_congr_right fun hcomplete => ?_
  have hnot : ∀ record ∈ caseRecords,
      record.queryPipelinePass ≠ .bool false ↔ passed record = true := by
    intro record hrecord
    rw [passed_iff hcomplete hrecord, ← not_iff_not, Classical.not_not, Bool.not_eq_false,
      Record.failed_eq_true]
  have hsome : (∃ record ∈ recordsOf artifact.records caseId, passed record = true) ↔
      outcome ≠ .consistentFail := by
    rw [Ne, hfail]
    push Not
    rfl
  have hnonempty : caseRecords ≠ [] := by
    rintro rfl
    simp at hruns
  rw [← hpass, hsome]
  constructor
  · rintro ⟨hall, hany⟩
    have hall : outcome = .consistentPass → ∀ record ∈ caseRecords, passed record = true :=
      fun heq record hrecord =>
        (hnot record hrecord).1 (hall (Or.inl (congrArg (some ∘ Outcome.text) heq)) record hrecord)
    refine ⟨hall, fun hne => ?_⟩
    -- a case that had passed at all was consistent or variable
    obtain ⟨record, hrecord⟩ := List.exists_mem_of_ne_nil caseRecords hnonempty
    cases outcome with
    | consistentPass => exact ⟨record, hrecord, hall rfl record hrecord⟩
    | varying =>
      by_cases hpassed : passed record = true
      · exact ⟨record, hrecord, hpassed⟩
      · have hfailed : record.queryPipelinePass = .bool false := by
          by_contra hne
          exact hpassed ((hnot record hrecord).1 hne)
        obtain ⟨-, record', hrecord', hpassed'⟩ := hany rfl ⟨record, hrecord, hfailed⟩
        exact ⟨record', hrecord', passed_eq_true.2 hpassed'⟩
    | consistentFail => exact absurd rfl hne
  · rintro ⟨hall, hany⟩
    have houtcome : outcome.text = "CONSISTENT_PASS" → outcome = .consistentPass := by
      cases outcome <;> decide
    have hvariable : outcome.text = "VARIABLE" → outcome ≠ .consistentFail := by
      cases outcome <;> decide
    refine ⟨fun hclass record hrecord => (hnot record hrecord).2 ?_, fun hclass _ => ⟨hruns, ?_⟩⟩
    · rcases hclass with hclass | hmem
      · exact hall (houtcome (Option.some.inj hclass)) record hrecord
      · exact hall (hpass.2 (hpassIds hmem)) record hrecord
    · obtain ⟨record, hrecord, hpassed⟩ := hany (hvariable (Option.some.inj hclass))
      exact ⟨record, hrecord, passed_eq_true.1 hpassed⟩

end

/-- The gate passes if there is no error and every verdict is clean. -/
theorem status_eq_pass {records : List Record} {policy : RegressionGate.StabilityPolicy}
    {baseline : Option RatchetBaseline} :
    (changeRegressionGate records (some policy) baseline).status = .pass ↔
      (changeRegressionGate records (some policy) baseline).compatibilityErrors = [] ∧
        ∀ caseId, HasRecords records caseId →
          verdict policy baseline records caseId = ([], false) := by
  rw [(status_cases records policy baseline).2.1]
  refine and_congr_right fun _ => ⟨?_, fun hclean => ⟨?_, ?_⟩⟩
  · rintro ⟨hreasons, hreruns⟩ caseId hcase
    refine Prod.ext (List.eq_nil_iff_forall_not_mem.2 fun reason hreason => ?_) ?_
    · have hmem : (caseId, reason) ∈ (changeRegressionGate records (some policy) baseline).regressions :=
        mem_regressions.2 ⟨hcase, hreason⟩
      rw [hreasons] at hmem
      cases hmem
    · refine Bool.eq_false_iff.2 fun hrerun => ?_
      have hmem := mem_rerunRequired.2 ⟨hcase, hrerun⟩
      rw [hreruns] at hmem
      cases hmem
  · refine List.eq_nil_iff_forall_not_mem.2 fun item hitem => ?_
    obtain ⟨hcase, hreason⟩ := mem_regressions.1 hitem
    rw [hclean item.1 hcase] at hreason
    cases hreason
  · refine List.eq_nil_iff_forall_not_mem.2 fun caseId hmem => ?_
    obtain ⟨hcase, hrerun⟩ := mem_rerunRequired.1 hmem
    rw [hclean caseId hcase] at hrerun
    cases hrerun

/-- **The verdict on a later evaluation**: with the same settings and three runs or more of each
case it passes exactly if it covers the same cases, every run has an outcome, a case that had always
passed passes every time, and a case that had passed at all passes at least once. -/
theorem policy_pass_iff {reprRuns : List RunNumber → String} {expectedCaseCount : ℕ}
    {artifact : Artifact} {expectedCommit : Option String} {policy : Policy}
    (h : buildStabilityPolicy reprRuns expectedCaseCount artifact expectedCommit = .ok policy)
    {ratchet : Option Ratchet} (hratchet : ∀ r ∈ ratchet, loadRatchetBaseline artifact = .ok r)
    {candidate : Candidate} (hsame : SameSettings candidate artifact)
    (hruns : ∀ caseId, HasRecords candidate.records caseId →
      3 ≤ (recordsOf candidate.records caseId).length) :
    (changeGate candidate (some policy) ratchet).status = .pass ↔
      (∀ caseId, HasRecords candidate.records caseId ↔ HasRecords artifact.records caseId) ∧
      ∀ caseId, HasRecords candidate.records caseId →
        Complete (recordsOf candidate.records caseId) ∧
        ((∀ record ∈ recordsOf artifact.records caseId, passed record = true) →
          ∀ record ∈ recordsOf candidate.records caseId, passed record = true) ∧
        ((∃ record ∈ recordsOf artifact.records caseId, passed record = true) →
          ∃ record ∈ recordsOf candidate.records caseId, passed record = true) := by
  have hdescribes := describes_of_build h
  let baseline : Option RatchetBaseline := ratchet.map fun r =>
    ⟨ratchetErrors r candidate, .array (r.passCaseIds.map .str)⟩
  have hpassed : ∀ caseId ∈ ratchetIds baseline,
      ∀ record ∈ recordsOf artifact.records caseId, passed record = true := by
    intro caseId hmem
    cases ratchet with
    | none => cases hmem
    | some r =>
      obtain ⟨id, hid, hsome⟩ := List.mem_filterMap.1 hmem
      obtain ⟨name, hname, rfl⟩ := List.mem_map.1 hid
      obtain rfl := Option.some.inj hsome
      exact ((mem_passCaseIds (hratchet r rfl)).1 hname).2
  refine status_eq_pass.trans ?_
  rw [compatibilityErrors_eq_nil]
  have hclean : ∀ caseId, HasRecords artifact.records caseId →
      HasRecords candidate.records caseId → _ := fun caseId hcase hmine =>
    judgeCase_clean_iff hdescribes hcase (hpassed caseId) (hruns caseId hmine)
  constructor
  · rintro ⟨⟨herrors, -, -⟩, hall⟩
    have hcases := (policyErrors_eq_nil hdescribes hsame).1 herrors
    exact ⟨hcases, fun caseId hmine =>
      (hclean caseId ((hcases caseId).1 hmine) hmine).1 (hall caseId hmine)⟩
  · rintro ⟨hcases, hall⟩
    refine ⟨⟨(policyErrors_eq_nil hdescribes hsame).2 hcases, fun b hb => ?_, _, rfl,
      fun caseId => ?_⟩, fun caseId hmine => ?_⟩
    · obtain ⟨r, hr, rfl⟩ := Option.map_eq_some_iff.1 hb
      exact ratchetErrors_eq_nil hdescribes hsame (hratchet r hr) hcases
    · rw [Dict.keys_mapValues, hdescribes.keys, hcases]
    · exact (hclean caseId ((hcases caseId).1 hmine) hmine).2 (hall caseId hmine)

/-- A case with its run and outcome. -/
def sampleRecord (caseId : String) (run : ℚ) (outcome : Bool) : CaseRecord where
  caseId := .str caseId
  queryPipelinePass := .bool outcome
  status := .str "OK"
  executionMode := .str "orchestrator"
  run := .number run
  contractId := .str caseId
  suite := .str "core"

/-- A case that always passes, and one that passes now and then. -/
def sampleArtifact : Artifact where
  sha256 := "0f"
  summary :=
    { commit := .str "c0ffee"
      workingTreeDirty := .bool false
      model := .str "model"
      reasoningEffort := .str "low"
      executionMode := some (.str "orchestrator")
      snapshotSha256 := some (.str "ab")
      caseIds := some (.array [.str "q1", .str "q2"]) }
  cases := some ([sampleRecord "q2" 2 false, sampleRecord "q1" 3 true, sampleRecord "q2" 1 true,
    sampleRecord "q1" 1 true, sampleRecord "q2" 3 false, sampleRecord "q1" 2 true].map some)

/-- The same cases, judged later; the second one passes in another run. -/
def sampleCandidate : Candidate where
  workingTreeDirty := some false
  model := some "model"
  reasoningEffort := some "low"
  snapshotSha256 := some "ab"
  executionMode := some "orchestrator"
  records := [sampleRecord "q1" 1 true, sampleRecord "q1" 2 true, sampleRecord "q1" 3 true,
    sampleRecord "q2" 1 false, sampleRecord "q2" 2 true, sampleRecord "q2" 3 false].map
      CaseRecord.toRecord

theorem policy_pass_sample : ∃ policy ratchet,
    buildStabilityPolicy (fun _ => "") 2 sampleArtifact none = .ok policy ∧
      loadRatchetBaseline sampleArtifact = .ok ratchet ∧
      (changeGate sampleCandidate (some policy) (some ratchet)).status = .pass := by
  have hexists : ∀ {α : Type} {x : Except PolicyError α}, x.isOk = true → ∃ a, x = .ok a := by
    intro α x hok
    cases x with
    | ok a => exact ⟨a, rfl⟩
    | error e => cases hok
  obtain ⟨policy, hpolicy⟩ : ∃ policy,
      buildStabilityPolicy (fun _ => "") 2 sampleArtifact none = .ok policy :=
    hexists (by decide +kernel)
  obtain ⟨ratchet, hratchet⟩ : ∃ ratchet, loadRatchetBaseline sampleArtifact = .ok ratchet :=
    hexists (by decide +kernel)
  have hcandidate : ∀ caseId, HasRecords sampleCandidate.records caseId ↔
      caseId = "q1" ∨ caseId = "q2" := by
    intro caseId
    simp [HasRecords, sampleCandidate, sampleRecord, eq_comm]
  have hartifact : ∀ caseId, HasRecords sampleArtifact.records caseId ↔
      caseId = "q1" ∨ caseId = "q2" := by
    intro caseId
    simp [HasRecords, Artifact.records, sampleArtifact, sampleRecord, eq_comm]
    tauto
  refine ⟨policy, ratchet, hpolicy, hratchet, (policy_pass_iff hpolicy
    (fun r hr => Option.some.inj hr ▸ hratchet) ⟨rfl, rfl, by decide, by decide, by decide⟩
    fun caseId hcase => ?_).2
    ⟨fun caseId => (hcandidate caseId).trans (hartifact caseId).symm, fun caseId hcase => ?_⟩⟩
  · rcases (hcandidate caseId).1 hcase with rfl | rfl <;> decide +kernel
  · rcases (hcandidate caseId).1 hcase with rfl | rfl <;>
      exact ⟨complete_iff.2 (by decide +kernel), by decide +kernel, by decide +kernel⟩

end StabilityPolicy
