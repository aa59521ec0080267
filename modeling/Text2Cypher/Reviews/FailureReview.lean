import Mathlib.Data.List.Basic
import Mathlib.Data.Option.Basic

/-!
# Failure reviews

The row of `app.query_failure_reviews` that administrators edit, and `update_failure_review`: a
versioned `UPDATE`, a `COMMIT`, and a `SELECT` in a transaction of its own.  The three statements are
modelled one at a time (`Progress`, `advance`), so that calls can be interleaved.

The isolation level is the server's default: an `UPDATE` looks for the named version among the
committed rows, and waits if another transaction has locked the row it has found (`Ready`).
-/

namespace FailureReviews

def statuses : List String :=
  ["NEW", "TRIAGED", "REPRODUCED", "FIX_PLANNED", "FIXED", "WONT_FIX", "DUPLICATE"]

def classifications : List String :=
  ["QUESTION_FILTER", "ENTITY_RESOLUTION", "ROUTING", "PLANNING", "SQL_GENERATION",
    "CYPHER_GENERATION", "SCHEMA_CONTEXT", "REPAIR_POLICY", "INFRASTRUCTURE", "EVALUATION_DATA",
    "OTHER"]

def resolved : List String := ["FIXED", "WONT_FIX", "DUPLICATE"]

/-- The columns that a call may set. -/
inductive ReviewField
  | status
  | classification
  | assignee
  | notes
  | fixtureId
  | issueUrl
  | prUrl
  deriving DecidableEq, Repr

def ReviewField.ofKey? : String → Option ReviewField
  | "status" => some .status
  | "classification" => some .classification
  | "assignee" => some .assignee
  | "notes" => some .notes
  | "fixture_id" => some .fixtureId
  | "issue_url" => some .issueUrl
  | "pr_url" => some .prUrl
  | _ => none

/-- A row, without the columns that no update changes. -/
structure FailureReview where
  value : ReviewField → Option String
  version : ℕ
  updatedAt : ℕ
  resolvedAt : Option ℕ

/-- The row that `create_failure_review` inserts, with the table's defaults. -/
def FailureReview.created (now : ℕ) : FailureReview where
  value
    | .status => some "NEW"
    | _ => none
  version := 1
  updatedAt := now
  resolvedAt := none

/-- The constraints of the table: the two `CHECK`s, `NOT NULL`, and the range of `INTEGER`. -/
def FailureReview.accepted (review : FailureReview) : Bool :=
  (match review.value .status with
    | some status => statuses.contains status
    | none => false) &&
  (match review.value .classification with
    | some classification => classifications.contains classification
    | none => true) &&
  review.version ≤ 2147483647

/-- The status of the review is one of the resolved ones. -/
def FailureReview.IsResolved (review : FailureReview) : Prop :=
  ∃ status ∈ resolved, review.value .status = some status

/-- `resolved_at` is set iff the status is one of the resolved ones. -/
def FailureReview.Consistent (review : FailureReview) : Prop :=
  review.resolvedAt.isSome = true ↔ review.IsResolved

/-- What `update_failure_review` is called with. -/
structure Call where
  version : ℕ
  changes : List (String × Option String)

def Call.clean (call : Call) : List (ReviewField × Option String) :=
  call.changes.filterMap fun change => (ReviewField.ofKey? change.1).map (·, change.2)

/-- The row that the `UPDATE` writes. -/
def FailureReview.updated (review : FailureReview) (clean : List (ReviewField × Option String))
    (now : ℕ) : FailureReview where
  value field := (clean.lookup field).getD (review.value field)
  version := review.version + 1
  updatedAt := now
  resolvedAt :=
    match clean.lookup .status with
    | some (some status) => if status ∈ resolved then some now else none
    | some none => none
    | none => review.resolvedAt

/-- What a call hears of a statement. -/
inductive Reply
  /-- it is done; `now` is the time of its transaction -/
  | ok (now : ℕ)
  /-- it is done, but the answer does not arrive -/
  | lost
  /-- it is refused or does not arrive, and its transaction is rolled back -/
  | error
  deriving DecidableEq, Repr

/-- The committed row, if there is one, and the transaction that has locked it, with the row that it
has written. -/
structure Server (ι : Type) where
  row : Option FailureReview
  pending : Option (ι × FailureReview)

variable {ι : Type}

/-- The row that the `WHERE` of a call's `UPDATE` finds. -/
def Server.matching (s : Server ι) (call : Call) : Option FailureReview :=
  s.row.filter (·.version = call.version)

inductive Outcome
  | returned (review : Option FailureReview)
  | raised

/-- The statement that a call executes next; `commit` knows whether the `UPDATE` has returned a
row. -/
inductive Progress
  | update
  | commit (matched : Bool)
  | read
  | done (outcome : Outcome)

/-- A call that changes no column only reads. -/
def Call.start (call : Call) : Progress :=
  if call.clean.isEmpty then .read else .update

section

variable [DecidableEq ι]

def Server.commit (s : Server ι) (i : ι) : Server ι :=
  match s.pending with
  | some (j, review) => if j = i then ⟨some review, none⟩ else s
  | none => s

def Server.rollback (s : Server ι) (i : ι) : Server ι :=
  match s.pending with
  | some (j, _) => if j = i then ⟨s.row, none⟩ else s
  | none => s

/-- **One statement of a call.** -/
def advance (call : Call) (i : ι) (reply : Reply) : Server ι × Progress → Server ι × Progress
  | (s, .update) =>
    match reply, s.matching call with
    | .ok now, some review =>
      let written := review.updated call.clean now
      if written.accepted then (⟨s.row, some (i, written)⟩, .commit true)
      else (s, .done .raised)
    | .ok _, none => (s, .commit false)
    | .lost, _ | .error, _ => (s, .done .raised)
  | (s, .commit matched) =>
    match reply with
    | .ok _ => (s.commit i, if matched then .read else .done (.returned none))
    | .lost => (s.commit i, .done .raised)
    | .error => (s.rollback i, .done .raised)
  | (s, .read) =>
    match reply with
    | .ok _ => (s, .done (.returned s.row))
    | .lost | .error => (s, .done .raised)
  | (s, .done outcome) => (s, .done outcome)

end

/-- The statement need not wait for the lock of another transaction. -/
def Ready (call : Call) (reply : Reply) (s : Server ι) : Progress → Prop
  | .update => (∃ now, reply = .ok now) → s.matching call ≠ none → s.pending = none
  | .commit _ | .read => True
  | .done _ => False

/-- What `patch_review` answers. -/
inductive Response
  | review (review : FailureReview)
  /-- 409, "다른 관리자가 먼저 수정했습니다. 최신 데이터를 다시 불러오세요" -/
  | conflict
  /-- the exception is not caught -/
  | serverError

def patchReview : Outcome → Response
  | .returned (some review) => .review review
  | .returned none => .conflict
  | .raised => .serverError

/-! ### What one statement does -/

@[simp] theorem updated_version (review : FailureReview)
    (clean : List (ReviewField × Option String)) (now : ℕ) :
    (review.updated clean now).version = review.version + 1 := rfl

theorem created_consistent (now : ℕ) : (FailureReview.created now).Consistent := by
  constructor
  · intro h
    cases h
  · rintro ⟨status, hmem, hstatus⟩
    cases hstatus
    exact absurd hmem (by decide)

/-- **An update keeps `resolved_at` in step with the status.** -/
theorem FailureReview.Consistent.updated {review : FailureReview} (h : review.Consistent)
    (clean : List (ReviewField × Option String)) (now : ℕ) :
    (review.updated clean now).Consistent := by
  unfold FailureReview.Consistent FailureReview.IsResolved at h ⊢
  unfold FailureReview.updated
  cases hlookup : clean.lookup .status with
  | none => simpa [hlookup] using h
  | some value =>
    cases value with
    | none => simp [hlookup]
    | some status =>
      by_cases hmem : status ∈ resolved
      · simp [hlookup, hmem]
      · simp [hlookup, hmem]

theorem Server.matching_eq_some {s : Server ι} {call : Call} {review : FailureReview} :
    s.matching call = some review ↔ s.row = some review ∧ review.version = call.version := by
  rw [Server.matching, Option.filter_eq_some_iff]
  simp

section

variable [DecidableEq ι]

/-- What a statement of a call does. -/
inductive Effect (call : Call) (i : ι) (reply : Reply) (s : Server ι) :
    Progress → Server ι × Progress → Prop
  | lock {now : ℕ} {review : FailureReview} (ok : reply = .ok now) (free : s.pending = none)
      (found : s.row = some review) (named : review.version = call.version) :
      Effect call i reply s .update
        (⟨s.row, some (i, review.updated call.clean now)⟩, .commit true)
  | stale {now : ℕ} (ok : reply = .ok now) (missing : s.matching call = none) :
      Effect call i reply s .update (s, .commit false)
  | refused (reason : s.matching call = none → ¬ ∃ now, reply = .ok now) :
      Effect call i reply s .update (s, .done .raised)
  | commit {matched : Bool} (done : reply ≠ .error) :
      Effect call i reply s (.commit matched)
        (s.commit i, if reply = .lost then .done .raised
          else if matched then .read else .done (.returned none))
  | rollback {matched : Bool} (failed : reply = .error) :
      Effect call i reply s (.commit matched) (s.rollback i, .done .raised)
  | read {now : ℕ} (ok : reply = .ok now) :
      Effect call i reply s .read (s, .done (.returned s.row))
  | unread : Effect call i reply s .read (s, .done .raised)

/-- **The statements of a call have these effects and no others.** -/
theorem effect_advance {call : Call} {i : ι} {reply : Reply} {s : Server ι} {p : Progress}
    (h : Ready call reply s p) : Effect call i reply s p (advance call i reply (s, p)) := by
  cases p with
  | update =>
    cases hmatching : s.matching call with
    | none =>
      cases reply with
      | ok now =>
        simp only [advance, hmatching]
        exact .stale rfl hmatching
      | lost => exact .refused fun _ => by simp
      | error => exact .refused fun _ => by simp
    | some review =>
      have hreason : s.matching call = none → ¬ ∃ now, reply = .ok now := by
        simp [hmatching]
      cases reply with
      | ok now =>
        obtain ⟨hrow, hversion⟩ := Server.matching_eq_some.1 hmatching
        have hfree : s.pending = none := h ⟨now, rfl⟩ (by simp [hmatching])
        simp only [advance, hmatching]
        split_ifs
        · exact .lock rfl hfree hrow hversion
        · exact .refused hreason
      | lost => exact .refused hreason
      | error => exact .refused hreason
  | commit matched =>
    cases reply with
    | ok now => exact .commit (by simp)
    | lost => exact .commit (by simp)
    | error => exact .rollback rfl
  | read =>
    cases reply with
    | ok now => exact .read rfl
    | lost => exact .unread
    | error => exact .unread
  | done outcome => exact h.elim

end

end FailureReviews
