import Text2Cypher.Library.Interleaving
import Text2Cypher.Reviews.FailureReview
import Mathlib.Data.List.Range

/-!
# Review updates at the same time

Any number of calls of `update_failure_review` on one review.  The row lock lets at most one of them
write at a time, and the version in its `WHERE` makes every update apply to the row that its caller
has named.  But a call reads the review back in a transaction of its own, after others may have
updated it too.

* `Invariant`: the lock, the versions, and what every call knows at its statement;
* **`reviews_serialisable`**: in a history in which every call that has updated the review reads it
  before the next update, the updates are serialisable.
-/

namespace FailureReviews

open Interleaving

variable {ι : Type}

/-- The statement that a call executes next, with the server's reply. -/
def UpdateStep [DecidableEq ι] (call : ι → Call) (i : ι) (reply : Reply)
    (state next : Server ι × Progress) :
    Prop :=
  Ready (call i) reply state.1 state.2 ∧ next = advance (call i) i reply state

/-- Nobody but the calls changes the review. -/
def OthersStep (_ _ : Server ι) : Prop := False

/-- Every call before its first statement, and a review that was created at some time or does not
exist. -/
def started (call : ι → Call) (createdAt : Option ℕ) : System ι (Server ι) Progress :=
  ⟨⟨createdAt.map .created, none⟩, fun i => (call i).start⟩

/-- The call whose update the move commits. -/
def committer (move : Move ι Reply (Server ι) Progress) : Option ι :=
  match move.actor with
  | some (i, .ok _) | some (i, .lost) =>
    match move.before.party i with
    | .commit true => some i
    | _ => none
  | _ => none

/-- The calls whose updates have been committed, in their order. -/
def successes (moves : List (Move ι Reply (Server ι) Progress)) : List ι :=
  moves.filterMap committer

/-- A committed update changes exactly the version that its caller has named, to the next one; no
other move changes the review. -/
def Applied (call : ι → Call) (move : Move ι Reply (Server ι) Progress) : Prop :=
  match committer move with
  | some i => ∃ review now, move.before.shared.row = some review ∧
      review.version = (call i).version ∧
      move.after.shared.row = some (review.updated (call i).clean now)
  | none => move.after.shared.row = move.before.shared.row

/-- The `UPDATE` of the call has not found the version that the caller has named. -/
def FoundStale (call : ι → Call) (i : ι) (move : Move ι Reply (Server ι) Progress) : Prop :=
  (∃ now, move.actor = some (i, .ok now)) ∧ move.before.party i = .update ∧
    move.before.shared.matching (call i) = none

/-- The server answers every statement of the call. -/
def Answered (i : ι) (moves : List (Move ι Reply (Server ι) Progress)) : Prop :=
  ∀ move ∈ moves, ∀ reply, move.actor = some (i, reply) → ∃ now, reply = .ok now

/-- The row that the call's own update has produced. -/
def Produced (moves : List (Move ι Reply (Server ι) Progress)) (i : ι)
    (row : Option FailureReview) : Prop :=
  ∃ move ∈ moves, committer move = some i ∧ move.after.shared.row = row

/-- **Review updates are serialisable.** -/
structure Serialisable (call : ι → Call) (moves : List (Move ι Reply (Server ι) Progress))
    (s : System ι (Server ι) Progress) : Prop where
  applied : ∀ move ∈ moves, Applied call move
  versions : (successes moves).map (fun i => (call i).version) =
    List.range' 1 (successes moves).length
  unique : ((successes moves).map fun i => (call i).version).Nodup
  grown : ∀ review, s.shared.row = some review → review.version = (successes moves).length + 1
  resolved : ∀ review, s.shared.row = some review → review.Consistent
  conflict : ∀ move ∈ moves, ∀ i, FoundStale call i move → i ∉ successes moves ∧
    ∀ outcome, s.party i = .done outcome → Answered i moves → patchReview outcome = .conflict
  returned : ∀ i, (call i).clean ≠ [] → ∀ outcome, s.party i = .done outcome →
    (∀ review, patchReview outcome = .review review → Produced moves i (some review)) ∧
      (patchReview outcome = .conflict → i ∉ successes moves)

/-- A call that reads the review back finds the version that it has made. -/
def FindsOwn (call : Call) (s : Server ι) : Progress → Prop
  | .read => call.clean ≠ [] → ∀ review ∈ s.row, review.version = call.version + 1
  | _ => True

/-- The call that moves reads no version of another call. -/
def ReadsOwn (call : ι → Call) (move : Move ι Reply (Server ι) Progress) : Prop :=
  ∀ step ∈ move.actor,
    FindsOwn (call step.1) move.before.shared (move.before.party step.1)

/-! ### The invariant -/

/-- What a call knows at its statement. -/
def Knows (call : ι → Call) (moves : List (Move ι Reply (Server ι) Progress)) (i : ι) :
    Progress → Prop
  | .update | .commit _ | .done (.returned none) => i ∉ successes moves
  | .read => (call i).clean ≠ [] → i ∈ successes moves
  | .done (.returned (some review)) => (call i).clean ≠ [] → Produced moves i (some review)
  | .done .raised => True

/-- What a call whose `UPDATE` has found nothing does from then on. -/
def Rejected (i : ι) (moves : List (Move ι Reply (Server ι) Progress)) : Progress → Prop
  | .commit false | .done (.returned none) => True
  | .done .raised => ¬ Answered i moves
  | _ => False

/-- The row is locked by the call that is about to commit, which has written the version after the
one that it has named. -/
structure Locking (call : ι → Call) (s : System ι (Server ι) Progress) : Prop where
  holder : ∀ i written, s.shared.pending = some (i, written) → s.party i = .commit true ∧
    ∃ review now, s.shared.row = some review ∧ review.version = (call i).version ∧
      written = review.updated (call i).clean now
  locked : ∀ i, s.party i = .commit true → ∃ written, s.shared.pending = some (i, written)

/-- The invariant of all histories. -/
structure Invariant (call : ι → Call) (moves : List (Move ι Reply (Server ι) Progress))
    (s : System ι (Server ι) Progress) : Prop where
  locking : Locking call s
  applied : ∀ move ∈ moves, Applied call move
  versions : (successes moves).map (fun i => (call i).version) =
    List.range' 1 (successes moves).length
  missing : s.shared.row = none → successes moves = []
  grown : ∀ review, s.shared.row = some review → review.version = (successes moves).length + 1
  resolved : ∀ review, s.shared.row = some review → review.Consistent
  produced : ∀ i ∈ successes moves, ∀ review, s.shared.row = some review →
    review.version = (call i).version + 1 → Produced moves i (some review)
  knows : ∀ i, Knows call moves i (s.party i)
  rejected : ∀ move ∈ moves, ∀ i, FoundStale call i move →
    i ∉ successes moves ∧ Rejected i moves (s.party i)

theorem successes_append (moves : List (Move ι Reply (Server ι) Progress))
    (move : Move ι Reply (Server ι) Progress) :
    successes (moves ++ [move]) = successes moves ++ (committer move).toList := by
  rw [successes, List.filterMap_append]
  cases h : committer move with
  | none => simp [successes, h]
  | some i => simp [successes, h]

theorem Produced.append {moves : List (Move ι Reply (Server ι) Progress)} {i : ι}
    {row : Option FailureReview} (h : Produced moves i row)
    (move : Move ι Reply (Server ι) Progress) : Produced (moves ++ [move]) i row := by
  obtain ⟨produced, hmem, hproduced⟩ := h
  exact ⟨produced, List.mem_append_left _ hmem, hproduced⟩

/-- What the others know stays true when one call moves. -/
theorem Knows.append {call : ι → Call} {moves : List (Move ι Reply (Server ι) Progress)} {i : ι}
    {p : Progress} (h : Knows call moves i p) {move : Move ι Reply (Server ι) Progress}
    (hother : committer move ≠ some i) : Knows call (moves ++ [move]) i p := by
  have hsuccess : i ∈ successes (moves ++ [move]) ↔ i ∈ successes moves := by
    rw [successes_append, List.mem_append, Option.mem_toList]
    exact or_iff_left hother
  cases p with
  | update | commit matched => exact fun hmem => h (hsuccess.1 hmem)
  | read => exact fun hclean => hsuccess.2 (h hclean)
  | done outcome =>
    cases outcome with
    | raised => trivial
    | returned review =>
      cases review with
      | none => exact fun hmem => h (hsuccess.1 hmem)
      | some review => exact fun hclean => (h hclean).append move

theorem Answered.of_append {moves : List (Move ι Reply (Server ι) Progress)} {i : ι}
    {move : Move ι Reply (Server ι) Progress} (h : Answered i (moves ++ [move])) :
    Answered i moves :=
  fun earlier hmem => h earlier (List.mem_append_left _ hmem)

theorem Rejected.append {moves : List (Move ι Reply (Server ι) Progress)} {i : ι} {p : Progress}
    (h : Rejected i moves p) (move : Move ι Reply (Server ι) Progress) :
    Rejected i (moves ++ [move]) p := by
  cases p with
  | update => exact h.elim
  | read => exact h.elim
  | commit matched =>
    cases matched with
    | false => trivial
    | true => exact h.elim
  | done outcome =>
    cases outcome with
    | raised => exact fun hanswered => h hanswered.of_append
    | returned review =>
      cases review with
      | none => trivial
      | some review => exact h.elim

/-- Every committed update names a version below that of the row. -/
theorem Invariant.version_lt {call : ι → Call} {moves : List (Move ι Reply (Server ι) Progress)}
    {s : System ι (Server ι) Progress} (h : Invariant call moves s) {i : ι}
    (hmem : i ∈ successes moves) : (call i).version < (successes moves).length + 1 := by
  have hversion : (call i).version ∈ (successes moves).map fun i => (call i).version :=
    List.mem_map_of_mem hmem
  rw [h.versions, List.mem_range'_1] at hversion
  omega

/-! ### The start, and what the invariant says -/

theorem Invariant.start (call : ι → Call) (createdAt : Option ℕ) :
    Invariant call [] (started call createdAt) := by
  have hstart : ∀ i, (call i).start ≠ .commit true := by
    intro i
    rw [Call.start]
    split_ifs <;> simp
  constructor
  case locking => exact ⟨fun i written h => (by cases h), fun i h => absurd h (hstart i)⟩
  case applied => exact fun move hmem => absurd hmem List.not_mem_nil
  case versions => rfl
  case missing => exact fun _ => rfl
  case grown =>
    intro review hreview
    obtain ⟨now, -, rfl⟩ := Option.map_eq_some_iff.1 hreview
    rfl
  case resolved =>
    intro review hreview
    obtain ⟨now, -, rfl⟩ := Option.map_eq_some_iff.1 hreview
    exact created_consistent now
  case produced => exact fun i hmem => absurd hmem List.not_mem_nil
  case knows =>
    intro i
    show Knows call [] i (call i).start
    rw [Call.start]
    split_ifs with hempty
    · exact fun hclean => absurd (List.isEmpty_iff.1 hempty) hclean
    · exact List.not_mem_nil
  case rejected => exact fun move hmem => absurd hmem List.not_mem_nil

theorem Invariant.serialisable {call : ι → Call}
    {moves : List (Move ι Reply (Server ι) Progress)} {s : System ι (Server ι) Progress}
    (h : Invariant call moves s) : Serialisable call moves s := by
  constructor
  case applied => exact h.applied
  case versions => exact h.versions
  case unique =>
    rw [h.versions]
    exact List.nodup_range'
  case grown => exact h.grown
  case resolved => exact h.resolved
  case conflict =>
    intro move hmem i hfound
    obtain ⟨hsuccess, hrejected⟩ := h.rejected move hmem i hfound
    refine ⟨hsuccess, fun outcome houtcome hanswered => ?_⟩
    rw [houtcome] at hrejected
    cases outcome with
    | raised => exact absurd hanswered hrejected
    | returned review =>
      cases review with
      | none => rfl
      | some review => exact hrejected.elim
  case returned =>
    intro i hclean outcome houtcome
    have hknows := h.knows i
    rw [houtcome] at hknows
    cases outcome with
    | raised => exact ⟨fun review h => (by cases h), fun h => (by cases h)⟩
    | returned review =>
      cases review with
      | none => exact ⟨fun review h => (by cases h), fun _ => hknows⟩
      | some review =>
        refine ⟨fun review' h => ?_, fun h => (by cases h)⟩
        obtain rfl := Response.review.inj h
        exact hknows hclean

/-! ### What one statement keeps -/

/-- A move of a call that has not locked the row commits nothing. -/
theorem committer_of_ne {s s' : System ι (Server ι) Progress} {i : ι} {reply : Reply}
    (h : s.party i = .commit true → reply = .error) :
    committer ⟨some (i, reply), s, s'⟩ = none := by
  cases reply with
  | error => rfl
  | ok now =>
    simp only [committer]
    split
    · next hparty => cases h hparty
    · rfl
  | lost =>
    simp only [committer]
    split
    · next hparty => cases h hparty
    · rfl

/-- A statement that is not answered. -/
theorem not_answered {moves : List (Move ι Reply (Server ι) Progress)} {i : ι} {reply : Reply}
    {s s' : System ι (Server ι) Progress} (h : ¬ ∃ now, reply = .ok now) :
    ¬ Answered i (moves ++ [⟨some (i, reply), s, s'⟩]) :=
  fun hanswered => h (hanswered _ (List.mem_append_right _ (List.mem_singleton_self _)) reply rfl)

section

variable [DecidableEq ι]

/-- A call that has not locked the row commits nothing. -/
theorem Locking.commit_eq {call : ι → Call} {s : System ι (Server ι) Progress}
    (h : Locking call s) {i : ι} (hparty : s.party i ≠ .commit true) :
    s.shared.commit i = s.shared := by
  unfold Server.commit
  split
  · next j written hpending =>
    rw [if_neg]
    rintro rfl
    exact hparty (h.holder j written hpending).1
  · rfl

theorem Locking.rollback_eq {call : ι → Call} {s : System ι (Server ι) Progress}
    (h : Locking call s) {i : ι} (hparty : s.party i ≠ .commit true) :
    s.shared.rollback i = s.shared := by
  unfold Server.rollback
  split
  · next j written hpending =>
    rw [if_neg]
    rintro rfl
    exact hparty (h.holder j written hpending).1
  · rfl

/-- The lock after a move that leaves the server as it is. -/
theorem Locking.still {call : ι → Call} {s : System ι (Server ι) Progress} (h : Locking call s)
    {i : ι} {p : Progress} (hbefore : s.party i ≠ .commit true) (hafter : p ≠ .commit true) :
    Locking call (s.moved i (s.shared, p)) := by
  have hparty : ∀ j, (s.moved i (s.shared, p)).party j = .commit true ↔
      s.party j = .commit true := by
    intro j
    by_cases hj : j = i
    · subst hj
      rw [System.moved_party_self]
      exact iff_of_false hafter hbefore
    · rw [System.moved_party_of_ne _ hj]
  refine ⟨fun j written hpending => ?_, fun j hj => h.locked j ((hparty j).1 hj)⟩
  obtain ⟨hholder, hwritten⟩ := h.holder j written hpending
  exact ⟨(hparty j).2 hholder, hwritten⟩

/-- The lock after a transaction that held it has ended. -/
theorem Locking.released {call : ι → Call} {s : System ι (Server ι) Progress} (h : Locking call s)
    {i : ι} (hbefore : s.party i = .commit true) {row : Option FailureReview} {p : Progress}
    (hafter : p ≠ .commit true) : Locking call (s.moved i (⟨row, none⟩, p)) := by
  refine ⟨fun j written hpending => (by cases hpending), fun j hj => ?_⟩
  obtain ⟨written, hpending⟩ := h.locked i hbefore
  by_cases hji : j = i
  · subst hji
    rw [System.moved_party_self] at hj
    exact absurd hj hafter
  · rw [System.moved_party_of_ne _ hji] at hj
    obtain ⟨written', hpending'⟩ := h.locked j hj
    rw [hpending, Option.some.injEq, Prod.mk.injEq] at hpending'
    exact absurd hpending'.1.symm hji

/-- The lock after an `UPDATE` that has found its row. -/
theorem Locking.lock {call : ι → Call} {s : System ι (Server ι) Progress} (h : Locking call s)
    {i : ι} (hfree : s.shared.pending = none) {review : FailureReview} {now : ℕ}
    (hfound : s.shared.row = some review) (hnamed : review.version = (call i).version) :
    Locking call (s.moved i
      (⟨s.shared.row, some (i, review.updated (call i).clean now)⟩, .commit true)) := by
  refine ⟨fun j written hpending => ?_, fun j hj => ?_⟩
  · rw [System.moved_shared, Option.some.injEq, Prod.mk.injEq] at hpending
    obtain ⟨rfl, rfl⟩ := hpending
    exact ⟨System.moved_party_self .., review, now, hfound, hnamed, rfl⟩
  · by_cases hji : j = i
    · subst hji
      exact ⟨_, rfl⟩
    · rw [System.moved_party_of_ne _ hji] at hj
      obtain ⟨written, hpending⟩ := h.locked j hj
      rw [hfree] at hpending
      cases hpending

/-- The invariant after a move that commits no update. -/
theorem Invariant.quiet {call : ι → Call} {moves : List (Move ι Reply (Server ι) Progress)}
    {s : System ι (Server ι) Progress} (h : Invariant call moves s) {i : ι} {reply : Reply}
    {next : Server ι × Progress} (hlocking : Locking call (s.moved i next))
    (hrow : next.1.row = s.shared.row)
    (hcommitter : committer ⟨some (i, reply), s, s.moved i next⟩ = none)
    (hknows : Knows call moves i next.2)
    (hstale : FoundStale call i ⟨some (i, reply), s, s.moved i next⟩ →
      Rejected i (moves ++ [⟨some (i, reply), s, s.moved i next⟩]) next.2)
    (hrejected : Rejected i moves (s.party i) →
      Rejected i (moves ++ [⟨some (i, reply), s, s.moved i next⟩]) next.2) :
    Invariant call (moves ++ [⟨some (i, reply), s, s.moved i next⟩]) (s.moved i next) := by
  have hsuccesses : successes (moves ++ [⟨some (i, reply), s, s.moved i next⟩]) =
      successes moves := by
    rw [successes_append, hcommitter, Option.toList_none, List.append_nil]
  have hother : ∀ j, committer ⟨some (i, reply), s, s.moved i next⟩ ≠ some j := by
    simp [hcommitter]
  constructor
  case locking => exact hlocking
  case applied =>
    rw [List.forall_mem_append, List.forall_mem_singleton]
    refine ⟨h.applied, ?_⟩
    rw [Applied, hcommitter]
    exact hrow
  case versions =>
    rw [hsuccesses]
    exact h.versions
  case missing =>
    rw [hsuccesses, System.moved_shared, hrow]
    exact h.missing
  case grown =>
    rw [hsuccesses, System.moved_shared, hrow]
    exact h.grown
  case resolved =>
    rw [System.moved_shared, hrow]
    exact h.resolved
  case produced =>
    rw [hsuccesses, System.moved_shared, hrow]
    exact fun j hmem review hreview hversion => (h.produced j hmem review hreview hversion).append _
  case knows =>
    intro j
    by_cases hj : j = i
    · subst hj
      rw [System.moved_party_self]
      exact hknows.append (hother j)
    · rw [System.moved_party_of_ne _ hj]
      exact (h.knows j).append (hother j)
  case rejected =>
    rw [List.forall_mem_append, List.forall_mem_singleton]
    rw [hsuccesses]
    refine ⟨fun move hmem j hfound => ?_, fun j hfound => ?_⟩
    · obtain ⟨hsuccess, hbefore⟩ := h.rejected move hmem j hfound
      refine ⟨hsuccess, ?_⟩
      by_cases hj : j = i
      · subst hj
        rw [System.moved_party_self]
        exact hrejected hbefore
      · rw [System.moved_party_of_ne _ hj]
        exact hbefore.append _
    · obtain ⟨⟨now, hactor⟩, hupdate, -⟩ := id hfound
      simp only [Option.some.injEq, Prod.mk.injEq] at hactor
      obtain ⟨rfl, rfl⟩ := hactor
      have hsuccess := h.knows i
      rw [show s.party i = .update from hupdate] at hsuccess
      refine ⟨hsuccess, ?_⟩
      rw [System.moved_party_self]
      exact hstale hfound

/-- What the holder of the lock commits. -/
theorem Locking.commit_eq_written {call : ι → Call} {s : System ι (Server ι) Progress}
    (h : Locking call s) {i : ι} (hparty : s.party i = .commit true) :
    ∃ review now, s.shared.row = some review ∧ review.version = (call i).version ∧
      s.shared.commit i = ⟨some (review.updated (call i).clean now), none⟩ := by
  obtain ⟨written, hpending⟩ := h.locked i hparty
  obtain ⟨-, review, now, hrow, hversion, rfl⟩ := h.holder i written hpending
  refine ⟨review, now, hrow, hversion, ?_⟩
  simp only [Server.commit, hpending, if_true]

theorem Locking.rollback_eq_row {call : ι → Call} {s : System ι (Server ι) Progress}
    (h : Locking call s) {i : ι} (hparty : s.party i = .commit true) :
    s.shared.rollback i = ⟨s.shared.row, none⟩ := by
  obtain ⟨written, hpending⟩ := h.locked i hparty
  simp only [Server.rollback, hpending, if_true]

/-- The invariant after a move that commits an update. -/
theorem Invariant.commit {call : ι → Call} {moves : List (Move ι Reply (Server ι) Progress)}
    {s : System ι (Server ι) Progress} (h : Invariant call moves s) {i : ι} {reply : Reply}
    {p : Progress} (hparty : s.party i = .commit true) (hdone : reply ≠ .error)
    (hp : p = .read ∨ p = .done .raised) :
    Invariant call (moves ++ [⟨some (i, reply), s, s.moved i (s.shared.commit i, p)⟩])
      (s.moved i (s.shared.commit i, p)) := by
  obtain ⟨review, now, hrow, hversion, hcommit⟩ := h.locking.commit_eq_written hparty
  have hcommitter : committer ⟨some (i, reply), s, s.moved i (s.shared.commit i, p)⟩ = some i := by
    cases reply with
    | ok now => simp only [committer, hparty]
    | lost => simp only [committer, hparty]
    | error => exact absurd rfl hdone
  have hsuccesses : successes (moves ++ [⟨some (i, reply), s, s.moved i (s.shared.commit i, p)⟩]) =
      successes moves ++ [i] := by
    rw [successes_append, hcommitter, Option.toList_some]
  have hgrown : (call i).version = (successes moves).length + 1 := by
    rw [← hversion]
    exact h.grown review hrow
  have hafter : (s.moved i (s.shared.commit i, p)).shared.row =
      some (review.updated (call i).clean now) := by
    rw [System.moved_shared, hcommit]
  constructor
  case locking =>
    rw [hcommit]
    refine h.locking.released hparty ?_
    rcases hp with rfl | rfl <;> simp
  case applied =>
    rw [List.forall_mem_append, List.forall_mem_singleton]
    refine ⟨h.applied, ?_⟩
    rw [Applied, hcommitter]
    exact ⟨review, now, hrow, hversion, hafter⟩
  case versions =>
    rw [hsuccesses, List.map_append, h.versions, List.length_append, List.length_singleton,
      List.range'_1_concat, List.map_singleton, hgrown, Nat.add_comm 1]
  case missing =>
    intro hnone
    rw [hafter] at hnone
    cases hnone
  case grown =>
    intro review' hreview'
    rw [hafter, Option.some.injEq] at hreview'
    subst hreview'
    rw [hsuccesses, List.length_append, List.length_singleton, updated_version, hversion, hgrown]
  case resolved =>
    intro review' hreview'
    rw [hafter, Option.some.injEq] at hreview'
    subst hreview'
    exact (h.resolved review hrow).updated _ _
  case produced =>
    intro j hmem review' hreview' hj
    have hlast : (call j).version = (call i).version := by
      rw [hafter, Option.some.injEq] at hreview'
      subst hreview'
      rw [updated_version] at hj
      omega
    -- the version of an earlier update is below that of the row
    have hself : j = i := by
      rw [hsuccesses, List.mem_append, List.mem_singleton] at hmem
      rcases hmem with hmem | rfl
      · have hlt := h.version_lt hmem
        omega
      · rfl
    subst hself
    exact ⟨_, List.mem_append_right _ (List.mem_singleton_self _), hcommitter, hreview'⟩
  case knows =>
    intro j
    by_cases hj : j = i
    · subst hj
      rw [System.moved_party_self]
      rcases hp with rfl | rfl
      · intro _
        rw [hsuccesses]
        exact List.mem_append_right _ (List.mem_singleton_self _)
      · trivial
    · rw [System.moved_party_of_ne _ hj]
      refine (h.knows j).append ?_
      rw [hcommitter]
      exact fun heq => hj (Option.some.inj heq).symm
  case rejected =>
    rw [List.forall_mem_append, List.forall_mem_singleton]
    refine ⟨fun move hmem j hfound => ?_, fun j hfound => ?_⟩
    · obtain ⟨hsuccess, hrejected⟩ := h.rejected move hmem j hfound
      have hj : j ≠ i := by
        rintro rfl
        rw [hparty] at hrejected
        exact hrejected
      rw [System.moved_party_of_ne _ hj, hsuccesses, List.mem_append, List.mem_singleton]
      exact ⟨not_or.2 ⟨hsuccess, hj⟩, hrejected.append _⟩
    · obtain ⟨⟨now, hactor⟩, hupdate, -⟩ := hfound
      simp only [Option.some.injEq, Prod.mk.injEq] at hactor
      obtain ⟨rfl, rfl⟩ := hactor
      rw [hparty] at hupdate
      cases hupdate

/-- The invariant after a move that leaves the server as it is. -/
theorem Invariant.still {call : ι → Call} {moves : List (Move ι Reply (Server ι) Progress)}
    {s : System ι (Server ι) Progress} (h : Invariant call moves s) {i : ι} {reply : Reply}
    {p : Progress} (hbefore : s.party i ≠ .commit true) (hafter : p ≠ .commit true)
    (hknows : Knows call moves i p)
    (hstale : FoundStale call i ⟨some (i, reply), s, s.moved i (s.shared, p)⟩ →
      Rejected i (moves ++ [⟨some (i, reply), s, s.moved i (s.shared, p)⟩]) p)
    (hrejected : Rejected i moves (s.party i) →
      Rejected i (moves ++ [⟨some (i, reply), s, s.moved i (s.shared, p)⟩]) p) :
    Invariant call (moves ++ [⟨some (i, reply), s, s.moved i (s.shared, p)⟩])
      (s.moved i (s.shared, p)) :=
  h.quiet (h.locking.still hbefore hafter) rfl
    (committer_of_ne fun hparty => absurd hparty hbefore) hknows hstale hrejected

/-- **What a statement keeps.** -/
theorem Invariant.act {call : ι → Call} {moves : List (Move ι Reply (Server ι) Progress)}
    {s : System ι (Server ι) Progress} (h : Invariant call moves s) {i : ι} {reply : Reply}
    {next : Server ι × Progress}
    (heffect : Effect (call i) i reply s.shared (s.party i) next)
    (hclean : ReadsOwn call ⟨some (i, reply), s, s.moved i next⟩) :
    Invariant call (moves ++ [⟨some (i, reply), s, s.moved i next⟩]) (s.moved i next) := by
  have hknows := h.knows i
  have hreads : FindsOwn (call i) s.shared (s.party i) := hclean (i, reply) rfl
  generalize hparty : s.party i = p at heffect hknows hreads
  cases heffect with
  | @lock now review ok free found named =>
    refine h.quiet (h.locking.lock free found named) rfl
      (committer_of_ne fun hcommit => ?_) hknows (fun hfound => ?_) fun hrejected => ?_
    · rw [hparty] at hcommit
      cases hcommit
    · have hmissing : s.shared.matching (call i) = none := hfound.2.2
      rw [Server.matching_eq_some.2 ⟨found, named⟩] at hmissing
      cases hmissing
    · rw [hparty] at hrejected
      exact hrejected.elim
  | stale ok missing =>
    refine h.still (by simp [hparty]) (by simp) hknows (fun _ => trivial) fun _ => trivial
  | refused reason =>
    refine h.still (by simp [hparty]) (by simp) trivial (fun hfound => ?_) fun hrejected => ?_
    · exact not_answered (reason hfound.2.2)
    · rw [hparty] at hrejected
      exact hrejected.elim
  | @commit matched done =>
    cases matched with
    | true =>
      refine h.commit hparty done ?_
      by_cases hlost : reply = .lost
      · exact Or.inr (if_pos hlost)
      · exact Or.inl (if_neg hlost)
    | false =>
      have hcommit : s.party i ≠ .commit true := by simp [hparty]
      rw [h.locking.commit_eq hcommit]
      by_cases hlost : reply = .lost
      · rw [if_pos hlost]
        have hunanswered : ¬ ∃ now, reply = .ok now := by simp [hlost]
        exact h.still hcommit (by simp) trivial (fun _ => not_answered hunanswered)
          fun _ => not_answered hunanswered
      · rw [if_neg hlost]
        exact h.still hcommit (by simp) hknows (fun _ => trivial) fun _ => trivial
  | @rollback matched failed =>
    have hunanswered : ¬ ∃ now, reply = .ok now := by simp [failed]
    cases matched with
    | true =>
      rw [h.locking.rollback_eq_row hparty]
      exact h.quiet (h.locking.released hparty (by simp)) rfl (committer_of_ne fun _ => failed)
        trivial (fun _ => not_answered hunanswered) fun _ => not_answered hunanswered
    | false =>
      have hcommit : s.party i ≠ .commit true := by simp [hparty]
      rw [h.locking.rollback_eq hcommit]
      exact h.still hcommit (by simp) trivial (fun _ => not_answered hunanswered)
        fun _ => not_answered hunanswered
  | read ok =>
    refine h.still (by simp [hparty]) (by simp) ?_ (fun hfound => ?_) fun hrejected => ?_
    · cases hrow : s.shared.row with
      | none =>
        show i ∉ successes moves
        rw [h.missing hrow]
        exact List.not_mem_nil
      | some review =>
        exact fun hchanges => h.produced i (hknows hchanges) review hrow
          (hreads hchanges review hrow)
    · have hupdate : s.party i = .update := hfound.2.1
      rw [hparty] at hupdate
      cases hupdate
    · rw [hparty] at hrejected
      exact hrejected.elim
  | unread =>
    refine h.still (by simp [hparty]) (by simp) trivial (fun hfound => ?_) fun hrejected => ?_
    · have hupdate : s.party i = .update := hfound.2.1
      rw [hparty] at hupdate
      cases hupdate
    · rw [hparty] at hrejected
      exact hrejected.elim

/-- **Review updates are serialisable** in every history in which each call that has updated the
review reads it back before the next update. -/
theorem reviews_serialisable (call : ι → Call) (createdAt : Option ℕ)
    (moves : List (Move ι Reply (Server ι) Progress)) (s : System ι (Server ι) Progress)
    (h : History (UpdateStep call) OthersStep (started call createdAt) moves s)
    (hclean : ∀ move ∈ moves, ReadsOwn call move) : Serialisable call moves s := by
  refine Invariant.serialisable (h.rule (.start call createdAt) ?_ ?_ hclean)
  · intro moves s i reply next hinvariant hstep hmove
    obtain ⟨hready, rfl⟩ := hstep
    exact hinvariant.act (effect_advance hready) hmove
  · exact fun _ _ _ _ hothers => hothers.elim

end

/-! ### Two calls -/

instance (call : Call) (reply : Reply) (s : Server ι) (p : Progress) :
    Decidable (Ready call reply s p) :=
  match p, reply with
  | .update, .ok now =>
    decidable_of_iff (s.matching call ≠ none → s.pending = none)
      ⟨fun h _ => h, fun h => h ⟨now, rfl⟩⟩
  | .update, .lost | .update, .error => isTrue fun h => by simp at h
  | .commit _, _ | .read, _ => isTrue trivial
  | .done _, _ => isFalse id

instance (call : Call) (s : Server ι) (p : Progress) : Decidable (FindsOwn call s p) :=
  match p with
  | .read => inferInstanceAs
      (Decidable (call.clean ≠ [] → ∀ review ∈ s.row, review.version = call.version + 1))
  | .update | .commit _ | .done _ => isTrue trivial

/-- One call closes the review, the other takes it over. -/
def twoCalls (second : ℕ) (first : Bool) : Call where
  version := if first then 1 else second
  changes := if first then [("status", some "FIXED")] else [("assignee", some "admin")]

/-- The two calls take turns as the schedule says; every statement is answered. -/
def takeTurns (second : ℕ) (schedule : List Bool) :
    List (Move Bool Reply (Server Bool) Progress) × System Bool (Server Bool) Progress :=
  replay (fun i reply => advance (twoCalls second i) i reply) (started (twoCalls second) (some 0))
    (schedule.map fun i => (i, .ok 1))

theorem history_takeTurns (second : ℕ) (schedule : List Bool)
    (h : ∀ move ∈ (takeTurns second schedule).1, ∀ step ∈ move.actor,
      Ready (twoCalls second step.1) step.2 move.before.shared (move.before.party step.1)) :
    History (UpdateStep (twoCalls second)) OthersStep (started (twoCalls second) (some 0))
      (takeTurns second schedule).1 (takeTurns second schedule).2 :=
  history_replay fun move hmem i reply hactor =>
    ⟨h move hmem (i, reply) hactor, replay_eq_next hmem hactor⟩

/-- Both calls name the first version: the second one to update it finds it gone. -/
theorem reviews_serialisable_conflict :
    let run := takeTurns 1 [true, true, false, true, false]
    successes run.1 = [true] ∧ Serialisable (twoCalls 1) run.1 run.2 := by
  refine ⟨by decide +kernel, reviews_serialisable _ (some 0) _ _ (history_takeTurns 1 _ ?_) ?_⟩
  · decide +kernel
  · unfold ReadsOwn
    decide +kernel

/-- The version of the review that a call has returned. -/
def Progress.returnedVersion? : Progress → Option ℕ
  | .done (.returned (some review)) => some review.version
  | _ => none

/-- A call whose update is followed by another one returns the review of the other call. -/
theorem not_serialisable_updateBeforeRead :
    ¬ ∀ moves s, History (UpdateStep (twoCalls 2)) OthersStep (started (twoCalls 2) (some 0))
        moves s → Serialisable (twoCalls 2) moves s := by
  intro h
  have hserialisable := h _ _ (history_takeTurns 2 [true, true, false, false, true]
    (by decide +kernel))
  have hversion : ((takeTurns 2 [true, true, false, false, true]).2.party true).returnedVersion? =
      some 3 := by
    decide +kernel
  have hproduced : ∀ move ∈ (takeTurns 2 [true, true, false, false, true]).1,
      committer move = some true → move.after.shared.row.map (·.version) = some 2 := by
    decide +kernel
  have hreturned := hserialisable.returned true (by decide +kernel)
  revert hversion hreturned
  generalize (takeTurns 2 [true, true, false, false, true]).2.party true = p
  intro hversion hreturned
  unfold Progress.returnedVersion? at hversion
  split at hversion
  · next review =>
    obtain ⟨move, hmem, hcommitter, hrow⟩ := (hreturned _ rfl).1 review rfl
    have hfound := hproduced move hmem hcommitter
    rw [hrow, Option.map_some, Option.some.injEq] at hfound
    rw [Option.some.injEq, hfound] at hversion
    omega
  · cases hversion

end FailureReviews
