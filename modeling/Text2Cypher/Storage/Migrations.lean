import Mathlib.Data.List.Basic
import Mathlib.Data.Fintype.Basic
import Mathlib.Data.List.Nodup
import Text2Cypher.Library.Interleaving

/-!
# Migrations

`apply_migrations` runs the files of a directory that are not recorded yet, in the order of their
names, each with its record.  The first query of the loop opens a transaction, so the blocks for the
files are savepoints in it, and all of them are committed at the end, behind the release of the
lock.

A run is modelled statement by statement (`Progress`, `advance`), so that the runs of several
processes can be interleaved and can fail anywhere.

* `Server`: what is committed, what each session has not committed yet, and the lock;
* **`migrated`**: in every history what is committed is the first files in their order, each with
  its record, and a run that returns has left all of them committed.
-/

namespace Migrations

open Interleaving

/-- A file, by its name and the checksum of its text. -/
structure File where
  name : String
  checksum : String
  deriving DecidableEq, Repr

/-- What has been done: the files whose text was executed, and the rows of
`app.schema_migrations`. -/
structure Effects where
  applied : List File
  rows : List File
  deriving DecidableEq, Repr

def Effects.none : Effects := ⟨[], []⟩

def Effects.append (e e' : Effects) : Effects := ⟨e.applied ++ e'.applied, e.rows ++ e'.rows⟩

structure Server (ι : Type) where
  committed : Effects
  pending : ι → Effects
  /-- the session that holds the advisory lock -/
  lock : Option ι

variable {ι : Type}

/-- The rows that a session sees. -/
def Server.rows (s : Server ι) (i : ι) : List File := s.committed.rows ++ (s.pending i).rows

section

variable [DecidableEq ι]

def Server.release (s : Server ι) (i : ι) : Server ι :=
  { s with lock := if s.lock = some i then none else s.lock }

def Server.setPending (s : Server ι) (i : ι) (e : Effects) : Server ι :=
  { s with pending := Function.update s.pending i e }

/-- The end of a session that has not committed: its transaction is rolled back, its lock is
free. -/
def Server.close (s : Server ι) (i : ι) : Server ι := (s.setPending i .none).release i

def Server.commit (s : Server ι) (i : ι) : Server ι :=
  { s.setPending i .none with committed := s.committed.append (s.pending i) }

end

/-- What a run hears of a statement. -/
inductive Reply
  | ok
  /-- an error of the server; a `COMMIT` has been rolled back -/
  | failed
  /-- the connection is lost; a `COMMIT` has taken effect -/
  | lost
  deriving DecidableEq, Repr

inductive Failure
  /-- the `RuntimeError` of the loop -/
  | mismatch (message : String)
  /-- an error of the driver -/
  | database
  deriving DecidableEq, Repr

/-- The next statement of a run.  The failure is the exception that the `finally` block runs for. -/
inductive Progress
  | lock
  | createTable
  | select (todo : List File)
  | execute (file : File) (todo : List File)
  | insert (file : File) (todo : List File) (savepoint : Effects)
  | unlock (failure : Option Failure)
  | commit (failure : Option Failure)
  | done (failure : Option Failure)
  deriving DecidableEq, Repr

def mismatchMessage (name : String) : String := "Migration checksum mismatch: " ++ name

/-- One statement of a run, and what the run does with its result.  An error outside of a savepoint
aborts the transaction, so that the `finally` block fails too. -/
def advance [DecidableEq ι] (files : List File) (i : ι) (reply : Reply) :
    Server ι × Progress → Server ι × Progress
  | (s, .lock) =>
    if reply = .ok then ({ s with lock := some i }, .createTable)
    else (s.close i, .done (some .database))
  | (s, .createTable) =>
    if reply = .ok then (s, .select files) else (s.close i, .done (some .database))
  | (s, .select []) => (s, .unlock none)
  | (s, .select (file :: todo)) =>
    if reply = .ok then
      match (s.rows i).find? fun row => row.name = file.name with
      | some row =>
        if row.checksum = file.checksum then (s, .select todo)
        else (s, .unlock (some (.mismatch (mismatchMessage file.name))))
      | none => (s, .execute file todo)
    else (s.close i, .done (some .database))
  | (s, .execute file todo) =>
    match reply with
    | .ok =>
      (s.setPending i { s.pending i with applied := (s.pending i).applied ++ [file] },
        .insert file todo (s.pending i))
    | .failed => (s, .unlock (some .database))
    | .lost => (s.close i, .done (some .database))
  | (s, .insert file todo savepoint) =>
    match reply with
    | .ok =>
      -- the name is the primary key
      if file.name ∈ (s.rows i).map File.name then
        (s.setPending i savepoint, .unlock (some .database))
      else
        (s.setPending i { s.pending i with rows := (s.pending i).rows ++ [file] }, .select todo)
    | .failed => (s.setPending i savepoint, .unlock (some .database))
    | .lost => (s.close i, .done (some .database))
  | (s, .unlock failure) =>
    if reply = .ok then (s.release i, .commit failure) else (s.close i, .done (some .database))
  | (s, .commit failure) =>
    match reply with
    | .ok => (s.commit i, .done failure)
    | .failed => (s.close i, .done (some .database))
    | .lost => ((s.commit i).release i, .done (some .database))
  | (s, .done failure) => (s, .done failure)

/-- The statement that a run executes next need not wait: the lock is free, and no other session has
an uncommitted row of the same name. -/
def Ready (s : Server ι) (i : ι) (reply : Reply) : Progress → Prop
  | .lock => reply = .ok → s.lock = none
  | .insert file _ _ => reply = .ok → ∀ j, j ≠ i → file.name ∉ ((s.pending j).rows).map File.name
  | .done _ => False
  | _ => True

/-- The statement that a run executes next, with what it hears of it. -/
def RunStep [DecidableEq ι] (files : List File) (i : ι) (reply : Reply)
    (state next : Server ι × Progress) : Prop :=
  Ready state.1 i reply state.2 ∧ next = advance files i reply state

/-- Only the runs write the table. -/
def OthersStep (_ _ : Server ι) : Prop := False

/-- Every run before its first statement. -/
def started (committed : Effects) : System ι (Server ι) Progress :=
  ⟨⟨committed, fun _ => .none, none⟩, fun _ => .lock⟩

/-- **What the runs promise**: the first files are applied, in their order and each with its record;
at most one session has more to commit; a run that returns has left all files applied. -/
structure Migrated (files : List File) (s : System ι (Server ι) Progress) : Prop where
  ordered : s.shared.committed.rows <+: files
  recorded : s.shared.committed.applied = s.shared.committed.rows
  one : ∀ i j, (s.shared.pending i).rows ≠ [] → (s.shared.pending j).rows ≠ [] → i = j
  returned : ∀ i, s.party i = .done none → s.shared.committed.rows = files

/-! ### The invariant -/

/-- What a run has in its transaction, and what it has come past: `seen` is the number of rows it
sees. -/
def Holds (files : List File) (e : Effects) (seen : ℕ) : Progress → Prop
  | .select todo => e.applied = e.rows ∧ ∃ past, files = past ++ todo ∧ past.length ≤ seen
  | .execute file todo =>
    e.applied = e.rows ∧ ∃ past, files = past ++ file :: todo ∧ past.length ≤ seen
  | .insert file todo savepoint => e.rows = savepoint.rows ∧ savepoint.applied = savepoint.rows ∧
    e.applied = savepoint.applied ++ [file] ∧
      ∃ past, files = past ++ file :: todo ∧ past.length ≤ seen
  | .unlock failure | .commit failure =>
    e.applied = e.rows ∧ (failure = none → files.length ≤ seen)
  | .done failure => e = .none ∧ (failure = none → files.length ≤ seen)
  | .lock | .createTable => e = .none

structure Migrating (files : List File) (s : System ι (Server ι) Progress) : Prop where
  recorded : s.shared.committed.applied = s.shared.committed.rows
  committed : s.shared.committed.rows <+: files
  seen : ∀ i, s.shared.rows i <+: files
  one : ∀ i j, (s.shared.pending i).rows ≠ [] → (s.shared.pending j).rows ≠ [] → i = j
  holds : ∀ i, Holds files (s.shared.pending i) (s.shared.rows i).length (s.party i)

theorem Migrating.keeps {files : List File} {s : System ι (Server ι) Progress}
    (h : Migrating files s) : Migrated files s := by
  refine ⟨h.committed, h.recorded, h.one, fun i hi => ?_⟩
  have hholds := h.holds i
  rw [hi] at hholds
  obtain ⟨hnone, hall⟩ := hholds
  have hlength := hall rfl
  rw [Server.rows, hnone, Effects.none, List.append_nil] at hlength
  exact h.committed.eq_of_length (Nat.le_antisymm h.committed.length_le hlength)

variable {files : List File}

theorem Holds.mono {e : Effects} {seen seen' : ℕ} {p : Progress} (hle : seen ≤ seen')
    (h : Holds files e seen p) : Holds files e seen' p := by
  cases p with
  | select | execute =>
    obtain ⟨hrecorded, past, hfiles, hpast⟩ := h
    exact ⟨hrecorded, past, hfiles, Nat.le_trans hpast hle⟩
  | insert =>
    obtain ⟨hrows, hsavepoint, happlied, past, hfiles, hpast⟩ := h
    exact ⟨hrows, hsavepoint, happlied, past, hfiles, Nat.le_trans hpast hle⟩
  | unlock | commit | done => exact ⟨h.1, fun hnone => Nat.le_trans (h.2 hnone) hle⟩
  | lock | createTable => exact h

/-- Where only the first rows of the files are recorded, a file that is not among them is behind
them all. -/
theorem rows_eq_past {rows past todo : List File} {file : File}
    (hrows : rows <+: past ++ file :: todo) (hpast : past.length ≤ rows.length)
    (hmem : file ∉ rows) : rows = past := by
  obtain ⟨more, hmore⟩ := List.prefix_of_prefix_length_le (List.prefix_append past _) hrows hpast
  cases more with
  | nil => rw [← hmore, List.append_nil]
  | cons row more =>
    subst hmore
    rw [List.prefix_append_right_inj, List.cons_prefix_cons] at hrows
    rw [hrows.1] at hmem
    exact absurd (List.mem_append_right past List.mem_cons_self) hmem

/-- A file that is recorded has been come past, for the names are distinct. -/
theorem past_lt_of_mem {rows past todo : List File} {file : File}
    (hnodup : ((past ++ file :: todo).map File.name).Nodup) (hrows : rows <+: past ++ file :: todo)
    (hmem : file ∈ rows) : past.length < rows.length := by
  by_contra hle
  have hpast := List.prefix_of_prefix_length_le hrows (List.prefix_append past _) (Nat.not_lt.1 hle)
  rw [List.map_append, List.map_cons] at hnodup
  have hdisjoint := List.disjoint_of_nodup_append hnodup
  apply hdisjoint (List.mem_map_of_mem (hpast.subset hmem))
  exact List.mem_cons_self

variable [DecidableEq ι] {s : System ι (Server ι) Progress} {i : ι}

/-- A session has changed what it has not committed yet. -/
theorem Migrating.set (h : Migrating files s) {e : Effects} {lock : Option ι} {p : Progress}
    (hseen : s.shared.committed.rows ++ e.rows <+: files)
    (hone : ∀ j, j ≠ i → e.rows ≠ [] → (s.shared.pending j).rows = [])
    (hholds : Holds files e (s.shared.committed.rows ++ e.rows).length p) :
    Migrating files (s.moved i ({ s.shared.setPending i e with lock := lock }, p)) where
  recorded := h.recorded
  committed := h.committed
  seen j := by
    by_cases hj : j = i
    · subst hj
      simpa [Server.rows, Server.setPending] using hseen
    · simpa [Server.rows, Server.setPending, hj] using h.seen j
  one j k hj hk := by
    simp only [System.moved_shared, Server.setPending, Function.update_apply] at hj hk
    split at hj <;> split at hk
    · simp_all
    · exact absurd (hone k ‹_› hj) hk
    · exact absurd (hone j ‹_› hk) hj
    · exact h.one j k hj hk
  holds j := by
    by_cases hj : j = i
    · subst hj
      simpa [Server.rows, Server.setPending] using hholds
    · rw [System.moved_party_of_ne _ hj]
      simpa [Server.rows, Server.setPending, hj] using h.holds j

/-- A session goes on with what it had. -/
theorem Migrating.go (h : Migrating files s) {lock : Option ι} {p : Progress}
    (hholds : Holds files (s.shared.pending i) (s.shared.rows i).length p) :
    Migrating files (s.moved i ({ s.shared with lock := lock }, p)) := by
  have hsame : s.shared = s.shared.setPending i (s.shared.pending i) := by
    rw [Server.setPending, Function.update_eq_self]
  rw [hsame]
  exact h.set (h.seen i) (fun j hj hi => by_contra fun hne => hj (h.one j i hne hi)) hholds

/-- A session has ended without a commit. -/
theorem Migrating.closed (h : Migrating files s) :
    Migrating files (s.moved i (s.shared.close i, .done (some .database))) := by
  apply h.set (i := i) (e := .none)
  · rw [Effects.none, List.append_nil]
    exact h.committed
  · exact fun _ _ hne => absurd rfl hne
  · exact ⟨rfl, nofun⟩

/-- A session has committed. -/
theorem Migrating.committing (h : Migrating files s) {lock : Option ι} {failure : Option Failure}
    (happlied : (s.shared.pending i).applied = (s.shared.pending i).rows)
    (hall : failure = none → files.length ≤ (s.shared.rows i).length) :
    Migrating files (s.moved i ({ s.shared.commit i with lock := lock }, .done failure)) := by
  -- another session sees no fewer rows than before
  have hrows : ∀ j, j ≠ i → (s.shared.commit i).rows j = s.shared.rows j ∨
      (s.shared.pending j).rows = [] ∧ (s.shared.commit i).rows j = s.shared.rows i := by
    intro j hj
    simp only [Server.rows, Server.commit, Server.setPending, Effects.append,
      Function.update_of_ne hj]
    by_cases hi : (s.shared.pending i).rows = []
    · left
      rw [hi, List.append_nil]
    · have hnone : (s.shared.pending j).rows = [] := by_contra fun hne => hj (h.one j i hne hi)
      right
      rw [hnone, List.append_nil]
      exact ⟨rfl, rfl⟩
  have hself : (s.shared.commit i).rows i = s.shared.rows i := by
    simp [Server.rows, Server.commit, Server.setPending, Effects.append, Effects.none]
  refine ⟨?_, h.seen i, fun j => ?_, fun j k hj hk => ?_, fun j => ?_⟩
  · show s.shared.committed.applied ++ (s.shared.pending i).applied =
      s.shared.committed.rows ++ (s.shared.pending i).rows
    rw [h.recorded, happlied]
  · show (s.shared.commit i).rows j <+: files
    by_cases hj : j = i
    · rw [hj, hself]
      exact h.seen i
    · rcases hrows j hj with hsame | ⟨-, hmore⟩
      · rw [hsame]
        exact h.seen j
      · rw [hmore]
        exact h.seen i
  · simp only [System.moved_shared, Server.commit, Server.setPending, Function.update_apply] at hj hk
    split at hj
    · exact absurd rfl hj
    · split at hk
      · exact absurd rfl hk
      · exact h.one j k hj hk
  · show Holds files ((s.shared.commit i).pending j) ((s.shared.commit i).rows j).length _
    by_cases hj : j = i
    · subst hj
      rw [System.moved_party_self, hself]
      refine ⟨?_, hall⟩
      simp [Server.commit, Server.setPending]
    · rw [System.moved_party_of_ne _ hj]
      have hpending : (s.shared.commit i).pending j = s.shared.pending j := by
        simp [Server.commit, Server.setPending, hj]
      rw [hpending]
      refine (h.holds j).mono ?_
      rcases hrows j hj with hsame | ⟨hnone, hmore⟩
      · exact hsame ▸ Nat.le_refl _
      · rw [hmore, Server.rows, hnone, List.append_nil, Server.rows, List.length_append]
        omega

/-- What one statement of one run keeps. -/
theorem Migrating.act (hnodup : (files.map File.name).Nodup) (h : Migrating files s)
    {reply : Reply} {next : Server ι × Progress}
    (hstep : RunStep files i reply (s.shared, s.party i) next) :
    Migrating files (s.moved i next) := by
  obtain ⟨hready, rfl⟩ := hstep
  have hholds := h.holds i
  have hseen := h.seen i
  have hothers : ∀ j, j ≠ i → (s.shared.pending i).rows ≠ [] → (s.shared.pending j).rows = [] :=
    fun j hj hi => by_contra fun hne => hj (h.one j i hne hi)
  generalize s.party i = progress at hready hholds
  cases progress with
  | lock =>
    rw [advance]
    split
    · exact h.go hholds
    · exact h.closed
  | createTable =>
    rw [advance]
    split
    · apply h.go
      have hnone : s.shared.pending i = .none := hholds
      exact ⟨by rw [hnone]; rfl, [], rfl, Nat.zero_le _⟩
    · exact h.closed
  | select todo =>
    obtain ⟨hrecorded, past, hfiles, hpast⟩ := hholds
    cases todo with
    | nil =>
      rw [List.append_nil] at hfiles
      exact h.go ⟨hrecorded, fun _ => hfiles ▸ hpast⟩
    | cons file todo =>
      rw [advance]
      split
      · split
        · next row hfind =>
          split
          · next hchecksum =>
            -- the row is that of this file
            have hname : row.name = file.name := by simpa using List.find?_some hfind
            have hrow : row = file := by
              cases row
              cases file
              simp_all
            apply h.go
            refine ⟨hrecorded, past ++ [file], by rw [hfiles, List.append_assoc]; rfl, ?_⟩
            rw [List.length_append, List.length_singleton]
            rw [hfiles] at hnodup hseen
            exact past_lt_of_mem hnodup hseen (hrow ▸ List.mem_of_find?_eq_some hfind)
          · exact h.go ⟨hrecorded, nofun⟩
        · exact h.go ⟨hrecorded, past, hfiles, hpast⟩
      · exact h.closed
  | execute file todo =>
    obtain ⟨hrecorded, past, hfiles, hpast⟩ := hholds
    cases reply with
    | ok =>
      apply h.set (e := ⟨(s.shared.pending i).applied ++ [file], (s.shared.pending i).rows⟩)
        hseen hothers
      exact ⟨rfl, hrecorded, rfl, past, hfiles, hpast⟩
    | failed => exact h.go ⟨hrecorded, nofun⟩
    | lost => exact h.closed
  | insert file todo savepoint =>
    obtain ⟨hrows, hsavepoint, happlied, past, hfiles, hpast⟩ := hholds
    -- the transaction is what it was before this file
    have hback : Migrating files
        (s.moved i (s.shared.setPending i savepoint, .unlock (some .database))) := by
      apply h.set
      · rw [← hrows]
        exact hseen
      · rw [← hrows]
        exact hothers
      · exact ⟨hsavepoint, nofun⟩
    cases reply with
    | ok =>
      rw [advance]
      dsimp only
      split
      · exact hback
      · next hname =>
        have hmem : file ∉ s.shared.rows i := fun hmem => hname (List.mem_map_of_mem hmem)
        rw [hfiles] at hseen
        have hpastrows := rows_eq_past hseen hpast hmem
        have hmore : s.shared.committed.rows ++ ((s.shared.pending i).rows ++ [file]) =
            past ++ [file] := by
          rw [← List.append_assoc, ← hpastrows, Server.rows]
        apply h.set
        · rw [hmore, hfiles, List.prefix_append_right_inj]
          exact ⟨todo, rfl⟩
        · intro j hj _
          by_cases hi : (s.shared.pending i).rows = []
          · -- what another session had uncommitted would be this very file
            by_contra hne
            obtain ⟨row, rows, hcons⟩ := List.exists_cons_of_ne_nil hne
            have hother := h.seen j
            rw [Server.rows, hi, List.append_nil] at hpastrows
            rw [Server.rows, hcons, hfiles, hpastrows, List.prefix_append_right_inj,
              List.cons_prefix_cons] at hother
            apply hready rfl j hj
            rw [hcons, hother.1]
            exact List.mem_cons_self
          · exact hothers j hj hi
        · refine ⟨?_, past ++ [file], by rw [hfiles, List.append_assoc]; rfl, ?_⟩
          · show (s.shared.pending i).applied = (s.shared.pending i).rows ++ [file]
            rw [happlied, hsavepoint, hrows]
          · exact Nat.le_of_eq (congrArg List.length hmore.symm)
    | failed => exact hback
    | lost => exact h.closed
  | unlock failure =>
    rw [advance]
    split
    · exact h.go hholds
    · exact h.closed
  | commit failure =>
    cases reply with
    | ok => exact h.committing hholds.1 hholds.2
    | failed => exact h.closed
    | lost => exact h.committing hholds.1 nofun
  | done failure => exact hready.elim

omit [DecidableEq ι] in
theorem Migrating.started {committed : Effects} (hrows : committed.rows <+: files)
    (hrecorded : committed.applied = committed.rows) :
    Migrating files (started (ι := ι) committed) where
  recorded := hrecorded
  committed := hrows
  seen i := by
    show committed.rows ++ [] <+: files
    rwa [List.append_nil]
  one i j hi := absurd rfl hi
  holds i := rfl

/-- **Whatever the runs of several processes meet, and in whatever order their statements come, the
files are applied at most once each, in the order of their names, and exactly those that are
recorded; a run that returns has left all of them applied.** -/
theorem migrated (hnodup : (files.map File.name).Nodup) {committed : Effects}
    (hrows : committed.rows <+: files) (hrecorded : committed.applied = committed.rows)
    {moves : List (Move ι Reply (Server ι) Progress)}
    (h : History (RunStep files) OthersStep (started committed) moves s) : Migrated files s := by
  let holds (_ : List (Move ι Reply (Server ι) Progress)) := Migrating (ι := ι) files
  have hstart : holds [] (Migrations.started committed) := .started hrows hrecorded
  have hclean : ∀ move ∈ moves, (fun _ : Move ι Reply (Server ι) Progress => True) move :=
    fun _ _ => trivial
  have hmigrating : holds moves s :=
    History.rule hstart (fun _ _ _ _ _ hs hstep _ => Migrating.act hnodup hs hstep)
      (fun _ _ _ _ hothers => hothers.elim) h hclean
  exact hmigrating.keeps

instance [Fintype ι] (s : Server ι) (i : ι) (reply : Reply) (p : Progress) :
    Decidable (Ready s i reply p) :=
  match p with
  | .lock => inferInstanceAs (Decidable (reply = .ok → s.lock = none))
  | .insert file _ _ => inferInstanceAs (Decidable
      (reply = .ok → ∀ j, j ≠ i → file.name ∉ ((s.pending j).rows).map File.name))
  | .done _ => isFalse id
  | .createTable | .select _ | .execute _ _ | .unlock _ | .commit _ => isTrue trivial

def sampleFiles : List File :=
  [⟨"0001_query_failure_reviews.sql", "ab"⟩, ⟨"0002_conversation_history_visualization.sql", "cd"⟩]

/-- Two runs when the first file has been applied: the second one takes the lock before the first
one commits, and comes to the record of the second file after that. -/
def twoRuns : List (Move Bool Reply (Server Bool) Progress) × System Bool (Server Bool) Progress :=
  replay (advance sampleFiles) (started ⟨sampleFiles.take 1, sampleFiles.take 1⟩)
    ((List.replicate 8 false ++ List.replicate 5 true ++ [false] ++ List.replicate 3 true).map
      fun i => (i, .ok))

theorem migrated_twoRuns :
    Migrated sampleFiles twoRuns.2 ∧ twoRuns.2.party false = .done none ∧
      twoRuns.2.party true = .done (some .database) := by
  refine ⟨migrated (by decide) (List.take_prefix 1 _) rfl
    (history_replay fun move hmem i reply hactor => ⟨?_, replay_eq_next hmem hactor⟩), by decide,
    by decide⟩
  have hready : ∀ move ∈ twoRuns.1, ∀ step ∈ move.actor,
      Ready move.before.shared step.1 step.2 (move.before.party step.1) := by decide
  exact hready move hmem (i, reply) hactor

/-! ### A run on its own -/

/-- The files that are recorded, if they are, as they are now. -/
def upToDate (rows : List File) (file : File) : Bool :=
  match rows.find? fun row => row.name = file.name with
  | some row => row.checksum = file.checksum
  | none => true

def missing (rows : List File) (file : File) : Bool :=
  (rows.find? fun row => row.name = file.name).isNone

/-- A run that nothing disturbs comes from one state to another. -/
def Reaches (files : List File) (i : ι) (state last : Server ι × Progress) : Prop :=
  ∃ n, (advance files i .ok)^[n] state = last

theorem Reaches.step {i : ι} {state last : Server ι × Progress}
    (h : Reaches files i (advance files i .ok state) last) : Reaches files i state last :=
  h.imp' Nat.succ fun _ => id

/-- What the run stops at, as the exception that it raises. -/
def failureOf (stale : Option File) : Option Failure :=
  stale.map fun file => .mismatch (mismatchMessage file.name)

def Effects.both (todo : List File) : Effects := ⟨todo, todo⟩

theorem Effects.append_both (e : Effects) (file : File) (todo : List File) :
    (e.append (.both [file])).append (.both todo) = e.append (.both (file :: todo)) := by
  simp [Effects.append, Effects.both]

@[simp] theorem Server.setPending_setPending (s : Server ι) (i : ι) (e e' : Effects) :
    (s.setPending i e).setPending i e' = s.setPending i e' := by
  simp [Server.setPending]

@[simp] theorem Server.setPending_pending (s : Server ι) (i : ι) (e : Effects) :
    (s.setPending i e).pending i = e := Function.update_self ..

@[simp] theorem Server.setPending_rows (s : Server ι) (i : ι) (e : Effects) :
    (s.setPending i e).rows i = s.committed.rows ++ e.rows := by
  simp [Server.rows, Server.setPending]

/-- The loop, from any file on. -/
theorem reaches_unlock (s : Server ι) (i : ι) (todo : List File) (e : Effects)
    (hnodup : (todo.map File.name).Nodup)
    (hfresh : ∀ file ∈ todo, file.name ∉ e.rows.map File.name) {last : Server ι × Progress}
    (hlast : Reaches files i
      (s.setPending i (e.append (.both
        ((todo.takeWhile (upToDate s.committed.rows)).filter (missing s.committed.rows)))),
        .unlock (failureOf (todo.find? fun file => !upToDate s.committed.rows file))) last) :
    Reaches files i (s.setPending i e, .select todo) last := by
  induction todo generalizing e with
  | nil =>
    apply Reaches.step
    show Reaches files i (s.setPending i e, .unlock none) last
    simpa [Effects.append, Effects.both, failureOf] using hlast
  | cons file todo ih =>
    rw [List.map_cons, List.nodup_cons] at hnodup
    have hfile := hfresh file List.mem_cons_self
    have hfind : ((s.setPending i e).rows i).find? (fun row => row.name = file.name) =
        s.committed.rows.find? fun row => row.name = file.name := by
      have hnone : e.rows.find? (fun row => row.name = file.name) = none := by
        rw [List.find?_eq_none]
        intro row hrow hname
        exact hfile (of_decide_eq_true hname ▸ List.mem_map_of_mem hrow)
      simp [List.find?_append, hnone]
    apply Reaches.step
    simp only [advance, if_pos, hfind]
    cases hrow : s.committed.rows.find? fun row => row.name = file.name with
    | some row =>
      have huptodate : upToDate s.committed.rows file = decide (row.checksum = file.checksum) := by
        rw [upToDate, hrow]
      have hmissing : missing s.committed.rows file = false := by rw [missing, hrow]; rfl
      by_cases hchecksum : row.checksum = file.checksum
      · simp only [if_pos hchecksum]
        apply ih e hnodup.2 fun f hf => hfresh f (List.mem_cons_of_mem _ hf)
        simpa [huptodate, hchecksum, hmissing] using hlast
      · simp only [if_neg hchecksum]
        simpa [huptodate, hchecksum, failureOf, Effects.append, Effects.both] using hlast
    | none =>
      have huptodate : upToDate s.committed.rows file = true := by rw [upToDate, hrow]
      have hmissing : missing s.committed.rows file = true := by rw [missing, hrow]; rfl
      have hname : file.name ∉ (s.committed.rows ++ e.rows).map File.name := by
        rw [List.map_append, List.mem_append]
        rintro (hmem | hmem)
        · obtain ⟨row, hmem, heq⟩ := List.mem_map.1 hmem
          exact List.find?_eq_none.1 hrow row hmem (decide_eq_true heq)
        · exact hfile hmem
      apply Reaches.step
      simp only [advance, Server.setPending_setPending, Server.setPending_pending]
      apply Reaches.step
      simp only [advance, Server.setPending_setPending, Server.setPending_pending,
        Server.setPending_rows, if_neg hname]
      apply ih (e.append (.both [file])) hnodup.2
      · intro f hf
        simp only [Effects.append, Effects.both, List.map_append, List.map_cons, List.map_nil,
          List.mem_append, List.mem_singleton, not_or]
        refine ⟨hfresh f (List.mem_cons_of_mem _ hf), fun heq => hnodup.1 ?_⟩
        exact heq ▸ List.mem_map_of_mem hf
      · rw [Effects.append_both]
        simpa [huptodate, hmissing] using hlast

/-- **A run that nothing disturbs applies the files that are not recorded, up to the first one that
has changed since it was recorded.**  It commits them also when it stops there. -/
theorem reaches_done (hnodup : (files.map File.name).Nodup) (committed : Effects) (i : ι) :
    Reaches files i (⟨committed, fun _ => .none, none⟩, .lock)
      (⟨committed.append (.both ((files.takeWhile (upToDate committed.rows)).filter
          (missing committed.rows))), fun _ => .none, none⟩,
        .done (failureOf (files.find? fun file => !upToDate committed.rows file))) := by
  apply Reaches.step
  apply Reaches.step
  have hnone : (⟨committed, fun _ => .none, some i⟩ : Server ι) =
      Server.setPending ⟨committed, fun _ => .none, some i⟩ i .none := by
    simp [Server.setPending]
  show Reaches files i (⟨committed, fun _ => .none, some i⟩, .select files) _
  rw [hnone]
  apply reaches_unlock _ _ _ _ hnodup fun _ _ => List.not_mem_nil
  apply Reaches.step
  apply Reaches.step
  refine ⟨0, Prod.ext ?_ rfl⟩
  simp [advance, Server.commit, Server.release, Server.setPending, Effects.append, Effects.none]

/-- The second file has changed: the first one is applied all the same. -/
theorem reaches_done_changed :
    let changed : File := ⟨"0002_conversation_history_visualization.sql", "old"⟩
    Reaches sampleFiles () (⟨⟨[changed], [changed]⟩, fun _ => .none, none⟩, .lock)
      (⟨⟨[changed, ⟨"0001_query_failure_reviews.sql", "ab"⟩],
          [changed, ⟨"0001_query_failure_reviews.sql", "ab"⟩]⟩, fun _ => .none, none⟩,
        .done (some (.mismatch
          "Migration checksum mismatch: 0002_conversation_history_visualization.sql"))) :=
  reaches_done (by decide) ⟨[_], [_]⟩ ()

end Migrations
