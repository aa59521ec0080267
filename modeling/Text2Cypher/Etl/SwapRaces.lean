import Text2Cypher.Etl.SwapDatabases
import Text2Cypher.Library.Interleaving

/-!
# Exchanges at the same time

Any number of runs of `retry_swap` on one live database.  At most one of them has an open
transaction at a time, so no database loses its name; but a run that has seen a live database puts
aside whatever has its name by then, also what another run has just put there.

* `swap_keepsData`: in every history the databases keep names, and the live name stays bound;
* **`swap_detectsRaces`**: in a history in which no run exchanges a database that it has not seen,
  an overtaken run reports the race and changes no name.
-/

namespace Swap

open Interleaving Renaming

variable {ι α : Type} [DecidableEq ι]

/-- The statement that a run executes next, with the server's reply. -/
def RunStep (db : String) (run : ι → Run) (i : ι) (reply : Reply)
    (state next : Server ι α × Progress) : Prop :=
  Ready db (run i) i reply state.1 state.2 ∧ next = advance db (run i) i reply state

/-- Nobody but the runs renames databases. -/
def OthersStep (_ _ : Server ι α) : Prop := False

/-- Every run before its first statement. -/
def started (names : String → Option α) : System ι (Server ι α) Progress :=
  ⟨⟨names, fun _ => [], 0⟩, fun _ => .newDatabaseExists⟩

/-- The databases are those of the start, under other names perhaps, and the live name is bound if
it was. -/
structure KeepsData (db : String) (names names' : String → Option α) : Prop where
  contents : ∃ perm : Equiv.Perm String, ∀ name, names' (perm name) = names name
  live : names db ≠ none → names' db ≠ none

/-- The statement of an exchange, with the number of exchanges its run has seen. -/
def Progress.seen? : Progress → Option ℕ
  | .renameLive _ seen | .renameNew _ seen | .commit _ seen => some seen
  | _ => none

/-- The run that makes the move has been overtaken: another exchange has been committed since it
looked. -/
def Overtaken (move : Move ι Reply (Server ι α) Progress) (i : ι) : Prop :=
  ∃ seen, (move.before.party i).seen? = some seen ∧ seen ≠ move.before.shared.swaps

/-- A run that has been overtaken does not return and changes no name, and unless the server has
another reason to refuse it ends with the report of the race. -/
def DetectsRace (db : String) (run : ι → Run) (move : Move ι Reply (Server ι α) Progress) : Prop :=
  ∀ i reply, move.actor = some (i, reply) → Overtaken move i →
    move.after.shared.names = move.before.shared.names ∧
      ∀ outcome, move.after.party i = .done outcome → outcome ≠ .returned ∧
        (reply = .ok →
          outcome = .exited (buildSwapFailureMessage "race" db (run i).newDb))

/-- The moves of a run have left the names as they were. -/
def LeavesNames (moves : List (Move ι Reply (Server ι α) Progress)) (i : ι) : Prop :=
  ∀ move ∈ moves, ∀ reply, move.actor = some (i, reply) →
    move.after.shared.names = move.before.shared.names

/-- What the exchanges are to establish. -/
structure DetectsRaces (db : String) (run : ι → Run) (names : String → Option α)
    (moves : List (Move ι Reply (Server ι α) Progress)) (s : System ι (Server ι α) Progress) :
    Prop where
  data : KeepsData db names s.shared.names
  races : ∀ move ∈ moves, DetectsRace db run move
  unchanged : ∀ i, s.party i ≠ .done .returned → LeavesNames moves i

/-- A run that has put the live database aside, and finds the new one, has not been overtaken. -/
def Sees (run : Run) (i : ι) (reply : Reply) (s : Server ι α) : Progress → Prop
  | .renameNew (some _) seen => reply = .ok → s.view i run.newDb ≠ none → seen = s.swaps
  | _ => True

/-- The run that moves exchanges no other database than the one it has seen. -/
def SeesLive (run : ι → Run) (move : Move ι Reply (Server ι α) Progress) : Prop :=
  ∀ step ∈ move.actor,
    Sees (run step.1) step.1 step.2 move.before.shared (move.before.party step.1)

/-! ### One open transaction -/

/-- What the transaction of a run has renamed. -/
def renamed (db : String) (run : Run) : Progress → List (String × String)
  | .renameNew (some previous) _ => [(db, previous)]
  | .commit (some previous) _ => [(db, previous), (run.newDb, db)]
  | .commit none _ => [(run.newDb, db)]
  | _ => []

/-- What a run knows of the exchanges it has seen. -/
def Knows (db : String) (s : Server ι α) : Progress → Prop
  | .confirm none seen | .renameNew none seen => seen ≠ s.swaps → s.names db ≠ none
  | .commit none seen => seen = s.swaps
  | _ => True

/-- The invariant of all histories. -/
structure Exclusive (db : String) (run : ι → Run) (s : System ι (Server ι α) Progress) :
    Prop where
  pending : ∀ i, s.shared.pending i = renamed db (run i) (s.party i)
  allowed : ∀ i, AllAllowed s.shared.names (s.shared.pending i)
  one : ∀ i j, s.shared.pending i ≠ [] → s.shared.pending j ≠ [] → i = j
  knows : ∀ i, Knows db s.shared (s.party i)

/-- What a statement does: nothing to the transaction, or it fails and ends it, or it renames a
database, or it commits. -/
inductive Effect (db : String) (run : Run) (i : ι) (reply : Reply) (s : Server ι α) (p : Progress) :
    Server ι α × Progress → Prop
  | quiet {p' : Progress} (before : p.seen? = none) (after : renamed db run p' = [])
      (returned : p' ≠ .done .returned) (knows : Knows db s p') : Effect db run i reply s p (s, p')
  | failed {outcome : Outcome} (returned : outcome ≠ .returned)
      (race : reply = .ok → outcome = .exited (buildSwapFailureMessage "race" db run.newDb)) :
      Effect db run i reply s p (s.rollback i, .done outcome)
  | rename {p' : Progress} {old new : String} (ok : reply = .ok)
      (allowed : Allowed (s.view i) old new) (free : s.Free i old new)
      (after : renamed db run p' = renamed db run p ++ [(old, new)])
      (live : old = db ∨ new = db) (knows : Knows db s p') (running : p'.seen?.isSome = true)
      (last : ∀ previousDbName seen, p' = .commit previousDbName seen →
        p = .renameNew previousDbName seen ∧ old = run.newDb) :
      Effect db run i reply s p (s.rename i old new, p')
  | commit {previousDbName : Option String} {seen : ℕ} (last : p = .commit previousDbName seen) :
      Effect db run i reply s p (s.commit i, .done .returned)

theorem effect_failed (db : String) (run : Run) (i : ι) (reply : Reply) (s : Server ι α)
    (p : Progress) : Effect db run i reply s p (failed db run i reply s) := by
  cases reply with
  | ok => exact .failed (by simp) fun _ => rfl
  | inUse => exact .failed (by simp) fun h => by cases h
  | error => exact .failed (by simp) fun h => by cases h

/-- **What a statement of a run does.** -/
theorem effect_advance {db : String} {run : Run} {i : ι} {reply : Reply} {s : Server ι α}
    {p : Progress} (hready : Ready db run i reply s p)
    (hpending : s.pending i = renamed db run p) (hknows : Knows db s p) :
    Effect db run i reply s p (advance db run i reply (s, p)) := by
  cases p with
  | newDatabaseExists =>
    simp only [advance]
    split_ifs
    · exact .quiet rfl rfl (by simp) trivial
    · exact .quiet rfl rfl (by simp) trivial
    · exact .quiet rfl rfl (by simp) trivial
  | liveDatabaseExists =>
    simp only [advance]
    split_ifs
    · exact .quiet rfl rfl (by simp) trivial
    · exact .quiet rfl rfl (by simp) trivial
    · exact .quiet rfl rfl (by simp) fun hne => absurd rfl hne
  | confirm previousDbName seen =>
    simp only [advance]
    split_ifs
    · exact .quiet rfl rfl (by simp) trivial
    · cases previousDbName with
      | none => exact .quiet rfl rfl (by simp) hknows
      | some previous => exact .quiet rfl rfl (by simp) trivial
    · exact .quiet rfl rfl (by simp) trivial
  | renameLive previous seen =>
    simp only [advance]
    split_ifs with hallowed
    · obtain ⟨hok, hold, hnew⟩ := hallowed
      have hrename : Allowed (s.view i) db previous :=
        ⟨Option.isSome_iff_ne_none.1 hold, Option.isNone_iff_eq_none.1 hnew⟩
      exact .rename hok hrename (hready hok) rfl (Or.inl rfl) trivial rfl fun _ _ h => by cases h
    · exact effect_failed ..
  | renameNew previousDbName seen =>
    simp only [advance]
    split_ifs with hallowed
    · obtain ⟨hok, hold, hnew⟩ := hallowed
      have hrename : Allowed (s.view i) run.newDb db :=
        ⟨Option.isSome_iff_ne_none.1 hold, Option.isNone_iff_eq_none.1 hnew⟩
      refine .rename hok hrename (hready hok) ?_ (Or.inr rfl) ?_ rfl ?_
      · cases previousDbName <;> rfl
      · cases previousDbName with
        | none =>
          -- there is no live database, so none has been exchanged since the lookup
          by_contra hseen
          have hview : s.view i = s.names := by
            rw [Server.view, hpending]
            rfl
          exact hknows hseen (hview ▸ hrename.2)
        | some previous => trivial
      · intro previous seen' h
        obtain ⟨rfl, rfl⟩ := Progress.commit.inj h
        exact ⟨rfl, rfl⟩
    · exact effect_failed ..
  | commit previousDbName seen =>
    cases reply with
    | ok => exact .commit rfl
    | inUse => exact effect_failed db run i .inUse s _
    | error => exact effect_failed db run i .error s _
  | done outcome => exact hready.elim

omit [DecidableEq ι] in
/-- A transaction that is open has put the live database aside, or finds none. -/
theorem Exclusive.live_cases {db : String} {run : ι → Run} {s : System ι (Server ι α) Progress}
    (h : Exclusive db run s) {i : ι} (hopen : s.shared.pending i ≠ []) :
    s.shared.names db ≠ none ∧ (∃ previous, (db, previous) ∈ s.shared.pending i) ∨
      s.shared.names db = none ∧ ((run i).newDb, db) ∈ s.shared.pending i := by
  have hallowed := h.allowed i
  rw [h.pending i] at hopen hallowed ⊢
  cases hparty : s.party i with
  | renameNew previousDbName seen =>
    rw [hparty] at hopen hallowed
    cases previousDbName with
    | none => exact absurd rfl hopen
    | some previous => exact Or.inl ⟨hallowed.1.1, previous, List.mem_cons_self⟩
  | commit previousDbName seen =>
    rw [hparty] at hallowed
    cases previousDbName with
    | none => exact Or.inr ⟨hallowed.1.2, List.mem_cons_self⟩
    | some previous => exact Or.inl ⟨hallowed.1.1, previous, List.mem_cons_self⟩
  | _ =>
    rw [hparty] at hopen
    exact absurd rfl hopen

omit [DecidableEq ι] in
theorem renamed_of_seen {db : String} {run : Run} {p : Progress} (h : p.seen? = none) :
    renamed db run p = [] := by
  cases p with
  | renameLive previous seen => cases h
  | renameNew previousDbName seen => cases h
  | commit previousDbName seen => cases h
  | _ => rfl

omit [DecidableEq ι] in
/-- **Whoever renames is alone**: the other transactions have renamed nothing. -/
theorem Exclusive.alone {db : String} {run : ι → Run} {s : System ι (Server ι α) Progress}
    (h : Exclusive db run s) {i : ι} {old new : String}
    (hallowed : Allowed (s.shared.view i) old new) (hfree : s.shared.Free i old new)
    (hlive : old = db ∨ new = db) {j : ι} (hj : j ≠ i) : s.shared.pending j = [] := by
  by_contra hopen
  by_cases hmine : s.shared.pending i = []
  · have hview : s.shared.view i = s.shared.names := by rw [Server.view, hmine, renameAll_nil]
    rw [hview] at hallowed
    rcases h.live_cases hopen with ⟨hbound, previous, hmem⟩ | ⟨hnone, hmem⟩
    · rcases hlive with rfl | rfl
      · exact (hfree j hj _ hmem).1 rfl
      · exact hbound hallowed.2
    · rcases hlive with rfl | rfl
      · exact hallowed.1 hnone
      · refine (hfree j hj _ hmem).2 rfl ?_
        rw [hview]
        exact hallowed.2
  · exact hj (h.one j i hopen hmine)

omit [DecidableEq ι] in
/-- A run that is about to commit has bound the live name. -/
theorem Exclusive.live_of_commit {db : String} {run : ι → Run}
    {s : System ι (Server ι α) Progress} (h : Exclusive db run s) {i : ι}
    {previousDbName : Option String} {seen : ℕ}
    (hparty : s.party i = .commit previousDbName seen) : s.shared.view i db ≠ none := by
  have hlast : ∃ before, s.shared.pending i = before ++ [((run i).newDb, db)] := by
    rw [h.pending i, hparty]
    cases previousDbName with
    | none => exact ⟨[], rfl⟩
    | some previous => exact ⟨[(db, previous)], rfl⟩
  obtain ⟨before, hpending⟩ := hlast
  have hallowed := h.allowed i
  rw [hpending] at hallowed
  obtain ⟨-, ⟨hbound, -⟩, -⟩ := allAllowed_append.1 hallowed
  rw [Server.view, hpending, renameAll_append, renameAll, renameAll_nil, rename_new]
  exact hbound

/-- The invariant after a move, from what it says of the party that moved and of the others. -/
theorem Exclusive.moved {db : String} {run : ι → Run} {s : System ι (Server ι α) Progress} {i : ι}
    {next : Server ι α × Progress} (h : Exclusive db run s)
    (hself : next.1.pending i = renamed db (run i) next.2 ∧ Knows db next.1 next.2)
    (hothers : ∀ j, j ≠ i → next.1.pending j = s.shared.pending j ∧ Knows db next.1 (s.party j))
    (hallowed : ∀ j, AllAllowed next.1.names (next.1.pending j))
    (hone : ∀ j k, next.1.pending j ≠ [] → next.1.pending k ≠ [] → j = k) :
    Exclusive db run (s.moved i next) := by
  have hparty : ∀ j, next.1.pending j = renamed db (run j) ((s.moved i next).party j) ∧
      Knows db next.1 ((s.moved i next).party j) := by
    intro j
    by_cases hj : j = i
    · subst hj
      rwa [System.moved_party_self]
    · rw [System.moved_party_of_ne _ hj]
      exact ⟨(hothers j hj).1.trans (h.pending j), (hothers j hj).2⟩
  exact ⟨fun j => (hparty j).1, hallowed, hone, fun j => (hparty j).2⟩

/-- **What a statement keeps.** -/
theorem Exclusive.act {db : String} {run : ι → Run} {s : System ι (Server ι α) Progress} {i : ι}
    {reply : Reply} {next : Server ι α × Progress} (h : Exclusive db run s)
    (heffect : Effect db (run i) i reply s.shared (s.party i) next) :
    Exclusive db run (s.moved i next) := by
  cases heffect with
  | quiet before after returned knows =>
    refine h.moved ⟨?_, knows⟩ (fun j _ => ⟨rfl, h.knows j⟩) h.allowed h.one
    rw [h.pending i, renamed_of_seen before, after]
  | failed returned race =>
    have hpending : ∀ j, j ≠ i → (s.shared.rollback i).pending j = s.shared.pending j :=
      fun j hj => Function.update_of_ne hj ..
    have hself : (s.shared.rollback i).pending i = [] := Function.update_self ..
    have hopen : ∀ j, (s.shared.rollback i).pending j ≠ [] →
        (s.shared.rollback i).pending j = s.shared.pending j := by
      intro j hj
      refine hpending j ?_
      rintro rfl
      exact hj hself
    refine h.moved ⟨hself, trivial⟩ (fun j hj => ⟨hpending j hj, h.knows j⟩) (fun j => ?_)
      fun j k hj hk => h.one j k (hopen j hj ▸ hj) (hopen k hk ▸ hk)
    by_cases hj : (s.shared.rollback i).pending j = []
    · rw [hj]
      trivial
    · rw [hopen j hj]
      exact h.allowed j
  | @rename p' old new ok allowed free after live knows running last =>
    have hself : (s.shared.rename i old new).pending i = s.shared.pending i ++ [(old, new)] :=
      Function.update_self ..
    have hpending : ∀ j, j ≠ i → (s.shared.rename i old new).pending j = s.shared.pending j :=
      fun j hj => Function.update_of_ne hj ..
    have hmine : ∀ j, (s.shared.rename i old new).pending j ≠ [] → j = i := by
      intro j hj
      by_contra hne
      rw [hpending j hne] at hj
      exact hj (h.alone allowed free live hne)
    refine h.moved ⟨?_, knows⟩ (fun j hj => ⟨hpending j hj, h.knows j⟩) (fun j => ?_)
      fun j k hj hk => (hmine j hj).trans (hmine k hk).symm
    · rw [hself, h.pending i, after]
    · by_cases hj : j = i
      · subst hj
        rw [hself]
        exact allAllowed_append.2 ⟨h.allowed j, allowed, trivial⟩
      · rw [hpending j hj]
        exact h.allowed j
  | @commit previousDbName seen last =>
    have hself : (s.shared.commit i).pending i = [] := Function.update_self ..
    have hopen : s.shared.pending i ≠ [] := by
      rw [h.pending i, last]
      cases previousDbName with
      | none => exact List.cons_ne_nil _ _
      | some previous => exact List.cons_ne_nil _ _
    have hothers : ∀ j, j ≠ i → s.shared.pending j = [] := by
      intro j hj
      by_contra hne
      exact hj (h.one j i hne hopen)
    have hpending : ∀ j, j ≠ i → (s.shared.commit i).pending j = s.shared.pending j :=
      fun j hj => Function.update_of_ne hj ..
    have hnone : ∀ j, (s.shared.commit i).pending j = [] := by
      intro j
      by_cases hj : j = i
      · rw [hj, hself]
      · rw [hpending j hj, hothers j hj]
    refine h.moved ⟨hself, trivial⟩ (fun j hj => ⟨hpending j hj, ?_⟩) (fun j => ?_)
      fun j k hj _ => absurd (hnone j) hj
    · have hlive : (s.shared.commit i).names db ≠ none := h.live_of_commit last
      have hknows := h.knows j
      cases hparty : s.party j with
      | confirm previousDbName seen =>
        cases previousDbName with
        | none => exact fun _ => hlive
        | some previous => trivial
      | renameNew previousDbName seen =>
        cases previousDbName with
        | none => exact fun _ => hlive
        | some previous => trivial
      | commit previousDbName seen =>
        have hempty := hothers j hj
        rw [h.pending j, hparty] at hempty
        cases previousDbName with
        | none => cases hempty
        | some previous => cases hempty
      | _ => trivial
    · rw [hnone j]
      trivial

/-! ### All runs -/

theorem KeepsData.refl (db : String) (names : String → Option α) : KeepsData db names names :=
  ⟨⟨Equiv.refl _, fun _ => rfl⟩, id⟩

theorem KeepsData.trans {db : String} {names names' names'' : String → Option α}
    (h : KeepsData db names names') (h' : KeepsData db names' names'') :
    KeepsData db names names'' := by
  obtain ⟨perm, hperm⟩ := h.contents
  obtain ⟨perm', hperm'⟩ := h'.contents
  refine ⟨⟨perm.trans perm', fun name => ?_⟩, fun hlive => h'.live (h.live hlive)⟩
  rw [Equiv.trans_apply, hperm', hperm]

/-- A statement keeps the data, and changes names only when it commits. -/
theorem Exclusive.keepsData {db : String} {run : ι → Run} {s : System ι (Server ι α) Progress}
    {i : ι} {reply : Reply} {next : Server ι α × Progress} (h : Exclusive db run s)
    (heffect : Effect db (run i) i reply s.shared (s.party i) next) :
    KeepsData db s.shared.names next.1.names ∧
      (next.2 ≠ .done .returned → next.1.names = s.shared.names) := by
  cases heffect with
  | quiet _ _ _ _ => exact ⟨.refl _ _, fun _ => rfl⟩
  | failed _ _ => exact ⟨.refl _ _, fun _ => rfl⟩
  | rename _ _ _ _ _ _ _ _ => exact ⟨.refl _ _, fun _ => rfl⟩
  | commit last =>
    obtain ⟨perm, hperm⟩ := exists_perm_renameAll (h.allowed i)
    refine ⟨⟨⟨perm.symm, fun name => ?_⟩, fun _ => h.live_of_commit last⟩, fun hne => absurd rfl hne⟩
    show renameAll s.shared.names (s.shared.pending i) (perm.symm name) = s.shared.names name
    rw [hperm, Function.comp_apply, Equiv.apply_symm_apply]

/-- What every history keeps. -/
structure Swapping (db : String) (run : ι → Run) (names : String → Option α)
    (moves : List (Move ι Reply (Server ι α) Progress)) (s : System ι (Server ι α) Progress) :
    Prop where
  exclusive : Exclusive db run s
  data : KeepsData db names s.shared.names
  unchanged : ∀ i, s.party i ≠ .done .returned → LeavesNames moves i

omit [DecidableEq ι] in
theorem Swapping.started (db : String) (run : ι → Run) (names : String → Option α) :
    Swapping db run names [] (started names) := by
  refine ⟨⟨fun _ => rfl, fun _ => trivial, fun i _ hi _ => absurd rfl hi, fun _ => trivial⟩,
    .refl _ _, fun _ _ => by simp [LeavesNames]⟩

theorem Swapping.act {db : String} {run : ι → Run} {names : String → Option α}
    {moves : List (Move ι Reply (Server ι α) Progress)} {s : System ι (Server ι α) Progress}
    {i : ι} {reply : Reply} {next : Server ι α × Progress} (h : Swapping db run names moves s)
    (hstep : RunStep db run i reply (s.shared, s.party i) next) :
    Swapping db run names (moves ++ [⟨some (i, reply), s, s.moved i next⟩]) (s.moved i next) := by
  obtain ⟨hready, rfl⟩ := hstep
  have heffect := effect_advance hready (h.exclusive.pending i) (h.exclusive.knows i)
  obtain ⟨hdata, hnames⟩ := h.exclusive.keepsData heffect
  refine ⟨h.exclusive.act heffect, h.data.trans hdata, fun j hj move hmem reply' hactor => ?_⟩
  rcases List.mem_append.1 hmem with hmem | hmem
  · refine h.unchanged j ?_ move hmem reply' hactor
    rintro hreturned
    by_cases hji : j = i
    · subst hji
      rw [hreturned] at hready
      exact hready
    · rw [System.moved_party_of_ne _ hji] at hj
      exact hj hreturned
  · obtain rfl := List.mem_singleton.1 hmem
    simp only [Option.some.injEq, Prod.mk.injEq] at hactor
    obtain ⟨rfl, -⟩ := hactor
    rw [System.moved_party_self] at hj
    exact hnames hj

/-- **In every history the databases keep names**, the live name stays bound, and a run that does
not return changes no name. -/
theorem swap_keepsData {db : String} {run : ι → Run} {names : String → Option α}
    {moves : List (Move ι Reply (Server ι α) Progress)} {s : System ι (Server ι α) Progress}
    (h : History (RunStep db run) OthersStep (started names) moves s) :
    Swapping db run names moves s := by
  have hclean : ∀ move ∈ moves, (fun _ : Move ι Reply (Server ι α) Progress => True) move :=
    fun _ _ => trivial
  exact History.rule (.started db run names) (fun _ _ _ _ _ hs hstep _ => Swapping.act hs hstep)
    (fun _ _ _ _ hothers => hothers.elim) h hclean

/-- Every run that is about to commit has not been overtaken. -/
def Exact (s : System ι (Server ι α) Progress) : Prop :=
  ∀ i previousDbName seen, s.party i = .commit previousDbName seen → seen = s.shared.swaps

/-- What a history keeps in which no run exchanges a database it has not seen. -/
structure Detecting (db : String) (run : ι → Run) (names : String → Option α)
    (moves : List (Move ι Reply (Server ι α) Progress)) (s : System ι (Server ι α) Progress) :
    Prop where
  swapping : Swapping db run names moves s
  exact : Exact s
  races : ∀ move ∈ moves, DetectsRace db run move

/-- A run that makes its last renaming in time has not been overtaken. -/
theorem Exact.act {db : String} {run : ι → Run} {s : System ι (Server ι α) Progress} {i : ι}
    {reply : Reply} {next : Server ι α × Progress} (h : Exact s) (hexclusive : Exclusive db run s)
    (heffect : Effect db (run i) i reply s.shared (s.party i) next)
    (hclean : SeesLive run ⟨some (i, reply), s, s.moved i next⟩) : Exact (s.moved i next) := by
  intro j previousDbName seen hj
  have hopen : ∀ k previousDbName seen, s.party k = .commit previousDbName seen →
      s.shared.pending k ≠ [] := by
    intro k previousDbName seen hk
    rw [hexclusive.pending k, hk]
    cases previousDbName <;> exact List.cons_ne_nil _ _
  by_cases hji : j = i
  · subst hji
    rw [System.moved_party_self] at hj
    cases heffect with
    | @quiet p' _ after _ _ =>
      obtain rfl : p' = .commit previousDbName seen := hj
      cases previousDbName <;> cases after
    | failed _ _ => cases hj
    | @rename p' _ _ ok allowed _ _ _ knows _ last =>
      obtain rfl : p' = .commit previousDbName seen := hj
      obtain ⟨hparty, rfl⟩ := last _ _ rfl
      cases previousDbName with
      | none => exact knows
      | some previous =>
        have hsees := hclean (j, reply) rfl
        rw [show s.party (j, reply).1 = .renameNew (some previous) seen from hparty] at hsees
        exact hsees ok allowed.1
    | commit _ => cases hj
  · rw [System.moved_party_of_ne _ hji] at hj
    cases heffect with
    | commit last => exact absurd (hexclusive.one j i (hopen j _ _ hj) (hopen i _ _ last)) hji
    | _ => exact h j _ _ hj

theorem Detecting.act {db : String} {run : ι → Run} {names : String → Option α}
    {moves : List (Move ι Reply (Server ι α) Progress)} {s : System ι (Server ι α) Progress}
    {i : ι} {reply : Reply} {next : Server ι α × Progress} (h : Detecting db run names moves s)
    (hstep : RunStep db run i reply (s.shared, s.party i) next)
    (hclean : SeesLive run ⟨some (i, reply), s, s.moved i next⟩) :
    Detecting db run names (moves ++ [⟨some (i, reply), s, s.moved i next⟩]) (s.moved i next) := by
  have hswapping := h.swapping.act hstep
  have hexclusive := h.swapping.exclusive
  obtain ⟨hready, hnext⟩ := hstep
  have heffect : Effect db (run i) i reply s.shared (s.party i) next := by
    rw [hnext]
    exact effect_advance hready (hexclusive.pending i) (hexclusive.knows i)
  refine ⟨hswapping, ?_, fun move hmem => ?_⟩
  · exact h.exact.act hexclusive heffect hclean
  · rcases List.mem_append.1 hmem with hmem | hmem
    · exact h.races move hmem
    obtain rfl := List.mem_singleton.1 hmem
    intro j reply' hactor hovertaken
    simp only [Option.some.injEq, Prod.mk.injEq] at hactor
    obtain ⟨rfl, rfl⟩ := hactor
    obtain ⟨seen, hseen, hne⟩ := hovertaken
    rw [System.moved_party_self]
    cases heffect with
    | quiet before _ _ _ => exact absurd (hseen.symm.trans before) (by simp)
    | failed returned race =>
      refine ⟨rfl, fun outcome houtcome => ?_⟩
      obtain rfl := Progress.done.inj houtcome
      exact ⟨returned, race⟩
    | @rename p' _ _ _ _ _ _ _ _ running _ =>
      refine ⟨rfl, fun outcome houtcome => ?_⟩
      obtain rfl : p' = .done outcome := houtcome
      cases running
    | commit last =>
      rw [show s.party i = _ from last] at hseen
      obtain rfl := Option.some.inj hseen
      exact absurd (h.exact i _ _ last) hne

/-- **Races are detected** in a history in which no run exchanges a database it has not seen. -/
theorem swap_detectsRaces (db : String) (run : ι → Run) (names : String → Option α)
    (moves : List (Move ι Reply (Server ι α) Progress)) (s : System ι (Server ι α) Progress)
    (h : History (RunStep db run) OthersStep (started names) moves s)
    (hclean : ∀ move ∈ moves, SeesLive run move) : DetectsRaces db run names moves s := by
  have hdetecting : Detecting db run names moves s := by
    apply History.rule _ (fun _ _ _ _ _ hs hstep hmove => Detecting.act hs hstep hmove)
      (fun _ _ _ _ hothers => hothers.elim) h hclean
    exact ⟨.started db run names, fun _ _ _ hi => (by cases hi), by simp⟩
  exact ⟨hdetecting.swapping.data, hdetecting.races, hdetecting.swapping.unchanged⟩

/-! ### Two runs -/

instance [Fintype ι] (s : Server ι α) (i : ι) (old new : String) : Decidable (s.Free i old new) :=
  inferInstanceAs (Decidable (∀ j, j ≠ i → ∀ r ∈ s.pending j,
    r.1 ≠ old ∧ (r.2 = new → s.view i new ≠ none)))

instance [Fintype ι] (db : String) (run : Run) (i : ι) (reply : Reply) (s : Server ι α)
    (p : Progress) : Decidable (Ready db run i reply s p) :=
  match p with
  | .renameLive previous _ => inferInstanceAs (Decidable (reply = .ok → s.Free i db previous))
  | .renameNew _ _ => inferInstanceAs (Decidable (reply = .ok → s.Free i run.newDb db))
  | .done _ => isFalse id
  | .newDatabaseExists | .liveDatabaseExists | .confirm _ _ | .commit _ _ => isTrue trivial

instance (run : Run) (i : ι) (reply : Reply) (s : Server ι α) (p : Progress) :
    Decidable (Sees run i reply s p) :=
  match p with
  | .renameNew (some _) seen =>
    inferInstanceAs (Decidable (reply = .ok → s.view i run.newDb ≠ none → seen = s.swaps))
  | .renameNew none _ | .newDatabaseExists | .liveDatabaseExists | .confirm _ _ | .renameLive _ _
  | .commit _ _ | .done _ => isTrue trivial

/-- Two restored databases, and the live one if there is one. -/
def restored (live : Option ℕ) (name : String) : Option ℕ :=
  if name = "adventureworks" then live
  else if name = "adventureworks_restore_1" then some 1
  else if name = "adventureworks_restore_2" then some 2
  else none

/-- The runs that are to exchange them. -/
def exchanges (first : Bool) : Run where
  newDb := if first then "adventureworks_restore_1" else "adventureworks_restore_2"
  timestamp := if first then "1" else "2"
  autoYes := true
  userInput := []

/-- The two runs take turns as the schedule says. -/
def twoRuns (live : Option ℕ) (schedule : List Bool) :
    List (Move Bool Reply (Server Bool ℕ) Progress) × System Bool (Server Bool ℕ) Progress :=
  replay (fun i reply => advance "adventureworks" (exchanges i) i reply) (started (restored live))
    (schedule.map fun i => (i, .ok))

theorem history_twoRuns (live : Option ℕ) (schedule : List Bool)
    (h : ∀ move ∈ (twoRuns live schedule).1, ∀ step ∈ move.actor,
      Ready "adventureworks" (exchanges step.1) step.1 step.2 move.before.shared
        (move.before.party step.1)) :
    History (RunStep "adventureworks" exchanges) OthersStep (started (restored live))
      (twoRuns live schedule).1 (twoRuns live schedule).2 :=
  history_replay fun move hmem i reply hactor =>
    ⟨h move hmem (i, reply) hactor, replay_eq_next hmem hactor⟩

/-- Two runs that find no live database: the second one to rename reports the race. -/
theorem swap_detectsRaces_noLive :
    let run := twoRuns none [true, true, false, false, true, true, true, false, false]
    run.2.party false = .done (.exited (buildSwapFailureMessage "race" "adventureworks"
        "adventureworks_restore_2")) ∧
      DetectsRaces "adventureworks" exchanges (restored none) run.1 run.2 := by
  refine ⟨by decide +kernel, swap_detectsRaces _ _ _ _ _ (history_twoRuns _ _ ?_) ?_⟩
  · decide +kernel
  · unfold SeesLive
    decide +kernel

/-- Two runs that have seen the same live database both exchange it. -/
theorem not_detectsRaces_overlapping :
    ¬ ∀ moves s, History (RunStep "adventureworks" exchanges) OthersStep
        (started (restored (some 0))) moves s →
      DetectsRaces "adventureworks" exchanges (restored (some 0)) moves s := by
  intro h
  have hhistory := history_twoRuns (some 0)
    [true, true, false, false, false, false, false, false, true, true, true, true] (by decide +kernel)
  have hdetects := (h _ _ hhistory).races (List.get _ ⟨11, by decide +kernel⟩)
    (List.get_mem ..) true .ok (by decide +kernel) ⟨0, by decide +kernel, by decide +kernel⟩
  exact (hdetects.2 .returned (by decide +kernel)).1 rfl

end Swap
