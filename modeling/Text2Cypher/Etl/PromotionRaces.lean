import Text2Cypher.Etl.RetryPromote
import Text2Cypher.Library.Interleaving

/-!
# Promotions at the same time

Any number of runs of `retry_promote` that were started with the same expected default database.
A run reads the name of the default database once and sets it two statements later, so it can
overwrite a promotion that another run has made in between.

* **`noLostUpdate`**: in a history in which every switch still finds the expected default, and no
  run is turned away for another reason, at most one run returns and all others report the race.
-/

namespace Promotion

open Interleaving

variable {ι : Type}

/-- A run has not ended. -/
def Progress.isRunning : Progress → Bool
  | .done _ => false
  | _ => true

/-- The statement that a run executes next, with the server's reply. -/
def RunStep (newDb : ι → String) (expected : String) (i : ι) (reply : Reply)
    (state next : Server × Progress) : Prop :=
  state.2.isRunning = true ∧ next = advance (newDb i) (some expected) reply state

/-- Others create and drop databases, start and stop them, and open and close transactions; only
the runs change the default database. -/
def OthersStep (s s' : Server) : Prop := s'.default = s.default

/-- Every run before its first statement. -/
def started (s : Server) : System ι Server Progress := ⟨s, fun _ => .databaseExists⟩

/-- The message of a run that finds another default database than it expects. -/
def IsRaceMessage (newDb expected message : String) : Prop :=
  ∃ actual, actual ≠ expected ∧
    message = buildPromotionFailureMessage "race" expected newDb (some actual)

/-- The moves of a run have left the server as they found it. -/
def LeavesServer (moves : List (Move ι Reply Server Progress)) (i : ι) : Prop :=
  ∀ move ∈ moves, ∀ reply, move.actor = some (i, reply) → move.after.shared = move.before.shared

/-- At most one run returns; every other one that has ended has exited with the race message and
has left the server as it found it. -/
structure NoLostUpdate (newDb : ι → String) (expected : String)
    (moves : List (Move ι Reply Server Progress)) (s : System ι Server Progress) : Prop where
  one : ∀ i j, s.party i = .done .returned → s.party j = .done .returned → i = j
  race : ∀ i outcome, s.party i = .done outcome → outcome ≠ .returned →
    (∃ message, outcome = .exited message ∧ IsRaceMessage (newDb i) expected message) ∧
      LeavesServer moves i

/-- What a run must find: its database exists, there is no transaction on the default database, and
a switch finds the expected default and sets another one. -/
def Finds (newDb expected : String) (s : Server) : Progress → Prop
  | .databaseExists => newDb ∈ s.databases
  | .hasActiveTransactions actualDefault => actualDefault ∉ s.transactions
  | .setDefaultDatabase => s.default = expected ∧ newDb ≠ expected
  | _ => True

instance (newDb expected : String) (s : Server) (p : Progress) :
    Decidable (Finds newDb expected s p) := by
  cases p <;> unfold Finds <;> infer_instance

/-- The server reports no error, and the run finds what it must. -/
def Clean (newDb : ι → String) (expected : String) (move : Move ι Reply Server Progress) : Prop :=
  ∀ step ∈ move.actor, step.2 = .ok ∧
    Finds (newDb step.1) expected move.before.shared (move.before.party step.1)

instance (newDb : ι → String) (expected : String) (move : Move ι Reply Server Progress) :
    Decidable (Clean newDb expected move) := by
  unfold Clean
  infer_instance

/-- A server with two databases besides the default one. -/
def threeDatabases : Server where
  databases := ["mvpgraph-a", "mvpgraph-b", "mvpgraph-c"]
  running := ["mvpgraph-a", "mvpgraph-b", "mvpgraph-c"]
  default := "mvpgraph-a"
  transactions := []

/-- The database that each of two runs has loaded. -/
def loaded (first : Bool) : String := if first then "mvpgraph-b" else "mvpgraph-c"

/-- The two runs take turns as the schedule says, and the server reports no error. -/
def twoRuns (schedule : List Bool) :
    List (Move Bool Reply Server Progress) × System Bool Server Progress :=
  replay (fun i reply => advance (loaded i) (some "mvpgraph-a") reply) (started threeDatabases)
    (schedule.map fun i => (i, .ok))

/-! ### One statement -/

/-- A run that has not touched the server, or cannot have. -/
def Untouched (newDb expected : String) : Progress → Prop
  | .setDefaultDatabase | .done .returned | .done .raised => False
  | .done (.exited message) => IsRaceMessage newDb expected message
  | _ => True

/-- What a clean statement does: it only reads, or it stops a database, or it makes the switch. -/
theorem advance_cases {newDb expected : String} {s : Server} {p : Progress}
    (hrunning : p.isRunning = true) (hfinds : Finds newDb expected s p)
    {next : Server × Progress} (h : next = advance newDb (some expected) .ok (s, p)) :
    p ≠ .setDefaultDatabase ∧ next.1 = s ∧ Untouched newDb expected next.2 ∨
      next.1.default = s.default ∧ next.2 = .setDefaultDatabase ∨
      s.default = expected ∧ next.1.default ≠ expected ∧ next.2 = .done .returned := by
  subst h
  cases p with
  | databaseExists =>
    refine Or.inl ⟨by simp, ?_⟩
    rw [Finds] at hfinds
    simp [advance, hfinds, Untouched]
  | getDefaultDatabase =>
    refine Or.inl ⟨by simp, ?_⟩
    by_cases hsame : s.default = expected
    · simp [advance, hsame, Untouched]
    · simp only [advance, ne_eq, not_true_eq_false, if_false, hsame, not_false_eq_true, if_true]
      exact ⟨trivial, s.default, hsame, rfl⟩
  | hasActiveTransactions actualDefault =>
    refine Or.inl ⟨by simp, ?_⟩
    rw [Finds] at hfinds
    simp [advance, hfinds, Untouched]
  | stopDatabase actualDefault => exact Or.inr (Or.inl ⟨rfl, rfl⟩)
  | setDefaultDatabase => exact Or.inr (Or.inr ⟨hfinds.1, hfinds.2, rfl⟩)
  | done outcome => cases hrunning

/-! ### All runs -/

/-- The invariant of clean histories: a run that has returned has changed the default for good, and
the others are at the switch or have not touched the server. -/
structure Promoting (newDb : ι → String) (expected : String)
    (moves : List (Move ι Reply Server Progress)) (s : System ι Server Progress) : Prop where
  one : ∀ i j, s.party i = .done .returned → s.party j = .done .returned → i = j
  switched : ∀ i, s.party i = .done .returned → s.shared.default ≠ expected
  others : ∀ i, s.party i ≠ .setDefaultDatabase → s.party i ≠ .done .returned →
    Untouched (newDb i) expected (s.party i) ∧ LeavesServer moves i

/-- A move of one run is no move of another. -/
theorem LeavesServer.append_ne {moves : List (Move ι Reply Server Progress)} {i : ι}
    (h : LeavesServer moves i) {move : Move ι Reply Server Progress}
    (hne : ∀ reply, move.actor ≠ some (i, reply)) : LeavesServer (moves ++ [move]) i := by
  intro m hm reply hactor
  rcases List.mem_append.1 hm with hm | hm
  · exact h m hm reply hactor
  · obtain rfl := List.mem_singleton.1 hm
    exact absurd hactor (hne reply)

theorem LeavesServer.append_same {moves : List (Move ι Reply Server Progress)} {i : ι}
    (h : LeavesServer moves i) {move : Move ι Reply Server Progress}
    (hsame : move.after.shared = move.before.shared) : LeavesServer (moves ++ [move]) i := by
  intro m hm reply hactor
  rcases List.mem_append.1 hm with hm | hm
  · exact h m hm reply hactor
  · obtain rfl := List.mem_singleton.1 hm
    exact hsame

variable [DecidableEq ι]

/-- What a clean statement of a run keeps. -/
theorem Promoting.act {newDb : ι → String} {expected : String}
    {moves : List (Move ι Reply Server Progress)} {s : System ι Server Progress} {i : ι}
    {reply : Reply} {next : Server × Progress} (h : Promoting newDb expected moves s)
    (hstep : RunStep newDb expected i reply (s.shared, s.party i) next)
    (hclean : Clean newDb expected ⟨some (i, reply), s, s.moved i next⟩) :
    Promoting newDb expected (moves ++ [⟨some (i, reply), s, s.moved i next⟩])
      (s.moved i next) := by
  obtain ⟨hrunning, hnext⟩ := hstep
  obtain ⟨rfl, hfinds⟩ := hclean (i, reply) rfl
  have hreturned : s.party i ≠ .done .returned := by
    intro hret
    rw [hret] at hrunning
    cases hrunning
  -- the others are where they were, and have made no move
  have hothers : ∀ j, j ≠ i → s.party j ≠ .setDefaultDatabase → s.party j ≠ .done .returned →
      Untouched (newDb j) expected (s.party j) ∧
        LeavesServer (moves ++ [⟨some (i, .ok), s, s.moved i next⟩]) j := by
    intro j hj hset hret
    obtain ⟨hun, hleaves⟩ := h.others j hset hret
    refine ⟨hun, hleaves.append_ne fun reply hactor => hj ?_⟩
    simp only [Option.some.injEq, Prod.mk.injEq] at hactor
    exact hactor.1.symm
  rcases advance_cases hrunning hfinds hnext with
    ⟨hset, hshared, hun⟩ | ⟨hdefault, hat⟩ | ⟨hbefore, hafter, hat⟩
  · -- the statement only reads
    have hne : next.2 ≠ .done .returned := by
      rintro hret
      rw [hret] at hun
      exact hun
    have hparty : ∀ j, (s.moved i next).party j = .done .returned →
        s.party j = .done .returned := by
      intro j hj
      by_cases hji : j = i
      · subst hji
        exact absurd (by simpa using hj) hne
      · rwa [s.moved_party_of_ne hji] at hj
    refine ⟨fun j k hj hk => h.one j k (hparty j hj) (hparty k hk), fun j hj => ?_,
      fun j hjset hjret => ?_⟩
    · rw [System.moved_shared, hshared]
      exact h.switched j (hparty j hj)
    · by_cases hji : j = i
      · subst hji
        rw [System.moved_party_self]
        exact ⟨hun, (h.others j hset hreturned).2.append_same hshared⟩
      · rw [s.moved_party_of_ne hji] at hjset hjret ⊢
        exact hothers j hji hjset hjret
  · -- the statement stops a database
    have hparty : ∀ j, (s.moved i next).party j = .done .returned →
        s.party j = .done .returned := by
      intro j hj
      by_cases hji : j = i
      · subst hji
        rw [System.moved_party_self, hat] at hj
        cases hj
      · rwa [s.moved_party_of_ne hji] at hj
    refine ⟨fun j k hj hk => h.one j k (hparty j hj) (hparty k hk), fun j hj => ?_,
      fun j hjset hjret => ?_⟩
    · rw [System.moved_shared, hdefault]
      exact h.switched j (hparty j hj)
    · have hji : j ≠ i := by
        rintro rfl
        exact hjset (by rw [System.moved_party_self, hat])
      rw [s.moved_party_of_ne hji] at hjset hjret ⊢
      exact hothers j hji hjset hjret
  · -- the switch: nobody has returned before, since the default is still the expected one
    have hnobody : ∀ j, s.party j ≠ .done .returned := fun j hj => h.switched j hj hbefore
    have hparty : ∀ j, (s.moved i next).party j = .done .returned → j = i := by
      intro j hj
      by_contra hji
      rw [s.moved_party_of_ne hji] at hj
      exact hnobody j hj
    refine ⟨fun j k hj hk => (hparty j hj).trans (hparty k hk).symm, fun _ _ => hafter,
      fun j hjset hjret => ?_⟩
    have hji : j ≠ i := by
      rintro rfl
      exact hjret (by rw [System.moved_party_self, hat])
    rw [s.moved_party_of_ne hji] at hjset hjret ⊢
    exact hothers j hji hjset hjret

omit [DecidableEq ι] in
/-- What the others do keeps the invariant too. -/
theorem Promoting.env {newDb : ι → String} {expected : String}
    {moves : List (Move ι Reply Server Progress)} {s : System ι Server Progress} {shared : Server}
    (h : Promoting newDb expected moves s) (hstep : OthersStep s.shared shared) :
    Promoting newDb expected (moves ++ [⟨none, s, ⟨shared, s.party⟩⟩]) ⟨shared, s.party⟩ := by
  refine ⟨h.one, fun i hi => ?_, fun i hset hret => ?_⟩
  · show shared.default ≠ expected
    rw [hstep]
    exact h.switched i hi
  · obtain ⟨hun, hleaves⟩ := h.others i hset hret
    exact ⟨hun, hleaves.append_ne (by simp)⟩

/-- **No lost update** in any history of clean moves. -/
theorem noLostUpdate (newDb : ι → String) (expected : String) (server : Server)
    (moves : List (Move ι Reply Server Progress)) (s : System ι Server Progress)
    (h : History (RunStep newDb expected) OthersStep (started server) moves s)
    (hclean : ∀ move ∈ moves, Clean newDb expected move) : NoLostUpdate newDb expected moves s := by
  have hpromoting : Promoting newDb expected moves s := by
    apply History.rule _ (fun _ _ _ _ _ hs hstep hmove => Promoting.act hs hstep hmove)
      (fun _ _ _ hs hstep => Promoting.env hs hstep) h hclean
    refine ⟨?_, ?_, fun i _ _ => ⟨trivial, by simp [LeavesServer]⟩⟩
    all_goals
      intro i
      simp [started]
  refine ⟨hpromoting.one, fun i outcome hi hne => ?_⟩
  have hret : s.party i ≠ .done .returned := by
    rw [hi]
    simpa using hne
  obtain ⟨hun, hleaves⟩ := hpromoting.others i (by simp [hi]) hret
  rw [hi] at hun
  refine ⟨?_, hleaves⟩
  cases outcome with
  | returned => exact absurd rfl hne
  | raised => exact hun.elim
  | exited message => exact ⟨message, rfl, hun⟩

theorem history_twoRuns {schedule : List Bool}
    (h : ∀ move ∈ (twoRuns schedule).1, ∀ step ∈ move.actor,
      (move.before.party step.1).isRunning = true) :
    History (RunStep loaded "mvpgraph-a") OthersStep (started threeDatabases)
      (twoRuns schedule).1 (twoRuns schedule).2 :=
  history_replay fun move hmem i reply hactor =>
    ⟨h move hmem (i, reply) hactor, replay_eq_next hmem hactor⟩

/-- One run after the other: the second one finds that the default has changed. -/
theorem noLostUpdate_in_turn :
    let run := twoRuns [true, true, true, true, true, false, false]
    run.2.party true = .done .returned ∧ NoLostUpdate loaded "mvpgraph-a" run.1 run.2 := by
  refine ⟨rfl, noLostUpdate loaded "mvpgraph-a" threeDatabases _ _ (history_twoRuns ?_) ?_⟩
  · decide
  · decide

/-- Two runs that both read the default database before either of them has set it both return. -/
theorem not_noLostUpdate_overlapping :
    ¬ ∀ moves s, History (RunStep loaded "mvpgraph-a") OthersStep (started threeDatabases)
        moves s → NoLostUpdate loaded "mvpgraph-a" moves s := by
  intro h
  have hrun := h (twoRuns [true, true, true, false, false, false, true, true, false, false]).1
    (twoRuns [true, true, true, false, false, false, true, true, false, false]).2
    (history_twoRuns (by decide))
  cases hrun.one true false rfl rfl

end Promotion
