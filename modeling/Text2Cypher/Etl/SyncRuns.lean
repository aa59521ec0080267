import Text2Cypher.Etl.SyncLoad
import Text2Cypher.Library.Interleaving
import Mathlib.Logic.Function.Iterate

/-!
# Synchronisations at the same time

Any number of runs of the synchronisation, each of which may fail at every statement.  A run writes
only into the database that it has created, so nobody sees what it writes before it is promoted.

* `Effect`: what one statement of a run can do;
* **`sync_safe`**: in every history the databases that were there keep their contents, and the
  default database is the old one or holds a load without loss.
-/

namespace Sync

open Structured PropertyGraph Interleaving

variable {ι : Type}

/-- The statement that a run executes next, with what it hears of it. -/
def RunStep (run : ι → Run) (i : ι) (reply : Reply) (state next : Cluster × Progress) : Prop :=
  state.2.ended = none ∧ next = advance (run i) reply state

/-- Others open and close transactions, start and stop databases and create new ones; they neither
write the databases that are there nor set the default one. -/
def OthersStep (c c' : Cluster) : Prop :=
  c'.server.default = c.server.default ∧
    ∀ name ∈ c.server.databases, name ∈ c'.server.databases ∧ c'.graphs name = c.graphs name

/-- Every run before its first statement. -/
def started (c : Cluster) : System ι Cluster Progress := ⟨c, fun _ => .context⟩

/-- The moves of a run have left the cluster as they found it. -/
def LeavesCluster (moves : List (Move ι Reply Cluster Progress)) (i : ι) : Prop :=
  ∀ move ∈ moves, ∀ reply, move.actor = some (i, reply) → move.after.shared = move.before.shared

/-- **What the synchronisation promises**: the databases that were there keep their contents, the
default is the old one or holds what a run has extracted, and a run that refuses its rows has
changed nothing. -/
structure Safe (run : ι → Run) (c₀ : Cluster) (moves : List (Move ι Reply Cluster Progress))
    (s : System ι Cluster Progress) : Prop where
  kept : ∀ name ∈ c₀.server.databases,
    name ∈ s.shared.server.databases ∧ s.shared.graphs name = c₀.graphs name
  default : s.shared.server.default = c₀.server.default ∨ ∃ i,
    s.shared.server.default = (run i).newDb ∧
      Lossless (run i).nodes (run i).rels (s.shared.graphs s.shared.server.default)
  returned : ∀ i, (s.party i).ended = some .returned →
    Lossless (run i).nodes (run i).rels (s.shared.graphs (run i).newDb)
  refused : ∀ i, s.party i = .done (.exited preWriteMessage) → LeavesCluster moves i

/-! ### One statement -/

/-- The database of the run is its own. -/
def Progress.owns : Progress → Bool
  | .load _ _ | .verify _ | .promote _ _ => true
  | _ => false

def Progress.promoting : Progress → Bool
  | .promote _ _ => true
  | _ => false

/-- A run that has not reached Neo4j. -/
def Progress.early : Progress → Prop
  | .context | .extract _ | .create _ => True
  | .done outcome => outcome = .exited preWriteMessage
  | _ => False

/-- **What one statement of a run can do.** -/
inductive Effect (run : Run) (c : Cluster) : Progress → Cluster × Progress → Prop
  | ended {p : Progress} {outcome : Promotion.Outcome} (promoting : p.promoting = false)
    (returned : outcome ≠ .returned) (early : outcome = .exited preWriteMessage → p.early) :
    Effect run c p (c, .done outcome)
  | found : Effect run c .context (c, .extract c.server.default)
  | valid {expected : String} (valid : validateBeforeWrite run.nodes run.rels = .ok []) :
    Effect run c (.extract expected) (c, .create expected)
  | created {expected : String} {next : Progress} (fresh : run.newDb ∉ c.server.databases)
    (next_eq : next = .load expected run.queue ∨ next = .done .raised) :
    Effect run c (.create expected) (c.create run.newDb, next)
  | wrote {expected : String} {write : Write} {queue : List Write} {g : Graph Value}
    {next : Progress} (ran : write.run run.syncRunId (c.graphs run.newDb) = some g)
    (next_eq : next = .load expected queue ∨ next = .done .raised) :
    Effect run c (.load expected (write :: queue)) (c.write run.newDb g, next)
  | skipped {expected : String} {write : Write} {queue : List Write} :
    Effect run c (.load expected (write :: queue)) (c, .load expected queue)
  | loaded {expected : String} : Effect run c (.load expected []) (c, .verify expected)
  | verified {expected : String} (verified : run.Verified (c.graphs run.newDb)) :
    Effect run c (.verify expected) (c, .promote expected .databaseExists)
  | promoted {expected : String} {progress progress' : Promotion.Progress}
    {server : Promotion.Server} (databases : server.databases = c.server.databases)
    (default : server.default = c.server.default ∨ server.default = run.newDb) :
    Effect run c (.promote expected progress) ({ c with server }, .promote expected progress')

theorem postLoadMessage_ne (newDb : String) : postLoadMessage newDb ≠ preWriteMessage := by
  intro h
  have hfirst : "검증 실패 - 새 데이터베이스 '".toList.head? = some '검' := by decide +kernel
  have hfirst' : preWriteMessage.toList.head? = some '쓰' := by decide +kernel
  rw [← h] at hfirst'
  unfold postLoadMessage at hfirst'
  rw [String.toList_append, String.toList_append, String.toList_append, List.head?_append,
    List.head?_append, List.head?_append, hfirst] at hfirst'
  exact absurd (Option.some.inj hfirst') (by decide)

/-- A promotion keeps the databases there are, and sets no default but its own. -/
theorem advance_promotion (newDb : String) (expected : Option String) (reply : Promotion.Reply)
    (s : Promotion.Server) (p : Promotion.Progress) :
    (Promotion.advance newDb expected reply (s, p)).1.databases = s.databases ∧
      ((Promotion.advance newDb expected reply (s, p)).1.default = s.default ∨
        (Promotion.advance newDb expected reply (s, p)).1.default = newDb) := by
  cases p with
  | databaseExists =>
    simp only [Promotion.advance]
    split_ifs <;> exact ⟨rfl, Or.inl rfl⟩
  | getDefaultDatabase =>
    simp only [Promotion.advance]
    cases expected with
    | none => split_ifs <;> exact ⟨rfl, Or.inl rfl⟩
    | some expected =>
      dsimp only
      split_ifs <;> exact ⟨rfl, Or.inl rfl⟩
  | hasActiveTransactions actualDefault =>
    simp only [Promotion.advance]
    split_ifs <;> exact ⟨rfl, Or.inl rfl⟩
  | stopDatabase actualDefault => cases reply <;> exact ⟨rfl, Or.inl rfl⟩
  | setDefaultDatabase =>
    cases reply with
    | ok => exact ⟨rfl, Or.inr rfl⟩
    | rejected => exact ⟨rfl, Or.inl rfl⟩
    | lost => exact ⟨rfl, Or.inr rfl⟩
  | done outcome => exact ⟨rfl, Or.inl rfl⟩

/-- The statements of a run do what `Effect` says. -/
theorem effect_advance {run : Run} {reply : Reply} {c : Cluster} {p : Progress}
    (hrunning : p.ended = none) : Effect run c p (advance run reply (c, p)) := by
  have hraised : ∀ {p : Progress}, p.promoting = false → Effect run c p (c, .done .raised) :=
    fun hp => .ended hp (by simp) fun h => by cases h
  cases p with
  | context =>
    simp only [advance]
    split_ifs
    · exact hraised rfl
    · exact .found
  | extract expected =>
    simp only [advance]
    split_ifs
    · exact hraised rfl
    · split
      · exact hraised rfl
      · exact .valid (by assumption)
      · exact .ended rfl (by simp) fun _ => trivial
  | create expected =>
    simp only [advance]
    split_ifs with hfresh
    · exact hraised rfl
    · split
      · exact .created hfresh (Or.inl rfl)
      · exact .created hfresh (Or.inr rfl)
      · exact hraised rfl
      · exact hraised rfl
  | load expected queue =>
    cases queue with
    | nil => exact .loaded
    | cons write queue =>
      simp only [advance]
      split
      · exact .wrote (by assumption) (Or.inl rfl)
      · exact .wrote (by assumption) (Or.inr rfl)
      · exact .skipped
      · exact hraised rfl
      · exact hraised rfl
  | verify expected =>
    simp only [advance]
    split_ifs with _ hverified
    · exact hraised rfl
    · exact .verified hverified
    · exact .ended rfl (by simp) fun h =>
        absurd (Promotion.Outcome.exited.inj h) (postLoadMessage_ne _)
  | promote expected progress =>
    exact .promoted (advance_promotion run.newDb (some expected) _ c.server progress).1
      (advance_promotion run.newDb (some expected) _ c.server progress).2
  | done outcome => cases hrunning

/-! ### What one statement keeps -/

variable {run : Run} {c : Cluster} {p : Progress} {next : Cluster × Progress}

/-- A run writes no database but its own. -/
theorem Effect.frame (h : Effect run c p next) {name : String} (hname : name ∈ c.server.databases) :
    name ∈ next.1.server.databases ∧
      (next.1.graphs name = c.graphs name ∨ name = run.newDb ∧ p.owns = true) := by
  cases h with
  | created hfresh _ =>
    have hne : name ≠ run.newDb := by
      rintro rfl
      exact hfresh hname
    exact ⟨Cluster.mem_create_databases.2 (Or.inl hname), Or.inl (c.create_graphs_of_ne hne)⟩
  | @wrote _ _ _ g _ _ _ =>
    refine ⟨hname, ?_⟩
    by_cases hne : name = run.newDb
    · exact Or.inr ⟨hne, rfl⟩
    · exact Or.inl (c.write_graphs_of_ne hne g)
  | promoted hdatabases _ => exact ⟨hdatabases ▸ hname, Or.inl rfl⟩
  | _ => exact ⟨hname, Or.inl rfl⟩

/-- A run that comes to own a database has created it. -/
theorem Effect.owns (h : Effect run c p next) (hown : p.owns = true → run.newDb ∈ c.server.databases)
    (hnext : next.2.owns = true) :
    run.newDb ∈ next.1.server.databases ∧ (p.owns = true ∨ run.newDb ∉ c.server.databases) := by
  cases h with
  | created hfresh _ => exact ⟨Cluster.mem_create_databases.2 (Or.inr rfl), Or.inr hfresh⟩
  | wrote _ _ => exact ⟨hown rfl, Or.inl rfl⟩
  | skipped => exact ⟨hown rfl, Or.inl rfl⟩
  | loaded => exact ⟨hown rfl, Or.inl rfl⟩
  | verified _ => exact ⟨hown rfl, Or.inl rfl⟩
  | promoted hdatabases _ => exact ⟨hdatabases ▸ hown rfl, Or.inl rfl⟩
  | _ => cases hnext

/-- Only a promotion changes the default. -/
theorem Effect.default (h : Effect run c p next) :
    next.1.server.default = c.server.default ∨
      next.1.server.default = run.newDb ∧ next.2.promoting = true := by
  cases h with
  | promoted _ hdefault => exact hdefault.imp_right fun h => ⟨h, rfl⟩
  | _ => exact Or.inl rfl

theorem Effect.promoting (h : Effect run c p next) (hp : p.promoting = true) :
    next.2.promoting = true := by
  cases h with
  | ended hnot _ _ =>
    rw [hp] at hnot
    cases hnot
  | promoted _ _ => rfl
  | _ => cases hp

theorem Effect.early (h : Effect run c p next) (hnext : next.2.early) : p.early ∧ next.1 = c := by
  cases h with
  | ended _ _ hearly => exact ⟨hearly hnext, rfl⟩
  | found => exact ⟨trivial, rfl⟩
  | valid _ => exact ⟨trivial, rfl⟩
  | created _ hnext_eq => rcases hnext_eq with rfl | rfl <;> cases hnext
  | wrote _ hnext_eq => rcases hnext_eq with rfl | rfl <;> cases hnext
  | _ => cases hnext

/-- What the database of a run holds. -/
def Loaded (run : Run) (g : Graph Value) : Progress → Prop
  | .create _ => validateBeforeWrite run.nodes run.rels = .ok []
  | .load _ queue => validateBeforeWrite run.nodes run.rels = .ok [] ∧
    ∃ done kept, run.queue = done ++ queue ∧ kept.Sublist done ∧
      runAll run.syncRunId kept Graph.empty = some g
  | .verify _ => validateBeforeWrite run.nodes run.rels = .ok [] ∧
    ∃ kept, kept.Sublist run.queue ∧ runAll run.syncRunId kept Graph.empty = some g
  | .promote _ _ => Lossless run.nodes run.rels g
  | .done outcome => outcome ≠ .returned
  | _ => True

theorem Loaded.of_not_owns {g : Graph Value} (h : Loaded run g p) (hp : p.owns = false)
    (g' : Graph Value) : Loaded run g' p := by
  cases p with
  | load _ _ => cases hp
  | verify _ => cases hp
  | promote _ _ => cases hp
  | _ => exact h

theorem Effect.loaded_next (h : Effect run c p next) (hplain : KeysPlain run.nodes run.rels)
    (hloaded : Loaded run (c.graphs run.newDb) p) :
    Loaded run (next.1.graphs run.newDb) next.2 := by
  cases h with
  | ended _ hreturned _ => exact hreturned
  | valid hvalid => exact hvalid
  | created _ hnext =>
    rcases hnext with rfl | rfl
    · refine ⟨hloaded, [], [], rfl, List.Sublist.refl [], ?_⟩
      rw [Cluster.create_graphs_self]
      rfl
    · simp [Loaded]
  | @wrote _ write queue g _ hran hnext =>
    rcases hnext with rfl | rfl
    · obtain ⟨hvalid, done, kept, hqueue, hsub, hrun⟩ := hloaded
      refine ⟨hvalid, done ++ [write], kept ++ [write], ?_, hsub.append_right _, ?_⟩
      · rw [hqueue, List.append_assoc, List.singleton_append]
      · rw [Cluster.write_graphs_self]
        exact runAll_concat hrun hran
    · simp [Loaded]
  | @skipped _ write queue =>
    obtain ⟨hvalid, done, kept, hqueue, hsub, hrun⟩ := hloaded
    refine ⟨hvalid, done ++ [write], kept, ?_, hsub.trans (List.sublist_append_left _ _), hrun⟩
    rw [hqueue, List.append_assoc, List.singleton_append]
  | loaded =>
    obtain ⟨hvalid, done, kept, hqueue, hsub, hrun⟩ := hloaded
    rw [List.append_nil] at hqueue
    exact ⟨hvalid, kept, hqueue ▸ hsub, hrun⟩
  | verified hverified =>
    obtain ⟨hvalid, kept, hsub, hrun⟩ := hloaded
    exact lossless_of_countsAgree run hplain hvalid hsub hrun hverified.1
  | promoted _ _ => exact hloaded
  | _ => trivial

/-! ### All runs -/

/-- The invariant: the databases of the runs are new ones, no two runs have the same one, and each
holds what its run has written. -/
structure Syncing (run : ι → Run) (c₀ : Cluster) (moves : List (Move ι Reply Cluster Progress))
    (s : System ι Cluster Progress) : Prop where
  kept : ∀ name ∈ c₀.server.databases,
    name ∈ s.shared.server.databases ∧ s.shared.graphs name = c₀.graphs name
  owned : ∀ i, (s.party i).owns = true →
    (run i).newDb ∈ s.shared.server.databases ∧ (run i).newDb ∉ c₀.server.databases
  apart : ∀ i j, (s.party i).owns = true → (s.party j).owns = true →
    (run i).newDb = (run j).newDb → i = j
  loaded : ∀ i, Loaded (run i) (s.shared.graphs (run i).newDb) (s.party i)
  default : s.shared.server.default = c₀.server.default ∨
    ∃ i, s.shared.server.default = (run i).newDb ∧ (s.party i).promoting = true
  early : ∀ i, (s.party i).early → LeavesCluster moves i

theorem Syncing.started (run : ι → Run) (c₀ : Cluster) : Syncing run c₀ [] (started c₀) where
  kept _ h := ⟨h, rfl⟩
  owned _ h := by cases h
  apart _ _ h := by cases h
  loaded _ := trivial
  default := Or.inl rfl
  early _ _ _ h := absurd h List.not_mem_nil

theorem Syncing.env {run : ι → Run} {c₀ : Cluster} {moves : List (Move ι Reply Cluster Progress)}
    {s : System ι Cluster Progress} (h : Syncing run c₀ moves s) {c : Cluster}
    (hothers : OthersStep s.shared c) :
    Syncing run c₀ (moves ++ [⟨none, s, ⟨c, s.party⟩⟩]) ⟨c, s.party⟩ where
  kept name hname := by
    obtain ⟨hmem, hgraph⟩ := h.kept name hname
    obtain ⟨hmem', hgraph'⟩ := hothers.2 name hmem
    exact ⟨hmem', hgraph'.trans hgraph⟩
  owned i hi := ⟨(hothers.2 _ (h.owned i hi).1).1, (h.owned i hi).2⟩
  apart := h.apart
  loaded i := by
    by_cases hi : (s.party i).owns = true
    · show Loaded (run i) (c.graphs (run i).newDb) (s.party i)
      rw [(hothers.2 _ (h.owned i hi).1).2]
      exact h.loaded i
    · exact (h.loaded i).of_not_owns (Bool.eq_false_iff.2 hi) _
  default := by
    show c.server.default = _ ∨ ∃ i, c.server.default = _ ∧ _
    rw [hothers.1]
    exact h.default
  early i hi move hmem reply hactor := by
    rcases List.mem_append.1 hmem with hmem | hmem
    · exact h.early i hi move hmem reply hactor
    · obtain rfl := List.mem_singleton.1 hmem
      cases hactor

theorem Syncing.safe {run : ι → Run} {c₀ : Cluster} {moves : List (Move ι Reply Cluster Progress)}
    {s : System ι Cluster Progress} (h : Syncing run c₀ moves s) : Safe run c₀ moves s := by
  have hlossless : ∀ i, (s.party i).promoting = true →
      Lossless (run i).nodes (run i).rels (s.shared.graphs (run i).newDb) := by
    intro i hi
    have hloaded := h.loaded i
    cases hparty : s.party i with
    | promote _ _ =>
      rw [hparty] at hloaded
      exact hloaded
    | _ =>
      rw [hparty] at hi
      cases hi
  refine ⟨h.kept, ?_, fun i hi => ?_, fun i hi => h.early i ?_⟩
  · refine h.default.imp_right fun ⟨i, hname, hi⟩ => ⟨i, hname, ?_⟩
    rw [hname]
    exact hlossless i hi
  · have hloaded := h.loaded i
    cases hparty : s.party i with
    | promote _ _ => exact hlossless i (by rw [hparty]; rfl)
    | done outcome =>
      rw [hparty] at hi hloaded
      exact absurd (Option.some.inj hi) hloaded
    | _ =>
      rw [hparty] at hi
      cases hi
  · rw [hi]
    exact rfl

variable [DecidableEq ι]

theorem Syncing.act {run : ι → Run} {c₀ : Cluster} {moves : List (Move ι Reply Cluster Progress)}
    {s : System ι Cluster Progress} (h : Syncing run c₀ moves s)
    (hplain : ∀ i, KeysPlain (run i).nodes (run i).rels) {i : ι} {reply : Reply}
    {next : Cluster × Progress} (heffect : Effect (run i) s.shared (s.party i) next) :
    Syncing run c₀ (moves ++ [⟨some (i, reply), s, s.moved i next⟩]) (s.moved i next) := by
  have hother : ∀ j, j ≠ i → (s.moved i next).party j = s.party j :=
    fun j hj => s.moved_party_of_ne hj next
  -- the databases of the others are not written
  have hframe : ∀ j, j ≠ i → (s.party j).owns = true →
      (run j).newDb ∈ next.1.server.databases ∧
        next.1.graphs (run j).newDb = s.shared.graphs (run j).newDb := by
    intro j hj hown
    obtain ⟨hmem, hsame | ⟨hname, howni⟩⟩ := heffect.frame (h.owned j hown).1
    · exact ⟨hmem, hsame⟩
    · exact absurd (h.apart j i hown howni hname) hj
  have hmine := fun howns => heffect.owns (fun hown => (h.owned i hown).1) howns
  -- a database that is created now is nobody's yet
  have hnew : ∀ j, j ≠ i → next.2.owns = true → (s.party j).owns = true →
      (run i).newDb ≠ (run j).newDb := by
    intro j hj howni hown heq
    rcases (hmine howni).2 with hold | hfresh
    · exact hj (h.apart i j hold hown heq).symm
    · exact hfresh (heq ▸ (h.owned j hown).1)
  refine ⟨fun name hname => ?_, fun j hj => ?_, fun j k hj hk heq => ?_, fun j => ?_, ?_,
    fun j hj => ?_⟩
  · obtain ⟨hmem, hgraph⟩ := h.kept name hname
    obtain ⟨hmem', hsame | ⟨rfl, hown⟩⟩ := heffect.frame hmem
    · exact ⟨hmem', hsame.trans hgraph⟩
    · exact absurd hname (h.owned i hown).2
  · by_cases hji : j = i
    · subst hji
      rw [System.moved_party_self] at hj
      refine ⟨(hmine hj).1, ?_⟩
      rcases (hmine hj).2 with hold | hfresh
      · exact (h.owned j hold).2
      · exact fun hmem => hfresh (h.kept _ hmem).1
    · rw [hother j hji] at hj
      exact ⟨(hframe j hji hj).1, (h.owned j hj).2⟩
  · by_cases hji : j = i <;> by_cases hki : k = i
    · exact hji.trans hki.symm
    · subst hji
      rw [System.moved_party_self] at hj
      rw [hother k hki] at hk
      exact absurd heq (hnew k hki hj hk)
    · subst hki
      rw [System.moved_party_self] at hk
      rw [hother j hji] at hj
      exact absurd heq.symm (hnew j hji hk hj)
    · rw [hother j hji] at hj
      rw [hother k hki] at hk
      exact h.apart j k hj hk heq
  · rw [System.moved_shared]
    by_cases hji : j = i
    · subst hji
      rw [System.moved_party_self]
      exact heffect.loaded_next (hplain j) (h.loaded j)
    · rw [hother j hji]
      by_cases hown : (s.party j).owns = true
      · rw [(hframe j hji hown).2]
        exact h.loaded j
      · exact (h.loaded j).of_not_owns (Bool.eq_false_iff.2 hown) _
  · rw [System.moved_shared]
    rcases heffect.default with hsame | ⟨hname, hpromoting⟩
    · rw [hsame]
      refine h.default.imp_right fun ⟨j, hname, hj⟩ => ⟨j, hname, ?_⟩
      by_cases hji : j = i
      · subst hji
        rw [System.moved_party_self]
        exact heffect.promoting hj
      · rwa [hother j hji]
    · exact Or.inr ⟨i, hname, by rwa [System.moved_party_self]⟩
  · intro move hmem reply' hactor
    by_cases hji : j = i
    · subst hji
      rw [System.moved_party_self] at hj
      obtain ⟨hearly, hsame⟩ := heffect.early hj
      rcases List.mem_append.1 hmem with hmem | hmem
      · exact h.early j hearly move hmem reply' hactor
      · obtain rfl := List.mem_singleton.1 hmem
        exact hsame
    · rw [hother j hji] at hj
      rcases List.mem_append.1 hmem with hmem | hmem
      · exact h.early j hj move hmem reply' hactor
      · obtain rfl := List.mem_singleton.1 hmem
        simp only [Option.some.injEq, Prod.mk.injEq] at hactor
        exact absurd hactor.1.symm hji

/-- Two runs that were started one second apart. -/
def sampleRun (first : Bool) : Run where
  timestamp := if first then "20260821t090349z" else "20260821t090350z"
  syncRunId := "run"
  nodes := sampleNodes
  rels := sampleRels
  constraints := 1
  verifyFixtures _ := []

def oneDatabase : Cluster where
  server := { databases := ["neo4j"], running := ["neo4j"], default := "neo4j", transactions := [] }
  graphs _ := Graph.empty

/-- The runs take turns; the sixth statement of the first one gets lost. -/
def lostBatch : List (Move Bool Reply Cluster Progress) × System Bool Cluster Progress :=
  replay (fun i reply => advance (sampleRun i) reply) (started oneDatabase)
    ((List.range 18).flatMap (fun n =>
      [(true, if n = 5 then .unheard else .heard .ok), (false, .heard .ok)]) ++
      List.replicate 5 (false, .heard .ok))

/-- Statements that all succeed. -/
def quiet (run : Run) (n : ℕ) : Cluster × Progress → Cluster × Progress :=
  (advance run (.heard .ok))^[n]

theorem quiet_add {run : Run} {m n : ℕ} {start mid last : Cluster × Progress}
    (h : quiet run m start = mid) (h' : quiet run n mid = last) :
    quiet run (n + m) start = last := by
  rw [quiet, Function.iterate_add_apply, ← quiet, ← quiet, h, h']

/-- The load on a quiet cluster. -/
theorem quiet_load (run : Run) (expected : String) {queue : List Write} {c : Cluster}
    {g : Graph Value} (hrun : runAll run.syncRunId queue (c.graphs run.newDb) = some g) :
    quiet run (queue.length + 1) (c, .load expected queue) =
      (c.write run.newDb g, .verify expected) := by
  induction queue generalizing c with
  | nil =>
    obtain rfl := Option.some.inj hrun
    show (c, Progress.verify expected) = _
    rw [Cluster.write, Function.update_eq_self]
  | cons write queue ih =>
    obtain ⟨g₁, hfirst, hrest⟩ := runAll_cons_eq_some.1 hrun
    have hstep : quiet run 1 (c, .load expected (write :: queue)) =
        (c.write run.newDb g₁, .load expected queue) := by
      simp only [quiet, Function.iterate_one, advance, hfirst]
    have hwrite : (c.write run.newDb g₁).write run.newDb g = c.write run.newDb g := by
      simp only [Cluster.write, Function.update_idem]
    have hlater := ih (c := c.write run.newDb g₁) (by rwa [Cluster.write_graphs_self])
    rw [hwrite] at hlater
    exact quiet_add hstep hlater

theorem runAll_of_loadSpecs {syncRunId : String} {rows : Dict String (List Row)}
    {specs : List (String × List Clause)} {g g' : Graph Value} {counts : List (String × ℕ)}
    (h : loadSpecs syncRunId batchSize rows specs g = some (g', counts)) :
    runAll syncRunId (specs.flatMap fun s => batches s.2 ((rows.get? s.1).getD [])) g = some g' ∧
      counts = specs.map fun s => (s.1, ((rows.get? s.1).getD []).length) := by
  have hrows : ∀ (mergeCypher : List Clause) (l : List Row) (g : Graph Value),
      runAll syncRunId (batches mergeCypher l) g = loadRows syncRunId batchSize mergeCypher g l := by
    intro mergeCypher l g
    rw [runAll, batches, List.foldlM_map]
    rfl
  induction specs generalizing g counts with
  | nil =>
    obtain ⟨rfl, rfl⟩ := Prod.mk.inj (Option.some.inj h)
    exact ⟨rfl, rfl⟩
  | cons s specs ih =>
    obtain ⟨name, mergeCypher⟩ := s
    simp only [loadSpecs, Option.bind_eq_bind, Option.bind_eq_some_iff] at h
    obtain ⟨specRows, hget, g₁, hload, ⟨g₂, counts'⟩, hrest, hpair⟩ := h
    obtain ⟨rfl, rfl⟩ := Prod.mk.inj (Option.some.inj hpair)
    obtain ⟨hrun, rfl⟩ := ih hrest
    simp only [List.flatMap_cons, List.map_cons, hget, Option.getD_some]
    refine ⟨runAll_append_eq_some.2 ⟨g₁, ?_, hrun⟩, trivial⟩
    rw [hrows, hload]

/-- The statements of a run are those of `load_all`. -/
theorem runAll_queue {run : Run} {g : Graph Value} {nodeCounts relCounts : List (String × ℕ)}
    (h : loadAll run.syncRunId batchSize run.nodes run.rels = some (g, nodeCounts, relCounts)) :
    runAll run.syncRunId run.queue Graph.empty = some g ∧
      nodeCounts = run.expectedNodeCounts ∧ relCounts = run.expectedRelCounts := by
  simp only [loadAll, Option.bind_eq_bind, Option.bind_eq_some_iff] at h
  obtain ⟨⟨g₁, nodeCounts'⟩, hnodes, ⟨g₂, relCounts'⟩, hrels, hpair⟩ := h
  obtain ⟨rfl, hcounts⟩ := Prod.mk.inj (Option.some.inj hpair)
  obtain ⟨rfl, rfl⟩ := Prod.mk.inj hcounts
  obtain ⟨hrun, rfl⟩ := runAll_of_loadSpecs hnodes
  obtain ⟨hrun', rfl⟩ := runAll_of_loadSpecs hrels
  rw [List.flatMap_map] at hrun hrun'
  have hschema : runAll run.syncRunId (.replicate run.constraints .schema) .empty = some .empty :=
    runAll_schema (fun _ hw => List.eq_of_mem_replicate hw) Graph.empty
  refine ⟨runAll_append_eq_some.2 ⟨_, hschema, runAll_append_eq_some.2 ⟨g₁, hrun, hrun'⟩⟩, ?_, ?_⟩
  · exact List.map_map ..
  · exact List.map_map ..

/-- The promotion on a quiet cluster. -/
theorem quiet_promote (run : Run) (c : Cluster) (expected : String) :
    let promotion := Promotion.retryPromote run.newDb (some expected) (fun _ => .ok) c.server
    quiet run 5 (c, .promote expected .databaseExists) =
      ({ c with server := promotion.1 }, .promote expected promotion.2) := rfl

end Sync
