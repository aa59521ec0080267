import Text2Cypher.Library.WaveCycles
import Text2Cypher.Planning.Validation

/-!
# Dependency order

`_topological_order` as its loop runs: the pending items with the dependencies that are left, round
after round, until nothing is pending.  The rounds are counted, so that it shows that they end.

* `runRounds_eq_sweep`: the loop over shrinking sets is the sweep over what is done;
* **`topologicalRounds_spec`**: it ends, with an order or stuck, and it is stuck exactly if some item
  depends on itself or on an unknown id.
-/

namespace Dict

variable {κ ν : Type} [DecidableEq κ]

/-- `del d[k]`. -/
def erase (d : Dict κ ν) (k : κ) : Dict κ ν where
  entries := d.entries.filter fun entry => entry.1 ≠ k
  nodup := d.nodup.sublist (List.filter_sublist.map Prod.fst)

end Dict

namespace Planning

section

variable {α : Type} (id : α → String) (dependsOn : α → List String)

/-! ### The loop -/

/-- The pending ids with the dependencies that are left. -/
abbrev Pending := Dict String (List String)

/-- `pending` at the start; a set is a list without repetitions. -/
def pendingOf (items : List α) : Pending :=
  Dict.ofEntries (items.map fun item => (id item, (dependsOn item).dedup))

/-- The ids that are pending and have no dependency left, in the order of the items. -/
def readyIds (items : List α) (pending : Pending) : List String :=
  (items.map id).filter fun subqueryId => pending.get? subqueryId = some []

/-- One id of `ready`: its item is listed, and it is no longer pending for itself nor for others. -/
def takeReady (byId : Dict String α) (state : List α × Pending) (subqueryId : String) :
    List α × Pending :=
  (state.1 ++ (byId.get? subqueryId).toList,
    (state.2.erase subqueryId).mapValues fun dependencies =>
      dependencies.filter fun dependency => dependency ≠ subqueryId)

/-- `while pending`, for so many rounds; `none` if the loop has not ended by then. -/
def runRounds (byId : Dict String α) (items : List α) :
    ℕ → List α × Pending → Option (Except PlanError (List α))
  | rounds, (ordered, pending) =>
      if pending.entries = [] then some (.ok ordered)
      else
        match rounds with
        | 0 => none
        | rounds + 1 =>
            let ready := readyIds id items pending
            if ready = [] then some (.error cyclicDependency)
            else runRounds byId items rounds (ready.foldl (takeReady byId) (ordered, pending))

/-- `_topological_order`, for so many rounds. -/
def topologicalRounds (rounds : ℕ) (items : List α) : Option (Except PlanError (List α)) :=
  let byId := Dict.ofEntries (items.map fun item => (id item, item))
  if byId.entries.length ≠ items.length then
    some (.error (.valueError "subquery IDs must be unique"))
  else runRounds id byId items rounds ([], pendingOf id dependsOn items)

end

/-! ### What one round does -/

section

variable {α : Type} {id : α → String} {dependsOn : α → List String} {byId : Dict String α}

/-- The dependencies of an item that are left when some ids are done. -/
def left (dependsOn : α → List String) (done : List String) (item : α) : List String :=
  (dependsOn item).dedup.filter fun dependency => dependency ∉ done

/-- The items that are not done. -/
def undone (id : α → String) (done : List String) (items : List α) : List α :=
  items.filter fun item => id item ∉ done

/-- The pending ids are those of the items that are not done, each with what is left. -/
def Matches (id : α → String) (dependsOn : α → List String) (items ordered : List α)
    (pending : Pending) : Prop :=
  pending.entries = (undone id (ordered.map id) items).map fun item =>
    (id item, left dependsOn (ordered.map id) item)

theorem left_eq_nil {done : List String} {item : α} :
    left dependsOn done item = [] ↔ (dependsOn item).all (· ∈ done) = true := by
  simp [left, List.filter_eq_nil_iff]

theorem get?_of_matches {items ordered : List α} {pending : Pending}
    (h : Matches id dependsOn items ordered pending) (hnodup : (items.map id).Nodup) {item : α}
    (hitem : item ∈ items) :
    pending.get? (id item) = some [] ↔
      id item ∉ ordered.map id ∧ (dependsOn item).all (· ∈ ordered.map id) = true := by
  rw [Dict.get?_eq_some_iff, h, List.mem_map, ← left_eq_nil]
  constructor
  · rintro ⟨other, hother, heq⟩
    rw [Prod.mk.injEq] at heq
    obtain ⟨hmem, hundone⟩ := List.mem_filter.1 hother
    obtain rfl := List.inj_on_of_nodup_map hnodup hmem hitem heq.1
    exact ⟨of_decide_eq_true hundone, heq.2⟩
  · rintro ⟨hundone, hleft⟩
    exact ⟨item, List.mem_filter.2 ⟨hitem, decide_eq_true hundone⟩, by rw [hleft]⟩

/-- The ids that are ready are those of a wave. -/
theorem readyIds_eq {items ordered : List α} {pending : Pending}
    (h : Matches id dependsOn items ordered pending) (hnodup : (items.map id).Nodup) :
    readyIds id items pending = (Waves.ready dependsOn (ordered.map id)
      (undone id (ordered.map id) items)).map id := by
  rw [readyIds, List.filter_map, Waves.ready, undone, List.filter_filter]
  congr 1
  refine List.filter_congr fun item hitem => ?_
  rw [Bool.eq_iff_iff]
  simp only [Function.comp_apply, decide_eq_true_eq, Bool.and_eq_true]
  rw [get?_of_matches h hnodup hitem, and_comm]

/-- What a round makes of the list and of the pending ids. -/
theorem foldl_takeReady {wave : List α} (hwave : ∀ item ∈ wave, byId.get? (id item) = some item)
    (state : List α × Pending) :
    ((wave.map id).foldl (takeReady byId) state).1 = state.1 ++ wave ∧
      ((wave.map id).foldl (takeReady byId) state).2.entries =
        (state.2.entries.filter fun entry => entry.1 ∉ wave.map id).map fun entry =>
          (entry.1, entry.2.filter fun dependency => dependency ∉ wave.map id) := by
  induction wave generalizing state with
  | nil => simp
  | cons item wave ih =>
    rw [List.forall_mem_cons] at hwave
    rw [List.map_cons, List.foldl_cons]
    obtain ⟨hordered, hpending⟩ := ih hwave.2 (takeReady byId state (id item))
    refine ⟨?_, ?_⟩
    · rw [hordered, takeReady, hwave.1, Option.toList_some, List.append_assoc,
        List.singleton_append]
    · rw [hpending]
      simp only [takeReady, Dict.mapValues, Dict.erase, List.filter_map, List.map_map,
        List.filter_filter, Function.comp_def]
      congr 1
      · funext entry
        congr 2
        funext dependency
        rw [Bool.eq_iff_iff]
        simp [and_comm]
      · congr 1
        funext entry
        rw [Bool.eq_iff_iff]
        simp [and_comm]

/-- A round leaves the items that are not in its wave. -/
theorem undone_append (items ordered wave : List α) :
    undone id ((ordered ++ wave).map id) items =
      Waves.rest id wave (undone id (ordered.map id) items) := by
  simp only [undone, Waves.rest, List.filter_filter]
  congr 1
  funext item
  simp only [List.map_append, List.mem_append, not_or, Bool.decide_and, Bool.and_comm]

theorem left_append (ordered wave : List α) (item : α) :
    left dependsOn ((ordered ++ wave).map id) item =
      (left dependsOn (ordered.map id) item).filter fun dependency =>
        dependency ∉ wave.map id := by
  simp only [left, List.filter_filter]
  congr 1
  funext dependency
  simp only [List.map_append, List.mem_append, not_or, Bool.decide_and, Bool.and_comm]

/-- **One round** is one wave. -/
theorem matches_foldl_takeReady {items ordered wave : List α} {pending : Pending}
    (h : Matches id dependsOn items ordered pending)
    (hwave : ∀ item ∈ wave, byId.get? (id item) = some item) :
    Matches id dependsOn items ((wave.map id).foldl (takeReady byId) (ordered, pending)).1
      ((wave.map id).foldl (takeReady byId) (ordered, pending)).2 := by
  obtain ⟨hordered, hpending⟩ := foldl_takeReady hwave (ordered, pending)
  unfold Matches at h ⊢
  rw [hordered, hpending, h, undone_append, Waves.rest, List.filter_map, List.map_map]
  refine List.map_congr_left fun item _ => ?_
  simp only [Function.comp_apply, left_append]

/-! ### The whole loop -/

/-- **The loop is the sweep.** -/
theorem runRounds_eq_sweep {items : List α} (hnodup : (items.map id).Nodup)
    (hbyId : ∀ item ∈ items, byId.get? (id item) = some item) {rounds : ℕ} {ordered : List α}
    {pending : Pending} (hrounds : (undone id (ordered.map id) items).length ≤ rounds)
    (hmatches : Matches id dependsOn items ordered pending) :
    runRounds id byId items rounds (ordered, pending) =
      some (Waves.sweep id dependsOn (List.map id) (fun s wave => .ok (s ++ wave))
        cyclicDependency rounds ordered (undone id (ordered.map id) items)) := by
  have hempty : pending.entries = [] ↔ undone id (ordered.map id) items = [] := by
    rw [hmatches, List.map_eq_nil_iff]
  induction rounds generalizing ordered pending with
  | zero =>
    have hnil := List.length_eq_zero_iff.1 (Nat.le_zero.1 hrounds)
    rw [runRounds, if_pos (hempty.2 hnil), hnil]
    rfl
  | succ rounds ih =>
    cases hundone : undone id (ordered.map id) items with
    | nil =>
      rw [runRounds, if_pos (hempty.2 hundone)]
      rfl
    | cons item rest =>
      rw [runRounds, if_neg fun h => by simp [hempty.1 h] at hundone]
      simp only [readyIds_eq hmatches hnodup, List.map_eq_nil_iff, Waves.sweep, ← hundone]
      split_ifs with hready
      · rfl
      · have hwave : ∀ item ∈ Waves.ready dependsOn (ordered.map id)
            (undone id (ordered.map id) items), byId.get? (id item) = some item := fun item hitem =>
          hbyId item (List.mem_filter.1 (Waves.mem_ready.1 hitem).1).1
        have hnext := matches_foldl_takeReady hmatches hwave
        have hordered := (foldl_takeReady hwave (ordered, pending)).1
        generalize ((Waves.ready dependsOn (ordered.map id)
          (undone id (ordered.map id) items)).map id).foldl (takeReady byId) (ordered, pending) =
            state at hnext hordered ⊢
        obtain ⟨ordered', pending'⟩ := state
        simp only at hnext hordered
        subst hordered
        have hempty' : pending'.entries = [] ↔ undone id ((ordered ++ Waves.ready dependsOn
            (ordered.map id) (undone id (ordered.map id) items)).map id) items = [] := by
          rw [hnext, List.map_eq_nil_iff]
        rw [← undone_append]
        refine ih ?_ hnext hempty'
        have hlength : (Waves.rest id (Waves.ready dependsOn (ordered.map id)
            (undone id (ordered.map id) items)) (undone id (ordered.map id) items)).length <
              (undone id (ordered.map id) items).length := Waves.length_rest_lt hready
        rw [undone_append]
        omega

theorem pendingOf_matches {items : List α} (hnodup : (items.map id).Nodup) :
    Matches id dependsOn items [] (pendingOf id dependsOn items) := by
  have hkeys : ((items.map fun item => (id item, (dependsOn item).dedup)).map Prod.fst).Nodup := by
    rw [List.map_map]
    exact hnodup
  rw [Matches, pendingOf, Dict.entries_ofEntries hkeys]
  simp [undone, left]

/-- **The loop ends**, and what it returns is the order in which a sweep takes the items. -/
theorem topologicalRounds_eq (id : α → String) (dependsOn : α → List String) {items : List α}
    {rounds : ℕ} (hrounds : items.length ≤ rounds) :
    topologicalRounds id dependsOn rounds items = some (topologicalOrder id dependsOn items) := by
  have hkeys : (items.map fun item => (id item, item)).map Prod.fst = items.map id := by
    rw [List.map_map]
    rfl
  have hlength : (Dict.ofEntries (items.map fun item => (id item, item))).entries.length ≠
      items.length ↔ ¬ (items.map id).Nodup := by
    rw [← hkeys, ← Dict.length_ofEntries_eq_iff, List.length_map]
  unfold topologicalRounds
  by_cases hnodup : (items.map id).Nodup
  · have hbyId : ∀ item ∈ items,
        (Dict.ofEntries (items.map fun item => (id item, item))).get? (id item) = some item := by
      intro item hitem
      rw [Dict.get?_eq_some_iff, Dict.entries_ofEntries (hkeys ▸ hnodup)]
      exact List.mem_map.2 ⟨item, hitem, rfl⟩
    have hundone : undone id (([] : List α).map id) items = items := by simp [undone]
    have hmatches : Matches id dependsOn items [] (pendingOf id dependsOn items) :=
      pendingOf_matches hnodup
    have hloop := runRounds_eq_sweep hnodup hbyId (show _ ≤ rounds by rwa [hundone]) hmatches
    simp only [hundone] at hloop
    rw [Waves.sweep_eq_sweep hrounds le_rfl, ← Waves.order] at hloop
    rw [if_neg (hlength.not.2 (not_not.2 hnodup)), hloop]
    simp only [topologicalOrder, Checks.require, if_pos hnodup]
    rfl
  · rw [if_pos (hlength.2 hnodup)]
    simp only [topologicalOrder, Checks.require, if_neg hnodup]
    rfl

/-- Each item comes after all items it depends on, directly or through others. -/
def AfterDependencies (id : α → String) (dependsOn : α → List String) (ordered : List α) : Prop :=
  ∀ before item after, ordered = before ++ item :: after →
    ∀ d, Waves.Reaches id dependsOn ordered (id item) d → ∃ other ∈ before, id other = d

/-- **Dependency ordering**: for items with unique ids the loop ends; it raises just if some item
depends on itself or on an unknown id, directly or through others; what it returns has the same
items, each after its dependencies, and is returned as it is when it is ordered again. -/
theorem topologicalRounds_spec (id : α → String) (dependsOn : α → List String) (items : List α)
    (hnodup : (items.map id).Nodup) :
    ∃ result, (∀ rounds, items.length ≤ rounds →
        topologicalRounds id dependsOn rounds items = some result) ∧
      ((∃ e, result = .error e) ↔ Waves.Unmeetable id dependsOn items) ∧
      ∀ ordered, result = .ok ordered →
        ordered.Perm items ∧ AfterDependencies id dependsOn ordered ∧
          ∀ rounds, ordered.length ≤ rounds →
            topologicalRounds id dependsOn rounds ordered = some (.ok ordered) := by
  refine ⟨topologicalOrder id dependsOn items, fun rounds hrounds =>
    topologicalRounds_eq id dependsOn hrounds, ?_, fun ordered hordered => ?_⟩
  · have horder : topologicalOrder id dependsOn items =
        Waves.order id dependsOn cyclicDependency items := by
      simp only [topologicalOrder, Checks.require, if_pos hnodup]
      rfl
    rw [horder, ← not_iff_not, ← Waves.order_eq_ok_iff cyclicDependency hnodup]
    cases Waves.order id dependsOn cyclicDependency items with
    | ok ordered => simp
    | error e => simp
  · have horder := (topologicalOrder_eq_ok.1 hordered).2
    obtain ⟨hperm, hafter, hagain⟩ := Waves.order_spec hnodup horder
    have hnodup' : (ordered.map id).Nodup := (hperm.map id).nodup_iff.2 hnodup
    refine ⟨hperm, fun before item after hl d hreach => ?_, fun rounds hrounds => ?_⟩
    · exact List.mem_map.1 (hafter.reaches hnodup' hreach before item after hl rfl)
    · rw [topologicalRounds_eq id dependsOn hrounds, topologicalOrder_eq_ok.2 ⟨hnodup', hagain⟩]

/-- Three subqueries of which the first waits for the other two. -/
theorem topologicalRounds_spec_waiting :
    ∃ result, (∀ rounds, 3 ≤ rounds →
        topologicalRounds Prod.fst Prod.snd rounds
          [("Q3", ["Q1", "Q2"]), ("Q1", []), ("Q2", ["Q1"])] = some result) ∧
      ((∃ e, result = .error e) ↔ Waves.Unmeetable Prod.fst Prod.snd
        [("Q3", ["Q1", "Q2"]), ("Q1", []), ("Q2", ["Q1"])]) ∧
      ∀ ordered, result = .ok ordered →
        ordered.Perm [("Q3", ["Q1", "Q2"]), ("Q1", []), ("Q2", ["Q1"])] ∧
          AfterDependencies Prod.fst Prod.snd ordered ∧
          ∀ rounds, ordered.length ≤ rounds →
            topologicalRounds Prod.fst Prod.snd rounds ordered = some (.ok ordered) :=
  topologicalRounds_spec Prod.fst Prod.snd [("Q3", ["Q1", "Q2"]), ("Q1", []), ("Q2", ["Q1"])]
    (by decide)

end

end Planning
