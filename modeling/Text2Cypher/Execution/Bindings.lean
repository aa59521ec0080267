import Text2Cypher.Planning.Subquery
import Text2Cypher.Retry.Agent

/-!
# Input bindings

`collect_input_bindings` turns the rows of the producers into the arrays that a later query is
given: one array for each binding, with the values of one field, row by row.

* `collectInputBindings_spec`: when every source is there, and what the arrays are.
-/

namespace Execution

open Checks Planning Query Retry

variable {V : Type}

/-- The loop over the rows of one producer. -/
def projectRows (dependencyId field : String) : ℕ → List (Row V) → Except String (List V)
  | _, [] => .ok []
  | rowIndex, row :: rows =>
      let place := "input binding dependency '" ++ dependencyId ++ "'의 " ++ toString rowIndex
      match row with
      | .other _ => .error (place ++ "번 행은 객체여야 합니다.")
      | .dict _ =>
          match row.field? field with
          | none => .error (place ++ "번 행에 source field '" ++ field ++ "'가 없습니다.")
          | some value => do
              let projected ← projectRows dependencyId field (rowIndex + 1) rows
              return value :: projected

/-- The array of one binding. -/
def projectSource (upstreamRows : Dict String (Result V)) (source : String) :
    Except String (List V) :=
  match splitDot source with
  | none => .error "not enough values to unpack (expected 2, got 1)"
  | some (dependencyId, field) =>
      match upstreamRows.get? dependencyId with
      | none => .error
          ("input binding 실행 계획에 dependency '" ++ dependencyId ++ "' 결과가 없습니다.")
      | some (.list rows) => projectRows dependencyId field 0 rows
      | some _ => .error
          ("input binding dependency '" ++ dependencyId ++ "' 결과는 list여야 합니다.")

def collectFrom (upstreamRows : Dict String (Result V)) :
    Dict String (List V) → List (String × String) → Except String (Dict String (List V))
  | result, [] => .ok result
  | result, (inputName, source) :: rest => do
      let projected ← projectSource upstreamRows source
      collectFrom upstreamRows (result.set inputName projected) rest

/-- `collect_input_bindings`. -/
def collectInputBindings (bindings : Dict String String)
    (upstreamRows : Dict String (Result V)) : Except String (Dict String (List V)) :=
  collectFrom upstreamRows .empty bindings.entries

/-! ### What is collected -/

/-- Rows that all have a field can be projected to it. -/
theorem exists_projection {field : String} {rows : List (Row V)}
    (h : ∀ row ∈ rows, row.hasAlias field = true) :
    ∃ array, List.Forall₂ (fun row value => row.field? field = some value) rows array := by
  induction rows with
  | nil => exact ⟨[], .nil⟩
  | cons row rows ih =>
    obtain ⟨array, harray⟩ := ih fun row' hmem => h row' (List.mem_cons_of_mem row hmem)
    obtain ⟨value, hvalue⟩ := Option.isSome_iff_exists.1
      (row.hasAlias_eq field ▸ h row List.mem_cons_self)
    exact ⟨value :: array, .cons hvalue harray⟩

theorem projectRows_eq_ok {dependencyId field : String} {rowIndex : ℕ} {rows : List (Row V)}
    {array : List V} :
    projectRows dependencyId field rowIndex rows = .ok array ↔
      List.Forall₂ (fun row value => row.field? field = some value) rows array := by
  induction rows generalizing rowIndex array with
  | nil =>
    rw [projectRows, Except.ok.injEq, List.forall₂_nil_left_iff]
    exact eq_comm
  | cons row rows ih =>
    rw [List.forall₂_cons_left_iff]
    cases row with
    | other v => simp [projectRows, Row.field?]
    | dict fields =>
      simp only [projectRows]
      cases hvalue : (Row.dict fields).field? field with
      | none => simp
      | some value =>
        simp only [bind_eq_ok, pure_eq_ok, ih, Option.some.injEq]
        constructor
        · rintro ⟨projected, hrows, rfl⟩
          exact ⟨value, projected, rfl, hrows, rfl⟩
        · rintro ⟨_, projected, rfl, hrows, rfl⟩
          exact ⟨projected, hrows, rfl⟩

/-- The array that a source stands for: the values of its field in the rows of its producer, in the
order of the rows. -/
def Projects (upstreamRows : Dict String (Result V)) (source : String) (array : List V) : Prop :=
  ∃ dependencyId field rows, splitDot source = some (dependencyId, field) ∧
    upstreamRows.get? dependencyId = some (.list rows) ∧
    List.Forall₂ (fun row value => row.field? field = some value) rows array

theorem projectSource_eq_ok {upstreamRows : Dict String (Result V)} {source : String}
    {array : List V} :
    projectSource upstreamRows source = .ok array ↔ Projects upstreamRows source array := by
  unfold projectSource Projects
  cases hsplit : splitDot source with
  | none => simp
  | some parts =>
    obtain ⟨dependencyId, field⟩ := parts
    simp only [Option.some.injEq, Prod.mk.injEq]
    constructor
    · intro h
      split at h
      · cases h
      · rename_i rows hrows
        exact ⟨dependencyId, field, rows, ⟨rfl, rfl⟩, hrows, projectRows_eq_ok.1 h⟩
      · cases h
    · rintro ⟨_, _, rows, ⟨rfl, rfl⟩, hrows, hforall⟩
      simp only [hrows]
      exact projectRows_eq_ok.2 hforall

/-- The arrays that a producer's rows are bound to, binding by binding. -/
def Bound (upstreamRows : Dict String (Result V)) (bindings : Dict String String)
    (arrays : Dict String (List V)) : Prop :=
  List.Forall₂ (fun binding array =>
    array.1 = binding.1 ∧ Projects upstreamRows binding.2 array.2) bindings.entries arrays.entries

/-- What is projected from some outcomes is projected from more outcomes. -/
theorem Projects.mono {upstreamRows upstreamRows' : Dict String (Result V)} {source : String}
    {array : List V}
    (hget : ∀ d rows, upstreamRows.get? d = some rows → upstreamRows'.get? d = some rows)
    (h : Projects upstreamRows source array) : Projects upstreamRows' source array := by
  obtain ⟨dependencyId, field, rows, hsplit, hrows, hforall⟩ := h
  exact ⟨dependencyId, field, rows, hsplit, hget _ _ hrows, hforall⟩

/-- Arrays of one producer are equally long, and have as many elements as it has rows. -/
theorem Projects.length_eq {upstreamRows : Dict String (Result V)} {source source' : String}
    {array array' : List V} (h : Projects upstreamRows source array)
    (h' : Projects upstreamRows source' array')
    (hsame : (splitDot source).map Prod.fst = (splitDot source').map Prod.fst) :
    array.length = array'.length := by
  obtain ⟨d, field, rows, hsplit, hrows, hforall⟩ := h
  obtain ⟨d', field', rows', hsplit', hrows', hforall'⟩ := h'
  rw [hsplit, hsplit', Option.map_some, Option.map_some, Option.some.injEq] at hsame
  obtain rfl : d = d' := hsame
  obtain rfl : rows = rows' := by simpa using hrows.symm.trans hrows'
  rw [← hforall.length_eq, hforall'.length_eq]

theorem Bound.mono {upstreamRows upstreamRows' : Dict String (Result V)}
    {bindings : Dict String String} {arrays : Dict String (List V)}
    (hget : ∀ d rows, upstreamRows.get? d = some rows → upstreamRows'.get? d = some rows)
    (h : Bound upstreamRows bindings arrays) : Bound upstreamRows' bindings arrays :=
  List.Forall₂.imp (fun _ _ hb => ⟨hb.1, hb.2.mono hget⟩) h

/-- The array that is bound to a target. -/
theorem Bound.projects {upstreamRows : Dict String (Result V)} {bindings : Dict String String}
    {arrays : Dict String (List V)} (h : Bound upstreamRows bindings arrays)
    {target source : String} (hmem : (target, source) ∈ bindings.entries) {array : List V}
    (hget : arrays.get? target = some array) : Projects upstreamRows source array := by
  obtain ⟨binding, hbinding, htarget, hprojects⟩ :=
    exists_of_forall₂ h (Dict.get?_eq_some_iff.1 hget)
  obtain rfl : binding = (target, source) :=
    List.inj_on_of_nodup_map bindings.nodup hbinding hmem htarget.symm
  exact hprojects

theorem collectFrom_isOk {upstreamRows : Dict String (Result V)} {bindings : List (String × String)}
    {result : Dict String (List V)}
    (hnodup : (result.keys ++ bindings.map Prod.fst).Nodup)
    (h : ∀ binding ∈ bindings, ∃ array, Projects upstreamRows binding.2 array) :
    ∃ collected added, collectFrom upstreamRows result bindings = .ok collected ∧
      collected.entries = result.entries ++ added ∧
      List.Forall₂ (fun binding array => array.1 = binding.1 ∧
        Projects upstreamRows binding.2 array.2) bindings added := by
  induction bindings generalizing result with
  | nil => exact ⟨result, [], rfl, (List.append_nil _).symm, .nil⟩
  | cons binding bindings ih =>
    obtain ⟨inputName, source⟩ := binding
    obtain ⟨array, harray⟩ := h _ List.mem_cons_self
    have hnew : inputName ∉ result.keys := fun hmem =>
      (List.nodup_append.1 hnodup).2.2 _ hmem _ List.mem_cons_self rfl
    have hentries := Dict.entries_set_of_not_mem hnew array
    have hnodup' : ((result.set inputName array).keys ++ bindings.map Prod.fst).Nodup := by
      rw [Dict.keys, hentries, List.map_append, List.append_assoc]
      exact hnodup
    obtain ⟨collected, added, hrun, hcollected, hforall⟩ := ih hnodup' fun binding hbinding =>
      h binding (List.mem_cons_of_mem _ hbinding)
    refine ⟨collected, (inputName, array) :: added, ?_, ?_, .cons ⟨rfl, harray⟩ hforall⟩
    · exact bind_eq_ok.2 ⟨array, projectSource_eq_ok.2 harray, hrun⟩
    · rw [hcollected, hentries, List.append_assoc, List.singleton_append]

/-- **When every source can be projected**, the arrays are the projections, in the order of the
bindings. -/
theorem collectInputBindings_spec {upstreamRows : Dict String (Result V)}
    {bindings : Dict String String}
    (h : ∀ source ∈ bindings.values, ∃ array, Projects upstreamRows source array) :
    ∃ arrays, collectInputBindings bindings upstreamRows = .ok arrays ∧
      Bound upstreamRows bindings arrays := by
  have hnodup : ((Dict.empty : Dict String (List V)).keys ++ bindings.entries.map Prod.fst).Nodup :=
    bindings.nodup
  obtain ⟨arrays, added, hrun, hentries, hforall⟩ := collectFrom_isOk hnodup fun binding hbinding =>
    h binding.2 (List.mem_map_of_mem hbinding)
  refine ⟨arrays, hrun, ?_⟩
  rw [Bound, hentries]
  exact hforall

end Execution
