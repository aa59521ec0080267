import Text2Cypher.Composition.Results

/-!
# Flaws of two sources

A row or a pair of rows that the joined composition rejects is a flaw; the message about it quotes
values of the rows, and values that `repr` does not print make an exception of it.  The composition
ends at the first flaw in reading order.

* `Follows`: what a loop does with and without flaws, with the rules that put loops together;
* `follows_leftKeyed`, `follows_rightByKey`, `follows_joinRows`: the three loops of
  `_compose_joined`.
-/

namespace Composition

open Checks Planning Query

variable {V : Type} [PyValue V]

/-! ### Reading in order -/

/-- All values can be printed. -/
def Printable (values : List V) : Prop := ∀ v ∈ values, ∃ text, PyValue.repr v = .ok text

/-- A computation that meets flaws one after the other, each given by the values it quotes: it stops
at the first one, with a message if the values can be printed, and else with an exception; without
flaws it returns what it should. -/
def Follows {α : Type} (flaws : List (List V)) (x : Except Stop α) (returns : α → Prop) : Prop :=
  match flaws with
  | [] => ∃ a, x = .ok a ∧ returns a
  | quoted :: _ => (Printable quoted → ∃ message, x = .error (.failure message)) ∧
      (¬ Printable quoted → ∃ exception, x = .error (.raised exception))

theorem Follows.pure {α : Type} {a : α} {returns : α → Prop} (h : returns a) :
    Follows ([] : List (List V)) (.ok a) returns := ⟨a, rfl, h⟩

/-- Nothing is said of the flaws behind the first one. -/
theorem Follows.head {α : Type} {quoted : List V} {l l' : List (List V)} {x : Except Stop α}
    {returns returns' : α → Prop} (h : Follows (quoted :: l) x returns) :
    Follows (quoted :: l') x returns' := h

/-- What comes behind a flaw does not matter. -/
theorem Follows.stop {α β : Type} {quoted : List V} {l l' : List (List V)} {x : Except Stop α}
    {f : α → Except Stop β} {returns : α → Prop} {returns' : β → Prop}
    (h : Follows (quoted :: l) x returns) : Follows (quoted :: l') (x >>= f) returns' := by
  refine ⟨fun hprint => ?_, fun hprint => ?_⟩
  · obtain ⟨message, rfl⟩ := h.1 hprint
    exact ⟨message, rfl⟩
  · obtain ⟨exception, rfl⟩ := h.2 hprint
    exact ⟨exception, rfl⟩

theorem Follows.bind {α β : Type} {flaws flaws' : List (List V)} {x : Except Stop α}
    {f : α → Except Stop β} {returns : α → Prop} {returns' : β → Prop} (h : Follows flaws x returns)
    (hf : ∀ a, returns a → Follows flaws' (f a) returns') :
    Follows (flaws ++ flaws') (x >>= f) returns' := by
  cases flaws with
  | nil =>
    obtain ⟨a, rfl, ha⟩ := h
    exact hf a ha
  | cons quoted rest => exact h.stop

theorem Follows.imp {α : Type} {flaws : List (List V)} {x : Except Stop α}
    {returns returns' : α → Prop} (h : Follows flaws x returns)
    (himp : ∀ a, returns a → returns' a) : Follows flaws x returns' := by
  cases flaws with
  | nil =>
    obtain ⟨a, hx, ha⟩ := h
    exact ⟨a, hx, himp a ha⟩
  | cons quoted rest => exact h

/-- The result may be used together with the absence of flaws. -/
theorem Follows.and_nil {α : Type} {flaws : List (List V)} {x : Except Stop α}
    {returns : α → Prop} (h : Follows flaws x returns) :
    Follows flaws x fun a => flaws = [] ∧ returns a := by
  cases flaws with
  | nil =>
    obtain ⟨a, hx, ha⟩ := h
    exact ⟨a, hx, rfl, ha⟩
  | cons quoted rest => exact h

theorem Follows.map {α β : Type} {flaws : List (List V)} {x : Except Stop α} {f : α → β}
    {returns : α → Prop} {returns' : β → Prop} (h : Follows flaws x returns)
    (hf : ∀ a, returns a → returns' (f a)) :
    Follows flaws (x >>= fun a => Pure.pure (f a)) returns' := by
  rw [← List.append_nil flaws]
  exact h.bind fun a ha => .pure (hf a ha)

/-- A message that quotes some values. -/
theorem follows_failWith {α : Type} {quoted : List V} {message : Except PyException String}
    (returns : α → Prop) (hok : Printable quoted → ∃ text, message = .ok text)
    (herror : ¬ Printable quoted → ∃ exception, message = .error exception) :
    Follows [quoted] (failWith message) returns := by
  refine ⟨fun hprint => ?_, fun hprint => ?_⟩
  · obtain ⟨text, rfl⟩ := hok hprint
    exact ⟨text, rfl⟩
  · obtain ⟨exception, rfl⟩ := herror hprint
    exact ⟨exception, rfl⟩

/-- A message that quotes nothing. -/
theorem follows_failure {α : Type} {message : String} {returns : α → Prop} :
    Follows ([[]] : List (List V)) (.error (.failure message)) returns :=
  ⟨fun _ => ⟨message, rfl⟩, fun h => absurd (by simp [Printable]) h⟩

theorem mapM_repr (values : List V) :
    (Printable values → ∃ texts, values.mapM PyValue.repr = .ok texts) ∧
      (¬ Printable values → ∃ exception, values.mapM PyValue.repr = .error exception) := by
  induction values with
  | nil => exact ⟨fun _ => ⟨[], rfl⟩, fun h => absurd (by simp [Printable]) h⟩
  | cons v values ih =>
    rw [List.mapM_cons]
    cases hv : PyValue.repr v with
    | error exception =>
      refine ⟨fun h => ?_, fun _ => ⟨exception, rfl⟩⟩
      obtain ⟨text, htext⟩ := h v List.mem_cons_self
      rw [hv] at htext
      cases htext
    | ok text =>
      refine ⟨fun h => ?_, fun h => ?_⟩
      · obtain ⟨texts, htexts⟩ := ih.1 fun v' hv' => h v' (List.mem_cons_of_mem v hv')
        rw [htexts]
        exact ⟨text :: texts, rfl⟩
      · have hrest : ¬ Printable values := by
          intro hrest
          refine h fun v' hv' => ?_
          rcases List.mem_cons.1 hv' with rfl | hv'
          · exact ⟨text, hv⟩
          · exact hrest v' hv'
        obtain ⟨exception, hexception⟩ := ih.2 hrest
        rw [hexception]
        exact ⟨exception, rfl⟩

theorem reprTuple_spec (values : List V) :
    (Printable values → ∃ text, Python.reprTuple values = .ok text) ∧
      (¬ Printable values → ∃ exception, Python.reprTuple values = .error exception) := by
  unfold Python.reprTuple
  refine ⟨fun h => ?_, fun h => ?_⟩
  · obtain ⟨texts, htexts⟩ := (mapM_repr values).1 h
    rw [htexts]
    rcases texts with _ | ⟨text, _ | _⟩
    all_goals exact ⟨_, rfl⟩
  · obtain ⟨exception, hexception⟩ := (mapM_repr values).2 h
    rw [hexception]
    exact ⟨exception, rfl⟩

/-- A message about a key. -/
theorem follows_reprTuple {α : Type} (key : List V) (l : List (List V)) (f : String → String)
    {returns : α → Prop} :
    Follows (key :: l) (failWith do
      let text ← Python.reprTuple key
      return f text) returns := by
  refine Follows.head (l := []) (follows_failWith returns ?_ ?_)
  · intro hprint
    obtain ⟨text, htext⟩ := (reprTuple_spec key).1 hprint
    rw [htext]
    exact ⟨_, rfl⟩
  · intro hprint
    obtain ⟨exception, hexception⟩ := (reprTuple_spec key).2 hprint
    rw [hexception]
    exact ⟨exception, rfl⟩

/-! ### Flaws -/

/-- The value of a field that is there and is not `None`. -/
def presentValue (row : Dict String V) (key : String) : Option V :=
  (row.get? key).bind fun value => if isNone value then none else some value

/-- The values of the join keys, if the row has all of them and none is `None`. -/
def keyOf (joinKeys : List String) (row : Dict String V) : Option (List V) :=
  joinKeys.mapM (presentValue row)

/-- What is quoted of a row without a usable key. -/
def keyFlaw (joinKeys : List String) (row : Dict String V) : Option (List V) :=
  match keyOf joinKeys row with
  | none => some []
  | some key => if key.all PyValue.hashable then none else some key

/-- Two rows have equal keys. -/
def matching (joinKeys : List String) (left right : Dict String V) : Bool :=
  match keyOf joinKeys left, keyOf joinKeys right with
  | some key, some key' => key == key'
  | _, _ => false

/-- What is quoted of a right row without a usable key, or with a key that no left row has. -/
def rightFlaw (joinKeys : List String) (leftRows : List (Dict String V)) (row : Dict String V) :
    Option (List V) :=
  (keyFlaw joinKeys row).or
    (if leftRows.any fun left => matching joinKeys left row then none else keyOf joinKeys row)

/-- The disagreement of a row with one field of another: the two values. -/
def conflict (joinKeys : List String) (left : Dict String V) (entry : String × V) :
    Option (List V) :=
  if entry.1 ∈ joinKeys then none
  else (left.get? entry.1).bind fun present =>
    if present == entry.2 then none else some [present, entry.2]

/-- The disagreements of two rows outside the key. -/
def conflicts (joinKeys : List String) (left right : Dict String V) : List (List V) :=
  right.entries.filterMap (conflict joinKeys left)

/-- The reference join: the pairs of rows with equal keys, in the order of the nested loops. -/
def matchingPairs (joinKeys : List String) (left right : List (Dict String V)) :
    List (Dict String V × Dict String V) :=
  (left.product right).filter fun pair => matching joinKeys pair.1 pair.2

/-- The flaws of two sources, in reading order. -/
def flaws (joinKeys : List String) (left right : List (Dict String V)) : List (List V) :=
  left.filterMap (keyFlaw joinKeys) ++ right.filterMap (rightFlaw joinKeys left) ++
    (matchingPairs joinKeys left right).flatMap fun pair => conflicts joinKeys pair.1 pair.2

/-- A row that agrees with both rows it comes from. -/
structure Merged (pair : Dict String V × Dict String V) (row : Dict String V) : Prop where
  fields : ∀ f, row.get? f = (pair.1.get? f).or (pair.2.get? f)
  left : ∀ f v, pair.1.get? f = some v → row.get? f = some v
  right : ∀ f v, pair.2.get? f = some v → ∃ w, row.get? f = some w ∧ (w == v) = true

/-! ### Keys -/

theorem keyValues_spec (label : String) (row : Dict String V) (joinKeys : List String) :
    match keyOf joinKeys row with
    | some key => keyValues label row joinKeys = .ok key
    | none => ∃ message, keyValues label row joinKeys = .error (.failure message) := by
  unfold keyOf
  induction joinKeys with
  | nil => rfl
  | cons name joinKeys ih =>
    rw [List.mapM_cons]
    cases hget : row.get? name with
    | none => simp [keyValues, presentValue, hget]
    | some value =>
      by_cases hnone : isNone value
      · simp [keyValues, presentValue, hget, hnone]
      · have hpresent : presentValue row name = some value := by
          simp [presentValue, hget, hnone]
        rw [hpresent]
        cases hrest : joinKeys.mapM (presentValue row) with
        | none =>
          rw [hrest] at ih
          obtain ⟨message, hmessage⟩ := ih
          refine ⟨message, ?_⟩
          simp only [keyValues, hget, hnone, hmessage]
          rfl
        | some key =>
          rw [hrest] at ih
          show keyValues label row (name :: joinKeys) = .ok (value :: key)
          simp only [keyValues, hget, hnone, ih]
          rfl

theorem follows_rowKey (joinKeys : List String) (subquery : Subquery) (rowIndex : ℕ)
    (row : Dict String V) :
    Follows (keyFlaw joinKeys row).toList (rowKey joinKeys subquery rowIndex row)
      fun key => keyOf joinKeys row = some key := by
  have hkey := keyValues_spec (sourceLabel subquery ++ " " ++ toString rowIndex ++ "번 행") row
    joinKeys
  unfold keyFlaw rowKey
  dsimp only
  cases hof : keyOf joinKeys row with
  | none =>
    rw [hof] at hkey
    obtain ⟨message, hmessage⟩ := hkey
    rw [hmessage, error_bind]
    exact follows_failure
  | some key =>
    rw [hof] at hkey
    rw [hkey, ok_bind]
    by_cases hhash : key.all PyValue.hashable
    · simp only [hhash, if_true]
      exact .pure rfl
    · simp only [hhash]
      exact follows_reprTuple key [] fun text =>
        sourceLabel subquery ++ " " ++ toString rowIndex ++ "번 행" ++
          "의 join key 값은 hashable해야 합니다: " ++ text

theorem filterMap_cons_append {α β : Type} (f : α → Option β) (a : α) (l : List α) :
    (a :: l).filterMap f = (f a).toList ++ l.filterMap f := by
  rw [List.filterMap_cons]
  cases f a <;> rfl

/-- The key of a row that has been read. -/
def usableKey (joinKeys : List String) (row : Dict String V) : List V :=
  (keyOf joinKeys row).getD []

theorem follows_leftKeyed (joinKeys : List String) (subquery : Subquery)
    (rows : List (Dict String V)) (index : ℕ) :
    Follows (rows.filterMap (keyFlaw joinKeys)) (leftKeyed joinKeys subquery index rows)
      fun keyed => keyed = rows.map fun row => (usableKey joinKeys row, row) := by
  induction rows generalizing index with
  | nil => exact .pure rfl
  | cons row rows ih =>
    rw [filterMap_cons_append]
    refine (follows_rowKey joinKeys subquery index row).bind fun key hkey => ?_
    refine (ih (index + 1)).map fun keyed hkeyed => ?_
    rw [hkeyed, List.map_cons, usableKey, hkey]
    rfl

theorem follows_rightByKey {joinKeys : List String} {subquery : Subquery}
    {leftRows : List (Dict String V)}
    (hleft : ∀ left ∈ leftRows, ∃ key, keyOf joinKeys left = some key)
    (rows : List (Dict String V)) (index : ℕ) (table : Join.Table (List V) (Dict String V)) :
    Follows (rows.filterMap (rightFlaw joinKeys leftRows))
      (rightByKey joinKeys subquery (leftRows.map (usableKey joinKeys)) index table rows)
      fun result => result =
        Join.group table (rows.map fun row => (usableKey joinKeys row, row)) := by
  induction rows generalizing index table with
  | nil => exact .pure rfl
  | cons row rows ih =>
    have hrow := follows_rowKey joinKeys subquery index row
    have hsame : ∀ key, keyOf joinKeys row = some key →
        (leftRows.map (usableKey joinKeys)).any (fun key' => key' == key) =
          leftRows.any fun left => matching joinKeys left row := by
      intro key hkey
      rw [List.any_map]
      rw [Bool.eq_iff_iff, List.any_eq_true, List.any_eq_true]
      refine exists_congr fun left => and_congr_right fun hmem => ?_
      obtain ⟨key', hkey'⟩ := hleft left hmem
      simp [matching, usableKey, hkey, hkey']
    cases hflaw : keyFlaw joinKeys row with
    | some quoted =>
      rw [hflaw] at hrow
      rw [filterMap_cons_append, rightFlaw, hflaw]
      exact hrow.stop
    | none =>
      rw [hflaw] at hrow
      obtain ⟨key, hread, hkey⟩ := hrow
      rw [filterMap_cons_append, rightFlaw, hflaw, rightByKey, hread, ok_bind, hsame key hkey, hkey]
      by_cases hany : leftRows.any fun left => matching joinKeys left row
      · simp only [hany, if_true]
        refine (ih (index + 1) (Join.push table key row)).imp fun result hresult => ?_
        rw [hresult, List.map_cons, usableKey, hkey]
        rfl
      · simp only [hany]
        exact follows_reprTuple key _ fun text => sourceLabel subquery ++ "의 join key " ++ text ++
          "가 선행 결과의 바인딩 범위를 벗어났습니다."

/-! ### Merging rows -/

/-- The value of a field in a list of entries. -/
def entryValue (entries : List (String × V)) (f : String) : Option V :=
  (entries.find? (·.1 = f)).map Prod.snd

theorem follows_mergeFields (joinKeys : List String) (left : Dict String V)
    {entries : List (String × V)} (hnodup : (entries.map Prod.fst).Nodup) {merged : Dict String V}
    (hsame : ∀ entry ∈ entries, merged.get? entry.1 = left.get? entry.1) :
    Follows (entries.filterMap (conflict joinKeys left)) (mergeFields joinKeys merged entries)
      fun row => ∀ f, row.get? f =
        (merged.get? f).or (if f ∈ joinKeys then none else entryValue entries f) := by
  induction entries generalizing merged with
  | nil => exact .pure fun f => by simp [entryValue]
  | cons entry entries ih =>
    obtain ⟨name, value⟩ := entry
    rw [List.map_cons, List.nodup_cons] at hnodup
    have hrest : ∀ entry ∈ entries, merged.get? entry.1 = left.get? entry.1 := fun entry hmem =>
      hsame entry (List.mem_cons_of_mem _ hmem)
    have hname := hsame (name, value) List.mem_cons_self
    rw [filterMap_cons_append]
    by_cases hkey : name ∈ joinKeys
    · rw [mergeFields, if_pos hkey, conflict, if_pos hkey]
      refine (ih hnodup.2 hrest).imp fun row hrow f => ?_
      rw [hrow f]
      by_cases hf : f ∈ joinKeys
      · simp [hf]
      · have hne : name ≠ f := fun h => hf (h ▸ hkey)
        simp [hf, entryValue, hne]
    · rw [mergeFields, if_neg hkey, conflict, if_neg hkey]
      cases hget : left.get? name with
      | none =>
        rw [hget] at hname
        simp only [hname]
        have hset : ∀ entry ∈ entries, (merged.set name value).get? entry.1 =
            left.get? entry.1 := by
          intro entry hmem
          have hne : entry.1 ≠ name := fun h =>
            hnodup.1 (List.mem_map.2 ⟨entry, hmem, h⟩)
          rw [Dict.get?_set, if_neg hne]
          exact hrest entry hmem
        refine (ih hnodup.2 hset).imp fun row hrow f => ?_
        rw [hrow f, Dict.get?_set]
        by_cases hf : f = name
        · subst hf
          simp [hkey, hname, entryValue]
        · have hne : name ≠ f := fun h => hf h.symm
          simp [hf, entryValue, hne]
      | some present =>
        rw [hget] at hname
        simp only [hname]
        by_cases heq : present == value
        · rw [Option.bind_some, if_pos heq, if_pos heq]
          refine (ih hnodup.2 hrest).imp fun row hrow f => ?_
          rw [hrow f]
          by_cases hf : f = name
          · subst hf
            simp [hkey, hname]
          · have hne : name ≠ f := fun h => hf h.symm
            simp [entryValue, hne]
        · rw [Option.bind_some, if_neg heq, if_neg heq]
          refine Follows.head (l := []) (follows_failWith (fun _ => True) ?_ ?_)
          · intro hprint
            obtain ⟨text, htext⟩ := hprint present (by simp)
            obtain ⟨text', htext'⟩ := hprint value (by simp)
            rw [htext, htext']
            exact ⟨_, rfl⟩
          · intro hprint
            cases hpresent : PyValue.repr present with
            | error exception => exact ⟨exception, rfl⟩
            | ok text =>
              cases hvalue : PyValue.repr value with
              | error exception => exact ⟨exception, rfl⟩
              | ok text' =>
                refine absurd (fun v hv => ?_) hprint
                rcases List.mem_cons.1 hv with rfl | hv
                · exact ⟨text, hpresent⟩
                · obtain rfl := List.mem_singleton.1 hv
                  exact ⟨text', hvalue⟩

/-- Rows with equal keys have equal values under each of them. -/
theorem exists_of_matching {joinKeys : List String} {left right : Dict String V}
    (h : matching joinKeys left right = true) {f : String} (hf : f ∈ joinKeys) :
    ∃ v w, left.get? f = some v ∧ right.get? f = some w ∧ (v == w) = true := by
  have hpresent : ∀ (row : Dict String V) v, presentValue row f = some v → row.get? f = some v := by
    intro row v hv
    obtain ⟨w, hw, hif⟩ := Option.bind_eq_some_iff.1 hv
    split_ifs at hif
    rw [hw, hif]
  unfold matching at h
  cases hleft : keyOf joinKeys left with
  | none => simp [hleft] at h
  | some key =>
    cases hright : keyOf joinKeys right with
    | none => simp [hleft, hright] at h
    | some key' =>
      simp only [hleft, hright] at h
      unfold keyOf at hleft hright
      induction joinKeys generalizing key key' with
      | nil => cases hf
      | cons name joinKeys ih =>
        simp only [List.mapM_cons, Option.bind_eq_bind, Option.bind_eq_some_iff,
          Option.pure_def, Option.some.injEq] at hleft hright
        obtain ⟨v, hv, key, hkey, rfl⟩ := hleft
        obtain ⟨w, hw, key', hkey', rfl⟩ := hright
        rw [List.cons_beq_cons, Bool.and_eq_true] at h
        rcases List.mem_cons.1 hf with rfl | hf
        · exact ⟨v, w, hpresent left v hv, hpresent right w hw, h.1⟩
        · exact ih hf key hkey key' hkey' h.2

variable [EquivBEq V]

/-- What `_merge_rows` makes of two rows with equal keys that do not disagree. -/
theorem merged_of_conflicts_eq_nil {joinKeys : List String} {left right row : Dict String V}
    (hmatching : matching joinKeys left right = true) (hnil : conflicts joinKeys left right = [])
    (hrow : ∀ f, row.get? f =
      (left.get? f).or (if f ∈ joinKeys then none else entryValue right.entries f)) :
    Merged (left, right) row := by
  have hfields : ∀ f, row.get? f = (left.get? f).or (right.get? f) := by
    intro f
    rw [hrow f]
    by_cases hf : f ∈ joinKeys
    · obtain ⟨v, -, hv, -⟩ := exists_of_matching hmatching hf
      simp [hv]
    · rw [if_neg hf]
      rfl
  refine ⟨hfields, fun f v hv => by rw [hfields, hv]; rfl, fun f v hv => ?_⟩
  rw [hfields, hv]
  cases hleft : left.get? f with
  | none => exact ⟨v, rfl, BEq.rfl⟩
  | some present =>
    refine ⟨present, rfl, ?_⟩
    by_cases hf : f ∈ joinKeys
    · obtain ⟨w, w', hw, hw', heq⟩ := exists_of_matching hmatching hf
      rw [hleft, Option.some.injEq] at hw
      rw [hv, Option.some.injEq] at hw'
      rw [hw, hw']
      exact heq
    · have hnone := List.filterMap_eq_nil_iff.1 hnil (f, v) (Dict.get?_eq_some_iff.1 hv)
      rw [conflict, if_neg hf, hleft, Option.bind_some] at hnone
      by_contra hne
      rw [if_neg hne] at hnone
      cases hnone

/-! ### The loops over matching rows -/

/-- What has been stored and counted after some pairs of rows. -/
def Stored (rowLimit : ℕ) (pairs : List (Dict String V × Dict String V))
    (joined : List (Dict String V) × ℕ) : Prop :=
  joined.2 = pairs.length ∧ List.Forall₂ Merged (pairs.take rowLimit) joined.1

omit [EquivBEq V] in
theorem Stored.push {rowLimit : ℕ} {pairs : List (Dict String V × Dict String V)}
    {rows : List (Dict String V)} {totalCount : ℕ} (h : Stored rowLimit pairs (rows, totalCount))
    {pair : Dict String V × Dict String V} {row : Dict String V} (hrow : Merged pair row) :
    Stored rowLimit (pairs ++ [pair])
      (if rows.length < rowLimit then rows ++ [row] else rows, totalCount + 1) := by
  obtain ⟨hcount, hrows⟩ := h
  have hlength : (pairs.take rowLimit).length = rows.length := hrows.length_eq
  rw [List.length_take] at hlength
  refine ⟨by simp only [List.length_append, List.length_singleton]; omega, ?_⟩
  by_cases hlimit : rows.length < rowLimit
  · rw [if_pos hlimit, List.take_of_length_le (by simp; omega)]
    rw [List.take_of_length_le (by omega)] at hrows
    exact List.rel_append hrows (.cons hrow .nil)
  · rw [if_neg hlimit, List.take_append_of_le_length (by omega)]
    exact hrows

theorem follows_joinRow {joinKeys : List String} {rowLimit : ℕ} {left : Dict String V}
    {rights : List (Dict String V)} (hmatching : ∀ right ∈ rights, matching joinKeys left right = true)
    {pairs : List (Dict String V × Dict String V)} {joined : List (Dict String V) × ℕ}
    (h : Stored rowLimit pairs joined) :
    Follows (rights.flatMap (conflicts joinKeys left)) (joinRow joinKeys rowLimit left joined rights)
      (Stored rowLimit (pairs ++ rights.map (Prod.mk left))) := by
  induction rights generalizing pairs joined with
  | nil =>
    obtain ⟨rows, totalCount⟩ := joined
    rw [List.map_nil, List.append_nil]
    exact .pure h
  | cons right rights ih =>
    obtain ⟨rows, totalCount⟩ := joined
    rw [List.flatMap_cons, joinRow, List.map_cons, ← List.singleton_append, ← List.append_assoc]
    refine (follows_mergeFields joinKeys left right.nodup fun _ _ => rfl).and_nil.bind
      fun row ⟨hnil, hrow⟩ => ?_
    have hmerged : Merged (left, right) row :=
      merged_of_conflicts_eq_nil (hmatching right List.mem_cons_self) hnil hrow
    exact ih (fun right' hmem => hmatching right' (List.mem_cons_of_mem right hmem))
      (h.push hmerged)

theorem follows_joinRows {joinKeys : List String} {rowLimit : ℕ}
    {table : Join.Table (List V) (Dict String V)} {lefts : List (Dict String V)}
    (hmatching : ∀ left ∈ lefts, ∀ right ∈ Join.lookup table (usableKey joinKeys left),
      matching joinKeys left right = true)
    {pairs : List (Dict String V × Dict String V)} {joined : List (Dict String V) × ℕ}
    (h : Stored rowLimit pairs joined) :
    Follows (lefts.flatMap fun left =>
        (Join.lookup table (usableKey joinKeys left)).flatMap (conflicts joinKeys left))
      (joinRows joinKeys rowLimit table joined
        (lefts.map fun left => (usableKey joinKeys left, left)))
      (Stored rowLimit (pairs ++ lefts.flatMap fun left =>
        (Join.lookup table (usableKey joinKeys left)).map (Prod.mk left))) := by
  induction lefts generalizing pairs joined with
  | nil =>
    rw [List.flatMap_nil, List.flatMap_nil, List.append_nil]
    exact .pure h
  | cons left lefts ih =>
    rw [List.flatMap_cons, List.flatMap_cons, List.map_cons, joinRows, ← List.append_assoc]
    refine (follows_joinRow (hmatching left List.mem_cons_self) h).bind fun joined hjoined => ?_
    exact ih (fun left' hmem => hmatching left' (List.mem_cons_of_mem left hmem)) hjoined

end Composition
