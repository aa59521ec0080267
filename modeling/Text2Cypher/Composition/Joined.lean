import Text2Cypher.Composition.Flaws

/-!
# Joined composition

The joined composition of two sources against the plain nested-loop join `matchingPairs`.

* `flaws_eq_nil_iff`: the flaws in words;
* `follows_joinSources`: what the composition does with complete sources;
* **`joinsAsReference_iff`**: exactly when it is the reference join.
-/

namespace Composition

open Checks Planning Query

variable {V : Type} [PyValue V] [EquivBEq V]

/-! ### Flaws in words -/

/-- A row without a usable key: a join key is missing, or it is `None` or not hashable. -/
def BadKey (joinKeys : List String) (row : Dict String V) : Prop :=
  ∃ key ∈ joinKeys, ∀ v, row.get? key = some v → isNone v = true ∨ PyValue.hashable v = false

/-- Two rows have different values in a field outside the key. -/
def Disagree (joinKeys : List String) (left right : Dict String V) : Prop :=
  ∃ f, f ∉ joinKeys ∧ ∃ v w, left.get? f = some v ∧ right.get? f = some w ∧ (v == w) = false

/-- The rows of two sources cannot be joined. -/
def BadRows (joinKeys : List String) (left right : List (Dict String V)) : Prop :=
  (∃ row ∈ left, BadKey joinKeys row) ∨ (∃ row ∈ right, BadKey joinKeys row) ∨
    (∃ row ∈ right, ∀ row' ∈ left, matching joinKeys row' row = false) ∨
    ∃ pair ∈ matchingPairs joinKeys left right, Disagree joinKeys pair.1 pair.2

omit [EquivBEq V] in
theorem keyFlaw_eq_none_iff {joinKeys : List String} {row : Dict String V} :
    keyFlaw joinKeys row = none ↔ ¬ BadKey joinKeys row := by
  have hgood : ¬ BadKey joinKeys row ↔ ∀ key ∈ joinKeys, ∃ v, presentValue row key = some v ∧
      PyValue.hashable v = true := by
    unfold BadKey presentValue
    push Not
    refine forall₂_congr fun key _ => ⟨?_, ?_⟩
    · rintro ⟨v, hv, hnone, hhash⟩
      exact ⟨v, by simp [hv, hnone], by simpa using hhash⟩
    · rintro ⟨v, hv, hhash⟩
      obtain ⟨w, hw, hif⟩ := Option.bind_eq_some_iff.1 hv
      split_ifs at hif with hnone
      obtain rfl := Option.some.inj hif
      exact ⟨w, hw, by simpa using hnone, by simp [hhash]⟩
  rw [hgood, keyFlaw, keyOf]
  clear hgood
  induction joinKeys with
  | nil => simp
  | cons name joinKeys ih =>
    rw [List.mapM_cons, List.forall_mem_cons]
    cases hvalue : presentValue row name with
    | none => simp
    | some value =>
      revert ih
      cases joinKeys.mapM (presentValue row) with
      | none =>
        intro ih
        simp only [reduceCtorEq, false_iff] at ih
        exact iff_of_false (by simp) fun h => ih h.2
      | some key =>
        intro ih
        by_cases hhash : PyValue.hashable value = true
        · simpa [hhash] using ih
        · simp [hhash]

omit [EquivBEq V] in
theorem exists_keyOf {joinKeys : List String} {row : Dict String V} (h : ¬ BadKey joinKeys row) :
    ∃ key, keyOf joinKeys row = some key := by
  rw [← keyFlaw_eq_none_iff, keyFlaw] at h
  cases hkey : keyOf joinKeys row with
  | none => simp [hkey] at h
  | some key => exact ⟨key, rfl⟩

omit [EquivBEq V] in
theorem conflicts_eq_nil_iff {joinKeys : List String} {left right : Dict String V} :
    conflicts joinKeys left right = [] ↔ ¬ Disagree joinKeys left right := by
  unfold conflicts Disagree
  rw [List.filterMap_eq_nil_iff]
  constructor
  · rintro h ⟨f, hf, v, w, hv, hw, hne⟩
    have hnone := h (f, w) (Dict.get?_eq_some_iff.1 hw)
    simp [conflict, hf, hv, hne] at hnone
  · rintro h ⟨f, w⟩ hmem
    by_cases hf : f ∈ joinKeys
    · simp [conflict, hf]
    · cases hv : left.get? f with
      | none => simp [conflict, hv]
      | some v =>
        by_cases heq : v == w
        · simp [conflict, hv, heq]
        · exact absurd ⟨f, hf, v, w, hv, Dict.get?_eq_some_iff.2 hmem, by simpa using heq⟩ h

omit [EquivBEq V] in
/-- There are no flaws exactly if the rows can be joined. -/
theorem flaws_eq_nil_iff {joinKeys : List String} {left right : List (Dict String V)} :
    flaws joinKeys left right = [] ↔ ¬ BadRows joinKeys left right := by
  have hright : ∀ row, rightFlaw joinKeys left row = none ↔
      ¬ BadKey joinKeys row ∧ ¬ ∀ row' ∈ left, matching joinKeys row' row = false := by
    intro row
    rw [rightFlaw, Option.or_eq_none_iff, keyFlaw_eq_none_iff]
    refine and_congr_right fun hbad => ?_
    obtain ⟨key, hkey⟩ := exists_keyOf hbad
    rw [hkey, ite_eq_left_iff]
    simp
  unfold flaws BadRows
  rw [List.append_eq_nil_iff, List.append_eq_nil_iff, List.filterMap_eq_nil_iff,
    List.filterMap_eq_nil_iff, List.flatMap_eq_nil_iff]
  simp only [keyFlaw_eq_none_iff, hright, conflicts_eq_nil_iff]
  push Not
  constructor
  · rintro ⟨⟨hl, hr⟩, hc⟩
    exact ⟨hl, fun row hmem => (hr row hmem).1, fun row hmem => (hr row hmem).2, hc⟩
  · rintro ⟨hl, hr, ho, hc⟩
    exact ⟨⟨hl, fun row hmem => ⟨hr row hmem, ho row hmem⟩⟩, hc⟩

/-! ### The reference join -/

/-- The result is the reference join of the rows of two sources, cut at the row limit. -/
structure IsJoin (joinKeys : List String) (left right : List (Dict String V)) (rowLimit : ℕ)
    (composed : Composed V) : Prop where
  totalCount : composed.totalCount = (matchingPairs joinKeys left right).length
  rows : List.Forall₂ Merged ((matchingPairs joinKeys left right).take rowLimit) composed.rows
  truncated : composed.truncated = true ↔ rowLimit < composed.totalCount
  nonempty : left ≠ [] → right ≠ [] → 1 ≤ composed.totalCount

/-- What the hash table holds for a left row are the right rows that match it. -/
theorem lookup_eq_filter {joinKeys : List String} {left : Dict String V}
    {right : List (Dict String V)} (hleft : ¬ BadKey joinKeys left)
    (hright : ∀ row ∈ right, ¬ BadKey joinKeys row) :
    Join.lookup (Join.group [] (right.map fun row => (usableKey joinKeys row, row)))
      (usableKey joinKeys left) = right.filter (matching joinKeys left) := by
  rw [Join.lookup_group_map]
  refine List.filter_congr fun row hmem => ?_
  obtain ⟨key, hkey⟩ := exists_keyOf hleft
  obtain ⟨key', hkey'⟩ := exists_keyOf (hright row hmem)
  simp only [usableKey, matching, hkey, hkey', Option.getD_some]
  exact BEq.comm

omit [EquivBEq V] in
theorem matchingPairs_eq_flatMap (joinKeys : List String) (left right : List (Dict String V)) :
    matchingPairs joinKeys left right =
      left.flatMap fun row => (right.filter (matching joinKeys row)).map (Prod.mk row) := by
  rw [matchingPairs, List.product, List.filter_flatMap]
  refine List.flatMap_congr fun row _ => ?_
  rw [List.filter_map]
  rfl

/-- What `_compose_joined` does with complete sources. -/
theorem follows_joinSources {first second : Subquery} {left right : SourceRows V} {rowLimit : ℕ} :
    Follows (flaws first.joinKeys left.rows right.rows)
      (joinSources first second left right rowLimit) fun composed =>
        composed.error = none ∧ IsJoin first.joinKeys left.rows right.rows rowLimit composed := by
  rw [flaws, List.append_assoc, joinSources]
  refine (follows_leftKeyed first.joinKeys first left.rows 0).and_nil.bind
    fun keyed ⟨hleftNil, hkeyed⟩ => ?_
  have hleft : ∀ row ∈ left.rows, ¬ BadKey first.joinKeys row := fun row hmem =>
    keyFlaw_eq_none_iff.1 (List.filterMap_eq_nil_iff.1 hleftNil row hmem)
  have hdomain : keyed.map Prod.fst = left.rows.map (usableKey first.joinKeys) := by
    rw [hkeyed, List.map_map]
    rfl
  rw [hdomain]
  refine (follows_rightByKey (fun row hmem => exists_keyOf (hleft row hmem)) right.rows 0
    []).and_nil.bind fun table ⟨hrightNil, htable⟩ => ?_
  have hright : ∀ row ∈ right.rows, ¬ BadKey first.joinKeys row ∧
      ∃ row' ∈ left.rows, matching first.joinKeys row' row = true := by
    intro row hmem
    have hnone := List.filterMap_eq_nil_iff.1 hrightNil row hmem
    rw [rightFlaw, Option.or_eq_none_iff, keyFlaw_eq_none_iff] at hnone
    obtain ⟨key, hkey⟩ := exists_keyOf hnone.1
    rw [hkey, ite_eq_left_iff] at hnone
    exact ⟨hnone.1, by simpa using hnone.2⟩
  have hlookup : ∀ row ∈ left.rows,
      Join.lookup table (usableKey first.joinKeys row) =
        right.rows.filter (matching first.joinKeys row) := by
    intro row hmem
    rw [htable]
    exact lookup_eq_filter (hleft row hmem) fun row hmem => (hright row hmem).1
  by_cases hempty : left.rows = [] ∨ right.rows = []
  · have hnil : matchingPairs first.joinKeys left.rows right.rows = [] := by
      rw [matchingPairs_eq_flatMap]
      rcases hempty with h | h <;> simp [h]
    rw [if_pos hempty, hnil]
    refine .pure ⟨rfl, ⟨by rw [hnil]; rfl, ?_, ?_, ?_⟩⟩
    · rw [hnil, List.take_nil]
      exact .nil
    · simp
    · intro hl hr
      rcases hempty with h | h
      · exact absurd h hl
      · exact absurd h hr
  · push Not at hempty
    rw [if_neg (by simpa using hempty), hkeyed]
    have hpairs : (left.rows.flatMap fun row =>
        (Join.lookup table (usableKey first.joinKeys row)).map (Prod.mk row)) =
          matchingPairs first.joinKeys left.rows right.rows := by
      rw [matchingPairs_eq_flatMap]
      exact List.flatMap_congr fun row hmem => by rw [hlookup row hmem]
    have hconflicts : ((matchingPairs first.joinKeys left.rows right.rows).flatMap
        fun pair => conflicts first.joinKeys pair.1 pair.2) =
          left.rows.flatMap fun row => (Join.lookup table (usableKey first.joinKeys row)).flatMap
            (conflicts first.joinKeys row) := by
      rw [← hpairs, List.flatMap_assoc]
      exact List.flatMap_congr fun row _ => List.flatMap_map ..
    rw [hconflicts]
    refine (follows_joinRows (fun row hmem row' hmem' => ?_)
      (show Stored rowLimit [] ([], 0) from ⟨rfl, by simp⟩)).map fun joined hjoined => ?_
    · rw [hlookup row hmem] at hmem'
      exact (List.mem_filter.1 hmem').2
    · rw [List.nil_append, hpairs] at hjoined
      obtain ⟨hcount, hrows⟩ := hjoined
      refine ⟨rfl, hcount, hrows, ?_, fun _ hr => ?_⟩
      · have hlength := hrows.length_eq
        rw [List.length_take] at hlength
        simp only [decide_eq_true_eq]
        omega
      · obtain ⟨row, hmem⟩ := List.exists_mem_of_ne_nil _ hr
        obtain ⟨row', hmem', hmatching⟩ := (hright row hmem).2
        have hpair : (row', row) ∈ matchingPairs first.joinKeys left.rows right.rows :=
          List.mem_filter.2 ⟨List.mem_product.2 ⟨hmem', hmem⟩, hmatching⟩
        have hpos := List.length_pos_of_mem hpair
        show 1 ≤ joined.2
        omega

/-! ### The composition of two sources -/

/-- The truncation flag of a source. -/
def HasTruncated (raw : Option V) (truncated : Bool) : Prop :=
  raw = none ∧ truncated = false ∨ ∃ v, raw = some v ∧ PyValue.kind v = .bool truncated

/-- The empty reason of a source. -/
def HasEmptyReason (raw : Option V) (emptyReason : Option EmptyReason) : Prop :=
  raw = none ∧ emptyReason = none ∨
    ∃ v, raw = some v ∧ (PyValue.kind v = .none ∧ emptyReason = none ∨
      PyValue.kind v = .str "NO_DATA" ∧ emptyReason = some .noData ∨
      PyValue.kind v = .str "INCONCLUSIVE" ∧ emptyReason = some .inconclusive)

/-- A result of a tool without an error: a list of dicts, with a flag and an empty reason that fits
the rows. -/
structure WellFormed (source : Source V) (rows : SourceRows V) : Prop where
  error : source.error = none
  result : source.result = .list (rows.rows.map Row.dict)
  truncated : HasTruncated source.truncated rows.truncated
  emptyReason : HasEmptyReason source.emptyReason rows.emptyReason
  consistent : rows.rows ≠ [] → rows.emptyReason = none

omit [PyValue V] [EquivBEq V] in
theorem dictRows_map_dict (label : String) (index : ℕ) (rows : List (Dict String V)) :
    dictRows label index (rows.map Row.dict) = .ok rows := by
  induction rows generalizing index with
  | nil => rfl
  | cons row rows ih =>
    rw [List.map_cons, dictRows, ih, ok_bind]
    rfl

omit [EquivBEq V] in
theorem HasTruncated.read {raw : Option V} {truncated : Bool} (h : HasTruncated raw truncated)
    (label : String) : readTruncated label raw = .ok truncated := by
  rcases h with ⟨rfl, rfl⟩ | ⟨v, rfl, hkind⟩
  · rfl
  · simp [readTruncated, hkind]

omit [EquivBEq V] in
theorem HasEmptyReason.read {raw : Option V} {emptyReason : Option EmptyReason}
    (h : HasEmptyReason raw emptyReason) (label : String) :
    readEmptyReason label raw = .ok emptyReason := by
  rcases h with ⟨rfl, rfl⟩ | ⟨v, rfl, ⟨hkind, rfl⟩ | ⟨hkind, rfl⟩ | ⟨hkind, rfl⟩⟩
  · rfl
  · simp [readEmptyReason, hkind]
  · simp [readEmptyReason, hkind]
  · simp [readEmptyReason, hkind]

omit [EquivBEq V] in
theorem sourceRows_of_wellFormed {source : Source V} {rows : SourceRows V}
    (h : WellFormed source rows) (subquery : Subquery) :
    sourceRows subquery (some source) = .ok rows := by
  simp only [sourceRows, h.error, h.result, dictRows_map_dict, ok_bind, h.truncated.read,
    h.emptyReason.read]
  have hfits : ¬ (rows.rows ≠ [] ∧ rows.emptyReason ≠ none) := fun hboth =>
    hboth.2 (h.consistent hboth.1)
  rw [if_neg hfits]

/-- The composition of two sources is the reference join, or the error that the reference asks for:
without rows, and exactly if the sources cannot be joined. -/
def JoinsAsReference (joinKeys : List String) (left right : SourceRows V) (rowLimit : ℕ)
    (result : Except PyException (Composed V)) : Prop :=
  ∃ composed, result = .ok composed ∧
    (composed.error = none → IsJoin joinKeys left.rows right.rows rowLimit composed) ∧
    (composed.error ≠ none ↔
      left.truncated = true ∨ right.truncated = true ∨ BadRows joinKeys left.rows right.rows) ∧
    (composed.error ≠ none → composed.rows = [] ∧ composed.totalCount = 0)

/-- The message about the first flaw can be put together. -/
def FirstFlawPrints (joinKeys : List String) (left right : SourceRows V) : Prop :=
  left.truncated = true ∨ right.truncated = true ∨
    ∀ quoted ∈ (flaws joinKeys left.rows right.rows).head?, Printable quoted

theorem composeJoined_iff (first second : Subquery) (left right : SourceRows V) (rowLimit : ℕ) :
    JoinsAsReference first.joinKeys left right rowLimit
        (composeJoined first second left right rowLimit) ↔
      FirstFlawPrints first.joinKeys left right := by
  unfold composeJoined FirstFlawPrints
  by_cases htruncated : left.truncated = true ∨ right.truncated = true
  · rw [if_pos htruncated]
    refine iff_of_true ⟨_, rfl, fun h => ?_, ?_, fun _ => ⟨rfl, rfl⟩⟩ ?_
    · cases h
    · exact iff_of_true (by simp [failure]) (htruncated.imp_right Or.inl)
    · exact htruncated.imp_right Or.inl
  · rw [if_neg htruncated]
    have hfollows : Follows (flaws first.joinKeys left.rows right.rows)
        (joinSources first second left right rowLimit) _ := follows_joinSources
    push Not at htruncated
    cases hflaws : flaws first.joinKeys left.rows right.rows with
    | nil =>
      rw [hflaws] at hfollows
      obtain ⟨composed, hcomposed, herror, hjoin⟩ := hfollows
      rw [hcomposed]
      refine iff_of_true ⟨composed, rfl, fun _ => hjoin, ?_, fun h => absurd herror h⟩ (by simp)
      exact iff_of_false (fun h => h herror)
        (by simp [htruncated, flaws_eq_nil_iff.1 hflaws])
    | cons quoted rest =>
      rw [hflaws] at hfollows
      have hbad : BadRows first.joinKeys left.rows right.rows := by
        by_contra hgood
        rw [← flaws_eq_nil_iff, hflaws] at hgood
        cases hgood
      by_cases hprint : Printable quoted
      · obtain ⟨message, hmessage⟩ := hfollows.1 hprint
        rw [hmessage]
        refine iff_of_true ⟨_, rfl, fun h => ?_, ?_, fun _ => ⟨rfl, rfl⟩⟩ (by simp [hprint])
        · cases h
        · exact iff_of_true (by simp [failure]) (Or.inr (Or.inr hbad))
      · obtain ⟨exception, hexception⟩ := hfollows.2 hprint
        rw [hexception]
        refine iff_of_false ?_ ?_
        · rintro ⟨composed, hcomposed, -⟩
          cases hcomposed
        · simp [htruncated, hprint]

omit [EquivBEq V] in
/-- `compose_results` without a transform, for two sources with the same join keys. -/
theorem composeResults_eq_composeJoined [PyBuild V] (first second : Subquery)
    (hkeys : first.joinKeys = second.joinKeys) (hne : first.joinKeys ≠ [])
    {toolResults : ToolName → Option (Source V)} {left right : Source V}
    {leftRows rightRows : SourceRows V} (hleft : toolResults first.tool = some left)
    (hright : toolResults second.tool = some right) (hleftOk : WellFormed left leftRows)
    (hrightOk : WellFormed right rightRows) {rowLimit : ℤ} (hlimit : 0 ≤ rowLimit)
    (semanticCatalog : Option (Dict String TransformSpec)) :
    composeResults [first, second] toolResults rowLimit none semanticCatalog =
      composeJoined first second leftRows rightRows rowLimit.toNat := by
  have hmode : modeOf [first, second] = .ok .joined := by
    rw [modeOf, if_neg fun h => hne h.1, if_pos ⟨hne, hkeys ▸ hne, by simp [sameSet, hkeys]⟩]
  have hsources : allSourceRows toolResults [first, second] = .ok [leftRows, rightRows] := by
    rw [allSourceRows, hleft, sourceRows_of_wellFormed hleftOk, ok_bind, allSourceRows, hright,
      sourceRows_of_wellFormed hrightOk]
    rfl
  unfold composeResults
  rw [hmode]
  simp only [if_neg (not_lt.2 hlimit), validateResultTransform, hsources, composeSources]
  rfl

/-- A row with an id and one more field. -/
def idAnd (n : ℤ) (name : String) (v : Cell) (h : "id" ≠ name) : Dict String Cell :=
  ⟨[("id", .mk (.int n)), (name, v)], by simpa using h⟩

def graphFirst : Subquery :=
  ⟨"q1", .graph, "Which parts?", [], ["id"], ["id"], .empty, []⟩

def sqlSecond : Subquery :=
  ⟨"q2", .sql, "Which stock?", [], ["id"], ["id"], .empty, []⟩

/-- The results of the two tools, of one row each. -/
def oneRowEach (left right : Dict String Cell) : ToolName → Option (Source Cell)
  | .graph => some ⟨none, .list [.dict left], none, none⟩
  | .sql => some ⟨none, .list [.dict right], none, none⟩

theorem wellFormed_row (row : Dict String Cell) :
    WellFormed ⟨none, .list [.dict row], none, none⟩ ⟨[row], none, false⟩ :=
  ⟨rfl, rfl, Or.inl ⟨rfl, rfl⟩, Or.inl ⟨rfl, rfl⟩, fun _ => rfl⟩

/-- Two rows with different stocks. -/
theorem flaws_stock {a b : ℤ} (h : a ≠ b) :
    flaws ["id"] [idAnd 7 "stock" (.mk (.int a)) (by decide)]
        [idAnd 7 "stock" (.mk (.int b)) (by decide)] =
      [[.mk (.int a), .mk (.int b)]] := by
  have hkeyOf : ∀ v : Cell, keyOf ["id"] (idAnd 7 "stock" v (by decide)) = some [.mk (.int 7)] :=
    fun _ => rfl
  have hmatching : ∀ v w : Cell, matching ["id"] (idAnd 7 "stock" v (by decide))
      (idAnd 7 "stock" w (by decide)) = true := fun _ _ => rfl
  have hconflicts : conflicts ["id"] (idAnd 7 "stock" (.mk (.int a)) (by decide))
      (idAnd 7 "stock" (.mk (.int b)) (by decide)) = [[.mk (.int a), .mk (.int b)]] := by
    have hne : ((Cell.mk (.int a) == Cell.mk (.int b)) : Bool) = false := by
      show decide (Cell.mk (.int a) = Cell.mk (.int b)) = false
      simp [h]
    show (if (Cell.mk (.int a) == Cell.mk (.int b)) = true then none
      else some [Cell.mk (.int a), Cell.mk (.int b)]).toList
      = [[Cell.mk (.int a), Cell.mk (.int b)]]
    simp [hne]
  have hnone : keyFlaw ["id"] (idAnd 7 "stock" (.mk (.int a)) (by decide)) = none := rfl
  have hright : rightFlaw ["id"] [idAnd 7 "stock" (.mk (.int a)) (by decide)]
      (idAnd 7 "stock" (.mk (.int b)) (by decide)) = none := by
    simp [rightFlaw, hmatching, keyFlaw, hkeyOf, PyValue.hashable, Cell.kind]
  simp [flaws, hnone, hright, matchingPairs, List.product, hmatching, hconflicts]

/-- Two rows with different stocks, one of which is too long to be printed. -/
theorem not_joinsAsReference_stock {n : ℤ} (hne : n ≠ 30)
    (hlong : Python.maxStrDigits < Decimal.digits n.natAbs) :
    ¬ JoinsAsReference ["id"] ⟨[idAnd 7 "stock" (.mk (.int n)) (by decide)], none, false⟩
      ⟨[idAnd 7 "stock" (.mk (.int 30)) (by decide)], none, false⟩ 200
      (composeResults [graphFirst, sqlSecond] (oneRowEach (idAnd 7 "stock" (.mk (.int n)) (by decide))
        (idAnd 7 "stock" (.mk (.int 30)) (by decide))) 200 none none) := by
  have hresult : composeResults [graphFirst, sqlSecond]
      (oneRowEach (idAnd 7 "stock" (.mk (.int n)) (by decide))
        (idAnd 7 "stock" (.mk (.int 30)) (by decide)))
      200 none none = composeJoined graphFirst sqlSecond _ _ 200 :=
    composeResults_eq_composeJoined graphFirst sqlSecond rfl (List.cons_ne_nil _ _) rfl rfl
      (wellFormed_row _) (wellFormed_row _) (by norm_num : (0 : ℤ) ≤ 200) none
  have hflaws : flaws graphFirst.joinKeys [idAnd 7 "stock" (.mk (.int n)) (by decide)]
      [idAnd 7 "stock" (.mk (.int 30)) (by decide)] = [[.mk (.int n), .mk (.int 30)]] := flaws_stock hne
  intro hjoins
  rw [hresult] at hjoins
  rcases (composeJoined_iff graphFirst sqlSecond _ _ 200).1 hjoins with h | h | hprints
  · cases h
  · cases h
  · rw [hflaws] at hprints
    obtain ⟨text, htext⟩ := hprints _ rfl (.mk (.int n)) (by simp)
    have herror : PyValue.repr (Cell.mk (.int n)) = Python.intText n := rfl
    rw [herror, Python.intText, if_pos hlong] at htext
    cases htext

end Composition
