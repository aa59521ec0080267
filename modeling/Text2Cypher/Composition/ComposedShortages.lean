import Text2Cypher.Composition.Exceptions

/-!
# Composing BOM shortages without an exception

`compose_results` for a plan with the transform `bom_shortage_v1`, from any two results of the
tools.

* `sourceRows_eq_ok_iff`, `raises_sourceRows`: reading a source;
* **`composesShortages_iff`**: when the composition returns, with an error for every problem;
* `not_composesShortages_digits`: a quantity that is too large to be rounded.
-/

namespace Composition

open Checks Decimal Planning Query

/-! ### Reading a source -/

/-- What becomes a result. -/
def IsFailure (stop : Stop) : Prop := ∃ message, stop = .failure message

@[simp] theorem isFailure_failure (message : String) : IsFailure (.failure message) := ⟨message, rfl⟩

@[simp] theorem not_isFailure_raised (exception : PyException) :
    ¬ IsFailure (.raised exception) := by
  rintro ⟨message, h⟩
  cases h

section

variable {V : Type} [PyValue V]

/-- A source that can be read but for its empty reason, of which not even the message can be put
together. -/
structure ReasonEscapes (source : Source V) : Prop where
  error : source.error = none
  result : ∃ rows : List (Dict String V), source.result = .list (rows.map Row.dict)
  truncated : ∃ truncated, HasTruncated source.truncated truncated
  emptyReason : ∃ v, source.emptyReason = some v ∧
    (∀ emptyReason, ¬ HasEmptyReason (some v) emptyReason) ∧ ¬ Returns (PyValue.repr v)

omit [PyValue V] in
theorem dictRows_eq_ok {label : String} {n : ℕ} {rows : List (Row V)}
    {fields : List (Dict String V)} :
    dictRows label n rows = .ok fields ↔ rows = fields.map Row.dict := by
  constructor
  · intro h
    induction rows generalizing n fields with
    | nil =>
      cases h
      rfl
    | cons row rows ih =>
      cases row with
      | other v => cases h
      | dict row =>
        obtain ⟨rest, hrest, h⟩ := bind_eq_ok.1 h
        cases h
        rw [ih hrest, List.map_cons]
  · rintro rfl
    exact dictRows_map_dict label n fields

omit [PyValue V] in
theorem not_escapes_dictRows {label : String} {n : ℕ} {rows : List (Row V)} :
    ¬ Escapes IsFailure (dictRows label n rows) := by
  induction rows generalizing n with
  | nil => exact not_escapes_ok _
  | cons row rows ih =>
    cases row with
    | other v => exact fun h => escapes_error.1 h (isFailure_failure _)
    | dict row => exact fun h => ih (escapes_map.1 h)

theorem readTruncated_eq_ok {label : String} {raw : Option V} {truncated : Bool} :
    readTruncated label raw = .ok truncated ↔ HasTruncated raw truncated := by
  refine ⟨fun h => ?_, fun h => h.read label⟩
  cases raw with
  | none =>
    cases h
    exact Or.inl ⟨rfl, rfl⟩
  | some v =>
    refine Or.inr ⟨v, rfl, ?_⟩
    unfold readTruncated at h
    rw [Option.map_some] at h
    cases hkind : PyValue.kind v <;> rw [hkind] at h <;> cases h
    rfl

theorem not_escapes_readTruncated {label : String} {raw : Option V} :
    ¬ Escapes IsFailure (readTruncated label raw) := by
  unfold readTruncated
  split <;> simp

theorem escapes_failWith {α : Type} {message : Except PyException String} :
    Escapes IsFailure (failWith message : Except Stop α) ↔ ¬ Returns message := by
  cases message <;> simp [failWith]

theorem failWith_ne_ok {α : Type} {message : Except PyException String} {a : α} :
    failWith message ≠ .ok a := by
  cases message <;> simp [failWith]

theorem readEmptyReason_eq_ok (label : String) {raw : Option V}
    {emptyReason : Option EmptyReason} :
    readEmptyReason label raw = .ok emptyReason ↔ HasEmptyReason raw emptyReason := by
  refine ⟨fun h => ?_, fun h => h.read label⟩
  cases raw with
  | none =>
    cases h
    exact Or.inl ⟨rfl, rfl⟩
  | some v =>
    refine Or.inr ⟨v, rfl, ?_⟩
    simp only [readEmptyReason] at h
    split at h
    · rename_i hkind
      cases h
      exact Or.inl ⟨hkind, rfl⟩
    · rename_i s hkind
      split_ifs at h with hno hinconclusive
      · cases h
        exact Or.inr (Or.inl ⟨hno ▸ hkind, rfl⟩)
      · cases h
        exact Or.inr (Or.inr ⟨hinconclusive ▸ hkind, rfl⟩)
      · exact absurd h failWith_ne_ok
    · exact absurd h failWith_ne_ok

/-- An empty reason escapes if it is none and cannot be printed. -/
theorem escapes_readEmptyReason {label : String} {raw : Option V} :
    Escapes IsFailure (readEmptyReason label raw) ↔ ∃ v, raw = some v ∧
      (∀ emptyReason, ¬ HasEmptyReason (some v) emptyReason) ∧ ¬ Returns (PyValue.repr v) := by
  cases raw with
  | none => simp [readEmptyReason]
  | some v =>
    simp only [Option.some.injEq, exists_eq_left']
    have hread : (∀ emptyReason, ¬ HasEmptyReason (some v) emptyReason) ↔
        ¬ Returns (readEmptyReason label (some v)) := by
      simp only [← readEmptyReason_eq_ok label, Returns, not_exists]
    have hfailed : ∀ {x : Except Stop (Option EmptyReason)},
        x = failWith (do
          let text ← PyValue.repr v
          return label ++ " empty_reason이 지원되지 않습니다: " ++ text) →
        (Escapes IsFailure x ↔ ¬ Returns x ∧ ¬ Returns (PyValue.repr v)) := by
      rintro _ rfl
      rw [escapes_failWith, returns_bind_of_forall fun _ => returns_pure _, iff_and_self]
      rintro - ⟨_, h⟩
      exact failWith_ne_ok h
    rw [hread]
    simp only [readEmptyReason]
    split
    · simp
    · split_ifs
      · simp
      · simp
      · exact hfailed rfl
    · exact hfailed rfl

theorem sourceRows_eq_ok_iff (subquery : Subquery) {source : Option (Source V)}
    {rows : SourceRows V} :
    sourceRows subquery source = .ok rows ↔ ∃ s, source = some s ∧ WellFormed s rows := by
  refine ⟨fun h => ?_, fun ⟨s, hs, h⟩ => hs ▸ sourceRows_of_wellFormed h subquery⟩
  cases source with
  | none => cases h
  | some s =>
    refine ⟨s, rfl, ?_⟩
    simp only [sourceRows] at h
    split at h
    · cases h
    rename_i herror
    split at h
    · cases h
    · rename_i raw hraw
      obtain ⟨fields, hfields, h⟩ := bind_eq_ok.1 h
      obtain ⟨truncated, htruncated, h⟩ := bind_eq_ok.1 h
      obtain ⟨emptyReason, hemptyReason, h⟩ := bind_eq_ok.1 h
      split_ifs at h with hboth
      cases h
      refine ⟨herror, hraw.trans (congrArg _ (dictRows_eq_ok.1 hfields)),
        readTruncated_eq_ok.1 htruncated, (readEmptyReason_eq_ok _).1 hemptyReason, fun hne => ?_⟩
      exact not_not.1 fun hsome => hboth ⟨hne, hsome⟩
    · cases h

/-- **What reading a source lets through**: an empty reason that cannot be printed. -/
theorem escapes_sourceRows (subquery : Subquery) {source : Option (Source V)} :
    Escapes IsFailure (sourceRows subquery source) ↔
      ∃ s, source = some s ∧ ReasonEscapes s := by
  cases source with
  | none => simp [sourceRows]
  | some s =>
    simp only [Option.some.injEq, exists_eq_left', sourceRows]
    cases herror : s.error with
    | some error =>
      refine iff_of_false (fun h => escapes_error.1 h (isFailure_failure _)) fun h => ?_
      rw [h.error] at herror
      cases herror
    | none =>
      cases hresult : s.result with
      | list rows =>
        simp only [escapes_bind_of_not not_escapes_dictRows,
          escapes_bind_of_not not_escapes_readTruncated, escapes_bind (x := readEmptyReason _ _),
          escapes_readEmptyReason, dictRows_eq_ok, readTruncated_eq_ok]
        constructor
        · rintro ⟨fields, hfields, truncated, htruncated, h | ⟨emptyReason, -, h⟩⟩
          · exact ⟨herror, ⟨fields, hresult.trans (congrArg _ hfields)⟩, ⟨truncated, htruncated⟩, h⟩
          · split_ifs at h
            · exact absurd (isFailure_failure _) (escapes_error.1 h)
            · exact absurd h (not_escapes_ok _)
        · rintro ⟨-, ⟨fields, hfields⟩, ⟨truncated, htruncated⟩, h⟩
          rw [hresult, Result.list.injEq] at hfields
          exact ⟨fields, hfields, truncated, htruncated, Or.inl h⟩
      | _ =>
        refine iff_of_false (fun h => escapes_error.1 h (isFailure_failure _)) fun h => ?_
        obtain ⟨fields, hfields⟩ := h.result
        rw [hresult] at hfields
        cases hfields

/-! ### The calculation inside the composition -/

/-- The integers that a float can hold are short enough to be printed. -/
theorem digits_le_of_lt_floatOverflow {n : ℕ} (h : n < floatOverflow) :
    digits n ≤ Python.maxStrDigits := by
  refine digits_le_of_lt (by decide) (h.trans_le ?_)
  calc floatOverflow ≤ 2 ^ 1024 := Nat.sub_le _ _
    _ ≤ 10 ^ 1024 := Nat.pow_le_pow_left (by norm_num) 1024
    _ ≤ 10 ^ Python.maxStrDigits := Nat.pow_le_pow_right (by norm_num) (by decide)

/-- A production quantity that is accepted is read. -/
theorem exists_production {productionQty : V} (h : isProductionQty productionQty = true) :
    ∃ production, decimal productionQty "productionQty" true = .ok production := by
  unfold isProductionQty at h
  unfold decimal toNumber?
  split at h
  · rename_i n hkind
    rw [Bool.and_eq_true, decide_eq_true_eq, decide_eq_true_eq] at h
    have hshort : ¬ Python.maxStrDigits < digits n.natAbs :=
      not_lt.2 (digits_le_of_lt_floatOverflow (by omega))
    have hpos : ¬ (True ∧ (Decimal.ofInt n).toRat ≤ 0) := by
      rw [toRat_ofInt]
      exact fun hle => absurd h.1 (not_lt.2 (by exact_mod_cast hle.2))
    simp only [hkind, if_neg hshort]
    exact ⟨_, if_neg hpos⟩
  · rename_i x hkind
    have hpos : ¬ (True ∧ x.toRat ≤ 0) :=
      fun hle => absurd (of_decide_eq_true h) (not_lt.2 hle.2)
    simp only [hkind]
    exact ⟨_, if_neg hpos⟩
  · cases h

omit [PyValue V] in
/-- An accepted route joins on the components. -/
theorem route_eq_ok {graph sql graph' sql' : Subquery}
    (h : validateBomShortageRoute [graph, sql] = .ok (graph', sql')) :
    (graph.tool = .graph ∧ sql.tool = .sql) ∧ modeOf [graph, sql] = .ok .joined := by
  simp only [validateBomShortageRoute, bind_eq_ok, require_eq_ok] at h
  obtain ⟨-, htools, -, -, -, ⟨hgraph, hsql⟩, -⟩ := h
  refine ⟨htools, ?_⟩
  rw [modeOf, hgraph, hsql]
  decide

/-- What an accepted transform says of the plan. -/
theorem accepted_spec {rawTransform : Option (BomShortageTransform V)} {graph sql : Subquery}
    {catalog : Option (Dict String TransformSpec)} {transform : BomShortageTransform V}
    {spec : TransformSpec}
    (h : validateResultTransform rawTransform [graph, sql] catalog = .ok (some (transform, spec))) :
    isProductionQty transform.productionQty = true ∧ (graph.tool = .graph ∧ sql.tool = .sql) ∧
      modeOf [graph, sql] = .ok .joined := by
  unfold validateResultTransform at h
  cases rawTransform with
  | none => cases h
  | some raw =>
    simp only at h
    obtain ⟨⟨⟩, hshape, h⟩ := bind_eq_ok.1 h
    obtain ⟨⟨graph', sql'⟩, hroute, h⟩ := bind_eq_ok.1 h
    have hquantity : isProductionQty raw.productionQty = true := by
      simp only [validateTransformShape, bind_eq_ok, require_eq_ok] at hshape
      obtain ⟨-, -, hquantity⟩ := hshape
      exact hquantity
    cases catalog with
    | none => cases h
    | some catalog =>
      simp only at h
      split at h
      · cases h
      · simp only [bind_eq_ok, require_eq_ok, pure_eq_ok, Option.some.injEq, Prod.mk.injEq] at h
        obtain ⟨-, -, -, -, rfl, -⟩ := h
        exact ⟨hquantity, route_eq_ok hroute⟩

end

/-! ### The composition -/

section

variable {V : Type} [PyValue V] [PyBuild V] {graphSource sqlSource : Option (Source V)}
  {transform : BomShortageTransform V} {spec : TransformSpec}

/-- The calculation that the sources ask for. -/
def calculation (graph sql : SourceRows V) (transform : BomShortageTransform V)
    (spec : TransformSpec) : Except PyException (List Shortage) :=
  calculateBomShortages graph.rows sql.rows transform.productionQty spec.outputScale
    (spec.requiredOutputs .graph) (spec.requiredOutputs .sql)

/-- Two sources that were read, neither of them truncated. -/
structure AreRead (graphSource sqlSource : Option (Source V)) (graph sql : SourceRows V) : Prop where
  readsGraph : ∃ s, graphSource = some s ∧ WellFormed s graph
  readsSql : ∃ s, sqlSource = some s ∧ WellFormed s sql
  graphComplete : graph.truncated = false
  sqlComplete : sql.truncated = false

/-- A data problem: the sources cannot be read, or there are rows of which the shortages cannot be
calculated. -/
def DataProblem (graphSource sqlSource : Option (Source V)) (transform : BomShortageTransform V)
    (spec : TransformSpec) : Prop :=
  ¬ ∃ graph sql, AreRead graphSource sqlSource graph sql ∧
    (graph.rows = [] ∧ sql.rows = [] ∨ Returns (calculation graph sql transform spec))

/-- The composition returns, and a data problem becomes an error without rows. -/
def ComposesShortages (graphSource sqlSource : Option (Source V))
    (transform : BomShortageTransform V) (spec : TransformSpec)
    (result : Except PyException (Composed V)) : Prop :=
  ∃ composed, result = .ok composed ∧
    (DataProblem graphSource sqlSource transform spec → composed.error ≠ none ∧ composed.rows = [])

omit [PyBuild V] in
theorem not_composesShortages_error {graphSource sqlSource : Option (Source V)}
    {transform : BomShortageTransform V} {spec : TransformSpec} (exception : PyException) :
    ¬ ComposesShortages graphSource sqlSource transform spec (.error exception) := by
  rintro ⟨_, h, -⟩
  cases h

/-- The first problem of two sources, in reading order, is none that becomes an error. -/
def CompositionEscapes (graphSource sqlSource : Option (Source V))
    (transform : BomShortageTransform V) (spec : TransformSpec) : Prop :=
  (∃ s, graphSource = some s ∧ ReasonEscapes s) ∨
  (∃ s graph, graphSource = some s ∧ WellFormed s graph ∧ ∃ s', sqlSource = some s' ∧
    ReasonEscapes s') ∨
  ∃ graph sql, AreRead graphSource sqlSource graph sql ∧
    (0 ≤ spec.outputScale ∧ spec.outputScale ≤ 12) ∧ ∃ production,
      decimal transform.productionQty "productionQty" true = .ok production ∧
      ShortageEscapes production spec.outputScale (spec.requiredOutputs .graph)
        (spec.requiredOutputs .sql) graph.rows sql.rows

omit [PyBuild V] in
theorem not_shortageEscapes_nil {production : Decimal} {outputScale : ℤ}
    {requiredGraphOutputs requiredSqlOutputs : List String} :
    ¬ ShortageEscapes production outputScale requiredGraphOutputs requiredSqlOutputs
      ([] : List (Dict String V)) [] := by
  rintro (⟨before, row, hprior, -⟩ | ⟨graph, -, -, before, row, hprior, -⟩ |
    ⟨graph, sql, h, row, hrow, -⟩)
  · simp at hprior
  · simp at hprior
  · rw [List.forall₂_nil_left_iff.1 h.readsSql] at hrow
    cases hrow

omit [PyBuild V] in
/-- What the calculation lets through, with its arguments as they are accepted. -/
theorem uncaught_calculation {graph sql : SourceRows V}
    (hquantity : isProductionQty transform.productionQty = true) :
    Uncaught (calculation graph sql transform spec) ↔
      (0 ≤ spec.outputScale ∧ spec.outputScale ≤ 12) ∧ ∃ production,
        decimal transform.productionQty "productionQty" true = .ok production ∧
        ShortageEscapes production spec.outputScale (spec.requiredOutputs .graph)
          (spec.requiredOutputs .sql) graph.rows sql.rows := by
  obtain ⟨production, hproduction⟩ := exists_production hquantity
  by_cases hscale : 0 ≤ spec.outputScale ∧ spec.outputScale ≤ 12
  · rw [calculation, uncaught_calculateBomShortages hscale hproduction, and_iff_right hscale]
    constructor
    · exact fun h => ⟨production, hproduction, h⟩
    · rintro ⟨production', hproduction', h⟩
      rw [hproduction, Except.ok.injEq] at hproduction'
      rwa [hproduction']
  · refine iff_of_false ?_ fun h => hscale h.1
    unfold calculation calculateBomShortages
    rw [Uncaught, escapes_check (not_escapes_require (isValueError_valueError _)), require_eq_ok]
    exact fun h => hscale h.1

/-- `_compose_bom_shortage` returns unless the calculation lets something through; what it returns
is an error without rows, or there was no problem. -/
theorem composeBomShortage_spec (graph sql : SourceRows V) (transform : BomShortageTransform V)
    (spec : TransformSpec) (rowLimit : ℕ) :
    (Returns (composeBomShortage graph sql transform spec rowLimit) ↔
      ¬ (graph.truncated = false ∧ sql.truncated = false ∧ ¬ (graph.rows = [] ∧ sql.rows = []) ∧
        Uncaught (calculation graph sql transform spec))) ∧
    ∀ composed, composeBomShortage graph sql transform spec rowLimit = .ok composed →
      composed.error ≠ none ∧ composed.rows = [] ∨
        graph.truncated = false ∧ sql.truncated = false ∧
          (graph.rows = [] ∧ sql.rows = [] ∨ Returns (calculation graph sql transform spec)) := by
  unfold composeBomShortage
  dsimp only
  by_cases htruncated : graph.truncated = true ∨ sql.truncated = true
  · rw [if_pos htruncated]
    refine ⟨iff_of_true (returns_ok _) ?_, ?_⟩
    · rintro ⟨hgraph, hsql, -⟩
      simp [hgraph, hsql] at htruncated
    · rintro composed ⟨⟩
      exact Or.inl ⟨by simp [failure], rfl⟩
  rw [if_neg htruncated]
  push Not at htruncated
  simp only [ne_eq, Bool.not_eq_true] at htruncated
  by_cases hempty : graph.rows = [] ∧ sql.rows = []
  · rw [if_pos hempty]
    exact ⟨iff_of_true (returns_ok _) fun h => h.2.2.1 hempty,
      fun _ _ => Or.inr ⟨htruncated.1, htruncated.2, Or.inl hempty⟩⟩
  rw [if_neg hempty]
  cases hcalculation : calculation graph sql transform spec with
  | ok rows =>
    unfold calculation at hcalculation
    rw [hcalculation]
    exact ⟨iff_of_true (returns_ok _) fun h => not_escapes_ok _ h.2.2.2,
      fun _ _ => Or.inr ⟨htruncated.1, htruncated.2, Or.inr (returns_ok _)⟩⟩
  | error exception =>
    unfold calculation at hcalculation
    rw [hcalculation]
    simp only
    by_cases hcaught : exception.typeName = "ValueError"
    · rw [if_pos hcaught]
      refine ⟨iff_of_true (returns_ok _) fun h => escapes_error.1 h.2.2.2 hcaught, ?_⟩
      rintro composed ⟨⟩
      exact Or.inl ⟨by simp [failure], rfl⟩
    · rw [if_neg hcaught]
      refine ⟨iff_of_false (not_returns_error _) (not_not.2
        ⟨htruncated.1, htruncated.2, hempty, escapes_error.2 hcaught⟩), ?_⟩
      rintro composed ⟨⟩

theorem composeResults_of_accepted {graph sql : Subquery}
    {toolResults : ToolName → Option (Source V)} {rowLimit : ℤ}
    {rawTransform : Option (BomShortageTransform V)} {catalog : Option (Dict String TransformSpec)}
    (haccepted : validateResultTransform rawTransform [graph, sql] catalog =
      .ok (some (transform, spec))) (hlimit : ¬ rowLimit < 0) :
    composeResults [graph, sql] toolResults rowLimit rawTransform catalog =
      match (do
        let graphRows ← sourceRows graph (toolResults .graph)
        let sqlRows ← sourceRows sql (toolResults .sql)
        return (graphRows, sqlRows)) with
      | .error stop => settle .joined (some transform.type) (.error stop)
      | .ok (graphRows, sqlRows) =>
          composeBomShortage graphRows sqlRows transform spec rowLimit.toNat := by
  obtain ⟨-, ⟨hgraph, hsql⟩, hmode⟩ := accepted_spec haccepted
  unfold composeResults
  rw [hmode]
  simp only [if_neg hlimit, haccepted, allSourceRows, hgraph, hsql]
  cases sourceRows graph (toolResults .graph) with
  | error stop => rfl
  | ok graphRows =>
    cases sourceRows sql (toolResults .sql) with
    | error stop => rfl
    | ok sqlRows => rfl

omit [PyBuild V] in
/-- Two sources that are read escape in the calculation. -/
theorem compositionEscapes_iff_of_read {graph sql : Subquery} {graphRows sqlRows : SourceRows V}
    (hgraph : sourceRows graph graphSource = .ok graphRows)
    (hsql : sourceRows sql sqlSource = .ok sqlRows)
    (hquantity : isProductionQty transform.productionQty = true) :
    CompositionEscapes graphSource sqlSource transform spec ↔
      graphRows.truncated = false ∧ sqlRows.truncated = false ∧
        ¬ (graphRows.rows = [] ∧ sqlRows.rows = []) ∧
        Uncaught (calculation graphRows sqlRows transform spec) := by
  rw [uncaught_calculation hquantity]
  constructor
  · rintro (h | ⟨_, _, -, -, h⟩ | ⟨graphRows', sqlRows', ⟨hgraph', hsql', hgraphComplete,
      hsqlComplete⟩, hscale, production, hproduction, hescapes⟩)
    · have hraised := (escapes_sourceRows graph).2 h
      rw [hgraph] at hraised
      exact absurd hraised (not_escapes_ok _)
    · have hraised := (escapes_sourceRows sql).2 h
      rw [hsql] at hraised
      exact absurd hraised (not_escapes_ok _)
    · rw [← sourceRows_eq_ok_iff graph, hgraph, Except.ok.injEq] at hgraph'
      rw [← sourceRows_eq_ok_iff sql, hsql, Except.ok.injEq] at hsql'
      subst hgraph' hsql'
      refine ⟨hgraphComplete, hsqlComplete, ?_, hscale, production, hproduction, hescapes⟩
      rintro ⟨hnil, hnil'⟩
      rw [hnil, hnil'] at hescapes
      exact not_shortageEscapes_nil hescapes
  · rintro ⟨hgraphComplete, hsqlComplete, -, hescapes⟩
    exact Or.inr (Or.inr ⟨graphRows, sqlRows, ⟨(sourceRows_eq_ok_iff graph).1 hgraph,
      (sourceRows_eq_ok_iff sql).1 hsql, hgraphComplete, hsqlComplete⟩, hescapes⟩)

omit [PyBuild V] in
/-- A failure of the first source is the first problem. -/
theorem not_compositionEscapes_of_graph {graph : Subquery} {message : String}
    (hgraph : sourceRows graph graphSource = .error (.failure message)) :
    ¬ CompositionEscapes graphSource sqlSource transform spec := by
  have hread : ∀ graphRows, ¬ ∃ s, graphSource = some s ∧ WellFormed s graphRows := by
    intro graphRows h
    rw [← sourceRows_eq_ok_iff graph, hgraph] at h
    cases h
  rintro (h | ⟨s, graphRows, hs, hrows, -⟩ | ⟨graphRows, _, h, -⟩)
  · have hraised := (escapes_sourceRows graph).2 h
    rw [hgraph] at hraised
    exact escapes_error.1 hraised (isFailure_failure _)
  · exact hread graphRows ⟨s, hs, hrows⟩
  · exact hread graphRows h.readsGraph

omit [PyBuild V] in
/-- A failure of the second source is the first problem, if the first source is read. -/
theorem not_compositionEscapes_of_sql {graph sql : Subquery} {graphRows : SourceRows V}
    {message : String} (hgraph : sourceRows graph graphSource = .ok graphRows)
    (hsql : sourceRows sql sqlSource = .error (.failure message)) :
    ¬ CompositionEscapes graphSource sqlSource transform spec := by
  rintro (h | ⟨_, _, -, -, h⟩ | ⟨_, sqlRows, h, -⟩)
  · have hraised := (escapes_sourceRows graph).2 h
    rw [hgraph] at hraised
    exact not_escapes_ok _ hraised
  · have hraised := (escapes_sourceRows sql).2 h
    rw [hsql] at hraised
    exact escapes_error.1 hraised (isFailure_failure _)
  · have hread := (sourceRows_eq_ok_iff sql).2 h.readsSql
    rw [hsql] at hread
    cases hread

/-- **The composition of BOM shortages returns, with an error for every problem, exactly if its
first problem is one that becomes an error.** -/
theorem composesShortages_iff (graph sql : Subquery) (toolResults : ToolName → Option (Source V))
    (rowLimit : ℤ) (rawTransform : Option (BomShortageTransform V))
    (catalog : Option (Dict String TransformSpec)) (transform : BomShortageTransform V)
    (spec : TransformSpec)
    (haccepted : validateResultTransform rawTransform [graph, sql] catalog =
      .ok (some (transform, spec))) :
    ComposesShortages (toolResults .graph) (toolResults .sql) transform spec
        (composeResults [graph, sql] toolResults rowLimit rawTransform catalog) ↔
      rowLimit < 0 ∨
        ¬ CompositionEscapes (toolResults .graph) (toolResults .sql) transform spec := by
  have hfailure : ∀ mode message name truncated, ComposesShortages (toolResults .graph)
      (toolResults .sql) transform spec (.ok (failure mode message name truncated)) :=
    fun _ _ _ _ => ⟨_, rfl, fun _ => ⟨by simp [failure], rfl⟩⟩
  obtain ⟨hquantity, -, hmode⟩ := accepted_spec haccepted
  by_cases hlimit : rowLimit < 0
  · refine iff_of_true ?_ (Or.inl hlimit)
    rw [composeResults, hmode]
    simp only [if_pos hlimit]
    exact hfailure _ _ _ _
  rw [or_iff_right hlimit, composeResults_of_accepted haccepted hlimit]
  cases hgraph : sourceRows graph (toolResults .graph) with
  | error stop =>
    cases stop with
    | failure message =>
      exact iff_of_true (hfailure _ _ _ _) (not_compositionEscapes_of_graph hgraph)
    | raised exception =>
      refine iff_of_false (not_composesShortages_error _) (not_not.2 (Or.inl ?_))
      exact (escapes_sourceRows graph).1 (hgraph ▸ escapes_error.2 (not_isFailure_raised exception))
  | ok graphRows =>
    cases hsql : sourceRows sql (toolResults .sql) with
    | error stop =>
      cases stop with
      | failure message =>
        exact iff_of_true (hfailure _ _ _ _) (not_compositionEscapes_of_sql hgraph hsql)
      | raised exception =>
        refine iff_of_false (not_composesShortages_error _) (not_not.2 (Or.inr (Or.inl ?_)))
        obtain ⟨s, hs, hrows⟩ := (sourceRows_eq_ok_iff graph).1 hgraph
        exact ⟨s, graphRows, hs, hrows,
          (escapes_sourceRows sql).1 (hsql ▸ escapes_error.2 (not_isFailure_raised exception))⟩
    | ok sqlRows =>
      rw [compositionEscapes_iff_of_read hgraph hsql hquantity]
      have hspec := composeBomShortage_spec graphRows sqlRows transform spec rowLimit.toNat
      rw [← hspec.1]
      constructor
      · rintro ⟨composed, hcomposed, -⟩
        exact ⟨composed, hcomposed⟩
      · rintro ⟨composed, hcomposed⟩
        refine ⟨composed, hcomposed, fun hproblem => ?_⟩
        rcases hspec.2 composed hcomposed with h | ⟨hgraphComplete, hsqlComplete, h⟩
        · exact h
        · exact absurd ⟨graphRows, sqlRows, ⟨(sourceRows_eq_ok_iff graph).1 hgraph,
            (sourceRows_eq_ok_iff sql).1 hsql, hgraphComplete, hsqlComplete⟩, h⟩ hproblem

end

/-! ### One part -/

/-- A plan with the transform. -/
def bomGraph : Subquery :=
  ⟨"q1", .graph, "Which parts?", [], graphOutputs, ["componentId"], .empty, []⟩

def bomSql : Subquery :=
  ⟨"q2", .sql, "Which stock?", ["q1"], sqlOutputs, ["componentId"],
    ⟨[("componentIds", "q1.componentId")], by simp⟩, []⟩

/-- What the catalog declares for it. -/
def bomSpec : TransformSpec where
  outputScale := 6
  requiredOutputs
    | .graph => graphOutputs
    | .sql => sqlOutputs

def bomCatalog : Dict String TransformSpec := ⟨[(bomShortageV1, bomSpec)], by simp⟩

/-- One piece is produced. -/
def onePiece : BomShortageTransform Cell := ⟨bomShortageV1, .mk (.int 1)⟩

theorem accepted_onePiece :
    validateResultTransform (some onePiece) [bomGraph, bomSql] (some bomCatalog) =
      .ok (some (onePiece, bomSpec)) := by
  have hquantity : isProductionQty onePiece.productionQty = true := by decide +kernel
  have hshape : validateTransformShape onePiece = .ok () := by
    simp only [validateTransformShape, bind_eq_ok, require_eq_ok]
    exact ⟨(), rfl, hquantity⟩
  have hroute : validateBomShortageRoute [bomGraph, bomSql] = .ok (bomGraph, bomSql) := by
    simp only [validateBomShortageRoute, bind_eq_ok, require_eq_ok]
    exact ⟨(), ⟨rfl, rfl⟩, (), rfl, (), ⟨rfl, rfl⟩, (), by decide, rfl⟩
  have hspec : bomCatalog.get? bomShortageV1 = some bomSpec :=
    Dict.get?_eq_some_iff.2 List.mem_cons_self
  have hsame : ∀ outputs : List String, sameSet outputs outputs :=
    fun outputs => ⟨List.Subset.refl _, List.Subset.refl _⟩
  simp only [validateResultTransform, hshape, hroute, hspec, ok_bind]
  refine bind_eq_ok.2 ⟨(), require_eq_ok.2 (hsame _), ?_⟩
  exact bind_eq_ok.2 ⟨(), require_eq_ok.2 (hsame _), rfl⟩

/-- A part of which there is no stock. -/
def onePart (quantity : String) : ToolName → Option (Source Cell) :=
  oneRowEach (partRow 10 quantity) (stockRow 10 "0")

/-- The calculation for one part ends the composition as it ends. -/
theorem composeResults_onePart (quantity : String) :
    composeResults [bomGraph, bomSql] (onePart quantity) 200 (some onePiece) (some bomCatalog) =
      composeBomShortage ⟨[partRow 10 quantity], none, false⟩ ⟨[stockRow 10 "0"], none, false⟩
        onePiece bomSpec 200 := by
  rw [composeResults_of_accepted accepted_onePiece (by decide), onePart, oneRowEach, oneRowEach,
    sourceRows_of_wellFormed (wellFormed_row _), ok_bind,
    sourceRows_of_wellFormed (wellFormed_row _), ok_bind]
  rfl

/-- A quantity of 23 digits, rounded to six places, has one digit too many for the arithmetic: the
exception leaves `compose_results`. -/
theorem not_composesShortages_digits :
    let quantity := "10000000000000000000000"
    composeResults [bomGraph, bomSql] (onePart quantity) 200 (some onePiece) (some bomCatalog) =
        .error ⟨"InvalidOperation", "[<class 'decimal.InvalidOperation'>]", none⟩ ∧
      ¬ ComposesShortages (onePart quantity .graph) (onePart quantity .sql) onePiece bomSpec
        (composeResults [bomGraph, bomSql] (onePart quantity) 200 (some onePiece)
          (some bomCatalog)) := by
  intro quantity
  have hcalculation : calculateBomShortages [partRow 10 quantity] [stockRow 10 "0"]
      (.mk (.int 1)) 6 graphOutputs sqlOutputs =
        .error ⟨"InvalidOperation", "[<class 'decimal.InvalidOperation'>]", none⟩ := by
    decide +kernel
  have hresult : composeResults [bomGraph, bomSql] (onePart quantity) 200 (some onePiece)
      (some bomCatalog) =
        .error ⟨"InvalidOperation", "[<class 'decimal.InvalidOperation'>]", none⟩ := by
    rw [composeResults_onePart]
    simp [composeBomShortage, onePiece, bomSpec, hcalculation]
  refine ⟨hresult, ?_⟩
  rintro ⟨composed, hcomposed, -⟩
  rw [hresult] at hcomposed
  cases hcomposed

/-- A quantity of 22 digits does not. -/
theorem composesShortages_digits :
    let quantity := "1000000000000000000000"
    ComposesShortages (onePart quantity .graph) (onePart quantity .sql) onePiece bomSpec
      (composeResults [bomGraph, bomSql] (onePart quantity) 200 (some onePiece)
        (some bomCatalog)) := by
  intro quantity
  refine (composesShortages_iff bomGraph bomSql (onePart quantity) 200 (some onePiece)
    (some bomCatalog) onePiece bomSpec accepted_onePiece).2 (Or.inr ?_)
  have hgraph : sourceRows bomGraph (onePart quantity .graph) =
      .ok ⟨[partRow 10 quantity], none, false⟩ := sourceRows_of_wellFormed (wellFormed_row _) _
  have hsql : sourceRows bomSql (onePart quantity .sql) =
      .ok ⟨[stockRow 10 "0"], none, false⟩ := sourceRows_of_wellFormed (wellFormed_row _) _
  rw [compositionEscapes_iff_of_read hgraph hsql (accepted_spec accepted_onePiece).1]
  rintro ⟨-, -, -, hescapes⟩
  have hcalculation : calculateBomShortages [partRow 10 quantity] [stockRow 10 "0"]
      (.mk (.int 1)) 6 graphOutputs sqlOutputs =
        .ok [⟨1, "Bike", ⟨false, 1000000, -6⟩, 10, "Part", ⟨false, 10 ^ 27, -6⟩,
          ⟨false, 0, -6⟩, ⟨false, 10 ^ 27, -6⟩, []⟩] := by decide +kernel
  rw [show calculation ⟨[partRow 10 quantity], none, false⟩ ⟨[stockRow 10 "0"], none, false⟩
    onePiece bomSpec = .ok _ from hcalculation] at hescapes
  exact not_escapes_ok _ hescapes

end Composition
