import Text2Cypher.Composition.CollectedRows
import Text2Cypher.Composition.DisplayedShortages
import Text2Cypher.Library.Escaping

/-!
# What the composition of BOM shortages lets through

The composition catches `ValueError`.  Reading a row raises a `KeyError` at a field that is neither
required nor there, and decimal arithmetic raises its signals; both are let through, if nothing in
front of them ends the calculation with a `ValueError`.

* `uncaught_readGraphRow`, `uncaught_readSqlRow`: one row;
* `uncaught_collectGraph`, `uncaught_collectSql`: the loops over the rows;
* **`uncaught_calculateBomShortages`**: the calculation.
-/

namespace Composition

open Checks Decimal

/-- What `except ValueError` catches. -/
def IsValueError (e : PyException) : Prop := e.typeName = "ValueError"

@[simp] theorem isValueError_valueError (message : String) :
    IsValueError (Python.valueError message) := rfl

@[simp] theorem not_isValueError_keyError (key : String) :
    ¬ IsValueError (Python.keyError key) := by
  simp [IsValueError, Python.keyError]

/-- A computation raises something that `except ValueError` lets through. -/
abbrev Uncaught {α : Type} (x : Except PyException α) : Prop := Escapes IsValueError x

/-! ### Values -/

theorem not_uncaught_intText (n : ℤ) : ¬ Uncaught (Python.intText n) := by
  unfold Python.intText
  split_ifs <;> simp

theorem not_uncaught_intListText (ns : List ℤ) : ¬ Uncaught (Python.intListText ns) :=
  not_escapes_bind (not_escapes_mapM not_uncaught_intText ns) fun _ => not_escapes_pure _

/-- A signal of the arithmetic is let through. -/
theorem uncaught_signalled {α : Type} {x : Except Decimal.Signal α} :
    Uncaught (signalled x) ↔ ¬ Returns x := by
  rcases x with (_ | _) | a <;> simp [signalled, Uncaught, IsValueError]

section

variable {V : Type} [PyValue V] {row : Dict String V} {name : String} {value : V} {label : String}

omit [PyValue V] in
theorem uncaught_field : Uncaught (field row name) ↔ row.get? name = none := by
  unfold field
  cases row.get? name <;> simp

omit [PyValue V] in
theorem field_eq_ok : field row name = .ok value ↔ row.get? name = some value := by
  unfold field
  cases row.get? name <;> simp

theorem identifier_eq_ok {n : ℤ} :
    identifier value label = .ok n ↔ PyValue.kind value = .int n := by
  unfold identifier
  cases PyValue.kind value <;> simp

theorem not_uncaught_identifier : ¬ Uncaught (identifier value label) := by
  unfold identifier
  split <;> simp

theorem name_eq_ok {s : String} :
    Composition.name value label = .ok s ↔ PyValue.kind value = .str s ∧ s ≠ "" := by
  unfold Composition.name
  cases PyValue.kind value with
  | str t =>
    by_cases ht : t = ""
    · simp only [if_pos ht, reduceCtorEq, Kind.str.injEq, false_iff, not_and, not_not]
      exact fun hs => hs ▸ ht
    · simp only [if_neg ht, Except.ok.injEq, Kind.str.injEq, iff_self_and]
      exact fun hs => hs ▸ ht
  | _ => simp

theorem not_uncaught_name : ¬ Uncaught (Composition.name value label) := by
  unfold Composition.name
  dsimp only
  split
  · split_ifs <;> simp
  · simp

theorem not_uncaught_decimal {positive : Bool} : ¬ Uncaught (decimal value label positive) := by
  unfold decimal
  dsimp only
  split
  · simp
  · simp
  · split_ifs <;> simp
  · simp

theorem listItems_eq_ok {items : List V} :
    listItems value label = .ok items ↔ PyValue.kind value = .list items := by
  unfold listItems
  cases PyValue.kind value <;> simp

theorem not_uncaught_listItems : ¬ Uncaught (listItems value label) := by
  unfold listItems
  split <;> simp

theorem readDepth_eq_ok {n : ℤ} :
    readDepth value label = .ok n ↔ PyValue.kind value = .int n ∧ 1 ≤ n := by
  unfold readDepth
  cases PyValue.kind value with
  | int m =>
    by_cases hm : m < 1
    · simp only [if_pos hm, reduceCtorEq, Kind.int.injEq, false_iff, not_and]
      omega
    · simp only [if_neg hm, Except.ok.injEq, Kind.int.injEq, iff_self_and]
      omega
  | _ => simp

theorem not_uncaught_readDepth : ¬ Uncaught (readDepth value label) := by
  unfold readDepth
  dsimp only
  split
  · split_ifs <;> simp
  · simp

omit [PyValue V] in
theorem not_uncaught_requireFields {fields : List String} :
    ¬ Uncaught (requireFields row fields label) := not_escapes_require rfl

omit [PyValue V] in
theorem requireFields_eq_ok {fields : List String} :
    requireFields row fields label = .ok () ↔ fields ⊆ row.keys := by
  simp [requireFields, List.filter_eq_nil_iff, List.subset_def]

end

/-! ### A row of the graph -/

section

variable {V : Type} [PyValue V]

/-- The fields in the order of reading, each with what its value must be for the next one to be
read: the first of them that does not pass is missing. -/
def MissesField (row : Dict String V) : List (String × (V → Prop)) → Prop
  | [] => False
  | (name, accepts) :: rest => row.get? name = none ∨
      ∃ v, row.get? name = some v ∧ accepts v ∧ MissesField row rest

omit [PyValue V] in
/-- Reading a field, which can be missing. -/
theorem uncaught_field_bind {α : Type} {row : Dict String V} {name : String} {accepts : V → Prop}
    {rest : List (String × (V → Prop))} {k : V → Except PyException α}
    (hk : ∀ v, row.get? name = some v → (Uncaught (k v) ↔ accepts v ∧ MissesField row rest)) :
    Uncaught (field row name >>= k) ↔ MissesField row ((name, accepts) :: rest) := by
  rw [Uncaught, escapes_bind]
  refine or_congr uncaught_field ?_
  simp only [field_eq_ok]
  exact exists_congr fun v => and_congr_right (hk v)

omit [PyValue V] in
/-- Reading a field and checking its value. -/
theorem uncaught_read {α β : Type} {row : Dict String V} {name : String} {accepts : V → Prop}
    {rest : List (String × (V → Prop))} {f : V → Except PyException β}
    {k : β → Except PyException α} (hf : ∀ v, ¬ Uncaught (f v))
    (haccepts : ∀ v, accepts v ↔ ∃ b, f v = .ok b)
    (hk : ∀ v b, row.get? name = some v → f v = .ok b → (Uncaught (k b) ↔ MissesField row rest)) :
    Uncaught (field row name >>= fun v => f v >>= k) ↔
      MissesField row ((name, accepts) :: rest) := by
  refine uncaught_field_bind fun v hv => ?_
  rw [Uncaught, escapes_bind_of_not (hf v), haccepts]
  constructor
  · rintro ⟨b, hb, h⟩
    exact ⟨⟨b, hb⟩, (hk v b hv hb).1 h⟩
  · rintro ⟨⟨b, hb⟩, h⟩
    exact ⟨b, hb, (hk v b hv hb).2 h⟩

/-- The kind of the value of a field that is there. -/
def kindOf (row : Dict String V) (name : String) : Option (Kind V) :=
  (row.get? name).map PyValue.kind

/-- The path of a row with its quantities, as far as they are checked before the supplier is
read. -/
structure HasPath (row : Dict String V) (pathItems quantityItems : List V) (path : List ℤ)
    (quantities : List Decimal) : Prop where
  pathProductIds : kindOf row "pathProductIds" = some (.list pathItems)
  quantityPerAssembly : kindOf row "quantityPerAssembly" = some (.list quantityItems)
  identifiers : List.Forall₂ (fun item n => PyValue.kind item = .int n) pathItems path
  decimals : List.Forall₂ (fun item q => decimal item "" true = .ok q) quantityItems quantities
  length : path.length = quantities.length + 1
  depth : kindOf row "depth" = some (.int quantities.length)
  first : kindOf row "finishedProductId" = path.head?.map .int
  last : kindOf row "componentId" = path.getLast?.map .int

def IsIdentifier (v : V) : Prop := ∃ n, PyValue.kind v = .int n

def IsName (v : V) : Prop := ∃ s, PyValue.kind v = .str s ∧ s ≠ ""

def IsDepth (v : V) : Prop := ∃ n, PyValue.kind v = .int n ∧ 1 ≤ n

/-- The fields of a row of the graph, in the order of reading. -/
def graphFields (row : Dict String V) : List (String × (V → Prop)) :=
  [("finishedProductId", IsIdentifier), ("finishedProductName", IsName),
    ("componentId", IsIdentifier), ("componentName", IsName), ("depth", IsDepth),
    ("pathProductIds", fun _ => True),
    ("quantityPerAssembly", fun _ => ∃ pathItems quantityItems path quantities,
      HasPath row pathItems quantityItems path quantities),
    ("supplierId", fun _ => True), ("supplierName", fun _ => True)]

theorem uncaught_readSupplier {row : Dict String V} {label : String} :
    Uncaught (readSupplier row label) ↔
      MissesField row [("supplierId", fun _ => True), ("supplierName", fun _ => True)] := by
  unfold readSupplier
  refine uncaught_field_bind fun supplierIdRaw _ => Iff.trans ?_ (and_iff_right trivial).symm
  refine uncaught_field_bind fun supplierNameRaw _ => ?_
  rw [MissesField, and_false, iff_false]
  refine not_escapes_bind (not_escapes_require (isValueError_valueError _)) fun _ => ?_
  split_ifs
  · exact not_escapes_pure _
  · exact not_escapes_bind not_uncaught_identifier fun _ =>
      not_escapes_bind not_uncaught_name fun _ => not_escapes_pure _

theorem kindOf_eq_some {row : Dict String V} {name : String} {v : V} {k : Kind V}
    (hv : row.get? name = some v) (hk : PyValue.kind v = k) : kindOf row name = some k := by
  rw [kindOf, hv, Option.map_some, hk]

omit [PyValue V] in
theorem eq_some_of_kind {k : Option ℤ} {n : ℤ}
    (h : some (Kind.int n : Kind V) = k.map Kind.int) : k = some n := by
  cases k with
  | none => cases h
  | some m =>
    simp only [Option.map_some, Option.some.injEq, Kind.int.injEq] at h
    rw [h]

/-- **What reading a row of the graph lets through**: a field that is not there. -/
theorem uncaught_readGraphRow {required : List String} {rowIndex : ℕ} {row : Dict String V} :
    Uncaught (readGraphRow required rowIndex row) ↔
      required ⊆ row.keys ∧ MissesField row (graphFields row) := by
  unfold readGraphRow
  dsimp only
  rw [Uncaught, escapes_check not_uncaught_requireFields, requireFields_eq_ok]
  refine and_congr_right fun _ => ?_
  refine uncaught_read (fun _ => not_uncaught_identifier)
    (fun _ => exists_congr fun _ => identifier_eq_ok.symm) fun v finishedId hv hfinished => ?_
  have hfinished := kindOf_eq_some hv (identifier_eq_ok.1 hfinished)
  refine uncaught_read (fun _ => not_uncaught_name)
    (fun _ => exists_congr fun _ => name_eq_ok.symm) fun _ finishedName _ _ => ?_
  refine uncaught_read (fun _ => not_uncaught_identifier)
    (fun _ => exists_congr fun _ => identifier_eq_ok.symm) fun v componentId hv hcomponent => ?_
  have hcomponent := kindOf_eq_some hv (identifier_eq_ok.1 hcomponent)
  refine uncaught_read (fun _ => not_uncaught_name)
    (fun _ => exists_congr fun _ => name_eq_ok.symm) fun _ componentName _ _ => ?_
  refine uncaught_read (fun _ => not_uncaught_readDepth)
    (fun _ => exists_congr fun _ => readDepth_eq_ok.symm) fun v depth hv hdepth => ?_
  have hdepth := kindOf_eq_some hv (readDepth_eq_ok.1 hdepth).1
  refine uncaught_field_bind fun rawPath hpath => Iff.trans ?_ (and_iff_right trivial).symm
  refine uncaught_field_bind fun rawQuantities hquantities => ?_
  have hpath := kindOf_eq_some hpath rfl
  have hquantities := kindOf_eq_some hquantities rfl
  have hidentifiers : ∀ label (i : ℕ) (v : V) (n : ℤ),
      identifier v (label ++ toString i ++ "]") = .ok n ↔ PyValue.kind v = .int n :=
    fun _ _ _ _ => identifier_eq_ok
  have hdecimals : ∀ label (i : ℕ) (v : V) (q : Decimal),
      decimal v (label ++ toString i ++ "]") true = .ok q ↔ decimal v "" true = .ok q :=
    fun _ _ v q => decimal_alike v _ _ _ q
  have hreadSupplier : Uncaught (readSupplier row ("GRAPH " ++ toString rowIndex ++ "번 행")) ↔
      MissesField row [("supplierId", fun _ => True), ("supplierName", fun _ => True)] :=
    uncaught_readSupplier
  simp only [Uncaught, escapes_bind_of_not not_uncaught_listItems,
    escapes_bind_of_not (not_escapes_numbered (fun _ _ => not_uncaught_identifier) _ _),
    escapes_bind_of_not (not_escapes_numbered (fun _ _ => not_uncaught_decimal) _ _),
    escapes_check (not_escapes_require (isValueError_valueError _)), require_eq_ok,
    listItems_eq_ok, numbered_eq_ok_iff (hidentifiers _), numbered_eq_ok_iff (hdecimals _),
    ← hreadSupplier]
  constructor
  · rintro ⟨pathItems, hpathItems, quantityItems, hquantityItems, path, hreads, quantities,
      hreads', hlength, hdepths, ⟨hfirst, hlast⟩, h⟩
    refine ⟨⟨pathItems, quantityItems, path, quantities, ?_⟩, ?_⟩
    · refine ⟨hpath.trans (congrArg some hpathItems), hquantities.trans (congrArg some
        hquantityItems), hreads, hreads', hlength, ?_, ?_, ?_⟩
      · rw [hdepth, hdepths]
      · rw [hfinished, hfirst]
        rfl
      · rw [hcomponent, hlast]
        rfl
    · rcases escapes_bind.1 h with h | ⟨_, -, h⟩
      · exact h
      · exact absurd h (not_escapes_pure _)
  · rintro ⟨⟨pathItems, quantityItems, path, quantities, h⟩, hsupplier⟩
    have hdepths := hdepth.symm.trans h.depth
    simp only [Option.some.injEq, Kind.int.injEq] at hdepths
    exact ⟨pathItems, Option.some.inj (hpath.symm.trans h.pathProductIds), quantityItems,
      Option.some.inj (hquantities.symm.trans h.quantityPerAssembly), path, h.identifiers,
      quantities, h.decimals, h.length, hdepths, ⟨eq_some_of_kind (hfinished.symm.trans h.first),
        eq_some_of_kind (hcomponent.symm.trans h.last)⟩, escapes_bind.2 (Or.inl hsupplier)⟩

/-! ### A row of the stock -/

/-- The fields of a row of SQL, in the order of reading. -/
def sqlFields (known : List ℤ) : List (String × (V → Prop)) :=
  [("componentId", fun v => ∃ n, PyValue.kind v = .int n ∧ n ∉ known),
    ("makeFlag", fun v => ∃ b, PyValue.kind v = .bool b), ("actualStock", fun _ => True)]

/-- **What reading a row of the stock lets through**. -/
theorem uncaught_readSqlRow {required : List String} {known : List ℤ} {rowIndex : ℕ}
    {row : Dict String V} :
    Uncaught (readSqlRow required known rowIndex row) ↔
      required ⊆ row.keys ∧ MissesField row (sqlFields known) := by
  unfold readSqlRow
  dsimp only
  rw [Uncaught, escapes_check not_uncaught_requireFields, requireFields_eq_ok]
  refine and_congr_right fun _ => ?_
  refine uncaught_field_bind fun v _ => ?_
  rw [Uncaught, escapes_bind_of_not not_uncaught_identifier]
  simp only [identifier_eq_ok]
  rw [← exists_and_right]
  refine exists_congr fun componentId => ?_
  rw [and_assoc]
  refine and_congr_right fun _ => ?_
  by_cases hknown : componentId ∈ known
  · rw [if_pos hknown]
    refine iff_of_false ?_ fun h => h.1 hknown
    exact not_escapes_bind (not_uncaught_intText _) fun _ =>
      not_escapes_throw_bind (isValueError_valueError _)
  rw [if_neg hknown, and_iff_right hknown]
  refine uncaught_field_bind fun v _ => ?_
  cases hkind : PyValue.kind v with
  | bool b =>
    simp only [Kind.bool.injEq, exists_eq', true_and]
    refine uncaught_field_bind fun v _ => ?_
    rw [MissesField, and_false, iff_false]
    exact not_escapes_bind not_uncaught_decimal fun _ => not_escapes_pure _
  | _ =>
    refine iff_of_false (not_escapes_throw_bind (isValueError_valueError _)) ?_
    simp

end

/-! ### The loop over the graph -/

theorem uncaught_enterSupplierName {supplierNames : Dict ℤ String} {supplier : Option (ℤ × String)} :
    ¬ Uncaught (enterSupplierName supplierNames supplier) := by
  unfold enterSupplierName
  cases supplier with
  | none => exact not_escapes_ok _
  | some supplier =>
    dsimp only
    split_ifs
    · exact not_escapes_bind (not_uncaught_intText _) fun _ =>
        fun h => escapes_error.1 h (isValueError_valueError _)
    · exact not_escapes_ok _

/-- Entering a row lets a signal of the product through, if the row fits. -/
theorem uncaught_enterRow {production : Decimal} {s : Collected} {row : GraphRow} :
    Uncaught (enterRow production s row) ↔
      Fitting s row ∧ ¬ Returns (pathRequired production row.quantities) := by
  unfold enterRow
  rw [Uncaught, escapes_bind_of_not uncaught_enterSupplierName]
  simp only [Dict.setDefault_fst, enterSupplierName_eq_ok]
  constructor
  · rintro ⟨_, ⟨hsupplier, rfl⟩, h⟩
    split at h
    · exact absurd h (not_escapes_bind (not_uncaught_intText _) fun _ =>
        not_escapes_throw_bind (isValueError_valueError _))
    rename_i hidentity
    split at h
    · exact absurd h (not_escapes_bind (not_uncaught_intText _) fun _ =>
        not_escapes_bind (not_uncaught_intListText _) fun _ =>
          not_escapes_throw_bind (isValueError_valueError _))
    rename_i hquantities
    refine ⟨⟨hsupplier, not_not.1 hidentity, not_not.1 hquantities⟩, ?_⟩
    rcases escapes_bind.1 h with h | ⟨_, -, h⟩
    · exact uncaught_signalled.1 h
    · exact absurd h (not_escapes_pure _)
  · rintro ⟨⟨hsupplier, hidentity, hquantities⟩, hrequired⟩
    refine ⟨_, ⟨hsupplier, rfl⟩, ?_⟩
    refine (congrArg (Escapes IsValueError) ((if_neg (not_not.2 hidentity)).trans
      (if_neg (not_not.2 hquantities)))).mpr ?_
    exact escapes_bind.2 (Or.inl (uncaught_signalled.2 hrequired))

section

variable {V : Type} [PyValue V]

/-- Rows of the graph that are read and entered. -/
structure Takes (production : Decimal) (required : List String) (rows : List (Dict String V))
    (graph : List GraphRow) : Prop where
  reads : List.Forall₂ (ReadsGraphRow required) rows graph
  agree : ∀ r ∈ graph, ∀ r' ∈ graph, Agree r r'
  products : ∀ r ∈ graph, Returns (pathRequired production r.quantities)

/-- A row of the graph, behind others, of which a field is missing or the product signals. -/
def GraphRowEscapes (production : Decimal) (required : List String) (graph : List GraphRow)
    (row : Dict String V) : Prop :=
  required ⊆ row.keys ∧ MissesField row (graphFields row) ∨
    ∃ r, ReadsGraphRow required row r ∧ (∀ r' ∈ graph, Agree r' r) ∧
      ¬ Returns (pathRequired production r.quantities)

/-- The rows are taken up to one that lets something through. -/
def GraphEscapes (production : Decimal) (required : List String) (rows : List (Dict String V)) :
    Prop :=
  ∃ before row, before ++ [row] <+: rows ∧ ∃ graph, Takes production required before graph ∧
    GraphRowEscapes production required graph row

theorem uncaught_collectGraph_from {production : Decimal} {required : List String}
    {known : List GraphRow} {s : Collected} (hknown : Collects production known s) {n : ℕ}
    {rows : List (Dict String V)} :
    Uncaught (collectGraph production required n s rows) ↔
      ∃ before row, before ++ [row] <+: rows ∧ ∃ graph,
        List.Forall₂ (ReadsGraphRow required) before graph ∧
        (∀ r ∈ known ++ graph, ∀ r' ∈ known ++ graph, Agree r r') ∧
        (∀ r ∈ graph, Returns (pathRequired production r.quantities)) ∧
        GraphRowEscapes production required (known ++ graph) row := by
  induction rows generalizing n known s with
  | nil =>
    refine iff_of_false (not_escapes_ok _) ?_
    rintro ⟨before, row, hprior, -⟩
    simp at hprior
  | cons row rows ih =>
    have hsame := readGraphRow_alike required n 0 row
    simp only [collectGraph, Uncaught, escapes_bind (x := readGraphRow required n row),
      escapes_bind (x := enterRow production s _)]
    constructor
    · rintro (h | ⟨r, hr, h | ⟨next, hnext, h⟩⟩)
      · refine ⟨[], row, ⟨rows, rfl⟩, [], .nil, ?_, by simp, Or.inl (uncaught_readGraphRow.1 h)⟩
        rw [List.append_nil]
        exact hknown.agree
      · obtain ⟨hfitting, hproduct⟩ := uncaught_enterRow.1 h
        refine ⟨[], row, ⟨rows, rfl⟩, [], .nil, ?_, by simp, ?_⟩
        · rw [List.append_nil]
          exact hknown.agree
        · rw [List.append_nil]
          exact Or.inr ⟨r, (hsame r).1 hr, hknown.fitting_iff.1 hfitting, hproduct⟩
      · obtain ⟨hfitting, required', hrequired, rfl⟩ := enterRow_eq_ok.1 hnext
        obtain ⟨before, row', hprior, graph, hreads, hagree, hproducts, hescapes⟩ :=
          (ih (hknown.entered hfitting hrequired)).1 h
        rw [List.append_assoc, List.singleton_append] at hagree hescapes
        exact ⟨row :: before, row', List.cons_prefix_cons.2 ⟨rfl, hprior⟩, r :: graph,
          .cons ((hsame r).1 hr) hreads, hagree,
          List.forall_mem_cons.2 ⟨⟨required', hrequired⟩, hproducts⟩, hescapes⟩
    · rintro ⟨before, row', hprior, graph, hreads, hagree, hproducts, hescapes⟩
      cases hreads with
      | nil =>
        obtain ⟨rfl, -⟩ := List.cons_prefix_cons.1 hprior
        rw [List.append_nil] at hescapes
        rcases hescapes with h | ⟨r, hr, hfits, hproduct⟩
        · exact Or.inl (uncaught_readGraphRow.2 h)
        · exact Or.inr ⟨r, (hsame r).2 hr,
            Or.inl (uncaught_enterRow.2 ⟨hknown.fitting_iff.2 hfits, hproduct⟩)⟩
      | @cons _ r before graph hr hreads =>
        obtain ⟨heq, hrest⟩ := List.cons_prefix_cons.1 hprior
        subst heq
        obtain ⟨⟨required', hrequired⟩, hproducts⟩ := List.forall_mem_cons.1 hproducts
        have hfitting : Fitting s r := hknown.fitting_iff.2 fun r' hr' =>
          hagree r' (List.mem_append_left _ hr') r (by simp)
        have hnext := enterRow_eq_ok.2 ⟨hfitting, required', hrequired, rfl⟩
        rw [← List.singleton_append, ← List.append_assoc] at hagree hescapes
        exact Or.inr ⟨r, (hsame r).2 hr, Or.inr ⟨_, hnext,
          (ih (hknown.entered hfitting hrequired)).2
            ⟨before, row', hrest, graph, hreads, hagree, hproducts, hescapes⟩⟩⟩

/-- **What the loop over the graph lets through.** -/
theorem uncaught_collectGraph {production : Decimal} {required : List String}
    {rows : List (Dict String V)} :
    Uncaught (collectGraph production required 0 .start rows) ↔
      GraphEscapes production required rows := by
  rw [uncaught_collectGraph_from (collects_start production)]
  constructor
  · rintro ⟨before, row, hprior, graph, hreads, hagree, hproducts, hescapes⟩
    exact ⟨before, row, hprior, graph, ⟨hreads, hagree, hproducts⟩, hescapes⟩
  · rintro ⟨before, row, hprior, graph, ⟨hreads, hagree, hproducts⟩, hescapes⟩
    exact ⟨before, row, hprior, graph, hreads, hagree, hproducts, hescapes⟩

end

end Composition
