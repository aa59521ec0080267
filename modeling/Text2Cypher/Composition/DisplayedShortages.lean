import Text2Cypher.Composition.BomShortage
import Text2Cypher.Library.DecimalRounding

/-!
# What the rows of a BOM shortage display

`calculate_bom_shortages` compares the requirement with the stock as they are, and rounds what it
displays afterwards: requirement, stock and shortage each on its own.

* `shortageOf_eq_ok`, `mem_shortagesOf`: where a row comes from;
* **`displayedNear_of_calculateBomShortages`**: what is displayed agrees up to one unit of the
  scale, and exactly if the requirement and the stock have no digits beyond it.
-/

namespace Composition

open Checks Decimal

/-- A row that displays a shortage, and as much of it as requirement and stock differ by. -/
structure DisplayedExactly (row : Shortage) : Prop where
  shortage_pos : 0 < row.shortageQty.toRat
  stock_lt : row.actualStock.toRat < row.requiredQty.toRat
  shortage_eq : row.shortageQty.toRat = row.requiredQty.toRat - row.actualStock.toRat

/-- A row that does so up to one unit of the scale. -/
structure DisplayedNear (outputScale : ℤ) (row : Shortage) : Prop where
  shortage_nonneg : 0 ≤ row.shortageQty.toRat
  stock_le : row.actualStock.toRat ≤ row.requiredQty.toRat
  shortage_near : |row.shortageQty.toRat - (row.requiredQty.toRat - row.actualStock.toRat)| ≤
    10 ^ (-outputScale)

/-- The requirement of a component: the sum over its paths. -/
def requirement (component : Component) : Except Decimal.Signal Decimal :=
  component.paths.values.foldlM (fun sum v => Decimal.add context sum v) Decimal.zero

/-- The component and the stock that a row is about, with what is required and what is there before
it is rounded. -/
structure IsAbout (collected : Collected) (stocks : Dict ℤ (Bool × Decimal)) (row : Shortage)
    (required stock : Decimal) : Prop where
  component : ∃ component, collected.components.get? row.componentId = some component ∧
    requirement component = .ok required
  stock : stocks.get? row.componentId = some (false, stock)

/-! ### Where the rows come from -/

/-- One row before it is rounded, and the rounding. -/
structure RoundedTo (outputScale : ℤ) (required stock : Decimal) (row : Shortage) : Prop where
  difference : ∃ difference, Decimal.sub context required stock = .ok difference ∧
    0 < difference.toRat ∧
    Decimal.quantize context difference (-outputScale) = .ok row.shortageQty
  required : Decimal.quantize context required (-outputScale) = .ok row.requiredQty
  stock : Decimal.quantize context stock (-outputScale) = .ok row.actualStock

theorem maxDecimal_zero_eq_zero {a : Decimal} (h : ¬ 0 < a.toRat) :
    (maxDecimal a Decimal.zero).toRat = 0 := by
  rw [maxDecimal, toRat_zero]
  split_ifs with hneg
  · exact toRat_zero
  · exact le_antisymm (not_lt.1 h) (not_lt.1 hneg)

theorem maxDecimal_zero_of_pos {a : Decimal} (h : 0 < a.toRat) :
    maxDecimal a Decimal.zero = a := by
  rw [maxDecimal, toRat_zero, if_neg h.le.not_gt]

/-- A row of the result, and what it is computed from. -/
structure IsRowOf (production : Decimal) (outputScale componentId : ℤ) (component : Component)
    (stock : Bool × Decimal) (row : Shortage) : Prop where
  makeFlag : stock.1 = false
  componentId : row.componentId = componentId
  identity : (row.finishedProductId, row.finishedProductName, row.componentName) =
    (component.finishedProductId, component.finishedProductName, component.componentName)
  suppliers : row.suppliers = component.suppliers.insertionSort supplierLe
  productionQty : Decimal.quantize context production (-outputScale) = .ok row.productionQty
  rounded : ∃ required, requirement component = .ok required ∧
    RoundedTo outputScale required stock.2 row

theorem shortageOf_eq_ok {production : Decimal} {outputScale componentId : ℤ}
    {component : Component} {stock : Bool × Decimal} {row : Shortage}
    (h : shortageOf production outputScale componentId component stock = .ok (some row)) :
    IsRowOf production outputScale componentId component stock row := by
  obtain ⟨makeFlag, actualStock⟩ := stock
  unfold shortageOf at h
  simp only at h
  split_ifs at h with hmake
  · simp at h
  obtain ⟨required, hrequired, h⟩ := bind_eq_ok.1 h
  obtain ⟨difference, hdifference, h⟩ := bind_eq_ok.1 h
  split_ifs at h with hzero
  · simp at h
  have hpos : 0 < difference.toRat := by
    by_contra hneg
    exact hzero (maxDecimal_zero_eq_zero hneg)
  rw [maxDecimal_zero_of_pos hpos] at h
  simp only [bind_eq_ok, pure_eq_ok, Option.some.injEq] at h
  obtain ⟨productionQty, hproductionQty, requiredQty, hrequiredQty, stockQty, hstockQty,
    shortageQty, hshortageQty, rfl⟩ := h
  exact ⟨by simpa using hmake, rfl, rfl, rfl, hproductionQty, required, hrequired,
    ⟨difference, hdifference, hpos, hshortageQty⟩, hrequiredQty, hstockQty⟩

/-- A component that is bought and has no row is not short. -/
theorem shortageOf_eq_none {production : Decimal} {outputScale componentId : ℤ}
    {component : Component} {stock : Decimal}
    (h : shortageOf production outputScale componentId component (false, stock) = .ok none) :
    ∃ required difference, requirement component = .ok required ∧
      Decimal.sub context required stock = .ok difference ∧ difference.toRat ≤ 0 := by
  unfold shortageOf at h
  simp only [Bool.false_eq_true, if_false] at h
  obtain ⟨required, hrequired, h⟩ := bind_eq_ok.1 h
  obtain ⟨difference, hdifference, h⟩ := bind_eq_ok.1 h
  refine ⟨required, difference, hrequired, hdifference, ?_⟩
  by_contra hpos
  rw [not_le] at hpos
  rw [maxDecimal_zero_of_pos hpos, if_neg hpos.ne'] at h
  simp only [bind_eq_ok, pure_eq_ok, reduceCtorEq, and_false, exists_false] at h

section

variable {production : Decimal} {outputScale : ℤ} {stocks : Dict ℤ (Bool × Decimal)}
  {entries : List (ℤ × Component)} {rows : List Shortage}

theorem shortagesOf_cons {entry : ℤ × Component} :
    shortagesOf production outputScale stocks (entry :: entries) = .ok rows ↔
      ∃ stock row others, stocks.get? entry.1 = some stock ∧
        shortageOf production outputScale entry.1 entry.2 stock = .ok row ∧
        shortagesOf production outputScale stocks entries = .ok others ∧
        row.toList ++ others = rows := by
  obtain ⟨componentId, component⟩ := entry
  rw [shortagesOf]
  cases hstock : stocks.get? componentId with
  | none => simp [bind_eq_ok]
  | some stock =>
    constructor
    · intro h
      obtain ⟨row, hrow, h⟩ := bind_eq_ok.1 h
      obtain ⟨others, hothers, h⟩ := bind_eq_ok.1 h
      exact ⟨stock, row, others, rfl, signalled_eq_ok.1 hrow, hothers, pure_eq_ok.1 h⟩
    · rintro ⟨_, row, others, ⟨⟩, hrow, hothers, heq⟩
      exact bind_eq_ok.2 ⟨row, signalled_eq_ok.2 hrow,
        bind_eq_ok.2 ⟨others, hothers, pure_eq_ok.2 heq⟩⟩

/-- **The entries that rows come from**. -/
theorem mem_shortagesOf (h : shortagesOf production outputScale stocks entries = .ok rows)
    {row : Shortage} :
    row ∈ rows ↔ ∃ entry ∈ entries, ∃ stock, stocks.get? entry.1 = some stock ∧
      shortageOf production outputScale entry.1 entry.2 stock = .ok (some row) := by
  induction entries generalizing rows with
  | nil =>
    simp only [shortagesOf, Except.ok.injEq] at h
    simp [← h]
  | cons entry entries ih =>
    obtain ⟨stock, first, others, hstock, hfirst, hothers, rfl⟩ := shortagesOf_cons.1 h
    simp only [List.mem_append, Option.mem_toList, ih hothers, List.mem_cons, or_and_right,
      exists_or, exists_eq_left, hstock, Option.some.injEq, exists_eq_left']
    rw [hfirst, Except.ok.injEq]

/-- The loop returns if every component has a stock and is computed. -/
theorem returns_shortagesOf :
    Returns (shortagesOf production outputScale stocks entries) ↔
      ∀ entry ∈ entries, ∃ stock row, stocks.get? entry.1 = some stock ∧
        shortageOf production outputScale entry.1 entry.2 stock = .ok row := by
  induction entries with
  | nil => simp [shortagesOf]
  | cons entry entries ih =>
    rw [List.forall_mem_cons, ← ih]
    constructor
    · rintro ⟨rows, h⟩
      obtain ⟨stock, first, others, hstock, hfirst, hothers, -⟩ := shortagesOf_cons.1 h
      exact ⟨⟨stock, first, hstock, hfirst⟩, others, hothers⟩
    · rintro ⟨⟨stock, first, hstock, hfirst⟩, others, hothers⟩
      exact ⟨_, shortagesOf_cons.2 ⟨stock, first, others, hstock, hfirst, hothers, rfl⟩⟩

/-- There is one row at most for a component. -/
theorem ids_shortagesOf (h : shortagesOf production outputScale stocks entries = .ok rows) :
    (rows.map (·.componentId)).Sublist (entries.map Prod.fst) := by
  induction entries generalizing rows with
  | nil =>
    simp only [shortagesOf, Except.ok.injEq] at h
    simp [← h]
  | cons entry entries ih =>
    obtain ⟨stock, first, others, -, hfirst, hothers, rfl⟩ := shortagesOf_cons.1 h
    cases first with
    | none => exact (ih hothers).cons _
    | some row =>
      simp only [Option.toList_some, List.singleton_append, List.map_cons,
        (shortageOf_eq_ok hfirst).componentId]
      exact (ih hothers).cons_cons _

end

/-! ### What is displayed -/

theorem etiny_le_scale {outputScale : ℤ} (h : outputScale ≤ 12) : context.etiny ≤ -outputScale := by
  have hetiny : context.etiny = -1000026 := rfl
  omega

theorem RoundedTo.stock_lt {outputScale : ℤ} {required stock : Decimal} {row : Shortage}
    (h : RoundedTo outputScale required stock row) : stock.toRat < required.toRat := by
  obtain ⟨difference, hsub, hpos, -⟩ := h.difference
  exact lt_of_sub_pos hsub hpos

theorem RoundedTo.displayedNear {outputScale : ℤ} {required stock : Decimal} {row : Shortage}
    (h : RoundedTo outputScale required stock row) (hscale : outputScale ≤ 12) :
    DisplayedNear outputScale row := by
  obtain ⟨difference, hsub, hpos, hshown⟩ := h.difference
  have hrequired := (quantize_eq_ok h.required).1
  have hstock := (quantize_eq_ok h.stock).1
  have hshortage := (quantize_eq_ok hshown).1
  have hnear := (quantize_sub (etiny_le_scale hscale) hsub hshown).1
  refine ⟨?_, ?_, ?_⟩
  · have hmono := toPlace_mono (e := -outputScale) hpos.le
    rwa [toPlace_of_isMultiple ⟨0, by simp⟩, ← hshortage] at hmono
  · rw [hrequired, hstock]
    exact toPlace_mono h.stock_lt.le
  · have hmultiple : IsMultiple (-outputScale) (row.requiredQty.toRat - row.actualStock.toRat) := by
      rw [hrequired, hstock]
      exact (isMultiple_toPlace _ _).sub (isMultiple_toPlace _ _)
    refine IsMultiple.abs_sub_le (hshortage ▸ isMultiple_toPlace _ _) hmultiple ?_
    -- half a unit for the requirement, half a unit for the stock, less than one for the shortage
    have hrequired' := abs_le.1 (abs_toPlace_sub_le (-outputScale) required.toRat)
    have hstock' := abs_le.1 (abs_toPlace_sub_le (-outputScale) stock.toRat)
    rw [← hrequired] at hrequired'
    rw [← hstock] at hstock'
    have hnear' := abs_lt.1 hnear
    rw [abs_lt]
    constructor <;> linarith

theorem RoundedTo.displayedExactly {outputScale : ℤ} {required stock : Decimal} {row : Shortage}
    (h : RoundedTo outputScale required stock row) (hscale : outputScale ≤ 12)
    (hrequired : IsMultiple (-outputScale) required.toRat)
    (hstock : IsMultiple (-outputScale) stock.toRat) : DisplayedExactly row := by
  obtain ⟨difference, hsub, -, hshown⟩ := h.difference
  have hlt := h.stock_lt
  have hexact := (quantize_sub (etiny_le_scale hscale) hsub hshown).2 (hrequired.sub hstock)
  have hrequired' := (quantize_eq_ok h.required).1
  have hstock' := (quantize_eq_ok h.stock).1
  rw [toPlace_of_isMultiple hrequired] at hrequired'
  rw [toPlace_of_isMultiple hstock] at hstock'
  refine ⟨?_, ?_, ?_⟩
  · rw [hexact]
    linarith
  · rw [hrequired', hstock']
    exact hlt
  · rw [hexact, hrequired', hstock']

/-! ### The rows that are returned -/

/-- Nothing is missing on either side. -/
theorem domains_agree_iff {collected : Collected} {stocks : Dict ℤ (Bool × Decimal)} :
    ¬ (collected.graphDomain.filter (· ∉ stocks.keys) ≠ [] ∨
        stocks.keys.filter (· ∉ collected.graphDomain) ≠ []) ↔
      ∀ componentId, componentId ∈ collected.graphDomain ↔ componentId ∈ stocks.keys := by
  simp only [not_or, not_not, List.filter_eq_nil_iff, decide_eq_true_eq]
  exact ⟨fun h c => ⟨h.1 c, h.2 c⟩, fun h => ⟨fun c => (h c).1, fun c => (h c).2⟩⟩

section

variable {V : Type} [PyValue V] {graphRows sqlRows : List (Dict String V)} {productionQty : V}
  {outputScale : ℤ} {requiredGraphOutputs requiredSqlOutputs : List String} {rows : List Shortage}

/-- What an accepted input consists of. -/
theorem calculateBomShortages_eq_ok :
    calculateBomShortages graphRows sqlRows productionQty outputScale requiredGraphOutputs
        requiredSqlOutputs = .ok rows ↔
      (0 ≤ outputScale ∧ outputScale ≤ 12) ∧ ∃ production collected stocks results,
        decimal productionQty "productionQty" true = .ok production ∧
        collectGraph production requiredGraphOutputs 0 .start graphRows = .ok collected ∧
        collected.finishedProducts.length ≤ 1 ∧
        collectSql requiredSqlOutputs 0 .empty sqlRows = .ok stocks ∧
        (∀ componentId, componentId ∈ collected.graphDomain ↔ componentId ∈ stocks.keys) ∧
        shortagesOf production outputScale stocks collected.components.entries = .ok results ∧
        results.insertionSort shortageLe = rows := by
  constructor
  · intro h
    simp only [calculateBomShortages, bind_eq_ok, require_eq_ok] at h
    obtain ⟨⟨⟩, hscale, production, hproduction, collected, hcollected, ⟨⟩, hfinished, stocks,
      hstocks, h⟩ := h
    refine ⟨hscale, production, collected, stocks, ?_⟩
    split_ifs at h with hdiffer
    · obtain ⟨missingText, -, h⟩ := bind_eq_ok.1 h
      obtain ⟨extraText, -, h⟩ := bind_eq_ok.1 h
      obtain ⟨_, h, -⟩ := bind_eq_ok.1 h
      cases h
    · obtain ⟨results, hresults, h⟩ := bind_eq_ok.1 h
      exact ⟨results, hproduction, hcollected, hfinished, hstocks, domains_agree_iff.1 hdiffer,
        hresults, pure_eq_ok.1 h⟩
  · rintro ⟨hscale, production, collected, stocks, results, hproduction, hcollected, hfinished,
      hstocks, hsame, hresults, rfl⟩
    simp only [calculateBomShortages, bind_eq_ok, require_eq_ok]
    refine ⟨(), hscale, production, hproduction, collected, hcollected, (), hfinished, stocks,
      hstocks, ?_⟩
    rw [if_neg (domains_agree_iff.2 hsame)]
    exact bind_eq_ok.2 ⟨results, hresults, rfl⟩

/-- **What the rows display** agrees up to one unit of the scale.  Behind every row there is more
required than there is stock, and where neither has digits beyond the scale, the row displays
exactly how much more. -/
theorem displayedNear_of_calculateBomShortages
    (h : calculateBomShortages graphRows sqlRows productionQty outputScale requiredGraphOutputs
      requiredSqlOutputs = .ok rows) :
    ∃ production collected stocks, decimal productionQty "productionQty" true = .ok production ∧
      collectGraph production requiredGraphOutputs 0 .start graphRows = .ok collected ∧
      collectSql requiredSqlOutputs 0 .empty sqlRows = .ok stocks ∧
      ∀ row ∈ rows, DisplayedNear outputScale row ∧
        ∃ required stock, IsAbout collected stocks row required stock ∧
          stock.toRat < required.toRat ∧
          (IsMultiple (-outputScale) required.toRat → IsMultiple (-outputScale) stock.toRat →
            DisplayedExactly row) := by
  obtain ⟨⟨-, hscale⟩, production, collected, stocks, results, hproduction, hcollected, -, hstocks,
    -, hresults, rfl⟩ := calculateBomShortages_eq_ok.1 h
  refine ⟨production, collected, stocks, hproduction, hcollected, hstocks, ?_⟩
  intro row hrow
  rw [List.mem_insertionSort] at hrow
  obtain ⟨⟨componentId, component⟩, hentry, ⟨makeFlag, stock⟩, hstock, hfound⟩ :=
    (mem_shortagesOf hresults).1 hrow
  obtain ⟨hmake, hcomponentId, -, -, -, required, hrequired, hrounded⟩ := shortageOf_eq_ok hfound
  simp only at hmake hcomponentId hstock hrounded
  subst hmake
  refine ⟨hrounded.displayedNear hscale, required, stock, ⟨⟨component, ?_, hrequired⟩, ?_⟩,
    hrounded.stock_lt, hrounded.displayedExactly hscale⟩
  · rw [hcomponentId]
    exact Dict.get?_eq_some_iff.2 hentry
  · rw [hcomponentId]
    exact hstock

end

/-! ### Rounding separately -/

/-- The outputs that the transform `bom_shortage_v1` requires of the graph. -/
def graphOutputs : List String :=
  ["finishedProductId", "finishedProductName", "componentId", "componentName", "depth",
    "pathProductIds", "quantityPerAssembly", "supplierId", "supplierName"]

/-- The outputs that it requires of SQL. -/
def sqlOutputs : List String := ["componentId", "makeFlag", "actualStock"]

/-- A row of the graph for a part of product 1. -/
def partRow (componentId : ℤ) (quantity : String) : Dict String Cell where
  entries := [("finishedProductId", .mk (.int 1)), ("finishedProductName", .mk (.str "Bike")),
    ("componentId", .mk (.int componentId)), ("componentName", .mk (.str "Part")),
    ("depth", .mk (.int 1)),
    ("pathProductIds", .mk (.list [.mk (.int 1), .mk (.int componentId)])),
    ("quantityPerAssembly", .mk (.list [.mk (.str quantity)])),
    ("supplierId", .mk .none), ("supplierName", .mk .none)]
  nodup := by simp

/-- The stock of a part that is bought. -/
def stockRow (componentId : ℤ) (actualStock : String) : Dict String Cell where
  entries := [("componentId", .mk (.int componentId)), ("makeFlag", .mk (.bool false)),
    ("actualStock", .mk (.str actualStock))]
  nodup := by simp

/-- A row of the result, in millionths. -/
def millionths (componentId : ℤ) (requiredQty actualStock shortageQty : ℕ) : Shortage :=
  ⟨1, "Bike", ⟨false, 1000000, -6⟩, componentId, "Part", ⟨false, requiredQty, -6⟩,
    ⟨false, actualStock, -6⟩, ⟨false, shortageQty, -6⟩, []⟩

theorem displayedNear_twoParts :
    calculateBomShortages [partRow 10 "1.0000015", partRow 11 "0.0000003"]
        [stockRow 10 "0.0000004", stockRow 11 "0"] (.mk (.int 1)) 6 graphOutputs sqlOutputs =
      .ok [millionths 10 1000002 0 1000001, millionths 11 0 0 0] ∧
    ∃ collected stocks required stock,
      IsAbout collected stocks (millionths 10 1000002 0 1000001) required stock ∧
        stock.toRat < required.toRat := by
  have hrun : calculateBomShortages [partRow 10 "1.0000015", partRow 11 "0.0000003"]
      [stockRow 10 "0.0000004", stockRow 11 "0"] (.mk (.int 1)) 6 graphOutputs sqlOutputs =
        .ok [millionths 10 1000002 0 1000001, millionths 11 0 0 0] := by decide +kernel
  obtain ⟨-, collected, stocks, -, -, -, hrows⟩ := displayedNear_of_calculateBomShortages hrun
  obtain ⟨-, required, stock, habout, hlt, -⟩ := hrows _ List.mem_cons_self
  exact ⟨hrun, collected, stocks, required, stock, habout, hlt⟩

/-- A requirement of 1.0000015 and a stock of 0.0000004 are displayed as 1.000002 and 0, and the
shortage of 1.0000011 as 1.000001; a shortage of 0.0000003 is displayed as none. -/
theorem not_displayedExactly_twoParts :
    ∃ first second : Shortage,
      calculateBomShortages [partRow 10 "1.0000015", partRow 11 "0.0000003"]
          [stockRow 10 "0.0000004", stockRow 11 "0"] (.mk (.int 1)) 6 graphOutputs sqlOutputs =
        .ok [first, second] ∧
      first.shortageQty.toRat ≠ first.requiredQty.toRat - first.actualStock.toRat ∧
      second.shortageQty.toRat = 0 ∧ second.requiredQty.toRat = second.actualStock.toRat ∧
      ¬ DisplayedExactly first ∧ ¬ DisplayedExactly second := by
  have hfirst : (millionths 10 1000002 0 1000001).shortageQty.toRat ≠
      (millionths 10 1000002 0 1000001).requiredQty.toRat -
        (millionths 10 1000002 0 1000001).actualStock.toRat := by decide +kernel
  have hsecond : (millionths 11 0 0 0).shortageQty.toRat = 0 := by decide +kernel
  refine ⟨_, _, by decide +kernel, hfirst, hsecond, rfl, ?_, ?_⟩
  · intro h
    exact hfirst h.shortage_eq
  · intro h
    exact h.shortage_pos.ne' hsecond

end Composition
