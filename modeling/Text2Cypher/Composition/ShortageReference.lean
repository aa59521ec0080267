import Mathlib.Algebra.Order.BigOperators.GroupWithZero.List
import Text2Cypher.Composition.CollectedRows
import Text2Cypher.Composition.DisplayedShortages

/-!
# BOM shortages by their reference

What has to be bought, over sets: a component requires the sum over its distinct paths, and it is
short of what the stock does not cover.  Where the decimal arithmetic is exact,
`calculate_bom_shortages` returns the reference, whatever the order of its rows and however often
the graph repeats one.

* `IsComponent.requirement_eq`: the requirement of a component;
* `shortageOf_congr`, `sorted_congr`: what does not depend on the order;
* **`calculateBomShortages_reference`**.
-/

namespace Composition

open Checks Decimal

/-! ### The reference -/

/-- The distinct paths to a component, with the quantities along each. -/
def bomPaths (graph : List GraphRow) (componentId : ℤ) : List (List ℤ × List ℚ) :=
  ((graph.filter (·.componentId = componentId)).map fun r =>
    (r.path, r.quantities.map Decimal.toRat)).dedup

/-- What the paths require, one by one. -/
def pathRequirements (production : ℚ) (graph : List GraphRow) (componentId : ℤ) : List ℚ :=
  (bomPaths graph componentId).map fun path => production * path.2.prod

/-- The requirement of a component: the sum over its distinct paths. -/
def requirementOf (production : ℚ) (graph : List GraphRow) (componentId : ℤ) : ℚ :=
  (pathRequirements production graph componentId).sum

/-- Exact arithmetic: the products along the paths fit the context, and for every component that is
bought the sums of what its paths require and the difference to its stock. -/
structure ExactlyComputed (production : ℚ) (graph : List GraphRow) (sql : List StockRow) :
    Prop where
  products : ∀ r ∈ graph, ∀ prior, prior <+: r.quantities.map Decimal.toRat →
    Fits context (production * prior.prod)
  sums : ∀ row ∈ sql, row.2.1 = false → ∀ addends : List ℚ,
    addends.Subperm (pathRequirements production graph row.1) → Fits context addends.sum
  differences : ∀ row ∈ sql, row.2.1 = false →
    Fits context (requirementOf production graph row.1 - row.2.2.toRat)

/-- A row of the reference. -/
structure IsReferenceRow (production : Decimal) (outputScale : ℤ) (graph : List GraphRow)
    (sql : List StockRow) (row : Shortage) : Prop where
  identity : ∀ r ∈ graph, r.componentId = row.componentId →
    (row.finishedProductId, row.finishedProductName, row.componentName) =
      (r.finishedId, r.finishedName, r.componentName)
  nodup_suppliers : row.suppliers.Nodup
  mem_suppliers : ∀ supplier, supplier ∈ row.suppliers ↔
    ∃ r ∈ graph, r.componentId = row.componentId ∧ r.supplier = some supplier
  productionQty : row.productionQty.toRat = toPlace (-outputScale) production.toRat
  requiredQty : row.requiredQty.toRat =
    toPlace (-outputScale) (requirementOf production.toRat graph row.componentId)
  quantities : ∃ stock : Decimal, (row.componentId, false, stock) ∈ sql ∧
    row.actualStock.toRat = toPlace (-outputScale) stock.toRat ∧
    row.shortageQty.toRat = toPlace (-outputScale)
      (requirementOf production.toRat graph row.componentId - stock.toRat)

/-- The reference: one row for every bought component of which more is required than there is. -/
structure IsReference (production : Decimal) (outputScale : ℤ) (graph : List GraphRow)
    (sql : List StockRow) (rows : List Shortage) : Prop where
  components : ∀ componentId, (∃ row ∈ rows, row.componentId = componentId) ↔
    ∃ stock : Decimal, (componentId, false, stock) ∈ sql ∧
      stock.toRat < requirementOf production.toRat graph componentId
  once : (rows.map (·.componentId)).Nodup
  sound : ∀ row ∈ rows, IsReferenceRow production outputScale graph sql row
  ordered : rows.Pairwise fun a b => b.shortageQty.toRat < a.shortageQty.toRat ∨
    a.shortageQty.toRat = b.shortageQty.toRat ∧ a.componentId < b.componentId

/-! ### Rows as a set -/

theorem mem_bomPaths {graph : List GraphRow} {componentId : ℤ} {path : List ℤ × List ℚ} :
    path ∈ bomPaths graph componentId ↔ ∃ r ∈ graph, r.componentId = componentId ∧
      (r.path, r.quantities.map Decimal.toRat) = path := by
  simp only [bomPaths, List.mem_dedup, List.mem_map, List.mem_filter, decide_eq_true_eq, and_assoc]

section

variable {production : ℚ} {graph graph' : List GraphRow} {sql sql' : List StockRow}

theorem bomPaths_perm (h : ∀ r, r ∈ graph' ↔ r ∈ graph) (componentId : ℤ) :
    (bomPaths graph' componentId).Perm (bomPaths graph componentId) := by
  refine (List.perm_ext_iff_of_nodup (List.nodup_dedup _) (List.nodup_dedup _)).2 fun path => ?_
  show path ∈ bomPaths graph' componentId ↔ path ∈ bomPaths graph componentId
  simp only [mem_bomPaths, h]

theorem pathRequirements_perm (h : ∀ r, r ∈ graph' ↔ r ∈ graph) (componentId : ℤ) :
    (pathRequirements production graph' componentId).Perm
      (pathRequirements production graph componentId) :=
  (bomPaths_perm h componentId).map _

theorem requirementOf_congr (h : ∀ r, r ∈ graph' ↔ r ∈ graph) (componentId : ℤ) :
    requirementOf production graph' componentId = requirementOf production graph componentId :=
  (pathRequirements_perm h componentId).sum_eq

theorem ExactlyComputed.congr (h : ExactlyComputed production graph sql)
    (hgraph : ∀ r, r ∈ graph' ↔ r ∈ graph) (hsql : ∀ row, row ∈ sql' ↔ row ∈ sql) :
    ExactlyComputed production graph' sql' where
  products r hr := h.products r ((hgraph r).1 hr)
  sums row hrow hbought addends hsub := h.sums row ((hsql row).1 hrow) hbought addends
    (hsub.trans (pathRequirements_perm hgraph row.1).subperm)
  differences row hrow hbought := by
    rw [requirementOf_congr hgraph]
    exact h.differences row ((hsql row).1 hrow) hbought

end

/-! ### The requirement of a component -/

theorem pathRequired_exact {production : Decimal} {quantities : List Decimal}
    (h : ∀ prior, prior <+: quantities.map Decimal.toRat →
      Fits context (production.toRat * prior.prod)) :
    ∃ required, pathRequired production quantities = .ok required ∧
      required.toRat = production.toRat * (quantities.map Decimal.toRat).prod :=
  foldlM_mul_exact h

section

variable {production : Decimal} {graph : List GraphRow} {componentId : ℤ} {component : Component}

/-- What a component holds for its paths is what its distinct paths require. -/
theorem IsComponent.values_perm (h : IsComponent production graph componentId component)
    (hagree : ∀ r ∈ graph, ∀ r' ∈ graph, Agree r r')
    (hproducts : ∀ r ∈ graph, ∀ prior, prior <+: r.quantities.map Decimal.toRat →
      Fits context (production.toRat * prior.prod)) :
    (component.paths.values.map Decimal.toRat).Perm
      (pathRequirements production.toRat graph componentId) := by
  have hvalue : ∀ r ∈ graph, ∀ required, pathRequired production r.quantities = .ok required →
      required.toRat = production.toRat * (r.quantities.map Decimal.toRat).prod := by
    intro r hr required hrequired
    obtain ⟨required', hrequired', hexact⟩ := pathRequired_exact (hproducts r hr)
    rw [hrequired, Except.ok.injEq] at hrequired'
    rw [hrequired', hexact]
  -- both sides with the paths in front, which are distinct
  let held := component.paths.entries.map fun entry => (entry.1, entry.2.toRat)
  let due := (bomPaths graph componentId).map fun path =>
    ((componentId, path.1), production.toRat * path.2.prod)
  have hheld : held.Nodup := by
    refine List.Nodup.of_map Prod.fst ?_
    rw [List.map_map]
    exact component.paths.nodup
  have hdue : due.Nodup := by
    refine List.Nodup.map_on ?_ (List.nodup_dedup _)
    intro path hpath path' hpath' heq
    obtain ⟨r, hr, hid, rfl⟩ := mem_bomPaths.1 hpath
    obtain ⟨r', hr', hid', rfl⟩ := mem_bomPaths.1 hpath'
    rw [Prod.mk.injEq, Prod.mk.injEq] at heq
    have hpaths : r.path = r'.path := heq.1.2
    have hsame := (hagree r hr r' hr').quantities (hid.trans hid'.symm) hpaths
    rw [hpaths, hsame]
  have hperm : held.Perm due := by
    refine (List.perm_ext_iff_of_nodup hheld hdue).2 ?_
    rintro ⟨key, value⟩
    simp only [held, due, List.mem_map, Prod.mk.injEq]
    constructor
    · rintro ⟨⟨key', required⟩, hentry, rfl, rfl⟩
      obtain ⟨r, hr, hid, rfl, hrequired⟩ := h.required _ _ (Dict.get?_eq_some_iff.2 hentry)
      exact ⟨_, mem_bomPaths.2 ⟨r, hr, hid, rfl⟩, rfl, (hvalue r hr _ hrequired).symm⟩
    · rintro ⟨⟨path, quantities⟩, hpath, rfl, rfl⟩
      obtain ⟨r, hr, hid, heq⟩ := mem_bomPaths.1 hpath
      rw [Prod.mk.injEq] at heq
      obtain ⟨rfl, rfl⟩ := heq
      obtain ⟨required, hget⟩ := Dict.exists_get?_of_mem_keys (h.paths r hr hid)
      obtain ⟨r', hr', hid', hkey, hrequired⟩ := h.required _ _ hget
      rw [Prod.mk.injEq] at hkey
      have hsame := (hagree r hr r' hr').quantities (hid.trans hid'.symm) hkey.2
      refine ⟨_, Dict.get?_eq_some_iff.1 hget, rfl, ?_⟩
      rw [hvalue r' hr' _ hrequired, hsame]
  have hsnd := hperm.map Prod.snd
  rw [List.map_map, List.map_map] at hsnd
  rw [Dict.values, List.map_map]
  exact hsnd

/-- **The requirement of a component** is exact. -/
theorem IsComponent.requirement_eq (h : IsComponent production graph componentId component)
    (hagree : ∀ r ∈ graph, ∀ r' ∈ graph, Agree r r')
    (hproducts : ∀ r ∈ graph, ∀ prior, prior <+: r.quantities.map Decimal.toRat →
      Fits context (production.toRat * prior.prod))
    (hsums : ∀ addends : List ℚ,
      addends.Subperm (pathRequirements production.toRat graph componentId) →
      Fits context addends.sum) :
    ∃ required, requirement component = .ok required ∧
      required.toRat = requirementOf production.toRat graph componentId := by
  have hperm := h.values_perm hagree hproducts
  have hfits : ∀ prior, prior <+: component.paths.values.map Decimal.toRat →
      Fits context (Decimal.zero.toRat + prior.sum) := by
    intro prior hprior
    rw [toRat_zero, zero_add]
    exact hsums prior (hprior.sublist.subperm.trans hperm.subperm)
  obtain ⟨required, hrequired, hvalue⟩ := foldlM_add_exact hfits
  refine ⟨required, hrequired, ?_⟩
  rw [hvalue, toRat_zero, zero_add, hperm.sum_eq]
  rfl

end

/-! ### Rows of the result -/

instance : Std.Total supplierLe where
  total a b := by
    unfold supplierLe
    rcases lt_trichotomy a.1 b.1 with h | h | h
    · exact Or.inl (Or.inl h)
    · rcases String.le_total a.2 b.2 with h' | h'
      · exact Or.inl (Or.inr ⟨h, h'⟩)
      · exact Or.inr (Or.inr ⟨h.symm, h'⟩)
    · exact Or.inr (Or.inl h)

instance : IsTrans (ℤ × String) supplierLe where
  trans a b c := by
    unfold supplierLe
    rintro (h | ⟨h, h'⟩) (g | ⟨g, g'⟩)
    · exact Or.inl (h.trans g)
    · exact Or.inl (g ▸ h)
    · exact Or.inl (h ▸ g)
    · exact Or.inr ⟨h.trans g, String.le_trans h' g'⟩

theorem supplierLe_antisymm {a b : ℤ × String} (h : supplierLe a b) (h' : supplierLe b a) :
    a = b := by
  unfold supplierLe at h h'
  rcases h with h | ⟨h, hname⟩ <;> rcases h' with h' | ⟨h', hname'⟩
  · omega
  · omega
  · omega
  · exact Prod.ext h (String.le_antisymm hname hname')

instance : Std.Total shortageLe where
  total a b := by
    unfold shortageLe
    rcases lt_trichotomy a.shortageQty.toRat b.shortageQty.toRat with h | h | h
    · exact Or.inr (Or.inl h)
    · rcases le_total a.componentId b.componentId with h' | h'
      · exact Or.inl (Or.inr ⟨h, h'⟩)
      · exact Or.inr (Or.inr ⟨h.symm, h'⟩)
    · exact Or.inl (Or.inl h)

instance : IsTrans Shortage shortageLe where
  trans a b c := by
    unfold shortageLe
    rintro (h | ⟨h, h'⟩) (g | ⟨g, g'⟩)
    · exact Or.inl (g.trans h)
    · exact Or.inl (g ▸ h)
    · exact Or.inl (h ▸ g)
    · exact Or.inr ⟨h.trans g, h'.trans g'⟩

theorem eq_of_shortageLe {a b : Shortage} (h : shortageLe a b) (h' : shortageLe b a) :
    a.componentId = b.componentId := by
  unfold shortageLe at h h'
  rcases h with h | ⟨h, hid⟩ <;> rcases h' with h' | ⟨h', hid'⟩
  · exact absurd h' h.not_gt
  · exact absurd h'.symm h.ne'
  · exact absurd h.symm h'.ne'
  · exact le_antisymm hid hid'

/-- Suppliers are listed in one order. -/
theorem suppliers_congr {suppliers suppliers' : List (ℤ × String)} (hnodup : suppliers.Nodup)
    (hnodup' : suppliers'.Nodup) (h : ∀ supplier, supplier ∈ suppliers' ↔ supplier ∈ suppliers) :
    suppliers'.insertionSort supplierLe = suppliers.insertionSort supplierLe := by
  have hperm : suppliers'.Perm suppliers :=
    (List.perm_ext_iff_of_nodup hnodup' hnodup).2 fun supplier => h supplier
  refine List.Perm.eq_of_pairwise (fun a b _ _ => supplierLe_antisymm)
    (List.pairwise_insertionSort _ _) (List.pairwise_insertionSort _ _) ?_
  exact (List.perm_insertionSort _ _).trans (hperm.trans (List.perm_insertionSort _ _).symm)

/-- Rows of different components are listed in one order. -/
theorem sorted_congr {rows rows' : List Shortage}
    (hnodup : (rows.map (·.componentId)).Nodup) (hnodup' : (rows'.map (·.componentId)).Nodup)
    (h : ∀ row, row ∈ rows' ↔ row ∈ rows) :
    rows'.insertionSort shortageLe = rows.insertionSort shortageLe := by
  have hperm : rows'.Perm rows :=
    (List.perm_ext_iff_of_nodup (List.Nodup.of_map _ hnodup') (List.Nodup.of_map _ hnodup)).2
      fun row => h row
  refine List.Perm.eq_of_pairwise ?_ (List.pairwise_insertionSort _ _)
    (List.pairwise_insertionSort _ _) ?_
  · intro a b ha hb hab hba
    rw [List.mem_insertionSort] at ha hb
    exact List.inj_on_of_nodup_map hnodup ((h a).1 ha) hb (eq_of_shortageLe hab hba)
  · exact (List.perm_insertionSort _ _).trans (hperm.trans (List.perm_insertionSort _ _).symm)

/-- **What a row does not depend on**: how its requirement is written, and in which order its
suppliers were found. -/
theorem shortageOf_congr {production : Decimal} {outputScale componentId : ℤ}
    {component component' : Component} {stock : Bool × Decimal} {required required' : Decimal}
    (hidentity : (component'.finishedProductId, component'.finishedProductName,
      component'.componentName) =
        (component.finishedProductId, component.finishedProductName, component.componentName))
    (hsuppliers : component'.suppliers.insertionSort supplierLe =
      component.suppliers.insertionSort supplierLe)
    (hrequired : stock.1 = false → requirement component = .ok required)
    (hrequired' : stock.1 = false → requirement component' = .ok required')
    (hvalue : required'.toRat = required.toRat) (hsign : required'.negative = required.negative)
    (hfits : stock.1 = false → Fits context (required.toRat - stock.2.toRat)) :
    shortageOf production outputScale componentId component' stock =
      shortageOf production outputScale componentId component stock := by
  obtain ⟨makeFlag, stock⟩ := stock
  cases makeFlag with
  | true => rfl
  | false =>
    rw [Prod.mk.injEq, Prod.mk.injEq] at hidentity
    obtain ⟨hfinishedId, hfinishedName, hname⟩ := hidentity
    obtain ⟨difference, hsub, hdifference⟩ := sub_exact (hfits rfl)
    obtain ⟨difference', hsub', hdifference'⟩ := sub_exact (hvalue ▸ hfits rfl)
    have hsame : difference'.toRat = difference.toRat := by
      rw [hdifference, hdifference']
      simp only
      rw [hvalue]
    have hrun := hrequired rfl
    have hrun' := hrequired' rfl
    unfold requirement at hrun hrun'
    unfold shortageOf
    simp only [Bool.false_eq_true, if_false, hrun, hrun', hsub, hsub', ok_bind]
    by_cases hpos : 0 < difference.toRat
    · have hpos' : 0 < difference'.toRat := hsame ▸ hpos
      have hnegative := (negative_of_pos hpos').trans (negative_of_pos hpos).symm
      have hquantize : quantize context difference' (-outputScale) =
          quantize context difference (-outputScale) := quantize_congr hsame hnegative _
      rw [maxDecimal_zero_of_pos hpos, maxDecimal_zero_of_pos hpos', if_neg hpos.ne',
        if_neg hpos'.ne', quantize_congr hvalue hsign, hquantize, hfinishedId, hfinishedName,
        hname, hsuppliers]
    · have hpos' : ¬ 0 < difference'.toRat := hsame ▸ hpos
      rw [if_pos (maxDecimal_zero_eq_zero hpos), if_pos (maxDecimal_zero_eq_zero hpos')]

/-! ### Runs over rows that have been read -/

section

variable {V : Type} [PyValue V] {graphRows sqlRows : List (Dict String V)} {productionQty : V}
  {outputScale : ℤ} {requiredGraphOutputs requiredSqlOutputs : List String}
  {rows : List Shortage} {production : Decimal} {graph : List GraphRow} {sql : List StockRow}

/-- A run over rows that have been read. -/
structure Runs (production : Decimal) (outputScale : ℤ) (graph : List GraphRow)
    (sql : List StockRow) (collected : Collected) (stocks : Dict ℤ (Bool × Decimal))
    (results : List Shortage) : Prop where
  collects : graph.foldlM (enterRow production) .start = .ok collected
  oneFinished : collected.finishedProducts.length ≤ 1
  takes : stocks.entries = sql
  domain : ∀ componentId, componentId ∈ collected.graphDomain ↔ componentId ∈ stocks.keys
  computes : shortagesOf production outputScale stocks collected.components.entries = .ok results

theorem calculateBomShortages_iff (hproduction : decimal productionQty "productionQty" true =
      .ok production)
    (hgraph : List.Forall₂ (ReadsGraphRow requiredGraphOutputs) graphRows graph)
    (hsql : List.Forall₂ (ReadsSqlRow requiredSqlOutputs) sqlRows sql) :
    calculateBomShortages graphRows sqlRows productionQty outputScale requiredGraphOutputs
        requiredSqlOutputs = .ok rows ↔
      (0 ≤ outputScale ∧ outputScale ≤ 12) ∧ ∃ collected stocks results,
        Runs production outputScale graph sql collected stocks results ∧
        results.insertionSort shortageLe = rows := by
  rw [calculateBomShortages_eq_ok]
  refine and_congr_right fun _ => ?_
  constructor
  · rintro ⟨production', collected, stocks, results, hproduction', hcollected, hfinished, hstocks,
      hdomain, hresults, hrows⟩
    rw [hproduction, Except.ok.injEq] at hproduction'
    subst hproduction'
    obtain ⟨graph', hgraph', hrun⟩ := collectGraph_eq_ok.1 hcollected
    obtain ⟨sql', hsql', hentries⟩ := collectSql_eq_ok.1 hstocks
    have hsameGraph := List.right_unique_forall₂' (readsGraphRow_unique _) hgraph' hgraph
    have hsameSql := List.right_unique_forall₂' (readsSqlRow_unique _) hsql' hsql
    subst hsameGraph hsameSql
    exact ⟨collected, stocks, results, ⟨hrun, hfinished, hentries, hdomain, hresults⟩, hrows⟩
  · rintro ⟨collected, stocks, results, hrun, hrows⟩
    exact ⟨production, collected, stocks, results, hproduction,
      collectGraph_eq_ok.2 ⟨graph, hgraph, hrun.collects⟩, hrun.oneFinished,
      collectSql_eq_ok.2 ⟨sql, hsql, hrun.takes⟩, hrun.domain, hrun.computes, hrows⟩

end

section

variable {production : Decimal} {outputScale : ℤ} {graph : List GraphRow} {sql : List StockRow}
  {collected : Collected} {stocks : Dict ℤ (Bool × Decimal)} {results : List Shortage}

theorem Runs.holds (h : Runs production outputScale graph sql collected stocks results) :
    Collects production graph collected :=
  (collects_of_foldlM (collects_start production) h.collects).1

theorem Runs.get?_stocks (h : Runs production outputScale graph sql collected stocks results)
    {componentId : ℤ} {stock : Bool × Decimal} :
    stocks.get? componentId = some stock ↔ (componentId, stock) ∈ sql := by
  rw [Dict.get?_eq_some_iff, h.takes]

/-- A component with stock is one of the graph. -/
theorem Runs.exists_component (h : Runs production outputScale graph sql collected stocks results)
    {componentId : ℤ} {stock : Bool × Decimal} (hstock : (componentId, stock) ∈ sql) :
    ∃ component, collected.components.get? componentId = some component := by
  have hkey : componentId ∈ stocks.keys :=
    Dict.get?_isSome_iff.1 (by rw [h.get?_stocks.2 hstock]; rfl)
  have hcollected := h.holds
  exact Dict.exists_get?_of_mem_keys ((hcollected.mem_components _).2
    ((hcollected.mem_domain _).1 ((h.domain _).2 hkey)))

theorem Runs.requirement_eq (h : Runs production outputScale graph sql collected stocks results)
    (hexact : ExactlyComputed production.toRat graph sql) {componentId : ℤ} {component : Component}
    {stock : Decimal} (hcomponent : collected.components.get? componentId = some component)
    (hstock : (componentId, false, stock) ∈ sql) :
    ∃ required, requirement component = .ok required ∧
      required.toRat = requirementOf production.toRat graph componentId :=
  (h.holds.components _ _ hcomponent).requirement_eq h.holds.agree hexact.products
    (hexact.sums _ hstock rfl)

/-- What a row of the results comes from. -/
theorem Runs.mem_results (h : Runs production outputScale graph sql collected stocks results)
    {row : Shortage} :
    row ∈ results ↔ ∃ componentId component stock,
      collected.components.get? componentId = some component ∧ (componentId, stock) ∈ sql ∧
        shortageOf production outputScale componentId component stock = .ok (some row) := by
  rw [mem_shortagesOf h.computes]
  constructor
  · rintro ⟨⟨componentId, component⟩, hentry, stock, hstock, hrow⟩
    exact ⟨componentId, component, stock, Dict.get?_eq_some_iff.2 hentry, h.get?_stocks.1 hstock,
      hrow⟩
  · rintro ⟨componentId, component, stock, hcomponent, hstock, hrow⟩
    exact ⟨(componentId, component), Dict.get?_eq_some_iff.1 hcomponent, stock,
      h.get?_stocks.2 hstock, hrow⟩

theorem Runs.nodup_results (h : Runs production outputScale graph sql collected stocks results) :
    (results.map (·.componentId)).Nodup :=
  collected.components.nodup.sublist (ids_shortagesOf h.computes)

/-- A row of the results is one of the reference. -/
theorem Runs.isReferenceRow (h : Runs production outputScale graph sql collected stocks results)
    (hexact : ExactlyComputed production.toRat graph sql) {row : Shortage} (hrow : row ∈ results) :
    IsReferenceRow production outputScale graph sql row ∧
      ∃ stock : Decimal, (row.componentId, false, stock) ∈ sql ∧
        stock.toRat < requirementOf production.toRat graph row.componentId := by
  obtain ⟨componentId, component, ⟨makeFlag, stock⟩, hcomponent, hstock, hfound⟩ :=
    h.mem_results.1 hrow
  obtain ⟨hbought, hid, hidentity, hsuppliers, hproductionQty, required, hrequired, hrounded⟩ :=
    shortageOf_eq_ok hfound
  simp only at hbought hrounded
  subst hbought hid
  obtain ⟨required', hrequired', hvalue⟩ := h.requirement_eq hexact hcomponent hstock
  rw [hrequired, Except.ok.injEq] at hrequired'
  subst hrequired'
  have hisComponent := h.holds.components _ _ hcomponent
  obtain ⟨difference, hsub, -, hshortageQty⟩ := hrounded.difference
  have hdifference : difference.toRat = required.toRat - stock.toRat := by
    have hfits := hexact.differences _ hstock rfl
    rw [← hvalue] at hfits
    obtain ⟨difference', hsub', hexact'⟩ := sub_exact hfits
    simp only at hsub'
    rw [hsub, Except.ok.injEq] at hsub'
    rw [hsub', hexact']
  refine ⟨⟨?_, ?_, ?_, (quantize_eq_ok hproductionQty).1, ?_, stock, hstock,
    (quantize_eq_ok hrounded.stock).1, ?_⟩, stock, hstock, ?_⟩
  · intro r hr hrid
    rw [hidentity]
    exact hisComponent.identity r hr hrid
  · rw [hsuppliers]
    exact ((List.perm_insertionSort _ _).nodup_iff).2 hisComponent.nodup_suppliers
  · intro supplier
    rw [hsuppliers, List.mem_insertionSort]
    exact hisComponent.mem_suppliers supplier
  · rw [(quantize_eq_ok hrounded.required).1, hvalue]
  · rw [(quantize_eq_ok hshortageQty).1, hdifference, hvalue]
  · rw [← hvalue]
    exact hrounded.stock_lt

/-- Every component of the reference has a row. -/
theorem Runs.exists_row (h : Runs production outputScale graph sql collected stocks results)
    (hexact : ExactlyComputed production.toRat graph sql) {componentId : ℤ} {stock : Decimal}
    (hstock : (componentId, false, stock) ∈ sql)
    (hlt : stock.toRat < requirementOf production.toRat graph componentId) :
    ∃ row ∈ results, row.componentId = componentId := by
  obtain ⟨component, hcomponent⟩ := h.exists_component hstock
  obtain ⟨stock', found, hstock', hfound⟩ := returns_shortagesOf.1 ⟨results, h.computes⟩
    (componentId, component) (Dict.get?_eq_some_iff.1 hcomponent)
  rw [h.get?_stocks.2 hstock, Option.some.injEq] at hstock'
  subst hstock'
  cases found with
  | some row =>
    exact ⟨row, h.mem_results.2 ⟨_, _, _, hcomponent, hstock, hfound⟩,
      (shortageOf_eq_ok hfound).componentId⟩
  | none =>
    obtain ⟨required, difference, hrequired, hsub, hle⟩ := shortageOf_eq_none hfound
    obtain ⟨required', hrequired', hvalue⟩ := h.requirement_eq hexact hcomponent hstock
    rw [hrequired, Except.ok.injEq] at hrequired'
    subst hrequired'
    have hfits := hexact.differences _ hstock rfl
    rw [← hvalue] at hfits hlt
    obtain ⟨difference', hsub', hdifference⟩ := sub_exact hfits
    simp only at hsub' hdifference
    rw [hsub, Except.ok.injEq] at hsub'
    subst hsub'
    rw [hdifference] at hle
    exact absurd hlt (not_lt.2 (sub_nonpos.1 hle))

/-- **A run returns the reference.** -/
theorem Runs.isReference (h : Runs production outputScale graph sql collected stocks results)
    (hexact : ExactlyComputed production.toRat graph sql) :
    IsReference production outputScale graph sql (results.insertionSort shortageLe) := by
  have hnodup : ((results.insertionSort shortageLe).map (·.componentId)).Nodup :=
    (((List.perm_insertionSort shortageLe results).map _).nodup_iff).2 h.nodup_results
  refine ⟨?_, hnodup, ?_, ?_⟩
  · intro componentId
    constructor
    · rintro ⟨row, hrow, rfl⟩
      rw [List.mem_insertionSort] at hrow
      exact (h.isReferenceRow hexact hrow).2
    · rintro ⟨stock, hstock, hlt⟩
      obtain ⟨row, hrow, hid⟩ := h.exists_row hexact hstock hlt
      exact ⟨row, (List.mem_insertionSort _).2 hrow, hid⟩
  · intro row hrow
    rw [List.mem_insertionSort] at hrow
    exact (h.isReferenceRow hexact hrow).1
  · have hdistinct := List.pairwise_map.1 hnodup
    refine (List.pairwise_insertionSort shortageLe results).imp₂ ?_ hdistinct
    rintro a b (hlt | ⟨heq, hle⟩) hne
    · exact Or.inl hlt
    · exact Or.inr ⟨heq, lt_of_le_of_ne hle hne⟩

/-! ### Rows in another order -/

theorem requirementOf_pos (hproduction : 0 < production.toRat)
    (hquantities : ∀ r ∈ graph, ∀ q ∈ r.quantities, 0 < q.toRat) {componentId : ℤ}
    (h : ∃ r ∈ graph, r.componentId = componentId) :
    0 < requirementOf production.toRat graph componentId := by
  refine List.sum_pos _ ?_ ?_
  · intro required hrequired
    obtain ⟨path, hpath, rfl⟩ := List.mem_map.1 hrequired
    obtain ⟨r, hr, -, rfl⟩ := mem_bomPaths.1 hpath
    refine mul_pos hproduction (List.prod_pos ?_)
    intro value hvalue
    obtain ⟨q, hq, rfl⟩ := List.mem_map.1 hvalue
    exact hquantities r hr q hq
  · obtain ⟨r, hr, hid⟩ := h
    exact List.ne_nil_of_mem (List.mem_map_of_mem (mem_bomPaths.2 ⟨r, hr, hid, rfl⟩))

/-- What is computed for a component does not depend on the order of the rows. -/
theorem Collects.shortageOf_eq {graph' : List GraphRow} {collected' : Collected}
    (hholds : Collects production graph collected)
    (hholds' : Collects production graph' collected') (hgraph : ∀ r, r ∈ graph' ↔ r ∈ graph)
    (hexact : ExactlyComputed production.toRat graph sql) (hproduction : 0 < production.toRat)
    (hquantities : ∀ r ∈ graph, ∀ q ∈ r.quantities, 0 < q.toRat) {componentId : ℤ}
    {component component' : Component} {stock : Bool × Decimal}
    (hcomponent : collected.components.get? componentId = some component)
    (hcomponent' : collected'.components.get? componentId = some component')
    (hstock : (componentId, stock) ∈ sql) :
    shortageOf production outputScale componentId component' stock =
      shortageOf production outputScale componentId component stock := by
  obtain ⟨makeFlag, stock⟩ := stock
  cases makeFlag with
  | true => rfl
  | false =>
    have hisComponent := hholds.components _ _ hcomponent
    have hisComponent' := hholds'.components _ _ hcomponent'
    have hexact' := hexact.congr hgraph fun row => Iff.rfl
    obtain ⟨r, hr, hid⟩ := (hholds.mem_components _).1
      (Dict.get?_isSome_iff.1 (by rw [hcomponent]; rfl))
    have hpos := requirementOf_pos hproduction hquantities ⟨r, hr, hid⟩
    obtain ⟨required, hrun, hvalue⟩ := hisComponent.requirement_eq hholds.agree hexact.products
      (hexact.sums _ hstock rfl)
    obtain ⟨required', hrun', hvalue'⟩ := hisComponent'.requirement_eq hholds'.agree
      hexact'.products (hexact'.sums _ hstock rfl)
    rw [requirementOf_congr hgraph] at hvalue'
    have hfits := hexact.differences _ hstock rfl
    rw [← hvalue] at hfits
    refine shortageOf_congr ?_ ?_ (fun _ => hrun) (fun _ => hrun') (hvalue'.trans hvalue.symm) ?_
      fun _ => hfits
    · rw [hisComponent'.identity r ((hgraph r).2 hr) hid, hisComponent.identity r hr hid]
    · refine suppliers_congr hisComponent.nodup_suppliers hisComponent'.nodup_suppliers ?_
      intro supplier
      rw [hisComponent'.mem_suppliers, hisComponent.mem_suppliers]
      simp only [hgraph]
    · rw [negative_of_pos (hvalue' ▸ hpos), negative_of_pos (hvalue ▸ hpos)]

/-- **A run over the same rows**, in another order or repeated, returns the same. -/
theorem Runs.exists_congr (h : Runs production outputScale graph sql collected stocks results)
    (hexact : ExactlyComputed production.toRat graph sql) (hproduction : 0 < production.toRat)
    (hquantities : ∀ r ∈ graph, ∀ q ∈ r.quantities, 0 < q.toRat) {graph' : List GraphRow}
    {sql' : List StockRow} (hgraph : ∀ r, r ∈ graph' ↔ r ∈ graph) (hsql : sql'.Perm sql) :
    ∃ collected' stocks' results',
      Runs production outputScale graph' sql' collected' stocks' results' ∧
        results'.insertionSort shortageLe = results.insertionSort shortageLe := by
  have hholds := h.holds
  have hrequired := (collects_of_foldlM (collects_start production) h.collects).2
  have hagree : ∀ r ∈ graph', ∀ r' ∈ graph', Agree r r' :=
    fun r hr r' hr' => hholds.agree r ((hgraph r).1 hr) r' ((hgraph r').1 hr')
  obtain ⟨collected', hrun'⟩ := exists_foldlM (collects_start production) hagree
    fun r hr => hrequired r ((hgraph r).1 hr)
  have hholds' := (collects_of_foldlM (collects_start production) hrun').1
  rw [List.nil_append] at hholds'
  let stocks' : Dict ℤ (Bool × Decimal) := ⟨sql', by
    rw [(hsql.map Prod.fst).nodup_iff, ← h.takes]
    exact stocks.nodup⟩
  have hstocks' : ∀ {componentId : ℤ} {stock : Bool × Decimal},
      stocks'.get? componentId = some stock ↔ (componentId, stock) ∈ sql := by
    intro componentId stock
    rw [Dict.get?_eq_some_iff]
    exact hsql.mem_iff
  have hkeys : ∀ componentId,
      componentId ∈ collected'.components.keys ↔ componentId ∈ collected.components.keys := by
    intro componentId
    rw [hholds'.mem_components, hholds.mem_components]
    simp only [hgraph]
  have hsame : ∀ componentId component component' stock,
      collected.components.get? componentId = some component →
      collected'.components.get? componentId = some component' → (componentId, stock) ∈ sql →
      shortageOf production outputScale componentId component' stock =
        shortageOf production outputScale componentId component stock :=
    fun _ _ _ _ hcomponent hcomponent' hstock => hholds.shortageOf_eq hholds' hgraph hexact
      hproduction hquantities hcomponent hcomponent' hstock
  have hreturns : Returns (shortagesOf production outputScale stocks'
      collected'.components.entries) := by
    rw [returns_shortagesOf]
    rintro ⟨componentId, component'⟩ hentry'
    have hcomponent' := Dict.get?_eq_some_iff.2 hentry'
    have hkey : componentId ∈ collected.components.keys :=
      (hkeys _).1 (Dict.get?_isSome_iff.1 (by rw [hcomponent']; rfl))
    obtain ⟨component, hcomponent⟩ := Dict.exists_get?_of_mem_keys hkey
    obtain ⟨stock, found, hstock, hfound⟩ := returns_shortagesOf.1 ⟨results, h.computes⟩
      (componentId, component) (Dict.get?_eq_some_iff.1 hcomponent)
    have hmem := h.get?_stocks.1 hstock
    exact ⟨stock, found, hstocks'.2 hmem,
      (hsame _ _ _ _ hcomponent hcomponent' hmem).trans hfound⟩
  obtain ⟨results', hresults'⟩ := hreturns
  have hruns' : Runs production outputScale graph' sql' collected' stocks' results' := by
    refine ⟨hrun', ?_, rfl, ?_, hresults'⟩
    · have hperm : collected'.finishedProducts.Perm collected.finishedProducts := by
        refine (List.perm_ext_iff_of_nodup hholds'.nodup_finished hholds.nodup_finished).2 ?_
        intro finished
        rw [hholds'.mem_finished, hholds.mem_finished]
        simp only [hgraph]
      rw [hperm.length_eq]
      exact h.oneFinished
    · intro componentId
      have hkey : componentId ∈ stocks'.keys ↔ componentId ∈ stocks.keys := by
        show componentId ∈ sql'.map Prod.fst ↔ componentId ∈ stocks.entries.map Prod.fst
        rw [h.takes]
        exact (hsql.map Prod.fst).mem_iff
      rw [hkey, ← h.domain, hholds'.mem_domain, hholds.mem_domain]
      simp only [hgraph]
  refine ⟨collected', stocks', results', hruns',
    sorted_congr h.nodup_results hruns'.nodup_results ?_⟩
  intro row
  rw [h.mem_results, hruns'.mem_results]
  constructor
  · rintro ⟨componentId, component', stock, hcomponent', hstock', hrow⟩
    have hstock := hsql.mem_iff.1 hstock'
    obtain ⟨component, hcomponent⟩ := h.exists_component hstock
    rw [hsame _ _ _ _ hcomponent hcomponent' hstock] at hrow
    exact ⟨componentId, component, stock, hcomponent, hstock, hrow⟩
  · rintro ⟨componentId, component, stock, hcomponent, hstock, hrow⟩
    have hstock' := hsql.mem_iff.2 hstock
    obtain ⟨component', hcomponent'⟩ := hruns'.exists_component hstock'
    rw [← hsame _ _ _ _ hcomponent hcomponent' hstock] at hrow
    exact ⟨componentId, component', stock, hcomponent', hstock', hrow⟩

end

/-! ### The function -/

section

variable {V : Type} [PyValue V] {graphRows sqlRows : List (Dict String V)} {productionQty : V}
  {outputScale : ℤ} {requiredGraphOutputs requiredSqlOutputs : List String}
  {rows : List Shortage} {production : Decimal} {graph : List GraphRow} {sql : List StockRow}

/-- **`calculate_bom_shortages` is its reference**, and neither the order of its rows matters nor
how often a row of the graph is repeated. -/
theorem calculateBomShortages_reference
    (hproduction : decimal productionQty "productionQty" true = .ok production)
    (hgraph : List.Forall₂ (ReadsGraphRow requiredGraphOutputs) graphRows graph)
    (hsql : List.Forall₂ (ReadsSqlRow requiredSqlOutputs) sqlRows sql)
    (hexact : ExactlyComputed production.toRat graph sql)
    (h : calculateBomShortages graphRows sqlRows productionQty outputScale requiredGraphOutputs
      requiredSqlOutputs = .ok rows) :
    IsReference production outputScale graph sql rows ∧
      ∀ graphRows' sqlRows', (∀ row, row ∈ graphRows' ↔ row ∈ graphRows) →
        sqlRows'.Perm sqlRows →
        calculateBomShortages graphRows' sqlRows' productionQty outputScale requiredGraphOutputs
          requiredSqlOutputs = .ok rows := by
  obtain ⟨hscale, collected, stocks, results, hruns, rfl⟩ :=
    (calculateBomShortages_iff hproduction hgraph hsql).1 h
  refine ⟨hruns.isReference hexact, ?_⟩
  intro graphRows' sqlRows' hsameRows hperm
  have hmem := fun r => mem_iff_of_forall₂ (readsGraphRow_unique _) hgraph (b := r)
  have hpositive : ∀ r ∈ graph, ∀ q ∈ r.quantities, 0 < q.toRat := by
    intro r hr
    obtain ⟨row, -, hread⟩ := (hmem r).1 hr
    exact hread.quantities_pos
  obtain ⟨graph', hgraph'⟩ := exists_forall₂ (l := graphRows') fun row hrow => by
    obtain ⟨r, -, hread⟩ := exists_of_forall₂ hgraph.flip ((hsameRows row).1 hrow)
    exact ⟨r, hread⟩
  have hsame : ∀ r, r ∈ graph' ↔ r ∈ graph := by
    intro r
    rw [hmem, mem_iff_of_forall₂ (readsGraphRow_unique _) hgraph']
    simp only [hsameRows]
  obtain ⟨sql', hsql', hpermSql⟩ := List.perm_comp_forall₂ hperm hsql
  obtain ⟨collected', stocks', results', hruns', hrows⟩ :=
    hruns.exists_congr hexact (decimal_pos hproduction) hpositive hsame hpermSql
  exact (calculateBomShortages_iff hproduction hgraph' hsql').2
    ⟨hscale, collected', stocks', results', hruns', hrows⟩

end

/-! ### A part with two suppliers -/

/-- Small natural numbers fit the context. -/
theorem fits_of_eq_natCast {q : ℚ} (n : ℕ) (h : n < 10 ^ 28) (hq : q = n) : Fits context q := by
  refine ⟨n, 0, ?_, h, by decide, by decide⟩
  rw [hq, Nat.abs_cast, zpow_zero, mul_one]

/-- A row of the graph for part 10 of product 1, with one of its suppliers. -/
def supplierRow (supplierId : ℤ) (supplierName : String) : Dict String Cell where
  entries := [("finishedProductId", .mk (.int 1)), ("finishedProductName", .mk (.str "Bike")),
    ("componentId", .mk (.int 10)), ("componentName", .mk (.str "Part")),
    ("depth", .mk (.int 1)), ("pathProductIds", .mk (.list [.mk (.int 1), .mk (.int 10)])),
    ("quantityPerAssembly", .mk (.list [.mk (.int 2)])),
    ("supplierId", .mk (.int supplierId)), ("supplierName", .mk (.str supplierName))]
  nodup := by simp

def readSupplierRow (supplierId : ℤ) (supplierName : String) : GraphRow :=
  ⟨1, "Bike", 10, "Part", [1, 10], [⟨false, 2, 0⟩], some (supplierId, supplierName)⟩

theorem exactlyComputed_twoSuppliers :
    ExactlyComputed 3 [readSupplierRow 7 "A", readSupplierRow 8 "B"]
      [(10, false, ⟨false, 1, 0⟩)] := by
  have htwo : toRat ⟨false, 2, 0⟩ = 2 := by norm_num [toRat, signed]
  have hone : toRat ⟨false, 1, 0⟩ = 1 := by norm_num [toRat, signed]
  have hrequirements :
      pathRequirements 3 [readSupplierRow 7 "A", readSupplierRow 8 "B"] 10 = [6] := by
    decide +kernel
  refine ⟨?_, ?_, ?_⟩
  · intro r hr prior hprior
    have hquantities : r.quantities = [⟨false, 2, 0⟩] := by
      simp only [List.mem_cons, List.not_mem_nil, or_false] at hr
      rcases hr with rfl | rfl <;> rfl
    rw [hquantities, List.map_cons, List.map_nil, htwo, ← List.mem_inits] at hprior
    simp only [List.inits, List.map_cons, List.map_nil, List.mem_cons, List.not_mem_nil,
      or_false] at hprior
    rcases hprior with rfl | rfl
    · exact fits_of_eq_natCast 3 (by norm_num) (by norm_num)
    · exact fits_of_eq_natCast 6 (by norm_num) (by norm_num)
  · intro row hrow _ addends hsub
    rw [List.mem_singleton.1 hrow, hrequirements] at hsub
    obtain ⟨l, hperm, hsublist⟩ := hsub
    rw [← hperm.sum_eq]
    rcases List.sublist_singleton.1 hsublist with rfl | rfl
    · exact fits_of_eq_natCast 0 (by norm_num) (by norm_num)
    · exact fits_of_eq_natCast 6 (by norm_num) (by norm_num)
  · intro row hrow _
    rw [List.mem_singleton.1 hrow, requirementOf, hrequirements]
    exact fits_of_eq_natCast 5 (by norm_num) (by norm_num [hone])

theorem calculateBomShortages_twoSuppliers :
    ∃ rows, calculateBomShortages [supplierRow 7 "A", supplierRow 8 "B"] [stockRow 10 "1"]
        (.mk (.int 3)) 6 graphOutputs sqlOutputs = .ok rows ∧
      rows.map (·.shortageQty) = [⟨false, 5000000, -6⟩] ∧
      rows.map (·.suppliers) = [[(7, "A"), (8, "B")]] ∧
      calculateBomShortages [supplierRow 8 "B", supplierRow 7 "A", supplierRow 8 "B"]
        [stockRow 10 "1"] (.mk (.int 3)) 6 graphOutputs sqlOutputs = .ok rows := by
  have hrun : calculateBomShortages [supplierRow 7 "A", supplierRow 8 "B"] [stockRow 10 "1"]
      (.mk (.int 3)) 6 graphOutputs sqlOutputs =
        .ok [⟨1, "Bike", ⟨false, 3000000, -6⟩, 10, "Part", ⟨false, 6000000, -6⟩,
          ⟨false, 1000000, -6⟩, ⟨false, 5000000, -6⟩, [(7, "A"), (8, "B")]⟩] := by decide +kernel
  have hfirst : readGraphRow graphOutputs 0 (supplierRow 7 "A") = .ok (readSupplierRow 7 "A") := by
    decide +kernel
  have hsecond : readGraphRow graphOutputs 0 (supplierRow 8 "B") = .ok (readSupplierRow 8 "B") := by
    decide +kernel
  have hstock : readSqlRow sqlOutputs [] 0 (stockRow 10 "1") = .ok (10, false, ⟨false, 1, 0⟩) := by
    decide +kernel
  have hproduction : toRat ⟨false, 3, 0⟩ = 3 := by norm_num [toRat, signed]
  have hread : decimal (.mk (.int 3) : Cell) "productionQty" true = .ok ⟨false, 3, 0⟩ := by
    decide +kernel
  obtain ⟨-, hsame⟩ := calculateBomShortages_reference hread
    (.cons hfirst (.cons hsecond .nil)) (.cons hstock .nil)
    (hproduction ▸ exactlyComputed_twoSuppliers) hrun
  refine ⟨_, hrun, rfl, rfl, hsame _ _ ?_ (List.Perm.refl _)⟩
  intro row
  simp only [List.mem_cons, List.not_mem_nil, or_false]
  tauto

end Composition
