import Text2Cypher.Composition.Escapes
import Text2Cypher.Composition.ShortageReference
import Text2Cypher.Composition.Joined
import Text2Cypher.Library.Grouping

/-!
# When the composition of BOM shortages raises

`compose_results` turns data problems into results with an error.  What it lets through is described
by the sources alone: the first problem in reading order is a field that is missing, a number
outside the range of the decimal arithmetic, or an empty reason that cannot be printed.

* `uncaught_collectSql`: the loop over the stock;
* `Collects.firstPaths`: what the arithmetic for a component starts from;
* **`uncaught_calculateBomShortages`**: the calculation;
* **`composesShortages_iff`**: the whole composition.
-/

namespace Composition

open Checks Decimal Planning Query

/-! ### The loop over the stock -/

section

variable {V : Type} [PyValue V]

/-- The rows of the stock are taken up to one of which a field is missing. -/
def SqlEscapes (required : List String) (rows : List (Dict String V)) : Prop :=
  ∃ before row, before ++ [row] <+: rows ∧ ∃ sql : List StockRow,
    List.Forall₂ (ReadsSqlRow required) before sql ∧ (sql.map Prod.fst).Nodup ∧
    required ⊆ row.keys ∧ MissesField row (sqlFields (sql.map Prod.fst))

theorem uncaught_collectSql_from {required : List String} {n : ℕ}
    {stocks : Dict ℤ (Bool × Decimal)} {rows : List (Dict String V)} :
    Uncaught (collectSql required n stocks rows) ↔
      ∃ before row, before ++ [row] <+: rows ∧ ∃ sql : List StockRow,
        List.Forall₂ (ReadsSqlRow required) before sql ∧
        (stocks.keys ++ sql.map Prod.fst).Nodup ∧
        required ⊆ row.keys ∧ MissesField row (sqlFields (stocks.keys ++ sql.map Prod.fst)) := by
  induction rows generalizing n stocks with
  | nil =>
    refine iff_of_false (not_escapes_ok _) ?_
    rintro ⟨before, row, hprior, -⟩
    simp at hprior
  | cons row rows ih =>
    simp only [collectSql, Uncaught, escapes_bind (x := readSqlRow required _ n row)]
    have hkeys : ∀ {read : StockRow}, read.1 ∉ stocks.keys →
        (stocks.set read.1 read.2).keys = stocks.keys ++ [read.1] := by
      intro read hnew
      rw [Dict.keys, Dict.entries_set_of_not_mem hnew, List.map_append]
      rfl
    constructor
    · rintro (h | ⟨read, hread, h⟩)
      · have hrow := uncaught_readSqlRow.1 h
        refine ⟨[], row, ⟨rows, rfl⟩, [], .nil, ?_, hrow.1, ?_⟩
        · rw [List.map_nil, List.append_nil]
          exact stocks.nodup
        · rw [List.map_nil, List.append_nil]
          exact hrow.2
      · obtain ⟨hreads, hnew⟩ := readSqlRow_eq_ok.1 hread
        obtain ⟨before, row', hprior, sql, hall, hnodup, hrow⟩ := ih.1 h
        rw [hkeys hnew, List.append_assoc, List.singleton_append] at hnodup hrow
        exact ⟨row :: before, row', List.cons_prefix_cons.2 ⟨rfl, hprior⟩, read :: sql,
          .cons hreads hall, hnodup, hrow⟩
    · rintro ⟨before, row', hprior, sql, hall, hnodup, hrow⟩
      cases hall with
      | nil =>
        obtain ⟨rfl, -⟩ := List.cons_prefix_cons.1 hprior
        rw [List.map_nil, List.append_nil] at hrow
        exact Or.inl (uncaught_readSqlRow.2 hrow)
      | @cons _ read before sql hreads hall =>
        obtain ⟨heq, hrest⟩ := List.cons_prefix_cons.1 hprior
        subst heq
        have hnew : read.1 ∉ stocks.keys := by
          intro hmem
          rw [List.map_cons, List.nodup_append] at hnodup
          exact hnodup.2.2 _ hmem _ List.mem_cons_self rfl
        refine Or.inr ⟨read, readSqlRow_eq_ok.2 ⟨hreads, hnew⟩,
          ih.2 ⟨before, row', hrest, sql, hall, ?_⟩⟩
        rw [hkeys hnew, List.append_assoc, List.singleton_append]
        exact ⟨hnodup, hrow⟩

/-- **What the loop over the stock lets through.** -/
theorem uncaught_collectSql {required : List String} {rows : List (Dict String V)} :
    Uncaught (collectSql required 0 .empty rows) ↔ SqlEscapes required rows := by
  rw [uncaught_collectSql_from]
  rfl

end

/-! ### What a component holds -/

/-- The first row of every path to a component. -/
def firstPaths (graph : List GraphRow) (componentId : ℤ) : List GraphRow :=
  Grouping.uniqueBy GraphRow.path (graph.filter (·.componentId = componentId))

/-- The entry of a path. -/
def IsEntryOf (production : Decimal) (componentId : ℤ) (r : GraphRow)
    (entry : (ℤ × List ℤ) × Decimal) : Prop :=
  entry.1 = (componentId, r.path) ∧ pathRequired production r.quantities = .ok entry.2

theorem firstPaths_concat_of_ne {graph : List GraphRow} {row : GraphRow} {componentId : ℤ}
    (h : row.componentId ≠ componentId) :
    firstPaths (graph ++ [row]) componentId = firstPaths graph componentId := by
  simp [firstPaths, List.filter_append, h]

theorem firstPaths_concat (graph : List GraphRow) (row : GraphRow) :
    firstPaths (graph ++ [row]) row.componentId =
      Grouping.addNewBy GraphRow.path (firstPaths graph row.componentId) row := by
  simp [firstPaths, List.filter_append, Grouping.uniqueBy_concat]

/-- One more path. -/
theorem forall₂_setDefault {production required : Decimal} {row : GraphRow}
    {rows : List GraphRow} {paths : Dict (ℤ × List ℤ) Decimal}
    (h : List.Forall₂ (IsEntryOf production row.componentId) rows paths.entries)
    (hrequired : pathRequired production row.quantities = .ok required) :
    List.Forall₂ (IsEntryOf production row.componentId)
      (Grouping.addNewBy GraphRow.path rows row)
      (paths.setDefault (row.componentId, row.path) required).2.entries := by
  have hknown : (row.componentId, row.path) ∈ paths.keys ↔ ∃ r ∈ rows, r.path = row.path := by
    rw [Dict.keys, List.mem_map]
    constructor
    · rintro ⟨entry, hentry, hkey⟩
      obtain ⟨r, hr, hof⟩ := exists_of_forall₂ h hentry
      rw [hof.1, Prod.mk.injEq] at hkey
      exact ⟨r, hr, hkey.2⟩
    · rintro ⟨r, hr, hpath⟩
      obtain ⟨entry, hentry, hof⟩ := exists_of_forall₂ h.flip hr
      exact ⟨entry, hentry, hof.1.trans (by rw [hpath])⟩
  unfold Grouping.addNewBy Dict.setDefault
  cases hget : paths.get? (row.componentId, row.path) with
  | some prior =>
    obtain ⟨r, hr, hpath⟩ := hknown.1 (Dict.get?_isSome_iff.1 (by rw [hget]; rfl))
    rw [if_pos (List.any_eq_true.2 ⟨r, hr, decide_eq_true hpath⟩)]
    exact h
  | none =>
    have hnew := Dict.get?_eq_none_iff.1 hget
    rw [if_neg, Dict.entries_set_of_not_mem hnew]
    · exact List.rel_append h (.cons ⟨rfl, hrequired⟩ .nil)
    · rw [List.any_eq_true]
      rintro ⟨r, hr, hpath⟩
      exact hnew (hknown.2 ⟨r, hr, of_decide_eq_true hpath⟩)

/-- What the components hold for their paths, in order. -/
def HoldsPaths (production : Decimal) (graph : List GraphRow) (s : Collected) : Prop :=
  ∀ componentId component, s.components.get? componentId = some component →
    List.Forall₂ (IsEntryOf production componentId) (firstPaths graph componentId)
      component.paths.entries

theorem HoldsPaths.entered {production required : Decimal} {graph : List GraphRow} {s : Collected}
    {row : GraphRow} (h : HoldsPaths production graph s) (hcollects : Collects production graph s)
    (hrequired : pathRequired production row.quantities = .ok required) :
    HoldsPaths production (graph ++ [row]) (s.entered row required) := by
  intro componentId component hget
  simp only [Collected.entered, Dict.get?_set, Dict.get?_setDefault] at hget
  split_ifs at hget with hid
  · subst hid
    rw [Option.some.injEq] at hget
    rw [← hget, firstPaths_concat]
    refine forall₂_setDefault ?_ hrequired
    unfold Collected.componentOf
    cases hprior : s.components.get? row.componentId with
    | some prior => exact h _ _ hprior
    | none =>
      have hnew : firstPaths graph row.componentId = [] := by
        have hfilter : graph.filter (·.componentId = row.componentId) = [] := by
          rw [List.filter_eq_nil_iff]
          intro r hr hrow
          exact Dict.get?_eq_none_iff.1 hprior
            ((hcollects.mem_components _).2 ⟨r, hr, of_decide_eq_true hrow⟩)
        rw [firstPaths, hfilter]
        rfl
      rw [hnew]
      exact .nil
  · rw [firstPaths_concat_of_ne fun h => hid h.symm]
    exact h _ _ hget

theorem holdsPaths_of_foldlM {production : Decimal} {before graph : List GraphRow}
    {s s' : Collected} (h : HoldsPaths production before s) (hcollects : Collects production before s)
    (hrun : graph.foldlM (enterRow production) s = .ok s') :
    HoldsPaths production (before ++ graph) s' := by
  induction graph generalizing before s with
  | nil =>
    cases hrun
    rwa [List.append_nil]
  | cons row graph ih =>
    rw [List.foldlM_cons] at hrun
    obtain ⟨next, hnext, hrun⟩ := bind_eq_ok.1 hrun
    obtain ⟨hfitting, required, hrequired, rfl⟩ := enterRow_eq_ok.1 hnext
    have hall := ih (h.entered hcollects hrequired) (hcollects.entered hfitting hrequired) hrun
    rwa [List.append_assoc, List.singleton_append] at hall

/-! ### The arithmetic for a component -/

/-- The arithmetic for a bought component: the sum of what its paths require, the difference to the
stock, and the rounding of what is displayed if there is a shortage. -/
def Computes (production : Decimal) (outputScale : ℤ) (requirements : List Decimal)
    (stock : Decimal) : Prop :=
  ∃ required difference,
    requirements.foldlM (fun sum v => Decimal.add context sum v) Decimal.zero = .ok required ∧
    Decimal.sub context required stock = .ok difference ∧
    (0 < difference.toRat → ∀ x ∈ [production, required, stock, difference],
      Returns (Decimal.quantize context x (-outputScale)))

theorem returns_shortageOf {production : Decimal} {outputScale componentId : ℤ}
    {component : Component} {stock : Bool × Decimal} :
    Returns (shortageOf production outputScale componentId component stock) ↔
      (stock.1 = false → Computes production outputScale component.paths.values stock.2) := by
  obtain ⟨makeFlag, stock⟩ := stock
  unfold shortageOf Computes
  cases makeFlag with
  | true => simp
  | false =>
    simp only [Bool.false_eq_true, if_false, true_imp_iff, returns_bind]
    constructor
    · rintro ⟨required, hrequired, difference, hdifference, h⟩
      refine ⟨required, difference, hrequired, hdifference, fun hpos => ?_⟩
      rw [maxDecimal_zero_of_pos hpos, if_neg hpos.ne'] at h
      simp only [returns_bind] at h
      obtain ⟨a, ha, b, hb, c, hc, d, hd, -⟩ := h
      simp only [List.forall_mem_cons, List.not_mem_nil, false_imp_iff, implies_true, and_true]
      exact ⟨⟨a, ha⟩, ⟨b, hb⟩, ⟨c, hc⟩, ⟨d, hd⟩⟩
    · rintro ⟨required, difference, hrequired, hdifference, h⟩
      refine ⟨required, hrequired, difference, hdifference, ?_⟩
      by_cases hpos : 0 < difference.toRat
      · rw [maxDecimal_zero_of_pos hpos, if_neg hpos.ne']
        have h := h hpos
        simp only [List.forall_mem_cons, List.not_mem_nil, false_imp_iff, implies_true,
          and_true] at h
        obtain ⟨⟨a, ha⟩, ⟨b, hb⟩, ⟨c, hc⟩, ⟨d, hd⟩⟩ := h
        simp only [returns_bind]
        exact ⟨a, ha, b, hb, c, hc, d, hd, returns_pure _⟩
      · rw [if_pos (maxDecimal_zero_eq_zero hpos)]
        exact returns_pure _

/-- The loop over the components lets a signal through, if all of them have a stock. -/
theorem uncaught_shortagesOf {production : Decimal} {outputScale : ℤ}
    {stocks : Dict ℤ (Bool × Decimal)} {entries : List (ℤ × Component)}
    (hstocks : ∀ entry ∈ entries, entry.1 ∈ stocks.keys) :
    Uncaught (shortagesOf production outputScale stocks entries) ↔
      ∃ entry ∈ entries, ∃ stock, stocks.get? entry.1 = some stock ∧
        ¬ Returns (shortageOf production outputScale entry.1 entry.2 stock) := by
  induction entries with
  | nil => simp [shortagesOf]
  | cons entry entries ih =>
    obtain ⟨componentId, component⟩ := entry
    rw [List.forall_mem_cons] at hstocks
    obtain ⟨stock, hstock⟩ := Dict.exists_get?_of_mem_keys hstocks.1
    simp only [shortagesOf, hstock, List.exists_mem_cons_iff, Option.some.injEq, exists_eq_left']
    rw [← ih hstocks.2, Uncaught, escapes_bind]
    simp only [escapes_map]
    by_cases hrow : Returns (shortageOf production outputScale componentId component stock)
    · have hsignalled : ¬ Uncaught
          (signalled (shortageOf production outputScale componentId component stock)) :=
        fun h => uncaught_signalled.1 h hrow
      obtain ⟨row, hrow⟩ := hrow
      rw [or_iff_right hsignalled, or_iff_right (not_not.2 ⟨row, hrow⟩)]
      constructor
      · rintro ⟨_, -, h⟩
        exact h
      · exact fun h => ⟨row, signalled_eq_ok.2 hrow, h⟩
    · exact iff_of_true (Or.inl (uncaught_signalled.2 hrow)) (Or.inl hrow)

/-! ### The calculation -/

/-- All rows are about one finished product. -/
def OneFinished (graph : List GraphRow) : Prop :=
  ∀ r ∈ graph, ∀ r' ∈ graph, (r.finishedId, r.finishedName) = (r'.finishedId, r'.finishedName)

theorem Collects.oneFinished_iff {production : Decimal} {graph : List GraphRow} {s : Collected}
    (h : Collects production graph s) : s.finishedProducts.length ≤ 1 ↔ OneFinished graph := by
  constructor
  · intro hlength r hr r' hr'
    have hmem := (h.mem_finished _).2 ⟨r, hr, rfl⟩
    have hmem' := (h.mem_finished _).2 ⟨r', hr', rfl⟩
    obtain ⟨n, hn, heq⟩ := List.getElem_of_mem hmem
    obtain ⟨m, hm, heq'⟩ := List.getElem_of_mem hmem'
    have hsame : n = m := by omega
    subst hsame
    exact heq.symm.trans heq'
  · intro hone
    by_contra hlength
    rw [not_le] at hlength
    have hfirst := (h.mem_finished _).1 (List.getElem_mem (show 0 < s.finishedProducts.length by omega))
    have hsecond := (h.mem_finished _).1 (List.getElem_mem hlength)
    obtain ⟨r, hr, heq⟩ := hfirst
    obtain ⟨r', hr', heq'⟩ := hsecond
    have hindex := (List.Nodup.getElem_inj_iff h.nodup_finished).1
      (heq.symm.trans ((hone r hr r' hr').trans heq'))
    omega

section

variable {V : Type} [PyValue V]

/-- Rows of both sources that are taken, up to the arithmetic for the components. -/
structure TakesBoth (production : Decimal) (requiredGraphOutputs requiredSqlOutputs : List String)
    (graphRows sqlRows : List (Dict String V)) (graph : List GraphRow) (sql : List StockRow) :
    Prop where
  takesGraph : Takes production requiredGraphOutputs graphRows graph
  oneFinished : OneFinished graph
  readsSql : List.Forall₂ (ReadsSqlRow requiredSqlOutputs) sqlRows sql
  nodup : (sql.map Prod.fst).Nodup
  domain : ∀ componentId,
    (∃ r ∈ graph, r.componentId = componentId) ↔ ∃ row ∈ sql, row.1 = componentId

/-- The arithmetic for a bought component signals. -/
def ArithmeticEscapes (production : Decimal) (outputScale : ℤ) (graph : List GraphRow)
    (row : StockRow) : Prop :=
  row.2.1 = false ∧ ∀ requirements, List.Forall₂ (fun r required =>
      pathRequired production r.quantities = .ok required) (firstPaths graph row.1) requirements →
    ¬ Computes production outputScale requirements row.2.2

/-- The first problem of the rows, in reading order, is none that a `ValueError` is raised for. -/
def ShortageEscapes (production : Decimal) (outputScale : ℤ)
    (requiredGraphOutputs requiredSqlOutputs : List String) (graphRows sqlRows : List (Dict String V)) :
    Prop :=
  GraphEscapes production requiredGraphOutputs graphRows ∨
  (∃ graph, Takes production requiredGraphOutputs graphRows graph ∧ OneFinished graph ∧
    SqlEscapes requiredSqlOutputs sqlRows) ∨
  ∃ graph sql,
    TakesBoth production requiredGraphOutputs requiredSqlOutputs graphRows sqlRows graph sql ∧
    ∃ row ∈ sql, ArithmeticEscapes production outputScale graph row

/-- Rows that are taken are collected. -/
theorem collectGraph_eq_ok_iff_takes {production : Decimal} {required : List String}
    {rows : List (Dict String V)} {collected : Collected} :
    collectGraph production required 0 .start rows = .ok collected ↔
      ∃ graph, Takes production required rows graph ∧
        graph.foldlM (enterRow production) .start = .ok collected := by
  rw [collectGraph_eq_ok]
  refine exists_congr fun graph => ?_
  constructor
  · rintro ⟨hreads, hrun⟩
    obtain ⟨hcollects, hproducts⟩ := collects_of_foldlM (collects_start production) hrun
    exact ⟨⟨hreads, hcollects.agree, hproducts⟩, hrun⟩
  · exact fun ⟨htakes, hrun⟩ => ⟨htakes.reads, hrun⟩

theorem Takes.exists_collected {production : Decimal} {required : List String}
    {rows : List (Dict String V)} {graph : List GraphRow}
    (h : Takes production required rows graph) :
    ∃ collected, graph.foldlM (enterRow production) .start = .ok collected :=
  exists_foldlM (collects_start production) h.agree h.products

/-- The arithmetic signals for a component as it was collected. -/
theorem uncaught_shortagesOf_iff {production : Decimal} {outputScale : ℤ} {graph : List GraphRow}
    {collected : Collected} {stocks : Dict ℤ (Bool × Decimal)}
    (hrun : graph.foldlM (enterRow production) .start = .ok collected)
    (hdomain : ∀ componentId, componentId ∈ collected.graphDomain ↔ componentId ∈ stocks.keys) :
    Uncaught (shortagesOf production outputScale stocks collected.components.entries) ↔
      ∃ row ∈ stocks.entries, ArithmeticEscapes production outputScale graph row := by
  have hcollects := (collects_of_foldlM (collects_start production) hrun).1
  have hpaths : HoldsPaths production ([] ++ graph) collected :=
    holdsPaths_of_foldlM (fun _ _ h => by simp [Collected.start, Dict.get?, Dict.empty] at h)
      (collects_start production) hrun
  rw [List.nil_append] at hcollects hpaths
  have hunique : Relator.RightUnique fun (r : GraphRow) required =>
      pathRequired production r.quantities = .ok required :=
    fun _ _ _ h h' => Except.ok.inj (h.symm.trans h')
  have hvalues : ∀ componentId component,
      collected.components.get? componentId = some component →
      ∀ requirements, List.Forall₂ (fun r required =>
        pathRequired production r.quantities = .ok required) (firstPaths graph componentId)
          requirements ↔ requirements = component.paths.values := by
    intro componentId component hcomponent requirements
    have hheld : List.Forall₂ (fun (r : GraphRow) required =>
        pathRequired production r.quantities = .ok required) (firstPaths graph componentId)
          component.paths.values :=
      List.forall₂_map_right_iff.2 ((hpaths _ _ hcomponent).imp fun _ _ h => h.2)
    constructor
    · exact fun h => List.right_unique_forall₂' hunique h hheld
    · rintro rfl
      exact hheld
  have hkeys : ∀ componentId,
      componentId ∈ collected.components.keys ↔ componentId ∈ stocks.keys := by
    intro componentId
    rw [← hdomain, hcollects.mem_components, hcollects.mem_domain]
  rw [uncaught_shortagesOf fun entry hentry => (hkeys _).1 (List.mem_map_of_mem hentry)]
  simp only [returns_shortageOf, Classical.not_imp]
  constructor
  · rintro ⟨⟨componentId, component⟩, hentry, stock, hstock, hbought, hfails⟩
    refine ⟨(componentId, stock), Dict.get?_eq_some_iff.1 hstock, hbought, ?_⟩
    intro requirements hrequirements
    rw [(hvalues _ _ (Dict.get?_eq_some_iff.2 hentry) _).1 hrequirements]
    exact hfails
  · rintro ⟨⟨componentId, stock⟩, hstock, hbought, hfails⟩
    obtain ⟨component, hcomponent⟩ := Dict.exists_get?_of_mem_keys
      ((hkeys _).2 (List.mem_map_of_mem hstock))
    exact ⟨(componentId, component), Dict.get?_eq_some_iff.1 hcomponent, stock,
      Dict.get?_eq_some_iff.2 hstock, hbought, hfails _ ((hvalues _ _ hcomponent _).2 rfl)⟩

/-- **What the calculation lets through.** -/
theorem uncaught_calculateBomShortages {graphRows sqlRows : List (Dict String V)}
    {productionQty : V} {production : Decimal} {outputScale : ℤ}
    {requiredGraphOutputs requiredSqlOutputs : List String}
    (hscale : 0 ≤ outputScale ∧ outputScale ≤ 12)
    (hproduction : decimal productionQty "productionQty" true = .ok production) :
    Uncaught (calculateBomShortages graphRows sqlRows productionQty outputScale
        requiredGraphOutputs requiredSqlOutputs) ↔
      ShortageEscapes production outputScale requiredGraphOutputs requiredSqlOutputs graphRows
        sqlRows := by
  unfold calculateBomShortages
  rw [Uncaught, escapes_check (not_escapes_require (isValueError_valueError _)), require_eq_ok,
    and_iff_right hscale, hproduction, ok_bind, escapes_bind]
  refine or_congr uncaught_collectGraph ?_
  simp only [escapes_check (not_escapes_require (isValueError_valueError _)), require_eq_ok,
    collectGraph_eq_ok_iff_takes, escapes_bind (x := collectSql _ _ _ _)]
  constructor
  · rintro ⟨collected, ⟨graph, htakes, hrun⟩, hfinished, h⟩
    have hcollects := (collects_of_foldlM (collects_start production) hrun).1
    rw [List.nil_append] at hcollects
    have hone := hcollects.oneFinished_iff.1 hfinished
    rcases h with h | ⟨stocks, hstocks, h⟩
    · exact Or.inl ⟨graph, htakes, hone, uncaught_collectSql.1 h⟩
    · split_ifs at h with hdiffers
      · exact absurd h (not_escapes_bind (not_uncaught_intListText _) fun _ =>
          not_escapes_bind (not_uncaught_intListText _) fun _ =>
            not_escapes_throw_bind (isValueError_valueError _))
      have hdomain := domains_agree_iff.1 hdiffers
      obtain ⟨sql, hsql, hentries⟩ := collectSql_eq_ok.1 hstocks
      obtain ⟨row, hrow, harithmetic⟩ :=
        (uncaught_shortagesOf_iff hrun hdomain).1 (escapes_map.1 h)
      have hsame : stocks.entries = sql := hentries
      subst hsame
      refine Or.inr ⟨graph, _, ⟨htakes, hone, hsql, stocks.nodup, ?_⟩, row, hrow, harithmetic⟩
      intro componentId
      rw [← hcollects.mem_domain, hdomain, Dict.keys, List.mem_map]
  · rintro (⟨graph, htakes, hone, h⟩ | ⟨graph, sql, h, row, hrow, harithmetic⟩)
    · obtain ⟨collected, hrun⟩ := htakes.exists_collected
      have hcollects := (collects_of_foldlM (collects_start production) hrun).1
      rw [List.nil_append] at hcollects
      exact ⟨collected, ⟨graph, htakes, hrun⟩, hcollects.oneFinished_iff.2 hone,
        Or.inl (uncaught_collectSql.2 h)⟩
    · obtain ⟨collected, hrun⟩ := h.takesGraph.exists_collected
      have hcollects := (collects_of_foldlM (collects_start production) hrun).1
      rw [List.nil_append] at hcollects
      let stocks : Dict ℤ (Bool × Decimal) := ⟨sql, h.nodup⟩
      have hdomain : ∀ componentId,
          componentId ∈ collected.graphDomain ↔ componentId ∈ stocks.keys := by
        intro componentId
        rw [hcollects.mem_domain, h.domain, Dict.keys, List.mem_map]
      refine ⟨collected, ⟨graph, h.takesGraph, hrun⟩, hcollects.oneFinished_iff.2 h.oneFinished,
        Or.inr ⟨stocks, collectSql_eq_ok.2 ⟨sql, h.readsSql, rfl⟩, ?_⟩⟩
      rw [if_neg (domains_agree_iff.2 hdomain)]
      exact escapes_map.2 ((uncaught_shortagesOf_iff hrun hdomain).2 ⟨row, hrow, harithmetic⟩)

end

end Composition
