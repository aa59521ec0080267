import Text2Cypher.Composition.ReadRows

/-!
# What the rows of the graph collect

The loop over the graph fills four maps, one row after the other.  What they hold depends on the
set of the rows only, and whether a row is refused on whether two rows contradict each other.

* `Collects`: what the maps hold after some rows;
* `Collects.enter`: one more row;
* **`collects_of_foldlM`**, **`exists_foldlM`**: all rows, and when they are all taken.
-/

namespace Dict

variable {κ ν : Type} [DecidableEq κ]

theorem setDefault_fst (d : Dict κ ν) (k : κ) (v : ν) :
    (d.setDefault k v).1 = (d.get? k).getD v := by
  unfold setDefault
  cases d.get? k <;> rfl

theorem get?_setDefault (d : Dict κ ν) (k k' : κ) (v : ν) :
    (d.setDefault k v).2.get? k' = if k' = k then some ((d.get? k).getD v) else d.get? k' := by
  unfold setDefault
  cases h : d.get? k with
  | some prior =>
    split_ifs with hk
    · rw [hk, h]
      rfl
    · rfl
  | none =>
    rw [get?_set]
    rfl

theorem mem_keys_setDefault {d : Dict κ ν} {k k' : κ} {v : ν} :
    k' ∈ (d.setDefault k v).2.keys ↔ k' = k ∨ k' ∈ d.keys := by
  rw [← get?_isSome_iff, get?_setDefault, ← get?_isSome_iff]
  split_ifs with hk <;> simp [hk]

end Dict

namespace Composition

open Checks

/-! ### Entering a row -/

/-- What is known of a component before its first row. -/
def newComponent (row : GraphRow) : Component :=
  ⟨row.finishedId, row.finishedName, row.componentName, .empty, []⟩

/-- The component that a row is about, as it is known. -/
def Collected.componentOf (s : Collected) (row : GraphRow) : Component :=
  (s.components.get? row.componentId).getD (newComponent row)

/-- The component with one more row. -/
def Component.entered (component : Component) (row : GraphRow) (required : Decimal) : Component :=
  { component with
    paths := (component.paths.setDefault (row.componentId, row.path) required).2
    suppliers := row.supplier.elim component.suppliers component.suppliers.insert }

/-- The names of the suppliers with one more row. -/
def enteredNames (supplierNames : Dict ℤ String) : Option (ℤ × String) → Dict ℤ String
  | none => supplierNames
  | some (supplierId, supplierName) => (supplierNames.setDefault supplierId supplierName).2

/-- The maps with one more row. -/
def Collected.entered (s : Collected) (row : GraphRow) (required : Decimal) : Collected where
  components := (s.components.setDefault row.componentId (newComponent row)).2.set row.componentId
    ((s.componentOf row).entered row required)
  graphDomain := s.graphDomain.insert row.componentId
  supplierNames := enteredNames s.supplierNames row.supplier
  finishedProducts := s.finishedProducts.insert (row.finishedId, row.finishedName)
  pathQuantities := (s.pathQuantities.setDefault (row.componentId, row.path) row.quantities).2

/-- A row that contradicts nothing that is known. -/
structure Fitting (s : Collected) (row : GraphRow) : Prop where
  supplier : ∀ supplierId supplierName, row.supplier = some (supplierId, supplierName) →
    (s.supplierNames.get? supplierId).getD supplierName = supplierName
  identity : ((s.componentOf row).finishedProductId, (s.componentOf row).finishedProductName,
    (s.componentOf row).componentName) = (row.finishedId, row.finishedName, row.componentName)
  quantities : sameQuantities
    ((s.pathQuantities.get? (row.componentId, row.path)).getD row.quantities) row.quantities

theorem enterSupplierName_eq_ok {supplierNames supplierNames' : Dict ℤ String}
    {supplier : Option (ℤ × String)} :
    enterSupplierName supplierNames supplier = .ok supplierNames' ↔
      (∀ supplierId supplierName, supplier = some (supplierId, supplierName) →
        (supplierNames.get? supplierId).getD supplierName = supplierName) ∧
      enteredNames supplierNames supplier = supplierNames' := by
  cases supplier with
  | none => simp [enterSupplierName, enteredNames]
  | some supplier =>
    obtain ⟨supplierId, supplierName⟩ := supplier
    simp only [enterSupplierName, Dict.setDefault_fst, enteredNames, Option.some.injEq]
    split_ifs with hname
    · constructor
      · intro h
        obtain ⟨text, -, h⟩ := bind_eq_ok.1 h
        cases h
      · rintro ⟨hsame, -⟩
        exact absurd (hsame _ _ rfl) hname
    · rw [not_not] at hname
      rw [Except.ok.injEq, iff_and_self]
      rintro - _ _ ⟨rfl, rfl⟩
      exact hname

theorem enterRow_eq_ok {production : Decimal} {s s' : Collected} {row : GraphRow} :
    enterRow production s row = .ok s' ↔ Fitting s row ∧ ∃ required,
      pathRequired production row.quantities = .ok required ∧ s.entered row required = s' := by
  constructor
  · intro h
    unfold enterRow at h
    obtain ⟨names, hnames, h⟩ := bind_eq_ok.1 h
    simp only [Dict.setDefault_fst] at h
    obtain ⟨hsupplier, rfl⟩ := enterSupplierName_eq_ok.1 hnames
    split at h
    · obtain ⟨text, -, h⟩ := bind_eq_ok.1 h
      obtain ⟨_, h, -⟩ := bind_eq_ok.1 h
      cases h
    rename_i hidentity
    split at h
    · obtain ⟨text, -, h⟩ := bind_eq_ok.1 h
      obtain ⟨pathText, -, h⟩ := bind_eq_ok.1 h
      obtain ⟨_, h, -⟩ := bind_eq_ok.1 h
      cases h
    rename_i hquantities
    obtain ⟨required, hrequired, h⟩ := bind_eq_ok.1 h
    exact ⟨⟨hsupplier, not_not.1 hidentity, not_not.1 hquantities⟩, required,
      signalled_eq_ok.1 hrequired, pure_eq_ok.1 h⟩
  · rintro ⟨⟨hsupplier, hidentity, hquantities⟩, required, hrequired, rfl⟩
    unfold enterRow
    refine bind_eq_ok.2 ⟨_, enterSupplierName_eq_ok.2 ⟨hsupplier, rfl⟩, ?_⟩
    simp only [Dict.setDefault_fst]
    refine (if_neg (not_not.2 hidentity)).trans ((if_neg (not_not.2 hquantities)).trans ?_)
    exact bind_eq_ok.2 ⟨required, signalled_eq_ok.2 hrequired, rfl⟩

/-! ### What the maps hold -/

/-- Two rows that do not contradict each other. -/
structure Agree (r r' : GraphRow) : Prop where
  supplier : ∀ supplierId supplierName supplierName', r.supplier = some (supplierId, supplierName) →
    r'.supplier = some (supplierId, supplierName') → supplierName = supplierName'
  identity : r.componentId = r'.componentId →
    (r.finishedId, r.finishedName, r.componentName) =
      (r'.finishedId, r'.finishedName, r'.componentName)
  quantities : r.componentId = r'.componentId → r.path = r'.path →
    sameQuantities r.quantities r'.quantities

/-- What is known of a component after some rows. -/
structure IsComponent (production : Decimal) (graph : List GraphRow) (componentId : ℤ)
    (component : Component) : Prop where
  identity : ∀ r ∈ graph, r.componentId = componentId →
    (component.finishedProductId, component.finishedProductName, component.componentName) =
      (r.finishedId, r.finishedName, r.componentName)
  paths : ∀ r ∈ graph, r.componentId = componentId →
    (componentId, r.path) ∈ component.paths.keys
  required : ∀ key required, component.paths.get? key = some required →
    ∃ r ∈ graph, r.componentId = componentId ∧ key = (componentId, r.path) ∧
      pathRequired production r.quantities = .ok required
  nodup_suppliers : component.suppliers.Nodup
  mem_suppliers : ∀ supplier, supplier ∈ component.suppliers ↔
    ∃ r ∈ graph, r.componentId = componentId ∧ r.supplier = some supplier

/-- What the maps hold after some rows. -/
structure Collects (production : Decimal) (graph : List GraphRow) (s : Collected) : Prop where
  components : ∀ componentId component, s.components.get? componentId = some component →
    IsComponent production graph componentId component
  mem_components : ∀ componentId,
    componentId ∈ s.components.keys ↔ ∃ r ∈ graph, r.componentId = componentId
  mem_domain : ∀ componentId,
    componentId ∈ s.graphDomain ↔ ∃ r ∈ graph, r.componentId = componentId
  supplierNames : ∀ supplierId supplierName,
    s.supplierNames.get? supplierId = some supplierName ↔
      ∃ r ∈ graph, r.supplier = some (supplierId, supplierName)
  nodup_finished : s.finishedProducts.Nodup
  mem_finished : ∀ finished, finished ∈ s.finishedProducts ↔
    ∃ r ∈ graph, (r.finishedId, r.finishedName) = finished
  quantities : ∀ key quantities, s.pathQuantities.get? key = some quantities →
    ∃ r ∈ graph, key = (r.componentId, r.path) ∧ quantities = r.quantities
  mem_quantities : ∀ r ∈ graph, (r.componentId, r.path) ∈ s.pathQuantities.keys
  agree : ∀ r ∈ graph, ∀ r' ∈ graph, Agree r r'

theorem Agree.refl (r : GraphRow) : Agree r r := by
  refine ⟨?_, fun _ => rfl, fun _ _ => rfl⟩
  intro supplierId supplierName supplierName' h h'
  rw [h, Option.some.injEq, Prod.mk.injEq] at h'
  exact h'.2

theorem Agree.symm {r r' : GraphRow} (h : Agree r r') : Agree r' r where
  supplier supplierId _ _ hr hr' := (h.supplier supplierId _ _ hr' hr).symm
  identity hid := (h.identity hid.symm).symm
  quantities hid hpath := (h.quantities hid.symm hpath.symm).symm

theorem collects_start (production : Decimal) : Collects production [] .start where
  components componentId component h := by simp [Collected.start, Dict.get?, Dict.empty] at h
  mem_components := by simp [Collected.start]
  mem_domain := by simp [Collected.start]
  supplierNames := by simp [Collected.start, Dict.get?, Dict.empty]
  nodup_finished := List.nodup_nil
  mem_finished := by simp [Collected.start]
  quantities key quantities h := by simp [Collected.start, Dict.get?, Dict.empty] at h
  mem_quantities := by simp
  agree := by simp

section

variable {production : Decimal} {graph : List GraphRow} {s : Collected} {row : GraphRow}

/-- A component without rows is a new one. -/
theorem Collects.isComponent_componentOf (h : Collects production graph s) (row : GraphRow) :
    IsComponent production graph row.componentId (s.componentOf row) := by
  unfold Collected.componentOf
  cases hget : s.components.get? row.componentId with
  | some component => exact h.components _ _ hget
  | none =>
    have hnew : ∀ r ∈ graph, r.componentId ≠ row.componentId := by
      intro r hr hid
      exact Dict.get?_eq_none_iff.1 hget ((h.mem_components _).2 ⟨r, hr, hid⟩)
    refine ⟨fun r hr hid => absurd hid (hnew r hr), fun r hr hid => absurd hid (hnew r hr), ?_,
      List.nodup_nil, ?_⟩
    · intro key required hkey
      simp [newComponent, Dict.get?, Dict.empty] at hkey
    · intro supplier
      constructor
      · intro hmem
        simp [newComponent] at hmem
      · rintro ⟨r, hr, hid, -⟩
        exact absurd hid (hnew r hr)

/-- **When a row is refused**: when it contradicts one that was there. -/
theorem Collects.fitting_iff (h : Collects production graph s) :
    Fitting s row ↔ ∀ r ∈ graph, Agree r row := by
  constructor
  · rintro ⟨hsupplier, hidentity, hquantities⟩ r hr
    refine ⟨?_, ?_, ?_⟩
    · intro supplierId supplierName supplierName' hname hname'
      have hget := (h.supplierNames supplierId supplierName).2 ⟨r, hr, hname⟩
      have hsame := hsupplier supplierId supplierName' hname'
      rwa [hget, Option.getD_some] at hsame
    · intro hid
      rw [← hidentity]
      exact ((h.isComponent_componentOf row).identity r hr hid).symm
    · intro hid hpath
      obtain ⟨quantities, hget⟩ := Dict.exists_get?_of_mem_keys (h.mem_quantities r hr)
      obtain ⟨r', hr', hkey, rfl⟩ := h.quantities _ _ hget
      rw [← hid, ← hpath, hget, Option.getD_some] at hquantities
      rw [Prod.mk.injEq] at hkey
      exact ((h.agree r hr r' hr').quantities hkey.1 hkey.2).trans hquantities
  · intro hagree
    refine ⟨?_, ?_, ?_⟩
    · intro supplierId supplierName hname
      cases hget : s.supplierNames.get? supplierId with
      | none => rfl
      | some prior =>
        obtain ⟨r, hr, hprior⟩ := (h.supplierNames _ _).1 hget
        exact (hagree r hr).supplier _ _ _ hprior hname
    · by_cases hknown : ∃ r ∈ graph, r.componentId = row.componentId
      · obtain ⟨r, hr, hid⟩ := hknown
        rw [(h.isComponent_componentOf row).identity r hr hid]
        exact (hagree r hr).identity hid
      · have hget : s.components.get? row.componentId = none :=
          Dict.get?_eq_none_iff.2 fun hmem => hknown ((h.mem_components _).1 hmem)
        rw [Collected.componentOf, hget]
        rfl
    · cases hget : s.pathQuantities.get? (row.componentId, row.path) with
      | none => rfl
      | some quantities =>
        obtain ⟨r, hr, hkey, rfl⟩ := h.quantities _ _ hget
        rw [Prod.mk.injEq] at hkey
        exact (hagree r hr).quantities hkey.1.symm hkey.2.symm

/-! ### One more row -/

theorem IsComponent.of_other {componentId : ℤ} {component : Component}
    (h : IsComponent production graph componentId component)
    (hother : componentId ≠ row.componentId) :
    IsComponent production (graph ++ [row]) componentId component := by
  have hmem : ∀ r, r ∈ graph ++ [row] ∧ r.componentId = componentId ↔
      r ∈ graph ∧ r.componentId = componentId := by
    intro r
    rw [List.mem_append, List.mem_singleton]
    constructor
    · rintro ⟨hr | rfl, hid⟩
      · exact ⟨hr, hid⟩
      · exact absurd hid.symm hother
    · rintro ⟨hr, hid⟩
      exact ⟨Or.inl hr, hid⟩
  refine ⟨?_, ?_, ?_, h.nodup_suppliers, ?_⟩
  · intro r hr hid
    exact h.identity r ((hmem r).1 ⟨hr, hid⟩).1 hid
  · intro r hr hid
    exact h.paths r ((hmem r).1 ⟨hr, hid⟩).1 hid
  · intro key required hget
    obtain ⟨r, hr, hid, hrest⟩ := h.required key required hget
    exact ⟨r, List.mem_append_left _ hr, hid, hrest⟩
  · intro supplier
    rw [h.mem_suppliers]
    simp only [← and_assoc, hmem]

theorem mem_elim_insert {supplier : Option (ℤ × String)} {suppliers : List (ℤ × String)}
    {x : ℤ × String} :
    x ∈ supplier.elim suppliers suppliers.insert ↔ x ∈ suppliers ∨ supplier = some x := by
  cases supplier with
  | none => simp
  | some y =>
    rw [Option.elim_some, List.mem_insert_iff, Option.some.injEq, or_comm, eq_comm]

theorem IsComponent.entered {component : Component} {required : Decimal}
    (h : IsComponent production graph row.componentId component)
    (hidentity : (component.finishedProductId, component.finishedProductName,
      component.componentName) = (row.finishedId, row.finishedName, row.componentName))
    (hrequired : pathRequired production row.quantities = .ok required) :
    IsComponent production (graph ++ [row]) row.componentId (component.entered row required) := by
  refine ⟨?_, ?_, ?_, ?_, ?_⟩
  · intro r hr hid
    rcases List.mem_append.1 hr with hr | hr
    · exact h.identity r hr hid
    · rw [List.mem_singleton.1 hr]
      exact hidentity
  · intro r hr hid
    show _ ∈ (component.paths.setDefault (row.componentId, row.path) required).2.keys
    rw [Dict.mem_keys_setDefault]
    rcases List.mem_append.1 hr with hr | hr
    · exact Or.inr (h.paths r hr hid)
    · rw [List.mem_singleton.1 hr]
      exact Or.inl rfl
  · intro key required' hget
    have hget' : (component.paths.setDefault (row.componentId, row.path) required).2.get? key =
        some required' := hget
    rw [Dict.get?_setDefault] at hget'
    have hold : component.paths.get? key = some required' → ∃ r ∈ graph ++ [row],
        r.componentId = row.componentId ∧ key = (row.componentId, r.path) ∧
          pathRequired production r.quantities = .ok required' := by
      intro hprior
      obtain ⟨r, hr, hrest⟩ := h.required key required' hprior
      exact ⟨r, List.mem_append_left _ hr, hrest⟩
    split_ifs at hget' with hkey
    · subst hkey
      cases hprior : component.paths.get? (row.componentId, row.path) with
      | some prior =>
        rw [hprior] at hget'
        exact hold (hprior.trans hget')
      | none =>
        rw [hprior, Option.getD_none, Option.some.injEq] at hget'
        exact ⟨row, by simp, rfl, rfl, hrequired.trans (congrArg _ hget')⟩
    · exact hold hget'
  · show (row.supplier.elim component.suppliers component.suppliers.insert).Nodup
    cases row.supplier with
    | none => exact h.nodup_suppliers
    | some supplier => exact h.nodup_suppliers.insert
  · intro supplier
    show supplier ∈ row.supplier.elim component.suppliers component.suppliers.insert ↔ _
    rw [mem_elim_insert, h.mem_suppliers]
    constructor
    · rintro (⟨r, hr, hrest⟩ | hrow)
      · exact ⟨r, List.mem_append_left _ hr, hrest⟩
      · exact ⟨row, by simp, rfl, hrow⟩
    · rintro ⟨r, hr, hid, hsupplier⟩
      rcases List.mem_append.1 hr with hr | hr
      · exact Or.inl ⟨r, hr, hid, hsupplier⟩
      · rw [List.mem_singleton.1 hr] at hsupplier
        exact Or.inr hsupplier

theorem exists_mem_concat {p : GraphRow → Prop} :
    (∃ r ∈ graph ++ [row], p r) ↔ (∃ r ∈ graph, p r) ∨ p row := by
  simp only [List.mem_append, List.mem_singleton, or_and_right, exists_or, exists_eq_left]

/-- **One more row** that contradicts nothing. -/
theorem Collects.entered (h : Collects production graph s) {required : Decimal}
    (hfitting : Fitting s row) (hrequired : pathRequired production row.quantities = .ok required) :
    Collects production (graph ++ [row]) (s.entered row required) := by
  have hagree := h.fitting_iff.1 hfitting
  refine ⟨?_, ?_, ?_, ?_, h.nodup_finished.insert, ?_, ?_, ?_, ?_⟩
  · intro componentId component hget
    simp only [Collected.entered, Dict.get?_set, Dict.get?_setDefault] at hget
    split_ifs at hget with hid
    · rw [Option.some.injEq] at hget
      subst hid hget
      exact (h.isComponent_componentOf row).entered hfitting.identity hrequired
    · exact (h.components _ _ hget).of_other hid
  · intro componentId
    simp only [Collected.entered, Dict.mem_keys_set, Dict.mem_keys_setDefault]
    rw [h.mem_components, exists_mem_concat, eq_comm (a := componentId), ← or_assoc, or_self,
      or_comm]
  · intro componentId
    simp only [Collected.entered]
    rw [List.mem_insert_iff, h.mem_domain, exists_mem_concat, eq_comm (a := componentId), or_comm]
  · intro supplierId supplierName
    simp only [Collected.entered]
    rw [exists_mem_concat, ← h.supplierNames]
    cases hrow : row.supplier with
    | none => simp [enteredNames]
    | some supplier =>
      obtain ⟨rowId, rowName⟩ := supplier
      have hsame := hfitting.supplier rowId rowName hrow
      simp only [enteredNames]
      rw [Dict.get?_setDefault, hsame, Option.some.injEq, Prod.mk.injEq]
      split_ifs with hid
      · subst hid
        constructor
        · intro hname
          exact Or.inr ⟨rfl, Option.some.inj hname⟩
        · rintro (hget | ⟨-, hname⟩)
          · rw [hget, Option.getD_some] at hsame
            rw [hsame]
          · rw [hname]
      · constructor
        · exact Or.inl
        · rintro (hget | ⟨hid', -⟩)
          · exact hget
          · exact absurd hid'.symm hid
  · intro finished
    simp only [Collected.entered]
    rw [List.mem_insert_iff, h.mem_finished, exists_mem_concat, eq_comm (a := finished), or_comm]
  · intro key quantities hget
    simp only [Collected.entered, Dict.get?_setDefault] at hget
    rw [exists_mem_concat]
    split_ifs at hget with hkey
    · subst hkey
      cases hprior : s.pathQuantities.get? (row.componentId, row.path) with
      | some prior =>
        rw [hprior, Option.getD_some, Option.some.injEq] at hget
        subst hget
        exact Or.inl (h.quantities _ _ hprior)
      | none =>
        rw [hprior, Option.getD_none, Option.some.injEq] at hget
        exact Or.inr ⟨rfl, hget.symm⟩
    · exact Or.inl (h.quantities _ _ hget)
  · intro r hr
    simp only [Collected.entered, Dict.mem_keys_setDefault]
    rcases List.mem_append.1 hr with hr | hr
    · exact Or.inr (h.mem_quantities r hr)
    · rw [List.mem_singleton.1 hr]
      exact Or.inl rfl
  · intro r hr r' hr'
    rw [List.mem_append, List.mem_singleton] at hr hr'
    rcases hr with hr | rfl <;> rcases hr' with hr' | rfl
    · exact h.agree r hr r' hr'
    · exact hagree r hr
    · exact (hagree r' hr').symm
    · exact Agree.refl _

end

/-! ### All rows -/

/-- **What all rows collect**. -/
theorem collects_of_foldlM {production : Decimal} {before graph : List GraphRow}
    {s s' : Collected} (h : Collects production before s)
    (hrun : graph.foldlM (enterRow production) s = .ok s') :
    Collects production (before ++ graph) s' ∧
      ∀ r ∈ graph, ∃ required, pathRequired production r.quantities = .ok required := by
  induction graph generalizing before s with
  | nil =>
    cases hrun
    rw [List.append_nil]
    exact ⟨h, by simp⟩
  | cons row graph ih =>
    rw [List.foldlM_cons] at hrun
    obtain ⟨next, hnext, hrun⟩ := bind_eq_ok.1 hrun
    obtain ⟨hfitting, required, hrequired, rfl⟩ := enterRow_eq_ok.1 hnext
    obtain ⟨hcollects, hall⟩ := ih (h.entered hfitting hrequired) hrun
    rw [List.append_assoc, List.singleton_append] at hcollects
    exact ⟨hcollects, List.forall_mem_cons.2 ⟨⟨required, hrequired⟩, hall⟩⟩

/-- **All rows are taken** if no two contradict each other. -/
theorem exists_foldlM {production : Decimal} {before graph : List GraphRow} {s : Collected}
    (h : Collects production before s)
    (hagree : ∀ r ∈ before ++ graph, ∀ r' ∈ before ++ graph, Agree r r')
    (hrequired : ∀ r ∈ graph, ∃ required, pathRequired production r.quantities = .ok required) :
    ∃ s', graph.foldlM (enterRow production) s = .ok s' := by
  induction graph generalizing before s with
  | nil => exact ⟨s, rfl⟩
  | cons row graph ih =>
    obtain ⟨required, hrow⟩ := hrequired row List.mem_cons_self
    have hfitting : Fitting s row := h.fitting_iff.2 fun r hr =>
      hagree r (List.mem_append_left _ hr) row (by simp)
    have hnext := enterRow_eq_ok.2 ⟨hfitting, required, hrow, rfl⟩
    rw [← List.singleton_append, ← List.append_assoc] at hagree
    obtain ⟨s', hrun⟩ := ih (h.entered hfitting hrow) hagree
      fun r hr => hrequired r (List.mem_cons_of_mem _ hr)
    refine ⟨s', ?_⟩
    rw [List.foldlM_cons, hnext]
    exact hrun

end Composition
