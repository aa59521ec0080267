import Text2Cypher.Evaluation.PlanNames
import Mathlib.Logic.Equiv.Basic

/-!
# When the names of a plan cannot matter

A contract with one step matches a plan of one step whatever it is called, if it is for the right
tool.  A contract with two steps matches the step for its first tool twice when that step happens to
have the ID of the second one, so only plans without such a step are safe.

* `exists_renaming`: names can be moved onto each other and out of the way;
* **`planScoring_nameFree`**: which plans keep their score under every renaming, and which renamings
  keep it for the other plans.
-/

namespace PlanScoring

open Planning

/-! ### Renamings -/

/-- Exchange of two IDs. -/
def IdRenaming.swap {a b : String} (ha : isSafeIdentifier a = true)
    (hb : isSafeIdentifier b = true) : IdRenaming where
  name := Equiv.swap a b
  injective := (Equiv.swap a b).injective
  safe id hid := by
    rw [Equiv.swap_apply_def]
    split_ifs
    · exact hb
    · exact ha
    · exact hid

/-- One renaming after another. -/
def IdRenaming.comp (ρ ρ' : IdRenaming) : IdRenaming where
  name := ρ.name ∘ ρ'.name
  injective := ρ.injective.comp ρ'.injective
  safe id hid := ρ.safe _ (ρ'.safe id hid)

/-- There is always another safe identifier. -/
theorem exists_safe_fresh (names : List String) :
    ∃ name, isSafeIdentifier name = true ∧ name ∉ names := by
  have hbound : ∃ n, ∀ name ∈ names, name.toList.length ≤ n := by
    induction names with
    | nil => exact ⟨0, fun name hmem => absurd hmem List.not_mem_nil⟩
    | cons name names ih =>
      obtain ⟨n, hn⟩ := ih
      refine ⟨max name.toList.length n, fun other hmem => ?_⟩
      rcases List.mem_cons.1 hmem with rfl | hmem
      · exact le_max_left _ _
      · exact (hn other hmem).trans (le_max_right _ _)
  obtain ⟨n, hn⟩ := hbound
  refine ⟨String.ofList (List.replicate (n + 1) 'a'), ?_, fun hmem => ?_⟩
  · simp [isSafeIdentifier, List.replicate_succ]
  · have hlength := hn _ hmem
    rw [String.toList_ofList, List.length_replicate] at hlength
    omega

/-- A name can be moved onto another one, while no name of a list is moved onto a third one. -/
theorem exists_renaming {a b c : String} (ha : isSafeIdentifier a = true)
    (hb : isSafeIdentifier b = true) (hc : isSafeIdentifier c = true) (hne : b ≠ c)
    (names : List String) : ∃ ρ : IdRenaming, ρ.name a = b ∧ ∀ name ∈ names, ρ.name name ≠ c := by
  obtain ⟨fresh, hfresh, hnot⟩ := exists_safe_fresh (b :: names.map (Equiv.swap a b))
  rw [List.mem_cons, not_or] at hnot
  refine ⟨(IdRenaming.swap hc hfresh).comp (IdRenaming.swap ha hb), ?_, fun name hmem heq => ?_⟩
  · show Equiv.swap c fresh (Equiv.swap a b a) = b
    rw [Equiv.swap_apply_left, Equiv.swap_apply_of_ne_of_ne hne (Ne.symm hnot.1)]
  · have hmoved : Equiv.swap c fresh (Equiv.swap a b name) = c := heq
    have hfrom : Equiv.swap a b name = fresh :=
      (Equiv.swap c fresh).injective (hmoved.trans (Equiv.swap_apply_right c fresh).symm)
    exact hnot.2 (hfrom ▸ List.mem_map_of_mem hmem)

/-! ### Plans that no renaming harms -/

/-- The steps of the plan cannot be matched wrongly, whatever they are called. -/
def NamesIrrelevant (contract : EvaluationContract) (plan : List Subquery) : Prop :=
  match contract.subqueries with
  | [expected] => ∀ item, plan = [item] → item.tool = expected.tool
  | expected :: _ => ∀ item ∈ plan, item.tool ≠ expected.tool
  | [] => True

/-- A contract has one or two steps. -/
theorem subqueries_cases (contract : EvaluationContract) :
    (∃ expected, contract.subqueries = [expected]) ∨
      ∃ first second, contract.subqueries = [first, second] ∧ first.id ≠ second.id ∧
        first.tool ≠ second.tool := by
  have hlength := contract.valid.length
  have hne := contract.valid.nonempty
  have hids := contract.valid.ids
  have htools := contract.valid.tools
  match hsubqueries : contract.subqueries with
  | [] =>
    rw [hsubqueries] at hne
    exact absurd rfl hne
  | [expected] => exact Or.inl ⟨expected, rfl⟩
  | [first, second] =>
    rw [hsubqueries] at hids htools
    refine Or.inr ⟨first, second, rfl, ?_, ?_⟩
    · simpa [ExpectedSubquery.planningShape] using hids
    · simpa [ExpectedSubquery.planningShape] using htools
  | _ :: _ :: _ :: rest =>
    rw [hsubqueries] at hlength
    simp [maxSubqueries] at hlength

/-- A plan of one step has no bindings. -/
theorem inputBindings_of_single {item : Subquery} (h : ValidPlan [item]) :
    item.inputBindings = Dict.empty := by
  apply Dict.ext
  show item.inputBindings.entries = []
  rw [List.eq_nil_iff_forall_not_mem]
  intro entry hentry
  have hwired := h.wired item (List.mem_singleton_self item)
  obtain ⟨_, output, producer, -, hdepends, hmem, rfl, -⟩ :=
    hwired.bound entry.2 (List.mem_map_of_mem hentry)
  rw [List.mem_singleton.1 hmem] at hdepends
  exact hwired.other hdepends

theorem values_set_of_not_mem {d : Dict String String} {k : String} (h : k ∉ d.keys) (v : String) :
    (d.set k v).values = d.values ++ [v] := by
  rw [Dict.values, Dict.entries_set_of_not_mem h, List.map_append]
  rfl

/-- A contract with one step has at most one name to map. -/
theorem injective_of_single {contract : EvaluationContract} {expected : ExpectedSubquery}
    (hsubqueries : contract.subqueries = [expected]) (plan : List Subquery) :
    (idMapping contract plan).values.Nodup := by
  have hempty : expected.id ∉ (Dict.empty : Dict String String).keys := by simp
  rw [idMapping, hsubqueries, List.foldl_cons, List.foldl_nil, matchStep]
  split
  · simp [values_set_of_not_mem hempty]
  · split
    · simp [values_set_of_not_mem hempty]
    · simp

/-- A plan without a step for the first tool has at most one step to match. -/
theorem injective_of_second {contract : EvaluationContract} {first second : ExpectedSubquery}
    (hsubqueries : contract.subqueries = [first, second]) (hids : first.id ≠ second.id)
    {plan : List Subquery} (hlength : plan.length ≤ 1)
    (hsecond : ∀ item ∈ plan, item.tool ≠ first.tool) :
    (idMapping contract plan).values.Nodup := by
  have hempty : ∀ id, id ∉ (Dict.empty : Dict String String).keys := by simp
  match plan with
  | [] => simp [idMapping, hsubqueries, matchStep, byId?]
  | [item] =>
    have htool := hsecond item (List.mem_singleton_self item)
    by_cases hfirst : item.id = first.id
    · have hother : item.id ≠ second.id := hfirst ▸ hids
      simp [idMapping, hsubqueries, matchStep, byId?, hfirst, hids,
        values_set_of_not_mem (hempty _)]
    · by_cases hother : item.id = second.id
      · simp [idMapping, hsubqueries, matchStep, byId?, htool, hother, hids.symm,
          values_set_of_not_mem (hempty _)]
      · have hnone : matchStep [item] (.empty, []) first = (.empty, []) := by
          simp [matchStep, byId?, htool, hfirst]
        rw [idMapping, hsubqueries, List.foldl_cons, hnone]
        by_cases hmatch : item.tool = second.tool
        · simp [matchStep, byId?, hother, hmatch,
            values_set_of_not_mem (hempty _)]
        · simp [matchStep, byId?, hother, hmatch]
  | _ :: _ :: _ =>
    simp at hlength

/-! ### The claim on names -/

section

variable (t : TextData) {V : Type} [BEq V] (isBool : V → Bool) (str : V → Text)
  (contract : EvaluationContract) (case : EvaluationCase V) (toolPlan : Option (List ToolName))
  (resultTransform : Option (ResultTransform V))

/-- Every renaming keeps the score. -/
def NameFree (plan : List Subquery) : Prop :=
  ∀ ρ, SameScore t isBool str contract case toolPlan resultTransform plan ρ

variable {contract}

/-- A plan with one step for another tool passes the check of bindings iff its step has the ID of
the contract step. -/
theorem binding_of_single {expected : ExpectedSubquery}
    (hsubqueries : contract.subqueries = [expected]) {item : Subquery}
    (hvalid : ValidPlan [item]) (htool : item.tool ≠ expected.tool) (ρ : IdRenaming) :
    (score t isBool str contract case toolPlan resultTransform (renamePlan ρ [item])).binding =
      decide (ρ.name item.id = expected.id) := by
  have hbindings := inputBindings_of_single hvalid
  have hexpected : expected.inputBindings = Dict.empty := by
    have hcontract := contract.valid
    rw [hsubqueries] at hcontract
    show expected.planningShape.inputBindings = Dict.empty
    exact inputBindings_of_single hcontract
  have hmapped : ∀ f : String → String, (Dict.empty.mapValues f : Dict String String) = .empty :=
    fun f => Dict.ext rfl
  by_cases hid : ρ.name item.id = expected.id
  · simp [score, compareExecutionContract, compareExecutionPlanContract, hsubqueries, renamePlan,
      renameStep, idMapping, matchStep, byId?, hid, planStep, Dict.get?_set, bindingsCheck,
      hbindings, hexpected, hmapped, sameBindings]
  · have hnone : (Dict.empty : Dict String String).get? expected.id = none :=
      Dict.get?_eq_none_iff.2 List.not_mem_nil
    simp [score, compareExecutionContract, compareExecutionPlanContract, hsubqueries, renamePlan,
      renameStep, idMapping, matchStep, byId?, hid, htool, planStep, bindingsCheck, hnone]

/-- A step for the first tool that is called like the second step is matched twice. -/
theorem not_injective_of_first {first second : ExpectedSubquery}
    (hsubqueries : contract.subqueries = [first, second]) (hids : first.id ≠ second.id)
    {plan : List Subquery} (h : Distinct plan) {item : Subquery} (hitem : item ∈ plan)
    (htool : item.tool = first.tool) (hid : item.id = second.id)
    (hfirst : ∀ other ∈ plan, other.id ≠ first.id) :
    ¬ (idMapping contract plan).values.Nodup := by
  have hempty : first.id ∉ (Dict.empty : Dict String String).keys := by simp
  have hstep : toolStep? plan first.tool = some item := (toolStep?_eq_some h).2 ⟨hitem, htool⟩
  have hround : matchStep plan (.empty, []) first =
      (Dict.empty.set first.id second.id, [second.id]) := by
    rw [matchStep_eq h (fun other hother heq => absurd heq (hfirst other hother))
      fun _ _ _ => List.not_mem_nil, hstep, ← hid]
    rfl
  have hsecond : second.id ∉ (Dict.empty.set first.id second.id).keys := by
    rw [Dict.mem_keys_set]
    rintro (heq | hmem)
    · exact hids heq.symm
    · exact absurd hmem List.not_mem_nil
  have hround' : matchStep plan (Dict.empty.set first.id second.id, [second.id]) second =
      ((Dict.empty.set first.id second.id).set second.id second.id, [second.id, second.id]) := by
    rw [matchStep, (byId?_eq_some h).2 ⟨hitem, hid⟩]
    rfl
  rw [idMapping, hsubqueries, List.foldl_cons, List.foldl_cons, List.foldl_nil, hround, hround',
    values_set_of_not_mem hsecond, values_set_of_not_mem hempty]
  simp

/-- A plan with distinct tools that lacks one of the two tools has one step at most. -/
theorem length_le_one {plan : List Subquery} (h : Distinct plan) {tool : ToolName}
    (hmissing : ∀ item ∈ plan, item.tool ≠ tool) : plan.length ≤ 1 := by
  have hnodup := h.tools
  match plan with
  | [] => exact Nat.zero_le _
  | [_] => exact le_rfl
  | first :: second :: rest =>
    have hfirst := hmissing first List.mem_cons_self
    have hsecond := hmissing second (List.mem_cons_of_mem _ List.mem_cons_self)
    have hne : first.tool ≠ second.tool := by
      rw [List.map_cons, List.map_cons, List.nodup_cons, List.mem_cons, not_or] at hnodup
      exact hnodup.1.1
    cases hf : first.tool <;> cases hs : second.tool <;> cases ht : tool <;> simp_all

/-- **Which plans and which renamings keep the score.**  Every renaming does, exactly for the plans
whose names are irrelevant; for any plan, a renaming does if no names cross before or after it. -/
theorem planScoring_nameFree (plan : List Subquery) (hplan : Generated plan) :
    (NameFree t isBool str contract case toolPlan resultTransform plan ↔
      NamesIrrelevant contract plan) ∧
    ∀ ρ, Uncrossed contract plan → Uncrossed contract (renamePlan ρ plan) →
      SameScore t isBool str contract case toolPlan resultTransform plan ρ := by
  have hdistinct := hplan.distinct
  refine ⟨⟨fun hfree => ?_, fun hirrelevant ρ => ?_⟩,
    fun ρ => sameScore_of_uncrossed t isBool str contract case toolPlan resultTransform hplan ρ⟩
  · rcases subqueries_cases contract with ⟨expected, hsubqueries⟩ |
      ⟨first, second, hsubqueries, hids, htools⟩
    · rw [NamesIrrelevant, hsubqueries]
      rintro item rfl
      by_contra htool
      have hvalid : ValidPlan [item] := (hplan.resolve_left (by simp)).1
      have hsafe := hplan.named.safe item (List.mem_singleton_self item)
      have hexpected := (contract.itemsOk expected (hsubqueries ▸ List.mem_singleton_self _)).id
      obtain ⟨fresh, hfresh, hnot⟩ := exists_safe_fresh [expected.id]
      -- called like the contract step, and called otherwise
      have hlike := congrArg Score.binding (hfree (.swap hsafe hexpected)).score
      have hother := congrArg Score.binding (hfree (.swap hsafe hfresh)).score
      rw [← hother, binding_of_single t isBool str case toolPlan resultTransform hsubqueries hvalid
        htool, binding_of_single t isBool str case toolPlan resultTransform hsubqueries hvalid
        htool, decide_eq_decide] at hlike
      have heq : Equiv.swap item.id fresh item.id = expected.id :=
        hlike.1 (Equiv.swap_apply_left ..)
      rw [Equiv.swap_apply_left] at heq
      exact hnot (heq ▸ List.mem_singleton_self _)
    · rw [NamesIrrelevant, hsubqueries]
      intro item hitem htool
      have hsecond := (contract.itemsOk second (by simp [hsubqueries])).id
      have hfirst := (contract.itemsOk first (by simp [hsubqueries])).id
      obtain ⟨ρ, hρ, hclear⟩ := exists_renaming (hplan.named.safe item hitem) hsecond hfirst
        (Ne.symm hids) (plan.map Subquery.id)
      refine not_injective_of_first hsubqueries hids (hdistinct.rename ρ)
        (List.mem_map_of_mem hitem) htool hρ ?_ (hfree ρ).injective'
      intro other hother
      obtain ⟨before, hbefore, rfl⟩ := List.mem_map.1 hother
      exact hclear before.id (List.mem_map_of_mem hbefore)
  · have hlength : ∀ ρ : IdRenaming, (renamePlan ρ plan).length = plan.length :=
      fun ρ => List.length_map _
    rcases subqueries_cases contract with ⟨expected, hsubqueries⟩ |
      ⟨first, second, hsubqueries, hids, htools⟩
    · rw [NamesIrrelevant, hsubqueries] at hirrelevant
      by_cases hsingle : plan.length = 1
      · obtain ⟨item, rfl⟩ := List.length_eq_one_iff.1 hsingle
        have htool := hirrelevant item rfl
        refine sameScore_of_uncrossed t isBool str contract case toolPlan resultTransform hplan ρ
          ?_ ?_
        · simp [Uncrossed, hsubqueries, htool]
        · simp [Uncrossed, hsubqueries, renamePlan, renameStep, htool]
      · refine ⟨score_of_length t isBool str contract case toolPlan resultTransform ?_ ρ,
          injective_of_single hsubqueries _, injective_of_single hsubqueries _⟩
        rwa [hsubqueries]
    · rw [NamesIrrelevant, hsubqueries] at hirrelevant
      have hle := length_le_one hdistinct hirrelevant
      refine ⟨score_of_length t isBool str contract case toolPlan resultTransform ?_ ρ,
        injective_of_second hsubqueries hids hle hirrelevant,
        injective_of_second hsubqueries hids (hlength ρ ▸ hle) ?_⟩
      · rw [hsubqueries]
        simp only [List.length_cons, List.length_nil]
        omega
      · intro item hitem
        obtain ⟨before, hbefore, rfl⟩ := List.mem_map.1 hitem
        exact hirrelevant before hbefore

end

/-! ### Two steps that do not depend on each other -/

/-- A plan without dependencies. -/
theorem validPlan_of_independent {plan : List Subquery} (hne : plan ≠ [])
    (hlength : plan.length ≤ maxSubqueries) (h : Distinct plan)
    (hnone : ∀ item ∈ plan, item.dependsOn = [] ∧ item.inputBindings.entries = [])
    (hkeys : checkJoinKeys (plan.map Subquery.joinKeys) = .ok ()) : ValidPlan plan where
  nonempty := hne
  length := hlength
  ids := h.ids
  tools := h.tools
  wired item hitem := by
    obtain ⟨hdepends, hbindings⟩ := hnone item hitem
    constructor
    · simp [hdepends]
    · simp [hdepends]
    · simp [Dict.values, hbindings]
    · simp [hdepends]
  ordered := Waves.ordered_of_forall fun item hitem d hd => by simp [(hnone item hitem).1] at hd
  joinKeys := hkeys

/-- A step of a contract about scrapped products, or about the operations of work orders. -/
def scrapStep (tool : ToolName) : ExpectedSubquery where
  id := if tool = .sql then "sql_scrap_facts" else "graph_operations"
  tool := tool
  question := if tool = .sql then "scrapped quantities" else "operations of work orders"
  dependsOn := []
  requiredOutputs := ["workOrderId"]
  joinKeys := ["workOrderId"]
  inputBindings := .empty

/-- The steps as the plan of a model that uses the names of the contract. -/
def scrapPlan : List Subquery := [(scrapStep .sql).planningShape, (scrapStep .graph).planningShape]

theorem validPlan_scrapPlan : ValidPlan scrapPlan :=
  validPlan_of_independent (by decide) (by decide) ⟨by decide, by decide⟩ (by decide) (by rfl)

instance (l : List String) : Decidable (StringsOk l) :=
  inferInstanceAs (Decidable ((∀ s ∈ l, isBlank s = false) ∧ l.Nodup))

theorem itemOk_scrapStep (tool : ToolName) : ItemOk (scrapStep tool).planningShape := by
  constructor
  case bindings => exact fun entry hentry => absurd hentry List.not_mem_nil
  all_goals cases tool <;> decide +kernel

def scrapContract : EvaluationContract where
  route := .hybrid
  toolPlan := [.sql, .graph]
  subqueries := [scrapStep .sql, scrapStep .graph]
  finalTransform := none
  valid := validPlan_scrapPlan
  itemsOk := by
    simp only [List.forall_mem_cons]
    exact ⟨itemOk_scrapStep .sql, itemOk_scrapStep .graph,
      fun expected hexpected => absurd hexpected List.not_mem_nil⟩
  tools tool := by cases tool <;> decide
  single := fun h => absurd rfl h
  both := fun _ tool => by cases tool <;> decide

/-- A case without parameters. -/
def scrapCase : EvaluationCase ℕ := ⟨"scrapped work orders", .empty⟩

/-- Case folding and digits of ASCII text. -/
def asciiText : TextData := ⟨fun c => [c.toLower], Char.isDigit⟩

/-- The names of the two steps exchanged. -/
def exchangeNames : IdRenaming := .swap (itemOk_scrapStep .sql).id (itemOk_scrapStep .graph).id

/-- The second name is replaced by one that the contract does not use. -/
def ownName : IdRenaming :=
  .swap (b := "operations") (itemOk_scrapStep .graph).id (by decide)

theorem generated_scrapPlan : Generated scrapPlan := by
  refine Or.inr ⟨validPlan_scrapPlan, ?_⟩
  simp only [scrapPlan, List.forall_mem_cons]
  exact ⟨itemOk_scrapStep .sql, itemOk_scrapStep .graph,
    fun item hitem => absurd hitem List.not_mem_nil⟩

/-- A name of the plan's own keeps the score. -/
theorem planScoring_nameFree_ownName :
    ((renamePlan ownName scrapPlan).map Subquery.id = ["sql_scrap_facts", "operations"]) ∧
      SameScore asciiText (fun _ => false) (fun n : ℕ => (toString n).toList) scrapContract
        scrapCase (some [.sql, .graph]) none scrapPlan ownName := by
  refine ⟨by decide +kernel, (planScoring_nameFree asciiText (fun _ => false)
    (fun n : ℕ => (toString n).toList) scrapCase (some [.sql, .graph]) none scrapPlan
    generated_scrapPlan).2 ownName ?_ ?_⟩
  · unfold Uncrossed
    decide +kernel
  · unfold Uncrossed
    decide +kernel

/-- The plan that uses the names of the contract passes, and fails when it exchanges them. -/
theorem not_nameFree_exchanged :
    ¬ NameFree asciiText (fun _ => false) (fun n : ℕ => (toString n).toList) scrapContract
        scrapCase (some [.sql, .graph]) none scrapPlan := by
  intro h
  have hsplit := congrArg Score.split (h exchangeNames).score
  revert hsplit
  decide +kernel

end PlanScoring
