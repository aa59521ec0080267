import Text2Cypher.Planning.Catalog

/-!
# The two validators

`validate_route_subqueries` accepts the routes that the model may draft, and compiles their
bindings; `validate_subqueries` accepts the execution plans that output planning has completed.
Both return the subqueries in the order of execution.

* `validPlan_of_validateSubqueries`: what an accepted execution plan satisfies;
* `validateSubqueries_toJson`: when a plan that is already in order is accepted as it is.
-/

namespace Planning

open Checks

section

variable (repr : Json → String)

/-- The ID, tool and question of an entry. -/
def headOf (index : ℕ) (fields : List (String × Json)) :
    Except PlanError (String × ToolName × String) :=
  match Json.get? fields "id" with
  | some (.str subqueryId) => do
      require (isSafeIdentifier subqueryId = true)
        (.valueError ("subqueries[" ++ toString index ++ "].id is not a safe identifier"))
      let rawTool := (Json.get? fields "tool").getD .null
      match rawTool, tool? rawTool with
      | .array _, _ => .error (.typeError "unhashable type: 'list'")
      | .object _, _ => .error (.typeError "unhashable type: 'dict'")
      | _, none => .error (about repr subqueryId ("has unsupported tool " ++ repr rawTool))
      | _, some tool =>
          match Json.get? fields "question" with
          | some (.str question) => do
              require (isBlank question = false) (about repr subqueryId "question is empty")
              return (subqueryId, tool, question)
          | _ => .error (about repr subqueryId "question is empty")
  | _ => .error (.valueError ("subqueries[" ++ toString index ++ "].id is not a safe identifier"))

/-- One entry of a drafted route. -/
def validateRouteItem (sharedJoinAliases : List String) (index : ℕ) (raw : Json) :
    Except PlanError RouteSubquery :=
  match raw with
  | .object fields => do
      let expectedFields := ["id", "tool", "question", "dependsOn", "joinKeys", "inputBindings"]
      require ((∀ field ∈ fields, field.1 ∈ expectedFields) ∧
          ∀ name ∈ expectedFields, name ∈ fields.map Prod.fst)
        (.valueError ("subqueries[" ++ toString index ++
          "] must contain only the route boundary fields"))
      let (subqueryId, tool, question) ← headOf repr index fields
      let dependsOn ← stringList repr ((Json.get? fields "dependsOn").getD .null) "dependsOn" subqueryId
      let joinKeys ← stringList repr ((Json.get? fields "joinKeys").getD .null) "joinKeys" subqueryId
      let unknownJoinKeys := joinKeys.filter (· ∉ sharedJoinAliases)
      require (unknownJoinKeys = []) (about repr subqueryId
        ("joinKeys are not shared identities: " ++ joinSorted unknownJoinKeys))
      let bindings ←
        compileBindingArray repr ((Json.get? fields "inputBindings").getD .null) subqueryId
      return ⟨subqueryId, tool, question, dependsOn, joinKeys, bindings⟩
  | _ => .error (.valueError ("subqueries[" ++ toString index ++ "] must be an object"))

/-- The producer of a binding source must be a dependency that owns the output. -/
def checkRouteBinding (catalog : Option QuerySemanticCatalog) (items : List RouteSubquery)
    (item : RouteSubquery) (source : String) : Except PlanError Unit :=
  match splitDot source with
  | none => .error (.valueError "not enough values to unpack (expected 2, got 1)")
  | some (dependencyId, sourceOutput) => do
      require (dependencyId ∈ item.dependsOn)
        (about repr item.id ("binding " ++ repr (.str source) ++ " is not in dependsOn"))
      match items.find? (·.id = dependencyId) with
      | none => .error (.keyError dependencyId)
      | some producer =>
          match catalog with
          | none => .ok ()
          | some catalog =>
              require (sourceOutput ∈ catalog.allowedAliases producer.tool)
                (.valueError ("binding source " ++ repr (.str sourceOutput) ++
                  " is not owned by " ++ toolText producer.tool ++ " producer " ++
                  repr (.str dependencyId)))

/-- The IDs that the binding sources of an item name. -/
def bindingDependencies (bindings : Dict String String) : List String :=
  bindings.values.filterMap fun source => (splitDot source).map Prod.fst

def checkRouteItem (catalog : Option QuerySemanticCatalog) (items : List RouteSubquery)
    (item : RouteSubquery) : Except PlanError Unit := do
  require (item.id ∉ item.dependsOn ∧ ∀ d ∈ item.dependsOn, d ∈ items.map RouteSubquery.id)
    (about repr item.id "references an unknown dependency")
  forEach (checkRouteBinding repr catalog items item) item.inputBindings.values
  require (∀ d ∈ item.dependsOn, d ∈ bindingDependencies item.inputBindings)
    (about repr item.id "dependencies must be referenced by bindings")

/-- The length of a plan, before anything else of it is read. -/
def itemsOf (subqueries : Json) : Except PlanError (List Json) :=
  match subqueries with
  | .array items => do
      require (items ≠ []) (.valueError "subqueries must be a non-empty array")
      require (items.length ≤ maxSubqueries)
        (.valueError ("at most " ++ toString maxSubqueries ++ " subqueries are supported"))
      return items
  | _ => .error (.valueError "subqueries must be a non-empty array")

/-- `validate_route_subqueries`. -/
def validateRouteSubqueries (sharedJoinAliases : List String)
    (catalog : Option QuerySemanticCatalog) (subqueries : Json) :
    Except PlanError (List RouteSubquery) := do
  let items ← itemsOf subqueries
  let validated ← numbered (validateRouteItem repr sharedJoinAliases) 0 items
  checkUnique (validated.map RouteSubquery.id) (validated.map RouteSubquery.tool)
  forEach (checkRouteItem repr catalog validated) validated
  let ordered ← topologicalOrder RouteSubquery.id RouteSubquery.dependsOn validated
  checkJoinKeys (ordered.map RouteSubquery.joinKeys)
  return ordered

/-- The bindings of a compiled entry: every source names one producer and one output. -/
def readBindings (subqueryId : String) :
    Dict String String → List (String × Json) → Except PlanError (Dict String String)
  | bindings, [] => .ok bindings
  | bindings, (target, source) :: rest =>
      match source with
      | .str source => do
          require (isSafeIdentifier target = true ∧ countDots source = 1)
            (about repr subqueryId "has an invalid binding")
          readBindings subqueryId (bindings.set target source) rest
      | _ => .error (about repr subqueryId "has an invalid binding")

/-- `not value`. -/
def isFalsy : Json → Bool
  | .null | .bool false => true
  | .number text => text = "0" || text = "0.0" || text = "-0.0"
  | .str s => s = ""
  | .array items => items.isEmpty
  | .object fields => fields.isEmpty
  | _ => false

/-- Generator rules are read only where there are any. -/
def readRules (rawRules : Json) (subqueryId : String) : Except PlanError (List String) :=
  if isFalsy rawRules then .ok [] else stringList repr rawRules "generatorRules" subqueryId

/-- One entry of an execution plan. -/
def validateItem (allowEmptyRequiredOutputs : Bool) (index : ℕ) (raw : Json) :
    Except PlanError Subquery :=
  match raw with
  | .object fields => do
      let unknownFields := (fields.map Prod.fst).filter (· ∉ ["id", "tool", "question",
        "dependsOn", "requiredOutputs", "joinKeys", "inputBindings", "generatorRules"])
      require (unknownFields = []) (.valueError ("subqueries[" ++ toString index ++
        "] contains unknown execution fields: " ++ joinSorted unknownFields))
      let (subqueryId, tool, question) ← headOf repr index fields
      let dependsOn ←
        stringList repr ((Json.get? fields "dependsOn").getD (.array [])) "dependsOn" subqueryId
      let outputs ← stringList repr ((Json.get? fields "requiredOutputs").getD (.array []))
        "requiredOutputs" subqueryId
      require (outputs ≠ [] ∨ allowEmptyRequiredOutputs = true)
        (about repr subqueryId "requiredOutputs is empty")
      let joinKeys ←
        stringList repr ((Json.get? fields "joinKeys").getD (.array [])) "joinKeys" subqueryId
      require (∀ key ∈ joinKeys, key ∈ outputs)
        (about repr subqueryId "joinKeys must be required outputs")
      match (Json.get? fields "inputBindings").getD (.object []) with
      | .object rawBindings => do
          let bindings ← readBindings repr subqueryId .empty rawBindings
          let generatorRules ←
            readRules repr ((Json.get? fields "generatorRules").getD (.array [])) subqueryId
          return ⟨subqueryId, tool, question, dependsOn, outputs, joinKeys, bindings,
            generatorRules⟩
      | _ => .error (about repr subqueryId "inputBindings must be an object")
  | _ => .error (.valueError ("subqueries[" ++ toString index ++ "] must be an object"))

def checkBinding (items : List Subquery) (item : Subquery) (source : String) :
    Except PlanError Unit :=
  match splitDot source with
  | none => .error (.valueError "not enough values to unpack (expected 2, got 1)")
  | some (dependencyId, outputField) => do
      require (dependencyId ∈ item.dependsOn)
        (about repr item.id ("binding " ++ repr (.str source) ++ " is not in dependsOn"))
      match items.find? (·.id = dependencyId) with
      | none => .error (.keyError dependencyId)
      | some producer =>
          require (outputField ∈ producer.requiredOutputs)
            (.valueError ("binding " ++ repr (.str source) ++ " is not a producer required output"))

def checkItem (items : List Subquery) (item : Subquery) : Except PlanError Unit := do
  require (∀ d ∈ item.dependsOn, d ≠ item.id ∧ d ∈ items.map Subquery.id)
    (about repr item.id "references an unknown dependency")
  forEach (checkBinding repr items item) item.inputBindings.values
  require (∀ d ∈ item.dependsOn, d ∈ bindingDependencies item.inputBindings)
    (about repr item.id "dependencies must be referenced by bindings")

/-- `validate_subqueries`. -/
def validateSubqueries (allowEmptyRequiredOutputs : Bool) (subqueries : Json) :
    Except PlanError (List Subquery) := do
  let items ← itemsOf subqueries
  let validated ← numbered (validateItem repr allowEmptyRequiredOutputs) 0 items
  checkUnique (validated.map Subquery.id) (validated.map Subquery.tool)
  forEach (checkItem repr validated) validated
  let ordered ← topologicalOrder Subquery.id Subquery.dependsOn validated
  checkJoinKeys (ordered.map Subquery.joinKeys)
  return ordered

end

/-! ### Lists of strings -/

/-- What `_string_list` asks of its strings. -/
def StringsOk (l : List String) : Prop := (∀ s ∈ l, isBlank s = false) ∧ l.Nodup

theorem nonBlank?_eq_some {value : Json} {s : String} :
    nonBlank? value = some s ↔ value = .str s ∧ isBlank s = false := by
  unfold nonBlank?
  split
  · rename_i t
    split_ifs with h
    · simp only [Json.str.injEq, false_iff, not_and]
      rintro rfl
      simp [h]
    · simp only [Option.some.injEq, Json.str.injEq]
      exact ⟨fun heq => ⟨heq, heq ▸ by simpa using h⟩, And.left⟩
  · rename_i hvalue
    simp only [reduceCtorEq, false_iff, not_and]
    exact fun heq => absurd heq (hvalue s)

theorem mapM_nonBlank? {items : List Json} {l : List String} :
    items.mapM nonBlank? = some l ↔ items = l.map .str ∧ ∀ s ∈ l, isBlank s = false := by
  induction items generalizing l with
  | nil => cases l <;> simp
  | cons value items ih =>
    rw [List.mapM_cons]
    simp only [Option.bind_eq_bind, Option.pure_def, Option.bind_eq_some_iff, ih,
      nonBlank?_eq_some, Option.some.injEq]
    constructor
    · rintro ⟨s, ⟨rfl, hs⟩, l, ⟨rfl, hl⟩, rfl⟩
      exact ⟨rfl, List.forall_mem_cons.2 ⟨hs, hl⟩⟩
    · rintro ⟨heq, hl⟩
      cases l with
      | nil => simp at heq
      | cons s l =>
        obtain ⟨rfl, rfl⟩ := List.cons.inj heq
        exact ⟨s, ⟨rfl, hl s List.mem_cons_self⟩, l,
          ⟨rfl, fun t ht => hl t (List.mem_cons_of_mem _ ht)⟩, rfl⟩

variable {repr : Json → String}

theorem stringList_eq_ok {value : Json} {field subqueryId : String} {l : List String} :
    stringList repr value field subqueryId = .ok l ↔
      value = .array (l.map .str) ∧ StringsOk l := by
  unfold stringList
  split
  · rename_i items
    split
    · rename_i strings hstrings
      obtain ⟨rfl, hblank⟩ := mapM_nonBlank?.1 hstrings
      simp only [bind_eq_ok, require_eq_ok, pure_eq_ok, Json.array.injEq]
      constructor
      · rintro ⟨_, hnodup, rfl⟩
        exact ⟨rfl, hblank, hnodup⟩
      · rintro ⟨heq, hok⟩
        have hinj : Function.Injective Json.str := fun a b h => by injection h
        obtain rfl := hinj.list_map heq
        exact ⟨(), hok.2, rfl⟩
    · rename_i hnone
      simp only [reduceCtorEq, Json.array.injEq, false_iff, not_and]
      rintro rfl hok
      rw [mapM_nonBlank?.2 ⟨rfl, hok.1⟩] at hnone
      cases hnone
  · rename_i hvalue
    simp only [reduceCtorEq, false_iff, not_and]
    rintro rfl
    exact absurd rfl (hvalue _)

/-! ### Entries of execution plans -/

/-- The entry of a plan, as `_with_required_outputs` writes it: without empty bindings or rules. -/
def Subquery.fields (item : Subquery) : List (String × Json) :=
  [("id", .str item.id), ("tool", .str (toolText item.tool)), ("question", .str item.question),
    ("dependsOn", .array (item.dependsOn.map .str)),
    ("requiredOutputs", .array (item.requiredOutputs.map .str)),
    ("joinKeys", .array (item.joinKeys.map .str))] ++
  (if item.inputBindings.entries = [] then []
    else [("inputBindings",
      .object (item.inputBindings.entries.map fun entry => (entry.1, .str entry.2)))]) ++
  (if item.generatorRules = [] then []
    else [("generatorRules", .array (item.generatorRules.map .str))])

def Subquery.toJson (item : Subquery) : Json := .object item.fields

/-- What `validate_subqueries` asks of an entry by itself. -/
structure ItemOk (item : Subquery) : Prop where
  id : isSafeIdentifier item.id = true
  question : isBlank item.question = false
  dependsOn : StringsOk item.dependsOn
  requiredOutputs : StringsOk item.requiredOutputs
  nonempty : item.requiredOutputs ≠ []
  joinKeys : StringsOk item.joinKeys
  joinKeys_subset : ∀ key ∈ item.joinKeys, key ∈ item.requiredOutputs
  bindings : ∀ entry ∈ item.inputBindings.entries,
    isSafeIdentifier entry.1 = true ∧ countDots entry.2 = 1
  generatorRules : StringsOk item.generatorRules

/-- Reading back bindings with distinct targets. -/
theorem readBindings_eq_ok {subqueryId : String} {entries : List (String × String)}
    {bindings result : Dict String String}
    (hnodup : ((bindings.entries ++ entries).map Prod.fst).Nodup) :
    readBindings repr subqueryId bindings (entries.map fun entry => (entry.1, .str entry.2)) =
        .ok result ↔
      (∀ entry ∈ entries, isSafeIdentifier entry.1 = true ∧ countDots entry.2 = 1) ∧
        result.entries = bindings.entries ++ entries := by
  induction entries generalizing bindings with
  | nil =>
    simp only [List.map_nil, readBindings, Except.ok.injEq, List.not_mem_nil, false_implies,
      implies_true, true_and, List.append_nil]
    exact ⟨fun h => by rw [h], fun h => (Dict.ext h).symm⟩
  | cons entry entries ih =>
    have hnew : entry.1 ∉ bindings.keys := by
      rw [List.map_append, List.nodup_append] at hnodup
      exact fun hmem => hnodup.2.2 _ hmem _ List.mem_cons_self rfl
    have hentries := Dict.entries_set_of_not_mem hnew entry.2
    have hnodup' : (((bindings.set entry.1 entry.2).entries ++ entries).map Prod.fst).Nodup := by
      rw [hentries, List.append_assoc]
      exact hnodup
    simp only [List.map_cons, readBindings, bind_eq_ok, require_eq_ok, ih hnodup', hentries,
      List.forall_mem_cons, List.append_assoc, List.singleton_append]
    constructor
    · rintro ⟨_, hentry, hrest, hresult⟩
      exact ⟨⟨hentry, hrest⟩, hresult⟩
    · rintro ⟨⟨hentry, hrest⟩, hresult⟩
      exact ⟨(), hentry, hrest, hresult⟩

theorem tool?_toolText (tool : ToolName) : tool? (.str (toolText tool)) = some tool := by
  cases tool <;> rfl

theorem headOf_fields {index : ℕ} {item : Subquery} {head : String × ToolName × String} :
    headOf repr index item.fields = .ok head ↔
      (isSafeIdentifier item.id = true ∧ isBlank item.question = false) ∧
        (item.id, item.tool, item.question) = head := by
  have hid : Json.get? item.fields "id" = some (.str item.id) := rfl
  have htool : Json.get? item.fields "tool" = some (.str (toolText item.tool)) := rfl
  have hquestion : Json.get? item.fields "question" = some (.str item.question) := rfl
  simp only [headOf, hid, htool, hquestion, Option.getD_some, tool?_toolText, bind_eq_ok,
    require_eq_ok, pure_eq_ok, exists_const, and_assoc]

theorem get?_inputBindings (item : Subquery) :
    (Json.get? item.fields "inputBindings").getD (.object []) =
      .object (item.inputBindings.entries.map fun entry => (entry.1, .str entry.2)) := by
  unfold Subquery.fields
  split_ifs with h1 h2 h2
  · rw [h1]; rfl
  · rw [h1]; rfl
  · rfl
  · rfl

theorem get?_generatorRules (item : Subquery) :
    (Json.get? item.fields "generatorRules").getD (.array []) =
      .array (item.generatorRules.map .str) := by
  unfold Subquery.fields
  split_ifs with h1 h2 h2
  · rw [h2]; rfl
  · rfl
  · rw [h2]; rfl
  · rfl

theorem filter_fields (item : Subquery) :
    (item.fields.map Prod.fst).filter (· ∉ ["id", "tool", "question", "dependsOn",
      "requiredOutputs", "joinKeys", "inputBindings", "generatorRules"]) = [] := by
  unfold Subquery.fields
  split_ifs <;> rfl

theorem map_str_inj {a b : List String} : a.map Json.str = b.map .str ↔ a = b :=
  (List.map_injective_iff.2 fun x y h => by injection h).eq_iff

theorem readRules_eq_ok {rules result : List String} {subqueryId : String} :
    readRules repr (.array (rules.map .str)) subqueryId = .ok result ↔
      rules = result ∧ StringsOk result := by
  unfold readRules
  cases rules with
  | nil =>
    simp only [List.map_nil, isFalsy, List.isEmpty_nil, if_true, Except.ok.injEq]
    exact ⟨fun h => ⟨h, h ▸ ⟨by simp, List.nodup_nil⟩⟩, And.left⟩
  | cons rule rest =>
    rw [if_neg (by simp [isFalsy]), stringList_eq_ok, Json.array.injEq, map_str_inj]

/-- An entry of a plan is accepted as it is, or not at all. -/
theorem validateItem_toJson {index : ℕ} {item result : Subquery} :
    validateItem repr false index item.toJson = .ok result ↔ ItemOk item ∧ item = result := by
  have hdependsOn : Json.get? item.fields "dependsOn" =
      some (.array (item.dependsOn.map .str)) := rfl
  have houtputs : Json.get? item.fields "requiredOutputs" =
      some (.array (item.requiredOutputs.map .str)) := rfl
  have hjoinKeys : Json.get? item.fields "joinKeys" =
      some (.array (item.joinKeys.map .str)) := rfl
  have hnodup : (((Dict.empty : Dict String String).entries ++ item.inputBindings.entries).map
      Prod.fst).Nodup := item.inputBindings.nodup
  simp only [Subquery.toJson, validateItem, filter_fields, hdependsOn, houtputs, hjoinKeys,
    Option.getD_some, get?_inputBindings, get?_generatorRules, bind_eq_ok, require_eq_ok,
    headOf_fields, stringList_eq_ok, Json.array.injEq, map_str_inj, readRules_eq_ok,
    pure_eq_ok]
  constructor
  · rintro ⟨-, -, _, ⟨⟨hid, hquestion⟩, rfl⟩, _, ⟨rfl, hdeps⟩, _, ⟨rfl, houts⟩, -, hne, _,
      ⟨rfl, hkeys⟩, -, hsubset, bindings, hread, _, ⟨rfl, hrules⟩, rfl⟩
    obtain ⟨hbindings, hentries⟩ := (readBindings_eq_ok hnodup).1 hread
    obtain rfl : bindings = item.inputBindings := Dict.ext hentries
    exact ⟨⟨hid, hquestion, hdeps, houts, by simpa using hne, hkeys, hsubset, hbindings, hrules⟩,
      rfl⟩
  · rintro ⟨h, rfl⟩
    exact ⟨(), trivial, _, ⟨⟨h.id, h.question⟩, rfl⟩, _, ⟨rfl, h.dependsOn⟩, _,
      ⟨rfl, h.requiredOutputs⟩, (), Or.inl h.nonempty, _, ⟨rfl, h.joinKeys⟩, (),
      h.joinKeys_subset, _, (readBindings_eq_ok hnodup).2 ⟨h.bindings, rfl⟩, _,
      ⟨rfl, h.generatorRules⟩, rfl⟩

/-! ### Accepted plans -/

/-- What the bindings and dependencies of an item have to do with the other items; `owns` says what
a producer may be read for. -/
structure Wired {α : Type} (id : α → String) (items : List α) (owns : α → String → Prop)
    (itemId : String) (dependsOn : List String) (bindings : Dict String String) : Prop where
  other : itemId ∉ dependsOn
  known : ∀ d ∈ dependsOn, d ∈ items.map id
  bound : ∀ source ∈ bindings.values, ∃ dependencyId output producer,
    splitDot source = some (dependencyId, output) ∧ dependencyId ∈ dependsOn ∧
      producer ∈ items ∧ id producer = dependencyId ∧ owns producer output
  covered : ∀ d ∈ dependsOn, d ∈ bindingDependencies bindings

theorem find?_id {α : Type} {id : α → String} {items : List α} (hnodup : (items.map id).Nodup)
    {a : α} (ha : a ∈ items) : items.find? (id · = id a) = some a := by
  cases hfind : items.find? (id · = id a) with
  | none => simpa using List.find?_eq_none.1 hfind a ha
  | some b =>
    have hb : id b = id a := by simpa using List.find?_some hfind
    rw [List.inj_on_of_nodup_map hnodup (List.mem_of_find?_eq_some hfind) ha hb]

/-- Checking a binding finds its producer. -/
theorem checkBinding_eq_ok {items : List Subquery} (hnodup : (items.map Subquery.id).Nodup)
    {item : Subquery} {source : String} :
    checkBinding repr items item source = .ok () ↔
      ∃ dependencyId output producer, splitDot source = some (dependencyId, output) ∧
        dependencyId ∈ item.dependsOn ∧ producer ∈ items ∧ producer.id = dependencyId ∧
        output ∈ producer.requiredOutputs := by
  unfold checkBinding
  cases hsplit : splitDot source with
  | none => simp
  | some parts =>
    obtain ⟨dependencyId, output⟩ := parts
    simp only [bind_eq_ok, require_eq_ok, Option.some.injEq, Prod.mk.injEq]
    constructor
    · rintro ⟨_, hdep, hproducer⟩
      split at hproducer
      · cases hproducer
      · rename_i producer hfind
        have hid : producer.id = dependencyId := by simpa using List.find?_some hfind
        exact ⟨dependencyId, output, producer, ⟨rfl, rfl⟩, hdep, List.mem_of_find?_eq_some hfind,
          hid, by simpa using hproducer⟩
    · rintro ⟨_, _, producer, ⟨rfl, rfl⟩, hdep, hmem, rfl, howns⟩
      refine ⟨(), hdep, ?_⟩
      rw [find?_id hnodup hmem]
      simpa using howns

theorem checkItem_eq_ok {items : List Subquery} (hnodup : (items.map Subquery.id).Nodup)
    {item : Subquery} {u : Unit} :
    checkItem repr items item = .ok u ↔
      Wired Subquery.id items (fun producer output => output ∈ producer.requiredOutputs) item.id
        item.dependsOn item.inputBindings := by
  simp only [checkItem, bind_eq_ok, require_eq_ok, forEach_eq_ok, checkBinding_eq_ok hnodup]
  constructor
  · rintro ⟨_, hdeps, _, hbound, hcovered⟩
    exact ⟨fun h => (hdeps _ h).1 rfl, fun d hd => (hdeps d hd).2, hbound, hcovered⟩
  · rintro ⟨hother, hknown, hbound, hcovered⟩
    exact ⟨(), fun d hd => ⟨fun h => hother (h ▸ hd), hknown d hd⟩, (), hbound, hcovered⟩

/-- An execution plan in order. -/
structure ValidPlan (plan : List Subquery) : Prop where
  nonempty : plan ≠ []
  length : plan.length ≤ maxSubqueries
  ids : (plan.map Subquery.id).Nodup
  tools : (plan.map Subquery.tool).Nodup
  wired : ∀ item ∈ plan, Wired Subquery.id plan
    (fun producer output => output ∈ producer.requiredOutputs) item.id item.dependsOn
    item.inputBindings
  ordered : Waves.Ordered Subquery.id Subquery.dependsOn [] plan
  joinKeys : checkJoinKeys (plan.map Subquery.joinKeys) = .ok ()

theorem topologicalOrder_eq_ok {α : Type} {id : α → String} {dependsOn : α → List String}
    {items ordered : List α} :
    topologicalOrder id dependsOn items = .ok ordered ↔
      (items.map id).Nodup ∧ Waves.order id dependsOn cyclicDependency items = .ok ordered := by
  simp only [topologicalOrder, bind_eq_ok, require_eq_ok, exists_const]

theorem Wired.perm {α : Type} {id : α → String} {items items' : List α} (h : items.Perm items')
    {owns : α → String → Prop} {itemId : String} {dependsOn : List String}
    {bindings : Dict String String} (hw : Wired id items owns itemId dependsOn bindings) :
    Wired id items' owns itemId dependsOn bindings where
  other := hw.other
  known d hd := (h.map id).mem_iff.1 (hw.known d hd)
  bound source hsource := by
    obtain ⟨dependencyId, output, producer, hsplit, hdep, hmem, hid, howns⟩ :=
      hw.bound source hsource
    exact ⟨dependencyId, output, producer, hsplit, hdep, h.mem_iff.1 hmem, hid, howns⟩
  covered := hw.covered

theorem itemsOf_eq_ok {subqueries : Json} {items : List Json} :
    itemsOf subqueries = .ok items ↔
      subqueries = .array items ∧ items ≠ [] ∧ items.length ≤ maxSubqueries := by
  unfold itemsOf
  split
  · simp only [bind_eq_ok, require_eq_ok, pure_eq_ok, Json.array.injEq]
    constructor
    · rintro ⟨_, hne, _, hlength, rfl⟩
      exact ⟨rfl, hne, hlength⟩
    · rintro ⟨rfl, hne, hlength⟩
      exact ⟨(), hne, (), hlength, rfl⟩
  · rename_i hvalue
    simp only [reduceCtorEq, false_iff, not_and]
    exact fun h => absurd h (hvalue items)

/-- **What an accepted execution plan satisfies.** -/
theorem validPlan_of_validateSubqueries {allowEmpty : Bool} {subqueries : Json}
    {plan : List Subquery} (h : validateSubqueries repr allowEmpty subqueries = .ok plan) :
    ValidPlan plan := by
  simp only [validateSubqueries, checkUnique, bind_eq_ok, pure_eq_ok, forEach_eq_ok,
    require_eq_ok, itemsOf_eq_ok, topologicalOrder_eq_ok] at h
  obtain ⟨items, ⟨rfl, hne, hlength⟩, validated, hvalidated, _, ⟨_, hids, htools⟩, _, hchecks, _,
    ⟨-, horder⟩, _, hkeys, rfl⟩ := h
  obtain ⟨hperm, hordered, -⟩ := Waves.order_spec hids horder
  have hlen := (forall₂_of_numbered hvalidated).length_eq
  refine ⟨?_, ?_, (hperm.map _).nodup_iff.2 hids, (hperm.map _).nodup_iff.2 htools, ?_, hordered,
    hkeys⟩
  · rintro rfl
    rw [← List.length_pos_iff, hlen, ← hperm.length_eq] at hne
    simp at hne
  · rw [hperm.length_eq, ← hlen]
    exact hlength
  · intro item hitem
    exact ((checkItem_eq_ok hids).1 (hchecks item (hperm.mem_iff.1 hitem))).perm hperm.symm

/-- **A plan that is already in order is accepted as it is**, or not at all. -/
theorem validateSubqueries_toJson {plan result : List Subquery}
    (horder : Waves.order Subquery.id Subquery.dependsOn cyclicDependency plan = .ok plan) :
    validateSubqueries repr false (.array (plan.map Subquery.toJson)) = .ok result ↔
      (ValidPlan plan ∧ ∀ item ∈ plan, ItemOk item) ∧ plan = result := by
  have hvalidated : ∀ validated, numbered (validateItem repr false) 0 (plan.map Subquery.toJson) =
      .ok validated ↔ (∀ item ∈ plan, ItemOk item) ∧ plan = validated := fun _ =>
    numbered_map_eq_ok validateItem_toJson
  constructor
  · intro h
    have hvalid := validPlan_of_validateSubqueries h
    simp only [validateSubqueries, checkUnique, bind_eq_ok, pure_eq_ok, forEach_eq_ok,
      require_eq_ok, itemsOf_eq_ok, topologicalOrder_eq_ok, Json.array.injEq] at h
    obtain ⟨_, ⟨rfl, -⟩, validated, hitems, _, -, _, -, _, ⟨-, horder'⟩, _, -, rfl⟩ := h
    obtain ⟨hok, rfl⟩ := (hvalidated _).1 hitems
    obtain rfl := Except.ok.inj (horder.symm.trans horder')
    exact ⟨⟨hvalid, hok⟩, rfl⟩
  · rintro ⟨⟨hvalid, hitems⟩, rfl⟩
    simp only [validateSubqueries, checkUnique, bind_eq_ok, pure_eq_ok, forEach_eq_ok,
      require_eq_ok, itemsOf_eq_ok, topologicalOrder_eq_ok, Json.array.injEq]
    exact ⟨_, ⟨rfl, by simpa using hvalid.nonempty, by simpa using hvalid.length⟩, plan,
      (hvalidated _).2 ⟨hitems, rfl⟩, (), ⟨(), hvalid.ids, hvalid.tools⟩, (),
      fun item hitem => (checkItem_eq_ok hvalid.ids).2 (hvalid.wired item hitem), plan,
      ⟨hvalid.ids, horder⟩, (), hvalid.joinKeys, rfl⟩

end Planning
