import Text2Cypher.Composition.BomShortage
import Text2Cypher.Library.Join
import Text2Cypher.Rows

/-!
# Composing the results of a plan

`compose_results` turns the results of one or two subqueries into the data of the answer: the rows
of a single source, the sections of two separate ones, the join of two that share join keys, or the
BOM shortages.  A data problem ends in a result with an error and no rows; an exception that nothing
catches ends in no result at all.
-/

namespace Composition

open Checks Planning Query

inductive Mode
  | single
  | joined
  | separate
  deriving DecidableEq, Repr

inductive EmptyReason
  | noData
  | inconclusive
  deriving DecidableEq, Repr

/-- A section of a result with separate sources. -/
structure Section (V : Type) where
  tool : ToolName
  rows : List (Dict String V)
  emptyReason : Option EmptyReason

/-- `ComposedResult`. -/
structure Composed (V : Type) where
  mode : Mode
  transform : Option String
  rows : List (Dict String V)
  sections : Dict String (Section V)
  error : Option String
  emptyReason : Option EmptyReason
  totalCount : ℕ
  truncated : Bool

/-- What is read of the result of a tool; a field can be missing. -/
structure Source (V : Type) where
  error : Option String
  result : Result V
  truncated : Option V
  emptyReason : Option V

/-- The rows of a source, its empty reason, and whether it is truncated. -/
structure SourceRows (V : Type) where
  rows : List (Dict String V)
  emptyReason : Option EmptyReason
  truncated : Bool

/-- What ends a composition early: a failure with a message, or an exception that is raised. -/
inductive Stop
  | failure (message : String)
  | raised (exception : PyException)

/-- A message, or the exception that is raised while it is put together. -/
def failWith {α : Type} : Except PyException String → Except Stop α
  | .ok message => .error (.failure message)
  | .error exception => .error (.raised exception)

section

variable {V : Type}

/-- `_failure`. -/
def failure (mode : Mode) (message : String) (transform : Option String) (truncated : Bool) :
    Composed V where
  mode := mode
  transform := transform
  rows := []
  sections := .empty
  error := some message
  emptyReason := none
  totalCount := 0
  truncated := truncated

/-- `{id}({tool})`. -/
def sourceLabel (subquery : Subquery) : String :=
  subquery.id ++ "(" ++ toolText subquery.tool ++ ")"

/-- The rows of a list, all of which are dicts. -/
def dictRows (label : String) : ℕ → List (Row V) → Except Stop (List (Dict String V))
  | _, [] => .ok []
  | rowIndex, row :: rows =>
      match row with
      | .other _ =>
          .error (.failure (label ++ "의 " ++ toString rowIndex ++ "번 행이 객체가 아닙니다."))
      | .dict fields => do
          let rest ← dictRows label (rowIndex + 1) rows
          return fields :: rest

variable [PyValue V]

/-- The flag of a source; `False` if it is missing. -/
def readTruncated (label : String) (raw : Option V) : Except Stop Bool :=
  match raw.map PyValue.kind with
  | none => .ok false
  | some (.bool b) => .ok b
  | some _ => .error (.failure (label ++ " truncated는 bool이어야 합니다."))

/-- The empty reason of a source. -/
def readEmptyReason (label : String) (raw : Option V) : Except Stop (Option EmptyReason) :=
  match raw with
  | none => .ok none
  | some value =>
      let failed := failWith do
        let text ← PyValue.repr value
        return label ++ " empty_reason이 지원되지 않습니다: " ++ text
      match PyValue.kind value with
      | .none => .ok none
      | .str s =>
          if s = "NO_DATA" then .ok (some .noData)
          else if s = "INCONCLUSIVE" then .ok (some .inconclusive)
          else failed
      | _ => failed

/-- `_source_rows`. -/
def sourceRows (subquery : Subquery) (source : Option (Source V)) : Except Stop (SourceRows V) :=
  let label := sourceLabel subquery
  match source with
  | none => .error (.failure (label ++ " 실행 결과가 없습니다."))
  | some source =>
      match source.error with
      | some error =>
          .error (.failure (label ++ " 실행 오류로 결과를 조합할 수 없습니다: " ++ error))
      | none =>
          match source.result with
          | .none => .error (.failure (label ++ " result가 None입니다."))
          | .list rows => do
              let rows ← dictRows label 0 rows
              let truncated ← readTruncated label source.truncated
              let emptyReason ← readEmptyReason label source.emptyReason
              if rows ≠ [] ∧ emptyReason ≠ none then
                .error (.failure
                  (label ++ "의 result가 비어 있지 않아 empty_reason을 지정할 수 없습니다."))
              else .ok ⟨rows, emptyReason, truncated⟩
          | _ => .error (.failure (label ++ " result는 배열이어야 합니다."))

omit [PyValue V] in
/-- `_overall_empty_reason`. -/
def overallEmptyReason (sources : List (SourceRows V)) : Option EmptyReason :=
  if sources.any fun source => !source.rows.isEmpty then none
  else if sources.any fun source => source.emptyReason == some .inconclusive then
    some .inconclusive
  else some .noData

/-! ### Joining two sources -/

/-- The values of the join keys in a row, none of which is missing or `None`. -/
def keyValues (label : String) (row : Dict String V) : List String → Except Stop (List V)
  | [] => .ok []
  | key :: joinKeys =>
      match row.get? key with
      | none => .error (.failure
          (label ++ "에 join key " ++ PyValue.reprText V key ++ "가 없습니다."))
      | some value =>
          if isNone value then .error (.failure
            (label ++ "의 join key " ++ PyValue.reprText V key ++ " 값이 None입니다."))
          else do
            let values ← keyValues label row joinKeys
            return value :: values

/-- `_row_key`. -/
def rowKey (joinKeys : List String) (subquery : Subquery) (rowIndex : ℕ) (row : Dict String V) :
    Except Stop (List V) := do
  let label := sourceLabel subquery ++ " " ++ toString rowIndex ++ "번 행"
  let key ← keyValues label row joinKeys
  if key.all PyValue.hashable then return key
  failWith do
    let text ← Python.reprTuple key
    return label ++ "의 join key 값은 hashable해야 합니다: " ++ text

/-- The loop of `_merge_rows` over the fields of the right row. -/
def mergeFields (joinKeys : List String) :
    Dict String V → List (String × V) → Except Stop (Dict String V)
  | merged, [] => .ok merged
  | merged, (field, value) :: rest =>
      if field ∈ joinKeys then mergeFields joinKeys merged rest
      else
        match merged.get? field with
        | none => mergeFields joinKeys (merged.set field value) rest
        | some present =>
            if present == value then mergeFields joinKeys merged rest
            else failWith do
              let presentText ← PyValue.repr present
              let valueText ← PyValue.repr value
              return "비-key 필드 " ++ PyValue.reprText V field ++ "의 값이 충돌합니다: " ++
                presentText ++ " != " ++ valueText

/-- `_merge_rows`. -/
def mergeRows (joinKeys : List String) (left right : Dict String V) :
    Except Stop (Dict String V) := mergeFields joinKeys left right.entries

/-- The loop over the left rows: every row with its key. -/
def leftKeyed (joinKeys : List String) (subquery : Subquery) :
    ℕ → List (Dict String V) → Except Stop (List (List V × Dict String V))
  | _, [] => .ok []
  | index, row :: rows => do
      let key ← rowKey joinKeys subquery index row
      let keyed ← leftKeyed joinKeys subquery (index + 1) rows
      return (key, row) :: keyed

/-- The loop over the right rows, whose keys have to be in the domain of the left ones;
`right_by_key` groups them. -/
def rightByKey (joinKeys : List String) (subquery : Subquery) (leftDomain : List (List V)) :
    ℕ → Join.Table (List V) (Dict String V) → List (Dict String V) →
      Except Stop (Join.Table (List V) (Dict String V))
  | _, table, [] => .ok table
  | index, table, row :: rows => do
      let key ← rowKey joinKeys subquery index row
      if leftDomain.any fun key' => key' == key then
        rightByKey joinKeys subquery leftDomain (index + 1) (Join.push table key row) rows
      else failWith do
        let text ← Python.reprTuple key
        return sourceLabel subquery ++ "의 join key " ++ text ++
          "가 선행 결과의 바인딩 범위를 벗어났습니다."

/-- One left row with the right rows of its key: the rows stored so far and the count go on. -/
def joinRow (joinKeys : List String) (rowLimit : ℕ) (left : Dict String V) :
    List (Dict String V) × ℕ → List (Dict String V) → Except Stop (List (Dict String V) × ℕ)
  | (rows, totalCount), [] => .ok (rows, totalCount)
  | (rows, totalCount), right :: rest => do
      let merged ← mergeRows joinKeys left right
      let rows := if rows.length < rowLimit then rows ++ [merged] else rows
      joinRow joinKeys rowLimit left (rows, totalCount + 1) rest

/-- The loop over the left rows. -/
def joinRows (joinKeys : List String) (rowLimit : ℕ) (table : Join.Table (List V) (Dict String V)) :
    List (Dict String V) × ℕ → List (List V × Dict String V) →
      Except Stop (List (Dict String V) × ℕ)
  | joined, [] => .ok joined
  | joined, (key, left) :: rest => do
      let joined ← joinRow joinKeys rowLimit left joined (Join.lookup table key)
      joinRows joinKeys rowLimit table joined rest

/-- The reason of a result with an empty source. -/
def emptyReasonOf (left right : Option EmptyReason) : EmptyReason :=
  if left = some .inconclusive ∨ right = some .inconclusive then .inconclusive else .noData

/-- The part of `_compose_joined` that can end early. -/
def joinSources (leftSubquery rightSubquery : Subquery) (left right : SourceRows V)
    (rowLimit : ℕ) : Except Stop (Composed V) := do
  let joinKeys := leftSubquery.joinKeys
  let keyed ← leftKeyed joinKeys leftSubquery 0 left.rows
  let table ← rightByKey joinKeys rightSubquery (keyed.map Prod.fst) 0 [] right.rows
  if left.rows = [] ∨ right.rows = [] then
    return {
      mode := .joined
      transform := none
      rows := []
      sections := .empty
      error := none
      emptyReason := some (emptyReasonOf left.emptyReason right.emptyReason)
      totalCount := 0
      truncated := false }
  let (rows, totalCount) ← joinRows joinKeys rowLimit table ([], 0) keyed
  return {
    mode := .joined
    transform := none
    rows := rows
    sections := .empty
    error := none
    emptyReason := if totalCount = 0 then some .noData else none
    totalCount := totalCount
    truncated := decide (rows.length < totalCount) }

/-- A failure becomes a result; an exception goes on. -/
def settle (mode : Mode) (transform : Option String) :
    Except Stop (Composed V) → Except PyException (Composed V)
  | .ok composed => .ok composed
  | .error (.failure message) => .ok (failure mode message transform false)
  | .error (.raised exception) => .error exception

/-- `_compose_joined`. -/
def composeJoined (leftSubquery rightSubquery : Subquery) (left right : SourceRows V)
    (rowLimit : ℕ) : Except PyException (Composed V) :=
  if left.truncated ∨ right.truncated then
    .ok (failure .joined "source 결과가 행 상한을 초과해 완전한 join을 보장할 수 없습니다." none
      true)
  else settle .joined none (joinSources leftSubquery rightSubquery left right rowLimit)

/-! ### BOM shortages -/

/-- `BomShortageTransform`. -/
structure BomShortageTransform (V : Type) where
  type : String
  productionQty : V

/-- `TransformSpec`. -/
structure TransformSpec where
  outputScale : ℤ
  requiredOutputs : ToolName → List String

def bomShortageV1 : String := "bom_shortage_v1"

/-- The first integer that is too large for a float, so that `math.isfinite` overflows. -/
def floatOverflow : ℕ := 2 ^ 1024 - 2 ^ 970

/-- The quantity is a finite positive number. -/
def isProductionQty (value : V) : Bool :=
  match PyValue.kind value with
  | .int n => decide (0 < n) && decide (n < floatOverflow)
  | .float (.finite x) => decide (0 < x.toRat)
  | _ => false

/-- `_validate_transform_shape`, for an object with the two fields. -/
def validateTransformShape (transform : BomShortageTransform V) : Except String Unit := do
  require (transform.type = bomShortageV1) "unsupported resultTransform"
  require (isProductionQty transform.productionQty)
    "bom_shortage_v1 productionQty must be a finite positive number"

omit [PyValue V] in
/-- `_validate_bom_shortage_route`, with the check of the tools in front of it. -/
def validateBomShortageRoute : List Subquery → Except String (Subquery × Subquery)
  | [graph, sql] => do
      require (graph.tool = .graph ∧ sql.tool = .sql) "bom_shortage_v1 requires a Graph -> SQL plan"
      require (sql.dependsOn = [graph.id]) "bom_shortage_v1 SQL must depend on its Graph producer"
      require (graph.joinKeys = ["componentId"] ∧ sql.joinKeys = ["componentId"])
        "bom_shortage_v1 join key must be componentId on both sources"
      require (sql.inputBindings.entries = [("componentIds", graph.id ++ ".componentId")])
        "bom_shortage_v1 componentIds binding is invalid"
      return (graph, sql)
  | _ => .error "bom_shortage_v1 requires a Graph -> SQL plan"

/-- The same members. -/
def sameSet (a b : List String) : Prop := a ⊆ b ∧ b ⊆ a

instance (a b : List String) : Decidable (sameSet a b) := by
  unfold sameSet
  infer_instance

/-- `validate_result_transform`: the transform of a plan, with what the catalog declares for it. -/
def validateResultTransform (rawTransform : Option (BomShortageTransform V))
    (subqueries : List Subquery) (catalog : Option (Dict String TransformSpec)) :
    Except String (Option (BomShortageTransform V × TransformSpec)) :=
  match rawTransform with
  | none => .ok none
  | some transform => do
      validateTransformShape transform
      let (graph, sql) ← validateBomShortageRoute subqueries
      match catalog with
      | none => .error "formal transform validation requires a semantic catalog"
      | some catalog =>
          match catalog.get? bomShortageV1 with
          | none => .error "unsupported transform: 'bom_shortage_v1'"
          | some spec => do
              require (sameSet graph.requiredOutputs (spec.requiredOutputs .graph))
                "bom_shortage_v1 Graph requiredOutputs are invalid"
              require (sameSet sql.requiredOutputs (spec.requiredOutputs .sql))
                "bom_shortage_v1 SQL requiredOutputs are invalid"
              return some (transform, spec)

end

section

variable {V : Type} [PyValue V] [PyBuild V]

/-- A row of the result as a dict. -/
def Shortage.toRow (row : Shortage) : Dict String V :=
  let int := fun n => PyBuild.ofKind (V := V) (.int n)
  let text := fun s => PyBuild.ofKind (V := V) (.str s)
  let decimal := fun x => PyBuild.ofKind (V := V) (.decimal (.finite x))
  { entries := [
      ("finishedProductId", int row.finishedProductId),
      ("finishedProductName", text row.finishedProductName),
      ("productionQty", decimal row.productionQty),
      ("componentId", int row.componentId),
      ("componentName", text row.componentName),
      ("requiredQty", decimal row.requiredQty),
      ("actualStock", decimal row.actualStock),
      ("shortageQty", decimal row.shortageQty),
      ("suppliers", PyBuild.ofKind (.list (row.suppliers.map fun supplier => PyBuild.ofKind
        (.dict [("supplierId", int supplier.1), ("supplierName", text supplier.2)]))))]
    nodup := by simp }

/-- `_compose_bom_shortage`. -/
def composeBomShortage (graph sql : SourceRows V) (transform : BomShortageTransform V)
    (spec : TransformSpec) (rowLimit : ℕ) : Except PyException (Composed V) :=
  let transformName := some transform.type
  if graph.truncated ∨ sql.truncated then
    .ok (failure .joined
      "source 결과가 행 상한을 초과해 완전한 BOM 부족량을 계산할 수 없습니다." transformName true)
  else if graph.rows = [] ∧ sql.rows = [] then
    .ok {
      mode := .joined
      transform := transformName
      rows := []
      sections := .empty
      error := none
      emptyReason := some (emptyReasonOf graph.emptyReason sql.emptyReason)
      totalCount := 0
      truncated := false }
  else
    match calculateBomShortages graph.rows sql.rows transform.productionQty spec.outputScale
        (spec.requiredOutputs .graph) (spec.requiredOutputs .sql) with
    | .error exception =>
        if exception.typeName = "ValueError" then
          .ok (failure .joined exception.message transformName false)
        else .error exception
    | .ok finalRows =>
        let storedRows := finalRows.take rowLimit
        .ok {
          mode := .joined
          transform := transformName
          rows := storedRows.map Shortage.toRow
          sections := .empty
          error := none
          emptyReason := if finalRows = [] then some .noData else none
          totalCount := finalRows.length
          truncated := decide (storedRows.length < finalRows.length) }

/-! ### The whole composition -/

omit [PyValue V] [PyBuild V] in
/-- `mode` as it follows from the join keys; an error for keys that do not agree. -/
def modeOf : List Subquery → Except (Mode × String) Mode
  | [] => .error (.single, "실행 계획에 subquery가 없습니다.")
  | [_] => .ok .single
  | [first, second] =>
      if first.joinKeys = [] ∧ second.joinKeys = [] then .ok .separate
      else if first.joinKeys ≠ [] ∧ second.joinKeys ≠ [] ∧
          sameSet first.joinKeys second.joinKeys then .ok .joined
      else .error (.joined, "HYBRID joinKeys 계약이 일치하지 않습니다.")
  | _ => .error (.separate, "두 개를 넘는 subquery는 지원하지 않습니다.")

omit [PyBuild V] in
/-- The sources of all subqueries. -/
def allSourceRows (toolResults : ToolName → Option (Source V)) :
    List Subquery → Except Stop (List (SourceRows V))
  | [] => .ok []
  | subquery :: rest => do
      let source ← sourceRows subquery (toolResults subquery.tool)
      let sources ← allSourceRows toolResults rest
      return source :: sources

omit [PyValue V] [PyBuild V] in
/-- The result of a single source. -/
def composeSingle (source : SourceRows V) : Composed V where
  mode := .single
  transform := none
  rows := source.rows
  sections := .empty
  error := none
  emptyReason := if source.rows = [] then source.emptyReason else none
  totalCount := source.rows.length
  truncated := source.truncated

omit [PyValue V] [PyBuild V] in
/-- The result of separate sources, with a section for each. -/
def composeSeparate (subqueries : List Subquery) (sources : List (SourceRows V)) :
    Composed V where
  mode := .separate
  transform := none
  rows := []
  sections := (subqueries.zip sources).foldl (fun sections entry =>
    sections.set entry.1.id ⟨entry.1.tool, entry.2.rows,
      if entry.2.rows = [] then entry.2.emptyReason else none⟩) .empty
  error := none
  emptyReason := overallEmptyReason sources
  totalCount := (sources.map fun source => source.rows.length).sum
  truncated := sources.any SourceRows.truncated

/-- The composition of sources that are there. -/
def composeSources (mode : Mode) (subqueries : List Subquery) (sources : List (SourceRows V))
    (rowLimit : ℕ) (transform : Option (BomShortageTransform V × TransformSpec)) :
    Except PyException (Composed V) :=
  match transform, subqueries, sources with
  | some (transform, spec), _, [graph, sql] =>
      composeBomShortage graph sql transform spec rowLimit
  | none, [_], [source] => .ok (composeSingle source)
  | none, [first, second], [left, right] =>
      if mode = .separate then .ok (composeSeparate subqueries sources)
      else composeJoined first second left right rowLimit
  -- there is a source for each subquery, and a transform only for two of them
  | _, _, _ => .ok (failure mode "실행 계획에 subquery가 없습니다." none false)

/-- `compose_results`. -/
def composeResults (subqueries : List Subquery) (toolResults : ToolName → Option (Source V))
    (rowLimit : ℤ) (resultTransform : Option (BomShortageTransform V))
    (semanticCatalog : Option (Dict String TransformSpec)) : Except PyException (Composed V) :=
  match modeOf subqueries with
  | .error (mode, message) => .ok (failure mode message none false)
  | .ok mode =>
      if rowLimit < 0 then
        .ok (failure mode "결과 행 상한은 0 이상이어야 합니다."
          (resultTransform.map BomShortageTransform.type) false)
      else
        match validateResultTransform resultTransform subqueries semanticCatalog with
        | .error message => .ok (failure mode message (some bomShortageV1) false)
        | .ok transform =>
            match allSourceRows toolResults subqueries with
            | .error stop =>
                settle mode (transform.map fun t => t.1.type) (.error stop)
            | .ok sources => composeSources mode subqueries sources rowLimit.toNat transform

end

/-! ### Computations that raise nothing -/

/-- A computation that ends with a value or with a message. -/
def Settled {α : Type} (x : Except Stop α) : Prop := ∀ exception, x ≠ .error (.raised exception)

theorem settled_ok {α : Type} (a : α) : Settled (.ok a) := fun _ h => by cases h

theorem settled_failure {α : Type} (message : String) :
    Settled (.error (.failure message) : Except Stop α) := fun _ h => by cases h

theorem Settled.bind {α β : Type} {x : Except Stop α} {f : α → Except Stop β} (h : Settled x)
    (hf : ∀ a, Settled (f a)) : Settled (x >>= f) := by
  cases x with
  | ok a => exact hf a
  | error stop =>
    rintro exception hraised
    exact h exception (congrArg Except.error (Except.error.inj hraised))

theorem settled_dictRows {V : Type} (label : String) (n : ℕ) (rows : List (Row V)) :
    Settled (dictRows label n rows) := by
  induction rows generalizing n with
  | nil => exact settled_ok _
  | cons row rows ih =>
    cases row with
    | other v => exact settled_failure _
    | dict fields => exact (ih (n + 1)).bind fun rest => settled_ok _

theorem settled_readTruncated {V : Type} [PyValue V] (label : String) (raw : Option V) :
    Settled (readTruncated label raw) := by
  unfold readTruncated
  split
  · exact settled_ok _
  · exact settled_ok _
  · exact settled_failure _

/-- Reading a source raises only what the message about its empty reason raises. -/
theorem settled_sourceRows {V : Type} [PyValue V] (subquery : Subquery)
    (source : Option (Source V)) (h : ∀ s, source = some s → ∀ label,
      Settled (readEmptyReason label s.emptyReason)) : Settled (sourceRows subquery source) := by
  unfold sourceRows
  dsimp only
  split
  · exact settled_failure _
  · rename_i s
    split
    · exact settled_failure _
    · split
      · exact settled_failure _
      · refine (settled_dictRows _ _ _).bind fun rows => ?_
        refine (settled_readTruncated _ _).bind fun truncated => ?_
        refine (h s rfl _).bind fun emptyReason => ?_
        split_ifs
        · exact settled_failure _
        · exact settled_ok _
      · exact settled_failure _

theorem settled_allSourceRows {V : Type} [PyValue V] (toolResults : ToolName → Option (Source V))
    (subqueries : List Subquery) (h : ∀ subquery ∈ subqueries, ∀ s,
      toolResults subquery.tool = some s → ∀ label,
        Settled (readEmptyReason label s.emptyReason)) :
    Settled (allSourceRows toolResults subqueries) := by
  induction subqueries with
  | nil => exact settled_ok _
  | cons subquery rest ih =>
    refine (settled_sourceRows subquery _ (h subquery List.mem_cons_self)).bind fun source => ?_
    refine (ih fun q hq => h q (List.mem_cons_of_mem subquery hq)).bind fun sources => ?_
    exact settled_ok _

end Composition
