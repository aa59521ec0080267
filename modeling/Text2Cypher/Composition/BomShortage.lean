import Text2Cypher.Composition.Values
import Text2Cypher.Planning.Subquery

/-!
# BOM shortages

`calculate_bom_shortages`: from the rows that the graph returns for the paths of a bill of materials
and the stock that SQL returns for the same components, what has to be bought.

A row of the graph is read first (`readGraphRow`) and then entered into four maps (`enterRow`), in
the order of the source.  `ValueError` is what the caller catches; the signals of the decimal
arithmetic are no `ValueError`.
-/

/-- `dict.setdefault`: the value under a key, which is entered if it is not there. -/
def Dict.setDefault {κ ν : Type} [DecidableEq κ] (d : Dict κ ν) (k : κ) (v : ν) : ν × Dict κ ν :=
  match d.get? k with
  | some prior => (prior, d)
  | none => (v, d.set k v)

namespace Composition

open Checks Planning

/-- The arithmetic context of a Python program that does not change it. -/
def context : Decimal.Context where
  precision := 28
  emax := 999999
  emin := -999999
  precision_pos := Decimal.default_precision_pos
  emin_le := Decimal.default_emin_le
  emax_ge := Decimal.default_emax_ge

/-- What a trapped signal raises. -/
def signalled {α : Type} : Except Decimal.Signal α → Except PyException α
  | .ok a => .ok a
  | .error .overflow => .error ⟨"Overflow", "[<class 'decimal.Overflow'>]", none⟩
  | .error .invalidOperation =>
      .error ⟨"InvalidOperation", "[<class 'decimal.InvalidOperation'>]", none⟩

theorem signalled_eq_ok {α : Type} {x : Except Decimal.Signal α} {a : α} :
    signalled x = .ok a ↔ x = .ok a := by
  rcases x with (_ | _) | b <;> simp [signalled]

section

variable {V : Type} [PyValue V]

/-- `row[name]`. -/
def field (row : Dict String V) (name : String) : Except PyException V :=
  match row.get? name with
  | some value => .ok value
  | none => .error (Python.keyError name)

/-- `_identifier`. -/
def identifier (value : V) (label : String) : Except PyException ℤ :=
  match PyValue.kind value with
  | .int n => .ok n
  | _ => .error (Python.valueError (label ++ "는 정수 식별자여야 합니다."))

/-- `_name`. -/
def name (value : V) (label : String) : Except PyException String :=
  let failed := Python.valueError (label ++ "는 비어 있지 않은 문자열이어야 합니다.")
  match PyValue.kind value with
  | .str s => if s = "" then .error failed else .ok s
  | _ => .error failed

/-- `Decimal(str(value))`, for the kinds of values that it is tried for. -/
def toNumber? (value : V) : Option (Option Number) :=
  match PyValue.kind value with
  | .int n =>
      if Python.maxStrDigits < Decimal.digits n.natAbs then some none
      else some (some (.finite (Decimal.ofInt n)))
  | .float x | .decimal x => some (some x)
  | .str s => some (Decimal.read s.toList)
  | _ => none

/-- `_decimal`. -/
def decimal (value : V) (label : String) (positive : Bool) : Except PyException Decimal :=
  let condition := if positive then "유한한 양수" else "유한한 숫자"
  match toNumber? value with
  | none => .error (Python.valueError (label ++ "는 숫자여야 합니다."))
  | some none => .error (Python.valueError (label ++ "를 Decimal로 변환할 수 없습니다."))
  | some (some (.finite result)) =>
      if positive ∧ result.toRat ≤ 0 then
        .error (Python.valueError (label ++ "는 " ++ condition ++ "여야 합니다."))
      else .ok result
  | some (some _) => .error (Python.valueError (label ++ "는 " ++ condition ++ "여야 합니다."))

/-- `_require_fields`. -/
def requireFields (row : Dict String V) (fields : List String) (label : String) :
    Except PyException Unit :=
  let missing := fields.filter (· ∉ row.keys)
  require (missing = [])
    (Python.valueError (label ++ "에 필수 필드가 없습니다: " ++ joinSorted missing))

/-! ### Rows of the graph -/

/-- A row of the graph that has passed its own checks. -/
structure GraphRow where
  finishedId : ℤ
  finishedName : String
  componentId : ℤ
  componentName : String
  path : List ℤ
  quantities : List Decimal
  supplier : Option (ℤ × String)
  deriving DecidableEq

/-- A value that is a list. -/
def listItems (value : V) (label : String) : Except PyException (List V) :=
  match PyValue.kind value with
  | .list items => .ok items
  | _ => .error (Python.valueError (label ++ "는 배열이어야 합니다."))

/-- The depth of a row: an integer from 1 on. -/
def readDepth (value : V) (label : String) : Except PyException ℤ :=
  let failed := Python.valueError (label ++ ".depth는 1 이상의 정수여야 합니다.")
  match PyValue.kind value with
  | .int n => if n < 1 then .error failed else .ok n
  | _ => .error failed

/-- `value is None`. -/
def isNone (value : V) : Bool :=
  match PyValue.kind value with
  | .none => true
  | _ => false

/-- The supplier of a row, if it names one. -/
def readSupplier (row : Dict String V) (label : String) :
    Except PyException (Option (ℤ × String)) := do
  let supplierIdRaw ← field row "supplierId"
  let supplierNameRaw ← field row "supplierName"
  require (isNone supplierIdRaw = isNone supplierNameRaw)
    (Python.valueError (label ++ "의 supplier ID와 이름은 함께 null이어야 합니다."))
  if isNone supplierIdRaw then return none
  let supplierId ← identifier supplierIdRaw (label ++ ".supplierId")
  let supplierName ← name supplierNameRaw (label ++ ".supplierName")
  return some (supplierId, supplierName)

/-- The part of the loop over the rows of the graph that looks at one row alone. -/
def readGraphRow (required : List String) (rowIndex : ℕ) (row : Dict String V) :
    Except PyException GraphRow := do
  let label := "GRAPH " ++ toString rowIndex ++ "번 행"
  requireFields row required label
  let finishedId ← identifier (← field row "finishedProductId") (label ++ ".finishedProductId")
  let finishedName ← name (← field row "finishedProductName") (label ++ ".finishedProductName")
  let componentId ← identifier (← field row "componentId") (label ++ ".componentId")
  let componentName ← name (← field row "componentName") (label ++ ".componentName")
  let depth ← readDepth (← field row "depth") label
  let rawPath ← field row "pathProductIds"
  let rawQuantities ← field row "quantityPerAssembly"
  let pathItems ← listItems rawPath (label ++ ".pathProductIds")
  let quantityItems ← listItems rawQuantities (label ++ ".quantityPerAssembly")
  let path ← numbered (fun index value =>
    identifier value (label ++ ".pathProductIds[" ++ toString index ++ "]")) 0 pathItems
  let quantities ← numbered (fun index value =>
    decimal value (label ++ ".quantityPerAssembly[" ++ toString index ++ "]") true) 0 quantityItems
  require (path.length = quantities.length + 1) (Python.valueError
    (label ++ "의 pathProductIds 길이는 quantityPerAssembly보다 1 커야 합니다."))
  require (depth = quantities.length) (Python.valueError
    (label ++ ".depth가 quantityPerAssembly 길이와 다릅니다."))
  require (path.head? = some finishedId ∧ path.getLast? = some componentId) (Python.valueError
    (label ++ "의 path 방향 또는 양 끝 식별자가 잘못됐습니다."))
  let supplier ← readSupplier row label
  return ⟨finishedId, finishedName, componentId, componentName, path, quantities, supplier⟩

/-- What is known of a component. -/
structure Component where
  finishedProductId : ℤ
  finishedProductName : String
  componentName : String
  /-- the requirement of every path -/
  paths : Dict (ℤ × List ℤ) Decimal
  suppliers : List (ℤ × String)

/-- The maps and sets that the rows of the graph fill. -/
structure Collected where
  components : Dict ℤ Component
  graphDomain : List ℤ
  supplierNames : Dict ℤ String
  finishedProducts : List (ℤ × String)
  pathQuantities : Dict (ℤ × List ℤ) (List Decimal)

def Collected.start : Collected := ⟨.empty, [], .empty, [], .empty⟩

/-- A supplier has one name. -/
def enterSupplierName (supplierNames : Dict ℤ String) :
    Option (ℤ × String) → Except PyException (Dict ℤ String)
  | none => .ok supplierNames
  | some (supplierId, supplierName) =>
      let (priorName, supplierNames) := supplierNames.setDefault supplierId supplierName
      if priorName ≠ supplierName then do
        let text ← Python.intText supplierId
        .error (Python.valueError ("supplierId " ++ text ++ "에 서로 다른 이름이 있습니다."))
      else .ok supplierNames

/-- Tuples of decimals are equal if their values are. -/
def sameQuantities (a b : List Decimal) : Prop := a.map Decimal.toRat = b.map Decimal.toRat

instance (a b : List Decimal) : Decidable (sameQuantities a b) := by
  unfold sameQuantities
  infer_instance

/-- `path_required`: the product along a path, from the left. -/
def pathRequired (production : Decimal) (quantities : List Decimal) :
    Except Decimal.Signal Decimal :=
  quantities.foldlM (fun required quantity => Decimal.mul context required quantity) production

/-- The part of the loop that enters a row into the maps. -/
def enterRow (production : Decimal) (s : Collected) (row : GraphRow) :
    Except PyException Collected := do
  let supplierNames ← enterSupplierName s.supplierNames row.supplier
  let (component, components) := s.components.setDefault row.componentId
    ⟨row.finishedId, row.finishedName, row.componentName, .empty, []⟩
  if (component.finishedProductId, component.finishedProductName, component.componentName) ≠
      (row.finishedId, row.finishedName, row.componentName) then
    let text ← Python.intText row.componentId
    throw (Python.valueError ("componentId " ++ text ++ "의 식별 정보가 충돌합니다."))
  let pathKey := (row.componentId, row.path)
  let (priorQuantities, pathQuantities) := s.pathQuantities.setDefault pathKey row.quantities
  if ¬ sameQuantities priorQuantities row.quantities then
    let text ← Python.intText row.componentId
    let pathText ← Python.intListText row.path
    throw (Python.valueError ("동일 BOM 경로에 서로 다른 quantityPerAssembly가 있습니다: " ++
      "componentId=" ++ text ++ ", pathProductIds=" ++ pathText))
  let required ← signalled (pathRequired production row.quantities)
  let component : Component := { component with
    paths := (component.paths.setDefault pathKey required).2
    suppliers := row.supplier.elim component.suppliers component.suppliers.insert }
  return {
    components := components.set row.componentId component
    graphDomain := s.graphDomain.insert row.componentId
    supplierNames := supplierNames
    finishedProducts := s.finishedProducts.insert (row.finishedId, row.finishedName)
    pathQuantities := pathQuantities }

/-- The loop over the rows of the graph. -/
def collectGraph (production : Decimal) (required : List String) :
    ℕ → Collected → List (Dict String V) → Except PyException Collected
  | _, s, [] => .ok s
  | rowIndex, s, row :: rows => do
      let read ← readGraphRow required rowIndex row
      let s ← enterRow production s read
      collectGraph production required (rowIndex + 1) s rows

/-! ### Rows of the stock -/

/-- One row of SQL: the component, its make flag and its stock. -/
def readSqlRow (required : List String) (known : List ℤ) (rowIndex : ℕ) (row : Dict String V) :
    Except PyException (ℤ × Bool × Decimal) := do
  let label := "SQL " ++ toString rowIndex ++ "번 행"
  requireFields row required label
  let componentId ← identifier (← field row "componentId") (label ++ ".componentId")
  if componentId ∈ known then
    let text ← Python.intText componentId
    throw (Python.valueError ("SQL에 componentId " ++ text ++ " 행이 중복됐습니다."))
  let makeFlag ← match PyValue.kind (← field row "makeFlag") with
    | .bool b => pure b
    | _ => throw (Python.valueError (label ++ ".makeFlag는 bool이어야 합니다."))
  let actualStock ← decimal (← field row "actualStock") (label ++ ".actualStock") false
  return (componentId, makeFlag, actualStock)

/-- The loop over the rows of SQL. -/
def collectSql (required : List String) :
    ℕ → Dict ℤ (Bool × Decimal) → List (Dict String V) →
      Except PyException (Dict ℤ (Bool × Decimal))
  | _, stocks, [] => .ok stocks
  | rowIndex, stocks, row :: rows => do
      let (componentId, stock) ← readSqlRow required stocks.keys rowIndex row
      collectSql required (rowIndex + 1) (stocks.set componentId stock) rows

end

/-! ### The result -/

/-- A row of the result. -/
structure Shortage where
  finishedProductId : ℤ
  finishedProductName : String
  productionQty : Decimal
  componentId : ℤ
  componentName : String
  requiredQty : Decimal
  actualStock : Decimal
  shortageQty : Decimal
  suppliers : List (ℤ × String)
  deriving DecidableEq

/-- The order of supplier tuples. -/
def supplierLe (a b : ℤ × String) : Prop := a.1 < b.1 ∨ a.1 = b.1 ∧ a.2 ≤ b.2

instance : DecidableRel supplierLe := fun a b => by
  unfold supplierLe
  infer_instance

/-- The order of the result: by the shortage, the largest first, and then by the component. -/
def shortageLe (a b : Shortage) : Prop :=
  b.shortageQty.toRat < a.shortageQty.toRat ∨
    a.shortageQty.toRat = b.shortageQty.toRat ∧ a.componentId ≤ b.componentId

instance : DecidableRel shortageLe := fun a b => by
  unfold shortageLe
  infer_instance

/-- `max(a, b)`: the second one only if it is larger. -/
def maxDecimal (a b : Decimal) : Decimal := if a.toRat < b.toRat then b else a

/-- The body of the loop over the components; `none` is `continue`. -/
def shortageOf (production : Decimal) (outputScale : ℤ) (componentId : ℤ) (component : Component)
    (stock : Bool × Decimal) : Except Decimal.Signal (Option Shortage) := do
  let (makeFlag, actualStock) := stock
  if makeFlag then return none
  let required ← component.paths.values.foldlM (fun sum v => Decimal.add context sum v) Decimal.zero
  let shortage := maxDecimal (← Decimal.sub context required actualStock) Decimal.zero
  if shortage.toRat = 0 then return none
  let normalized := fun value => Decimal.quantize context value (-outputScale)
  let productionQty ← normalized production
  let requiredQty ← normalized required
  let actualStock ← normalized actualStock
  let shortageQty ← normalized shortage
  return some {
    finishedProductId := component.finishedProductId
    finishedProductName := component.finishedProductName
    productionQty := productionQty
    componentId := componentId
    componentName := component.componentName
    requiredQty := requiredQty
    actualStock := actualStock
    shortageQty := shortageQty
    suppliers := component.suppliers.insertionSort supplierLe }

/-- The loop over the components. -/
def shortagesOf (production : Decimal) (outputScale : ℤ) (stocks : Dict ℤ (Bool × Decimal)) :
    List (ℤ × Component) → Except PyException (List Shortage)
  | [] => .ok []
  | (componentId, component) :: rest =>
      match stocks.get? componentId with
      | none => Python.intText componentId >>= fun text => .error (Python.keyError text)
      | some stock => do
          let row ← signalled (shortageOf production outputScale componentId component stock)
          let rows ← shortagesOf production outputScale stocks rest
          return row.toList ++ rows

/-- `calculate_bom_shortages`. -/
def calculateBomShortages {V : Type} [PyValue V] (graphRows sqlRows : List (Dict String V))
    (productionQty : V) (outputScale : ℤ) (requiredGraphOutputs requiredSqlOutputs : List String) :
    Except PyException (List Shortage) := do
  require (0 ≤ outputScale ∧ outputScale ≤ 12)
    (Python.valueError "outputScale은 0 이상 12 이하여야 합니다.")
  let production ← decimal productionQty "productionQty" true
  let collected ← collectGraph production requiredGraphOutputs 0 .start graphRows
  require (collected.finishedProducts.length ≤ 1)
    (Python.valueError "GRAPH 결과에 서로 다른 finished product가 있습니다.")
  let stocks ← collectSql requiredSqlOutputs 0 .empty sqlRows
  let missingSql := collected.graphDomain.filter (· ∉ stocks.keys)
  let extraSql := stocks.keys.filter (· ∉ collected.graphDomain)
  if missingSql ≠ [] ∨ extraSql ≠ [] then
    let missingText ← Python.intListText (missingSql.insertionSort (· ≤ ·))
    let extraText ← Python.intListText (extraSql.insertionSort (· ≤ ·))
    throw (Python.valueError ("GRAPH와 SQL component domain이 다릅니다: " ++
      "missingSql=" ++ missingText ++ ", extraSql=" ++ extraText))
  let results ← shortagesOf production outputScale stocks collected.components.entries
  return results.insertionSort shortageLe

end Composition
