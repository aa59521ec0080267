import Text2Cypher.Answer.Grounding

/-!
# Rendering of answers

An answer that has passed the checks is put together as Markdown, and so is the answer that takes
its place if there is none.  The renderer reads the same JSON as the checks did and asks for more
of it, so it can raise: a metric without a label, an integer too large for a float, or a price that
is not finite.

Floats are a parameter; what is known of them is when the conversions of Python raise.
-/

namespace Answer

open Checks Composition Decimal Python

/-- What the code does with floats. -/
structure Floats where
  Float : Type
  /-- the float that the text of a value denotes -/
  ofNumber : Number → Float
  /-- `float(n)`; `none` is `OverflowError` -/
  ofInt : ℤ → Option Float
  /-- `float(s)`; `none` is `ValueError` -/
  ofText : Text → Option Float
  isFinite : Float → Bool
  isInteger : Float → Bool
  /-- `int(x)`, for an integer -/
  toInt : Float → ℤ
  /-- `round(x)` -/
  round : Float → Except PyException ℤ
  text : Float → String
  ofInt_eq_none : ∀ n : ℤ, ofInt n = none ↔ floatOverflow ≤ n.natAbs
  isFinite_ofInt : ∀ {n x}, ofInt n = some x → isFinite x = true
  isFinite_ofNumber : ∀ x, isFinite (ofNumber x) = true ↔ numberValue x ≠ none
  round_finite : ∀ x, (∃ n, round x = .ok n) ↔ isFinite x = true

/-! ### Labels -/

/-- `FIELD_LABELS`. -/
def fieldLabels : List (String × String) :=
  [("listPrice", "정가"), ("standardCost", "표준원가"), ("priceCostGap", "정가-원가 차액"),
    ("activeSupplierCount", "활성 공급업체 수"), ("purchasedProductCount", "외부 구매 부품 수"),
    ("productCount", "제품 수"), ("safetyStockLevel", "안전재고"), ("actualStock", "실제재고"),
    ("shortageQty", "부족 수량"), ("totalOrderQty", "판매량"), ("totalRejectedQty", "반려 수량"),
    ("scrappedQty", "폐기 수량"), ("totalScrappedQty", "총 폐기 수량"),
    ("suppliedProductCount", "공급 부품 종류 수"), ("averageListPrice", "평균 정가"),
    ("workOrderCount", "작업지시 수"), ("sharedComponentCount", "공통 부품 수"),
    ("quantityPerAssembly", "조립당 필요 수량"), ("productName", "제품명"),
    ("supplierName", "공급업체명"), ("categoryName", "분류명"), ("locationName", "작업장명"),
    ("scrapReasonName", "폐기사유"), ("componentName", "부품명"),
    ("finishedProductName", "완제품명"), ("rootProductName", "완제품명"), ("productId", "제품 ID"),
    ("productNumber", "제품번호"), ("makeFlag", "자체 생산 여부"), ("color", "색상"),
    ("size", "크기"), ("sellEndDate", "판매 종료일"), ("quantity", "재고 수량"), ("shelf", "선반"),
    ("bin", "보관함"), ("locationId", "작업장 ID"), ("supplierId", "공급업체 ID"),
    ("active", "활성 여부"), ("categoryId", "제품 분류 ID"), ("subcategoryId", "제품 하위 분류 ID"),
    ("subcategoryName", "제품 하위 분류명"), ("bomId", "BOM ID"),
    ("startDate", "BOM 유효 시작일"), ("endDate", "BOM 유효 종료일"),
    ("orderQty", "판매 주문 수량"), ("rejectedQty", "반려 수량"), ("workOrderId", "작업지시 ID"),
    ("scrapReasonId", "폐기 사유 ID"), ("sequence", "공정 순서")]

/-- `FIELD_LABELS.get(key, key)`. -/
def fieldLabel (key : String) : String := (fieldLabels.lookup key).getD key

/-- `_CURRENCY_LABELS`. -/
def currencyLabels : List String :=
  ["listPrice", "standardCost", "priceCostGap", "averageListPrice"].map fieldLabel

/-- `_COUNT_UNIT_FIELD_KEYS`. -/
def countUnitFieldKeys : List (String × String) :=
  [("activeSupplierCount", "곳"), ("purchasedProductCount", "개"), ("productCount", "개"),
    ("safetyStockLevel", "개"), ("actualStock", "개"), ("shortageQty", "개"),
    ("totalOrderQty", "개"), ("totalRejectedQty", "건"), ("scrappedQty", "개"),
    ("totalScrappedQty", "개"), ("suppliedProductCount", "종"), ("workOrderCount", "건"),
    ("sharedComponentCount", "개"), ("quantityPerAssembly", "개"), ("quantity", "개"),
    ("orderQty", "개"), ("rejectedQty", "건")]

/-- `_COUNT_UNIT_LABELS`.  Of two entries for one label the last counts. -/
def countUnitLabels : List (String × String) :=
  (countUnitFieldKeys.map fun entry => (fieldLabel entry.1, entry.2)).reverse

/-- `_has_batchim`. -/
def hasBatchim (word : String) : Bool :=
  match word.toList.getLast? with
  | some last => decide ('가' ≤ last ∧ last ≤ '힣' ∧ (last.toNat - '가'.toNat) % 28 ≠ 0)
  | none => false

/-- `_topic_particle`. -/
def topicParticle (word : String) : String := if hasBatchim word then "은" else "는"

/-- Digits from the last to the first, with commas. -/
def withCommas : Text → Text
  | a :: b :: c :: d :: rest => a :: b :: c :: ',' :: withCommas (d :: rest)
  | digits => digits

/-- `f"{n:,}"`. -/
def thousandsText (n : ℤ) : String :=
  String.ofList
    (signText (decide (n < 0)) ++ (withCommas (Nat.toDigits 10 n.natAbs).reverse).reverse)

example : thousandsText (-1234567) = "-1,234,567" := by decide +kernel

/-- `str.strip`. -/
def stripped (s : String) : String := String.ofList (strip s.toList)

section

variable {V : Type} [PyValue V] [PyStr V] (floats : Floats)

/-! ### Values -/

/-- `_as_number`. -/
def asNumber (value : V) : Except PyException (Option floats.Float) :=
  match PyValue.kind value with
  | .int n =>
      match floats.ofInt n with
      | some x => .ok (some x)
      | none => .error ⟨"OverflowError", "int too large to convert to float", none⟩
  | .float x => .ok (some (floats.ofNumber x))
  | .str s => .ok (floats.ofText s.toList)
  | _ => .ok none

/-- A number with its unit. -/
def numberText (label : String) (numeric : floats.Float) : Except PyException String :=
  if label ∈ currencyLabels then do
    let rounded ← floats.round numeric
    return "약 $" ++ thousandsText rounded
  else
    let plain :=
      if floats.isInteger numeric then toString (floats.toInt numeric) else floats.text numeric
    .ok (plain ++ (countUnitLabels.lookup label).getD "")

/-- `_format_metric_value`. -/
def formatMetricValue (label : String) (value : V) : Except PyException String := do
  let numeric ← asNumber floats value
  match numeric with
  | some numeric => numberText floats label numeric
  | none => PyStr.str value

/-- `_metric_clause`. -/
def metricClause (metric : V) : Except PyException String := do
  let label ← subscript metric "label"
  let label ← PyStr.str label
  let value ← subscript metric "value"
  let value ← formatMetricValue floats label value
  return label ++ topicParticle label ++ " " ++ value

variable [PyBuild V]

/-- `_item_sentence`. -/
def itemSentence (item : V) : Except PyException String := do
  let metrics ← subscript item "metrics"
  let title ← subscript item "title"
  if truthy metrics then
    let metrics ← iterate metrics
    let clauses ← each (metricClause floats) metrics
    let body := "이고, ".intercalate clauses ++ "입니다."
    if truthy title then
      let title ← PyStr.str title
      return title ++ "의 " ++ body
    else return body
  else if truthy title then PyStr.str title
  else return "(빈 항목)"

/-! ### Shared metrics -/

/-- The inner `any`: a metric with the label and the value. -/
def hasMetric (label value : V) : List V → Except PyException Bool
  | [] => .ok false
  | m :: ms => do
      let l ← subscript m "label"
      if l == label then
        let v ← subscript m "value"
        if v == value then return true else hasMetric label value ms
      else hasMetric label value ms

/-- The outer `all`. -/
def allHaveMetric (label value : V) : List V → Except PyException Bool
  | [] => .ok true
  | item :: items => do
      let metrics ← subscript item "metrics"
      let metrics ← iterate metrics
      let has ← hasMetric label value metrics
      if has then allHaveMetric label value items else return false

/-- The loop of `_shared_metrics`. -/
def sharedAmong (others : List V) : List V → Except PyException (List V)
  | [] => .ok []
  | metric :: metrics => do
      let label ← subscript metric "label"
      let value ← subscript metric "value"
      let everywhere ← allHaveMetric label value others
      let rest ← sharedAmong others metrics
      return if everywhere then metric :: rest else rest

/-- `_shared_metrics`. -/
def sharedMetrics : List V → Except PyException (List V)
  | first :: second :: others => do
      let metrics ← subscript first "metrics"
      let metrics ← iterate metrics
      sharedAmong (second :: others) metrics
  | _ => .ok []

/-- A label as an element of a set. -/
def hashed (label : V) : Except PyException V :=
  if PyValue.hashable label then .ok label
  else .error (typeError ("unhashable type: '" ++ (PyValue.kind label).typeName ++ "'"))

/-- The label of a metric, as an element of a set. -/
def hashedLabel (metric : V) : Except PyException V := do
  let label ← subscript metric "label"
  hashed label

/-- `{**item, key: value}`, for an item that is a dict. -/
def withField (item : V) (key : String) (value : V) : Except PyException V :=
  match PyValue.kind item with
  | .dict fields =>
      if (fields.map Prod.fst).contains key then
        .ok (PyBuild.ofKind (.dict (fields.map fun field =>
          if field.1 = key then (key, value) else field)))
      else .ok (PyBuild.ofKind (.dict (fields ++ [(key, value)])))
  | kind => .error (typeError ("'" ++ kind.typeName ++ "' object is not a mapping"))

/-- The metrics that `_strip_metrics` leaves. -/
def otherMetrics (labels : List V) : List V → Except PyException (List V)
  | [] => .ok []
  | m :: ms => do
      let label ← hashedLabel m
      let rest ← otherMetrics labels ms
      return if labels.any (· == label) then rest else m :: rest

/-- `_strip_metrics`. -/
def stripMetrics (labels : List V) (item : V) : Except PyException V := do
  let metrics ← subscript item "metrics"
  let metrics ← iterate metrics
  let metrics ← otherMetrics labels metrics
  withField item "metrics" (PyBuild.ofKind (.list metrics))

/-- A part of `_shared_context_line`. -/
def contextPart (metric : V) : Except PyException String := do
  let label ← subscript metric "label"
  let label ← PyStr.str label
  let value ← subscript metric "value"
  let value ← formatMetricValue floats label value
  return "**" ++ label ++ "**: " ++ value

/-- `_shared_context_line`. -/
def sharedContextLine (metrics : List V) : Except PyException String := do
  let parts ← each (contextPart floats) metrics
  return " · ".intercalate parts

/-! ### Tables and lists -/

/-- The labels of the metrics of an item, as texts. -/
def labelTexts (item : V) : Except PyException (List String) := do
  let metrics ← subscript item "metrics"
  let metrics ← iterate metrics
  each (fun m => do
    let label ← subscript m "label"
    PyStr.str label) metrics

/-- All items have the labels. -/
def allHaveLabels (labels : List String) : List V → Except PyException Bool
  | [] => .ok true
  | item :: items => do
      let itemLabels ← labelTexts item
      if itemLabels = labels then allHaveLabels labels items else return false

/-- `_same_metric_shape`. -/
def sameMetricShape : List V → Except PyException Bool
  | [] => .ok false
  | first :: items => do
      let labels ← labelTexts first
      if labels = [] then return false else allHaveLabels labels items

/-- `_escape_table_cell`. -/
def escapeTableCell (value : String) : String :=
  String.ofList (value.toList.flatMap fun c => if c = '|' then ['\\', '|'] else [c])

/-- The cell of a value. -/
def valueCell (metric : V) : Except PyException String := do
  let label ← subscript metric "label"
  let label ← PyStr.str label
  let value ← subscript metric "value"
  let value ← formatMetricValue floats label value
  return escapeTableCell value

/-- The cell of the title of an item. -/
def titleCell (item : V) : Except PyException String := do
  let title ← get item "title"
  if truthy title then
    let title ← subscript item "title"
    let title ← PyStr.str title
    return escapeTableCell title
  else return "-"

/-- A row of the table. -/
def tableRow (item : V) : Except PyException String := do
  let title ← titleCell item
  let metrics ← subscript item "metrics"
  let metrics ← iterate metrics
  let cells ← each (valueCell floats) metrics
  return "| " ++ title ++ " | " ++ " | ".intercalate cells ++ " |"

/-- The labels of the first item. -/
def firstLabels : List V → Except PyException (List String)
  | first :: _ => labelTexts first
  | [] => .error ⟨"IndexError", "list index out of range", none⟩

/-- `_render_table`. -/
def renderTable (items : List V) : Except PyException (List String) := do
  let labels ← firstLabels items
  let rows ← each (tableRow floats) items
  return ("| 항목 | " ++ " | ".intercalate labels ++ " |") ::
    ("| --- | " ++ " | ".intercalate (labels.map fun _ => "---") ++ " |") :: rows

/-- No item has metrics. -/
def noneHasMetrics : List V → Except PyException Bool
  | [] => .ok true
  | item :: items => do
      let metrics ← subscript item "metrics"
      if truthy metrics then return false else noneHasMetrics items

/-- The titles that there are, as a list. -/
def titleLines : List V → Except PyException (List String)
  | [] => .ok []
  | item :: items => do
      let title ← get item "title"
      if truthy title then
        let text ← PyStr.str title
        let rest ← titleLines items
        return ("- " ++ text) :: rest
      else titleLines items

/-- The lines for items without what they share. -/
def strippedLines (items : List V) : Except PyException (List String) := do
  let bare ← noneHasMetrics items
  if bare then titleLines items
  else
    let same ← sameMetricShape items
    if same then renderTable floats items
    else
      let sentences ← each (itemSentence floats) items
      return sentences.map fun sentence => "- " ++ sentence

/-- The items without the metrics that have one of the labels. -/
def stripItems (labels items : List V) : Except PyException (List V) :=
  if labels = [] then .ok items else each (stripMetrics labels) items

/-- The lines in front of the items, for what they share. -/
def sharedHead (shared : List V) : Except PyException (List String) :=
  if shared = [] then .ok []
  else do
    let line ← sharedContextLine floats shared
    return [line, ""]

/-- `_render_item_lines`. -/
def renderItemLines : List V → Except PyException (List String)
  | [item] => do
      let sentence ← itemSentence floats item
      return [sentence]
  | items => do
      let shared ← sharedMetrics items
      let labels ← each hashedLabel shared
      let items ← stripItems labels items
      let head ← sharedHead floats shared
      let lines ← strippedLines floats items
      return head ++ lines

/-! ### Answers -/

/-- `_summary_template`, for fields that have passed the checks. -/
def summaryTemplate (highlighted sections : V) : Except PyException String :=
  if truthy sections then do
    let sections ← iterate sections
    return "요청하신 내용을 " ++ toString sections.length ++ "개 항목으로 나누어 확인했습니다."
  else do
    let highlighted ← iterate highlighted
    match highlighted with
    | [item] => do
        let title ← subscript item "title"
        if truthy title then
          let title ← PyStr.str title
          return title ++ "의 조회 결과를 확인했습니다."
        else return "요청하신 집계 결과를 확인했습니다."
    | _ => return "요청하신 조건에 맞는 항목을 확인했습니다."

/-- `_caveat_template`. -/
def caveatTemplate (context : AnswerContext V) : Option String :=
  if context.sourceTruncated = false ∧ context.promptTruncated = false then none
  else if context.totalCountIsExact = false then
    some "일부 결과만 바탕으로 한 답변이며, 전체 건수는 정확하지 않을 수 있습니다."
  else some "일부 결과만 바탕으로 한 답변입니다."

/-- The lines of a section. -/
def sectionLines (part : V) : Except PyException (List String) := do
  let title ← subscript part "title"
  let title ← PyStr.str title
  let items ← subscript part "highlighted"
  let items ← iterate items
  let lines ← renderItemLines floats items
  return "" :: ("### " ++ title) :: lines

/-- The lines between the summary and the caveat. -/
def bodyLines (highlighted sections : V) : Except PyException (List String) :=
  if truthy sections then do
    let sections ← iterate sections
    let lines ← each (sectionLines floats) sections
    return lines.flatten
  else if truthy highlighted then do
    let items ← iterate highlighted
    let lines ← renderItemLines floats items
    return "" :: lines
  else .ok []

/-- The lines of a caveat. -/
def caveatLines : Option String → List String
  | some caveat => ["", "*" ++ stripped caveat ++ "*"]
  | none => []

/-- `_render_answer_markdown`. -/
def renderAnswerMarkdown (summary : String) (highlighted sections : V) (caveat : Option String) :
    Except PyException String := do
  let body ← bodyLines floats highlighted sections
  return stripped ("\n".intercalate (stripped summary :: (body ++ caveatLines caveat)))

/-- `_render_structured_answer` after the checks. -/
def renderChecked (parsed : Dict String V) (context : AnswerContext V) :
    Except PyException String := do
  let highlighted ← field parsed "highlighted"
  let sections ← field parsed "sections"
  let summary ← summaryTemplate highlighted sections
  renderAnswerMarkdown floats summary highlighted sections (caveatTemplate context)

end

end Answer
