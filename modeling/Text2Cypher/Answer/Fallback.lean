import Text2Cypher.Answer.Rendering

/-!
# The fallback answer

If no answer of the model is taken over, the first ten rows are rendered as they are.  The items
are built from the rows, so that they have every field that the renderer asks for; what can still
raise is the text of a value.

* `returns_renderItemLines`: items are rendered just if what is shown of them can be formatted;
* `returns_renderFallbackAnswer`: the same for the fallback answer.
-/

namespace Answer

open Checks Composition Decimal Python

section

variable {V : Type} [PyValue V]

/-! ### Items from rows -/

/-- An item before it becomes a dict. -/
structure Item (V : Type) where
  title : Option String
  metrics : List (String × V)

/-- `_FALLBACK_TITLE_KEYS`. -/
def fallbackTitleKeys : List String :=
  ["productName", "supplierName", "categoryName", "locationName", "scrapReasonName",
    "componentName", "finishedProductName", "rootProductName"]

/-- The first key under which a row has a text that is not blank, with the text. -/
def fallbackTitle (row : Dict String V) : Option (String × String) :=
  fallbackTitleKeys.findSome? fun key =>
    match (row.get? key).map PyValue.kind with
    | some (.str s) => if strip s.toList = [] then none else some (key, s)
    | _ => none

/-- `_fallback_item`. -/
def fallbackItem (row : Dict String V) : Item V :=
  let title := fallbackTitle row
  { title := title.map Prod.snd
    metrics := (row.entries.filter fun entry =>
      decide (some entry.1 ≠ title.map Prod.fst) && !isNone entry.2).map
        fun entry => (fieldLabel entry.1, entry.2) }

variable [PyBuild V]

/-- A metric as a dict. -/
def metricValue (metric : String × V) : V :=
  PyBuild.ofKind (.dict [("label", textValue metric.1), ("value", metric.2)])

/-- An item as a dict. -/
def Item.toValue (item : Item V) : V :=
  PyBuild.ofKind (.dict [("title", match item.title with
    | some title => textValue title
    | none => noneValue), ("metrics", PyBuild.ofKind (.list (item.metrics.map metricValue)))])

/-- `_row_pool`, for a composed result. -/
def resultRowPool (composed : Composed V) : List (Dict String V) :=
  if composed.sections.entries.isEmpty then composed.rows
  else composed.sections.values.flatMap Section.rows

/-- The items of the fallback answer. -/
def fallbackItems (composed : Composed V) : List (Item V) :=
  ((resultRowPool composed).take 10).map fallbackItem

variable [PyStr V] (floats : Floats)

/-- The lines of the items, if there are any. -/
def fallbackLines (items : List (Item V)) : Except PyException (List String) :=
  if items.isEmpty then .ok []
  else do
    let lines ← renderItemLines floats (items.map Item.toValue)
    return "" :: lines

/-- `_render_fallback_answer`. -/
def renderFallbackAnswer (composed : Composed V) : Except PyException String := do
  let lines ← fallbackLines floats (fallbackItems composed)
  let caveat :=
    if composed.truncated = true ∨ 10 < (resultRowPool composed).length then
      ["", "*일부 결과만 바탕으로 한 답변입니다.*"]
    else []
  return stripped ("\n".intercalate ("요청하신 조회 결과입니다." :: (lines ++ caveat)))

/-! ### What is shown of items -/

/-- Two metrics with the same label. -/
def sameLabel (a b : String × V) : Bool := (textValue a.1 : V) == textValue b.1

/-- The metrics that all items have. -/
def Item.shared : List (Item V) → List (String × V)
  | first :: second :: others => first.metrics.filter fun metric =>
      (second :: others).all fun item => item.metrics.any fun m => sameLabel m metric && m.2 == metric.2
  | _ => []

/-- An item without the metrics that have the label of a shared one. -/
def Item.without (shared : List (String × V)) (item : Item V) : Item V :=
  { item with metrics := item.metrics.filter fun m => !shared.any fun metric => sameLabel metric m }

/-- The metrics that are shown: those that all items have once, and the others for each item. -/
def shownMetrics : List (Item V) → List (String × V)
  | [item] => item.metrics
  | items => Item.shared items ++ items.flatMap fun item => (item.without (Item.shared items)).metrics

/-- **A value can be formatted**: an integer is not too large for a float, a price is finite, and
what is no number has a `str`. -/
def Formattable (label : String) (value : V) : Prop :=
  match PyValue.kind value with
  | .int n => n.natAbs < floatOverflow
  | .float x => label ∈ currencyLabels → numberValue x ≠ none
  | .str s => label ∈ currencyLabels → ∀ x, floats.ofText s.toList = some x →
      floats.isFinite x = true
  | _ => Returns (PyStr.str value)

/-! ### Reading items back -/

section

omit [PyStr V]

@[simp] theorem kind_textValue (s : String) : PyValue.kind (textValue s : V) = .str s :=
  PyBuild.kind_ofKind _

@[simp] theorem iterate_list (items : List V) :
    iterate (PyBuild.ofKind (.list items) : V) = .ok items := by
  rw [iterate, PyBuild.kind_ofKind]

@[simp] theorem truthy_list (items : List V) :
    truthy (PyBuild.ofKind (.list items) : V) = !items.isEmpty := by
  rw [truthy, PyBuild.kind_ofKind]

@[simp] theorem label_metricValue (metric : String × V) :
    subscript (metricValue metric) "label" = .ok (textValue metric.1) := by
  rw [subscript, metricValue, PyBuild.kind_ofKind]
  rfl

@[simp] theorem value_metricValue (metric : String × V) :
    subscript (metricValue metric) "value" = .ok metric.2 := by
  rw [subscript, metricValue, PyBuild.kind_ofKind]
  rfl

@[simp] theorem metrics_toValue (item : Item V) :
    subscript item.toValue "metrics" = .ok (PyBuild.ofKind (.list (item.metrics.map metricValue))) := by
  rw [subscript, Item.toValue, PyBuild.kind_ofKind]
  rfl

/-- The title of an item. -/
def Item.titleValue (item : Item V) : V :=
  match item.title with
  | some title => textValue title
  | none => noneValue

@[simp] theorem title_toValue (item : Item V) :
    subscript item.toValue "title" = .ok item.titleValue := by
  rw [subscript, Item.toValue, PyBuild.kind_ofKind]
  rfl

@[simp] theorem get_title_toValue (item : Item V) : get item.toValue "title" = .ok item.titleValue := by
  rw [get, getOr, Item.toValue, PyBuild.kind_ofKind]
  rfl

end

theorem returns_str_title {item : Item V} (h : truthy item.titleValue = true) :
    ∃ title, PyStr.str item.titleValue = .ok title := by
  unfold Item.titleValue at h ⊢
  cases htitle : item.title with
  | some title => exact ⟨title, PyStr.str_text (kind_textValue title)⟩
  | none =>
    rw [htitle] at h
    simp [truthy, noneValue, PyBuild.kind_ofKind] at h

@[simp] theorem str_textValue (s : String) : PyStr.str (textValue s : V) = .ok s :=
  PyStr.str_text (kind_textValue s)

/-! ### Formatting -/

variable {floats}

theorem returns_numberText {label : String} {x : floats.Float} :
    Returns (numberText floats label x) ↔ (label ∈ currencyLabels → floats.isFinite x = true) := by
  unfold numberText
  by_cases hlabel : label ∈ currencyLabels
  · rw [if_pos hlabel, returns_bind_of_forall fun _ => returns_pure _]
    have hround : Returns (floats.round x) ↔ floats.isFinite x = true := floats.round_finite x
    rw [hround]
    exact ⟨fun h _ => h, fun h => h hlabel⟩
  · rw [if_neg hlabel]
    exact iff_of_true (returns_ok _) fun h => absurd h hlabel

omit [PyBuild V] in
theorem returns_formatMetricValue {label : String} {value : V} :
    Returns (formatMetricValue floats label value) ↔ Formattable floats label value := by
  unfold formatMetricValue Formattable asNumber
  cases hkind : PyValue.kind value with
  | int n =>
    have hlarge := floats.ofInt_eq_none n
    cases hx : floats.ofInt n with
    | none =>
      have hn : ¬ n.natAbs < floatOverflow := by
        have := hlarge.1 hx
        omega
      exact iff_of_false (by simp [hx, error_bind]) hn
    | some x =>
      have hn : n.natAbs < floatOverflow := by
        by_contra hge
        rw [hlarge.2 (by omega)] at hx
        cases hx
      simp only [hx, ok_bind]
      exact iff_of_true (returns_numberText.2 fun _ => floats.isFinite_ofInt hx) hn
  | float x =>
    simp only [ok_bind]
    rw [returns_numberText, floats.isFinite_ofNumber]
  | str s =>
    simp only [ok_bind]
    cases hx : floats.ofText s.toList with
    | none =>
      exact iff_of_true ⟨s, PyStr.str_text hkind⟩ fun _ x hx' => by cases hx'
    | some x =>
      show Returns (numberText floats label x) ↔ _
      rw [returns_numberText]
      exact forall_congr' fun _ => ⟨fun h y hy => Option.some.inj hy ▸ h, fun h => h x rfl⟩
  | none => exact Iff.rfl
  | bool b => exact Iff.rfl
  | decimal x => exact Iff.rfl
  | list items => exact Iff.rfl
  | dict fields => exact Iff.rfl
  | other => exact Iff.rfl

/-- Some text around the value of a metric. -/
theorem returns_around {metric : String × V} {f : String → String → String} :
    Returns (do
      let label ← subscript (metricValue metric) "label"
      let label ← PyStr.str label
      let value ← subscript (metricValue metric) "value"
      let value ← formatMetricValue floats label value
      return f label value) ↔ Formattable floats metric.1 metric.2 := by
  simp only [label_metricValue, value_metricValue, ok_bind, str_textValue]
  rw [returns_bind_of_forall fun _ => returns_pure _, returns_formatMetricValue]

theorem returns_metricClause {metric : String × V} :
    Returns (metricClause floats (metricValue metric)) ↔ Formattable floats metric.1 metric.2 :=
  returns_around

theorem returns_contextPart {metric : String × V} :
    Returns (contextPart floats (metricValue metric)) ↔ Formattable floats metric.1 metric.2 :=
  returns_around

theorem returns_valueCell {metric : String × V} :
    Returns (valueCell floats (metricValue metric)) ↔ Formattable floats metric.1 metric.2 :=
  returns_around

/-- A loop over metrics returns if every value can be formatted. -/
theorem returns_each_metric {f : V → Except PyException String} {metrics : List (String × V)}
    (h : ∀ {metric : String × V},
      Returns (f (metricValue metric)) ↔ Formattable floats metric.1 metric.2) :
    Returns (each f (metrics.map metricValue)) ↔
      ∀ metric ∈ metrics, Formattable floats metric.1 metric.2 := by
  rw [returns_each, List.forall_mem_map]
  exact forall₂_congr fun _ _ => h

theorem returns_itemSentence {item : Item V} :
    Returns (itemSentence floats item.toValue) ↔
      ∀ metric ∈ item.metrics, Formattable floats metric.1 metric.2 := by
  unfold itemSentence
  simp only [metrics_toValue, title_toValue, ok_bind, truthy_list, iterate_list]
  by_cases hempty : item.metrics = []
  · simp only [hempty, List.map_nil, List.isEmpty_nil, Bool.not_true, Bool.false_eq_true, if_false]
    refine iff_of_true ?_ (by simp)
    by_cases htitle : truthy item.titleValue = true
    · rw [if_pos htitle]
      exact returns_str_title htitle
    · rw [if_neg htitle]
      exact returns_pure _
  · have hne : (!(item.metrics.map metricValue).isEmpty) = true := by simp [hempty]
    rw [if_pos hne, ← returns_each_metric (f := metricClause floats) returns_metricClause]
    refine returns_bind_of_forall fun clauses => ?_
    by_cases htitle : truthy item.titleValue = true
    · rw [if_pos htitle]
      obtain ⟨title, hstr⟩ := returns_str_title htitle
      rw [hstr, ok_bind]
      exact returns_pure _
    · rw [if_neg htitle]
      exact returns_pure _

/-! ### Shared metrics -/

omit [PyStr V] in
theorem hasMetric_map (label : String) (value : V) (metrics : List (String × V)) :
    hasMetric (textValue label) value (metrics.map metricValue) =
      .ok (metrics.any fun m => (textValue m.1 : V) == textValue label && m.2 == value) := by
  induction metrics with
  | nil => rfl
  | cons m metrics ih =>
    rw [List.map_cons, hasMetric, label_metricValue, value_metricValue, ok_bind, ih, List.any_cons]
    by_cases hlabel : ((textValue m.1 : V) == textValue label) = true
    · by_cases hvalue : (m.2 == value) = true
      · simp only [hlabel, hvalue, if_true, ok_bind, Bool.and_true, Bool.true_or]
        rfl
      · simp [hlabel, hvalue, ok_bind]
    · simp [hlabel]

omit [PyStr V] in
theorem allHaveMetric_map (metric : String × V) (items : List (Item V)) :
    allHaveMetric (textValue metric.1) metric.2 (items.map Item.toValue) =
      .ok (items.all fun item => item.metrics.any fun m => sameLabel m metric && m.2 == metric.2) := by
  induction items with
  | nil => rfl
  | cons item items ih =>
    rw [List.map_cons, allHaveMetric, metrics_toValue, ok_bind, iterate_list, ok_bind,
      hasMetric_map, ok_bind, ih, List.all_cons]
    show (if (item.metrics.any fun m => sameLabel m metric && m.2 == metric.2) = true then _ else _) = _
    by_cases hany : (item.metrics.any fun m => sameLabel m metric && m.2 == metric.2) = true
    · rw [if_pos hany, hany, Bool.true_and]
    · rw [if_neg hany, Bool.eq_false_iff.2 hany, Bool.false_and]
      rfl

omit [PyStr V] in
theorem sharedAmong_map (others : List (Item V)) (metrics : List (String × V)) :
    sharedAmong (others.map Item.toValue) (metrics.map metricValue) =
      .ok ((metrics.filter fun metric => others.all fun item =>
        item.metrics.any fun m => sameLabel m metric && m.2 == metric.2).map metricValue) := by
  induction metrics with
  | nil => rfl
  | cons metric metrics ih =>
    rw [List.map_cons, sharedAmong, label_metricValue, value_metricValue, ok_bind, ok_bind,
      allHaveMetric_map, ok_bind, ih, ok_bind, List.filter_cons]
    split_ifs <;> rfl

omit [PyStr V] in
theorem sharedMetrics_map (items : List (Item V)) :
    sharedMetrics (items.map Item.toValue) = .ok ((Item.shared items).map metricValue) := by
  match items with
  | [] => rfl
  | [item] => rfl
  | first :: second :: others =>
    rw [List.map_cons, List.map_cons, sharedMetrics, metrics_toValue, ok_bind, iterate_list,
      ok_bind, ← List.map_cons, sharedAmong_map]
    rfl

theorem hashedLabel_metricValue (metric : String × V) :
    hashedLabel (metricValue metric) = .ok (textValue metric.1) := by
  rw [hashedLabel, label_metricValue, ok_bind, hashed,
    if_pos (PyStr.hashable_text (kind_textValue metric.1))]

theorem otherMetrics_map (shared metrics : List (String × V)) :
    otherMetrics (shared.map fun metric => textValue metric.1) (metrics.map metricValue) =
      .ok ((metrics.filter fun m => !shared.any fun metric => sameLabel metric m).map
        metricValue) := by
  induction metrics with
  | nil => rfl
  | cons m metrics ih =>
    have hany : ((shared.map fun metric => (textValue metric.1 : V)).any
        (· == textValue m.1)) = shared.any fun metric => sameLabel metric m := by
      rw [List.any_map]
      rfl
    rw [List.map_cons, otherMetrics, hashedLabel_metricValue, ok_bind, ih, ok_bind, hany,
      List.filter_cons]
    by_cases hshared : (shared.any fun metric => sameLabel metric m) = true
    · simp only [hshared, if_true, Bool.not_true, Bool.false_eq_true, if_false]
      rfl
    · simp only [hshared, Bool.false_eq_true, if_false, Bool.not_false, if_true]
      rfl

theorem stripMetrics_toValue (shared : List (String × V)) (item : Item V) :
    stripMetrics (shared.map fun metric => textValue metric.1) item.toValue =
      .ok (item.without shared).toValue := by
  rw [stripMetrics, metrics_toValue, ok_bind, iterate_list, ok_bind, otherMetrics_map, ok_bind,
    withField, Item.toValue, PyBuild.kind_ofKind]
  rfl

/-- What is left of the items. -/
theorem stripItems_map (items : List (Item V)) :
    stripItems ((Item.shared items).map fun metric => textValue metric.1)
      (items.map Item.toValue) =
        .ok ((items.map (Item.without (Item.shared items))).map Item.toValue) := by
  unfold stripItems
  by_cases hshared : Item.shared items = []
  · have hwithout : items.map (Item.without []) = items := by
      have hid : (Item.without [] : Item V → Item V) = id := by
        funext item
        simp [Item.without]
      rw [hid, List.map_id]
    rw [hshared, List.map_nil, if_pos rfl, hwithout]
  · rw [if_neg (by simpa using hshared), each_map_left, List.map_map]
    exact each_eq_map fun item _ => stripMetrics_toValue _ item

/-! ### Lines -/

theorem returns_sharedHead {shared : List (String × V)} :
    Returns (sharedHead floats (shared.map metricValue)) ↔
      ∀ metric ∈ shared, Formattable floats metric.1 metric.2 := by
  unfold sharedHead
  by_cases hshared : shared = []
  · rw [hshared, List.map_nil, if_pos rfl]
    exact iff_of_true (returns_ok _) (by simp)
  · rw [if_neg (by simpa using hshared), returns_bind_of_forall fun _ => returns_pure _,
      sharedContextLine, returns_bind_of_forall fun _ => returns_pure _]
    exact returns_each_metric returns_contextPart

theorem labelTexts_toValue (item : Item V) :
    labelTexts item.toValue = .ok (item.metrics.map Prod.fst) := by
  rw [labelTexts, metrics_toValue, ok_bind, iterate_list, ok_bind]
  have hlabels : ∀ metrics : List (String × V), each (fun m => do
      let label ← subscript m "label"
      PyStr.str label) (metrics.map metricValue) = .ok (metrics.map Prod.fst) := by
    intro metrics
    have hnumbered : ∀ n, numbered (fun _ m => do
        let label ← subscript m "label"
        PyStr.str label) n (metrics.map metricValue) = .ok (metrics.map Prod.fst) := by
      induction metrics with
      | nil => exact fun _ => rfl
      | cons metric metrics ih =>
        intro n
        rw [List.map_cons, numbered, label_metricValue, ok_bind, str_textValue, ok_bind, ih, ok_bind]
        rfl
    exact hnumbered 0
  exact hlabels item.metrics

theorem returns_sameMetricShape (items : List (Item V)) :
    Returns (sameMetricShape (items.map Item.toValue)) := by
  have hall : ∀ (labels : List String) (items : List (Item V)),
      Returns (allHaveLabels labels (items.map Item.toValue)) := by
    intro labels items
    induction items with
    | nil => exact returns_ok _
    | cons item items ih =>
      rw [List.map_cons, allHaveLabels, labelTexts_toValue, ok_bind]
      split_ifs
      · exact ih
      · exact returns_pure _
  cases items with
  | nil => exact returns_ok _
  | cons item items =>
    rw [List.map_cons, sameMetricShape, labelTexts_toValue, ok_bind]
    split_ifs
    · exact returns_pure _
    · exact hall _ items

omit [PyStr V] in
theorem noneHasMetrics_map (items : List (Item V)) :
    noneHasMetrics (items.map Item.toValue) =
      .ok (decide (∀ item ∈ items, item.metrics = [])) := by
  induction items with
  | nil => rfl
  | cons item items ih =>
    rw [List.map_cons, noneHasMetrics, metrics_toValue, ok_bind, truthy_list, ih]
    by_cases hempty : item.metrics = []
    · simp [hempty]
    · simp [hempty, pure, Except.pure]

theorem returns_titleLines (items : List (Item V)) :
    Returns (titleLines (items.map Item.toValue)) := by
  induction items with
  | nil => exact returns_ok _
  | cons item items ih =>
    rw [List.map_cons, titleLines, get_title_toValue, ok_bind]
    by_cases htitle : truthy item.titleValue = true
    · obtain ⟨title, hstr⟩ := returns_str_title htitle
      rw [if_pos htitle, hstr, ok_bind, returns_bind_of_forall fun _ => returns_pure _]
      exact ih
    · rw [if_neg htitle]
      exact ih

theorem returns_tableRow {item : Item V} :
    Returns (tableRow floats item.toValue) ↔
      ∀ metric ∈ item.metrics, Formattable floats metric.1 metric.2 := by
  have hcell : Returns (titleCell item.toValue) := by
    rw [titleCell, get_title_toValue, ok_bind]
    by_cases htitle : truthy item.titleValue = true
    · obtain ⟨title, hstr⟩ := returns_str_title htitle
      rw [if_pos htitle, title_toValue, ok_bind, hstr, ok_bind]
      exact returns_pure _
    · rw [if_neg htitle]
      exact returns_pure _
  obtain ⟨cell, hcell⟩ := hcell
  rw [tableRow, hcell, ok_bind, metrics_toValue, ok_bind, iterate_list, ok_bind,
    returns_bind_of_forall fun _ => returns_pure _]
  exact returns_each_metric returns_valueCell

theorem returns_each_item {f : V → Except PyException String} {items : List (Item V)}
    (h : ∀ {item : Item V}, Returns (f item.toValue) ↔
      ∀ metric ∈ item.metrics, Formattable floats metric.1 metric.2) :
    Returns (each f (items.map Item.toValue)) ↔
      ∀ item ∈ items, ∀ metric ∈ item.metrics, Formattable floats metric.1 metric.2 := by
  rw [returns_each, List.forall_mem_map]
  exact forall₂_congr fun _ _ => h

theorem returns_strippedLines {items : List (Item V)} :
    Returns (strippedLines floats (items.map Item.toValue)) ↔
      ∀ item ∈ items, ∀ metric ∈ item.metrics, Formattable floats metric.1 metric.2 := by
  rw [strippedLines, noneHasMetrics_map, ok_bind]
  by_cases hbare : ∀ item ∈ items, item.metrics = []
  · rw [decide_eq_true hbare, if_pos rfl]
    refine iff_of_true (returns_titleLines items) fun item hitem metric hmetric => ?_
    rw [hbare item hitem] at hmetric
    cases hmetric
  · obtain ⟨same, hsame⟩ := returns_sameMetricShape items
    rw [decide_eq_false hbare, if_neg Bool.false_ne_true, hsame, ok_bind]
    cases same with
    | true =>
      rw [if_pos rfl, renderTable]
      have hfirst : Returns (firstLabels (items.map Item.toValue)) := by
        cases items with
        | nil => exact absurd (by simp) hbare
        | cons item items => exact ⟨_, labelTexts_toValue item⟩
      obtain ⟨labels, hlabels⟩ := hfirst
      rw [hlabels, ok_bind, returns_bind_of_forall fun _ => returns_pure _]
      exact returns_each_item returns_tableRow
    | false =>
      rw [if_neg Bool.false_ne_true, returns_bind_of_forall fun _ => returns_pure _]
      exact returns_each_item returns_itemSentence

/-- Several items: what they share, and what is left of them. -/
theorem returns_manyItems (items : List (Item V)) :
    Returns (do
      let shared ← sharedMetrics (items.map Item.toValue)
      let labels ← each hashedLabel shared
      let items ← stripItems labels (items.map Item.toValue)
      let head ← sharedHead floats shared
      let lines ← strippedLines floats items
      return head ++ lines) ↔
        ∀ metric ∈ Item.shared items ++
          items.flatMap fun item => (item.without (Item.shared items)).metrics,
            Formattable floats metric.1 metric.2 := by
  have hlabels : each hashedLabel ((Item.shared items).map metricValue) =
      .ok (((Item.shared items).map metricValue).map fun v =>
        (subscript v "label").toOption.getD v) := by
    refine each_eq_map fun v hv => ?_
    obtain ⟨metric, -, rfl⟩ := List.mem_map.1 hv
    rw [hashedLabel_metricValue, label_metricValue]
    rfl
  have hmap : (((Item.shared items).map metricValue).map fun v =>
      (subscript v "label").toOption.getD v) =
        (Item.shared items).map fun metric => textValue metric.1 := by
    rw [List.map_map]
    refine List.map_congr_left fun metric _ => ?_
    show (subscript (metricValue metric) "label").toOption.getD _ = _
    rw [label_metricValue]
    rfl
  rw [sharedMetrics_map, ok_bind, hlabels, hmap, ok_bind, stripItems_map, ok_bind, returns_bind]
  constructor
  · rintro ⟨head, hhead, hlines⟩ metric hmetric
    rw [returns_bind_of_forall fun _ => returns_pure _, returns_strippedLines,
      List.forall_mem_map] at hlines
    rcases List.mem_append.1 hmetric with hshared | hrest
    · exact returns_sharedHead.1 ⟨head, hhead⟩ metric hshared
    · obtain ⟨item, hitem, hmem⟩ := List.mem_flatMap.1 hrest
      exact hlines item hitem metric hmem
  · intro h
    obtain ⟨head, hhead⟩ := returns_sharedHead.2 fun metric hmetric =>
      h metric (List.mem_append_left _ hmetric)
    refine ⟨head, hhead, ?_⟩
    rw [returns_bind_of_forall fun _ => returns_pure _, returns_strippedLines, List.forall_mem_map]
    exact fun item hitem metric hmetric =>
      h metric (List.mem_append_right _ (List.mem_flatMap.2 ⟨item, hitem, hmetric⟩))

/-- **Items are rendered** just if what is shown of them can be formatted. -/
theorem returns_renderItemLines {items : List (Item V)} :
    Returns (renderItemLines floats (items.map Item.toValue)) ↔
      ∀ metric ∈ shownMetrics items, Formattable floats metric.1 metric.2 := by
  match items with
  | [] => exact returns_manyItems []
  | [item] =>
    show Returns (itemSentence floats item.toValue >>= fun sentence => pure [sentence]) ↔ _
    rw [returns_bind_of_forall fun _ => returns_pure _]
    exact returns_itemSentence
  | first :: second :: others => exact returns_manyItems (first :: second :: others)

/-- **The fallback answer is rendered** just if what it shows can be formatted. -/
theorem returns_renderFallbackAnswer {composed : Composed V} :
    Returns (renderFallbackAnswer floats composed) ↔
      ∀ metric ∈ shownMetrics (fallbackItems composed), Formattable floats metric.1 metric.2 := by
  rw [renderFallbackAnswer, returns_bind_of_forall fun _ => returns_pure _, fallbackLines]
  by_cases hempty : fallbackItems composed = []
  · rw [hempty, List.isEmpty_nil, if_pos rfl]
    exact iff_of_true (returns_ok _) (by simp [shownMetrics, Item.shared])
  · rw [if_neg (by simpa using hempty), returns_bind_of_forall fun _ => returns_pure _]
    exact returns_renderItemLines

end

end Answer
