import Text2Cypher.Answer.Fallback

/-!
# Pages

The renderer of items takes their values as texts and puts these together.  A page is what is left
when the two are kept apart: the pairs of labels and texts that all items share, and those of every
single item.

* **`renderItemLines_eq`**: the lines of some items are those of their page.
-/

namespace Answer

open Checks Composition Decimal Python

/-! ### The lines of a page -/

/-- What a page shows of an item. -/
structure Entry where
  title : Option String
  pairs : List (String × String)

/-- What is shown of items: the pairs that they share, and their own. -/
structure Page where
  shared : List (String × String)
  entries : List Entry

/-- A title that is not empty. -/
def Entry.shownTitle (entry : Entry) : Option String := entry.title.filter (· ≠ "")

/-- The line for an entry in a list. -/
def Entry.sentence (entry : Entry) : String :=
  if entry.pairs = [] then entry.shownTitle.getD "(빈 항목)"
  else
    let body := "이고, ".intercalate
      (entry.pairs.map fun pair => pair.1 ++ topicParticle pair.1 ++ " " ++ pair.2) ++ "입니다."
    match entry.shownTitle with
    | some title => title ++ "의 " ++ body
    | none => body

/-- The cell for the title of an entry. -/
def Entry.titleText (entry : Entry) : String := entry.shownTitle.getD "-"

/-- The line for an entry in a table. -/
def Entry.row (entry : Entry) : String :=
  "| " ++ escapeTableCell entry.titleText ++ " | " ++
    " | ".intercalate (entry.pairs.map fun pair => escapeTableCell pair.2) ++ " |"

/-- The labels of an entry. -/
def Entry.labels (entry : Entry) : List String := entry.pairs.map Prod.fst

/-- There are labels, the same in every list. -/
def SameLabels (lists : List (List String)) : Prop :=
  lists.headD [] ≠ [] ∧ ∀ labels ∈ lists, labels = lists.headD []

instance (lists : List (List String)) : Decidable (SameLabels lists) := by
  unfold SameLabels
  infer_instance

/-- The labels of the first entry. -/
def tableLabels (entries : List Entry) : List String := (entries.map Entry.labels).headD []

/-- The entries are shown as a table. -/
def Tabular (entries : List Entry) : Prop := SameLabels (entries.map Entry.labels)

instance (entries : List Entry) : Decidable (Tabular entries) := by
  unfold Tabular
  infer_instance

/-- The lines of a table. -/
def tableLines (entries : List Entry) : List String :=
  ("| 항목 | " ++ " | ".intercalate (tableLabels entries) ++ " |") ::
    ("| --- | " ++ " | ".intercalate ((tableLabels entries).map fun _ => "---") ++ " |") ::
      entries.map Entry.row

/-- The lines of the entries. -/
def entryLines (entries : List Entry) : List String :=
  if ∀ entry ∈ entries, entry.pairs = [] then
    entries.filterMap fun entry => entry.shownTitle.map ("- " ++ ·)
  else if Tabular entries then tableLines entries
  else entries.map fun entry => "- " ++ entry.sentence

/-- The lines for what the items share. -/
def contextLines (shared : List (String × String)) : List String :=
  if shared = [] then []
  else [" · ".intercalate (shared.map fun pair => "**" ++ pair.1 ++ "**: " ++ pair.2), ""]

/-- The lines of a page. -/
def Page.lines (page : Page) : List String :=
  match page.entries with
  | [entry] => [entry.sentence]
  | entries => contextLines page.shared ++ entryLines entries

/-! ### The page of some items -/

section

variable {V : Type} [PyValue V] [PyStr V] (floats : Floats)

/-- A label and the text of its value. -/
def textPair (metric : String × V) : Except PyException (String × String) :=
  (formatMetricValue floats metric.1 metric.2).map (Prod.mk metric.1)

/-- An item with the texts of its values. -/
def entryOf (item : Item V) : Except PyException Entry :=
  (each (textPair floats) item.metrics).map (Entry.mk item.title)

/-- The labels of an item. -/
def Item.labels (item : Item V) : List String := item.metrics.map Prod.fst

variable [PyBuild V]

/-- The items without what they share. -/
def ownItems (items : List (Item V)) : List (Item V) := items.map (Item.without (Item.shared items))

/-- The page of some items. -/
def pageOf (items : List (Item V)) : Except PyException Page := do
  let shared ← each (textPair floats) (Item.shared items)
  let entries ← each (entryOf floats) (ownItems items)
  return ⟨shared, entries⟩

variable {floats}

/-! ### Rendering -/

/-- A text made of a label and a value. -/
theorem around_eq {metric : String × V} {f : String → String → String} :
    (do
      let label ← subscript (metricValue metric) "label"
      let label ← PyStr.str label
      let value ← subscript (metricValue metric) "value"
      let value ← formatMetricValue floats label value
      return f label value) = (textPair floats metric).map fun pair => f pair.1 pair.2 := by
  simp only [label_metricValue, value_metricValue, ok_bind, str_textValue, textPair]
  cases formatMetricValue floats metric.1 metric.2 <;> rfl

theorem each_around {f : V → Except PyException String} {g : String × String → String}
    (h : ∀ metric : String × V, f (metricValue metric) = (textPair floats metric).map g)
    (metrics : List (String × V)) :
    each f (metrics.map metricValue) = (each (textPair floats) metrics).map (List.map g) := by
  rw [each_map_left, each_congr fun metric _ => h metric, each_map]

omit [PyStr V] in
/-- The title of an item, as the renderer asks for it. -/
theorem shownTitle_eq (item : Item V) (pairs : List (String × String)) :
    (Entry.mk item.title pairs).shownTitle =
      if truthy item.titleValue then item.title else none := by
  unfold Entry.shownTitle Item.titleValue
  cases item.title with
  | none => simp [truthy, noneValue, PyBuild.kind_ofKind]
  | some title =>
    by_cases hempty : title = ""
    · simp [truthy, hempty]
    · simp [truthy, hempty]

theorem str_title {item : Item V} (h : truthy item.titleValue = true) :
    ∃ title, item.title = some title ∧ PyStr.str item.titleValue = .ok title := by
  unfold Item.titleValue at h ⊢
  cases htitle : item.title with
  | some title => exact ⟨title, rfl, str_textValue title⟩
  | none =>
    rw [htitle] at h
    simp [truthy, noneValue, PyBuild.kind_ofKind] at h

theorem itemSentence_toValue (item : Item V) :
    itemSentence floats item.toValue = (entryOf floats item).map Entry.sentence := by
  unfold itemSentence entryOf
  simp only [metrics_toValue, title_toValue, ok_bind, truthy_list, iterate_list]
  by_cases hempty : item.metrics = []
  · have hnone : each (textPair floats) item.metrics = .ok [] := by rw [hempty]; rfl
    rw [hnone, hempty]
    show (if truthy item.titleValue then PyStr.str item.titleValue else pure "(빈 항목)") =
      .ok (Entry.mk item.title []).sentence
    rw [Entry.sentence, if_pos rfl, shownTitle_eq]
    by_cases htitle : truthy item.titleValue = true
    · obtain ⟨title, htext, hstr⟩ := str_title htitle
      rw [if_pos htitle, if_pos htitle, hstr, htext]
      rfl
    · rw [if_neg htitle, if_neg htitle]
      rfl
  · have hne : (!(item.metrics.map metricValue).isEmpty) = true := by simp [hempty]
    rw [if_pos hne, each_around (fun _ => around_eq) item.metrics]
    cases hpairs : each (textPair floats) item.metrics with
    | error exception => rfl
    | ok pairs =>
      have hlength := (forall₂_of_each hpairs).length_eq
      have hpairsNe : pairs ≠ [] := by
        rintro rfl
        exact hempty (List.length_eq_zero_iff.1 hlength)
      show (if truthy item.titleValue then _ else _) = Except.ok (Entry.mk item.title pairs).sentence
      rw [Entry.sentence, if_neg hpairsNe, shownTitle_eq]
      by_cases htitle : truthy item.titleValue = true
      · obtain ⟨title, htext, hstr⟩ := str_title htitle
        rw [if_pos htitle, if_pos htitle, hstr, htext]
        rfl
      · rw [if_neg htitle, if_neg htitle]
        rfl

theorem titleCell_toValue (item : Item V) (pairs : List (String × String)) :
    titleCell item.toValue = .ok (escapeTableCell (Entry.mk item.title pairs).titleText) := by
  rw [titleCell, get_title_toValue, ok_bind, Entry.titleText, shownTitle_eq]
  by_cases htitle : truthy item.titleValue = true
  · obtain ⟨title, htext, hstr⟩ := str_title htitle
    rw [if_pos htitle, if_pos htitle, title_toValue, ok_bind, hstr, htext]
    rfl
  · rw [if_neg htitle, if_neg htitle]
    rfl

theorem tableRow_toValue (item : Item V) :
    tableRow floats item.toValue = (entryOf floats item).map Entry.row := by
  rw [tableRow, titleCell_toValue item [], ok_bind, metrics_toValue, ok_bind, iterate_list,
    ok_bind, each_around (g := fun pair => escapeTableCell pair.2) (fun _ => around_eq), entryOf]
  cases each (textPair floats) item.metrics <;> rfl

theorem sharedHead_map (shared : List (String × V)) :
    sharedHead floats (shared.map metricValue) =
      (each (textPair floats) shared).map contextLines := by
  unfold sharedHead
  by_cases hempty : shared = []
  · rw [hempty]
    rfl
  · rw [if_neg (by simpa using hempty), sharedContextLine,
      each_around (g := fun pair => "**" ++ pair.1 ++ "**: " ++ pair.2) fun _ => around_eq]
    cases hpairs : each (textPair floats) shared with
    | error exception => rfl
    | ok pairs =>
      have hlength := (forall₂_of_each hpairs).length_eq
      have hpairsNe : pairs ≠ [] := by
        rintro rfl
        exact hempty (List.length_eq_zero_iff.1 hlength)
      show _ = Except.ok (contextLines pairs)
      rw [contextLines, if_neg hpairsNe]
      rfl

/-! ### Layouts -/

omit [PyBuild V] in
theorem fst_of_textPairs {metrics : List (String × V)} {pairs : List (String × String)}
    (h : each (textPair floats) metrics = .ok pairs) : pairs.map Prod.fst = metrics.map Prod.fst := by
  have hall := forall₂_of_each h
  clear h
  induction hall with
  | nil => rfl
  | @cons metric pair metrics pairs hpair _ ih =>
    rw [List.map_cons, List.map_cons, ih]
    congr 1
    unfold textPair at hpair
    cases hvalue : formatMetricValue floats metric.1 metric.2 with
    | error exception =>
      rw [hvalue] at hpair
      cases hpair
    | ok value =>
      rw [hvalue] at hpair
      rw [← Except.ok.inj hpair]

omit [PyBuild V] in
/-- An item and its entry. -/
theorem entryOf_eq_ok {item : Item V} {entry : Entry} :
    entryOf floats item = .ok entry ↔
      entry.title = item.title ∧ each (textPair floats) item.metrics = .ok entry.pairs := by
  unfold entryOf
  cases each (textPair floats) item.metrics with
  | error exception => exact iff_of_false nofun nofun
  | ok pairs =>
    obtain ⟨title, pairs'⟩ := entry
    constructor
    · intro h
      obtain ⟨rfl, rfl⟩ := Entry.mk.inj (Except.ok.inj h)
      exact ⟨rfl, rfl⟩
    · rintro ⟨rfl, h⟩
      obtain rfl := Except.ok.inj h
      rfl

theorem allHaveLabels_map (labels : List String) (items : List (Item V)) :
    allHaveLabels labels (items.map Item.toValue) =
      .ok (decide (∀ item ∈ items, item.labels = labels)) := by
  induction items with
  | nil => rfl
  | cons item items ih =>
    rw [List.map_cons, allHaveLabels, labelTexts_toValue, ok_bind, ih]
    by_cases hlabels : item.labels = labels
    · simp [hlabels, show item.metrics.map Prod.fst = labels from hlabels]
    · simp [hlabels, show item.metrics.map Prod.fst ≠ labels from hlabels, pure, Except.pure]

theorem titleLines_map (items : List (Item V)) :
    titleLines (items.map Item.toValue) = .ok (items.filterMap fun item =>
      (Entry.mk item.title []).shownTitle.map ("- " ++ ·)) := by
  induction items with
  | nil => rfl
  | cons item items ih =>
    rw [List.map_cons, titleLines, get_title_toValue, ok_bind, ih, List.filterMap_cons,
      shownTitle_eq]
    by_cases htitle : truthy item.titleValue = true
    · obtain ⟨title, htext, hstr⟩ := str_title htitle
      rw [if_pos htitle, if_pos htitle, hstr, htext]
      rfl
    · rw [if_neg htitle, if_neg htitle]
      rfl

theorem sameMetricShape_map (items : List (Item V)) :
    sameMetricShape (items.map Item.toValue) =
      .ok (decide (SameLabels (items.map Item.labels))) := by
  cases items with
  | nil => rfl
  | cons item items =>
    have hsame : SameLabels ((item :: items).map Item.labels) ↔
        item.labels ≠ [] ∧ ∀ other ∈ items, other.labels = item.labels := by
      unfold SameLabels
      rw [List.map_cons, List.headD_cons, List.forall_mem_cons, List.forall_mem_map]
      exact and_congr_right fun _ => and_iff_right rfl
    rw [List.map_cons, sameMetricShape, labelTexts_toValue, ok_bind, allHaveLabels_map,
      decide_eq_decide.2 hsame]
    by_cases hlabels : item.labels = []
    · rw [if_pos (show item.metrics.map Prod.fst = [] from hlabels), decide_eq_false fun h =>
        h.1 hlabels]
      rfl
    · rw [if_neg (show item.metrics.map Prod.fst ≠ [] from hlabels)]
      refine congrArg Except.ok (decide_eq_decide.2 ?_)
      exact (and_iff_right hlabels).symm

omit [PyBuild V] in
/-- The entries of some items have their labels. -/
theorem labels_of_entries {items : List (Item V)} {entries : List Entry}
    (h : each (entryOf floats) items = .ok entries) :
    entries.map Entry.labels = items.map Item.labels := by
  have hall := forall₂_of_each h
  clear h
  induction hall with
  | nil => rfl
  | cons hentry _ ih =>
    rw [List.map_cons, List.map_cons, ih]
    congr 1
    exact fst_of_textPairs (entryOf_eq_ok.1 hentry).2

theorem firstLabels_map {items : List (Item V)} (h : SameLabels (items.map Item.labels)) :
    firstLabels (items.map Item.toValue) = .ok ((items.map Item.labels).headD []) := by
  cases items with
  | nil => exact absurd rfl h.1
  | cons item items => exact labelTexts_toValue item

theorem strippedLines_map (items : List (Item V)) :
    strippedLines floats (items.map Item.toValue) =
      (each (entryOf floats) items).map entryLines := by
  rw [strippedLines, noneHasMetrics_map, ok_bind, sameMetricShape_map]
  by_cases hbare : ∀ item ∈ items, item.metrics = []
  · have hentries : each (entryOf floats) items = .ok (items.map fun item => ⟨item.title, []⟩) := by
      refine each_eq_map fun item hitem => ?_
      rw [entryOf_eq_ok]
      exact ⟨rfl, by rw [hbare item hitem]; rfl⟩
    rw [decide_eq_true hbare, if_pos rfl, titleLines_map, hentries]
    show _ = Except.ok (entryLines _)
    rw [entryLines, if_pos (by simp), List.filterMap_map]
    rfl
  · rw [decide_eq_false hbare, if_neg Bool.false_ne_true, ok_bind]
    -- the entries have the labels of the items
    have hlines : ∀ entries, each (entryOf floats) items = .ok entries →
        entryLines entries = if SameLabels (items.map Item.labels) then tableLines entries
          else entries.map fun entry => "- " ++ entry.sentence := by
      intro entries hentries
      have hlabels := labels_of_entries hentries
      have hnotBare : ¬ ∀ entry ∈ entries, entry.pairs = [] := by
        intro hall
        refine hbare fun item hitem => ?_
        have hmem : item.labels ∈ entries.map Entry.labels :=
          hlabels ▸ List.mem_map_of_mem hitem
        obtain ⟨entry, hentry, heq⟩ := List.mem_map.1 hmem
        rw [Entry.labels, hall entry hentry] at heq
        exact List.map_eq_nil_iff.1 heq.symm
      have htabular : Tabular entries ↔ SameLabels (items.map Item.labels) := by
        rw [Tabular, hlabels]
      rw [entryLines, if_neg hnotBare]
      exact if_congr htabular rfl rfl
    by_cases htable : SameLabels (items.map Item.labels)
    · rw [decide_eq_true htable, if_pos rfl, renderTable, firstLabels_map htable, ok_bind,
        each_map_left, each_congr fun item _ => tableRow_toValue item, each_map]
      cases hentries : each (entryOf floats) items with
      | error exception => rfl
      | ok entries =>
        show _ = Except.ok (entryLines entries)
        rw [hlines entries hentries, if_pos htable, tableLines, tableLabels,
          labels_of_entries hentries]
        rfl
    · rw [decide_eq_false htable, if_neg Bool.false_ne_true, each_map_left,
        each_congr fun item _ => itemSentence_toValue item, each_map]
      cases hentries : each (entryOf floats) items with
      | error exception => rfl
      | ok entries =>
        show _ = Except.ok (entryLines entries)
        rw [hlines entries hentries, if_neg htable]
        show Except.ok ((entries.map Entry.sentence).map fun sentence => "- " ++ sentence) = _
        rw [List.map_map]
        rfl

/-- What the items share, and what is left of them. -/
theorem renderMany_eq (items : List (Item V)) :
    (do
      let shared ← sharedMetrics (items.map Item.toValue)
      let labels ← each hashedLabel shared
      let items ← stripItems labels (items.map Item.toValue)
      let head ← sharedHead floats shared
      let lines ← strippedLines floats items
      return head ++ lines) = (pageOf floats items).map fun page =>
        contextLines page.shared ++ entryLines page.entries := by
  have hlabels : each hashedLabel ((Item.shared items).map metricValue) =
      .ok ((Item.shared items).map fun metric => textValue metric.1) := by
    rw [each_map_left]
    exact each_eq_map fun metric _ => hashedLabel_metricValue metric
  rw [sharedMetrics_map, ok_bind, hlabels, ok_bind, stripItems_map, ok_bind, sharedHead_map,
    strippedLines_map, pageOf, ownItems]
  cases each (textPair floats) (Item.shared items) with
  | error exception => rfl
  | ok shared =>
    cases each (entryOf floats) (items.map (Item.without (Item.shared items))) <;> rfl

/-- **The lines of some items are those of their page**, with the same exceptions. -/
theorem renderItemLines_eq (items : List (Item V)) :
    renderItemLines floats (items.map Item.toValue) = (pageOf floats items).map Page.lines := by
  have hmany : ∀ items : List (Item V), items.length ≠ 1 →
      (pageOf floats items).map (fun page => contextLines page.shared ++ entryLines page.entries) =
        (pageOf floats items).map Page.lines := by
    intro items hlength
    cases hpage : pageOf floats items with
    | error exception => rfl
    | ok page =>
      simp only [pageOf, bind_eq_ok, pure_eq_ok] at hpage
      obtain ⟨shared, -, entries, hentries, rfl⟩ := hpage
      have hcount := (forall₂_of_each hentries).length_eq
      rw [ownItems, List.length_map] at hcount
      refine congrArg Except.ok ?_
      rcases entries with _ | ⟨entry, _ | ⟨second, others⟩⟩
      · rfl
      · exact absurd hcount hlength
      · rfl
  rcases items with _ | ⟨item, _ | ⟨second, others⟩⟩
  · exact (renderMany_eq []).trans (hmany [] (by simp))
  · show (do
      let sentence ← itemSentence floats item.toValue
      return [sentence]) = _
    have hown : ownItems [item] = [item] := by simp [ownItems, Item.shared, Item.without]
    rw [itemSentence_toValue, pageOf, hown, show Item.shared [item] = [] from rfl,
      show each (textPair floats) [] = .ok [] from rfl, ok_bind]
    show _ = Except.map Page.lines ((do
      let entry ← entryOf floats item
      return [entry]) >>= fun entries => pure ⟨[], entries⟩)
    cases entryOf floats item <;> rfl
  · exact (renderMany_eq (item :: second :: others)).trans (hmany _ (by simp))

end

end Answer
