import Text2Cypher.Answer.Generation
import Text2Cypher.Answer.Page
import Text2Cypher.Library.EscapedCells

/-!
# The cells of rendered tables

A table is read with a backslash that takes a pipe or a backslash after it literally.  The renderer
puts a backslash in front of the pipes of titles and values, but not of labels, and leaves line
breaks and backslashes as they are.

* `toList_tableLine`: a line of a table, as a line of escaped cells;
* **`tableReadable_iff`**: when the table of some items reads back.
-/

namespace Answer

open Checks Composition Decimal Python EscapedCells

/-! ### Reading a table -/

/-- The delimiters of a line that are not escaped. -/
def delimiterCount (line : String) : ℕ := delimiters '\\' '|' line.toList

/-- The cells of a line, as they are read. -/
def readRow (line : String) : List String := (readCells '\\' '|' line.toList).map String.ofList

/-- There is no line break. -/
def SingleLine (text : String) : Prop := '\n' ∉ text.toList ∧ '\r' ∉ text.toList

/-- The number of delimiters of the first line. -/
def headerCount (lines : List String) : ℕ := (lines.head?.map delimiterCount).getD 0

/-- A table that is read back. -/
structure TableReadable (entries : List Entry) : Prop where
  singleLines : ∀ line ∈ tableLines entries, SingleLine line
  aligned : ∀ line ∈ tableLines entries,
    delimiterCount line = headerCount (tableLines entries)
  cells : ∀ entry ∈ entries, readRow entry.row = entry.titleText :: entry.pairs.map Prod.snd

/-- The texts of a table that come through: labels without delimiters, titles and values without a
backslash directly before a backslash or a pipe, and no line breaks. -/
structure CleanTable (entries : List Entry) : Prop where
  labels : ∀ label ∈ tableLabels entries, SingleLine label ∧ delimiterCount label = 0
  texts : ∀ entry ∈ entries, ∀ text ∈ entry.titleText :: entry.pairs.map Prod.snd,
    SingleLine text ∧ Unambiguous '\\' '|' text.toList

/-! ### Lines -/

/-- A line of a table, as a line of cells. -/
theorem toList_tableLine (first : String) {others : List String} (h : others ≠ []) :
    ("| " ++ first ++ " | " ++ " | ".intercalate others ++ " |").toList =
      line '|' ' ' (first.toList :: others.map String.toList) := by
  have hothers : ∀ others : List String, others ≠ [] →
      '|' :: ' ' :: ((" | ".intercalate others).toList ++ [' ', '|']) =
        line '|' ' ' (others.map String.toList) := by
    intro others hne
    induction others with
    | nil => exact absurd rfl hne
    | cons other others ih =>
      rw [List.map_cons, line_cons]
      cases others with
      | nil =>
        rw [String.intercalate_singleton]
        rfl
      | cons next others =>
        rw [← ih (List.cons_ne_nil _ _), String.intercalate_cons_of_ne_nil (List.cons_ne_nil _ _)]
        simp
  rw [line_cons, ← hothers others h]
  simp

/-- An escaped cell. -/
theorem toList_escapeTableCell (text : String) :
    (escapeTableCell text).toList = escape '\\' '|' text.toList := by
  rw [escapeTableCell, String.toList_ofList]
  rfl

/-- The cells of a line of the table, as it is written. -/
def Entry.cells (entry : Entry) : List String :=
  (entry.titleText :: entry.pairs.map Prod.snd).map escapeTableCell

theorem row_eq (entry : Entry) :
    entry.row = "| " ++ escapeTableCell entry.titleText ++ " | " ++ " | ".intercalate
      ((entry.pairs.map Prod.snd).map escapeTableCell) ++ " |" := by
  rw [Entry.row, List.map_map]
  simp only [Function.comp_def]

theorem singleLine_tableLine {first : String} {others : List String} (h : others ≠ []) :
    SingleLine ("| " ++ first ++ " | " ++ " | ".intercalate others ++ " |") ↔
      ∀ cell ∈ first :: others, SingleLine cell := by
  have hmem : ∀ {c : Char}, c ≠ '|' → c ≠ ' ' → ∀ {cells : List (List Char)},
      c ∉ line '|' ' ' cells ↔ ∀ cell ∈ cells, c ∉ cell := by
    intro c hpipe hblank cells
    induction cells with
    | nil => simp [line, hpipe]
    | cons cell cells ih => simp [line_cons, ih, hpipe, hblank]
  unfold SingleLine
  rw [toList_tableLine first h, hmem (by decide) (by decide), hmem (by decide) (by decide),
    ← forall₂_and, ← List.map_cons, List.forall_mem_map]

theorem delimiterCount_tableLine {first : String} {others : List String} (h : others ≠ []) :
    delimiterCount ("| " ++ first ++ " | " ++ " | ".intercalate others ++ " |") =
      others.length + 2 + ((first :: others).map delimiterCount).sum := by
  rw [delimiterCount, toList_tableLine first h,
    delimiters_line (by decide) (by decide) (by decide), ← List.map_cons, List.length_map,
    List.length_cons, List.map_map]
  rfl

theorem singleLine_escapeTableCell (text : String) :
    SingleLine (escapeTableCell text) ↔ SingleLine text := by
  unfold SingleLine
  rw [toList_escapeTableCell, mem_escape (by decide), mem_escape (by decide)]

/-! ### Rows -/

theorem singleLine_row {entry : Entry} (h : entry.pairs ≠ []) :
    SingleLine entry.row ↔ ∀ text ∈ entry.titleText :: entry.pairs.map Prod.snd, SingleLine text := by
  rw [row_eq, singleLine_tableLine (by simpa using h), ← List.map_cons, List.forall_mem_map]
  exact forall₂_congr fun text _ => singleLine_escapeTableCell text

theorem delimiterCount_row {entry : Entry} (h : entry.pairs ≠ []) :
    delimiterCount entry.row = entry.pairs.length + 2 +
      ((entry.titleText :: entry.pairs.map Prod.snd).map fun text =>
        delimiterCount (escapeTableCell text)).sum := by
  rw [row_eq, delimiterCount_tableLine (by simpa using h), ← List.map_cons, List.length_map,
    List.length_map, List.map_map]
  rfl

/-- A cell without delimiters, as it is read. -/
def readCell (cell : String) : List Char := (split '\\' '|' cell.toList).headD []

theorem split_of_delimiterCount {cell : String} (h : delimiterCount cell = 0) :
    split '\\' '|' cell.toList = [readCell cell] := by
  have hlength : (split '\\' '|' cell.toList).length = 1 := by
    rw [length_split]
    exact congrArg (· + 1) h
  obtain ⟨piece, hpiece⟩ := List.length_eq_one_iff.1 hlength
  rw [readCell, hpiece]
  rfl

/-- The cells of a row without further delimiters, as they are read. -/
theorem readRow_row {entry : Entry} (h : entry.pairs ≠ [])
    (hcells : ∀ text ∈ entry.titleText :: entry.pairs.map Prod.snd,
      delimiterCount (escapeTableCell text) = 0) :
    readRow entry.row = (entry.titleText :: entry.pairs.map Prod.snd).map fun text =>
      String.ofList (readCell (escapeTableCell text)) := by
  have hall : List.Forall₂ (fun cell text => split '\\' '|' cell = [text])
      (((entry.titleText :: entry.pairs.map Prod.snd).map escapeTableCell).map String.toList)
      ((entry.titleText :: entry.pairs.map Prod.snd).map fun text =>
        readCell (escapeTableCell text)) := by
    rw [List.map_map, List.forall₂_map_left_iff, List.forall₂_map_right_iff, List.forall₂_same]
    exact fun text htext => split_of_delimiterCount (hcells text htext)
  rw [readRow, row_eq, toList_tableLine _ (by simpa using h), ← List.map_cons, ← List.map_cons,
    readCells_line (by decide) (by decide) (by decide) hall, List.map_map]
  rfl

/-- **When the row of an entry reads back.** -/
theorem readRow_iff {entry : Entry} (h : entry.pairs ≠ []) :
    delimiterCount entry.row = entry.pairs.length + 2 ∧
        readRow entry.row = entry.titleText :: entry.pairs.map Prod.snd ↔
      ∀ text ∈ entry.titleText :: entry.pairs.map Prod.snd,
        Unambiguous '\\' '|' text.toList := by
  have hread : ∀ text : String, Unambiguous '\\' '|' text.toList ↔
      delimiterCount (escapeTableCell text) = 0 ∧
        String.ofList (readCell (escapeTableCell text)) = text := by
    intro text
    rw [← split_escape (by decide), ← toList_escapeTableCell]
    constructor
    · intro hsplit
      refine ⟨?_, ?_⟩
      · rw [delimiterCount, delimiters, hsplit]
        rfl
      · rw [readCell, hsplit]
        exact String.ofList_toList
    · rintro ⟨hcount, htext⟩
      have hpiece : readCell (escapeTableCell text) = text.toList := by
        have := congrArg String.toList htext
        rwa [String.toList_ofList] at this
      rw [split_of_delimiterCount hcount, hpiece]
  have hself : ∀ (f : String → String) (l : List String), l.map f = l ↔ ∀ text ∈ l, f text = text := by
    intro f l
    conv_lhs => rhs; rw [← List.map_id l]
    exact List.map_inj_left
  rw [delimiterCount_row h, forall₂_congr fun text _ => hread text, forall₂_and]
  constructor
  · rintro ⟨hcount, hcells⟩
    have hzero : ∀ text ∈ entry.titleText :: entry.pairs.map Prod.snd,
        delimiterCount (escapeTableCell text) = 0 := by
      have hsum := Nat.add_left_cancel (hcount.trans (Nat.add_zero _).symm)
      rw [List.sum_eq_zero_iff] at hsum
      exact fun text htext => hsum _ (List.mem_map_of_mem htext)
    refine ⟨hzero, ?_⟩
    rw [readRow_row h hzero] at hcells
    exact (hself _ _).1 hcells
  · rintro ⟨hzero, htexts⟩
    refine ⟨?_, ?_⟩
    · refine Nat.add_eq_left.2 (List.sum_eq_zero_iff.2 fun n hn => ?_)
      obtain ⟨text, htext, rfl⟩ := List.mem_map.1 hn
      exact hzero text htext
    · rw [readRow_row h hzero]
      exact (hself _ _).2 htexts

/-! ### Tables -/

/-- The first line of the table. -/
def headerLine (labels : List String) : String :=
  "| " ++ "항목" ++ " | " ++ " | ".intercalate labels ++ " |"

/-- The second line of the table. -/
def separatorLine (labels : List String) : String :=
  "| " ++ "---" ++ " | " ++ " | ".intercalate (labels.map fun _ => "---") ++ " |"

theorem tableLines_eq (entries : List Entry) :
    tableLines entries = headerLine (tableLabels entries) :: separatorLine (tableLabels entries) ::
      entries.map Entry.row := by
  have hheader : ("| 항목 | " : String) = "| " ++ "항목" ++ " | " := by decide +kernel
  have hseparator : ("| --- | " : String) = "| " ++ "---" ++ " | " := by decide +kernel
  rw [tableLines, hheader, hseparator]
  rfl

theorem singleLine_headerLine {labels : List String} (h : labels ≠ []) :
    SingleLine (headerLine labels) ↔ ∀ label ∈ labels, SingleLine label := by
  rw [headerLine, singleLine_tableLine h, List.forall_mem_cons]
  exact and_iff_right (by unfold SingleLine; decide +kernel)

theorem delimiterCount_headerLine {labels : List String} (h : labels ≠ []) :
    delimiterCount (headerLine labels) = labels.length + 2 + (labels.map delimiterCount).sum := by
  rw [headerLine, delimiterCount_tableLine h, List.map_cons, List.sum_cons,
    show delimiterCount "항목" = 0 by decide +kernel, Nat.zero_add]

theorem singleLine_separatorLine {labels : List String} (h : labels ≠ []) :
    SingleLine (separatorLine labels) := by
  have hdashes : SingleLine "---" := by unfold SingleLine; decide +kernel
  rw [separatorLine, singleLine_tableLine (by simpa using h), List.forall_mem_cons,
    List.forall_mem_map]
  exact ⟨hdashes, fun _ _ => hdashes⟩

theorem delimiterCount_separatorLine {labels : List String} (h : labels ≠ []) :
    delimiterCount (separatorLine labels) = labels.length + 2 := by
  have hdashes : delimiterCount "---" = 0 := by decide +kernel
  rw [separatorLine, delimiterCount_tableLine (by simpa using h), List.length_map]
  refine Nat.add_eq_left.2 (List.sum_eq_zero_iff.2 fun n hn => ?_)
  obtain ⟨text, htext, rfl⟩ := List.mem_map.1 hn
  rcases List.mem_cons.1 htext with rfl | htext
  · exact hdashes
  · obtain ⟨label, -, rfl⟩ := List.mem_map.1 htext
    exact hdashes

/-- **When a table reads back**: labels are not escaped, and neither line breaks nor backslashes
are. -/
theorem tableReadable_iff_cleanTable {entries : List Entry} (h : Tabular entries) :
    TableReadable entries ↔ CleanTable entries := by
  have hlabels : tableLabels entries ≠ [] := h.1
  have hentry : ∀ entry ∈ entries, entry.labels = tableLabels entries :=
    fun entry hentry => h.2 _ (List.mem_map_of_mem hentry)
  have hlength : ∀ entry ∈ entries, entry.pairs.length = (tableLabels entries).length := by
    intro entry hmem
    rw [← hentry entry hmem, Entry.labels, List.length_map]
  have hpairs : ∀ entry ∈ entries, entry.pairs ≠ [] := by
    intro entry hmem hempty
    have := hlength entry hmem
    rw [hempty] at this
    exact hlabels (List.length_eq_zero_iff.1 this.symm)
  have hcount : headerCount (tableLines entries) = (tableLabels entries).length + 2 +
      ((tableLabels entries).map delimiterCount).sum := by
    rw [tableLines_eq]
    exact delimiterCount_headerLine hlabels
  constructor
  · rintro ⟨hsingle, haligned, hcells⟩
    rw [hcount] at haligned
    rw [tableLines_eq] at hsingle haligned
    simp only [List.forall_mem_cons, List.forall_mem_map] at hsingle haligned
    -- the second line shows how many delimiters there should be
    have hsum : ((tableLabels entries).map delimiterCount).sum = 0 := by
      have := haligned.2.1
      rw [delimiterCount_separatorLine hlabels] at this
      omega
    refine ⟨fun label hlabel => ⟨(singleLine_headerLine hlabels).1 hsingle.1 label hlabel,
      List.sum_eq_zero_iff.1 hsum _ (List.mem_map_of_mem hlabel)⟩, fun entry hmem text htext =>
      ⟨(singleLine_row (hpairs entry hmem)).1 (hsingle.2.2 entry hmem) text htext, ?_⟩⟩
    refine (readRow_iff (hpairs entry hmem)).1 ⟨?_, hcells entry hmem⟩ text htext
    rw [haligned.2.2 entry hmem, hsum, hlength entry hmem]
  · rintro ⟨hclean, htexts⟩
    have hsum : ((tableLabels entries).map delimiterCount).sum = 0 := by
      refine List.sum_eq_zero_iff.2 fun n hn => ?_
      obtain ⟨label, hlabel, rfl⟩ := List.mem_map.1 hn
      exact (hclean label hlabel).2
    have hrow : ∀ entry ∈ entries, delimiterCount entry.row = entry.pairs.length + 2 ∧
        readRow entry.row = entry.titleText :: entry.pairs.map Prod.snd := fun entry hmem =>
      (readRow_iff (hpairs entry hmem)).2 fun text htext => (htexts entry hmem text htext).2
    refine ⟨?_, ?_, fun entry hmem => (hrow entry hmem).2⟩
    · rw [tableLines_eq]
      simp only [List.forall_mem_cons, List.forall_mem_map]
      exact ⟨(singleLine_headerLine hlabels).2 fun label hlabel => (hclean label hlabel).1,
        singleLine_separatorLine hlabels, fun entry hmem =>
          (singleLine_row (hpairs entry hmem)).2 fun text htext => (htexts entry hmem text htext).1⟩
    · rw [hcount, hsum, tableLines_eq]
      simp only [List.forall_mem_cons, List.forall_mem_map]
      refine ⟨?_, delimiterCount_separatorLine hlabels, fun entry hmem => ?_⟩
      · rw [delimiterCount_headerLine hlabels, hsum]
      · rw [(hrow entry hmem).1, hlength entry hmem]

section

variable {V : Type} [PyValue V] [PyStr V] [PyBuild V] {floats : Floats}

/-- The items are rendered as a table with the entries. -/
def RendersTable (floats : Floats) (items : List (Item V)) (page : Page) : Prop :=
  pageOf floats items = .ok page ∧ items.length ≠ 1 ∧ Tabular page.entries

/-- The lines of some items end with a table that is read back. -/
def TableRoundTrips (floats : Floats) (items : List (Item V)) (page : Page) : Prop :=
  renderItemLines floats (items.map Item.toValue) =
      .ok (contextLines page.shared ++ tableLines page.entries) ∧
    TableReadable page.entries

/-- **The tables that are rendered read back exactly if** no label has a delimiter, no title or
value has a backslash directly before a backslash or a pipe, and none of them has a line break. -/
theorem tableRoundTrips_iff {items : List (Item V)} {page : Page}
    (h : RendersTable floats items page) :
    TableRoundTrips floats items page ↔ CleanTable page.entries := by
  obtain ⟨hpage, hlength, htable⟩ := h
  refine Iff.trans (and_iff_right ?_) (tableReadable_iff_cleanTable htable)
  have hentries : page.entries.length ≠ 1 := by
    simp only [pageOf, bind_eq_ok, pure_eq_ok] at hpage
    obtain ⟨shared, -, entries, hentries, rfl⟩ := hpage
    have hcount := (forall₂_of_each hentries).length_eq
    rw [ownItems, List.length_map] at hcount
    exact fun hone => hlength (hcount.trans hone)
  have hbare : ¬ ∀ entry ∈ page.entries, entry.pairs = [] := by
    intro hall
    refine htable.1 ?_
    cases hlist : page.entries with
    | nil => rfl
    | cons entry entries =>
      rw [List.map_cons, List.headD_cons, Entry.labels, hall entry (hlist ▸ List.mem_cons_self),
        List.map_nil]
  rw [renderItemLines_eq, hpage]
  refine congrArg Except.ok ?_
  have hlines : entryLines page.entries = tableLines page.entries := by
    rw [entryLines, if_neg hbare, if_pos htable]
  rw [← hlines, Page.lines]
  rcases hlist : page.entries with _ | ⟨entry, _ | ⟨second, others⟩⟩
  · rfl
  · exact absurd (congrArg List.length hlist) hentries
  · rfl

end

/-! ### Two tables -/

/-- Two items whose values differ. -/
def twoItems (label first second : String) : List (Item Cell) :=
  [⟨some "Frame", [(label, .mk (.str first))]⟩, ⟨none, [(label, .mk (.str second))]⟩]

/-- What is shown of them. -/
def twoEntries (label first second : String) : Page :=
  ⟨[], [⟨some "Frame", [(label, first)]⟩, ⟨none, [(label, second)]⟩]⟩

/-- A pipe in a value comes through. -/
theorem tableRoundTrips_pipe :
    TableRoundTrips exactFloats (twoItems "색상" "black|white" "C:\\red")
      (twoEntries "색상" "black|white" "C:\\red") := by
  refine (tableRoundTrips_iff ⟨by rfl, by decide, by decide +kernel⟩).2 ⟨?_, ?_⟩
  · unfold SingleLine
    decide +kernel
  · unfold SingleLine Unambiguous
    decide +kernel

/-- A pipe in a label gives the header more delimiters than the other lines have. -/
theorem not_tableRoundTrips_label :
    ¬ TableRoundTrips exactFloats (twoItems "a|b" "black" "red") (twoEntries "a|b" "black" "red") := by
  rintro ⟨-, -, haligned, -⟩
  have hcount := haligned (separatorLine ["a|b"]) (by decide +kernel)
  exact absurd hcount (by decide +kernel)

end Answer
