import Text2Cypher.Answer.Context
import Text2Cypher.Answer.Values

/-!
# Grounding of answers

`_render_structured_answer` takes over a title or a value of a metric only if it is the text of a
value in the rows, or if its normal form is that of a number in the rows.  An answer that is not
taken over is rejected, or something raises on the way.

* `passed_of_check`: what is known of everything that an accepted answer shows;
* `grounded_iff`: when all of it stands in the rows.
-/

namespace Answer

open Checks Composition Decimal Python

/-- What ends the check of an answer: `_GroundingError` and `_SchemaError` reject it. -/
inductive Refusal
  | rejected (reason : String) (detail : List String)
  | raised (exception : PyException)
  deriving DecidableEq, Repr

def raising {α : Type} : Except PyException α → Except Refusal α
  | .ok a => .ok a
  | .error exception => .error (.raised exception)

@[simp] theorem raising_eq_ok {α : Type} {x : Except PyException α} {a : α} :
    raising x = .ok a ↔ x = .ok a := by
  cases x <;> simp [raising]

section

variable {V : Type} [PyValue V] [PyStr V]

/-! ### What the rows know -/

/-- `_is_numeric_leaf`. -/
def isNumericLeaf (value : V) : Bool := (number? value).isSome

/-- `_row_pool`, for a context. -/
def rowPool (context : AnswerContext V) : List (Dict String V) :=
  if context.sections.entries.isEmpty then context.rows
  else context.sections.values.flatMap SectionContext.rows

/-- The values of the rows. -/
def cells (rows : List (Dict String V)) : List V := rows.flatMap Dict.values

/-- `_known_text_values`. -/
def knownTextValues (rows : List (Dict String V)) : Except PyException (List String) :=
  each PyStr.str ((cells rows).filter fun value => !isNone value && !isNumericLeaf value)

/-- `_known_numeric_literals`. -/
def knownNumericLiterals (rows : List (Dict String V)) : Except PyException (List Text) :=
  each (fun value => do
    let text ← PyStr.str value
    normalizeNumericLiteral text.toList) ((cells rows).filter isNumericLeaf)

/-! ### Titles and metrics -/

/-- `_title_is_grounded`. -/
def titleIsGrounded (title : String) (textValues : List String) (numericLiterals : List Text) :
    Except PyException Bool :=
  if title ∈ textValues then .ok true
  else do
    let literal ← normalizeNumericLiteral title.toList
    return decide (literal ∈ numericLiterals)

/-- `_metric_is_grounded`. -/
def metricIsGrounded (value : V) (textValues : List String) (numericLiterals : List Text) :
    Except PyException Bool :=
  match PyValue.kind value with
  | .int _ | .float _ => do
      let text ← PyStr.str value
      let literal ← normalizeNumericLiteral text.toList
      return decide (literal ∈ numericLiterals)
  | .str s => do
      let literal ← normalizeNumericLiteral s.toList
      return decide (literal ∈ numericLiterals) || decide (s ∈ textValues)
  | _ => .ok false

/-- A title is a text, and grounded. -/
def isGroundedTitle (title : V) (textValues : List String) (numericLiterals : List Text) :
    Except PyException Bool :=
  match PyValue.kind title with
  | .str s => titleIsGrounded s textValues numericLiterals
  | _ => .ok false

/-- The check of a title in `_check_items_grounding`. -/
def checkTitle (textValues : List String) (numericLiterals : List Text) (title : V) :
    Except Refusal Unit :=
  if isNone title then .ok ()
  else do
    let grounded ← raising (isGroundedTitle title textValues numericLiterals)
    if grounded then return ()
    else
      let text ← raising (PyStr.str title)
      .error (.rejected "ungrounded_highlighted_title" [text])

section

variable [PyBuild V]

/-- The check of a metric. -/
def checkMetric (textValues : List String) (numericLiterals : List Text) (metric : V) :
    Except Refusal Unit := do
  let value ← raising (get metric "value")
  let grounded ← raising (metricIsGrounded value textValues numericLiterals)
  if grounded then return ()
  else
    let label ← raising (get metric "label")
    let label ← raising (PyStr.str label)
    let value ← raising (PyStr.str value)
    .error (.rejected "ungrounded_highlighted_value" [label ++ "=" ++ value])

/-- The body of the loop of `_check_items_grounding`. -/
def checkItem (textValues : List String) (numericLiterals : List Text) (item : V) :
    Except Refusal Unit := do
  let title ← raising (get item "title")
  checkTitle textValues numericLiterals title
  let metrics ← raising (getOr item "metrics" emptyList)
  let metrics ← raising (iterate metrics)
  forEach (checkMetric textValues numericLiterals) metrics

/-- `_check_items_grounding`. -/
def checkItemsGrounding (textValues : List String) (numericLiterals : List Text) (items : V) :
    Except Refusal Unit := do
  let items ← raising (iterate items)
  forEach (checkItem textValues numericLiterals) items

/-- A field that the answer must have. -/
def required (parsed : Dict String V) (field : String) : Except Refusal V :=
  match parsed.get? field with
  | some value => .ok value
  | none => .error (.rejected "invalid_schema" ["missing_field"])

/-- The checks of `_render_structured_answer`. -/
def checkStructuredAnswer (parsed : Dict String V) (context : AnswerContext V) :
    Except Refusal Unit := do
  let highlighted ← required parsed "highlighted"
  let sections ← required parsed "sections"
  require (truthy highlighted = true ∨ truthy sections = true)
    (.rejected "invalid_schema" ["empty_highlighted"])
  let textValues ← raising (knownTextValues (rowPool context))
  let numericLiterals ← raising (knownNumericLiterals (rowPool context))
  checkItemsGrounding textValues numericLiterals highlighted
  let sections ← raising (iterate sections)
  forEach (fun part => do
    let highlighted ← raising (getOr part "highlighted" emptyList)
    checkItemsGrounding textValues numericLiterals highlighted) sections

/-! ### What an answer shows -/

/-- A value is a title or a value of a metric in a list of items. -/
def ShownIn (items value : V) : Prop :=
  ∃ item ∈ elements items, get item "title" = .ok value ∧ isNone value = false ∨
    ∃ metrics, getOr item "metrics" emptyList = .ok metrics ∧
      ∃ metric ∈ elements metrics, get metric "value" = .ok value

/-- A value is shown by an answer: in the highlighted items, or in those of a section. -/
def Shown (parsed : Dict String V) (value : V) : Prop :=
  (∃ highlighted, parsed.get? "highlighted" = some highlighted ∧ ShownIn highlighted value) ∨
    ∃ sections, parsed.get? "sections" = some sections ∧ ∃ part ∈ elements sections,
      ∃ highlighted, getOr part "highlighted" emptyList = .ok highlighted ∧
        ShownIn highlighted value

end

/-- A text is that of a value in the rows that is no number. -/
def IsRowText (rows : List (Dict String V)) (s : String) : Prop :=
  ∃ row ∈ rows, ∃ value ∈ row.values, isNone value = false ∧ number? value = none ∧
    PyStr.str value = .ok s

/-- A number stands in the rows. -/
def IsRowNumber (rows : List (Dict String V)) (q : ℚ) : Prop :=
  ∃ row ∈ rows, ∃ value ∈ row.values, ∃ x, number? value = some x ∧ numberValue x = some q

/-- **A shown value stands in the rows**: as a text, or as the number that it denotes. -/
def Grounded (rows : List (Dict String V)) (value : V) : Prop :=
  match PyValue.kind value with
  | .int n => IsRowNumber rows n
  | .float x => ∃ q, numberValue x = some q ∧ IsRowNumber rows q
  | .str s => IsRowText rows s ∨ ∃ q, LiteralOf s.toList q ∧ IsRowNumber rows q
  | _ => False

/-- A shown value is clear: a text of the rows, a finite number, or a well-formed literal that is
normalised without rounding (or that denotes a number of the rows anyway). -/
def Clear (rows : List (Dict String V)) (value : V) : Prop :=
  match PyValue.kind value with
  | .int _ => True
  | .float x => numberValue x ≠ none
  | .str s => IsRowText rows s ∨
      ∃ q, LiteralOf s.toList q ∧ (Unrounded s.toList ∨ IsRowNumber rows q)
  | _ => False

/-! ### What the check lets pass -/

/-- What is known of a value that has passed the check. -/
def Passed (textValues : List String) (numericLiterals : List Text) (value : V) : Prop :=
  match PyValue.kind value with
  | .int _ | .float _ => ∃ text literal, PyStr.str value = .ok text ∧
      normalizeNumericLiteral text.toList = .ok literal ∧ literal ∈ numericLiterals
  | .str s => s ∈ textValues ∨
      ∃ literal, normalizeNumericLiteral s.toList = .ok literal ∧ literal ∈ numericLiterals
  | _ => False

theorem passed_of_checkTitle {textValues : List String} {numericLiterals : List Text} {title : V}
    (h : checkTitle textValues numericLiterals title = .ok ()) (hnone : isNone title = false) :
    Passed textValues numericLiterals title := by
  rw [checkTitle, hnone, if_neg Bool.false_ne_true, bind_eq_ok] at h
  obtain ⟨grounded, hgrounded, h⟩ := h
  rw [raising_eq_ok] at hgrounded
  cases grounded with
  | false =>
    rw [if_neg Bool.false_ne_true, bind_eq_ok] at h
    obtain ⟨_, -, h⟩ := h
    cases h
  | true =>
    unfold isGroundedTitle at hgrounded
    unfold Passed
    split at hgrounded
    · rename_i s hkind
      rw [hkind]
      by_cases hs : s ∈ textValues
      · exact Or.inl hs
      · rw [titleIsGrounded, if_neg hs] at hgrounded
        simp only [bind_eq_ok, pure_eq_ok, decide_eq_true_eq] at hgrounded
        exact Or.inr hgrounded
    · cases hgrounded

theorem passed_of_metricIsGrounded {textValues : List String} {numericLiterals : List Text}
    {value : V} (h : metricIsGrounded value textValues numericLiterals = .ok true) :
    Passed textValues numericLiterals value := by
  unfold Passed
  unfold metricIsGrounded at h
  cases hkind : PyValue.kind value with
  | int n =>
    rw [hkind] at h
    simp only [bind_eq_ok, pure_eq_ok, decide_eq_true_eq] at h
    obtain ⟨text, htext, literal, hliteral, hmem⟩ := h
    exact ⟨text, literal, htext, hliteral, hmem⟩
  | float x =>
    rw [hkind] at h
    simp only [bind_eq_ok, pure_eq_ok, decide_eq_true_eq] at h
    obtain ⟨text, htext, literal, hliteral, hmem⟩ := h
    exact ⟨text, literal, htext, hliteral, hmem⟩
  | str s =>
    rw [hkind] at h
    simp only [bind_eq_ok, pure_eq_ok, Bool.or_eq_true, decide_eq_true_eq] at h
    obtain ⟨literal, hliteral, hmem | hmem⟩ := h
    · exact Or.inr ⟨literal, hliteral, hmem⟩
    · exact Or.inl hmem
  | none => rw [hkind] at h; cases h
  | bool b => rw [hkind] at h; cases h
  | decimal x => rw [hkind] at h; cases h
  | list items => rw [hkind] at h; cases h
  | dict fields => rw [hkind] at h; cases h
  | other => rw [hkind] at h; cases h

theorem isRowText_of_mem {rows : List (Dict String V)} {textValues : List String}
    (h : knownTextValues rows = .ok textValues) {s : String} (hs : s ∈ textValues) :
    IsRowText rows s := by
  obtain ⟨value, hmem, hstr⟩ := exists_of_forall₂ (forall₂_of_each h) hs
  obtain ⟨hcell, hkept⟩ := List.mem_filter.1 hmem
  obtain ⟨row, hrow, hvalue⟩ := List.mem_flatMap.1 hcell
  simp only [Bool.and_eq_true, Bool.not_eq_true', isNumericLeaf, Option.isSome_eq_false_iff,
    Option.isNone_iff_eq_none] at hkept
  exact ⟨row, hrow, value, hvalue, hkept.1, hkept.2, hstr⟩

/-- A normal form that the rows know denotes a number of theirs. -/
theorem isRowNumber_of_mem {rows : List (Dict String V)} {numericLiterals : List Text}
    (h : knownNumericLiterals rows = .ok numericLiterals) {literal : Text}
    (hmem : literal ∈ numericLiterals) {q : ℚ} (hq : fixedValue? literal = some q) :
    IsRowNumber rows q := by
  obtain ⟨value, hfiltered, hnormal⟩ := exists_of_forall₂ (forall₂_of_each h) hmem
  obtain ⟨hcell, hnumeric⟩ := List.mem_filter.1 hfiltered
  obtain ⟨row, hrow, hvalue⟩ := List.mem_flatMap.1 hcell
  obtain ⟨x, hx⟩ := Option.isSome_iff_exists.1 hnumeric
  simp only [bind_eq_ok] at hnormal
  obtain ⟨text, htext, hnormal⟩ := hnormal
  obtain ⟨literal', hnormal', hdenotes⟩ := normalize_numeral (isNumeral_str hx htext)
  obtain rfl := Except.ok.inj (hnormal'.symm.trans hnormal)
  exact ⟨row, hrow, value, hvalue, x, hx, hdenotes.symm.trans hq⟩

/-- A number in an answer that has passed the check stands in the rows, if it has a value. -/
theorem isRowNumber_of_passed {rows : List (Dict String V)} {numericLiterals : List Text}
    (h : knownNumericLiterals rows = .ok numericLiterals) {value : V} {x : Number} {q : ℚ}
    (hx : number? value = some x) (hq : numberValue x = some q) {text : String} {literal : Text}
    (htext : PyStr.str value = .ok text)
    (hnormal : normalizeNumericLiteral text.toList = .ok literal)
    (hmem : literal ∈ numericLiterals) : IsRowNumber rows q := by
  obtain ⟨literal', hnormal', hdenotes⟩ := normalize_numeral (isNumeral_str hx htext)
  obtain rfl := Except.ok.inj (hnormal'.symm.trans hnormal)
  exact isRowNumber_of_mem h hmem (hdenotes.trans hq)

/-- A value that has passed the check is clear just if it stands in the rows. -/
theorem grounded_iff_clear {rows : List (Dict String V)} {textValues : List String}
    {numericLiterals : List Text} (htexts : knownTextValues rows = .ok textValues)
    (hliterals : knownNumericLiterals rows = .ok numericLiterals) {value : V}
    (h : Passed textValues numericLiterals value) : Grounded rows value ↔ Clear rows value := by
  unfold Passed at h
  unfold Grounded Clear
  cases hkind : PyValue.kind value with
  | int n =>
    rw [hkind] at h
    obtain ⟨text, literal, htext, hnormal, hmem⟩ := h
    have hnumber : number? value = some (.finite (ofInt n)) := by rw [number?, hkind]
    have hvalue : numberValue (.finite (ofInt n)) = some (n : ℚ) := by
      rw [numberValue, toRat_ofInt]
    exact iff_of_true (isRowNumber_of_passed hliterals hnumber hvalue htext hnormal hmem) trivial
  | float x =>
    rw [hkind] at h
    obtain ⟨text, literal, htext, hnormal, hmem⟩ := h
    have hnumber : number? value = some x := by rw [number?, hkind]
    constructor
    · rintro ⟨q, hq, -⟩
      show numberValue x ≠ none
      rw [hq]
      exact Option.some_ne_none q
    · intro hfinite
      obtain ⟨q, hq⟩ := Option.ne_none_iff_exists'.1 hfinite
      exact ⟨q, hq, isRowNumber_of_passed hliterals hnumber hq htext hnormal hmem⟩
  | str s =>
    rw [hkind] at h
    rcases h with hs | ⟨literal, hnormal, hmem⟩
    · exact iff_of_true (Or.inl (isRowText_of_mem htexts hs))
        (Or.inl (isRowText_of_mem htexts hs))
    · constructor
      · rintro (hs | ⟨q, hliteral, hq⟩)
        · exact Or.inl hs
        · exact Or.inr ⟨q, hliteral, Or.inr hq⟩
      · rintro (hs | ⟨q, hliteral, hunrounded | hq⟩)
        · exact Or.inl hs
        · -- the normal form denotes the number, so the number of the rows is the same
          obtain ⟨literal', hnormal', hdenotes⟩ := normalize_literal hliteral hunrounded
          obtain rfl := Except.ok.inj (hnormal'.symm.trans hnormal)
          exact Or.inr ⟨q, hliteral, isRowNumber_of_mem hliterals hmem hdenotes⟩
        · exact Or.inr ⟨q, hliteral, hq⟩
  | none => exact iff_of_false (fun h => h) fun h => h
  | bool b => exact iff_of_false (fun h => h) fun h => h
  | decimal x => exact iff_of_false (fun h => h) fun h => h
  | list items => exact iff_of_false (fun h => h) fun h => h
  | dict fields => exact iff_of_false (fun h => h) fun h => h
  | other => exact iff_of_false (fun h => h) fun h => h

section

variable [PyBuild V]

theorem passed_of_checkMetric {textValues : List String} {numericLiterals : List Text}
    {metric value : V} (h : checkMetric textValues numericLiterals metric = .ok ())
    (hvalue : get metric "value" = .ok value) : Passed textValues numericLiterals value := by
  simp only [checkMetric, bind_eq_ok, raising_eq_ok, hvalue, Except.ok.injEq] at h
  obtain ⟨_, rfl, grounded, hgrounded, h⟩ := h
  cases grounded with
  | true => exact passed_of_metricIsGrounded hgrounded
  | false =>
    rw [if_neg Bool.false_ne_true] at h
    simp only [bind_eq_ok] at h
    obtain ⟨_, -, _, -, _, -, h⟩ := h
    cases h

theorem passed_of_checkItems {textValues : List String} {numericLiterals : List Text}
    {items value : V} (h : checkItemsGrounding textValues numericLiterals items = .ok ())
    (hshown : ShownIn items value) : Passed textValues numericLiterals value := by
  simp only [checkItemsGrounding, bind_eq_ok, raising_eq_ok, forEach_eq_ok] at h
  obtain ⟨l, hl, hitems⟩ := h
  obtain ⟨item, hitem, hshown⟩ := hshown
  rw [elements_eq hl] at hitem
  have hchecked := hitems item hitem
  simp only [checkItem, bind_eq_ok, raising_eq_ok, forEach_eq_ok] at hchecked
  obtain ⟨title, htitle, _, hcheckTitle, metrics, hmetrics, ms, hms, hall⟩ := hchecked
  rcases hshown with ⟨hget, hnone⟩ | ⟨metrics', hmetrics', metric, hmetric, hget⟩
  · obtain rfl := Except.ok.inj (htitle.symm.trans hget)
    exact passed_of_checkTitle hcheckTitle hnone
  · obtain rfl := Except.ok.inj (hmetrics.symm.trans hmetrics')
    rw [elements_eq hms] at hmetric
    exact passed_of_checkMetric (hall metric hmetric) hget

/-- **Everything that an accepted answer shows** has passed the check against the rows. -/
theorem passed_of_check {parsed : Dict String V} {context : AnswerContext V}
    (h : checkStructuredAnswer parsed context = .ok ()) :
    ∃ textValues numericLiterals, knownTextValues (rowPool context) = .ok textValues ∧
      knownNumericLiterals (rowPool context) = .ok numericLiterals ∧
      ∀ value, Shown parsed value → Passed textValues numericLiterals value := by
  have hrequired : ∀ {field : String} {value : V}, required parsed field = .ok value →
      parsed.get? field = some value := by
    intro field value hvalue
    unfold required at hvalue
    split at hvalue
    · rename_i hget
      rw [hget, Except.ok.inj hvalue]
    · cases hvalue
  simp only [checkStructuredAnswer, bind_eq_ok, raising_eq_ok, forEach_eq_ok] at h
  obtain ⟨highlighted, hhighlighted, sections, hsections, _, -, textValues, htexts,
    numericLiterals, hliterals, _, hcheck, parts, hparts, hall⟩ := h
  refine ⟨textValues, numericLiterals, htexts, hliterals, fun value hshown => ?_⟩
  rcases hshown with ⟨highlighted', hget, hshown⟩ | ⟨sections', hget, part, hpart, items, hitems,
    hshown⟩
  · obtain rfl := Option.some.inj ((hrequired hhighlighted).symm.trans hget)
    exact passed_of_checkItems hcheck hshown
  · obtain rfl := Option.some.inj ((hrequired hsections).symm.trans hget)
    rw [elements_eq hparts] at hpart
    obtain ⟨items', hitems', hchecked⟩ := hall part hpart
    obtain rfl := Except.ok.inj (hitems'.symm.trans hitems)
    exact passed_of_checkItems hchecked hshown

/-- **An accepted answer shows only what stands in the rows** just if everything that it shows is
clear. -/
theorem grounded_iff {parsed : Dict String V} {context : AnswerContext V}
    (h : checkStructuredAnswer parsed context = .ok ()) :
    (∀ value, Shown parsed value → Grounded (rowPool context) value) ↔
      ∀ value, Shown parsed value → Clear (rowPool context) value := by
  obtain ⟨textValues, numericLiterals, htexts, hliterals, hpassed⟩ := passed_of_check h
  constructor
  · intro hgrounded value hshown
    exact (grounded_iff_clear htexts hliterals (hpassed value hshown)).1 (hgrounded value hshown)
  · intro hclear value hshown
    exact (grounded_iff_clear htexts hliterals (hpassed value hshown)).2 (hclear value hshown)

end

end

/-! ### One row -/

/-- The result of a query for one shortage. -/
def shortageResult : Composed Cell :=
  composeSingle ⟨[⟨[("shortageQty", .mk (.int 123))], by decide⟩], none, false⟩

/-- Limits with room for small results. -/
def roomyLimits : Limits Cell := ⟨.ok 50, .ok 8000, fun _ => .ok 20⟩

/-- An answer with one item, that has a title and no metrics. -/
def titleAnswer (title : String) : Dict String Cell :=
  ⟨[("highlighted",
      .mk (.list [.mk (.dict [("title", .mk (.str title)), ("metrics", .mk (.list []))])])),
    ("sections", .mk (.list []))], by simp⟩

/-- The context of the result for one shortage. -/
def shortageContext : AnswerContext Cell where
  mode := .single
  transform := none
  rows := shortageResult.rows
  sections := .empty
  emptyReason := none
  includedCount := 1
  totalCount := 1
  totalCountIsExact := true
  sourceTruncated := false
  promptTruncated := false

/-- An answer that writes the number of the row. -/
theorem grounded_iff_shortage :
    (∀ value, Shown (titleAnswer "123") value → Grounded (rowPool shortageContext) value) ↔
      ∀ value, Shown (titleAnswer "123") value → Clear (rowPool shortageContext) value :=
  grounded_iff (by decide +kernel)

/-- An answer with blanks between the digits is accepted, although no row has such a text or such a
number. -/
theorem not_grounded_blanks :
    buildAnswerContext roomyLimits shortageResult = .ok shortageContext ∧
      checkStructuredAnswer (titleAnswer "1 2 3") shortageContext = .ok () ∧
      ¬ ∀ value, Shown (titleAnswer "1 2 3") value →
        Grounded (rowPool shortageContext) value := by
  refine ⟨rfl, by decide +kernel, fun hall => ?_⟩
  have hshown : Shown (titleAnswer "1 2 3") (.mk (.str "1 2 3")) :=
    Or.inl ⟨_, rfl, _, List.mem_cons_self, Or.inl ⟨rfl, rfl⟩⟩
  rcases hall _ hshown with ⟨row, hrow, value, hvalue, -, hnumber, -⟩ | ⟨q, hliteral, -⟩
  · obtain rfl := List.mem_singleton.1 hrow
    obtain rfl := List.mem_singleton.1 hvalue
    cases hnumber
  · obtain ⟨unit, hunit⟩ := exists_unit (c := ' ') hliteral (by decide +kernel) (by decide)
    revert hunit
    cases unit <;> decide +kernel

end Answer
