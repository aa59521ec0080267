import Mathlib.Data.List.Basic
import Mathlib.Data.List.Infix

/-!
# Lines of a text

A text file is read line by line.  `\n`, `\r` and `\r\n` end a line; the reader is given `\n` for
each of them.

* `lines`: the lines of a text with their ends as they stand;
* `delivered`: a line as the reader gets it;
* `lines_flatten`: lines that are put together are found again;
* `exists_take_of_cut`: a list that is cut behind every mark is cut behind each of them.
-/

namespace Lines

/-- The lines of a text, each with its end. -/
def lines : List Char → List (List Char)
  | [] => []
  | '\r' :: '\n' :: rest => ['\r', '\n'] :: lines rest
  | c :: rest =>
    if c = '\n' ∨ c = '\r' then [c] :: lines rest
    else
      match lines rest with
      | [] => [[c]]
      | line :: more => (c :: line) :: more

/-- A line with `\n` for its end. -/
def delivered (line : List Char) : List Char :=
  let body := line.takeWhile fun c => c ≠ '\n' ∧ c ≠ '\r'
  if body.length < line.length then body ++ ['\n'] else body

/-- A text without line ends. -/
def Plain (body : List Char) : Prop := ∀ c ∈ body, c ≠ '\n' ∧ c ≠ '\r'

/-- What can end a line. -/
def IsEnd (lineEnd : List Char) : Prop :=
  lineEnd = ['\n'] ∨ lineEnd = ['\r'] ∨ lineEnd = ['\r', '\n']

/-- Lines of a text, of which only the last one may lack an end. -/
inductive AreLines : List (List Char) → Prop
  | nil : AreLines []
  | last {body : List Char} (hbody : Plain body) (hne : body ≠ []) : AreLines [body]
  | cons {body lineEnd : List Char} {more : List (List Char)} (hbody : Plain body)
      (hend : IsEnd lineEnd) (hmore : AreLines more) : AreLines ((body ++ lineEnd) :: more)

/-- Lines with nothing but `\n` for their ends. -/
inductive IsLines : List (List Char) → Prop
  | nil : IsLines []
  | last {body : List Char} (hbody : Plain body) (hne : body ≠ []) : IsLines [body]
  | cons {body : List Char} {more : List (List Char)} (hbody : Plain body) (hmore : IsLines more) :
      IsLines ((body ++ ['\n']) :: more)

theorem IsLines.sublist {l l' : List (List Char)} (h : IsLines l) (hsub : l'.Sublist l) :
    IsLines l' := by
  induction h generalizing l' with
  | nil =>
    rw [List.sublist_nil.1 hsub]
    exact .nil
  | last hbody hne =>
    cases hsub with
    | cons _ hsub =>
      rw [List.sublist_nil.1 hsub]
      exact .nil
    | cons_cons _ hsub =>
      rw [List.sublist_nil.1 hsub]
      exact .last hbody hne
  | cons hbody _ ih =>
    cases hsub with
    | cons _ hsub => exact ih hsub
    | cons_cons _ hsub => exact .cons hbody (ih hsub)

theorem lines_cons_plain {c : Char} (hc : c ≠ '\n' ∧ c ≠ '\r') (rest : List Char) :
    lines (c :: rest) =
      match lines rest with
      | [] => [[c]]
      | line :: more => (c :: line) :: more := by
  rw [lines]
  · rw [if_neg (by rintro (h | h); exacts [hc.1 h, hc.2 h])]
  · rintro _ rfl
    exact absurd rfl hc.2

/-- A line in front of others. -/
theorem lines_append_newline {body : List Char} (hbody : Plain body) (rest : List Char) :
    lines (body ++ '\n' :: rest) = (body ++ ['\n']) :: lines rest := by
  induction body with
  | nil => rfl
  | cons c body ih =>
    rw [List.cons_append, lines_cons_plain (hbody c List.mem_cons_self),
      ih fun d hd => hbody d (List.mem_cons_of_mem c hd)]
    rfl

theorem lines_plain {body : List Char} (hbody : Plain body) (hne : body ≠ []) :
    lines body = [body] := by
  induction body with
  | nil => exact absurd rfl hne
  | cons c body ih =>
    rw [lines_cons_plain (hbody c List.mem_cons_self)]
    cases body with
    | nil => rfl
    | cons d body => rw [ih (fun e he => hbody e (List.mem_cons_of_mem c he)) (List.cons_ne_nil _ _)]

/-- **Lines that are put together are found again.** -/
theorem lines_flatten {l : List (List Char)} (h : IsLines l) : lines l.flatten = l := by
  induction h with
  | nil => rfl
  | last hbody hne =>
    rw [List.flatten_cons, List.flatten_nil, List.append_nil]
    exact lines_plain hbody hne
  | cons hbody _ ih =>
    rw [List.flatten_cons, List.append_assoc, List.singleton_append, lines_append_newline hbody, ih]

theorem IsLines.eq_of_flatten {l l' : List (List Char)} (h : IsLines l) (h' : IsLines l')
    (heq : l.flatten = l'.flatten) : l = l' := by
  rw [← lines_flatten h, ← lines_flatten h', heq]

theorem AreLines.cons_char {c : Char} (hc : c ≠ '\n' ∧ c ≠ '\r') {line : List Char}
    {more : List (List Char)} (h : AreLines (line :: more)) : AreLines ((c :: line) :: more) := by
  have hplain : ∀ {body}, Plain body → Plain (c :: body) := fun hbody =>
    List.forall_mem_cons.2 ⟨hc, hbody⟩
  cases h with
  | last hbody _ => exact .last (hplain hbody) (List.cons_ne_nil _ _)
  | cons hbody hend hmore => exact .cons (hplain hbody) hend hmore

theorem areLines_lines (s : List Char) : AreLines (lines s) := by
  induction s using lines.induct with
  | case1 => exact .nil
  | case2 rest ih => exact @AreLines.cons [] _ _ (by simp [Plain]) (.inr (.inr rfl)) ih
  | case3 c rest hnot hc ih =>
    rw [lines, if_pos hc]
    · refine @AreLines.cons [] _ _ (by simp [Plain]) ?_ ih
      rcases hc with rfl | rfl
      · exact .inl rfl
      · exact .inr (.inl rfl)
    · exact hnot
  | case4 c rest hnot hc hrest ih =>
    push Not at hc
    rw [lines_cons_plain hc, hrest]
    exact .last (by simpa [Plain] using hc) (List.cons_ne_nil _ _)
  | case5 c rest hnot hc line more hrest ih =>
    push Not at hc
    rw [lines_cons_plain hc, hrest]
    exact .cons_char hc (hrest ▸ ih)

theorem takeWhile_plain {body : List Char} (hbody : Plain body) {lineEnd : List Char}
    (hend : lineEnd = [] ∨ IsEnd lineEnd) :
    (body ++ lineEnd).takeWhile (fun c => c ≠ '\n' ∧ c ≠ '\r') = body := by
  rw [List.takeWhile_append_of_pos (by simpa [Plain] using hbody)]
  rcases hend with rfl | rfl | rfl | rfl <;> simp

theorem delivered_append {body lineEnd : List Char} (hbody : Plain body) (hend : IsEnd lineEnd) :
    delivered (body ++ lineEnd) = body ++ ['\n'] := by
  have hlength : 0 < lineEnd.length := by rcases hend with rfl | rfl | rfl <;> decide
  rw [delivered, takeWhile_plain hbody (.inr hend), if_pos]
  rw [List.length_append]
  omega

theorem delivered_plain {body : List Char} (hbody : Plain body) : delivered body = body := by
  have htake := takeWhile_plain hbody (.inl rfl)
  rw [List.append_nil] at htake
  rw [delivered, htake, if_neg (lt_irrefl _)]

/-- The reader is given nothing but `\n`. -/
theorem isLines_delivered {l : List (List Char)} (h : AreLines l) : IsLines (l.map delivered) := by
  induction h with
  | nil => exact .nil
  | last hbody hne =>
    rw [List.map_singleton, delivered_plain hbody]
    exact .last hbody hne
  | cons hbody hend _ ih =>
    rw [List.map_cons, delivered_append hbody hend]
    exact .cons hbody ih

theorem IsLines.not_mem {l : List (List Char)} (h : IsLines l) : '\r' ∉ l.flatten := by
  induction h with
  | nil => exact List.not_mem_nil
  | last hbody _ =>
    simpa using fun hmem => (hbody _ hmem).2 rfl
  | cons hbody _ ih =>
    rw [List.flatten_cons, List.mem_append, List.mem_append]
    rintro ((hmem | hmem) | hmem)
    · exact (hbody _ hmem).2 rfl
    · simp at hmem
    · exact ih hmem

/-- A line without `\r` is given as it stands. -/
theorem delivered_of_not_mem {l : List (List Char)} (h : AreLines l) {line : List Char}
    (hmem : line ∈ l) (hnot : '\r' ∉ line) : delivered line = line := by
  induction h with
  | nil => cases hmem
  | last hbody _ =>
    rw [List.mem_singleton.1 hmem]
    exact delivered_plain hbody
  | cons hbody hend _ ih =>
    rcases List.mem_cons.1 hmem with rfl | hmem
    · rw [delivered_append hbody hend]
      rcases hend with rfl | rfl | rfl
      · rfl
      · exact absurd (by simp) hnot
      · exact absurd (by simp) hnot
    · exact ih hmem

/-- What a line begins with. -/
theorem head?_delivered {c : Char} (hc : c ≠ '\n' ∧ c ≠ '\r') {l : List (List Char)}
    (h : AreLines l) {line : List Char} (hmem : line ∈ l) :
    (delivered line).head? = some c ↔ line.head? = some c := by
  induction h with
  | nil => cases hmem
  | last hbody _ =>
    rw [List.mem_singleton.1 hmem, delivered_plain hbody]
  | @cons body lineEnd more hbody hend _ ih =>
    rcases List.mem_cons.1 hmem with rfl | hmem
    · rw [delivered_append hbody hend]
      cases body with
      | cons d body => exact Iff.rfl
      | nil =>
        obtain ⟨hline, hreturn⟩ := hc
        rcases hend with rfl | rfl | rfl <;> simp [Ne.symm hline, Ne.symm hreturn]
    · exact ih hmem

/-! ### Cuts -/

variable {α : Type}

/-- **A list that is cut behind marked elements**, once in every piece, is cut behind each of
them. -/
theorem exists_take_of_cut {p : α → Bool} {pieces : List (List α)}
    (hpieces : ∀ piece ∈ pieces, ∃ front last, piece = front ++ [last] ∧ p last = true ∧
      ∀ a ∈ front, p a = false) {before after : List α} {a : α} (ha : p a = true)
    (h : pieces.flatten = before ++ a :: after) :
    ∃ k ≤ pieces.length, (pieces.take k).flatten = before ++ [a] := by
  induction pieces generalizing before with
  | nil => simp at h
  | cons piece pieces ih =>
    obtain ⟨front, last, rfl, hlast, hfront⟩ := hpieces piece List.mem_cons_self
    rw [List.flatten_cons, List.append_assoc, List.singleton_append] at h
    rcases List.append_eq_append_iff.1 h with ⟨between, rfl, hrest⟩ | ⟨between, rfl, hrest⟩
    · cases between with
      | nil =>
        obtain ⟨rfl, -⟩ := List.cons.inj hrest
        exact ⟨1, by simp, by simp⟩
      | cons b between =>
        obtain ⟨rfl, htail⟩ := List.cons.inj hrest
        obtain ⟨k, hk, htake⟩ := ih (fun piece hpiece => hpieces piece (.tail _ hpiece)) htail
        refine ⟨k + 1, by rw [List.length_cons]; omega, ?_⟩
        rw [List.take_succ_cons, List.flatten_cons, htake]
        simp
    · cases between with
      | nil =>
        obtain ⟨rfl, -⟩ := List.cons.inj hrest
        exact ⟨1, by simp, by simp⟩
      | cons b between =>
        -- a mark inside a piece
        obtain ⟨rfl, -⟩ := List.cons.inj hrest
        rw [hfront a (by simp)] at ha
        cases ha

end Lines
