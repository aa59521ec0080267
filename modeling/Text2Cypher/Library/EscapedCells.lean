import Mathlib.Algebra.GroupWithZero.Nat
import Mathlib.Data.List.Chain
import Mathlib.Data.List.Forall2
import Mathlib.Tactic.SplitIfs
import Mathlib.Tactic.Cases

/-!
# Lines of escaped cells

A line of cells, each between separators and padded on both sides, in which an escape takes an
escape or a separator after it literally.  A writer that escapes separators only is read back except
where an escape of its own meets what comes after it.

* `delimiters_line`: the delimiters of a line, from those of its cells;
* `readCells_line`: cells without delimiters are read back;
* **`split_escape`**: when an escaped text is read as the text.
-/

namespace EscapedCells

variable {α : Type*} {esc sep pad : α}

/-! ### Pieces -/

/-- An item in front of the first piece. -/
def push (c : α) : List (List α) → List (List α)
  | [] => [[c]]
  | piece :: pieces => (c :: piece) :: pieces

/-- Pieces in front of others, the last of them joined to the first of the others. -/
def glue : List (List α) → List (List α) → List (List α)
  | [], others => others
  | [piece], [] => [piece]
  | [piece], other :: others => (piece ++ other) :: others
  | piece :: next :: pieces, others => piece :: glue (next :: pieces) others

theorem push_ne_nil (c : α) (pieces : List (List α)) : push c pieces ≠ [] := by
  cases pieces with
  | nil => exact List.cons_ne_nil _ _
  | cons piece pieces => exact List.cons_ne_nil _ _

theorem length_push (c : α) {pieces : List (List α)} (h : pieces ≠ []) :
    (push c pieces).length = pieces.length := by
  cases pieces with
  | nil => exact absurd rfl h
  | cons piece pieces => rfl

theorem length_flatten_push (c : α) (pieces : List (List α)) :
    (push c pieces).flatten.length = pieces.flatten.length + 1 := by
  cases pieces with
  | nil => rfl
  | cons piece pieces => simp [push]

theorem push_eq_singleton {c : α} {pieces : List (List α)} (h : pieces ≠ []) {text : List α} :
    push c pieces = [c :: text] ↔ pieces = [text] := by
  cases pieces with
  | nil => exact absurd rfl h
  | cons piece pieces => simp [push]

theorem glue_push (c : α) {pieces : List (List α)} (h : pieces ≠ []) (others : List (List α)) :
    glue (push c pieces) others = push c (glue pieces others) := by
  match pieces, others with
  | [], _ => exact absurd rfl h
  | [piece], [] => rfl
  | [piece], other :: others => rfl
  | piece :: next :: pieces, others => rfl

theorem glue_nil_cons {pieces : List (List α)} (h : pieces ≠ []) (others : List (List α)) :
    glue ([] :: pieces) others = [] :: glue pieces others := by
  cases pieces with
  | nil => exact absurd rfl h
  | cons piece pieces => rfl

theorem length_glue {pieces others : List (List α)} (h : pieces ≠ []) (h' : others ≠ []) :
    (glue pieces others).length + 1 = pieces.length + others.length := by
  match pieces, others with
  | [], _ => exact absurd rfl h
  | _, [] => exact absurd rfl h'
  | [piece], other :: others =>
    show others.length + 1 + 1 = 1 + (others.length + 1)
    omega
  | piece :: next :: pieces, other :: others =>
    have ih := length_glue (List.cons_ne_nil next pieces) h'
    show (glue (next :: pieces) (other :: others)).length + 1 + 1 =
      (next :: pieces).length + 1 + (other :: others).length
    omega

variable [DecidableEq α]

/-! ### Reading -/

/-- The pieces of a line between the separators that are not escaped, as they are read. -/
def split (esc sep : α) : List α → List (List α)
  | [] => [[]]
  | [c] => if c = sep then [[], []] else [[c]]
  | c :: d :: rest =>
      if c = esc ∧ (d = esc ∨ d = sep) then push d (split esc sep rest)
      else if c = sep then [] :: split esc sep (d :: rest)
      else push c (split esc sep (d :: rest))

/-- The number of separators that are not escaped. -/
def delimiters (esc sep : α) (line : List α) : ℕ := (split esc sep line).length - 1

theorem split_ne_nil (line : List α) : split esc sep line ≠ [] := by
  fun_cases split esc sep line
  · exact List.cons_ne_nil _ _
  · exact List.cons_ne_nil _ _
  · exact List.cons_ne_nil _ _
  · exact push_ne_nil _ _
  · exact List.cons_ne_nil _ _
  · exact push_ne_nil _ _

theorem length_split (line : List α) :
    (split esc sep line).length = delimiters esc sep line + 1 := by
  have hne : split esc sep line ≠ [] := split_ne_nil line
  have := List.length_pos_iff.2 hne
  unfold delimiters
  omega

theorem split_sep (hne : esc ≠ sep) (line : List α) :
    split esc sep (sep :: line) = [] :: split esc sep line := by
  cases line with
  | nil => simp only [split, if_true]
  | cons d rest => rw [split, if_neg fun h => hne h.1.symm, if_pos rfl]

theorem split_plain {c : α} (hesc : c ≠ esc) (hsep : c ≠ sep) (line : List α) :
    split esc sep (c :: line) = push c (split esc sep line) := by
  cases line with
  | nil =>
    simp only [split, if_neg hsep]
    rfl
  | cons d rest => rw [split, if_neg fun h => hesc h.1, if_neg hsep]

/-- What comes before an item that is neither escape nor separator is read by itself. -/
theorem split_append (hne : esc ≠ sep) {c : α} (hesc : c ≠ esc) (hsep : c ≠ sep)
    (line rest : List α) :
    split esc sep (line ++ c :: rest) = glue (split esc sep line) (split esc sep (c :: rest)) := by
  have hpieces : split esc sep (c :: rest) ≠ [] := split_ne_nil (c :: rest)
  fun_induction split esc sep line with
  | case1 =>
    obtain ⟨piece, pieces, hsplit⟩ := List.exists_cons_of_ne_nil hpieces
    rw [List.nil_append, hsplit]
    rfl
  | case2 =>
    obtain ⟨piece, pieces, hsplit⟩ := List.exists_cons_of_ne_nil hpieces
    rw [List.singleton_append, split_sep hne, hsplit]
    rfl
  | case3 d hd =>
    obtain ⟨piece, pieces, hsplit⟩ := List.exists_cons_of_ne_nil hpieces
    rw [List.singleton_append, split, if_neg fun h => h.2.elim hesc hsep, if_neg hd, hsplit]
    rfl
  | case4 d e line h ih =>
    rw [List.cons_append, List.cons_append, split, if_pos h, ih, glue_push _ (split_ne_nil _)]
  | case5 e line h ih =>
    rw [List.cons_append, List.cons_append, split, if_neg h, if_pos rfl, ← List.cons_append, ih,
      glue_nil_cons (split_ne_nil _)]
  | case6 d e line h hd ih =>
    rw [List.cons_append, List.cons_append, split, if_neg h, if_neg hd, ← List.cons_append, ih,
      glue_push _ (split_ne_nil _)]

/-! ### Lines -/

/-- A line of cells. -/
def line (sep pad : α) (cells : List (List α)) : List α :=
  (cells.flatMap fun cell => sep :: pad :: (cell ++ [pad])) ++ [sep]

/-- A cell without its padding. -/
def unpadded (piece : List α) : List α := piece.tail.dropLast

/-- The cells of a line, as they are read. -/
def readCells (esc sep : α) (line : List α) : List (List α) :=
  (split esc sep line).tail.dropLast.map unpadded

omit [DecidableEq α] in
theorem line_cons (cell : List α) (cells : List (List α)) :
    line sep pad (cell :: cells) = sep :: pad :: (cell ++ pad :: line sep pad cells) := by
  simp [line]

section

variable (hne : esc ≠ sep) (hesc : pad ≠ esc) (hsep : pad ≠ sep)

include hne hesc hsep

theorem split_line_cons (cell : List α) (cells : List (List α)) :
    split esc sep (line sep pad (cell :: cells)) =
      [] :: push pad (glue (split esc sep cell) (push pad (split esc sep (line sep pad cells)))) := by
  rw [line_cons, split_sep hne, split_plain hesc hsep, split_append hne hesc hsep,
    split_plain hesc hsep]

/-- **The delimiters of a line**: one for each cell, one at the end, and those in the cells. -/
theorem delimiters_line (cells : List (List α)) :
    delimiters esc sep (line sep pad cells) =
      cells.length + 1 + (cells.map (delimiters esc sep)).sum := by
  induction cells with
  | nil =>
    rw [delimiters, show line sep pad [] = sep :: [] from rfl, split_sep hne, split]
    rfl
  | cons cell cells ih =>
    have hcell : split esc sep cell ≠ [] := split_ne_nil cell
    have hglue := length_glue hcell (push_ne_nil pad (split esc sep (line sep pad cells)))
    rw [length_push _ (split_ne_nil _), length_split, length_split, ih] at hglue
    have hne' : glue (split esc sep cell) (push pad (split esc sep (line sep pad cells))) ≠ [] := by
      intro hnil
      rw [hnil, List.length_nil] at hglue
      omega
    rw [delimiters, split_line_cons hne hesc hsep, List.length_cons, length_push _ hne',
      List.map_cons, List.sum_cons, List.length_cons]
    omega

/-- The pieces of a line of cells without delimiters. -/
theorem split_line {cells texts : List (List α)}
    (h : List.Forall₂ (fun cell text => split esc sep cell = [text]) cells texts) :
    split esc sep (line sep pad cells) =
      [] :: (texts.map fun text => pad :: (text ++ [pad])) ++ [[]] := by
  induction h with
  | nil =>
    rw [show line sep pad [] = sep :: [] from rfl, split_sep hne, split]
    rfl
  | @cons cell text cells texts hcell _ ih =>
    rw [split_line_cons hne hesc hsep, hcell, ih]
    rfl

/-- **Cells without delimiters are read back.** -/
theorem readCells_line {cells texts : List (List α)}
    (h : List.Forall₂ (fun cell text => split esc sep cell = [text]) cells texts) :
    readCells esc sep (line sep pad cells) = texts := by
  rw [readCells, split_line hne hesc hsep h, List.cons_append, List.tail_cons,
    List.dropLast_concat, List.map_map]
  refine (List.map_congr_left fun text _ => ?_).trans (List.map_id texts)
  show (text ++ [pad]).dropLast = text
  exact List.dropLast_concat

end

/-! ### Escaped texts -/

/-- A text with its separators escaped. -/
def escape (esc sep : α) (text : List α) : List α :=
  text.flatMap fun c => if c = sep then [esc, sep] else [c]

/-- No escape stands directly before an escape or a separator. -/
def Unambiguous (esc sep : α) (text : List α) : Prop :=
  text.IsChain fun c d => c = esc → d ≠ esc ∧ d ≠ sep

theorem mem_escape {c : α} (hesc : c ≠ esc) {text : List α} :
    c ∈ escape esc sep text ↔ c ∈ text := by
  induction text with
  | nil => exact Iff.rfl
  | cons d text ih =>
    rw [escape, List.flatMap_cons, List.mem_append, ← escape, ih, List.mem_cons]
    refine or_congr_left ?_
    split_ifs with hd
    · rw [List.mem_cons, List.mem_singleton, hd]
      exact or_iff_right hesc
    · exact List.mem_singleton

theorem escape_sep (text : List α) :
    escape esc sep (sep :: text) = esc :: sep :: escape esc sep text := by
  rw [escape, List.flatMap_cons, if_pos rfl]
  rfl

theorem escape_plain {c : α} (h : c ≠ sep) (text : List α) :
    escape esc sep (c :: text) = c :: escape esc sep text := by
  rw [escape, List.flatMap_cons, if_neg h]
  rfl

theorem split_escape_sep (text : List α) :
    split esc sep (escape esc sep (sep :: text)) = push sep (split esc sep (escape esc sep text)) := by
  rw [escape_sep, split, if_pos ⟨rfl, Or.inr rfl⟩]

theorem split_escape_plain {c : α} (hesc : c ≠ esc) (hsep : c ≠ sep) (text : List α) :
    split esc sep (escape esc sep (c :: text)) = push c (split esc sep (escape esc sep text)) := by
  rw [escape_plain hsep, split_plain hesc hsep]

section

variable (hne : esc ≠ sep)

include hne

theorem split_escape_esc_esc (text : List α) :
    split esc sep (escape esc sep (esc :: esc :: text)) =
      push esc (split esc sep (escape esc sep text)) := by
  rw [escape_plain hne, escape_plain hne, split, if_pos ⟨rfl, Or.inl rfl⟩]

theorem split_escape_esc_sep (text : List α) :
    split esc sep (escape esc sep (esc :: sep :: text)) =
      push esc ([] :: split esc sep (escape esc sep text)) := by
  rw [escape_plain hne, escape_sep, split, if_pos ⟨rfl, Or.inl rfl⟩, split_sep hne]

theorem split_escape_esc_plain {c : α} (hesc : c ≠ esc) (hsep : c ≠ sep) (text : List α) :
    split esc sep (escape esc sep (esc :: c :: text)) =
      push esc (split esc sep (escape esc sep (c :: text))) := by
  rw [escape_plain hne, escape_plain hsep, split, if_neg fun h => h.2.elim hesc hsep, if_neg hne]

/-- What is read of an escaped text is not longer than the text. -/
theorem length_split_escape (text : List α) :
    (split esc sep (escape esc sep text)).flatten.length ≤ text.length := by
  match text with
  | [] => exact le_rfl
  | [c] =>
    by_cases hsep : c = sep
    · rw [hsep, split_escape_sep, length_flatten_push]
      exact le_rfl
    · rw [escape_plain hsep]
      show (split esc sep [c]).flatten.length ≤ 1
      rw [split, if_neg hsep]
      exact le_rfl
  | c :: d :: text =>
    have ih := length_split_escape text
    have ih' := length_split_escape (d :: text)
    rw [List.length_cons] at ih'
    rw [List.length_cons, List.length_cons]
    by_cases hsep : c = sep
    · rw [hsep, split_escape_sep, length_flatten_push]
      omega
    by_cases hesc : c = esc
    · rw [hesc]
      by_cases hd : d = esc
      · rw [hd, split_escape_esc_esc hne, length_flatten_push]
        omega
      by_cases hd' : d = sep
      · rw [hd', split_escape_esc_sep hne, length_flatten_push, List.flatten_cons, List.nil_append]
        omega
      · rw [split_escape_esc_plain hne hd hd', length_flatten_push]
        omega
    · rw [split_escape_plain hesc hsep, length_flatten_push]
      omega

/-- **When an escaped text is read as the text**: none of its own escapes stands directly before an
escape or a separator. -/
theorem split_escape (text : List α) :
    split esc sep (escape esc sep text) = [text] ↔ Unambiguous esc sep text := by
  match text with
  | [] => exact iff_of_true rfl List.isChain_nil
  | [c] =>
    refine iff_of_true ?_ (List.isChain_singleton c)
    by_cases hsep : c = sep
    · rw [hsep, split_escape_sep]
      rfl
    · rw [escape_plain hsep]
      show split esc sep [c] = [[c]]
      rw [split, if_neg hsep]
  | c :: d :: text =>
    have ih := split_escape (d :: text)
    rw [Unambiguous, List.isChain_cons_cons, ← Unambiguous, ← ih]
    by_cases hsep : c = sep
    · rw [hsep, split_escape_sep, push_eq_singleton (split_ne_nil _)]
      exact (and_iff_right fun h => absurd h.symm hne).symm
    by_cases hesc : c = esc
    · rw [hesc]
      by_cases hd : d = esc
      · -- the two escapes are read as one
        refine iff_of_false (fun h => ?_) fun h => (h.1 rfl).1 hd
        rw [hd, split_escape_esc_esc hne, push_eq_singleton (split_ne_nil _)] at h
        have := length_split_escape hne text
        rw [h, List.flatten_cons, List.flatten_nil, List.append_nil, List.length_cons] at this
        omega
      by_cases hd' : d = sep
      · -- the escape of the separator is read as escaped itself
        refine iff_of_false (fun h => ?_) fun h => (h.1 rfl).2 hd'
        rw [hd', split_escape_esc_sep hne, push_eq_singleton (List.cons_ne_nil _ _),
          List.cons.injEq] at h
        exact split_ne_nil _ h.2
      · rw [split_escape_esc_plain hne hd hd', push_eq_singleton (split_ne_nil _)]
        exact (and_iff_right fun _ => ⟨hd, hd'⟩).symm
    · rw [split_escape_plain hesc hsep, push_eq_singleton (split_ne_nil _)]
      exact (and_iff_right fun h => absurd h hesc).symm
  termination_by text.length

end

end EscapedCells
