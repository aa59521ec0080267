import Mathlib.Data.List.Basic

/-!
# Squeezing blanks

The words of a text with one separator between them, and the same in one pass that looks at the last
element written.

* **`close_foldl_step`**: the pass writes the words with one separator between them.
-/

namespace Squeezing

variable {α : Type} (blank : α → Bool) (sep : α)

/-- The words between blanks. -/
def words (l : List α) : List (List α) := (l.splitOnP blank).filter (· ≠ [])

/-- The words with one separator between them. -/
def squeeze (l : List α) : List α := [sep].intercalate (words blank l)

variable {blank sep}

/-! ### Words -/

theorem words_cons_blank {a : α} (h : blank a = true) (l : List α) :
    words blank (a :: l) = words blank l := by
  rw [words, List.splitOnP_cons_eq_if_modifyHead, if_pos h]
  rfl

/-- A letter is put in front of the first piece. -/
theorem exists_splitOnP_cons {a : α} (h : ¬ blank a = true) (l : List α) :
    ∃ piece pieces, l.splitOnP blank = piece :: pieces ∧
      (a :: l).splitOnP blank = (a :: piece) :: pieces := by
  obtain ⟨piece, pieces, hsplit⟩ := List.exists_cons_of_ne_nil (List.splitOnP_ne_nil blank l)
  refine ⟨piece, pieces, hsplit, ?_⟩
  rw [List.splitOnP_cons_eq_if_modifyHead, if_neg h, hsplit]
  rfl

theorem intercalate_cons (w : List α) (ws : List (List α)) :
    [sep].intercalate (w :: ws) = w ++ ws.flatMap (sep :: ·) := by
  induction ws generalizing w with
  | nil => simp
  | cons v ws ih => simp [List.intercalate_cons_cons, ih]

/-! ### The pass -/

section

variable [DecidableEq α] (blank sep)

/-- One element more; what is written so far is kept reversed. -/
def step (acc : List α) (a : α) : List α :=
  if blank a then
    match acc with
    | [] => []
    | b :: rest => if b = sep then acc else sep :: b :: rest
  else a :: acc

/-- The end: a separator that no word follows is dropped. -/
def close : List α → List α
  | [] => []
  | b :: rest => if b = sep then rest else b :: rest

end

variable [DecidableEq α]

@[simp] theorem step_nil {a : α} (h : blank a = true) : step blank sep [] a = [] := if_pos h

@[simp] theorem step_sep {a : α} (h : blank a = true) (rest : List α) :
    step blank sep (sep :: rest) a = sep :: rest := by
  simp [step, h]

theorem step_blank {a b : α} (h : blank a = true) (hb : b ≠ sep) (rest : List α) :
    step blank sep (b :: rest) a = sep :: b :: rest := by
  simp [step, h, hb]

theorem step_letter {a : α} (h : ¬ blank a = true) (acc : List α) :
    step blank sep acc a = a :: acc := if_neg h

/-- What is written behind a separator, and what is written behind a letter. -/
theorem close_foldl_cons (hsep : blank sep = true) (l : List α) :
    (∀ acc, (∀ b ∈ acc.head?, b ≠ sep) →
      (close sep (l.foldl (step blank sep) (sep :: acc))).reverse =
        acc.reverse ++ (words blank l).flatMap (sep :: ·)) ∧
    ∀ b acc, b ≠ sep → ∀ piece pieces, l.splitOnP blank = piece :: pieces →
      (close sep (l.foldl (step blank sep) (b :: acc))).reverse =
        (b :: acc).reverse ++ piece ++ (pieces.filter (· ≠ [])).flatMap (sep :: ·) := by
  induction l with
  | nil =>
    refine ⟨fun acc hacc => ?_, fun b acc hb piece pieces hsplit => ?_⟩
    · simp [close, words]
    · obtain ⟨rfl, rfl⟩ : [] = piece ∧ [] = pieces := by simpa using hsplit
      simp [close, hb]
  | cons a l ih =>
    obtain ⟨ihsep, ihletter⟩ := ih
    by_cases ha : blank a = true
    · refine ⟨fun acc hacc => ?_, fun b acc hb piece pieces hsplit => ?_⟩
      · rw [List.foldl_cons, step_sep ha, ihsep acc hacc, words_cons_blank ha]
      · rw [List.splitOnP_cons_eq_if_modifyHead, if_pos ha] at hsplit
        obtain ⟨rfl, rfl⟩ := List.cons.inj hsplit
        rw [List.foldl_cons, step_blank ha hb, ihsep _ (by simpa using hb), List.append_nil]
        rfl
    · have hne : a ≠ sep := fun h => ha (h ▸ hsep)
      obtain ⟨piece', pieces', hl, hal⟩ := exists_splitOnP_cons ha l
      refine ⟨fun acc hacc => ?_, fun b acc hb piece pieces hsplit => ?_⟩
      · rw [List.foldl_cons, step_letter ha, ihletter a _ hne piece' pieces' hl, words, hal]
        simp
      · rw [hal] at hsplit
        obtain ⟨rfl, rfl⟩ := List.cons.inj hsplit
        rw [List.foldl_cons, step_letter ha, ihletter a _ hne piece' pieces' hl]
        simp

/-- **The pass** writes the words with one separator between them. -/
theorem close_foldl_step (hsep : blank sep = true) (l : List α) :
    (close sep (l.foldl (step blank sep) [])).reverse = squeeze blank sep l := by
  induction l with
  | nil => rfl
  | cons a l ih =>
    by_cases ha : blank a = true
    · rw [List.foldl_cons, step_nil ha, ih, squeeze, squeeze, words_cons_blank ha]
    · have hne : a ≠ sep := fun h => ha (h ▸ hsep)
      obtain ⟨piece, pieces, hl, hal⟩ := exists_splitOnP_cons ha l
      rw [List.foldl_cons, step_letter ha, (close_foldl_cons hsep l).2 a [] hne piece pieces hl,
        squeeze, words, hal, List.filter_cons_of_pos (by simp), intercalate_cons]
      simp

end Squeezing
