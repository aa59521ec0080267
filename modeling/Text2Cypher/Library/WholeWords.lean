import Mathlib.Data.List.Chain

/-!
# Whole words of a list

`runs p l` splits a list into its maximal runs of elements satisfying `p`, keeping apart the run
the list begins with; `wholeWords p l` lists all of them.  This is what a word-boundary search
sees of a text, `p` being "is a word character".

* `runs_map`, `wholeWords_map`: the runs of a list seen through a map;
* `split_of_mem_wholeWords`, `mem_wholeWords_of_split`: whole words are what stands between
  separators;
* `wholeWords_and`: if a flag `f` never changes inside a run of `p`, the runs of `p ∧ f` are the
  runs of `p` on which `f` holds throughout.
-/

namespace WholeWords

variable {α β : Type}

/-- Put a run before the later ones, unless it is empty. -/
def keep (r : List α × List (List α)) : List (List α) :=
  if r.1 = [] then r.2 else r.1 :: r.2

/-- The run the list begins with (possibly empty), and the later runs. -/
def runs (p : α → Bool) : List α → List α × List (List α)
  | [] => ([], [])
  | a :: l => if p a then (a :: (runs p l).1, (runs p l).2) else ([], keep (runs p l))

/-- The maximal nonempty runs of elements satisfying `p`. -/
def wholeWords (p : α → Bool) (l : List α) : List (List α) := keep (runs p l)

@[simp] theorem keep_nil (r : List (List α)) : keep (([], r) : List α × List (List α)) = r := rfl

@[simp] theorem keep_cons (a : α) (w : List α) (r : List (List α)) :
    keep (a :: w, r) = (a :: w) :: r := rfl

@[simp] theorem runs_nil (p : α → Bool) : runs p [] = ([], []) := rfl

theorem runs_cons_word {p : α → Bool} {a : α} (h : p a = true) (l : List α) :
    runs p (a :: l) = (a :: (runs p l).1, (runs p l).2) := by simp [runs, h]

theorem runs_cons_sep {p : α → Bool} {a : α} (h : p a = false) (l : List α) :
    runs p (a :: l) = ([], wholeWords p l) := by simp [runs, h, wholeWords]

/-- A separator in front of a list that begins with no run changes nothing. -/
theorem runs_cons_sep_of_fst {p : α → Bool} {a : α} (h : p a = false) {l : List α}
    (hl : (runs p l).1 = []) : runs p (a :: l) = runs p l := by
  rw [runs_cons_sep h, wholeWords, keep, if_pos hl, ← hl]

/-- The runs of `l.map f`, when `f` agrees with `g` on the elements of the runs. -/
theorem runs_map {p : α → Bool} {q : β → Bool} {f g : α → β} (hq : ∀ a, q (f a) = p a)
    (hg : ∀ a, p a = true → f a = g a) (l : List α) :
    runs q (l.map f) = ((runs p l).1.map g, (runs p l).2.map (List.map g)) := by
  induction l with
  | nil => rfl
  | cons a l ih =>
    rw [List.map_cons]
    cases h : p a with
    | true => rw [runs_cons_word (by rw [hq, h]), runs_cons_word h, ih, hg a h]; rfl
    | false =>
      rw [runs_cons_sep (by rw [hq, h]), runs_cons_sep h, wholeWords, ih, wholeWords]
      cases hr : (runs p l).1 with
      | nil => simp [keep, hr]
      | cons b w => simp [keep, hr]

theorem wholeWords_map {p : α → Bool} {q : β → Bool} {f g : α → β} (hq : ∀ a, q (f a) = p a)
    (hg : ∀ a, p a = true → f a = g a) (l : List α) :
    wholeWords q (l.map f) = (wholeWords p l).map (List.map g) := by
  rw [wholeWords, runs_map hq hg, wholeWords]
  cases hr : (runs p l).1 with
  | nil => simp [keep, hr]
  | cons b w => simp [keep, hr]

/-- The leading run of `p` carries one value of `f`. -/
theorem runs_fst_uniform {p f : α → Bool} {l : List α}
    (h : l.IsChain (fun a b => p a = true → p b = true → f a = f b)) :
    (∀ a ∈ (runs p l).1, f a = true) ∨ (∀ a ∈ (runs p l).1, f a = false) := by
  induction l with
  | nil => simp
  | cons a l ih =>
    cases hp : p a with
    | false => simp [runs_cons_sep hp]
    | true =>
      rw [runs_cons_word hp]
      cases l with
      | nil => cases hf : f a <;> simp [hf]
      | cons b l =>
        obtain ⟨hab, hl⟩ := List.isChain_cons_cons.1 h
        cases hb : p b with
        | false => cases hf : f a <;> simp [runs_cons_sep hb, hf]
        | true =>
          have hfb : f a = f b := hab hp hb
          have hmem : b ∈ (runs p (b :: l)).1 := by simp [runs_cons_word hb]
          rcases ih hl with hall | hall
          · exact Or.inl (by simp only [List.forall_mem_cons]; exact ⟨hfb.trans (hall b hmem), hall⟩)
          · exact Or.inr (by simp only [List.forall_mem_cons]; exact ⟨hfb.trans (hall b hmem), hall⟩)

private theorem runs_and {p f : α → Bool} {l : List α}
    (h : l.IsChain (fun a b => p a = true → p b = true → f a = f b)) :
    runs (fun a => p a && f a) l =
      (if (runs p l).1.all f then (runs p l).1 else [], (runs p l).2.filter (List.all · f)) := by
  induction l with
  | nil => rfl
  | cons a l ih =>
    have ih := ih h.tail
    have huni := runs_fst_uniform h
    cases hp : p a with
    | false =>
      rw [runs_cons_sep (by simp [hp]), runs_cons_sep hp, wholeWords, ih, wholeWords]
      cases hr : (runs p l).1 with
      | nil => simp [keep, hr]
      | cons b w =>
        by_cases hall : (b :: w).all f = true
        · simp only [keep, hr, hall]; simp [hall]
        · simp only [keep, hr, hall]; simp [hall]
    | true =>
      rw [runs_cons_word hp] at huni ⊢
      cases hf : f a with
      | true =>
        have hall : (runs p l).1.all f = true := by
          rcases huni with hu | hu
          · exact List.all_eq_true.2 fun b hb => hu b (List.mem_cons_of_mem _ hb)
          · rw [hu a List.mem_cons_self] at hf; cases hf
        rw [runs_cons_word (by simp [hp, hf]), ih]
        simp [hall, hf]
      | false =>
        rw [runs_cons_sep (by simp [hp, hf]), wholeWords, ih]
        have hkeep : ((runs p l).1.all f = true) → (runs p l).1 = [] := by
          intro hall
          rcases huni with hu | hu
          · rw [hu a List.mem_cons_self] at hf; cases hf
          · rw [List.eq_nil_iff_forall_not_mem]
            intro b hb
            have h1 := List.all_eq_true.1 hall b hb
            rw [hu b (List.mem_cons_of_mem _ hb)] at h1
            cases h1
        by_cases hall : (runs p l).1.all f = true
        · simp [hkeep hall, hf, keep]
        · simp [hall, hf, keep]

/-- If `f` is constant on the runs of `p`, the runs of `p ∧ f` are those on which `f` holds. -/
theorem wholeWords_and {p f : α → Bool} {l : List α}
    (h : l.IsChain (fun a b => p a = true → p b = true → f a = f b)) :
    wholeWords (fun a => p a && f a) l = (wholeWords p l).filter (List.all · f) := by
  rw [wholeWords, runs_and h, wholeWords]
  cases hr : (runs p l).1 with
  | nil => simp [keep, hr]
  | cons b w =>
    by_cases hall : (b :: w).all f = true
    · simp only [keep, hr, hall]; simp [hall]
    · simp only [keep, hr, hall]; simp [hall]

/-- Separators at the ends of a list change nothing. -/
theorem wholeWords_append_seps {p : α → Bool} (l : List α) {seps : List α}
    (h : ∀ a ∈ seps, p a = false) : wholeWords p (l ++ seps) = wholeWords p l := by
  have hseps : runs p seps = ([], []) := by
    induction seps with
    | nil => rfl
    | cons a seps ih =>
      rw [runs_cons_sep (h a List.mem_cons_self), wholeWords,
        ih fun b hb => h b (List.mem_cons_of_mem a hb)]
      rfl
  have hruns : runs p (l ++ seps) = runs p l := by
    induction l with
    | nil => exact hseps
    | cons a l ih => rw [List.cons_append, runs, runs, ih]
  rw [wholeWords, wholeWords, hruns]

theorem wholeWords_seps_append {p : α → Bool} (l : List α) {seps : List α}
    (h : ∀ a ∈ seps, p a = false) : wholeWords p (seps ++ l) = wholeWords p l := by
  induction seps with
  | nil => rfl
  | cons a seps ih =>
    rw [List.cons_append, wholeWords, runs_cons_sep (h a List.mem_cons_self), keep_nil,
      ih fun b hb => h b (List.mem_cons_of_mem a hb)]

/-! ### Words by their neighbours -/

/-- What a list begins with, and where its later runs stand. -/
theorem runs_spec (p : α → Bool) (l : List α) :
    (∃ after, l = (runs p l).1 ++ after ∧ ∀ b ∈ after.head?, p b = false) ∧
      (∀ b ∈ (runs p l).1, p b = true) ∧
      ∀ w ∈ (runs p l).2, w ≠ [] ∧ (∀ b ∈ w, p b = true) ∧ ∃ before a after,
        l = before ++ a :: (w ++ after) ∧ p a = false ∧ ∀ b ∈ after.head?, p b = false := by
  induction l with
  | nil => exact ⟨⟨[], rfl, by simp⟩, by simp, by simp⟩
  | cons a l ih =>
    obtain ⟨⟨after, hl, hafter⟩, hword, hlater⟩ := ih
    have hmore : ∀ w ∈ (runs p l).2, w ≠ [] ∧ (∀ b ∈ w, p b = true) ∧ ∃ before a' after,
        a :: l = before ++ a' :: (w ++ after) ∧ p a' = false ∧ ∀ b ∈ after.head?, p b = false := by
      intro w hw
      obtain ⟨hne, hall, before, a', after, heq, ha', hafter⟩ := hlater w hw
      exact ⟨hne, hall, a :: before, a', after, congrArg (List.cons a) heq, ha', hafter⟩
    cases hp : p a with
    | true =>
      rw [runs_cons_word hp]
      exact ⟨⟨after, congrArg (List.cons a) hl, hafter⟩, List.forall_mem_cons.2 ⟨hp, hword⟩, hmore⟩
    | false =>
      rw [runs_cons_sep hp]
      refine ⟨⟨a :: l, rfl, by simpa using hp⟩, by simp, fun w hw => ?_⟩
      rw [wholeWords, keep] at hw
      split_ifs at hw with hfirst
      · exact hmore w hw
      · rcases List.mem_cons.1 hw with rfl | hw
        · exact ⟨hfirst, hword, [], a, after, congrArg (List.cons a) hl, hp, hafter⟩
        · exact hmore w hw

/-- **A whole word stands between separators**, or at an end of the list. -/
theorem split_of_mem_wholeWords {p : α → Bool} {l w : List α} (h : w ∈ wholeWords p l) :
    w ≠ [] ∧ (∀ b ∈ w, p b = true) ∧ ∃ before after, l = before ++ (w ++ after) ∧
      (∀ b ∈ before.getLast?, p b = false) ∧ ∀ b ∈ after.head?, p b = false := by
  obtain ⟨⟨after, hl, hafter⟩, hword, hlater⟩ := runs_spec p l
  rw [wholeWords, keep] at h
  have hcase : w ∈ (runs p l).2 ∨ w = (runs p l).1 ∧ w ≠ [] := by
    split_ifs at h with hfirst
    · exact Or.inl h
    · rcases List.mem_cons.1 h with rfl | h
      · exact Or.inr ⟨rfl, hfirst⟩
      · exact Or.inl h
  rcases hcase with hw | ⟨rfl, hne⟩
  · obtain ⟨hne, hall, before, a, after, heq, ha, hafter⟩ := hlater w hw
    refine ⟨hne, hall, before ++ [a], after, ?_, ?_, hafter⟩
    · rw [heq, List.append_assoc, List.singleton_append]
    · rw [List.getLast?_append, List.getLast?_singleton]
      simpa using ha
  · exact ⟨hne, hword, [], after, hl, by simp, hafter⟩

theorem runs_append {p : α → Bool} {w : List α} (hw : ∀ b ∈ w, p b = true) (l : List α) :
    runs p (w ++ l) = (w ++ (runs p l).1, (runs p l).2) := by
  induction w with
  | nil => rfl
  | cons a w ih =>
    rw [List.cons_append, runs_cons_word (hw a List.mem_cons_self),
      ih fun b hb => hw b (List.mem_cons_of_mem a hb)]
    rfl

theorem runs_fst_of_head {p : α → Bool} {l : List α} (h : ∀ b ∈ l.head?, p b = false) :
    (runs p l).1 = [] := by
  cases l with
  | nil => rfl
  | cons a l => rw [runs_cons_sep (h a rfl)]

/-- What stands between separators is a whole word. -/
theorem mem_wholeWords_of_split {p : α → Bool} {before w after : List α} (hne : w ≠ [])
    (hw : ∀ b ∈ w, p b = true) (hbefore : ∀ b ∈ before.getLast?, p b = false)
    (hafter : ∀ b ∈ after.head?, p b = false) : w ∈ wholeWords p (before ++ (w ++ after)) := by
  have hfirst : w ∈ wholeWords p (w ++ after) := by
    rw [wholeWords, runs_append hw, runs_fst_of_head hafter, List.append_nil, keep, if_neg hne]
    exact List.mem_cons_self
  have hlater : ∀ l : List α, w ∈ wholeWords p l → ∀ before : List α, before ≠ [] →
      (∀ b ∈ before.getLast?, p b = false) → w ∈ (runs p (before ++ l)).2 := by
    intro l hl before
    induction before with
    | nil => exact fun h => absurd rfl h
    | cons a before ih =>
      intro _ hlast
      by_cases hnil : before = []
      · subst hnil
        rw [List.singleton_append, runs_cons_sep (hlast a rfl)]
        exact hl
      · rw [List.getLast?_cons_of_ne_nil hnil] at hlast
        have hrest := ih hnil hlast
        rw [List.cons_append]
        cases hp : p a with
        | true => rwa [runs_cons_word hp]
        | false =>
          rw [runs_cons_sep hp, wholeWords, keep]
          split_ifs
          · exact hrest
          · exact List.mem_cons_of_mem _ hrest
  by_cases hnil : before = []
  · rw [hnil]
    exact hfirst
  · have hmem := hlater _ hfirst before hnil hbefore
    rw [wholeWords, keep]
    split_ifs
    · exact hmem
    · exact List.mem_cons_of_mem _ hmem

end WholeWords
