import Mathlib.Data.List.Forall2
import Mathlib.Data.List.Induction

/-!
# Greedy choices

The elements of a list are gone through once, and one is taken unless it is in conflict with one
that is taken already.

* `pairwise_greedy`: what is taken is free of conflicts;
* **`mem_greedy`**: in a list that is sorted by an order, an element is taken exactly if no element
  before it is taken that it is in conflict with;
* `forall₂_greedy`: of two lists whose elements correspond, corresponding elements are taken.
-/

namespace Greedy

variable {α : Type} (conflicts : α → α → Bool)

/-- Take an element if it is in conflict with nothing that is taken. -/
def take (taken : List α) (a : α) : List α :=
  if taken.any (conflicts a) then taken else taken ++ [a]

def greedy (l : List α) : List α := l.foldl (take conflicts) []

variable {conflicts}

theorem greedy_concat (l : List α) (a : α) :
    greedy conflicts (l ++ [a]) = take conflicts (greedy conflicts l) a := List.foldl_append

theorem greedy_sublist (l : List α) : (greedy conflicts l).Sublist l := by
  induction l using List.reverseRecOn with
  | nil => exact List.Sublist.refl _
  | append_singleton l a ih =>
    rw [greedy_concat, take]
    split_ifs
    · exact ih.trans (List.sublist_append_left l [a])
    · exact ih.append_right [a]

theorem not_any_conflicts {taken : List α} {a : α} :
    ¬ taken.any (conflicts a) = true ↔ ∀ b ∈ taken, conflicts a b = false := by
  simp only [List.any_eq_true, not_exists, not_and, Bool.not_eq_true]

/-- What is taken is not in conflict with what was taken before. -/
theorem pairwise_greedy (l : List α) :
    (greedy conflicts l).Pairwise fun a b => conflicts b a = false := by
  induction l using List.reverseRecOn with
  | nil => exact List.Pairwise.nil
  | append_singleton l a ih =>
    rw [greedy_concat, take]
    split_ifs with h
    · exact ih
    · rw [not_any_conflicts] at h
      refine List.pairwise_append.2 ⟨ih, List.pairwise_singleton _ _, ?_⟩
      intro b hb c hc
      obtain rfl := List.mem_singleton.1 hc
      exact h b hb

/-- **What is taken**: the elements that are in conflict with nothing that is taken before them. -/
theorem mem_greedy {r : α → α → Prop} [Std.Asymm r] {l : List α} (hl : l.Pairwise r) {a : α} :
    a ∈ greedy conflicts l ↔
      a ∈ l ∧ ∀ b ∈ greedy conflicts l, r b a → conflicts a b = false := by
  have hirrefl : ∀ x, ¬ r x x := fun x hx => Std.Asymm.asymm x x hx hx
  induction l using List.reverseRecOn with
  | nil => exact iff_of_false List.not_mem_nil fun h => List.not_mem_nil h.1
  | append_singleton l x ih =>
    obtain ⟨hl, -, hlast⟩ := List.pairwise_append.1 hl
    have hbefore : ∀ b ∈ l, r b x := fun b hb => hlast b hb x (List.mem_singleton_self x)
    have hx : x ∉ l := fun hmem => hirrefl x (hbefore x hmem)
    by_cases ha : a = x
    · subst ha
      have hfresh : a ∉ greedy conflicts l := fun hmem => hx ((greedy_sublist l).mem hmem)
      rw [greedy_concat, take]
      split_ifs with h
      · refine iff_of_false hfresh fun hall => ?_
        obtain ⟨b, hb, hconflict⟩ := List.any_eq_true.1 h
        have hfree := hall.2 b hb (hbefore b ((greedy_sublist l).mem hb))
        rw [hconflict] at hfree
        cases hfree
      · rw [not_any_conflicts] at h
        refine iff_of_true (List.mem_append_right _ (List.mem_singleton_self a))
          ⟨List.mem_append_right _ (List.mem_singleton_self a), fun b hb hr => ?_⟩
        rcases List.mem_append.1 hb with hb | hb
        · exact h b hb
        · obtain rfl := List.mem_singleton.1 hb
          exact absurd hr (hirrefl b)
    · -- the last element neither is this one nor comes before it
      have hmem : ∀ taken : List α, a ∈ taken ++ [x] ↔ a ∈ taken := by
        intro taken
        rw [List.mem_append, List.mem_singleton, or_iff_left ha]
      rw [hmem l, greedy_concat, take]
      split_ifs with h
      · exact ih hl
      · refine (hmem _).trans ((ih hl).trans ?_)
        refine and_congr_right fun hmemL => forall_congr' fun b => ?_
        rw [List.mem_append, List.mem_singleton]
        constructor
        · rintro hall (hb | rfl) hr
          · exact hall hb hr
          · exact absurd hr (Std.Asymm.asymm _ _ (hbefore a hmemL))
        · exact fun hall hb hr => hall (Or.inl hb) hr

/-- Of lists whose elements correspond, with the same conflicts, corresponding elements are taken. -/
theorem forall₂_greedy {R : α → α → Prop}
    (hconflicts : ∀ {a a' b b'}, R a a' → R b b' → conflicts a b = conflicts a' b')
    {l l' : List α} (h : List.Forall₂ R l l') :
    List.Forall₂ R (greedy conflicts l) (greedy conflicts l') := by
  have hany : ∀ {taken taken' : List α} {a a' : α}, List.Forall₂ R taken taken' → R a a' →
      taken.any (conflicts a) = taken'.any (conflicts a') := by
    intro taken taken' a a' htaken ha
    induction htaken with
    | nil => rfl
    | cons hb _ ih => rw [List.any_cons, List.any_cons, hconflicts ha hb, ih]
  have hfold : ∀ {taken taken' : List α}, List.Forall₂ R taken taken' →
      List.Forall₂ R (l.foldl (take conflicts) taken) (l'.foldl (take conflicts) taken') := by
    induction h with
    | nil => exact id
    | cons ha _ ih =>
      intro taken taken' htaken
      refine ih ?_
      rw [take, take, hany htaken ha]
      split_ifs
      · exact htaken
      · exact List.rel_append htaken (.cons ha .nil)
  exact hfold .nil

end Greedy
