import Mathlib.Logic.Equiv.Basic
import Mathlib.Data.List.Basic

/-!
# Renaming

What is bound to names, and renamings that fail when the old name is missing or the new one is
taken.

* `rename`, `renameAll`: one renaming, and several in a row;
* `Allowed`, `AllAllowed`: none of them fails;
* **`exists_perm_renameAll`**: renamings that do not fail only permute the names.
-/

namespace Renaming

variable {κ α : Type} [DecidableEq κ]

/-- What was bound to the old name is bound to the new one. -/
def rename (names : κ → Option α) (old new : κ) : κ → Option α :=
  Function.update (Function.update names old none) new (names old)

/-- The old name is there and the new one is not taken. -/
def Allowed (names : κ → Option α) (old new : κ) : Prop := names old ≠ none ∧ names new = none

/-- Renamings, each as the pair of the old and the new name, from the first to the last. -/
def renameAll (names : κ → Option α) : List (κ × κ) → κ → Option α
  | [] => names
  | (old, new) :: rest => renameAll (rename names old new) rest

/-- Each renaming is allowed when its turn comes. -/
def AllAllowed (names : κ → Option α) : List (κ × κ) → Prop
  | [] => True
  | (old, new) :: rest => Allowed names old new ∧ AllAllowed (rename names old new) rest

@[simp] theorem renameAll_nil (names : κ → Option α) : renameAll names [] = names := rfl

@[simp] theorem rename_new (names : κ → Option α) (old new : κ) :
    rename names old new new = names old := Function.update_self ..

theorem rename_old {names : κ → Option α} {old new : κ} (h : old ≠ new) :
    rename names old new old = none := by
  rw [rename, Function.update_of_ne h, Function.update_self]

omit [DecidableEq κ] in
theorem Allowed.ne {names : κ → Option α} {old new : κ} (h : Allowed names old new) :
    old ≠ new := by
  rintro rfl
  exact h.1 h.2

theorem renameAll_append (names : κ → Option α) (renames rest : List (κ × κ)) :
    renameAll names (renames ++ rest) = renameAll (renameAll names renames) rest := by
  induction renames generalizing names with
  | nil => rfl
  | cons r renames ih =>
    obtain ⟨old, new⟩ := r
    exact ih (rename names old new)

theorem allAllowed_append {names : κ → Option α} {renames rest : List (κ × κ)} :
    AllAllowed names (renames ++ rest) ↔
      AllAllowed names renames ∧ AllAllowed (renameAll names renames) rest := by
  induction renames generalizing names with
  | nil => exact (and_iff_right trivial).symm
  | cons r renames ih =>
    obtain ⟨old, new⟩ := r
    rw [List.cons_append, AllAllowed, AllAllowed, ih, and_assoc]
    rfl

/-- A renaming that is allowed exchanges the two names. -/
theorem rename_eq_swap {names : κ → Option α} {old new : κ} (h : names new = none) :
    rename names old new = names ∘ Equiv.swap old new := by
  funext name
  rw [Function.comp_apply]
  by_cases hnew : name = new
  · rw [hnew, rename_new, Equiv.swap_apply_right]
  · by_cases hold : name = old
    · subst hold
      rw [rename_old hnew, Equiv.swap_apply_left, h]
    · rw [rename, Function.update_of_ne hnew, Function.update_of_ne hold,
        Equiv.swap_apply_of_ne_of_ne hold hnew]

/-- **Renamings that are allowed only permute the names.** -/
theorem exists_perm_renameAll {names : κ → Option α} {renames : List (κ × κ)}
    (h : AllAllowed names renames) : ∃ perm : Equiv.Perm κ, renameAll names renames = names ∘ perm := by
  induction renames generalizing names with
  | nil => exact ⟨Equiv.refl κ, rfl⟩
  | cons r renames ih =>
    obtain ⟨old, new⟩ := r
    obtain ⟨hfirst, hrest⟩ := h
    obtain ⟨perm, hperm⟩ := ih hrest
    refine ⟨perm.trans (Equiv.swap old new), ?_⟩
    rw [renameAll, hperm, rename_eq_swap hfirst.2]
    rfl

end Renaming
