import Mathlib.Data.List.Perm.Basic
import Mathlib.Data.Set.Lattice

/-!
# Completing a selection by groups

A group that has an element of a selection is added whole.  The closure adds groups until none is
touched any more; a pass goes through a list of groups once, and sees what it has added itself; a
round adds the groups that the selection itself touches.

* `pass_subset_closure`, `round_subset_pass`: a pass is between a round and the closure;
* **`forall_perm_subset_pass_iff`**: a pass in any order covers a set just if the round does.
-/

namespace Completion

variable {α : Type}

/-- A group has an element of a selection. -/
def Touches (group : List α) (s : Set α) : Prop := ∃ a ∈ group, a ∈ s

/-- Every group that is touched is there. -/
def Closed (groups : List (List α)) (s : Set α) : Prop :=
  ∀ group ∈ groups, Touches group s → ∀ a ∈ group, a ∈ s

/-- The least closed set around a selection. -/
def closure (groups : List (List α)) (start : Set α) : Set α :=
  ⋂₀ {s | start ⊆ s ∧ Closed groups s}

/-- A group is added whole if it is touched. -/
def complete (s : Set α) (group : List α) : Set α := {a | a ∈ s ∨ Touches group s ∧ a ∈ group}

/-- One pass through the groups. -/
def pass (groups : List (List α)) (start : Set α) : Set α := groups.foldl complete start

/-- The groups that the selection itself touches. -/
def round (groups : List (List α)) (start : Set α) : Set α :=
  {a | a ∈ start ∨ ∃ group ∈ groups, Touches group start ∧ a ∈ group}

variable {groups groups' : List (List α)} {start s t : Set α}

theorem Touches.mono {group : List α} (h : Touches group s) (hsub : s ⊆ t) : Touches group t :=
  h.imp fun _ ha => ⟨ha.1, hsub ha.2⟩

/-! ### The closure -/

theorem subset_closure : start ⊆ closure groups start := fun _ ha _ hs => hs.1 ha

theorem closure_subset (hsub : start ⊆ s) (hclosed : Closed groups s) :
    closure groups start ⊆ s := fun _ ha => ha s ⟨hsub, hclosed⟩

theorem closed_closure : Closed groups (closure groups start) := by
  intro group hgroup htouches a ha s hs
  exact hs.2 group hgroup (htouches.mono (closure_subset hs.1 hs.2)) a ha

theorem closure_perm (h : groups.Perm groups') :
    closure groups start = closure groups' start := by
  have hclosed : ∀ s : Set α, Closed groups s ↔ Closed groups' s := fun s =>
    forall_congr' fun group => imp_congr_left h.mem_iff
  unfold closure
  simp only [hclosed]

/-! ### A pass -/

theorem subset_complete (group : List α) : s ⊆ complete s group := fun _ => Or.inl

theorem subset_pass : start ⊆ pass groups start := by
  induction groups generalizing start with
  | nil => exact subset_rfl
  | cons group groups ih => exact (subset_complete group).trans ih

/-- What a pass adds belongs to the closure. -/
theorem pass_subset_closure : pass groups start ⊆ closure groups start := by
  have hpass : ∀ (l : List (List α)) (s : Set α), l ⊆ groups → s ⊆ closure groups start →
      pass l s ⊆ closure groups start := by
    intro l
    induction l with
    | nil => exact fun s _ hs => hs
    | cons group l ih =>
      intro s hl hs
      obtain ⟨hgroup, hl⟩ := List.cons_subset.1 hl
      refine ih _ hl ?_
      rintro a (ha | ⟨htouches, ha⟩)
      · exact hs ha
      · exact closed_closure group hgroup (htouches.mono hs) a ha
  exact hpass groups start (List.Subset.refl _) subset_closure

/-- A pass adds the groups that the selection itself touches. -/
theorem round_subset_pass : round groups start ⊆ pass groups start := by
  rintro a (ha | ⟨group, hgroup, htouches, ha⟩)
  · exact subset_pass ha
  · induction groups generalizing start with
    | nil => cases hgroup
    | cons first groups ih =>
      rcases List.mem_cons.1 hgroup with rfl | hgroup
      · have hfirst : complete start group ⊆ pass (group :: groups) start := subset_pass
        exact hfirst (Or.inr ⟨htouches, ha⟩)
      · exact ih hgroup (htouches.mono (subset_complete first))

theorem round_perm (h : groups.Perm groups') : round groups start = round groups' start := by
  ext a
  exact or_congr_right (exists_congr fun group => and_congr_left fun _ => h.mem_iff)

/-- Groups that the selection does not touch are passed over. -/
theorem pass_eq_self (h : ∀ group ∈ groups, ¬ Touches group start) :
    pass groups start = start := by
  induction groups with
  | nil => rfl
  | cons group groups ih =>
    obtain ⟨hgroup, hgroups⟩ := List.forall_mem_cons.1 h
    have hcomplete : complete start group = start := by
      ext a
      exact ⟨fun ha => ha.resolve_right fun ha => hgroup ha.1, Or.inl⟩
    rw [pass, List.foldl_cons, hcomplete]
    exact ih hgroups

theorem pass_subset_union : pass groups start ⊆ {a | a ∈ start ∨ ∃ group ∈ groups, a ∈ group} := by
  induction groups generalizing start with
  | nil => exact fun a ha => Or.inl ha
  | cons group groups ih =>
    intro a ha
    rcases ih ha with (ha | ⟨-, ha⟩) | ⟨group', hgroup', ha⟩
    · exact Or.inl ha
    · exact Or.inr ⟨group, List.mem_cons_self, ha⟩
    · exact Or.inr ⟨group', List.mem_cons_of_mem _ hgroup', ha⟩

/-- With the groups that are not touched in front, a pass is a round. -/
theorem exists_perm_pass_subset_round (groups : List (List α)) (start : Set α) :
    ∃ groups', groups'.Perm groups ∧ pass groups' start ⊆ round groups start := by
  classical
  refine ⟨groups.filter (fun group => ¬ Touches group start) ++
    groups.filter (fun group => Touches group start), ?_, ?_⟩
  · have hperm := List.filter_append_perm (fun group => decide (¬ Touches group start)) groups
    simpa using hperm
  · have hpassed : pass (groups.filter fun group => ¬ Touches group start) start = start :=
      pass_eq_self fun group hgroup => of_decide_eq_true (List.mem_filter.1 hgroup).2
    rw [pass, List.foldl_append, ← pass, ← pass, hpassed]
    intro a ha
    rcases pass_subset_union ha with ha | ⟨group, hgroup, ha⟩
    · exact Or.inl ha
    · obtain ⟨hmem, htouches⟩ := List.mem_filter.1 hgroup
      exact Or.inr ⟨group, hmem, of_decide_eq_true htouches, ha⟩

/-- **A pass in any order** covers a set just if the round does. -/
theorem forall_perm_subset_pass_iff :
    (∀ groups', groups'.Perm groups → t ⊆ pass groups' start) ↔ t ⊆ round groups start := by
  constructor
  · intro h
    obtain ⟨groups', hperm, hround⟩ := exists_perm_pass_subset_round groups start
    exact (h groups' hperm).trans hround
  · intro h groups' hperm
    rw [← round_perm hperm] at h
    exact h.trans round_subset_pass

end Completion
