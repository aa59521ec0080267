import Mathlib.Data.List.Basic
import Mathlib.Data.Nat.Init
import Mathlib.Order.Basic
import Mathlib.Logic.Relation

/-!
# Walks over nested lists

A walk goes over the entries of a list, visits each of them, and goes into the list that an entry
leads to before it comes back to the next one.  What it gathers only grows.

* **`IsWalk.exists_visit_le`**: the end of a walk is beyond the visit of every entry of every list
  that it reaches;
* **`IsWalk.invariant`**: what every visit preserves holds at the end;
* **`IsWalk.walk_eq_foldl`**: a walk is the loop over its `visits`, which are the entries of the
  lists that it reaches.
-/

namespace NestedWalk

variable {N E σ : Type*} {entries : N → List E} {inner : E → Option N} {visit : σ → E → σ}
  {walk : N → σ → σ}

/-- The walk at one entry. -/
def step (inner : E → Option N) (visit : σ → E → σ) (walk : N → σ → σ) (s : σ) (e : E) : σ :=
  match inner e with
  | some m => walk m (visit s e)
  | none => visit s e

/-- `walk` goes over the entries of a list, into the lists that they lead to; these are smaller. -/
structure IsWalk (entries : N → List E) (inner : E → Option N) (visit : σ → E → σ)
    (walk : N → σ → σ) (size : N → ℕ) : Prop where
  walk_eq : ∀ n s, walk n s = (entries n).foldl (step inner visit walk) s
  size_lt : ∀ {n m e}, e ∈ entries n → inner e = some m → size m < size n

/-- A walk over `n` goes into `m`. -/
def Enters (entries : N → List E) (inner : E → Option N) (n m : N) : Prop :=
  ∃ e ∈ entries n, inner e = some m

/-- A walk over `n` reaches `m`. -/
abbrev Reaches (entries : N → List E) (inner : E → Option N) : N → N → Prop :=
  Relation.ReflTransGen (Enters entries inner)

theorem le_foldl [Preorder σ] {f : σ → E → σ} {l : List E} (hf : ∀ e ∈ l, ∀ s, s ≤ f s e) (s : σ) :
    s ≤ l.foldl f s := by
  induction l generalizing s with
  | nil => exact le_rfl
  | cons e l ih =>
    have htail := ih (fun e' he' => hf e' (List.mem_cons_of_mem _ he')) (f s e)
    exact le_trans (hf e List.mem_cons_self s) htail

/-- A loop whose steps only add ends beyond each of its steps. -/
theorem exists_le_foldl [Preorder σ] {f : σ → E → σ} {l : List E}
    (hf : ∀ e ∈ l, ∀ s, s ≤ f s e) {e : E} (he : e ∈ l) (s : σ) : ∃ t, f t e ≤ l.foldl f s := by
  obtain ⟨before, after, rfl⟩ := List.append_of_mem he
  refine ⟨before.foldl f s, ?_⟩
  rw [List.foldl_append, List.foldl_cons]
  exact le_foldl (fun e' he' => hf e' (by simp [he'])) _

namespace IsWalk

variable {size : N → ℕ}

theorem invariant (h : IsWalk entries inner visit walk size) {P : σ → Prop} {n : N} {s : σ}
    (hs : P s)
    (hvisit : ∀ m, Reaches entries inner n m → ∀ e ∈ entries m, ∀ t, P t → P (visit t e)) :
    P (walk n s) := by
  induction hsize : size n using Nat.strong_induction_on generalizing n s with
  | _ k ih =>
    subst hsize
    rw [h.walk_eq]
    refine List.foldlRecOn (entries n) _ hs fun t ht e he => ?_
    have hvisited := hvisit n .refl e he t ht
    rw [step]
    cases hinner : inner e with
    | none => exact hvisited
    | some m =>
      have henters : Enters entries inner n m := ⟨e, he, hinner⟩
      exact ih _ (h.size_lt he hinner) hvisited
        (fun m' hreach => hvisit m' (.head henters hreach)) rfl

/-- The entries that a walk visits, in its order. -/
def visits (h : IsWalk entries inner visit walk size) (n : N) : List E :=
  (entries n).attach.flatMap fun e =>
    e.1 :: match _hinner : inner e.1 with
      | some m => visits h m
      | none => []
termination_by size n
decreasing_by exact h.size_lt e.2 _hinner

/-- The visits at one entry. -/
def visitsAt (h : IsWalk entries inner visit walk size) (e : E) : List E :=
  e :: match inner e with
    | some m => h.visits m
    | none => []

theorem visits_eq (h : IsWalk entries inner visit walk size) (n : N) :
    h.visits n = (entries n).flatMap h.visitsAt := by
  have hat : ∀ e : {e // e ∈ entries n},
      (e.1 :: match _hinner : inner e.1 with
        | some m => h.visits m
        | none => []) = h.visitsAt e.1 := by
    intro e
    rw [visitsAt]
    split <;> simp_all
  rw [visits]
  simp only [hat]
  rw [List.flatMap_subtype (g := h.visitsAt) (fun _ _ => rfl), List.unattach_attach]

/-- **A walk is the loop over its visits.** -/
theorem walk_eq_foldl (h : IsWalk entries inner visit walk size) (n : N) (s : σ) :
    walk n s = (h.visits n).foldl visit s := by
  induction hsize : size n using Nat.strong_induction_on generalizing n s with
  | _ k ih =>
    subst hsize
    rw [h.walk_eq, visits_eq, List.foldl_flatMap]
    refine List.foldl_ext _ _ _ fun t e he => ?_
    rw [step, visitsAt]
    cases hinner : inner e with
    | none => rfl
    | some m => exact ih _ (h.size_lt he hinner) m (visit t e) rfl

theorem mem_visitsAt {h : IsWalk entries inner visit walk size} {e e' : E} :
    e' ∈ h.visitsAt e ↔ e' = e ∨ ∃ m, inner e = some m ∧ e' ∈ h.visits m := by
  rw [visitsAt]
  split <;> simp_all

/-- A walk visits the entries of the lists that it reaches. -/
theorem mem_visits {h : IsWalk entries inner visit walk size} {n : N} {e : E} :
    e ∈ h.visits n ↔ ∃ m, Reaches entries inner n m ∧ e ∈ entries m := by
  constructor
  · intro he
    induction hsize : size n using Nat.strong_induction_on generalizing n with
    | _ k ih =>
      subst hsize
      rw [visits_eq] at he
      obtain ⟨e', he', hvisit⟩ := List.mem_flatMap.1 he
      rcases mem_visitsAt.1 hvisit with rfl | ⟨m, hinner, hm⟩
      · exact ⟨n, .refl, he'⟩
      · obtain ⟨m', hreach, hentry⟩ := ih _ (h.size_lt he' hinner) hm rfl
        exact ⟨m', .head ⟨e', he', hinner⟩ hreach, hentry⟩
  · rintro ⟨m, hreach, he⟩
    induction hreach using Relation.ReflTransGen.head_induction_on with
    | refl =>
      rw [visits_eq]
      exact List.mem_flatMap.2 ⟨e, he, mem_visitsAt.2 (.inl rfl)⟩
    | head henters _ ih =>
      obtain ⟨e', he', hinner⟩ := henters
      rw [visits_eq]
      exact List.mem_flatMap.2 ⟨e', he', mem_visitsAt.2 (.inr ⟨_, hinner, ih⟩)⟩

variable [Preorder σ]

theorem le_walk (h : IsWalk entries inner visit walk size) (hvisit : ∀ s e, s ≤ visit s e) (n : N)
    (s : σ) : s ≤ walk n s :=
  h.invariant le_rfl fun _ _ e _ t ht => ht.trans (hvisit t e)

theorem le_step (h : IsWalk entries inner visit walk size) (hvisit : ∀ s e, s ≤ visit s e) (s : σ)
    (e : E) : visit s e ≤ step inner visit walk s e := by
  rw [step]
  split
  · exact h.le_walk hvisit _ _
  · exact le_rfl

theorem exists_step_le (h : IsWalk entries inner visit walk size) (hvisit : ∀ s e, s ≤ visit s e)
    {n : N} {e : E} (he : e ∈ entries n) (s : σ) : ∃ t, step inner visit walk t e ≤ walk n s := by
  rw [h.walk_eq]
  exact exists_le_foldl (fun e' _ t => (hvisit t e').trans (h.le_step hvisit t e')) he s

/-- **The end of a walk is beyond the visit of every entry that it reaches.** -/
theorem exists_visit_le (h : IsWalk entries inner visit walk size) (hvisit : ∀ s e, s ≤ visit s e)
    {n m : N} (hreach : Reaches entries inner n m) {e : E} (he : e ∈ entries m) (s : σ) :
    ∃ t, visit t e ≤ walk n s := by
  induction hreach using Relation.ReflTransGen.head_induction_on generalizing s with
  | refl =>
    obtain ⟨t, ht⟩ := h.exists_step_le hvisit he s
    exact ⟨t, (h.le_step hvisit t e).trans ht⟩
  | head henters _ ih =>
    obtain ⟨e', he', hinner⟩ := henters
    obtain ⟨t, ht⟩ := h.exists_step_le hvisit he' s
    obtain ⟨t', ht'⟩ := ih (visit t e')
    refine ⟨t', ht'.trans ?_⟩
    rw [step, hinner] at ht
    exact ht

end IsWalk

end NestedWalk
