import Mathlib.Data.List.Nodup
import Mathlib.Data.Set.Finite.List
import Mathlib.Logic.Relation
import Mathlib.Order.WellFounded
import Text2Cypher.Library.Waves

/-!
# Needs that cannot be met

A sweep is stuck exactly if some element needs, directly or through others, itself or a name that no
element has.

* `Ordered.reaches`: in a possible order, whatever an element needs through others comes before it;
* `exists_ready`: while something is pending, something is ready;
* **`order_eq_ok_iff`**, **`order_eq_error_iff`**.
-/

namespace Waves

variable {α ι ε : Type} {name : α → ι} {needs : α → List ι}

/-- One name needs another. -/
def Needs (name : α → ι) (needs : α → List ι) (items : List α) (i d : ι) : Prop :=
  ∃ a ∈ items, name a = i ∧ d ∈ needs a

/-- One name needs another, directly or through others. -/
abbrev Reaches (name : α → ι) (needs : α → List ι) (items : List α) : ι → ι → Prop :=
  Relation.TransGen (Needs name needs items)

/-- Some element needs itself or a name that no element has. -/
def Unmeetable (name : α → ι) (needs : α → List ι) (items : List α) : Prop :=
  ∃ a ∈ items, ∃ d, Reaches name needs items (name a) d ∧ (d = name a ∨ d ∉ items.map name)

theorem Reaches.perm {items items' : List α} (h : items.Perm items') {i d : ι}
    (hreach : Reaches name needs items i d) : Reaches name needs items' i d :=
  hreach.lift id fun _ _ ⟨a, ha, hrest⟩ => ⟨a, h.mem_iff.1 ha, hrest⟩

/-! ### Possible orders -/

theorem Ordered.needs_mem {l before after : List α} {a : α} (h : Ordered name needs [] l)
    (hl : l = before ++ a :: after) {d : ι} (hd : d ∈ needs a) : d ∈ before.map name := by
  rw [hl, ordered_append] at h
  simpa using h.2.1 d hd

/-- In a possible order, whatever an element needs comes before it. -/
theorem Ordered.reaches {l : List α} (h : Ordered name needs [] l) (hnodup : (l.map name).Nodup)
    {i d : ι} (hreach : Reaches name needs l i d) :
    ∀ before a after, l = before ++ a :: after → name a = i → d ∈ before.map name := by
  have hsame : ∀ {a b : α}, a ∈ l → b ∈ l → name a = name b → a = b := fun ha hb =>
    List.inj_on_of_nodup_map hnodup ha hb
  induction hreach using Relation.TransGen.head_induction_on with
  | single hneeds =>
    intro before a after hl hname
    obtain ⟨b, hb, hbname, hd⟩ := hneeds
    obtain rfl := hsame hb (by simp [hl]) (hbname.trans hname.symm)
    exact h.needs_mem hl hd
  | head hneeds _ ih =>
    intro before a after hl hname
    obtain ⟨b, hb, hbname, hd⟩ := hneeds
    obtain rfl := hsame hb (by simp [hl]) (hbname.trans hname.symm)
    obtain ⟨c, hc, hcname⟩ := List.mem_map.1 (h.needs_mem hl hd)
    obtain ⟨front, back, rfl⟩ := List.append_of_mem hc
    have hfront := ih front c (back ++ b :: after) (by simp [hl]) hcname
    rw [List.map_append]
    exact List.mem_append_left _ hfront

theorem Ordered.not_unmeetable {l : List α} (h : Ordered name needs [] l)
    (hnodup : (l.map name).Nodup) : ¬ Unmeetable name needs l := by
  rintro ⟨a, ha, d, hreach, hbad⟩
  obtain ⟨before, after, rfl⟩ := List.append_of_mem ha
  have hd := h.reaches hnodup hreach before a after rfl rfl
  rcases hbad with rfl | hmissing
  · rw [List.map_append, List.nodup_append] at hnodup
    exact hnodup.2.2 _ hd _ (by simp) rfl
  · refine hmissing ?_
    rw [List.map_append]
    exact List.mem_append_left _ hd

/-! ### Sweeps that are not stuck -/

variable [DecidableEq ι]

/-- While something is pending, something is ready. -/
theorem exists_ready {items pending : List α} {done : List ι}
    (hmeet : ¬ Unmeetable name needs items) (hsub : pending ⊆ items) (hne : pending ≠ [])
    (hdone : ∀ d ∈ items.map name, d ∈ done ∨ d ∈ pending.map name) :
    ready needs done pending ≠ [] := by
  intro hnone
  -- every pending element needs a pending one
  have hblocked : ∀ a ∈ pending, ∃ d ∈ needs a, d ∈ pending.map name := by
    intro a ha
    have hnot : a ∉ ready needs done pending := by simp [hnone]
    rw [mem_ready] at hnot
    push Not at hnot
    obtain ⟨d, hd, hdnot⟩ := hnot ha
    have hknown : d ∈ items.map name := by
      by_contra hmissing
      exact hmeet ⟨a, hsub ha, d, .single ⟨a, hsub ha, rfl, hd⟩, Or.inr hmissing⟩
    exact ⟨d, hd, (hdone d hknown).resolve_left hdnot⟩
  let r : {i // i ∈ pending.map name} → {i // i ∈ pending.map name} → Prop := fun x y =>
    Reaches name needs items y.1 x.1
  have : Finite {i // i ∈ pending.map name} := (List.finite_toSet _).to_subtype
  have : IsTrans _ r := ⟨fun _ _ _ h h' => h'.trans h⟩
  have : Std.Irrefl r := by
    refine ⟨fun x hx => ?_⟩
    obtain ⟨a, ha, hname⟩ := List.mem_map.1 x.2
    refine hmeet ⟨a, hsub ha, x.1, ?_, Or.inl hname.symm⟩
    rw [hname]
    exact hx
  obtain ⟨a, ha⟩ := List.exists_mem_of_ne_nil _ hne
  obtain ⟨m, -, hmin⟩ := (Finite.wellFounded_of_trans_of_irrefl r).has_min Set.univ
    ⟨⟨name a, List.mem_map_of_mem ha⟩, trivial⟩
  obtain ⟨b, hb, hname⟩ := List.mem_map.1 m.2
  obtain ⟨d, hd, hpending⟩ := hblocked b hb
  exact hmin ⟨d, hpending⟩ trivial (.single ⟨b, hsub hb, hname, hd⟩)

variable {stuck : ε}

theorem exists_sweep {items : List α} (hmeet : ¬ Unmeetable name needs items) {n : ℕ}
    {s pending : List α} (hn : pending.length ≤ n) (hsub : pending ⊆ items)
    (hdone : ∀ d ∈ items.map name, d ∈ s.map name ∨ d ∈ pending.map name) :
    ∃ s', sweep name needs (List.map name) (fun s wave => .ok (s ++ wave)) stuck n s pending =
      .ok s' := by
  induction n generalizing s pending with
  | zero =>
    obtain rfl := List.length_eq_zero_iff.1 (Nat.le_zero.1 hn)
    exact ⟨s, rfl⟩
  | succ n ih =>
    cases pending with
    | nil => exact ⟨s, rfl⟩
    | cons a pending =>
      have hready := exists_ready hmeet hsub (by simp) hdone
      have hlength : (rest name (ready needs (s.map name) (a :: pending)) (a :: pending)).length <
          (a :: pending).length := length_rest_lt hready
      simp only [sweep, if_neg hready]
      refine ih (by omega) (fun b hb => hsub ((rest_sublist _ _).subset hb)) fun d hd => ?_
      by_cases htaken : d ∈ (ready needs (s.map name) (a :: pending)).map name
      · rw [List.map_append]
        exact Or.inl (List.mem_append_right _ htaken)
      · rcases hdone d hd with h | h
        · rw [List.map_append]
          exact Or.inl (List.mem_append_left _ h)
        · obtain ⟨b, hb, rfl⟩ := List.mem_map.1 h
          exact Or.inr (List.mem_map_of_mem (List.mem_filter.2 ⟨hb, by simpa using htaken⟩))

theorem sweep_eq_error {n : ℕ} {s pending : List α} {e : ε}
    (h : sweep name needs (List.map name) (fun s wave => .ok (s ++ wave)) stuck n s pending =
      .error e) : e = stuck := by
  induction n generalizing s pending with
  | zero =>
    cases pending with
    | nil => cases h
    | cons a pending => exact (Except.error.inj h).symm
  | succ n ih =>
    cases pending with
    | nil => cases h
    | cons a pending =>
      simp only [sweep] at h
      split_ifs at h with hready
      · exact (Except.error.inj h).symm
      · exact ih h

/-- **A sweep ends** if every need can be met. -/
theorem order_eq_ok_iff (stuck : ε) {items : List α} (hnodup : (items.map name).Nodup) :
    (∃ l, order name needs stuck items = .ok l) ↔ ¬ Unmeetable name needs items := by
  constructor
  · rintro ⟨l, hl⟩ ⟨a, ha, d, hreach, hbad⟩
    obtain ⟨hperm, hordered, -⟩ := order_spec hnodup hl
    refine hordered.not_unmeetable ((hperm.map name).nodup_iff.2 hnodup)
      ⟨a, hperm.mem_iff.2 ha, d, hreach.perm hperm.symm, ?_⟩
    rwa [(hperm.map name).mem_iff]
  · intro hmeet
    exact exists_sweep hmeet le_rfl (List.Subset.refl _) fun d hd => Or.inr hd

/-- **A sweep is stuck** if some need cannot be met. -/
theorem order_eq_error_iff {items : List α} (hnodup : (items.map name).Nodup) :
    order name needs stuck items = .error stuck ↔ Unmeetable name needs items := by
  rw [← not_iff_not, ← order_eq_ok_iff stuck hnodup]
  cases h : order name needs stuck items with
  | ok l => simp
  | error e => simp [sweep_eq_error h]

end Waves
