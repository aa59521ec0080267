import Mathlib.Data.List.Perm.Basic

/-!
# Checks in sequence

A validator is a sequence of checks, each with its own complaint; it accepts what passes all of
them.  `require` is one check, `numbered` runs a validator over a list, `forEach` runs checks over a
list.  The lemmas `…_ok` turn "the validator accepts" into the conjunction of its conditions.
-/

namespace Checks

variable {ε α β γ : Type}

/-- One check. -/
def require (p : Prop) [Decidable p] (complaint : ε) : Except ε Unit :=
  if p then .ok () else .error complaint

@[simp] theorem require_eq_ok {p : Prop} [Decidable p] {complaint : ε} {u : Unit} :
    require p complaint = .ok u ↔ p := by
  unfold require
  split_ifs with h
  · exact iff_of_true rfl h
  · exact iff_of_false (fun h => by cases h) h

@[simp] theorem bind_eq_ok {x : Except ε α} {f : α → Except ε β} {b : β} :
    (x >>= f) = .ok b ↔ ∃ a, x = .ok a ∧ f a = .ok b := by
  cases x with
  | error e => exact iff_of_false (fun h => by cases h) fun ⟨_, h, _⟩ => by cases h
  | ok a => exact ⟨fun h => ⟨a, rfl, h⟩, fun ⟨_, h, hf⟩ => by cases h; exact hf⟩

@[simp] theorem pure_eq_ok {a b : α} : (pure a : Except ε α) = .ok b ↔ a = b :=
  ⟨fun h => by cases h; rfl, fun h => by rw [h]; rfl⟩

theorem ok_bind (a : α) (f : α → Except ε β) : (Except.ok a >>= f) = f a := rfl

theorem error_bind (e : ε) (f : α → Except ε β) : (Except.error e >>= f) = .error e := rfl

/-- A validator over the elements of a list, each with its number. -/
def numbered (f : ℕ → α → Except ε β) : ℕ → List α → Except ε (List β)
  | _, [] => .ok []
  | n, a :: l => do
      let b ← f n a
      let bs ← numbered f (n + 1) l
      return b :: bs

/-- The same without numbers. -/
def each (f : α → Except ε β) (l : List α) : Except ε (List β) := numbered (fun _ => f) 0 l

/-- What a validator accepts and returns, element by element. -/
theorem forall₂_of_numbered {f : ℕ → α → Except ε β} {n : ℕ} {l : List α} {bs : List β}
    (h : numbered f n l = .ok bs) : List.Forall₂ (fun a b => ∃ i, f i a = .ok b) l bs := by
  induction l generalizing n bs with
  | nil =>
    cases h
    exact .nil
  | cons a l ih =>
    simp only [numbered, bind_eq_ok, pure_eq_ok] at h
    obtain ⟨b, hb, bs, hbs, rfl⟩ := h
    exact .cons ⟨n, hb⟩ (ih hbs)

/-- A validator that does not look at the numbers. -/
theorem numbered_eq_ok_iff {f : ℕ → α → Except ε β} {r : α → β → Prop}
    (h : ∀ i a b, f i a = .ok b ↔ r a b) {n : ℕ} {l : List α} {bs : List β} :
    numbered f n l = .ok bs ↔ List.Forall₂ r l bs := by
  constructor
  · intro hrun
    exact (forall₂_of_numbered hrun).imp fun a b ⟨i, hi⟩ => (h i a b).1 hi
  · intro hall
    induction hall generalizing n with
    | nil => rfl
    | cons hab _ ih =>
      simp only [numbered, bind_eq_ok, pure_eq_ok]
      exact ⟨_, (h n _ _).2 hab, _, ih, rfl⟩

theorem forall₂_of_each {f : α → Except ε β} {l : List α} {bs : List β} (h : each f l = .ok bs) :
    List.Forall₂ (fun a b => f a = .ok b) l bs :=
  (forall₂_of_numbered h).imp fun _ _ ⟨_, hab⟩ => hab

theorem exists_of_forall₂ {r : α → β → Prop} {l : List α} {bs : List β}
    (h : List.Forall₂ r l bs) {b : β} (hb : b ∈ bs) : ∃ a ∈ l, r a b := by
  induction h with
  | nil => simp at hb
  | cons hr _ ih =>
    rcases List.mem_cons.1 hb with rfl | hb
    · exact ⟨_, List.mem_cons_self, hr⟩
    · obtain ⟨a, ha, hab⟩ := ih hb
      exact ⟨a, List.mem_cons_of_mem _ ha, hab⟩

theorem exists_forall₂ {r : α → β → Prop} {l : List α} (h : ∀ a ∈ l, ∃ b, r a b) :
    ∃ bs, List.Forall₂ r l bs := by
  induction l with
  | nil => exact ⟨[], .nil⟩
  | cons a l ih =>
    obtain ⟨b, hb⟩ := h a List.mem_cons_self
    obtain ⟨bs, hbs⟩ := ih fun a' ha' => h a' (List.mem_cons_of_mem _ ha')
    exact ⟨b :: bs, .cons hb hbs⟩

/-- The elements that a partial function has for those of a list. -/
theorem mem_iff_of_forall₂ {r : α → β → Prop} (hunique : Relator.RightUnique r) {l : List α}
    {bs : List β} (h : List.Forall₂ r l bs) {b : β} : b ∈ bs ↔ ∃ a ∈ l, r a b := by
  constructor
  · exact exists_of_forall₂ h
  · rintro ⟨a, ha, hab⟩
    obtain ⟨b', hb', hab'⟩ := exists_of_forall₂ h.flip ha
    exact hunique hab hab' ▸ hb'

theorem forall₂_trans {r : α → β → Prop} {s : β → γ → Prop} {t : α → γ → Prop}
    (h : ∀ a b c, r a b → s b c → t a c) {l : List α} {bs : List β} {cs : List γ}
    (hr : List.Forall₂ r l bs) (hs : List.Forall₂ s bs cs) : List.Forall₂ t l cs := by
  induction hr generalizing cs with
  | nil =>
    cases hs
    exact .nil
  | cons hab _ ih =>
    cases hs with
    | cons hbc hs => exact .cons (h _ _ _ hab hbc) (ih hs)

theorem pairwise_of_forall₂ {r : α → β → Prop} {p : α → α → Prop} {q : β → β → Prop}
    (h : ∀ a a' b b', r a b → r a' b' → p a a' → q b b') {l : List α} {bs : List β}
    (hr : List.Forall₂ r l bs) (hp : l.Pairwise p) : bs.Pairwise q := by
  induction hr with
  | nil => exact List.Pairwise.nil
  | @cons a b l bs hab hr ih =>
    obtain ⟨ha, hp⟩ := List.pairwise_cons.1 hp
    refine List.pairwise_cons.2 ⟨fun b' hb' => ?_, ih hp⟩
    obtain ⟨a', ha', hab'⟩ := exists_of_forall₂ hr hb'
    exact h a a' b b' hab hab' (ha a' ha')

/-- A validator that returns what it has accepted, from elements written in some form. -/
theorem numbered_map_eq_ok {f : ℕ → α → Except ε γ} {g : γ → α} {p : γ → Prop}
    (h : ∀ {i c b}, f i (g c) = .ok b ↔ p c ∧ c = b) {n : ℕ} {l bs : List γ} :
    numbered f n (l.map g) = .ok bs ↔ (∀ c ∈ l, p c) ∧ l = bs := by
  induction l generalizing n bs with
  | nil => simp [numbered]
  | cons c l ih =>
    simp only [List.map_cons, numbered, bind_eq_ok, pure_eq_ok, h, ih, List.forall_mem_cons]
    constructor
    · rintro ⟨_, ⟨hc, rfl⟩, _, ⟨hl, rfl⟩, rfl⟩
      exact ⟨⟨hc, hl⟩, rfl⟩
    · rintro ⟨⟨hc, hl⟩, rfl⟩
      exact ⟨c, ⟨hc, rfl⟩, l, ⟨hl, rfl⟩, rfl⟩

/-- A function that accepts every element, and what it says about each. -/
theorem exists_each {f : α → Except ε β} {r : α → β → Prop} {l : List α}
    (h : ∀ a ∈ l, ∃ b, f a = .ok b ∧ r a b) : ∃ bs, each f l = .ok bs ∧ List.Forall₂ r l bs := by
  have hnumbered : ∀ n, ∃ bs, numbered (fun _ => f) n l = .ok bs ∧ List.Forall₂ r l bs := by
    induction l with
    | nil => exact fun _ => ⟨[], rfl, .nil⟩
    | cons a l ih =>
      intro n
      obtain ⟨b, hb, hab⟩ := h a List.mem_cons_self
      obtain ⟨bs, hbs, hall⟩ := ih (fun a' ha' => h a' (List.mem_cons_of_mem a ha')) (n + 1)
      exact ⟨b :: bs, bind_eq_ok.2 ⟨b, hb, bind_eq_ok.2 ⟨bs, hbs, rfl⟩⟩, .cons hab hall⟩
  exact hnumbered 0

/-- What is returned for the elements in another order. -/
theorem each_perm_ok {f : α → Except ε β} {l l' : List α} (h : l.Perm l') {bs : List β}
    (hbs : each f l = .ok bs) : ∃ bs', each f l' = .ok bs' ∧ bs.Perm bs' := by
  obtain ⟨cs, hcs, hperm⟩ := List.perm_comp_forall₂ h.symm (forall₂_of_each hbs)
  have haccepts : ∀ a ∈ l', ∃ b, f a = .ok b ∧ f a = .ok b := by
    intro a ha
    obtain ⟨b, -, hab⟩ := exists_of_forall₂ hcs.flip ha
    exact ⟨b, hab, hab⟩
  obtain ⟨bs', hbs', hall⟩ := exists_each haccepts
  have hsame : bs' = cs := by
    refine List.forall₂_eq_eq_eq ▸ forall₂_trans (fun b a c hab hac => ?_) hall.flip hcs
    exact Except.ok.inj (hab.symm.trans hac)
  exact ⟨bs', hbs', hsame ▸ hperm.symm⟩

/-- A loop over the elements in another order: both return the same up to order, or both fail. -/
theorem each_perm {f : α → Except ε β} {l l' : List α} (h : l.Perm l') :
    (∃ bs bs', each f l = .ok bs ∧ each f l' = .ok bs' ∧ bs.Perm bs') ∨
      (∃ e, each f l = .error e) ∧ ∃ e, each f l' = .error e := by
  cases hl : each f l with
  | ok bs =>
    obtain ⟨bs', hbs', hperm⟩ := each_perm_ok h hl
    exact Or.inl ⟨bs, bs', rfl, hbs', hperm⟩
  | error e =>
    cases hl' : each f l' with
    | error e' => exact Or.inr ⟨⟨e, rfl⟩, e', rfl⟩
    | ok bs' =>
      obtain ⟨bs, hbs, -⟩ := each_perm_ok h.symm hl'
      rw [hl] at hbs
      cases hbs

/-- A function that accepts every element. -/
theorem each_eq_map {f : α → Except ε β} {g : α → β} {l : List α}
    (h : ∀ a ∈ l, f a = .ok (g a)) : each f l = .ok (l.map g) := by
  obtain ⟨bs, hbs, hall⟩ : ∃ bs, each f l = .ok bs ∧ List.Forall₂ (fun a b => g a = b) l bs :=
    exists_each fun a ha => ⟨g a, h a ha, rfl⟩
  rw [← List.forall₂_map_left_iff, List.forall₂_eq_eq_eq] at hall
  rw [hbs, hall]

/-- A change of what is returned for each element. -/
theorem numbered_congr {f g : ℕ → α → Except ε β} {l : List α} (h : ∀ n, ∀ a ∈ l, f n a = g n a)
    (n : ℕ) : numbered f n l = numbered g n l := by
  induction l generalizing n with
  | nil => rfl
  | cons a l ih =>
    rw [numbered, numbered, h n a List.mem_cons_self,
      ih (fun m b hb => h m b (List.mem_cons_of_mem _ hb))]

theorem each_congr {f g : α → Except ε β} {l : List α} (h : ∀ a ∈ l, f a = g a) :
    each f l = each g l :=
  numbered_congr (fun _ => h) 0

theorem each_map_left (f : β → Except ε γ) (g : α → β) (l : List α) :
    each f (l.map g) = each (fun a => f (g a)) l := by
  have hnumbered : ∀ n, numbered (fun _ => f) n (l.map g) =
      numbered (fun _ a => f (g a)) n l := by
    induction l with
    | nil => exact fun _ => rfl
    | cons a l ih =>
      intro n
      rw [List.map_cons, numbered, numbered, ih]
  exact hnumbered 0

theorem each_map (f : α → Except ε β) (g : β → γ) (l : List α) :
    each (fun a => (f a).map g) l = (each f l).map (List.map g) := by
  have hnumbered : ∀ n, numbered (fun _ a => (f a).map g) n l =
      (numbered (fun _ => f) n l).map (List.map g) := by
    induction l with
    | nil => exact fun _ => rfl
    | cons a l ih =>
      intro n
      simp only [numbered, ih]
      cases f a with
      | error e => rfl
      | ok b => cases numbered (fun _ => f) (n + 1) l <;> rfl
  exact hnumbered 0

/-- Checks on every element of a list. -/
def forEach (f : α → Except ε Unit) : List α → Except ε Unit
  | [] => .ok ()
  | a :: l => do
      f a
      forEach f l

@[simp] theorem forEach_eq_ok {f : α → Except ε Unit} {l : List α} {u : Unit} :
    forEach f l = .ok u ↔ ∀ a ∈ l, f a = .ok () := by
  induction l with
  | nil => exact iff_of_true rfl (by simp)
  | cons a l ih =>
    simp only [forEach, bind_eq_ok, List.forall_mem_cons]
    constructor
    · rintro ⟨⟨⟩, ha, hl⟩
      exact ⟨ha, ih.1 hl⟩
    · rintro ⟨ha, hl⟩
      exact ⟨(), ha, ih.2 hl⟩

/-! ### Loops with a state -/

/-- What every step of a loop establishes for the elements it has passed, the loop establishes for
all of them. -/
theorem foldlM_rule {f : β → α → Except ε β} {inv : List α → β → Prop} {l : List α} {b b' : β}
    (hstart : inv [] b)
    (hstep : ∀ done a rest b b', l = done ++ a :: rest → inv done b → f b a = .ok b' →
      inv (done ++ [a]) b')
    (h : l.foldlM f b = .ok b') : inv l b' := by
  have hfrom : ∀ done rest b, l = done ++ rest → inv done b → rest.foldlM f b = .ok b' →
      inv l b' := by
    intro done rest
    induction rest generalizing done with
    | nil =>
      rintro b hl hinv ⟨⟩
      rw [List.append_nil] at hl
      rwa [hl]
    | cons a rest ih =>
      intro b hl hinv hrun
      rw [List.foldlM_cons] at hrun
      obtain ⟨c, hc, hrun⟩ := bind_eq_ok.1 hrun
      refine ih (done ++ [a]) c ?_ (hstep done a rest b c hl hinv hc) hrun
      rw [hl, List.append_assoc, List.singleton_append]
  exact hfrom [] l b rfl hstart h

/-- What every step keeps, the loop keeps. -/
theorem foldlM_keeps {f : β → α → Except ε β} {inv : β → Prop} {l : List α} {b b' : β}
    (hstart : inv b) (hstep : ∀ a ∈ l, ∀ b b', inv b → f b a = .ok b' → inv b')
    (h : l.foldlM f b = .ok b') : inv b' := by
  let keeps (_ : List α) := inv
  have hkeeps : keeps [] b := hstart
  have hrule : keeps l b' := by
    refine foldlM_rule hkeeps (fun done a rest b b' hl hinv hrun => ?_) h
    exact hstep a (hl ▸ List.mem_append_right done List.mem_cons_self) b b' hinv hrun
  exact hrule

/-! ### Computations that return -/

/-- A computation returns. -/
def Returns (x : Except ε α) : Prop := ∃ a, x = .ok a

@[simp] theorem returns_ok (a : α) : Returns (.ok a : Except ε α) := ⟨a, rfl⟩

@[simp] theorem returns_pure (a : α) : Returns (pure a : Except ε α) := ⟨a, rfl⟩

@[simp] theorem not_returns_error (e : ε) : ¬ Returns (.error e : Except ε α) := by
  rintro ⟨a, h⟩
  cases h

theorem returns_bind {x : Except ε α} {f : α → Except ε β} :
    Returns (x >>= f) ↔ ∃ a, x = .ok a ∧ Returns (f a) := by
  constructor
  · rintro ⟨b, h⟩
    obtain ⟨a, hx, hf⟩ := bind_eq_ok.1 h
    exact ⟨a, hx, b, hf⟩
  · rintro ⟨a, hx, b, hf⟩
    exact ⟨b, bind_eq_ok.2 ⟨a, hx, hf⟩⟩

/-- A computation whose rest returns whatever it has computed. -/
theorem returns_bind_of_forall {x : Except ε α} {f : α → Except ε β} (h : ∀ a, Returns (f a)) :
    Returns (x >>= f) ↔ Returns x := by
  rw [returns_bind]
  exact ⟨fun ⟨a, hx, _⟩ => ⟨a, hx⟩, fun ⟨a, hx⟩ => ⟨a, hx, h a⟩⟩

/-- A loop returns if it returns for every element. -/
theorem returns_each {f : α → Except ε β} {l : List α} :
    Returns (each f l) ↔ ∀ a ∈ l, Returns (f a) := by
  constructor
  · rintro ⟨bs, hbs⟩
    have hall := forall₂_of_each hbs
    clear hbs
    induction hall with
    | nil => simp
    | cons hab _ ih => exact List.forall_mem_cons.2 ⟨⟨_, hab⟩, ih⟩
  · intro h
    obtain ⟨bs, hbs, -⟩ := exists_each (r := fun _ _ => True) fun a ha =>
      (h a ha).imp fun b hb => ⟨hb, trivial⟩
    exact ⟨bs, hbs⟩

/-! ### Returning alike -/

/-- Two computations that return the same; what they raise may differ. -/
def ReturnsAlike (x y : Except ε α) : Prop := ∀ a, x = .ok a ↔ y = .ok a

theorem ReturnsAlike.rfl {x : Except ε α} : ReturnsAlike x x := fun _ => Iff.rfl

theorem returnsAlike_error (e e' : ε) : ReturnsAlike (.error e : Except ε α) (.error e') := by
  intro a
  simp

theorem returnsAlike_require {p : Prop} [Decidable p] (complaint complaint' : ε) :
    ReturnsAlike (require p complaint) (require p complaint') := by
  intro u
  rw [require_eq_ok, require_eq_ok]

theorem ReturnsAlike.bind {x y : Except ε α} {f g : α → Except ε β} (hx : ReturnsAlike x y)
    (hf : ∀ a, ReturnsAlike (f a) (g a)) : ReturnsAlike (x >>= f) (y >>= g) := by
  intro b
  simp only [bind_eq_ok]
  exact exists_congr fun a => and_congr (hx a) (hf a b)

theorem returnsAlike_numbered {f g : ℕ → α → Except ε β}
    (h : ∀ i j a, ReturnsAlike (f i a) (g j a)) (n m : ℕ) (l : List α) :
    ReturnsAlike (numbered f n l) (numbered g m l) := by
  induction l generalizing n m with
  | nil => exact ReturnsAlike.rfl
  | cons a l ih =>
    exact (h n m a).bind fun b => (ih (n + 1) (m + 1)).bind fun bs => ReturnsAlike.rfl

end Checks
