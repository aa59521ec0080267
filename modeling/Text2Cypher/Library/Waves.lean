import Mathlib.Data.List.Perm.Basic
import Mathlib.Data.List.Nodup

/-!
# Working through dependencies in waves

Elements have names and need other elements by name.  A sweep takes, again and again, all pending
elements whose needs are met, hands them to a step, and drops them; it fails with its step, and is
stuck when nothing is ready.

* `sweep_rule`: what every step keeps holds at the end of a sweep; `sweep_rel`: the same for the
  relation of two sweeps;
* `sweep_total`: a sweep over elements in a possible order ends, if its steps do;
* `order`: the sweep that only lists the elements; `order_spec`: it lists each element once, behind
  everything it needs, and keeps a list in this order.
-/

namespace Waves

variable {α β ι σ ε : Type}

/-- A list in which every element comes after the elements it needs, those in `done` apart. -/
def Ordered (name : α → ι) (needs : α → List ι) : List ι → List α → Prop
  | _, [] => True
  | done, a :: l => (∀ d ∈ needs a, d ∈ done) ∧ Ordered name needs (name a :: done) l

variable {name : α → ι} {needs : α → List ι}

/-! ### Possible orders -/

/-- Needs that are met stay met. -/
theorem Ordered.mono {done done' : List ι} (hsub : done ⊆ done') {l : List α}
    (h : Ordered name needs done l) : Ordered name needs done' l := by
  induction l generalizing done done' with
  | nil => trivial
  | cons a l ih =>
    exact ⟨fun d hd => hsub (h.1 d hd), ih (List.cons_subset_cons _ hsub) h.2⟩

/-- Elements that are done may be dropped. -/
theorem Ordered.filter {done done' : List ι} {p : α → Bool} {l : List α}
    (h : Ordered name needs done l) (hsub : done ⊆ done')
    (hdrop : ∀ a ∈ l, p a = false → name a ∈ done') : Ordered name needs done' (l.filter p) := by
  induction l generalizing done done' with
  | nil => trivial
  | cons a l ih =>
    have hdrop' := fun b hb => hdrop b (List.mem_cons_of_mem a hb)
    cases hp : p a with
    | true =>
      rw [List.filter_cons_of_pos hp]
      exact ⟨fun d hd => hsub (h.1 d hd), ih h.2 (List.cons_subset_cons _ hsub)
        fun b hb hpb => List.mem_cons_of_mem _ (hdrop' b hb hpb)⟩
    | false =>
      rw [List.filter_cons_of_neg (by simp [hp])]
      refine ih h.2 (List.cons_subset.2 ⟨hdrop a List.mem_cons_self hp, hsub⟩) hdrop'

theorem ordered_append {done : List ι} {l m : List α} :
    Ordered name needs done (l ++ m) ↔
      Ordered name needs done l ∧ Ordered name needs (l.map name ++ done) m := by
  induction l generalizing done with
  | nil => exact (true_and _).symm ▸ Iff.rfl
  | cons a l ih =>
    have hswap : ∀ {m : List α}, Ordered name needs (l.map name ++ name a :: done) m ↔
        Ordered name needs (name a :: l.map name ++ done) m :=
      ⟨.mono fun _ h => by simpa [or_left_comm] using h,
        .mono fun _ h => by simpa [or_left_comm] using h⟩
    simp only [List.cons_append, Ordered, ih, List.map_cons, and_assoc, hswap]

/-- Elements that need nothing beyond `done` may come in any order. -/
theorem ordered_of_forall {done : List ι} {l : List α} (h : ∀ a ∈ l, ∀ d ∈ needs a, d ∈ done) :
    Ordered name needs done l := by
  induction l generalizing done with
  | nil => trivial
  | cons a l ih =>
    exact ⟨h a List.mem_cons_self, ih fun b hb d hd =>
      List.mem_cons_of_mem _ (h b (List.mem_cons_of_mem _ hb) d hd)⟩

/-! ### Sweeps -/

variable [DecidableEq ι]

/-- The elements whose needs are met. -/
def ready (needs : α → List ι) (done : List ι) (pending : List α) : List α :=
  pending.filter fun a => (needs a).all (· ∈ done)

/-- The elements left when those in `wave` are dropped. -/
def rest (name : α → ι) (wave pending : List α) : List α :=
  pending.filter fun a => name a ∉ wave.map name

/-- The sweep, with at most as many waves as the first number says. -/
def sweep (name : α → ι) (needs : α → List ι) (done : σ → List ι)
    (step : σ → List α → Except ε σ) (stuck : ε) : ℕ → σ → List α → Except ε σ
  | _, s, [] => .ok s
  | 0, _, _ :: _ => .error stuck
  | n + 1, s, a :: pending =>
      let wave := ready needs (done s) (a :: pending)
      if wave = [] then .error stuck
      else
        match step s wave with
        | .error e => .error e
        | .ok s' => sweep name needs done step stuck n s' (rest name wave (a :: pending))

theorem mem_ready {done : List ι} {pending : List α} {a : α} :
    a ∈ ready needs done pending ↔ a ∈ pending ∧ ∀ d ∈ needs a, d ∈ done := by
  simp [ready]

theorem rest_sublist (wave pending : List α) : (rest name wave pending).Sublist pending :=
  List.filter_sublist

/-- With distinct names, what is dropped is what was ready. -/
theorem rest_ready {pending : List α} (hnodup : (pending.map name).Nodup) (done : List ι) :
    rest name (ready needs done pending) pending =
      pending.filter fun a => !(needs a).all (· ∈ done) := by
  refine List.filter_congr fun a ha => ?_
  have hmem : name a ∈ (ready needs done pending).map name ↔ ∀ d ∈ needs a, d ∈ done := by
    rw [List.mem_map]
    constructor
    · rintro ⟨b, hb, hname⟩
      obtain rfl := List.inj_on_of_nodup_map hnodup (mem_ready.1 hb).1 ha hname
      exact (mem_ready.1 hb).2
    · exact fun hall => ⟨a, mem_ready.2 ⟨ha, hall⟩, rfl⟩
  rw [Bool.eq_iff_iff, decide_eq_true_eq, hmem]
  simp

/-- A wave and what it leaves are the pending elements. -/
theorem ready_append_rest_perm {pending : List α} (hnodup : (pending.map name).Nodup)
    (done : List ι) :
    (ready needs done pending ++ rest name (ready needs done pending) pending).Perm pending := by
  rw [rest_ready hnodup]
  exact List.filter_append_perm _ pending

theorem rest_nodup {pending : List α} (hnodup : (pending.map name).Nodup) (wave : List α) :
    ((rest name wave pending).map name).Nodup :=
  hnodup.sublist ((rest_sublist wave pending).map name)

theorem length_rest_lt {done : List ι} {pending : List α} (h : ready needs done pending ≠ []) :
    (rest name (ready needs done pending) pending).length < pending.length := by
  obtain ⟨a, ha⟩ := List.exists_mem_of_ne_nil _ h
  refine List.length_filter_lt_length_iff_exists.2 ⟨a, (mem_ready.1 ha).1, ?_⟩
  simpa using List.mem_map_of_mem ha

theorem ready_append {done : List ι} {wave l : List α} (hwave : ∀ a ∈ wave, ∀ d ∈ needs a, d ∈ done)
    (hl : ∀ a ∈ l, ¬ ∀ d ∈ needs a, d ∈ done) : ready needs done (wave ++ l) = wave := by
  rw [ready, List.filter_append, List.filter_eq_self.2 fun a ha => by simpa using hwave a ha,
    List.filter_eq_nil_iff.2 fun a ha => by simpa using hl a ha, List.append_nil]

theorem rest_append {wave l : List α} (hnodup : ((wave ++ l).map name).Nodup) :
    rest name wave (wave ++ l) = l := by
  rw [List.map_append, List.nodup_append] at hnodup
  rw [rest, List.filter_append, List.filter_eq_nil_iff.2, List.filter_eq_self.2, List.nil_append]
  · intro a ha
    have hmem := fun h => hnodup.2.2 _ h _ (List.mem_map_of_mem ha) rfl
    simpa using hmem
  · intro a ha
    simpa using List.mem_map_of_mem ha

/-! ### The rules of sweeps -/

section

variable {done : σ → List ι} {step : σ → List α → Except ε σ} {stuck : ε}

/-- The rule of sweeps: what a step keeps, for a wave of pending elements with their needs met,
holds of the end, when nothing is pending any more. -/
theorem sweep_rule {I : σ → List α → Prop}
    (hstep : ∀ {s s' pending}, I s pending → ready needs (done s) pending ≠ [] →
      step s (ready needs (done s) pending) = .ok s' →
      I s' (rest name (ready needs (done s) pending) pending))
    {n : ℕ} {s s' : σ} {pending : List α} (h : I s pending)
    (hrun : sweep name needs done step stuck n s pending = .ok s') : I s' [] := by
  induction n generalizing s pending with
  | zero =>
    cases pending with
    | nil => obtain rfl := Except.ok.inj hrun; exact h
    | cons a pending => cases hrun
  | succ n ih =>
    cases pending with
    | nil => obtain rfl := Except.ok.inj hrun; exact h
    | cons a pending =>
      simp only [sweep] at hrun
      split_ifs at hrun with hready
      cases hnext : step s (ready needs (done s) (a :: pending)) with
      | error e => rw [hnext] at hrun; cases hrun
      | ok next =>
        rw [hnext] at hrun
        exact ih (hstep h hready hnext) hrun

/-- As many waves as there are elements are enough. -/
theorem sweep_eq_sweep {n m : ℕ} {s : σ} {pending : List α} (hn : pending.length ≤ n)
    (hm : pending.length ≤ m) :
    sweep name needs done step stuck n s pending =
      sweep name needs done step stuck m s pending := by
  induction n generalizing m s pending with
  | zero =>
    obtain rfl := List.length_eq_zero_iff.1 (Nat.le_zero.1 hn)
    cases m <;> rfl
  | succ n ih =>
    cases pending with
    | nil => cases m <;> rfl
    | cons a pending =>
      cases m with
      | zero => cases hm
      | succ m =>
        simp only [sweep]
        split_ifs with hready
        · rfl
        · have hlength : (rest name (ready needs (done s) (a :: pending)) (a :: pending)).length <
            (a :: pending).length := length_rest_lt hready
          cases step s (ready needs (done s) (a :: pending)) with
          | error e => rfl
          | ok s' => exact ih (by omega) (by omega)

/-- The rule of two sweeps: if related states have done the same, and related steps of the second
follow those of the first, the second sweep follows the first. -/
theorem sweep_rel {τ : Type} {done' : τ → List ι} {step' : τ → List α → Except ε τ}
    {R : σ → τ → Prop} (hdone : ∀ s t, R s t → done' t = done s)
    (hstep : ∀ s s' t wave, R s t → step s wave = .ok s' → ∃ t', step' t wave = .ok t' ∧ R s' t')
    {n : ℕ} {s s' : σ} {t : τ} {pending : List α} (h : R s t)
    (hrun : sweep name needs done step stuck n s pending = .ok s') :
    ∃ t', sweep name needs done' step' stuck n t pending = .ok t' ∧ R s' t' := by
  induction n generalizing s t pending with
  | zero =>
    cases pending with
    | nil => obtain rfl := Except.ok.inj hrun; exact ⟨t, rfl, h⟩
    | cons a pending => cases hrun
  | succ n ih =>
    cases pending with
    | nil => obtain rfl := Except.ok.inj hrun; exact ⟨t, rfl, h⟩
    | cons a pending =>
      simp only [sweep, hdone s t h] at hrun ⊢
      split_ifs at hrun ⊢ with hready
      cases hnext : step s (ready needs (done s) (a :: pending)) with
      | error e => rw [hnext] at hrun; cases hrun
      | ok next =>
        rw [hnext] at hrun
        obtain ⟨next', hnext', hR⟩ := hstep s next t _ h hnext
        rw [hnext']
        exact ih hR hrun

theorem Ordered.ready_ne_nil {done : List ι} {a : α} {pending : List α}
    (h : Ordered name needs done (a :: pending)) : ready needs done (a :: pending) ≠ [] :=
  List.ne_nil_of_mem (mem_ready.2 ⟨List.mem_cons_self, h.1⟩)

/-- What a wave leaves is still in a possible order. -/
theorem Ordered.rest {done done' : List ι} {pending : List α} (h : Ordered name needs done pending)
    (hdone : done ++ (ready needs done pending).map name ⊆ done') :
    Ordered name needs done' (rest name (ready needs done pending) pending) := by
  refine h.filter (fun d hd => hdone (List.mem_append_left _ hd)) fun b _ hdrop => ?_
  exact hdone (List.mem_append_right _ (by simpa using hdrop))

/-- A sweep over elements in a possible order ends, if every step that keeps the invariant does. -/
theorem sweep_total {I : σ → List α → Prop}
    (hstep : ∀ {s pending}, I s pending → ready needs (done s) pending ≠ [] → ∃ s',
      step s (ready needs (done s) pending) = .ok s' ∧
      done s ++ (ready needs (done s) pending).map name ⊆ done s' ∧
      I s' (rest name (ready needs (done s) pending) pending))
    {n : ℕ} {s : σ} {pending : List α} (hn : pending.length ≤ n) (h : I s pending)
    (hordered : Ordered name needs (done s) pending) :
    ∃ s', sweep name needs done step stuck n s pending = .ok s' ∧ I s' [] := by
  induction n generalizing s pending with
  | zero =>
    obtain rfl := List.length_eq_zero_iff.1 (Nat.le_zero.1 hn)
    exact ⟨s, rfl, h⟩
  | succ n ih =>
    cases pending with
    | nil => exact ⟨s, rfl, h⟩
    | cons a pending =>
      have hready := hordered.ready_ne_nil
      obtain ⟨s', hs', hdone, h'⟩ := hstep h hready
      have hlength : (rest name (ready needs (done s) (a :: pending)) (a :: pending)).length <
        (a :: pending).length := length_rest_lt hready
      obtain ⟨s'', hrun, hend⟩ := ih (by omega) h' (hordered.rest hdone)
      exact ⟨s'', by simp only [sweep, if_neg hready, hs']; exact hrun, hend⟩

end

/-! ### The order of a sweep -/

/-- The elements in the order in which a sweep takes them. -/
def order (name : α → ι) (needs : α → List ι) (stuck : ε) (items : List α) :
    Except ε (List α) :=
  sweep name needs (List.map name) (fun s wave => .ok (s ++ wave)) stuck items.length [] items

variable {stuck : ε}

/-- What the listing sweep makes of the pending elements: a possible order of them that the sweep
leaves as it is. -/
theorem sweep_append {n : ℕ} {s s' pending : List α} (hnodup : (pending.map name).Nodup)
    (hrun : sweep name needs (List.map name) (fun s wave => .ok (s ++ wave)) stuck n s pending =
      .ok s') :
    ∃ l, s' = s ++ l ∧ l.Perm pending ∧ Ordered name needs (s.map name) l ∧
      ∀ m, l.length ≤ m →
        sweep name needs (List.map name) (fun s wave => .ok (s ++ wave)) stuck m s l = .ok s' := by
  induction n generalizing s pending with
  | zero =>
    cases pending with
    | nil =>
      obtain rfl := Except.ok.inj hrun
      exact ⟨[], (List.append_nil s).symm, .nil, trivial, fun m _ => by cases m <;> rfl⟩
    | cons a pending => cases hrun
  | succ n ih =>
    cases pending with
    | nil =>
      obtain rfl := Except.ok.inj hrun
      exact ⟨[], (List.append_nil s).symm, .nil, trivial, fun m _ => by cases m <;> rfl⟩
    | cons a pending =>
      simp only [sweep] at hrun
      split_ifs at hrun with hready
      obtain ⟨l, hs', hperm, hordered, hagain⟩ := ih (rest_nodup hnodup _) hrun
      generalize hwave : ready needs (s.map name) (a :: pending) = wave at *
      have hneeds : ∀ b ∈ wave, ∀ d ∈ needs b, d ∈ s.map name := fun b hb =>
        (mem_ready.1 (hwave ▸ hb)).2
      have hperm' : (wave ++ l).Perm (a :: pending) :=
        (hperm.append_left wave).trans (hwave ▸ ready_append_rest_perm hnodup _)
      refine ⟨wave ++ l, by rw [hs', List.append_assoc], hperm', ?_, fun m hm => ?_⟩
      · refine ordered_append.2 ⟨ordered_of_forall hneeds, hordered.mono fun d hd => ?_⟩
        simpa [or_comm] using hd
      · have hblocked : ∀ b ∈ l, ¬ ∀ d ∈ needs b, d ∈ s.map name := by
          intro b hb hall
          have hb' := hperm.mem_iff.1 hb
          rw [← hwave, rest_ready hnodup] at hb'
          simp only [List.mem_filter, Bool.not_eq_true', List.all_eq_false, decide_eq_true_eq] at hb'
          obtain ⟨-, d, hd, hnot⟩ := hb'
          exact hnot (hall d hd)
        have hwave' : ready needs (s.map name) (wave ++ l) = wave :=
          ready_append hneeds hblocked
        have hrest : rest name wave (wave ++ l) = l :=
          rest_append ((hperm'.map name).nodup_iff.2 hnodup)
        cases wave with
        | nil => exact absurd rfl hready
        | cons b wave =>
          cases m with
          | zero => simp at hm
          | succ m =>
            simp only [List.cons_append] at hwave' hrest ⊢
            simp only [sweep, hwave', hrest, if_neg hready]
            refine hagain m ?_
            simp only [List.length_append, List.length_cons] at hm
            omega

variable {items l : List α}

/-- The sweep lists every element, behind what it needs, in an order that it would choose again. -/
theorem order_spec (hnodup : (items.map name).Nodup) (h : order name needs stuck items = .ok l) :
    l.Perm items ∧ Ordered name needs [] l ∧ order name needs stuck l = .ok l := by
  obtain ⟨l', rfl, hperm, hordered, hagain⟩ := sweep_append hnodup h
  exact ⟨hperm, hordered, hagain _ (Nat.le_refl _)⟩

/-- The order depends on names and needs only. -/
theorem order_map (f : β → α) (items : List β) :
    order name needs stuck (items.map f) =
      (order (name ∘ f) (needs ∘ f) stuck items).map (List.map f) := by
  have hsweep : ∀ n (s pending : List β),
      sweep name needs (List.map name) (fun s wave => .ok (s ++ wave)) stuck n (s.map f)
          (pending.map f) =
        (sweep (name ∘ f) (needs ∘ f) (List.map (name ∘ f)) (fun s wave => .ok (s ++ wave)) stuck n
          s pending).map (List.map f) := by
    intro n
    induction n with
    | zero => intro s pending; cases pending <;> rfl
    | succ n ih =>
      intro s pending
      cases pending with
      | nil => rfl
      | cons b pending =>
        have hready : ready needs ((s.map f).map name) ((b :: pending).map f) =
            (ready (needs ∘ f) (s.map (name ∘ f)) (b :: pending)).map f := by
          rw [ready, List.filter_map, List.map_map]
          rfl
        have hrest : ∀ wave : List β, rest name (wave.map f) ((b :: pending).map f) =
            (rest (name ∘ f) wave (b :: pending)).map f := fun wave => by
          rw [rest, List.filter_map, List.map_map]
          rfl
        simp only [sweep, List.map_cons] at hready hrest ⊢
        rw [hready, hrest, ← List.map_append, ih]
        simp only [List.map_eq_nil_iff]
        split_ifs <;> rfl
  rw [order, List.length_map]
  exact hsweep _ [] items

end Waves
