import Text2Cypher.Library.Checks

/-!
# Errors that are not caught

A caller catches some errors and lets the others through.  Whether a sequence of checks lets one
through is decided step by step, in the order of the checks.
-/

namespace Checks

variable {ε α β : Type} {caught : ε → Prop}

/-- A computation ends with an error that is not caught. -/
def Escapes (caught : ε → Prop) (x : Except ε α) : Prop := ∃ e, x = .error e ∧ ¬ caught e

@[simp] theorem not_escapes_ok (a : α) : ¬ Escapes caught (.ok a : Except ε α) := by
  rintro ⟨e, h, -⟩
  cases h

@[simp] theorem not_escapes_pure (a : α) : ¬ Escapes caught (pure a : Except ε α) :=
  not_escapes_ok a

@[simp] theorem escapes_error {e : ε} : Escapes caught (.error e : Except ε α) ↔ ¬ caught e := by
  constructor
  · rintro ⟨e', h, he'⟩
    cases h
    exact he'
  · exact fun he => ⟨e, rfl, he⟩

theorem escapes_bind {x : Except ε α} {f : α → Except ε β} :
    Escapes caught (x >>= f) ↔ Escapes caught x ∨ ∃ a, x = .ok a ∧ Escapes caught (f a) := by
  cases x with
  | error e => simp [error_bind]
  | ok a => simp [ok_bind]

theorem escapes_map {x : Except ε α} {f : α → β} :
    Escapes caught (x >>= fun a => pure (f a)) ↔ Escapes caught x := by
  rw [escapes_bind, or_iff_left]
  rintro ⟨a, -, ha⟩
  exact not_escapes_pure _ ha

/-- A first step that lets nothing through. -/
theorem escapes_bind_of_not {x : Except ε α} {f : α → Except ε β} (h : ¬ Escapes caught x) :
    Escapes caught (x >>= f) ↔ ∃ a, x = .ok a ∧ Escapes caught (f a) := by
  rw [escapes_bind, or_iff_right h]

/-- A check that lets nothing through. -/
theorem escapes_check {x : Except ε Unit} {y : Except ε β} (h : ¬ Escapes caught x) :
    Escapes caught (x >>= fun _ => y) ↔ x = .ok () ∧ Escapes caught y := by
  rw [escapes_bind_of_not h]
  constructor
  · rintro ⟨⟨⟩, hx, hy⟩
    exact ⟨hx, hy⟩
  · exact fun ⟨hx, hy⟩ => ⟨(), hx, hy⟩

theorem not_escapes_bind {x : Except ε α} {f : α → Except ε β} (h : ¬ Escapes caught x)
    (hf : ∀ a, ¬ Escapes caught (f a)) : ¬ Escapes caught (x >>= f) := by
  rw [escapes_bind_of_not h]
  rintro ⟨a, -, ha⟩
  exact hf a ha

theorem not_escapes_throw_bind {e : ε} {f : α → Except ε β} (h : caught e) :
    ¬ Escapes caught ((throw e : Except ε α) >>= f) := fun hescapes => escapes_error.1 hescapes h

theorem not_escapes_require {p : Prop} [Decidable p] {complaint : ε} (h : caught complaint) :
    ¬ Escapes caught (require p complaint) := by
  unfold require
  split_ifs <;> simp [h]

theorem not_escapes_numbered {f : ℕ → α → Except ε β} (h : ∀ n a, ¬ Escapes caught (f n a))
    (n : ℕ) (l : List α) : ¬ Escapes caught (numbered f n l) := by
  induction l generalizing n with
  | nil => exact not_escapes_ok _
  | cons a l ih =>
    refine not_escapes_bind (h n a) fun b => not_escapes_bind (ih (n + 1)) fun bs => ?_
    exact not_escapes_pure _

theorem not_escapes_mapM {f : α → Except ε β} (h : ∀ a, ¬ Escapes caught (f a)) (l : List α) :
    ¬ Escapes caught (l.mapM f) := by
  induction l with
  | nil => exact not_escapes_pure _
  | cons a l ih =>
    rw [List.mapM_cons]
    refine not_escapes_bind (h a) fun b => not_escapes_bind ih fun bs => ?_
    exact not_escapes_pure _

end Checks
