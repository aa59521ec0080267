import Text2Cypher.Answer.Context

/-!
# The budget of separate sections

The rows of separate sections are included in turn, one row of each section in every round, within a
number of rows and a number of characters.  A row that is too long blocks its section; if it is the
first row of all it is included first, but its characters are not counted, so that rows of other
sections may follow it.

* `TurnStep`: what one turn does;
* `takeTurns_rule`, `rounds_rule`: what every turn keeps holds at the end;
* `fair_rounds`, `blocked_rounds`: sections are served alike, unless they are cut off by size;
* **`sectionsWithin_iff`**: the limits are kept, unless the first row is too long and another section
  has a first row that is not.
-/

namespace Answer

open Checks

variable {α : Type} {size : α → Except PyException ℕ} {maxRows maxChars : ℕ}

/-! ### Turns -/

/-- What a turn does to the counters and to its section. -/
inductive TurnStep (size : α → Except PyException ℕ) (maxRows maxChars : ℕ) (budget : Budget)
    (turn : Turn α) : Budget → Turn α → Prop
  | skipped (closed : maxRows ≤ budget.includedCount ∨ turn.blocked = true) :
      TurnStep size maxRows maxChars budget turn budget turn
  | exhausted (hopen : budget.includedCount < maxRows ∧ turn.blocked = false)
      (atEnd : turn.rows[turn.included.length]? = none) :
      TurnStep size maxRows maxChars budget turn budget { turn with blocked := true }
  | oversized {row : α} {rowChars : ℕ}
      (hopen : budget.includedCount < maxRows ∧ turn.blocked = false)
      (next : turn.rows[turn.included.length]? = some row) (chars : size row = .ok rowChars)
      (long : maxChars < budget.charCount + rowChars) (first : budget.includedCount = 0) :
      TurnStep size maxRows maxChars budget turn
        { budget with includedCount := budget.includedCount + 1 }
        { turn with included := turn.included ++ [row], blocked := true }
  | cut {row : α} {rowChars : ℕ} (hopen : budget.includedCount < maxRows ∧ turn.blocked = false)
      (next : turn.rows[turn.included.length]? = some row) (chars : size row = .ok rowChars)
      (long : maxChars < budget.charCount + rowChars) (later : budget.includedCount ≠ 0) :
      TurnStep size maxRows maxChars budget turn budget { turn with blocked := true }
  | taken {row : α} {rowChars : ℕ} (hopen : budget.includedCount < maxRows ∧ turn.blocked = false)
      (next : turn.rows[turn.included.length]? = some row) (chars : size row = .ok rowChars)
      (fits : budget.charCount + rowChars ≤ maxChars) :
      TurnStep size maxRows maxChars budget turn
        ⟨budget.includedCount + 1, budget.charCount + rowChars, true⟩
        { turn with included := turn.included ++ [row] }

/-- No turn gives anything back. -/
theorem TurnStep.counts_le {budget budget' : Budget} {turn turn' : Turn α}
    (h : TurnStep size maxRows maxChars budget turn budget' turn') :
    budget.includedCount ≤ budget'.includedCount ∧ budget.charCount ≤ budget'.charCount := by
  cases h with
  | skipped closed => exact ⟨le_rfl, le_rfl⟩
  | exhausted hopen atEnd => exact ⟨le_rfl, le_rfl⟩
  | cut hopen next chars long later => exact ⟨le_rfl, le_rfl⟩
  | oversized hopen next chars long first => exact ⟨Nat.le_succ _, le_rfl⟩
  | taken hopen next chars fits => exact ⟨Nat.le_succ _, Nat.le_add_right _ _⟩

theorem turnStep_of_takeTurn {budget budget' : Budget} {turn turn' : Turn α}
    (h : takeTurn size maxRows maxChars budget turn = .ok (budget', turn')) :
    TurnStep size maxRows maxChars budget turn budget' turn' := by
  unfold takeTurn at h
  by_cases hskip : maxRows ≤ budget.includedCount ∨ turn.blocked = true
  · rw [if_pos hskip] at h
    obtain ⟨rfl, rfl⟩ := Prod.mk.inj (Except.ok.inj h)
    exact .skipped hskip
  · rw [if_neg hskip] at h
    rw [not_or, not_le, Bool.not_eq_true] at hskip
    cases hrow : turn.rows[turn.included.length]? with
    | none =>
      rw [hrow] at h
      obtain ⟨rfl, rfl⟩ := Prod.mk.inj (Except.ok.inj h)
      exact .exhausted hskip hrow
    | some row =>
      rw [hrow] at h
      simp only [bind_eq_ok] at h
      obtain ⟨rowChars, hchars, h⟩ := h
      split_ifs at h with hlong hfirst
      · obtain ⟨rfl, rfl⟩ := Prod.mk.inj (Except.ok.inj h)
        exact .oversized hskip hrow hchars hlong hfirst
      · obtain ⟨rfl, rfl⟩ := Prod.mk.inj (Except.ok.inj h)
        exact .cut hskip hrow hchars hlong hfirst
      · obtain ⟨rfl, rfl⟩ := Prod.mk.inj (Except.ok.inj h)
        exact .taken hskip hrow hchars (not_lt.1 hlong)

/-- **The rule of a round**: what every turn keeps, with the turns before it and behind it, holds
at the end of the round. -/
theorem takeTurns_rule {I : Budget → List (Turn α) → List (Turn α) → Prop}
    (hstep : ∀ {budget budget' done turn turn' todo}, I budget done (turn :: todo) →
      TurnStep size maxRows maxChars budget turn budget' turn' →
      I budget' (done ++ [turn']) todo)
    {budget budget' : Budget} {done todo todo' : List (Turn α)} (h : I budget done todo)
    (hrun : takeTurns size maxRows maxChars budget todo = .ok (budget', todo')) :
    I budget' (done ++ todo') [] := by
  induction todo generalizing budget done todo' with
  | nil =>
    obtain ⟨rfl, rfl⟩ := Prod.mk.inj (Except.ok.inj hrun)
    rwa [List.append_nil]
  | cons turn todo ih =>
    simp only [takeTurns, bind_eq_ok] at hrun
    obtain ⟨⟨budget₁, turn₁⟩, hturn, ⟨budget₂, turns₂⟩, hturns, hend⟩ := hrun
    obtain ⟨rfl, rfl⟩ := Prod.mk.inj (Except.ok.inj hend)
    have hnext := ih (hstep h (turnStep_of_takeTurn hturn)) hturns
    rwa [List.append_assoc, List.singleton_append] at hnext

/-- **The rule of the rounds**: what every turn keeps, and the start of a round, holds at the end. -/
theorem rounds_rule {I : Budget → List (Turn α) → List (Turn α) → Prop}
    (hstep : ∀ {budget budget' done turn turn' todo}, I budget done (turn :: todo) →
      TurnStep size maxRows maxChars budget turn budget' turn' →
      I budget' (done ++ [turn']) todo)
    (hround : ∀ {budget turns}, I budget turns [] →
      I { budget with progressed := false } [] turns)
    {n : ℕ} {budget budget' : Budget} {turns turns' : List (Turn α)}
    (h : I { budget with progressed := false } [] turns)
    (hrun : rounds size maxRows maxChars n budget turns = .ok (budget', turns')) :
    I { budget' with progressed := false } [] turns' := by
  induction n generalizing budget turns with
  | zero =>
    obtain ⟨rfl, rfl⟩ := Prod.mk.inj (Except.ok.inj hrun)
    exact h
  | succ n ih =>
    rw [rounds] at hrun
    split_ifs at hrun with hfull
    · obtain ⟨rfl, rfl⟩ := Prod.mk.inj (Except.ok.inj hrun)
      exact h
    · simp only [bind_eq_ok] at hrun
      obtain ⟨⟨budget₁, turns₁⟩, hturns, hrun⟩ := hrun
      have hnext := hround (takeTurns_rule hstep h hturns)
      dsimp only at hrun
      split_ifs at hrun with hprogressed
      · exact ih hnext hrun
      · obtain ⟨rfl, rfl⟩ := Prod.mk.inj (Except.ok.inj hrun)
        exact hnext

/-! ### What is kept -/

/-- The characters of some rows. -/
def charsOf (size : α → Except PyException ℕ) (rows : List α) : ℕ :=
  (rows.map fun row => (size row).toOption.getD 0).sum

theorem charsOf_concat {rows : List α} {row : α} {rowChars : ℕ} (h : size row = .ok rowChars) :
    charsOf size (rows ++ [row]) = charsOf size rows + rowChars := by
  simp [charsOf, h, Except.toOption]

/-- The rows that are included. -/
def includedRows (turns : List (Turn α)) : List α := (turns.map Turn.included).flatten

/-- The first row of all has more characters than the limit. -/
def FirstTooLong (size : α → Except PyException ℕ) (maxChars : ℕ) (sections : List (List α)) :
    Prop :=
  ∃ row rowChars, sections.flatten.head? = some row ∧ size row = .ok rowChars ∧ maxChars < rowChars

theorem prefix_concat {l l' : List α} {a : α} (h : l <+: l') (hnext : l'[l.length]? = some a) :
    l ++ [a] <+: l' := by
  obtain ⟨tail, rfl⟩ := h
  rw [List.getElem?_append_right le_rfl, Nat.sub_self] at hnext
  obtain ⟨rest, rfl⟩ : ∃ rest, tail = a :: rest := by
    rcases tail with _ | ⟨b, rest⟩
    · cases hnext
    · exact ⟨rest, by rw [Option.some.inj hnext]⟩
  exact ⟨rest, by rw [List.append_assoc, List.singleton_append]⟩

/-- A turn serves its own section: the next row, or none. -/
theorem TurnStep.served {budget budget' : Budget} {turn turn' : Turn α}
    (h : TurnStep size maxRows maxChars budget turn budget' turn') :
    turn'.rows = turn.rows ∧ (turn.included <+: turn.rows → turn'.included <+: turn'.rows) ∧
      budget'.includedCount + turn.included.length =
        budget.includedCount + turn'.included.length ∧
      (budget.includedCount ≤ maxRows → budget'.includedCount ≤ maxRows) ∧
      (budget.charCount ≤ maxChars → budget'.charCount ≤ maxChars) := by
  cases h with
  | skipped closed => exact ⟨rfl, id, rfl, id, id⟩
  | exhausted hopen atEnd => exact ⟨rfl, id, rfl, id, id⟩
  | cut hopen next chars long later => exact ⟨rfl, id, rfl, id, id⟩
  | oversized hopen next chars long first =>
    refine ⟨rfl, fun hinitial => prefix_concat hinitial next, ?_, fun _ => hopen.1, id⟩
    simp only [List.length_append, List.length_singleton]
    omega
  | taken hopen next chars fits =>
    refine ⟨rfl, fun hinitial => prefix_concat hinitial next, ?_, fun _ => hopen.1, fun _ => fits⟩
    simp only [List.length_append, List.length_singleton]
    omega

theorem charsOf_append (rows more : List α) :
    charsOf size (rows ++ more) = charsOf size rows + charsOf size more := by
  simp [charsOf]

theorem includedRows_insert (done todo : List (Turn α)) (turn : Turn α) :
    includedRows (done ++ turn :: todo) =
      includedRows done ++ (turn.included ++ includedRows todo) := by
  simp [includedRows]

/-- What holds throughout, for the sections whose turn is over in this round and for the others. -/
structure Kept (size : α → Except PyException ℕ) (sections : List (List α)) (maxRows maxChars : ℕ)
    (budget : Budget) (done todo : List (Turn α)) : Prop where
  rows : (done ++ todo).map Turn.rows = sections
  prefixes : ∀ turn ∈ done ++ todo, turn.included <+: turn.rows
  count : budget.includedCount = (includedRows (done ++ todo)).length
  count_le : budget.includedCount ≤ maxRows
  chars_le : budget.charCount ≤ maxChars
  chars : ¬ FirstTooLong size maxChars sections →
    charsOf size (includedRows (done ++ todo)) = budget.charCount
  /-- as long as no row is included, the sections that had their turn are empty -/
  start : budget.includedCount = 0 → budget.charCount = 0 ∧
    (0 < maxRows → ∀ turn ∈ done, turn.rows = []) ∧
    ∀ turn ∈ done ++ todo, turn.blocked = true → turn.rows = []
  /-- the first row that is included is the first row of all -/
  first : budget.includedCount ≠ 0 → ∀ row, sections.flatten.head? = some row →
    row ∈ includedRows (done ++ todo)

section

variable {sections : List (List α)} {budget budget' : Budget} {done todo : List (Turn α)}
  {turn turn' : Turn α}

/-- As long as no row is included, the next one is the first row of all. -/
theorem Kept.head?_eq (h : Kept size sections maxRows maxChars budget done (turn :: todo))
    (hzero : budget.includedCount = 0) (hpos : 0 < maxRows) {row : α}
    (hnext : turn.rows[turn.included.length]? = some row) :
    turn.included = [] ∧ sections.flatten.head? = some row := by
  have hincluded : includedRows (done ++ turn :: todo) = [] :=
    List.length_eq_zero_iff.1 (h.count.symm.trans hzero)
  rw [includedRows_insert, List.append_eq_nil_iff, List.append_eq_nil_iff] at hincluded
  have hempty : (done.map Turn.rows).flatten = [] := by
    rw [List.flatten_eq_nil_iff]
    intro rows hrows
    obtain ⟨other, hother, rfl⟩ := List.mem_map.1 hrows
    exact (h.start hzero).2.1 hpos other hother
  refine ⟨hincluded.2.1, ?_⟩
  rw [hincluded.2.1, List.length_nil] at hnext
  rw [← h.rows, List.map_append, List.flatten_append, hempty, List.nil_append, List.map_cons,
    List.flatten_cons, List.head?_append, List.head?_eq_getElem?, hnext]
  rfl

/-- **Every turn keeps this.** -/
theorem Kept.step (h : Kept size sections maxRows maxChars budget done (turn :: todo))
    (hstep : TurnStep size maxRows maxChars budget turn budget' turn') :
    Kept size sections maxRows maxChars budget' (done ++ [turn']) todo := by
  obtain ⟨hrows, hinitial, hcount, hcountLe, hcharsLe⟩ := hstep.served
  have hturn : turn ∈ done ++ turn :: todo := List.mem_append_right _ List.mem_cons_self
  have hlist : done ++ [turn'] ++ todo = done ++ turn' :: todo := by
    rw [List.append_assoc, List.singleton_append]
  have hothers : ∀ P : Turn α → Prop, (∀ t ∈ done ++ turn :: todo, P t) → P turn' →
      ∀ t ∈ done ++ turn' :: todo, P t := by
    intro P hall hnew t ht
    rcases List.mem_append.1 ht with ht | ht
    · exact hall t (List.mem_append_left _ ht)
    · rcases List.mem_cons.1 ht with rfl | ht
      · exact hnew
      · exact hall t (List.mem_append_right _ (List.mem_cons_of_mem _ ht))
  refine ⟨?_, ?_, ?_, hcountLe h.count_le, hcharsLe h.chars_le, ?_, ?_, ?_⟩
  · rw [hlist, ← h.rows]
    simp only [List.map_append, List.map_cons, hrows]
  · rw [hlist]
    exact hothers _ h.prefixes (hinitial (h.prefixes turn hturn))
  · have hold := h.count
    rw [includedRows_insert] at hold
    rw [hlist, includedRows_insert]
    simp only [List.length_append] at hold ⊢
    omega
  · intro hshort
    have hold := h.chars hshort
    rw [includedRows_insert, charsOf_append, charsOf_append] at hold
    rw [hlist, includedRows_insert, charsOf_append, charsOf_append]
    cases hstep with
    | skipped closed => exact hold
    | exhausted hopen atEnd => exact hold
    | cut hopen next chars long later => exact hold
    | oversized hopen next chars long first =>
      -- the row would be the first of all, and too long
      obtain ⟨-, hhead⟩ := h.head?_eq first (first ▸ hopen.1) next
      rw [(h.start first).1, Nat.zero_add] at long
      exact absurd ⟨_, _, hhead, chars, long⟩ hshort
    | taken hopen next chars fits =>
      rw [charsOf_concat chars]
      show _ = budget.charCount + _
      omega
  · intro hzero
    rw [hlist]
    cases hstep with
    | skipped closed =>
      obtain ⟨hchars, hdone, hblocked⟩ := h.start hzero
      refine ⟨hchars, fun hpos t ht => ?_, hothers _ hblocked (hblocked turn hturn)⟩
      rcases List.mem_append.1 ht with ht | ht
      · exact hdone hpos t ht
      · obtain rfl := List.mem_singleton.1 ht
        rcases closed with hfull | hover
        · omega
        · exact hblocked t hturn hover
    | exhausted hopen atEnd =>
      obtain ⟨hchars, hdone, hblocked⟩ := h.start hzero
      have hrowsEmpty : turn.rows = [] := by
        have hincluded : includedRows (done ++ turn :: todo) = [] :=
          List.length_eq_zero_iff.1 (h.count.symm.trans hzero)
        rw [includedRows_insert, List.append_eq_nil_iff, List.append_eq_nil_iff] at hincluded
        rw [hincluded.2.1, List.length_nil, List.getElem?_eq_none_iff] at atEnd
        exact List.length_eq_zero_iff.1 (Nat.le_zero.1 atEnd)
      refine ⟨hchars, fun hpos t ht => ?_, hothers _ hblocked fun _ => hrowsEmpty⟩
      rcases List.mem_append.1 ht with ht | ht
      · exact hdone hpos t ht
      · obtain rfl := List.mem_singleton.1 ht
        exact hrowsEmpty
    | cut hopen next chars long later => exact absurd hzero later
    | oversized hopen next chars long first => cases hzero
    | taken hopen next chars fits => cases hzero
  · intro hcountNe row hhead
    rw [hlist, includedRows_insert]
    have hold : budget.includedCount ≠ 0 →
        row ∈ includedRows done ++ (turn.included ++ includedRows todo) := by
      intro hne
      rw [← includedRows_insert]
      exact h.first hne row hhead
    cases hstep with
    | skipped closed => exact hold hcountNe
    | exhausted hopen atEnd => exact hold hcountNe
    | cut hopen next chars long later => exact hold hcountNe
    | oversized hopen next chars long first =>
      obtain ⟨-, hhead'⟩ := h.head?_eq first (first ▸ hopen.1) next
      obtain rfl := Option.some.inj (hhead.symm.trans hhead')
      simp
    | taken hopen next chars fits =>
      by_cases hzero : budget.includedCount = 0
      · obtain ⟨-, hhead'⟩ := h.head?_eq hzero (hzero ▸ hopen.1) next
        obtain rfl := Option.some.inj (hhead.symm.trans hhead')
        simp
      · have hmem := hold hzero
        simp only [List.mem_append] at hmem ⊢
        rcases hmem with hmem | hmem | hmem
        · exact Or.inl hmem
        · exact Or.inr (Or.inl (Or.inl hmem))
        · exact Or.inr (Or.inr hmem)

/-! ### What is included at the end -/

theorem kept_rounds {n : ℕ} {turns : List (Turn α)}
    (hrun : rounds size maxRows maxChars n ⟨0, 0, false⟩
      (sections.map fun rows => ⟨rows, [], false⟩) = .ok (budget, turns)) :
    Kept size sections maxRows maxChars { budget with progressed := false } [] turns := by
  have hempty : includedRows (sections.map fun rows => (⟨rows, [], false⟩ : Turn α)) = [] := by
    simp [includedRows]
  refine rounds_rule (fun h hstep => h.step hstep) (fun {budget turns} h => ?_) ?_ hrun
  · have hlist : turns ++ [] = [] ++ turns := by rw [List.append_nil, List.nil_append]
    refine ⟨hlist ▸ h.rows, hlist ▸ h.prefixes, hlist ▸ h.count, h.count_le, h.chars_le,
      hlist ▸ h.chars, fun hzero => ⟨(h.start hzero).1, fun _ _ => nofun, ?_⟩, hlist ▸ h.first⟩
    exact hlist ▸ (h.start hzero).2.2
  · refine ⟨?_, ?_, ?_, Nat.zero_le _, Nat.zero_le _, ?_, ?_, fun hne => absurd rfl hne⟩
    · rw [List.nil_append, List.map_map]
      exact List.map_id _
    · intro turn hturn
      obtain ⟨rows, -, rfl⟩ := List.mem_map.1 hturn
      exact List.nil_prefix
    · rw [List.nil_append, hempty]
      rfl
    · intro _
      rw [List.nil_append, hempty]
      rfl
    · refine fun _ => ⟨rfl, fun _ _ => nofun, fun turn hturn hblocked => ?_⟩
      obtain ⟨rows, -, rfl⟩ := List.mem_map.1 hturn
      cases hblocked

/-- If the first row of every section is too long, only one row is included. -/
theorem includedCount_le_one {n : ℕ} {turns : List (Turn α)}
    (hlong : ∀ rows ∈ sections, ∀ row rowChars, rows.head? = some row →
      size row = .ok rowChars → maxChars < rowChars)
    (hrun : rounds size maxRows maxChars n ⟨0, 0, false⟩
      (sections.map fun rows => ⟨rows, [], false⟩) = .ok (budget, turns)) :
    budget.includedCount ≤ 1 := by
  let I (budget : Budget) (done todo : List (Turn α)) : Prop :=
    budget.includedCount ≤ 1 ∧ budget.charCount = 0 ∧ ∀ turn ∈ done ++ todo,
      turn.rows ∈ sections ∧ (turn.blocked = false → turn.included = [])
  have hend := rounds_rule (I := I) ?_ (fun {budget turns} h => ?_) ?_ hrun
  · exact hend.1
  · rintro budget budget' done turn turn' todo ⟨hcount, hchars, hturns⟩ hstep
    have hrows := hstep.served.1
    obtain ⟨hmem, hfresh⟩ := hturns turn (List.mem_append_right _ List.mem_cons_self)
    suffices hnew : budget'.includedCount ≤ 1 ∧ budget'.charCount = 0 ∧
        (turn'.blocked = false → turn'.included = []) by
      refine ⟨hnew.1, hnew.2.1, fun t ht => ?_⟩
      rw [List.append_assoc, List.singleton_append] at ht
      rcases List.mem_append.1 ht with ht | ht
      · exact hturns t (List.mem_append_left _ ht)
      · rcases List.mem_cons.1 ht with rfl | ht
        · exact ⟨hrows ▸ hmem, hnew.2.2⟩
        · exact hturns t (List.mem_append_right _ (List.mem_cons_of_mem _ ht))
    cases hstep with
    | skipped closed => exact ⟨hcount, hchars, hfresh⟩
    | exhausted hopen atEnd => exact ⟨hcount, hchars, nofun⟩
    | cut hopen next chars long later => exact ⟨hcount, hchars, nofun⟩
    | oversized hopen next chars long first => exact ⟨by dsimp only; omega, hchars, nofun⟩
    | taken hopen next chars fits =>
      rw [hfresh hopen.2, List.length_nil, ← List.head?_eq_getElem?] at next
      have := hlong _ hmem _ _ next chars
      omega
  · obtain ⟨hcount, hchars, hturns⟩ := h
    exact ⟨hcount, hchars, fun turn hturn => hturns turn (by simpa using hturn)⟩
  · refine ⟨Nat.zero_le _, rfl, fun turn hturn => ?_⟩
    obtain ⟨rows, hrows, rfl⟩ := List.mem_map.1 hturn
    exact ⟨hrows, fun _ => rfl⟩

/-- The first row of a section is within the limit. -/
def FirstFits (size : α → Except PyException ℕ) (maxChars : ℕ) (rows : List α) : Prop :=
  ∃ row rowChars, rows.head? = some row ∧ size row = .ok rowChars ∧ rowChars ≤ maxChars

theorem two_le_rounds {n : ℕ} {turns turns' : List (Turn α)} (h : 2 ≤ budget.includedCount)
    (hrun : rounds size maxRows maxChars n budget turns = .ok (budget', turns')) :
    2 ≤ budget'.includedCount := by
  refine rounds_rule (I := fun budget _ _ => 2 ≤ budget.includedCount) ?_ (fun h => h) h hrun
  intro budget budget' done turn turn' todo h hstep
  exact h.trans hstep.counts_le.1

/-- If the first row of all is too long and that of another section is not, rows of both are
included. -/
theorem two_le_includedCount {turns : List (Turn α)} (htwo : 2 ≤ maxRows)
    (hlong : FirstTooLong size maxChars sections)
    (hfits : ∃ rows ∈ sections, FirstFits size maxChars rows)
    (hrun : rounds size maxRows maxChars maxRows ⟨0, 0, false⟩
      (sections.map fun rows => ⟨rows, [], false⟩) = .ok (budget, turns)) :
    2 ≤ budget.includedCount := by
  let I (budget : Budget) (done todo : List (Turn α)) : Prop :=
    2 ≤ budget.includedCount ∨ budget.charCount = 0 ∧ (done ++ todo).map Turn.rows = sections ∧
      (budget.includedCount = 0 → ∀ turn ∈ done, turn.rows = []) ∧
      (∀ turn ∈ done, ¬ FirstFits size maxChars turn.rows) ∧
      ∀ turn ∈ todo, turn.included = [] ∧ turn.blocked = false
  have hstep : ∀ {budget budget' done turn turn' todo}, I budget done (turn :: todo) →
      TurnStep size maxRows maxChars budget turn budget' turn' →
      I budget' (done ++ [turn']) todo := by
    rintro budget budget' done turn turn' todo (htwo | ⟨hchars, hrows, hempty, hdone, htodo⟩) hstep
    · exact Or.inl (htwo.trans hstep.counts_le.1)
    · obtain ⟨hfresh, hunblocked⟩ := htodo turn List.mem_cons_self
      have hturn := hstep.served.1
      -- the turn ends without a row that fits
      have hnext : (budget'.includedCount = 0 → turn.rows = [] ∧ budget.includedCount = 0) →
          budget'.charCount = 0 → ¬ FirstFits size maxChars turn.rows →
          I budget' (done ++ [turn']) todo := by
        intro hzero hchars' hlarge
        refine Or.inr ⟨hchars', ?_, fun h t ht => ?_, fun t ht => ?_, fun t ht =>
          htodo t (List.mem_cons_of_mem _ ht)⟩
        · rw [← hrows, List.append_assoc, List.singleton_append]
          simp only [List.map_append, List.map_cons, hturn]
        · rcases List.mem_append.1 ht with ht | ht
          · exact hempty (hzero h).2 t ht
          · rw [List.mem_singleton.1 ht, hturn]
            exact (hzero h).1
        · rcases List.mem_append.1 ht with ht | ht
          · exact hdone t ht
          · rw [List.mem_singleton.1 ht, hturn]
            exact hlarge
      have hhead : ∀ {row}, turn.rows[turn.included.length]? = some row →
          turn.rows.head? = some row := by
        intro row hrow
        rwa [hfresh, List.length_nil, ← List.head?_eq_getElem?] at hrow
      have hlargeOf : ∀ {row rowChars}, turn.rows[turn.included.length]? = some row →
          size row = .ok rowChars → maxChars < budget.charCount + rowChars →
          ¬ FirstFits size maxChars turn.rows := by
        rintro row rowChars hrow hsize hover ⟨row', rowChars', hrow', hsize', hle⟩
        obtain rfl := Option.some.inj ((hhead hrow).symm.trans hrow')
        obtain rfl := Except.ok.inj (hsize.symm.trans hsize')
        omega
      cases hstep with
      | skipped closed =>
        rcases closed with hfull | hblocked
        · exact Or.inl (htwo.trans hfull)
        · rw [hunblocked] at hblocked
          cases hblocked
      | exhausted hopen atEnd =>
        rw [hfresh, List.length_nil, List.getElem?_eq_none_iff, Nat.le_zero,
          List.length_eq_zero_iff] at atEnd
        refine hnext (fun h => ⟨atEnd, h⟩) hchars ?_
        rintro ⟨row, rowChars, hrow, -⟩
        rw [atEnd] at hrow
        cases hrow
      | cut hopen next chars long later =>
        exact hnext (fun h => absurd h later) hchars (hlargeOf next chars long)
      | oversized hopen next chars long first =>
        exact hnext (fun h => absurd h (Nat.succ_ne_zero _)) hchars (hlargeOf next chars long)
      | @taken row rowChars hopen next chars fits =>
        refine Or.inl ?_
        show 2 ≤ budget.includedCount + 1
        by_contra hless
        have hzero : budget.includedCount = 0 := by omega
        obtain ⟨first, firstChars, hfirst, hsize, hover⟩ := hlong
        have hdoneEmpty : (done.map Turn.rows).flatten = [] := by
          rw [List.flatten_eq_nil_iff]
          intro rows hmem
          obtain ⟨other, hother, rfl⟩ := List.mem_map.1 hmem
          exact hempty hzero other hother
        rw [← hrows, List.map_append, List.flatten_append, hdoneEmpty, List.nil_append,
          List.map_cons, List.flatten_cons, List.head?_append, hhead next] at hfirst
        obtain rfl := Option.some.inj hfirst
        obtain rfl := Except.ok.inj (hsize.symm.trans chars)
        omega
  obtain ⟨n, rfl⟩ : ∃ n, maxRows = n + 1 := ⟨maxRows - 1, by omega⟩
  rw [rounds, if_neg (by dsimp only; omega)] at hrun
  simp only [bind_eq_ok] at hrun
  obtain ⟨⟨budget₁, turns₁⟩, hturns, hrun⟩ := hrun
  have hstart : I { (⟨0, 0, false⟩ : Budget) with progressed := false } []
      (sections.map fun rows => ⟨rows, [], false⟩) := by
    refine Or.inr ⟨rfl, ?_, by simp, by simp, fun turn hturn => ?_⟩
    · rw [List.nil_append, List.map_map]
      exact List.map_id _
    · obtain ⟨rows, -, rfl⟩ := List.mem_map.1 hturn
      exact ⟨rfl, rfl⟩
  have hround : 2 ≤ budget₁.includedCount := by
    rcases takeTurns_rule hstep hstart hturns with hround | ⟨-, hrows, -, hnone, -⟩
    · exact hround
    · obtain ⟨rows, hmem, hrowsFit⟩ := hfits
      rw [List.append_nil, List.nil_append] at hrows
      rw [← hrows] at hmem
      obtain ⟨turn, hturn, rfl⟩ := List.mem_map.1 hmem
      exact absurd hrowsFit (hnone turn (by simpa using hturn))
  dsimp only at hrun
  split_ifs at hrun with hprogressed
  · exact two_le_rounds hround hrun
  · obtain ⟨rfl, rfl⟩ := Prod.mk.inj (Except.ok.inj hrun)
    exact hround

/-! ### Fairness -/

/-- **Sections that are not blocked are served alike**: the round that comes last can only have
served some of them once more. -/
theorem fair_rounds {n : ℕ} {turns turns' : List (Turn α)}
    (hfresh : ∀ turn ∈ turns, turn.included = [])
    (hrun : rounds size maxRows maxChars n budget turns = .ok (budget', turns')) :
    ∃ served, ∀ turn ∈ turns', turn.blocked = false →
      served ≤ turn.included.length ∧ turn.included.length ≤ served + 1 := by
  let I (budget : Budget) (done todo : List (Turn α)) : Prop := ∃ served,
    (∀ turn ∈ done, turn.blocked = false → served ≤ turn.included.length ∧
      turn.included.length ≤ served + 1 ∧
      (budget.includedCount < maxRows → turn.included.length = served + 1)) ∧
    ∀ turn ∈ todo, turn.blocked = false → served ≤ turn.included.length ∧
      turn.included.length ≤ served + 1 ∧
      (budget.includedCount < maxRows → turn.included.length = served)
  have hend := rounds_rule (I := I) ?_ (fun {budget turns} h => ?_) ?_ hrun
  · obtain ⟨served, -, hserved⟩ := hend
    exact ⟨served, fun turn hturn hopen =>
      ⟨(hserved turn hturn hopen).1, (hserved turn hturn hopen).2.1⟩⟩
  · rintro budget budget' done turn turn' todo ⟨served, hdone, htodo⟩ hstep
    have hle : budget.includedCount ≤ budget'.includedCount := by
      cases hstep with
      | skipped closed => exact le_rfl
      | exhausted hopen atEnd => exact le_rfl
      | cut hopen next chars long later => exact le_rfl
      | oversized hopen next chars long first => exact Nat.le_succ _
      | taken hopen next chars fits => exact Nat.le_succ _
    have hrest := htodo turn List.mem_cons_self
    refine ⟨served, fun t ht hopen => ?_, fun t ht hopen => ?_⟩
    · rcases List.mem_append.1 ht with ht | ht
      · obtain ⟨hlow, hhigh, hall⟩ := hdone t ht hopen
        exact ⟨hlow, hhigh, fun hroom => hall (hle.trans_lt hroom)⟩
      · obtain rfl := List.mem_singleton.1 ht
        cases hstep with
        | skipped closed =>
          obtain ⟨hlow, hhigh, -⟩ := hrest hopen
          refine ⟨hlow, hhigh, fun hroom => ?_⟩
          rcases closed with hfull | hblocked
          · omega
          · rw [hopen] at hblocked
            cases hblocked
        | exhausted hturn atEnd => cases hopen
        | cut hturn next chars long later => cases hopen
        | oversized hturn next chars long first => cases hopen
        | taken hturn next chars fits =>
          have hlength := (hrest hturn.2).2.2 hturn.1
          simp only [List.length_append, List.length_singleton]
          omega
    · obtain ⟨hlow, hhigh, hall⟩ := htodo t (List.mem_cons_of_mem _ ht) hopen
      exact ⟨hlow, hhigh, fun hroom => hall (hle.trans_lt hroom)⟩
  · obtain ⟨served, hdone, -⟩ := h
    by_cases hroom : budget.includedCount < maxRows
    · refine ⟨served + 1, nofun, fun turn hturn hopen => ?_⟩
      have hlength := (hdone turn hturn hopen).2.2 hroom
      exact ⟨hlength.ge, by omega, fun _ => hlength⟩
    · refine ⟨served, nofun, fun turn hturn hopen => ?_⟩
      obtain ⟨hlow, hhigh, -⟩ := hdone turn hturn hopen
      exact ⟨hlow, hhigh, fun h => absurd h hroom⟩
  · refine ⟨0, nofun, fun turn hturn _ => ?_⟩
    rw [hfresh turn hturn]
    exact ⟨le_rfl, Nat.zero_le _, fun _ => rfl⟩

/-- A section is cut off by size: its next row, or the only one it has got, does not fit. -/
def CutOff (size : α → Except PyException ℕ) (maxChars charCount : ℕ) (turn : Turn α) : Prop :=
  ∃ row rowChars, (turn.rows[turn.included.length]? = some row ∨ turn.included = [row]) ∧
    size row = .ok rowChars ∧ maxChars < charCount + rowChars

theorem CutOff.mono {turn : Turn α} {charCount charCount' : ℕ} (hle : charCount ≤ charCount')
    (h : CutOff size maxChars charCount turn) : CutOff size maxChars charCount' turn := by
  obtain ⟨row, rowChars, hrow, hsize, hover⟩ := h
  exact ⟨row, rowChars, hrow, hsize, by omega⟩

/-- A section is blocked when it has no more rows, or when it is cut off by size. -/
theorem blocked_rounds {n : ℕ} {turns turns' : List (Turn α)}
    (hfresh : ∀ turn ∈ turns, turn.blocked = false) (hcount : budget.includedCount = 0 →
      ∀ turn ∈ turns, turn.included = [])
    (hrun : rounds size maxRows maxChars n budget turns = .ok (budget', turns')) :
    ∀ turn ∈ turns', turn.blocked = true →
      turn.rows[turn.included.length]? = none ∨ CutOff size maxChars budget'.charCount turn := by
  let I (budget : Budget) (done todo : List (Turn α)) : Prop :=
    (budget.includedCount = 0 → ∀ turn ∈ done ++ todo, turn.included = []) ∧
    ∀ turn ∈ done ++ todo, turn.blocked = true →
      turn.rows[turn.included.length]? = none ∨ CutOff size maxChars budget.charCount turn
  have hend := rounds_rule (I := I) ?_ (fun {budget turns} h => ?_) ⟨hcount, ?_⟩ hrun
  · exact hend.2
  · rintro budget budget' done turn turn' todo ⟨hzero, hblocked⟩ hstep
    have hturn : turn ∈ done ++ turn :: todo := List.mem_append_right _ List.mem_cons_self
    have hle := hstep.counts_le.2
    suffices hnew : (budget'.includedCount = 0 → budget.includedCount = 0 ∧ turn'.included = []) ∧
        (turn'.blocked = true → turn'.rows[turn'.included.length]? = none ∨
          CutOff size maxChars budget'.charCount turn') by
      refine ⟨fun h t ht => ?_, fun t ht hb => ?_⟩
        <;> rw [List.append_assoc, List.singleton_append] at ht
      · rcases List.mem_append.1 ht with ht | ht
        · exact hzero (hnew.1 h).1 t (List.mem_append_left _ ht)
        · rcases List.mem_cons.1 ht with rfl | ht
          · exact (hnew.1 h).2
          · exact hzero (hnew.1 h).1 t (List.mem_append_right _ (List.mem_cons_of_mem _ ht))
      · rcases List.mem_append.1 ht with ht | ht
        · exact (hblocked t (List.mem_append_left _ ht) hb).imp_right (CutOff.mono hle)
        · rcases List.mem_cons.1 ht with rfl | ht
          · exact hnew.2 hb
          · exact (hblocked t (List.mem_append_right _ (List.mem_cons_of_mem _ ht)) hb).imp_right
              (CutOff.mono hle)
    cases hstep with
    | skipped closed => exact ⟨fun h => ⟨h, hzero h turn hturn⟩, hblocked turn hturn⟩
    | exhausted hopen atEnd => exact ⟨fun h => ⟨h, hzero h turn hturn⟩, fun _ => Or.inl atEnd⟩
    | cut hopen next chars long later =>
      exact ⟨fun h => absurd h later, fun _ => Or.inr ⟨_, _, Or.inl next, chars, long⟩⟩
    | oversized hopen next chars long first =>
      refine ⟨nofun, fun _ => Or.inr ⟨_, _, Or.inr ?_, chars, long⟩⟩
      show turn.included ++ _ = _
      rw [hzero first turn hturn, List.nil_append]
    | taken hopen next chars fits =>
      refine ⟨nofun, fun h => ?_⟩
      rw [show turn.blocked = true from h] at hopen
      exact absurd hopen.2 nofun
  · exact ⟨fun hzero turn ht => h.1 hzero turn (by simpa using ht),
      fun turn ht => h.2 turn (by simpa using ht)⟩
  · intro turn ht hb
    rw [hfresh turn ht] at hb
    cases hb

/-! ### The result -/

theorem takeTurns_ok {turns : List (Turn α)}
    (hsize : ∀ turn ∈ turns, ∀ row ∈ turn.rows, ∃ rowChars, size row = .ok rowChars) :
    ∃ budget' turns', takeTurns size maxRows maxChars budget turns = .ok (budget', turns') ∧
      turns'.map Turn.rows = turns.map Turn.rows := by
  induction turns generalizing budget with
  | nil => exact ⟨budget, [], rfl, rfl⟩
  | cons turn turns ih =>
    obtain ⟨budget₁, turn₁, hturn⟩ : ∃ budget₁ turn₁,
        takeTurn size maxRows maxChars budget turn = .ok (budget₁, turn₁) := by
      unfold takeTurn
      by_cases hskip : maxRows ≤ budget.includedCount ∨ turn.blocked = true
      · exact ⟨budget, turn, if_pos hskip⟩
      · rw [if_neg hskip]
        cases hrow : turn.rows[turn.included.length]? with
        | none => exact ⟨_, _, rfl⟩
        | some row =>
          obtain ⟨rowChars, hchars⟩ :=
            hsize turn List.mem_cons_self row (List.mem_of_getElem? hrow)
          simp only [hchars, ok_bind]
          split_ifs
          · exact ⟨_, _, rfl⟩
          · exact ⟨_, _, rfl⟩
          · exact ⟨_, _, rfl⟩
    obtain ⟨budget₂, turns₂, hturns, hrows⟩ : ∃ budget₂ turns₂,
        takeTurns size maxRows maxChars budget₁ turns = .ok (budget₂, turns₂) ∧
          turns₂.map Turn.rows = turns.map Turn.rows :=
      ih fun t ht => hsize t (List.mem_cons_of_mem _ ht)
    refine ⟨budget₂, turn₁ :: turns₂, ?_, ?_⟩
    · simp only [takeTurns, hturn, hturns, ok_bind]
      rfl
    · rw [List.map_cons, List.map_cons, hrows, (turnStep_of_takeTurn hturn).served.1]

/-- Where every row has a size, no exception is raised. -/
theorem rounds_ok {n : ℕ} {turns : List (Turn α)}
    (hsize : ∀ turn ∈ turns, ∀ row ∈ turn.rows, ∃ rowChars, size row = .ok rowChars) :
    ∃ budget' turns', rounds size maxRows maxChars n budget turns = .ok (budget', turns') := by
  induction n generalizing budget turns with
  | zero => exact ⟨budget, turns, rfl⟩
  | succ n ih =>
    rw [rounds]
    split_ifs with hfull
    · exact ⟨budget, turns, rfl⟩
    · obtain ⟨budget₁, turns₁, hround, hrows⟩ : ∃ budget₁ turns₁,
          takeTurns size maxRows maxChars { budget with progressed := false } turns =
            .ok (budget₁, turns₁) ∧ turns₁.map Turn.rows = turns.map Turn.rows :=
        takeTurns_ok hsize
      simp only [hround, ok_bind]
      split_ifs
      · refine ih fun turn hturn row hrow => ?_
        have hmem : turn.rows ∈ turns.map Turn.rows := hrows ▸ List.mem_map_of_mem hturn
        obtain ⟨other, hother, heq⟩ := List.mem_map.1 hmem
        exact hsize other hother row (heq ▸ hrow)
      · exact ⟨budget₁, turns₁, rfl⟩

/-- Prefixes of some lists are all of them exactly if they have as many items. -/
theorem prefixes_length {included sections : List (List α)}
    (h : List.Forall₂ (· <+: ·) included sections) :
    included.flatten.length ≤ (sections.map List.length).sum ∧
      (included = sections ↔ included.flatten.length = (sections.map List.length).sum) := by
  induction h with
  | nil => exact ⟨le_rfl, by simp⟩
  | @cons rows all included sections hinitial hrest ih =>
    have hlength := hinitial.length_le
    have hrows : rows = all ↔ rows.length = all.length :=
      ⟨congrArg _, hinitial.eq_of_length⟩
    simp only [List.flatten_cons, List.length_append, List.map_cons, List.sum_cons,
      List.cons.injEq, hrows, ih.2]
    omega

/-- What is promised of the rows that are included: `turns` is the end of the loop. -/
structure WithinBudget (size : α → Except PyException ℕ) (sections : List (List α))
    (maxRows maxChars : ℕ) (turns : List (Turn α)) (included : List (List α))
    (includedCount : ℕ) (truncated : Bool) : Prop where
  prefixes : List.Forall₂ (· <+: ·) included sections
  count : includedCount = included.flatten.length
  count_le : includedCount ≤ maxRows
  /-- the characters are within the limit, unless the first row alone exceeds it -/
  chars : charsOf size included.flatten ≤ maxChars ∨ ∃ row rowChars,
    sections.flatten.head? = some row ∧ size row = .ok rowChars ∧ maxChars < rowChars ∧
      included.flatten = [row]
  /-- sections with rows left, not cut off by size, are served alike -/
  fair : ∀ turn ∈ turns, ∀ other ∈ turns, turn.blocked = false → other.blocked = false →
    turn.included.length ≤ other.included.length + 1
  blocked : ∀ turn ∈ turns, turn.blocked = true →
    turn.rows[turn.included.length]? = none ∨
      CutOff size maxChars (charsOf size included.flatten) turn
  truncated : truncated = true ↔ included ≠ sections

/-- `_truncate_sections` ends and keeps to the budget: more rounds make no difference, and the
result is within the limits. -/
def SectionsWithin (size : α → Except PyException ℕ) (sections : List (List α))
    (maxRows maxChars : ℕ) : Prop :=
  ∃ budget turns includedCount truncated,
    (∀ n, maxRows ≤ n → rounds size maxRows maxChars n ⟨0, 0, false⟩
      (sections.map fun rows => ⟨rows, [], false⟩) = .ok (budget, turns)) ∧
    truncateSections size sections maxRows maxChars =
      .ok (turns.map Turn.included, includedCount, truncated) ∧
    WithinBudget size sections maxRows maxChars turns (turns.map Turn.included) includedCount
      truncated

theorem le_charsOf {rows : List α} {row : α} {rowChars : ℕ} (hmem : row ∈ rows)
    (hsize : size row = .ok rowChars) : rowChars ≤ charsOf size rows := by
  obtain ⟨before, behind, rfl⟩ := List.append_of_mem hmem
  rw [charsOf_append]
  simp only [charsOf, List.map_cons, List.sum_cons, hsize, Except.toOption, Option.getD_some]
  omega

theorem Kept.charCount_le {turns : List (Turn α)}
    (h : Kept size sections maxRows maxChars budget [] turns) :
    budget.charCount ≤ charsOf size (includedRows turns) := by
  by_cases hlong : FirstTooLong size maxChars sections
  · by_cases hzero : budget.includedCount = 0
    · rw [(h.start hzero).1]
      exact Nat.zero_le _
    · obtain ⟨row, rowChars, hhead, hsize, hover⟩ := hlong
      exact h.chars_le.trans (hover.le.trans (le_charsOf (h.first hzero row hhead) hsize))
  · exact (h.chars hlong).ge

theorem rounds_of_le {n : ℕ} {turns : List (Turn α)} (hle : maxRows ≤ n) :
    rounds size maxRows maxChars n budget turns =
      rounds size maxRows maxChars maxRows budget turns := by
  induction n, hle using Nat.le_induction with
  | base => rfl
  | succ n hle ih => rw [rounds_stable n budget turns (Nat.le_add_right_of_le hle), ih]

/-- **The sections keep to the budget exactly if** the first row of all is not too long, or at most
one row is asked for, or no section has a first row that is within the limit: otherwise rows of
other sections follow the row that is too long. -/
theorem sectionsWithin_iff
    (hsize : ∀ rows ∈ sections, ∀ row ∈ rows, ∃ rowChars, size row = .ok rowChars) :
    SectionsWithin size sections maxRows maxChars ↔
      ¬ (FirstTooLong size maxChars sections ∧ 2 ≤ maxRows ∧
        ∃ rows ∈ sections, FirstFits size maxChars rows) := by
  constructor
  · rintro ⟨budget, turns, includedCount, truncated, hrun, -, hwithin⟩ ⟨hlong, htwo, hfits⟩
    have hcount := two_le_includedCount htwo hlong hfits (hrun maxRows le_rfl)
    have hkept := kept_rounds (hrun maxRows le_rfl)
    have hlength : budget.includedCount = (includedRows turns).length := hkept.count
    rcases hwithin.chars with hle | ⟨row, rowChars, -, -, -, honly⟩
    · obtain ⟨row, rowChars, hhead, hchars, hover⟩ := hlong
      have hmem : row ∈ includedRows turns := hkept.first (by dsimp only; omega) row hhead
      have := le_charsOf hmem hchars
      exact absurd hle (by unfold includedRows at this; omega)
    · have hone : includedRows turns = [row] := honly
      rw [hone, List.length_singleton] at hlength
      omega
  · intro hgood
    obtain ⟨budget, turns, hrun⟩ : ∃ budget turns,
        rounds size maxRows maxChars maxRows ⟨0, 0, false⟩
          (sections.map fun rows => ⟨rows, [], false⟩) = .ok (budget, turns) := by
      refine rounds_ok fun turn hturn => ?_
      obtain ⟨rows, hrows, rfl⟩ := List.mem_map.1 hturn
      exact hsize rows hrows
    have hkept := kept_rounds hrun
    have hinitials : List.Forall₂ (· <+: ·) (turns.map Turn.included) sections := by
      rw [← hkept.rows, List.nil_append, List.forall₂_map_left_iff, List.forall₂_map_right_iff,
        List.forall₂_same]
      exact hkept.prefixes
    have hcount : budget.includedCount = (turns.map Turn.included).flatten.length := hkept.count
    obtain ⟨hlengthLe, hall⟩ := prefixes_length hinitials
    obtain ⟨served, hserved⟩ := fair_rounds (fun turn hturn => by
      obtain ⟨rows, -, rfl⟩ := List.mem_map.1 hturn
      rfl) hrun
    refine ⟨budget, turns, budget.includedCount,
      decide (budget.includedCount < (sections.map List.length).sum),
      fun n hle => (rounds_of_le hle).trans hrun, ?_, hinitials, hcount, hkept.count_le, ?_, ?_,
      fun turn hturn hblocked => ?_, ?_⟩
    · simp only [truncateSections, hrun, ok_bind]
      rfl
    · by_cases hlong : FirstTooLong size maxChars sections
      · have hone : budget.includedCount ≤ 1 := by
          by_cases htwo : 2 ≤ maxRows
          · refine includedCount_le_one (fun rows hrows row rowChars hhead hchars => ?_) hrun
            by_contra hfits
            exact hgood ⟨hlong, htwo, rows, hrows, row, rowChars, hhead, hchars, not_lt.1 hfits⟩
          · exact hkept.count_le.trans (by omega)
        obtain ⟨row, rowChars, hhead, hchars, hover⟩ := hlong
        by_cases hzero : budget.includedCount = 0
        · rw [hzero] at hcount
          rw [List.length_eq_zero_iff.1 hcount.symm]
          exact Or.inl (Nat.zero_le _)
        · obtain ⟨only, honly⟩ := List.length_eq_one_iff.1 (hcount.symm.trans
            (show budget.includedCount = 1 by omega))
          have hmem : row ∈ (turns.map Turn.included).flatten := hkept.first hzero row hhead
          rw [honly, List.mem_singleton] at hmem
          exact Or.inr ⟨row, rowChars, hhead, hchars, hover, hmem ▸ honly⟩
      · exact Or.inl ((hkept.chars hlong).le.trans hkept.chars_le)
    · intro turn hturn other hother hopen hopen'
      have := (hserved turn hturn hopen).2
      have := (hserved other hother hopen').1
      omega
    · refine (blocked_rounds (fun turn hturn => ?_) (fun _ turn hturn => ?_) hrun turn hturn
        hblocked).imp_right (CutOff.mono hkept.charCount_le)
      · obtain ⟨rows, -, rfl⟩ := List.mem_map.1 hturn
        rfl
      · obtain ⟨rows, -, rfl⟩ := List.mem_map.1 hturn
        rfl
    · rw [decide_eq_true_iff, ne_eq, hall]
      omega

/-- Two sections within the limits, rows given by their JSON text. -/
theorem sectionsWithin_texts :
    SectionsWithin (fun row : String => .ok row.length) [["[1]", "[20]"], ["[300]"]] 3 10 := by
  refine (sectionsWithin_iff fun rows _ row _ => ⟨row.length, rfl⟩).2 ?_
  rintro ⟨⟨row, rowChars, hhead, hchars, hlong⟩, -⟩
  obtain rfl : "[1]" = row := Option.some.inj hhead
  obtain rfl : "[1]".length = rowChars := Except.ok.inj hchars
  exact absurd hlong (by decide)

/-- A first row that is too long is followed by a row of the other section. -/
theorem not_sectionsWithin_longFirst :
    ¬ SectionsWithin (fun row : String => .ok row.length)
      [["[1,2,3,4,5]"], ["[6]"]] 2 10 := by
  rintro ⟨budget, turns, includedCount, truncated, -, hresult, hwithin⟩
  have hincluded : turns.map Turn.included = [["[1,2,3,4,5]"], ["[6]"]] :=
    (congrArg Prod.fst (Except.ok.inj hresult)).symm
  rw [hincluded] at hwithin
  rcases hwithin.chars with hle | ⟨row, rowChars, -, -, -, honly⟩
  · exact absurd hle (by decide)
  · cases congrArg List.length honly

end

end Answer
