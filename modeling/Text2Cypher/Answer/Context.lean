import Text2Cypher.Composition.Results

/-!
# The context of an answer

`build_answer_context` cuts a composed result down to what the model is shown: a prefix of the rows
within a number of rows and a number of characters, or, for separate sources, rows of all sections
in turn.  The sizes of rows as JSON are a parameter, and taking one can raise.

* `rounds_stable`: the loop over the sections ends by itself;
* `buildAnswerContext_flags`: what the context says of truncation and of the total.
-/

namespace Answer

open Checks Composition Planning

section

variable {α : Type}

/-! ### Rows within limits -/

/-- `_configured_limit`, with the configured value or the exception of reading it. -/
def configuredLimit (name : String) (value : Except PyException ℤ) : Except PyException ℕ := do
  let value ← value
  if value < 0 then .error (Python.valueError (name ++ " must be zero or greater."))
  else return value.toNat

/-- The loop of `truncate_result_for_answer`.  The first row is taken even if it is too long. -/
def takeWithin (size : α → Except PyException ℕ) (charLimit : ℕ) :
    ℕ → List α → List α → Except PyException (List α)
  | _, taken, [] => .ok taken
  | charCount, taken, row :: rows => do
      let rowChars ← size row
      if charLimit < charCount + rowChars then
        return if taken = [] then [row] else taken
      else takeWithin size charLimit (charCount + rowChars) (taken ++ [row]) rows

/-- `truncate_result_for_answer`: the rows, and whether some are missing. -/
def truncateResultForAnswer (size : α → Except PyException ℕ) (rows : List α)
    (rowLimit charLimit : ℕ) : Except PyException (List α × Bool) := do
  let truncatedRows ← takeWithin size charLimit 0 [] (rows.take rowLimit)
  return (truncatedRows, decide (truncatedRows.length < rows.length))

/-! ### Rows of sections in turn -/

/-- A section in the loop: its rows, those that are included, and whether it is blocked.  The
position in the rows is the number of included ones. -/
structure Turn (α : Type) where
  rows : List α
  included : List α
  blocked : Bool

/-- The counters of the loop. -/
structure Budget where
  includedCount : ℕ
  charCount : ℕ
  progressed : Bool

/-- The body of the loop over the sections. -/
def takeTurn (size : α → Except PyException ℕ) (maxRows maxChars : ℕ) (budget : Budget)
    (turn : Turn α) : Except PyException (Budget × Turn α) :=
  if maxRows ≤ budget.includedCount ∨ turn.blocked = true then .ok (budget, turn)
  else
    match turn.rows[turn.included.length]? with
    | none => .ok (budget, { turn with blocked := true })
    | some row => do
        let rowChars ← size row
        if maxChars < budget.charCount + rowChars then
          if budget.includedCount = 0 then
            return ({ budget with includedCount := budget.includedCount + 1 },
              { turn with included := turn.included ++ [row], blocked := true })
          else return (budget, { turn with blocked := true })
        else
          return (⟨budget.includedCount + 1, budget.charCount + rowChars, true⟩,
            { turn with included := turn.included ++ [row] })

/-- One round: every section takes its turn. -/
def takeTurns (size : α → Except PyException ℕ) (maxRows maxChars : ℕ) :
    Budget → List (Turn α) → Except PyException (Budget × List (Turn α))
  | budget, [] => .ok (budget, [])
  | budget, turn :: turns => do
      let (budget, turn) ← takeTurn size maxRows maxChars budget turn
      let (budget, turns) ← takeTurns size maxRows maxChars budget turns
      return (budget, turn :: turns)

/-- The rounds, as many as the first number says at most. -/
def rounds (size : α → Except PyException ℕ) (maxRows maxChars : ℕ) :
    ℕ → Budget → List (Turn α) → Except PyException (Budget × List (Turn α))
  | 0, budget, turns => .ok (budget, turns)
  | n + 1, budget, turns =>
      if maxRows ≤ budget.includedCount then .ok (budget, turns)
      else do
        let (budget, turns) ← takeTurns size maxRows maxChars { budget with progressed := false } turns
        if budget.progressed then rounds size maxRows maxChars n budget turns
        else return (budget, turns)

/-- `_truncate_sections`: the included rows of every section, their number, and whether some are
missing.  A round that goes on has included a row, so there are no more rounds than rows. -/
def truncateSections (size : α → Except PyException ℕ) (sections : List (List α))
    (maxRows maxChars : ℕ) : Except PyException (List (List α) × ℕ × Bool) := do
  let (budget, turns) ← rounds size maxRows maxChars maxRows ⟨0, 0, false⟩
    (sections.map fun rows => ⟨rows, [], false⟩)
  return (turns.map Turn.included, budget.includedCount,
    decide (budget.includedCount < (sections.map List.length).sum))

section

variable {size : α → Except PyException ℕ} {maxRows maxChars : ℕ}

/-- A turn that makes progress includes a row. -/
theorem takeTurn_count {budget budget' : Budget} {turn turn' : Turn α}
    (h : takeTurn size maxRows maxChars budget turn = .ok (budget', turn')) :
    budget.includedCount ≤ budget'.includedCount ∧
      (budget'.progressed = true →
        budget.progressed = true ∨ budget.includedCount < budget'.includedCount) := by
  unfold takeTurn at h
  by_cases hskip : maxRows ≤ budget.includedCount ∨ turn.blocked = true
  · rw [if_pos hskip] at h
    obtain ⟨rfl, -⟩ := Prod.mk.inj (Except.ok.inj h)
    exact ⟨le_rfl, Or.inl⟩
  · rw [if_neg hskip] at h
    cases hrow : turn.rows[turn.included.length]? with
    | none =>
      rw [hrow] at h
      obtain ⟨rfl, -⟩ := Prod.mk.inj (Except.ok.inj h)
      exact ⟨le_rfl, Or.inl⟩
    | some row =>
      rw [hrow] at h
      simp only [bind_eq_ok] at h
      obtain ⟨rowChars, -, h⟩ := h
      split_ifs at h
      · obtain ⟨rfl, -⟩ := Prod.mk.inj (Except.ok.inj h)
        exact ⟨Nat.le_succ _, Or.inl⟩
      · obtain ⟨rfl, -⟩ := Prod.mk.inj (Except.ok.inj h)
        exact ⟨le_rfl, Or.inl⟩
      · obtain ⟨rfl, -⟩ := Prod.mk.inj (Except.ok.inj h)
        exact ⟨Nat.le_succ _, fun _ => Or.inr (Nat.lt_succ_self _)⟩

theorem takeTurns_count {budget budget' : Budget} {turns turns' : List (Turn α)}
    (h : takeTurns size maxRows maxChars budget turns = .ok (budget', turns')) :
    budget.includedCount ≤ budget'.includedCount ∧
      (budget'.progressed = true →
        budget.progressed = true ∨ budget.includedCount < budget'.includedCount) := by
  induction turns generalizing budget turns' with
  | nil =>
    obtain ⟨rfl, -⟩ := Prod.mk.inj (Except.ok.inj h)
    exact ⟨le_rfl, Or.inl⟩
  | cons turn turns ih =>
    simp only [takeTurns, bind_eq_ok] at h
    obtain ⟨⟨budget₁, turn₁⟩, hturn, ⟨budget₂, turns₂⟩, hturns, h⟩ := h
    obtain ⟨rfl, -⟩ := Prod.mk.inj (Except.ok.inj h)
    obtain ⟨hle, hprogressed⟩ := takeTurn_count hturn
    obtain ⟨hle', hprogressed'⟩ := ih hturns
    refine ⟨hle.trans hle', fun hend => ?_⟩
    rcases hprogressed' hend with hmid | hlt
    · rcases hprogressed hmid with hstart | hlt
      · exact Or.inl hstart
      · exact Or.inr (hlt.trans_le hle')
    · exact Or.inr (hle.trans_lt hlt)

/-- **The loop over the sections ends by itself**: more rounds make no difference. -/
theorem rounds_stable (n : ℕ) (budget : Budget) (turns : List (Turn α))
    (h : maxRows ≤ n + budget.includedCount) :
    rounds size maxRows maxChars (n + 1) budget turns =
      rounds size maxRows maxChars n budget turns := by
  induction n generalizing budget turns with
  | zero =>
    rw [rounds, rounds, if_pos (by omega)]
  | succ n ih =>
    rw [rounds, rounds]
    by_cases hfull : maxRows ≤ budget.includedCount
    · rw [if_pos hfull, if_pos hfull]
    · rw [if_neg hfull, if_neg hfull]
      cases hround : takeTurns size maxRows maxChars { budget with progressed := false } turns with
      | error exception => rfl
      | ok result =>
        obtain ⟨budget', turns'⟩ := result
        simp only [ok_bind]
        by_cases hprogressed : budget'.progressed = true
        · rw [if_pos hprogressed, if_pos hprogressed]
          rcases (takeTurns_count hround).2 hprogressed with hfalse | hlt
          · cases hfalse
          · dsimp only at hlt
            exact ih budget' turns' (by omega)
        · rw [if_neg hprogressed, if_neg hprogressed]

end

end

/-! ### The context -/

/-- `AnswerSectionContext`. -/
structure SectionContext (V : Type) where
  tool : ToolName
  rows : List (Dict String V)
  emptyReason : Option EmptyReason
  includedCount : ℕ
  knownCount : ℕ
  countIsExact : Bool

/-- `AnswerContext`. -/
structure AnswerContext (V : Type) where
  mode : Mode
  transform : Option String
  rows : List (Dict String V)
  sections : Dict String (SectionContext V)
  emptyReason : Option EmptyReason
  includedCount : ℕ
  totalCount : ℕ
  totalCountIsExact : Bool
  sourceTruncated : Bool
  promptTruncated : Bool

/-- What `build_answer_context` depends on: the two limits as configured, and the sizes of rows. -/
structure Limits (V : Type) where
  maxRows : Except PyException ℤ
  maxChars : Except PyException ℤ
  jsonSize : Dict String V → Except PyException ℕ

section

variable {V : Type}

/-- The sections of the context, with their included rows. -/
def sectionContexts (sourceTruncated : Bool) (sections : Dict String (Section V))
    (included : List (List (Dict String V))) : Dict String (SectionContext V) where
  entries := (sections.entries.zipIdx).map fun entry =>
    let rows := included.getD entry.2 []
    (entry.1.1, {
      tool := entry.1.2.tool
      rows := rows
      emptyReason := entry.1.2.emptyReason
      includedCount := rows.length
      knownCount := entry.1.2.rows.length
      countIsExact := !sourceTruncated })
  nodup := by
    have hkeys : (sections.entries.zipIdx.map fun entry => entry.1.1) =
        sections.entries.map Prod.fst := by
      rw [show (fun entry : (String × Section V) × ℕ => entry.1.1) = Prod.fst ∘ Prod.fst from rfl,
        ← List.map_map, List.zipIdx_map_fst]
    rw [List.map_map]
    exact hkeys ▸ sections.nodup

/-- `build_answer_context`. -/
def buildAnswerContext (limits : Limits V) (composed : Composed V) :
    Except PyException (AnswerContext V) := do
  let rowLimit ← configuredLimit "ANSWER_MAX_ROWS" limits.maxRows
  let charLimit ← configuredLimit "ANSWER_MAX_CHARS" limits.maxChars
  let sourceTruncated := composed.truncated
  let totalCountIsExact := composed.mode == .joined || !sourceTruncated
  if composed.mode = .separate then
    let (included, includedCount, promptTruncated) ← truncateSections limits.jsonSize
      (composed.sections.values.map Section.rows) rowLimit charLimit
    return {
      mode := composed.mode
      transform := composed.transform
      rows := []
      sections := sectionContexts sourceTruncated composed.sections included
      emptyReason := composed.emptyReason
      includedCount := includedCount
      totalCount := composed.totalCount
      totalCountIsExact := totalCountIsExact
      sourceTruncated := sourceTruncated
      promptTruncated := promptTruncated }
  else
    let (rows, promptTruncated) ← truncateResultForAnswer limits.jsonSize composed.rows rowLimit
      charLimit
    return {
      mode := composed.mode
      transform := composed.transform
      rows := rows
      sections := .empty
      emptyReason := composed.emptyReason
      includedCount := rows.length
      totalCount := composed.totalCount
      totalCountIsExact := totalCountIsExact
      sourceTruncated := sourceTruncated
      promptTruncated := promptTruncated }

/-! ### What the context says -/

/-- What the context takes over from the result: the flag, the total and whether it is exact. -/
theorem buildAnswerContext_flags {limits : Limits V} {composed : Composed V}
    {context : AnswerContext V} (h : buildAnswerContext limits composed = .ok context) :
    context.sourceTruncated = composed.truncated ∧ context.totalCount = composed.totalCount ∧
      context.mode = composed.mode ∧
      (context.totalCountIsExact = true ↔ composed.mode = .joined ∨ composed.truncated = false) := by
  have hexact : (composed.mode == .joined || !composed.truncated) = true ↔
      composed.mode = .joined ∨ composed.truncated = false := by simp
  simp only [buildAnswerContext, bind_eq_ok] at h
  obtain ⟨rowLimit, -, charLimit, -, h⟩ := h
  split_ifs at h
  · simp only [bind_eq_ok, pure_eq_ok] at h
    obtain ⟨_, -, rfl⟩ := h
    exact ⟨rfl, rfl, rfl, hexact⟩
  · simp only [bind_eq_ok, pure_eq_ok] at h
    obtain ⟨_, -, rfl⟩ := h
    exact ⟨rfl, rfl, rfl, hexact⟩

end

end Answer
