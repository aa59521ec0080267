import Text2Cypher.Answer.Fallback

/-!
# Generation of answers

The model is asked for a structured answer, and a second time if the first answer is rejected.  If
no answer is taken over, the fallback answer is given.  With the answer comes a record of what has
happened: the mode, the number of calls, and whether an answer was rejected.

* `Honest`: a run returns, and its record says what happened;
* `honest_iff`: when a run is honest.
-/

namespace Answer

open Checks Composition Python

/-! ### Runs -/

/-- What a call of the model comes back with. -/
inductive Response
  | raised (exception : PyException)
  | missingChoices
  | choice (finishReason content : Option String)
  deriving DecidableEq, Repr

/-- What `json.loads` makes of a text; not every exception of it is a `JSONDecodeError`. -/
inductive Loaded (V : Type)
  | decodeError
  | raised (exception : PyException)
  | value (parsed : V)

/-- What the node makes of a response before it renders anything. -/
inductive Judgement (V : Type)
  | failed (reason : String)
  | rejected (reason : String) (detail : List String)
  | accepted (parsed : Dict String V)

/-- The entries of the validation log. -/
inductive ValidationRecord
  | accepted
  | rejected (reason : String) (detail : List String)
  deriving DecidableEq, Repr

/-- What is read of an `AnswerGenerationError`. -/
structure GenerationError where
  reason : String
  attemptCount : ℕ
  validationRejected : Bool

inductive AnswerMode
  | structured
  | fallback
  deriving DecidableEq, Repr

/-- `AnswerGenerationMetadata`. -/
structure AnswerMetadata where
  mode : AnswerMode
  attemptCount : ℕ
  fallbackReason : Option String
  validationRejected : Bool
  deriving DecidableEq, Repr

/-- A run of a part of the node: what comes out, the responses that it saw, and what it logged. -/
structure Run (α : Type) where
  outcome : α
  responses : List Response
  log : List ValidationRecord

/-- What the generation depends on.  `prepare` reads the configuration and builds the messages. -/
structure Settings (V : Type) where
  limits : Limits V
  prepare : AnswerContext V → Except PyException Unit
  loads : String → Loaded V
  floats : Floats

section

variable {V : Type} [PyValue V] [PyStr V] [PyBuild V]

/-- What is made of the parsed content. -/
def judgeParsed (context : AnswerContext V) (parsed : V) : Judgement V :=
  match PyValue.kind parsed with
  | .dict fields =>
      match checkStructuredAnswer (Dict.ofEntries fields) context with
      | .ok () => .accepted (Dict.ofEntries fields)
      | .error (.rejected reason detail) => .rejected reason detail
      | .error (.raised _) => .failed "provider_error"
  | _ => .failed "invalid_json_root"

/-- What is made of the content of a choice. -/
def judgeContent (settings : Settings V) (context : AnswerContext V) :
    Option String → Judgement V
  | none => .failed "empty_response"
  | some content =>
      if strip content.toList = [] then .failed "empty_response"
      else
        match settings.loads content with
        | .decodeError => .failed "invalid_json"
        | .raised _ => .failed "provider_error"
        | .value parsed => judgeParsed context parsed

/-- What is made of a response. -/
def judge (settings : Settings V) (context : AnswerContext V) : Response → Judgement V
  | .raised _ => .failed "provider_error"
  | .missingChoices => .failed "missing_choices"
  | .choice finishReason content =>
      if finishReason ≠ some "stop" then .failed "incomplete_response"
      else judgeContent settings context content

/-- `_MAX_ANSWER_ATTEMPTS`. -/
def maxAnswerAttempts : ℕ := 2

/-- The loop of `_generate_llm_answer`, with the attempts that are left. -/
def attempts (settings : Settings V) (context : AnswerContext V) (model : ℕ → Response) :
    ℕ → ℕ → Bool → Run (Except GenerationError (String × ℕ × Bool))
  | 0, attemptCount, validationRejected =>
      ⟨.error ⟨"retry_loop_exhausted", attemptCount, validationRejected⟩, [], []⟩
  | left + 1, attempt, validationRejected =>
      let attemptCount := attempt + 1
      let response := model attempt
      match judge settings context response with
      | .failed reason => ⟨.error ⟨reason, attemptCount, false⟩, [response], []⟩
      | .accepted parsed =>
          -- the acceptance is logged before anything is rendered
          match renderChecked settings.floats parsed context with
          | .ok answer => ⟨.ok (answer, attemptCount, validationRejected), [response], [.accepted]⟩
          | .error _ => ⟨.error ⟨"provider_error", attemptCount, false⟩, [response], [.accepted]⟩
      | .rejected reason detail =>
          if left = 0 then
            ⟨.error ⟨reason, attemptCount, true⟩, [response], [.rejected reason detail]⟩
          else
            let rest := attempts settings context model left attemptCount true
            { rest with responses := response :: rest.responses }

/-- `_generate_llm_answer`. -/
def generateLlmAnswer (settings : Settings V) (composed : Composed V) (model : ℕ → Response) :
    Run (Except GenerationError (String × ℕ × Bool)) :=
  match buildAnswerContext settings.limits composed with
  | .error _ => ⟨.error ⟨"provider_error", 0, false⟩, [], []⟩
  | .ok context =>
      if context.includedCount = 0 then ⟨.error ⟨"empty_answer_context", 0, false⟩, [], []⟩
      else
        match settings.prepare context with
        | .error _ => ⟨.error ⟨"provider_error", 0, false⟩, [], []⟩
        | .ok () => attempts settings context model maxAnswerAttempts 0 false

/-- What `_generate_markdown_answer` makes of the outcome of `_generate_llm_answer`. -/
def conclude (floats : Floats) (composed : Composed V) :
    Except GenerationError (String × ℕ × Bool) → Except PyException (String × AnswerMetadata)
  | .ok (answer, attemptCount, validationRejected) =>
      .ok (answer, ⟨.structured, attemptCount, none, validationRejected⟩)
  | .error error => do
      let answer ← renderFallbackAnswer floats composed
      return (answer,
        ⟨.fallback, error.attemptCount, some error.reason, error.validationRejected⟩)

/-- `_generate_markdown_answer`. -/
def generateMarkdownAnswer (settings : Settings V) (composed : Composed V) (model : ℕ → Response) :
    Run (Except PyException (String × AnswerMetadata)) :=
  let run := generateLlmAnswer settings composed model
  { run with outcome := conclude settings.floats composed run.outcome }

/-! ### Honest records -/

/-- The model is asked, with a context. -/
def Asked (settings : Settings V) (composed : Composed V) (context : AnswerContext V) : Prop :=
  buildAnswerContext settings.limits composed = .ok context ∧ context.includedCount ≠ 0 ∧
    settings.prepare context = .ok ()

/-- A response passes validation, and the text is its rendering. -/
def Answers (settings : Settings V) (context : AnswerContext V) (response : Response)
    (text : String) : Prop :=
  ∃ parsed, judge settings context response = .accepted parsed ∧
    renderChecked settings.floats parsed context = .ok text

/-- A response is rejected by validation. -/
def Rejects (settings : Settings V) (context : AnswerContext V) (response : Response) : Prop :=
  ∃ reason detail, judge settings context response = .rejected reason detail

/-- What the record says of the text, the responses and the log. -/
structure Recorded (settings : Settings V) (composed : Composed V) (text : String)
    (metadata : AnswerMetadata) (responses : List Response) (log : List ValidationRecord) :
    Prop where
  calls : responses.length ≤ 2
  structured : metadata.mode = .structured ↔ ∃ context response, Asked settings composed context ∧
    responses.getLast? = some response ∧ Answers settings context response text
  attemptCount : metadata.attemptCount = responses.length
  validationRejected : metadata.validationRejected = true ↔ ∃ context response,
    Asked settings composed context ∧ response ∈ responses ∧ Rejects settings context response
  accepted : .accepted ∈ log ↔ metadata.mode = .structured

/-- **An honest run**: it returns, and its record says what happened. -/
def Honest (settings : Settings V) (composed : Composed V)
    (run : Run (Except PyException (String × AnswerMetadata))) : Prop :=
  ∃ text metadata, run.outcome = .ok (text, metadata) ∧
    Recorded settings composed text metadata run.responses run.log

/-- An accepted response can be rendered, and a rejected one is followed by one that is rejected as
well or that can be rendered. -/
structure Orderly (settings : Settings V) (context : AnswerContext V) (model : ℕ → Response) :
    Prop where
  accepted : ∀ parsed, judge settings context (model 0) = .accepted parsed →
    Returns (renderChecked settings.floats parsed context)
  rejected : Rejects settings context (model 0) →
    Rejects settings context (model 1) ∨ ∃ text, Answers settings context (model 1) text

/-- One of the two responses is taken over. -/
def Answered (settings : Settings V) (composed : Composed V) (model : ℕ → Response) : Prop :=
  ∃ context, Asked settings composed context ∧ ((∃ text, Answers settings context (model 0) text) ∨
    Rejects settings context (model 0) ∧ ∃ text, Answers settings context (model 1) text)

/-! ### When a run is honest -/

variable {settings : Settings V} {composed : Composed V} {context : AnswerContext V}
  {model : ℕ → Response}

omit [PyValue V] [PyStr V] [PyBuild V] in
theorem Asked.unique {context' : AnswerContext V} (h : Asked settings composed context)
    (h' : Asked settings composed context') : context = context' :=
  Except.ok.inj (h.1.symm.trans h'.1)

/-- The record of a run in which the model was asked. -/
theorem recorded_iff (h : Asked settings composed context) {text : String}
    {metadata : AnswerMetadata} {responses : List Response} {log : List ValidationRecord} :
    Recorded settings composed text metadata responses log ↔
      responses.length ≤ 2 ∧
      (metadata.mode = .structured ↔
        ∃ response, responses.getLast? = some response ∧ Answers settings context response text) ∧
      metadata.attemptCount = responses.length ∧
      (metadata.validationRejected = true ↔
        ∃ response ∈ responses, Rejects settings context response) ∧
      (.accepted ∈ log ↔ metadata.mode = .structured) := by
  have hlast : (∃ context response, Asked settings composed context ∧
      responses.getLast? = some response ∧ Answers settings context response text) ↔
      ∃ response, responses.getLast? = some response ∧ Answers settings context response text := by
    constructor
    · rintro ⟨context', response, hasked, hlast⟩
      obtain rfl := h.unique hasked
      exact ⟨response, hlast⟩
    · rintro ⟨response, hlast⟩
      exact ⟨context, response, h, hlast⟩
  have hrejected : (∃ context response, Asked settings composed context ∧
      response ∈ responses ∧ Rejects settings context response) ↔
      ∃ response ∈ responses, Rejects settings context response := by
    constructor
    · rintro ⟨context', response, hasked, hmem⟩
      obtain rfl := h.unique hasked
      exact ⟨response, hmem⟩
    · rintro ⟨response, hmem⟩
      exact ⟨context, response, h, hmem⟩
  constructor
  · rintro ⟨hcalls, hstructured, hcount, hvalidation, haccepted⟩
    exact ⟨hcalls, hstructured.trans hlast, hcount, hvalidation.trans hrejected, haccepted⟩
  · rintro ⟨hcalls, hstructured, hcount, hvalidation, haccepted⟩
    exact ⟨hcalls, hstructured.trans hlast.symm, hcount, hvalidation.trans hrejected.symm,
      haccepted⟩

theorem honest_answer {answer : String} {attemptCount : ℕ} {validationRejected : Bool}
    {responses : List Response} {log : List ValidationRecord} :
    Honest settings composed
        ⟨conclude settings.floats composed (.ok (answer, attemptCount, validationRejected)),
          responses, log⟩ ↔
      Recorded settings composed answer ⟨.structured, attemptCount, none, validationRejected⟩
        responses log := by
  constructor
  · rintro ⟨text, metadata, houtcome, hrecorded⟩
    obtain ⟨rfl, rfl⟩ := Prod.mk.inj (Except.ok.inj houtcome)
    exact hrecorded
  · exact fun hrecorded => ⟨answer, _, rfl, hrecorded⟩

theorem honest_error {error : GenerationError} {responses : List Response}
    {log : List ValidationRecord} :
    Honest settings composed ⟨conclude settings.floats composed (.error error), responses, log⟩ ↔
      ∃ text, renderFallbackAnswer settings.floats composed = .ok text ∧
        Recorded settings composed text
          ⟨.fallback, error.attemptCount, some error.reason, error.validationRejected⟩
          responses log := by
  constructor
  · rintro ⟨text, metadata, houtcome, hrecorded⟩
    obtain ⟨answer, hanswer, hpure⟩ := bind_eq_ok.1 houtcome
    obtain ⟨rfl, rfl⟩ := Prod.mk.inj (pure_eq_ok.1 hpure)
    exact ⟨answer, hanswer, hrecorded⟩
  · rintro ⟨text, htext, hrecorded⟩
    exact ⟨text, _, bind_eq_ok.2 ⟨text, htext, rfl⟩, hrecorded⟩

/-- A run that ends with the fallback answer and a true record. -/
theorem honest_error_of_recorded {error : GenerationError} {responses : List Response}
    {log : List ValidationRecord}
    (h : ∀ text, Recorded settings composed text
      ⟨.fallback, error.attemptCount, some error.reason, error.validationRejected⟩
      responses log) :
    Honest settings composed ⟨conclude settings.floats composed (.error error), responses, log⟩ ↔
      ∀ metric ∈ shownMetrics (fallbackItems composed),
        Formattable settings.floats metric.1 metric.2 := by
  rw [honest_error, ← returns_renderFallbackAnswer]
  exact ⟨fun ⟨text, htext, _⟩ => ⟨text, htext⟩, fun ⟨text, htext⟩ => ⟨text, htext, h text⟩⟩

/-- A run that ends with the fallback answer and a false record. -/
theorem not_honest_error {error : GenerationError} {responses : List Response}
    {log : List ValidationRecord}
    (h : ∀ text, ¬ Recorded settings composed text
      ⟨.fallback, error.attemptCount, some error.reason, error.validationRejected⟩
      responses log) :
    ¬ Honest settings composed
      ⟨conclude settings.floats composed (.error error), responses, log⟩ := by
  rw [honest_error]
  rintro ⟨text, -, hrecorded⟩
  exact h text hrecorded

/-- A run in which the model is not asked. -/
theorem generate_of_not_asked (model : ℕ → Response)
    (h : ∀ context, ¬ Asked settings composed context) :
    ∃ reason, generateLlmAnswer settings composed model =
      ⟨.error ⟨reason, 0, false⟩, [], []⟩ := by
  unfold generateLlmAnswer
  cases hbuild : buildAnswerContext settings.limits composed with
  | error exception => exact ⟨_, rfl⟩
  | ok context =>
    dsimp only
    by_cases hcount : context.includedCount = 0
    · rw [if_pos hcount]
      exact ⟨_, rfl⟩
    · rw [if_neg hcount]
      cases hprepare : settings.prepare context with
      | error exception => exact ⟨_, rfl⟩
      | ok _ => exact absurd ⟨hbuild, hcount, hprepare⟩ (h context)

theorem generate_of_asked (h : Asked settings composed context) :
    generateLlmAnswer settings composed model =
      attempts settings context model maxAnswerAttempts 0 false := by
  unfold generateLlmAnswer
  rw [h.1]
  dsimp only
  rw [if_neg h.2.1, h.2.2]

theorem rejects_iff {response : Response} {judgement : Judgement V}
    (h : judge settings context response = judgement) :
    Rejects settings context response ↔ ∃ reason detail, judgement = .rejected reason detail := by
  rw [Rejects, h]

theorem answers_iff {response : Response} {judgement : Judgement V}
    (h : judge settings context response = judgement) (text : String) :
    Answers settings context response text ↔
      ∃ parsed, judgement = .accepted parsed ∧
        renderChecked settings.floats parsed context = .ok text := by
  rw [Answers, h]

/-- The runs in which the model is asked. -/
theorem honest_attempts (h : Asked settings composed context) :
    Honest settings composed
        { attempts settings context model maxAnswerAttempts 0 false with
          outcome := conclude settings.floats composed
            (attempts settings context model maxAnswerAttempts 0 false).outcome } ↔
      Orderly settings context model ∧
        (¬ Answered settings composed model → ∀ metric ∈ shownMetrics (fallbackItems composed),
          Formattable settings.floats metric.1 metric.2) := by
  have hanswered : Answered settings composed model ↔
      (∃ text, Answers settings context (model 0) text) ∨
        Rejects settings context (model 0) ∧ ∃ text, Answers settings context (model 1) text := by
    constructor
    · rintro ⟨context', hasked, hanswered⟩
      obtain rfl := h.unique hasked
      exact hanswered
    · exact fun hanswered => ⟨context, h, hanswered⟩
  rw [hanswered]
  cases h0 : judge settings context (model 0) with
  | failed reason =>
    have hrejects := rejects_iff h0
    have hanswers := answers_iff h0
    have hrun : attempts settings context model maxAnswerAttempts 0 false =
        ⟨.error ⟨reason, 1, false⟩, [model 0], []⟩ := by
      simp only [maxAnswerAttempts, attempts, h0]
    rw [hrun]
    refine (honest_error_of_recorded fun text => ?_).trans ?_
    · rw [recorded_iff h]
      simp [hrejects, hanswers]
    · have horderly : Orderly settings context model :=
        ⟨fun parsed hparsed => by simp [h0] at hparsed, fun hr => by simp [hrejects] at hr⟩
      simp [horderly, hrejects, hanswers]
  | accepted parsed =>
    have hrejects := rejects_iff h0
    have hanswers := answers_iff h0
    cases hrender : renderChecked settings.floats parsed context with
    | ok answer =>
      have hrun : attempts settings context model maxAnswerAttempts 0 false =
          ⟨.ok (answer, 1, false), [model 0], [.accepted]⟩ := by
        simp only [maxAnswerAttempts, attempts, h0, hrender]
      rw [hrun]
      refine iff_of_true (honest_answer.2 ?_) ⟨⟨fun parsed' hparsed => ?_, fun hr => ?_⟩, ?_⟩
      · rw [recorded_iff h]
        simp [hrejects, hanswers, hrender]
      · obtain rfl := Judgement.accepted.inj (h0.symm.trans hparsed)
        exact ⟨answer, hrender⟩
      · simp [hrejects] at hr
      · exact fun hnone => absurd (Or.inl ⟨answer, (hanswers answer).2 ⟨parsed, rfl, hrender⟩⟩) hnone
    | error exception =>
      have hrun : attempts settings context model maxAnswerAttempts 0 false =
          ⟨.error ⟨"provider_error", 1, false⟩, [model 0], [.accepted]⟩ := by
        simp only [maxAnswerAttempts, attempts, h0, hrender]
      rw [hrun]
      refine iff_of_false (not_honest_error fun text => ?_) fun hright => ?_
      · rw [recorded_iff h]
        simp
      · have hreturns := hright.1.accepted parsed h0
        rw [hrender] at hreturns
        exact not_returns_error _ hreturns
  | rejected reason detail =>
    have hrejects : Rejects settings context (model 0) := ⟨reason, detail, h0⟩
    have hanswers : ∀ text, ¬ Answers settings context (model 0) text := fun text => by
      simp [answers_iff h0]
    cases h1 : judge settings context (model 1) with
    | failed reason' =>
      have hrejects' := rejects_iff h1
      have hanswers' := answers_iff h1
      have hrun : attempts settings context model maxAnswerAttempts 0 false =
          ⟨.error ⟨reason', 2, false⟩, [model 0, model 1], []⟩ := by
        simp [maxAnswerAttempts, attempts, h0, h1]
      rw [hrun]
      refine iff_of_false (not_honest_error fun text => ?_) fun hright => ?_
      · rw [recorded_iff h]
        simp [hrejects]
      · have hsecond := hright.1.rejected hrejects
        simp [hrejects', hanswers'] at hsecond
    | accepted parsed =>
      have hrejects' := rejects_iff h1
      have hanswers' := answers_iff h1
      cases hrender : renderChecked settings.floats parsed context with
      | ok answer =>
        have hrun : attempts settings context model maxAnswerAttempts 0 false =
            ⟨.ok (answer, 2, true), [model 0, model 1], [.accepted]⟩ := by
          simp [maxAnswerAttempts, attempts, h0, h1, hrender]
        have hanswer : Answers settings context (model 1) answer :=
          (hanswers' answer).2 ⟨parsed, rfl, hrender⟩
        rw [hrun]
        refine iff_of_true (honest_answer.2 ?_)
          ⟨⟨fun parsed' hparsed => by simp [h0] at hparsed, fun _ => Or.inr ⟨answer, hanswer⟩⟩, ?_⟩
        · rw [recorded_iff h]
          simp [hrejects, hanswer]
        · exact fun hnone => absurd (Or.inr ⟨hrejects, answer, hanswer⟩) hnone
      | error exception =>
        have hrun : attempts settings context model maxAnswerAttempts 0 false =
            ⟨.error ⟨"provider_error", 2, false⟩, [model 0, model 1], [.accepted]⟩ := by
          simp [maxAnswerAttempts, attempts, h0, h1, hrender]
        rw [hrun]
        refine iff_of_false (not_honest_error fun text => ?_) fun hright => ?_
        · rw [recorded_iff h]
          simp
        · have hsecond := hright.1.rejected hrejects
          simp [hrejects', hanswers', hrender] at hsecond
    | rejected reason' detail' =>
      have hrejects' : Rejects settings context (model 1) := ⟨reason', detail', h1⟩
      have hanswers' : ∀ text, ¬ Answers settings context (model 1) text := fun text => by
        simp [answers_iff h1]
      have hrun : attempts settings context model maxAnswerAttempts 0 false =
          ⟨.error ⟨reason', 2, true⟩, [model 0, model 1], [.rejected reason' detail']⟩ := by
        simp [maxAnswerAttempts, attempts, h0, h1]
      rw [hrun]
      refine (honest_error_of_recorded fun text => ?_).trans ?_
      · rw [recorded_iff h]
        simp [hrejects, hanswers']
      · have horderly : Orderly settings context model :=
          ⟨fun parsed hparsed => by simp [h0] at hparsed, fun _ => Or.inl hrejects'⟩
        simp [horderly, hanswers, hanswers']

end

/-! ### A price that is not a number -/

/-- The nearest integer, and the even one of two. -/
def roundHalf (q : ℚ) : ℤ :=
  let n := ⌊q + 1 / 2⌋
  if (n : ℚ) = q + 1 / 2 ∧ n % 2 = 1 then n - 1 else n

/-- Floats of unbounded precision. -/
def exactFloats : Floats where
  Float := Number
  ofNumber := id
  ofInt n := if floatOverflow ≤ n.natAbs then none else some (.finite (Decimal.ofInt n))
  ofText := Decimal.read
  isFinite x := (numberValue x).isSome
  isInteger x := decide ((numberValue x).map Rat.den = some 1)
  toInt x := ((numberValue x).map Rat.num).getD 0
  round
    | .finite a => .ok (roundHalf a.toRat)
    | .infinite _ => .error ⟨"OverflowError", "cannot convert float infinity to integer", none⟩
    | .nan => .error (valueError "cannot convert float NaN to integer")
  text x := String.ofList (Cell.numberText x)
  ofInt_eq_none n := by simp
  isFinite_ofInt {n x} h := by
    split_ifs at h
    obtain rfl := Option.some.inj h
    rfl
  isFinite_ofNumber x := by simp [Option.isSome_iff_ne_none]
  round_finite x := by cases x <;> simp [numberValue]

/-- The result of a query for a price that is not a number. -/
def nanPrice : Composed Cell :=
  composeSingle ⟨[⟨[("listPrice", .mk (.float .nan))], by decide⟩], none, false⟩

/-- Settings for which nothing is parsed. -/
def plainSettings : Settings Cell :=
  ⟨roomyLimits, fun _ => .ok (), fun _ => .decodeError, exactFloats⟩

/-- A call of the model that ran out of time. -/
def timedOut : Response := .raised ⟨"APITimeoutError", "Request timed out.", none⟩

end Answer
