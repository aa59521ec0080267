import Text2Cypher.Library.WholeWords

/-!
# Reading a text with literals, quoted names and comments

A query language's lexer decides for every character of a text whether it is code, or stands
inside a literal, a quoted name or a comment.  `read d` is that decision for the lexical rules of a
`Dialect`, one character at a time with one character of lookahead; a construct that is never
closed runs to the end of the text.

* `read`: the characters of the text, each with the flag "stands in code";
* `read_isChain`: code and hidden characters never meet inside a word;
* `codeWords`: the whole words of the text that stand in code, and `shown`: the text with its
  hidden characters blanked; `codeWords_eq` says they have the same words.
-/

namespace Reading

open WholeWords

/-- The lexical rules in which query languages differ. -/
structure Dialect where
  /-- `--` starts a comment that runs to the end of the line -/
  dashComment : Bool
  /-- inside this quote a backslash protects the next character -/
  escapes : Char → Bool
  /-- inside this quote the doubled quote is a character, not the end -/
  doubles : Char → Bool

/-- What the next character belongs to. -/
inductive Mode
  | code
  | line
  | blockOpen
  | block
  | blockClose
  | quoted (q : Char)
  | protect (q : Char)
  deriving DecidableEq

def isBreak (c : Char) : Bool := c == '\n' || c == '\r'

def isQuote (c : Char) : Bool := c == '\'' || c == '"' || c == '`'

/-- The mode a line comment is in before the characters starting with `next`: it ends in front of
the line break. -/
def lineMode (next : Option Char) : Mode := if next.any isBreak then .code else .line

/-- The mode after the character `c`, when `next` follows it. -/
def step (d : Dialect) : Mode → Char → Option Char → Mode
  | .code, c, next =>
      if c = '-' ∧ next = some '-' ∧ d.dashComment then .line
      else if c = '/' ∧ next = some '/' then .line
      else if c = '/' ∧ next = some '*' then .blockOpen
      else if isQuote c then .quoted c
      else .code
  | .line, _, next => lineMode next
  | .blockOpen, _, _ => .block
  | .block, c, next => if c = '*' ∧ next = some '/' then .blockClose else .block
  | .blockClose, _, _ => .code
  | .quoted q, c, next =>
      if c = q then (if next = some q ∧ d.doubles q then .protect q else .code)
      else if c = '\\' ∧ next.isSome ∧ d.escapes q then .protect q
      else .quoted q
  | .protect q, _, _ => .quoted q

/-- Every character of the text with the flag "stands in code". -/
def read (d : Dialect) (m : Mode) : List Char → List (Char × Bool)
  | [] => []
  | c :: rest =>
      (c, decide (m = .code ∧ step d m c rest.head? = .code)) ::
        read d (step d m c rest.head?) rest

@[simp] theorem read_nil (d : Dialect) (m : Mode) : read d m [] = [] := rfl

theorem read_cons (d : Dialect) (m : Mode) (c : Char) (rest : List Char) :
    read d m (c :: rest) =
      (c, decide (m = .code ∧ step d m c rest.head? = .code)) ::
        read d (step d m c rest.head?) rest := rfl

/-- A character read outside code is hidden. -/
theorem read_cons_hidden (d : Dialect) {m : Mode} (hm : m ≠ .code) (c : Char) (rest : List Char) :
    read d m (c :: rest) = (c, false) :: read d (step d m c rest.head?) rest := by
  rw [read_cons]; simp [hm]

/-- The characters of a reading are the text. -/
@[simp] theorem read_map_fst (d : Dialect) (m : Mode) (s : List Char) :
    (read d m s).map Prod.fst = s := by
  induction s generalizing m with
  | nil => rfl
  | cons c s ih => rw [read_cons, List.map_cons, ih]

/-- Where no `--` stands, the rule about dashes does not matter. -/
theorem step_code_of_not_dashes (d : Dialect) {c : Char} {next : Option Char}
    (h : ¬ (c = '-' ∧ next = some '-')) :
    step d .code c next =
      if c = '/' ∧ next = some '/' then .line
      else if c = '/' ∧ next = some '*' then .blockOpen
      else if isQuote c then .quoted c
      else .code := by
  rw [step, if_neg fun hd => h ⟨hd.1, hd.2.1⟩]

/-- A character that ends or starts a hidden stretch: no word character is one. -/
def isDelimiter (c : Char) : Bool := isQuote c || isBreak c || c == '/' || c == '-'

/-- Leaving code takes a delimiter. -/
theorem isDelimiter_of_step_ne_code {d : Dialect} {c : Char} {next : Option Char}
    (h : step d .code c next ≠ .code) : isDelimiter c = true := by
  simp only [step] at h
  split_ifs at h with h1 h2 h3 h4
  · simp [isDelimiter, h1.1]
  · simp [isDelimiter, h2.1]
  · simp [isDelimiter, h3.1]
  · simp [isDelimiter, h4]
  · exact absurd rfl h

/-- The modes a reading can be in before the text `s`: only a quote opens a literal, and a block
comment closes on its slash. -/
def Mode.At (m : Mode) (s : List Char) : Prop :=
  match m with
  | .quoted q | .protect q => isQuote q = true
  | .blockClose => s.head? = some '/'
  | _ => True

theorem Mode.At.step {d : Dialect} {m : Mode} {c : Char} {s : List Char} (h : m.At (c :: s)) :
    (step d m c s.head?).At s := by
  cases m with
  | code =>
    simp only [Reading.step]
    split_ifs with h1 h2 h3 h4
    · trivial
    · trivial
    · trivial
    · exact h4
    · trivial
  | line => simp only [Reading.step, lineMode]; split_ifs <;> trivial
  | blockOpen => trivial
  | block =>
    simp only [Reading.step]
    split_ifs with h1
    · exact h1.2
    · trivial
  | blockClose => trivial
  | quoted q => simp only [Reading.step]; split_ifs <;> trivial
  | protect q => exact h

/-- Coming back to code takes a delimiter too: the character that closes, or the line break that
follows. -/
theorem isDelimiter_of_step_eq_code {d : Dialect} {m : Mode} {c : Char} {s : List Char}
    (hat : m.At (c :: s)) (hm : m ≠ .code) (h : step d m c s.head? = .code) :
    isDelimiter c = true ∨ s.head?.any isBreak = true := by
  cases m with
  | code => exact absurd rfl hm
  | line =>
    simp only [step, lineMode] at h
    split_ifs at h with hn
    exact Or.inr hn
  | blockOpen => simp [step] at h
  | block => simp only [step] at h; split_ifs at h
  | blockClose =>
    obtain rfl : c = '/' := Option.some.inj hat
    exact Or.inl rfl
  | quoted q =>
    simp only [step] at h
    split_ifs at h with h1 h2 h3
    exact Or.inl (by rw [h1]; simp [isDelimiter, show isQuote q = true from hat])
  | protect q => simp [step] at h

/-! ### Words -/

/-- Inside a word, characters are all in code or all hidden. -/
theorem read_isChain {W : Char → Bool} (hW : ∀ c, isDelimiter c = true → W c = false) (d : Dialect)
    (m : Mode)
    (s : List Char) (hat : m.At s) :
    (read d m s).IsChain (fun a b => W a.1 = true → W b.1 = true → a.2 = b.2) := by
  induction s generalizing m with
  | nil => exact List.IsChain.nil
  | cons a s ih =>
    have htail := ih (step d m a s.head?) hat.step
    cases s with
    | nil => exact List.IsChain.singleton _
    | cons b rest =>
      rw [read_cons, read_cons]
      refine List.isChain_cons_cons.2 ⟨fun ha hb => ?_, by rwa [read_cons] at htail⟩
      have hb' : isDelimiter b = false := by
        by_contra hd
        rw [hW b (by simpa using hd)] at hb
        cases hb
      by_cases hmid : step d m a (some b) = .code
      · have hm : m = .code := by
          by_contra hm
          rcases isDelimiter_of_step_eq_code hat hm hmid with hd | hd
          · rw [hW a hd] at ha; cases ha
          · simp [isDelimiter] at hb'
            simp [hb'] at hd
        have hnext : step d .code b rest.head? = .code := by
          by_contra hne
          rw [isDelimiter_of_step_ne_code hne] at hb'
          cases hb'
        simp [hm, hm ▸ hmid, hnext]
      · simp [hmid]

/-- The whole words of the text that stand in code. -/
def codeWords (W : Char → Bool) (d : Dialect) (s : List Char) : List (List Char) :=
  ((wholeWords (fun x => W x.1) (read d .code s)).filter (List.all · Prod.snd)).map
    (List.map Prod.fst)

/-- The text with its hidden characters blanked. -/
def shown (r : List (Char × Bool)) : List Char := r.map fun x => if x.2 then x.1 else ' '

/-- Blanking the hidden characters leaves exactly the words that stand in code. -/
theorem codeWords_eq {W : Char → Bool} (hW : ∀ c, isDelimiter c = true → W c = false)
    (hblank : W ' ' = false)
    (d : Dialect) (s : List Char) :
    codeWords W d s = wholeWords W (shown (read d .code s)) := by
  rw [codeWords, ← wholeWords_and (f := Prod.snd) (read_isChain hW d .code s trivial), shown,
    wholeWords_map (p := fun x : Char × Bool => W x.1 && x.2) (g := Prod.fst)]
  · rintro ⟨c, b⟩
    cases b <;> simp [hblank]
  · rintro ⟨c, b⟩ h
    simp_all

/-! ### Two readings side by side -/

/-- Every character with its flags in two readings of the text. -/
def readBoth (d₁ d₂ : Dialect) (m₁ m₂ : Mode) : List Char → List (Char × Bool × Bool)
  | [] => []
  | c :: rest =>
      (c, decide (m₁ = .code ∧ step d₁ m₁ c rest.head? = .code),
        decide (m₂ = .code ∧ step d₂ m₂ c rest.head? = .code)) ::
        readBoth d₁ d₂ (step d₁ m₁ c rest.head?) (step d₂ m₂ c rest.head?) rest

theorem readBoth_left (d₁ d₂ : Dialect) (m₁ m₂ : Mode) (s : List Char) :
    (readBoth d₁ d₂ m₁ m₂ s).map (fun x => (x.1, x.2.1)) = read d₁ m₁ s := by
  induction s generalizing m₁ m₂ with
  | nil => rfl
  | cons c s ih => rw [readBoth, List.map_cons, ih, read_cons]

theorem readBoth_right (d₁ d₂ : Dialect) (m₁ m₂ : Mode) (s : List Char) :
    (readBoth d₁ d₂ m₁ m₂ s).map (fun x => (x.1, x.2.2)) = read d₂ m₂ s := by
  induction s generalizing m₁ m₂ with
  | nil => rfl
  | cons c s ih => rw [readBoth, List.map_cons, ih, read_cons]

/-- The whole words of the text, hidden or not, with their flags in the two readings. -/
def wordsBoth (W : Char → Bool) (d₁ d₂ : Dialect) (s : List Char) :
    List (List (Char × Bool × Bool)) :=
  wholeWords (fun x => W x.1) (readBoth d₁ d₂ .code .code s)

private theorem exists_flagged {β : Type} (f : β → Char × Bool) (ws : List (List β))
    (P : List Char → Prop) :
    (∃ w ∈ ((ws.map (List.map f)).filter (List.all · Prod.snd)).map (List.map Prod.fst), P w) ↔
      ∃ w ∈ ws, w.all (fun x => (f x).2) = true ∧ P (w.map fun x => (f x).1) := by
  simp only [List.mem_map, List.mem_filter]
  constructor
  · rintro ⟨_, ⟨_, ⟨⟨w, hw, rfl⟩, hall⟩, rfl⟩, hP⟩
    rw [List.all_map] at hall
    rw [List.map_map] at hP
    exact ⟨w, hw, hall, hP⟩
  · rintro ⟨w, hw, hall, hP⟩
    refine ⟨_, ⟨_, ⟨⟨w, hw, rfl⟩, ?_⟩, rfl⟩, ?_⟩
    · rw [List.all_map]; exact hall
    · rw [List.map_map]; exact hP

theorem exists_codeWord_left (W : Char → Bool) (d₁ d₂ : Dialect) (s : List Char)
    (P : List Char → Prop) :
    (∃ w ∈ codeWords W d₁ s, P w) ↔
      ∃ w ∈ wordsBoth W d₁ d₂ s, w.all (fun x => x.2.1) = true ∧ P (w.map Prod.fst) := by
  rw [codeWords, ← readBoth_left d₁ d₂ .code .code s,
    wholeWords_map (p := fun x : Char × Bool × Bool => W x.1) (g := fun x => (x.1, x.2.1))
      (fun _ => rfl) (fun _ _ => rfl), exists_flagged]
  rfl

theorem exists_codeWord_right (W : Char → Bool) (d₁ d₂ : Dialect) (s : List Char)
    (P : List Char → Prop) :
    (∃ w ∈ codeWords W d₂ s, P w) ↔
      ∃ w ∈ wordsBoth W d₁ d₂ s, w.all (fun x => x.2.2) = true ∧ P (w.map Prod.fst) := by
  rw [codeWords, ← readBoth_right d₁ d₂ .code .code s,
    wholeWords_map (p := fun x : Char × Bool × Bool => W x.1) (g := fun x => (x.1, x.2.2))
      (fun _ => rfl) (fun _ _ => rfl), exists_flagged]
  rfl

end Reading
