import Text2Cypher.Library.Reading

/-!
# How PostgreSQL reads a text

The lexical rules of PostgreSQL with `standard_conforming_strings` on: in `'…'` and `"…"` only the
doubled quote is an escape, in `E'…'` a backslash protects the next character as well, `$tag$` opens
a string that runs to the next `$tag$`, `--` opens a comment to the end of the line, and the
comments in `/* */` nest.  What is never closed runs to the end of the text.

* `read`: the characters of a text, each with what it belongs to;
* `read_isChain`: how code meets literals and comments at the border of a name;
* `words`: the names and keywords of the text.
-/

namespace Postgres

open WholeWords Reading

/-- What a character belongs to. -/
inductive Kind
  | code
  | comment
  | quoted
  deriving DecidableEq, Repr

/-- What the character in front belongs to, in code. -/
inductive Front
  | apart
  | number
  | name
  deriving DecidableEq

/-- What the next character belongs to. -/
inductive Mode
  | code (front : Front)
  | line
  /-- on the star that opens a comment -/
  | blockOpen (depth : ℕ)
  | block (depth : ℕ)
  /-- on the slash that closes a comment -/
  | blockClose (depth : ℕ)
  /-- on the quote behind an `E` -/
  | escapeOpen
  | quoted (quote : Char) (escapes : Bool)
  | protect (quote : Char) (escapes : Bool)
  /-- so many characters before the end of a `$tag$` -/
  | tagOpen (tag : List Char) (left : ℕ)
  | tagged (tag : List Char)
  | tagClose (left : ℕ)
  deriving DecidableEq

def isNameStart (c : Char) : Bool := c.isAlpha || c == '_' || decide (128 ≤ c.toNat)

def isNameChar (c : Char) : Bool := isNameStart c || c.isDigit || c == '$'

/-- The rest of a tag, up to its dollar. -/
def restOfTag? : List Char → Option (List Char)
  | [] => none
  | c :: rest =>
      if c = '$' then some []
      else if isNameStart c || c.isDigit then (restOfTag? rest).map (c :: ·) else none

/-- The tag that stands behind a dollar. -/
def tag? : List Char → Option (List Char)
  | [] => none
  | c :: rest =>
      if c = '$' then some []
      else if isNameStart c then (restOfTag? rest).map (c :: ·) else none

/-- What a character in code leaves in front of the next one. -/
def Front.next (front : Front) (c : Char) : Front :=
  if isNameStart c then .name
  else if c.isDigit then (if front = .apart then .number else front)
  else if c = '$' ∧ front = .name then .name
  else .apart

/-- The mode after a character, when `rest` follows it. -/
def step : Mode → Char → List Char → Mode
  | .code front, c, rest =>
      if c = '-' ∧ rest.head? = some '-' then .line
      else if c = '/' ∧ rest.head? = some '*' then .blockOpen 1
      else if c = '\'' ∨ c = '"' then .quoted c false
      else if (c = 'e' ∨ c = 'E') ∧ front = .apart ∧ rest.head? = some '\'' then .escapeOpen
      else if c = '$' ∧ front ≠ .name then
        match tag? rest with
        | some tag => .tagOpen tag (tag.length + 1)
        | none => .code .apart
      else .code (front.next c)
  | .line, _, rest => if rest.head?.any isBreak then .code .apart else .line
  | .blockOpen depth, _, _ => .block depth
  | .block depth, c, rest =>
      if c = '/' ∧ rest.head? = some '*' then .blockOpen (depth + 1)
      else if c = '*' ∧ rest.head? = some '/' then .blockClose depth
      else .block depth
  | .blockClose depth, _, _ => if depth ≤ 1 then .code .apart else .block (depth - 1)
  | .escapeOpen, c, _ => .quoted c true
  | .quoted quote escapes, c, rest =>
      if c = quote then
        if rest.head? = some quote then .protect quote escapes else .code .apart
      else if c = '\\' ∧ escapes ∧ rest ≠ [] then .protect quote escapes
      else .quoted quote escapes
  | .protect quote escapes, _, _ => .quoted quote escapes
  | .tagOpen tag left, _, _ => if left ≤ 1 then .tagged tag else .tagOpen tag (left - 1)
  | .tagged tag, c, rest =>
      if c = '$' ∧ (tag ++ ['$']).isPrefixOf rest then .tagClose (tag.length + 1) else .tagged tag
  | .tagClose left, _, _ => if left ≤ 1 then .code .apart else .tagClose (left - 1)

def Mode.kind : Mode → Kind
  | .code _ => .code
  | .line | .blockOpen _ | .block _ | .blockClose _ => .comment
  | _ => .quoted

/-- What a character belongs to: one that opens a literal or a comment belongs to it. -/
def kindOf (m : Mode) (c : Char) (rest : List Char) : Kind :=
  if m.kind = .code then (step m c rest).kind else m.kind

theorem kindOf_eq_code {m : Mode} {c : Char} {rest : List Char} :
    kindOf m c rest = .code ↔ m.kind = .code ∧ (step m c rest).kind = .code := by
  unfold kindOf
  split_ifs with h
  · exact (and_iff_right h).symm
  · exact iff_of_false h fun h' => h h'.1

/-- Every character of a text with what it belongs to. -/
def read (m : Mode) : List Char → List (Char × Kind)
  | [] => []
  | c :: rest => (c, kindOf m c rest) :: read (step m c rest) rest

/-- The reading of a whole text. -/
def readText (s : List Char) : List (Char × Kind) := read (.code .apart) s

/-- The blanks between tokens. -/
def isBlank (c : Char) : Bool := c ∈ [' ', '\t', '\n', '\r', '\x0b', '\x0c']

/-- A character of a token. -/
def Solid (x : Char × Kind) : Prop := x.2 = .quoted ∨ x.2 = .code ∧ isBlank x.1 = false

/-- A character of a name or a keyword. -/
def inName (x : Char × Kind) : Bool := isNameChar x.1 && decide (x.2 = .code)

/-- What may stand in front of a word in its run: the digits of a number, or a dollar. -/
def leads (c : Char) : Bool := c.isDigit || c == '$'

/-- The names and keywords of a text; digits in front of one belong to a number. -/
def words (s : List Char) : List (List Char) :=
  ((wholeWords inName (readText s)).map fun run => (run.map Prod.fst).dropWhile leads).filter
    (· ≠ [])

/-! ### Borders of names -/

/-- The modes that a reading can be in before the text `s`. -/
def Mode.At (m : Mode) (s : List Char) : Prop :=
  match m with
  | .quoted quote _ | .protect quote _ => quote = '\'' ∨ quote = '"'
  | .escapeOpen => s.head? = some '\''
  | .blockClose _ => s.head? = some '/'
  | .tagClose left => ∃ tag, tag.length + 1 = left ∧ (tag ++ ['$']) <+: s
  | _ => True

theorem Mode.At.step {m : Mode} {c : Char} {s : List Char} (h : m.At (c :: s)) :
    (step m c s).At s := by
  cases m with
  | code front =>
    simp only [Postgres.step]
    split_ifs with h1 h2 h3 h4 h5
    · trivial
    · trivial
    · exact h3
    · exact h4.2.2
    · cases tag? s <;> trivial
    · trivial
  | line => simp only [Postgres.step]; split_ifs <;> trivial
  | blockOpen depth => trivial
  | block depth =>
    simp only [Postgres.step]
    split_ifs with h1 h2
    · trivial
    · exact h2.2
    · trivial
  | blockClose depth => simp only [Postgres.step]; split_ifs <;> trivial
  | escapeOpen => exact Or.inl (Option.some.inj h)
  | quoted quote escapes =>
    simp only [Postgres.step]
    split_ifs
    · exact h
    · trivial
    · exact h
    · exact h
  | protect quote escapes => exact h
  | tagOpen tag left => simp only [Postgres.step]; split_ifs <;> trivial
  | tagged tag =>
    simp only [Postgres.step]
    split_ifs with h1
    · exact ⟨tag, rfl, List.isPrefixOf_iff_prefix.1 h1.2⟩
    · trivial
  | tagClose left =>
    simp only [Postgres.step]
    split_ifs with h1
    · trivial
    · obtain ⟨tag, rfl, hleads⟩ := h
      cases tag with
      | nil => exact absurd (Nat.le_refl 1) h1
      | cons a tag => exact ⟨tag, rfl, (List.cons_prefix_cons.1 hleads).2⟩

/-- The characters that close a literal or a comment in front of code, line breaks apart. -/
def closers : List Char := ['/', '\'', '"', '$']

/-- Coming back to code takes a closing character, or a line break behind. -/
theorem mem_closers_of_step {m : Mode} {c : Char} {s : List Char} (hat : m.At (c :: s))
    (hm : m.kind ≠ .code) (h : (step m c s).kind = .code) :
    c ∈ closers ∨ s.head?.any isBreak = true := by
  cases m with
  | code front => exact absurd rfl hm
  | line =>
    simp only [step] at h
    split_ifs at h with hn
    · exact Or.inr hn
    · cases h
  | blockOpen depth => cases h
  | block depth => simp only [step] at h; split_ifs at h <;> cases h
  | blockClose depth => exact Or.inl (by simp [closers, Option.some.inj hat])
  | escapeOpen => cases h
  | quoted quote escapes =>
    simp only [step] at h
    split_ifs at h with h1 h2 h3
    · cases h
    · rcases hat with rfl | rfl <;> simp [closers, h1]
    · cases h
    · cases h
  | protect quote escapes => cases h
  | tagOpen tag left => simp only [step] at h; split_ifs at h <;> cases h
  | tagged tag => simp only [step] at h; split_ifs at h <;> cases h
  | tagClose left =>
    simp only [step] at h
    split_ifs at h with h1
    · obtain ⟨tag, rfl, hleads⟩ := hat
      cases tag with
      | nil => exact Or.inl (by simp [closers, (List.cons_prefix_cons.1 hleads).1.symm])
      | cons a tag => simp at h1
    · cases h

/-- Behind the start of a name, the characters of a name are code. -/
theorem kindOf_name {c : Char} (hc : isNameChar c = true) (rest : List Char) :
    kindOf (.code .name) c rest = .code := by
  have hne : c ≠ '-' ∧ c ≠ '/' ∧ c ≠ '\'' ∧ c ≠ '"' := by
    refine ⟨?_, ?_, ?_, ?_⟩ <;> rintro rfl <;> revert hc <;> decide
  simp [kindOf, Mode.kind, step, hne]

/-- The start of a name stays in code, unless it is the `E` of a literal. -/
theorem step_nameStart {front : Front} {c : Char} (hc : isNameStart c = true) {rest : List Char}
    (h : (step (.code front) c rest).kind = .code) : step (.code front) c rest = .code .name := by
  have hne : c ≠ '-' ∧ c ≠ '/' ∧ c ≠ '\'' ∧ c ≠ '"' ∧ c ≠ '$' := by
    refine ⟨?_, ?_, ?_, ?_, ?_⟩ <;> rintro rfl <;> revert hc <;> decide
  simp only [step, hne, false_and, false_or, if_false] at h ⊢
  split_ifs at h ⊢ with hescape
  · cases h
  · rw [Front.next, if_pos hc]

/-- Two characters that meet at the border of a name. -/
structure Beside (x y : Char × Kind) : Prop where
  behind : x.2 = .code → isNameStart x.1 = true → isNameChar y.1 = true → y.2 = .code
  before : y.2 = .code → isNameChar y.1 = true → x.2 = .code ∨ x.1 ∈ closers

/-- **How code meets literals and comments at the border of a name.** -/
theorem read_isChain (m : Mode) (s : List Char) (hat : m.At s) : (read m s).IsChain Beside := by
  induction s generalizing m with
  | nil => exact List.IsChain.nil
  | cons a s ih =>
    have htail := ih (step m a s) hat.step
    cases s with
    | nil => exact List.IsChain.singleton _
    | cons b rest =>
      rw [read, read]
      refine List.isChain_cons_cons.2 ⟨⟨fun hcode hstart hname => ?_, fun hcode hname => ?_⟩, ?_⟩
      · obtain ⟨hm, hstep⟩ := kindOf_eq_code.1 hcode
        cases m with
        | code front =>
          show kindOf (step (.code front) a (b :: rest)) b rest = .code
          rw [step_nameStart hstart hstep]
          exact kindOf_name hname rest
        | _ => cases hm
      · have hstep := (kindOf_eq_code.1 hcode).1
        by_cases hm : m.kind = .code
        · exact Or.inl (kindOf_eq_code.2 ⟨hm, hstep⟩)
        · rcases mem_closers_of_step hat hm hstep with hclose | hbreak
          · exact Or.inr hclose
          · -- a line break is no character of a name
            have hb : b = '\n' ∨ b = '\r' := by simpa [isBreak] using hbreak
            have hname : isNameChar b = true := hname
            rcases hb with rfl | rfl
            · exact absurd hname (by decide)
            · exact absurd hname (by decide)
      · rwa [read] at htail

end Postgres
