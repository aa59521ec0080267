import Text2Cypher.Guards.CypherSyntax

/-!
# What the label scan makes of a query

The scan of the guard is run beside the tokens of a query.  Between two tokens it is in one of a
few states (`Scan.Between`), and over every token it keeps what it has collected, and collects a
label name that it is looking for.  So in a query that the scan interprets completely every label
outside its blind spots is among its names.

* `Scan.along`: the scan over the front part of a text;
* `Scan.Between.along_token`: one token;
* `Scan.Between.sees`: a whole query;
* `labels_guard_sound_iff`: the guard's allowance covers all labels of a query exactly when it
  covers the hidden ones.
-/

namespace Guards

open Reading

namespace Scan

variable {W : WordClass}

/-- The names collected, the word being read among them. -/
def committed (s : Scan) : List Text :=
  match s.mode with
  | .labelWord acc => acc.reverse :: s.names
  | _ => s.names

/-- The scan over the front part of a text, which `after` follows. -/
def along (W : WordClass) (s : Scan) : Text → Text → Scan
  | [], _ => s
  | c :: text, after => (s.step W c (text ++ after)).along W text after

theorem along_cons (s : Scan) (c : Char) (text after : Text) :
    s.along W (c :: text) after = (s.step W c (text ++ after)).along W text after := rfl

theorem along_append (s : Scan) (a b after : Text) :
    s.along W (a ++ b) after = (s.along W a (b ++ after)).along W b after := by
  induction a generalizing s with
  | nil => rfl
  | cons c a ih => rw [List.cons_append, along_cons, along_cons, ih, List.append_assoc]

theorem run_append (s : Scan) (a b : Text) : s.run W (a ++ b) = (s.along W a b).run W b := by
  induction a generalizing s with
  | nil => rfl
  | cons c a ih => rw [List.cons_append, run, ih, along_cons]

/-! ### What every step keeps -/

theorem stepCode_names (s : Scan) (c : Char) (rest : Text) :
    (s.stepCode W c rest).names = s.names := by
  unfold stepCode
  split_ifs <;> rfl

theorem stepCode_unresolved (s : Scan) (c : Char) (rest : Text) :
    (s.stepCode W c rest).unresolved = s.unresolved := by
  unfold stepCode
  split_ifs <;> rfl

/-- A character with no meaning for the main loop. -/
theorem stepCode_ordinary (s : Scan) {c : Char} {rest : Text}
    (hcomment : ¬ (c = '/' ∧ (rest.head? = some '/' ∨ rest.head? = some '*')))
    (hc : c ∉ ['\'', '"', '`', '{', '}', ':']) :
    s.stepCode W c rest = { s with mode := .code, before := c :: s.before } := by
  simp only [List.mem_cons, List.not_mem_nil, or_false, not_or] at hc
  simp only [stepCode]
  rw [if_neg (by tauto), if_neg (by tauto), if_neg (by tauto), if_neg (by tauto),
    if_neg (by tauto), if_neg (by tauto), if_neg (by tauto)]

/-- Another state with at least the same findings, at the same place. -/
structure Extends (s s' : Scan) : Prop where
  suppress : s'.suppress = s.suppress
  before : s'.before = s.before
  names : s.names ⊆ s'.names
  unresolved : s.unresolved = true → s'.unresolved = true

theorem Extends.rfl {s : Scan} : s.Extends s := ⟨Eq.refl _, Eq.refl _, fun _ h => h, id⟩

/-- What a step can do, up to new findings: read the character, or leave it to the main loop. -/
theorem step_cases (s : Scan) (c : Char) (rest : Text) :
    ∃ s' : Scan, s.Extends s' ∧
      ((∃ mode, s.step W c rest = { s' with mode := mode, before := c :: s'.before }) ∨
        s.step W c rest = s'.stepCode W c rest) := by
  obtain ⟨mode, suppress, names, unresolved, before⟩ := s
  have hafter : ∀ s : Scan,
      (∃ mode, s.stepAfter W c rest = { s with mode := mode, before := c :: s.before }) ∨
        s.stepAfter W c rest = s.stepCode W c rest := fun s => by
    unfold stepAfter
    split_ifs
    · exact Or.inl ⟨_, Eq.refl _⟩
    · exact Or.inl ⟨_, Eq.refl _⟩
    · exact Or.inr (Eq.refl _)
  cases mode with
  | code => exact ⟨_, .rfl, Or.inr (Eq.refl _)⟩
  | afterName => exact ⟨_, .rfl, hafter _⟩
  | label =>
    simp only [step]
    split_ifs
    · exact ⟨_, .rfl, Or.inl ⟨_, Eq.refl _⟩⟩
    · exact ⟨_, .rfl, Or.inl ⟨_, Eq.refl _⟩⟩
    · exact ⟨_, .rfl, Or.inl ⟨_, Eq.refl _⟩⟩
    · exact ⟨⟨.label, suppress, names, true, before⟩,
        ⟨Eq.refl _, Eq.refl _, fun _ h => h, fun _ => Eq.refl _⟩,
        Or.inr (Eq.refl _)⟩
  | labelTick acc =>
    simp only [step]
    split_ifs
    · exact ⟨⟨.afterName, suppress, acc.reverse :: names, unresolved, before⟩,
        ⟨Eq.refl _, Eq.refl _, fun _ h => List.mem_cons_of_mem _ h, id⟩, Or.inl ⟨_, Eq.refl _⟩⟩
    · exact ⟨_, .rfl, Or.inl ⟨_, Eq.refl _⟩⟩
  | labelWord acc =>
    simp only [step]
    split_ifs
    · exact ⟨_, .rfl, Or.inl ⟨_, Eq.refl _⟩⟩
    · exact ⟨⟨.labelWord acc, suppress, acc.reverse :: names, unresolved, before⟩,
        ⟨Eq.refl _, Eq.refl _, fun _ h => List.mem_cons_of_mem _ h, id⟩, hafter _⟩
  | _ =>
    refine ⟨_, .rfl, Or.inl ?_⟩
    simp only [step]
    first
      | exact ⟨_, Eq.refl _⟩
      | (split_ifs <;> exact ⟨_, Eq.refl _⟩)

/-- Names are never given up. -/
theorem step_names (s : Scan) (c : Char) (rest : Text) : s.names ⊆ (s.step W c rest).names := by
  obtain ⟨s', hs', ⟨mode, h⟩ | h⟩ := s.step_cases (W := W) c rest
  · rw [h]; exact hs'.names
  · rw [h, stepCode_names]; exact hs'.names

/-- A colon that was given up stays so. -/
theorem step_unresolved (s : Scan) (c : Char) (rest : Text) (hu : s.unresolved = true) :
    (s.step W c rest).unresolved = true := by
  obtain ⟨s', hs', ⟨mode, h⟩ | h⟩ := s.step_cases (W := W) c rest
  · rw [h]; exact hs'.unresolved hu
  · rw [h, stepCode_unresolved]; exact hs'.unresolved hu

/-! ### The loops of the scan -/

theorem isSpace_of_isPlainBlank {c : Char} (hc : isPlainBlank c = true) :
    Python.isSpace c = true := by
  simp only [isPlainBlank, List.mem_cons, List.not_mem_nil, or_false, decide_eq_true_eq] at hc
  rcases hc with rfl | rfl | rfl | rfl <;> decide

/-- A blank begins nothing that the scan skips or interprets. -/
theorem not_special_of_isSpace {c : Char} (hc : Python.isSpace c = true) :
    c ∉ ['\'', '"', '`', '{', '}', ':'] := by
  intro hmem
  simp only [List.mem_cons, List.not_mem_nil, or_false] at hmem
  rcases hmem with rfl | rfl | rfl | rfl | rfl | rfl <;> exact absurd hc (by decide)

/-- A word character begins nothing that the scan skips or interprets. -/
theorem not_special_of_isWord {c : Char} (hc : W.isWord c = true) :
    c ≠ '/' ∧ c ∉ ['\'', '"', '`', '{', '}', ':'] ∧ c ∉ ['|', '&'] ∧ isPlainBlank c = false := by
  have hne : ∀ d : Char, d.toNat < 128 → (d.isAlphanum || d == '_') = false → c ≠ d := by
    rintro d hd hnot rfl
    rw [W.ascii c hd, hnot] at hc
    cases hc
  simp only [isPlainBlank, List.mem_cons, List.not_mem_nil, or_false, not_or, decide_eq_false_iff_not]
  refine ⟨hne _ ?_ ?_, ⟨?_, ?_, ?_, ?_, ?_, ?_⟩, ⟨?_, ?_⟩, ?_, ?_, ?_, ?_⟩ <;>
    first | decide | (refine hne _ ?_ ?_ <;> decide)

/-- The state behind `text`, in the given mode, with nothing new found. -/
def past (s : Scan) (mode : ScanMode) (text : Text) : Scan :=
  { s with mode := mode, before := text.reverse ++ s.before }

@[simp] theorem past_mode (s : Scan) (mode : ScanMode) (text : Text) :
    (s.past mode text).mode = mode := rfl

@[simp] theorem past_suppress (s : Scan) (mode : ScanMode) (text : Text) :
    (s.past mode text).suppress = s.suppress := rfl

@[simp] theorem past_names (s : Scan) (mode : ScanMode) (text : Text) :
    (s.past mode text).names = s.names := rfl

@[simp] theorem past_unresolved (s : Scan) (mode : ScanMode) (text : Text) :
    (s.past mode text).unresolved = s.unresolved := rfl

@[simp] theorem past_past (s : Scan) (mode mode' : ScanMode) (a b : Text) :
    (s.past mode a).past mode' b = s.past mode' (a ++ b) := by
  simp [past]

theorem past_nil {s : Scan} {mode : ScanMode} (hs : s.mode = mode) : s.past mode [] = s := by
  subst hs; rfl

theorem along_line {s : Scan} (hs : s.mode = .line) {text : Text}
    (hbreak : ∀ c ∈ text, isBreak c = false) (after : Text) :
    s.along W text after = s.past .line text := by
  induction text generalizing s with
  | nil => exact (past_nil hs).symm
  | cons c text ih =>
    have hstep : s.step W c (text ++ after) = s.past .line [c] := by
      simp [step, hs, past, hbreak c List.mem_cons_self]
    rw [along_cons, hstep, ih (past_mode ..) fun c hc => hbreak c (List.mem_cons_of_mem _ hc),
      past_past, List.singleton_append]

theorem along_block {s : Scan} (hs : s.mode = .block) {text : Text}
    (hclosed : ¬ ['*', '/'] <:+: text) (after : Text) :
    s.along W text ('*' :: '/' :: after) = s.past .block text := by
  induction text generalizing s with
  | nil => exact (past_nil hs).symm
  | cons c text ih =>
    rw [List.infix_cons_iff, not_or] at hclosed
    have hc : ¬ (c = '*' ∧ (text ++ '*' :: '/' :: after).head? = some '/') := by
      rintro ⟨rfl, hhead⟩
      cases text with
      | nil => simp at hhead
      | cons d text =>
        simp only [List.cons_append, List.head?_cons, Option.some.injEq] at hhead
        exact hclosed.1 (by simp [hhead])
    have hstep : s.step W c (text ++ '*' :: '/' :: after) = s.past .block [c] := by
      simp only [step, hs, hc, if_false, past, List.reverse_singleton, List.singleton_append]
    rw [along_cons, hstep, ih (past_mode ..) hclosed.2, past_past, List.singleton_append]

theorem along_str {quote : Char} {s : Scan} (hs : s.mode = .str quote) {body : List StrChar}
    (hquote : quote ≠ '\\') (hbody : body.all (StrChar.lexes quote) = true) (after : Text) :
    s.along W (body.flatMap StrChar.render) after =
      s.past (.str quote) (body.flatMap StrChar.render) := by
  induction body generalizing s with
  | nil => exact (past_nil hs).symm
  | cons c body ih =>
    simp only [List.all_cons, Bool.and_eq_true] at hbody
    have hchar : s.along W c.render (body.flatMap StrChar.render ++ after) =
        s.past (.str quote) c.render := by
      cases c with
      | plain c =>
        have hc : c ≠ quote ∧ c ≠ '\\' := by simpa [StrChar.lexes] using hbody.1
        simp [StrChar.render, along, step, hs, hc, past]
      | escaped c => simp [StrChar.render, along, step, hs, Ne.symm hquote, past]
    rw [List.flatMap_cons, along_append, hchar, ih (past_mode ..) hbody.2, past_past]

/-- A quoted name outside label expressions, from behind its first backtick. -/
theorem along_tick {s : Scan} (hs : s.mode = .tick) (body after : Text) :
    s.along W (body.flatMap doubleTick ++ ['`']) after =
      s.past .code (body.flatMap doubleTick ++ ['`']) := by
  induction body generalizing s with
  | nil => simp [along, step, hs, past]
  | cons c body ih =>
    have hchar : s.along W (doubleTick c) (body.flatMap doubleTick ++ ['`'] ++ after) =
        s.past .tick (doubleTick c) := by
      by_cases hc : c = '`'
      · simp [doubleTick, hc, along, step, stepCode, hs, past]
      · simp [doubleTick, hc, along, step, hs, past]
    rw [List.flatMap_cons, List.append_assoc, along_append, hchar, ih (past_mode ..), past_past]

/-- A quoted label without backticks in it, from behind its first backtick. -/
theorem along_labelTick {s : Scan} {acc : Text} (hs : s.mode = .labelTick acc) {body : Text}
    (hcut : '`' ∉ body) (after : Text) :
    s.along W (body.flatMap doubleTick ++ ['`']) after =
      { s with names := (acc.reverse ++ body) :: s.names }.past .afterName
        (body.flatMap doubleTick ++ ['`']) := by
  induction body generalizing s acc with
  | nil => simp [along, step, hs, past]
  | cons c body ih =>
    simp only [List.mem_cons, not_or] at hcut
    have hc : doubleTick c = [c] := if_neg (Ne.symm hcut.1)
    have hstep : s.step W c (body.flatMap doubleTick ++ ['`'] ++ after) =
        s.past (.labelTick (c :: acc)) [c] := by simp [step, hs, Ne.symm hcut.1, past]
    rw [List.flatMap_cons, hc, List.singleton_append, List.cons_append, along_cons, hstep,
      ih (past_mode ..) hcut.2]
    simp [past]

/-- A quoted label with a backtick in it is cut there, and read on as a quoted name. -/
theorem along_labelTick_cut {s : Scan} {acc : Text} (hs : s.mode = .labelTick acc) {body : Text}
    (hcut : '`' ∈ body) (after : Text) :
    ∃ name, s.along W (body.flatMap doubleTick ++ ['`']) after =
      { s with names := name :: s.names }.past .code (body.flatMap doubleTick ++ ['`']) := by
  induction body generalizing s acc with
  | nil => simp at hcut
  | cons c body ih =>
    rw [List.flatMap_cons, List.append_assoc, along_append]
    by_cases hc : c = '`'
    · have hstep : s.along W (doubleTick c) (body.flatMap doubleTick ++ ['`'] ++ after) =
          { s with names := acc.reverse :: s.names }.past .tick (doubleTick c) := by
        simp [hc, doubleTick, along, step, stepAfter, stepCode, isPlainBlank, hs, past]
      exact ⟨_, by rw [hstep, along_tick (past_mode ..), past_past]⟩
    · have hstep : s.along W (doubleTick c) (body.flatMap doubleTick ++ ['`'] ++ after) =
          s.past (.labelTick (c :: acc)) (doubleTick c) := by
        simp [hc, doubleTick, along, step, hs, past]
      have hcut' : '`' ∈ body := by
        rcases List.mem_cons.1 hcut with h | h
        · exact absurd h.symm hc
        · exact h
      obtain ⟨name, hname⟩ := ih (past_mode s (.labelTick (c :: acc)) (doubleTick c)) hcut'
      exact ⟨name, by rw [hstep, hname]; simp [past]⟩

/-- A word outside label expressions. -/
theorem along_word {s : Scan} (hs : s.mode = .code) {word : Text}
    (hword : ∀ c ∈ word, W.isWord c = true) (after : Text) :
    s.along W word after = s.past .code word := by
  induction word generalizing s with
  | nil => exact (past_nil hs).symm
  | cons c word ih =>
    have hstep : s.step W c (word ++ after) = s.past .code [c] := by
      have hc := not_special_of_isWord (hword c List.mem_cons_self)
      rw [step, hs]
      exact stepCode_ordinary s (fun h => hc.1 h.1) hc.2.1
    rw [along_cons, hstep, ih (past_mode ..) fun c hc => hword c (List.mem_cons_of_mem _ hc),
      past_past, List.singleton_append]

/-- A label read to its last word character. -/
theorem along_labelWord {s : Scan} {acc : Text} (hs : s.mode = .labelWord acc) {word : Text}
    (hword : ∀ c ∈ word, W.isWord c = true) (after : Text) :
    s.along W word after = s.past (.labelWord (word.reverse ++ acc)) word := by
  induction word generalizing s acc with
  | nil => exact (past_nil hs).symm
  | cons c word ih =>
    have hstep : s.step W c (word ++ after) = s.past (.labelWord (c :: acc)) [c] := by
      simp [step, hs, hword c List.mem_cons_self, past]
    rw [along_cons, hstep, ih (past_mode ..) fun c hc => hword c (List.mem_cons_of_mem _ hc),
      past_past]
    simp

/-! ### Between two tokens -/

/-- The states the scan may be in where a token ends and `after` follows. -/
def Rests (W : WordClass) (after : Text) : ScanMode → Prop
  | .code | .label | .afterName => True
  | .labelWord _ => endsWord W after = true
  | .line => after = []
  | _ => False

/-- A character that the scan leaves to the main loop wherever a token may begin, a backtick in a
label expression apart. -/
def isMain (W : WordClass) (c : Char) : Prop :=
  W.isWord c = false ∧ isPlainBlank c = false ∧ c ∉ ['|', '&']

theorem step_main {s : Scan} (c : Char) (rest : Text) (hs : Rests W (c :: rest) s.mode)
    (hc : isMain W c) (htick : c = '`' → s.mode ≠ .label) :
    ∃ s', s.Extends s' ∧ s.step W c rest = s'.stepCode W c rest := by
  obtain ⟨hword, hblank, hmem⟩ := hc
  simp only [List.mem_cons, List.not_mem_nil, or_false, not_or] at hmem
  obtain ⟨mode, suppress, names, unresolved, before⟩ := s
  cases mode with
  | code => exact ⟨_, .rfl, rfl⟩
  | label =>
    refine ⟨⟨.label, suppress, names, true, before⟩, ⟨rfl, rfl, fun _ h => h, fun _ => rfl⟩, ?_⟩
    have htick : c ≠ '`' := fun h => htick h rfl
    simp [step, hword, hblank, htick]
  | afterName =>
    refine ⟨_, .rfl, ?_⟩
    simp [step, stepAfter, hblank, hmem]
  | labelWord acc =>
    refine ⟨⟨.labelWord acc, suppress, acc.reverse :: names, unresolved, before⟩,
      ⟨rfl, rfl, fun _ h => List.mem_cons_of_mem _ h, id⟩, ?_⟩
    simp [step, stepAfter, hword, hblank, hmem]
  | line => simp [Rests] at hs
  | _ => exact hs.elim

/-- A word that the scan holds is among its names once it has ended. -/
theorem committed_step {s : Scan} {c : Char} {rest : Text} (hs : Rests W (c :: rest) s.mode) :
    s.committed ⊆ (s.step W c rest).names := by
  cases hmode : s.mode with
  | labelWord acc =>
    have hc : W.isWord c = false := by simpa [hmode, Rests, endsWord] using hs
    have hafter : ∀ t : Scan, (t.stepAfter W c rest).names = t.names := fun t => by
      unfold stepAfter
      split_ifs
      · rfl
      · rfl
      · exact stepCode_names t c rest
    simp only [committed, hmode, step, hc, Bool.false_eq_true, if_false, hafter]
    exact fun _ h => h
  | _ =>
    simp only [committed, hmode]
    exact s.step_names c rest

/-! ### Tokens outside label expressions -/

theorem isMain_of_mem {c : Char} (hc : c ∈ ['/', '\'', '"', '`', ':', '{', '}']) :
    isMain W c := by
  have hword : W.isWord c = false := by
    simp only [List.mem_cons, List.not_mem_nil, or_false] at hc
    rcases hc with rfl | rfl | rfl | rfl | rfl | rfl | rfl <;>
      exact (W.ascii _ (by decide)).trans (by decide)
  simp only [List.mem_cons, List.not_mem_nil, or_false] at hc
  rcases hc with rfl | rfl | rfl | rfl | rfl | rfl | rfl <;> exact ⟨hword, by decide, by decide⟩

/-- Over a comment the scan collects nothing and ends up in the main loop, or at the end of the
query. -/
theorem along_comment {s : Scan} {b : Blank} {after : Text}
    (hs : Rests W (b.render ++ after) s.mode) (hb : (Token.blank b).lexes W after = true)
    (hcomment : ∀ c, b ≠ .space c) :
    ∃ s' mode, s.Extends s' ∧ Rests W after mode ∧ (mode = .code ∨ mode = .line) ∧
      s.along W b.render after = s'.past mode b.render := by
  cases b with
  | space c => exact absurd rfl (hcomment c)
  | line body lineBreak =>
    simp only [Token.lexes, Bool.and_eq_true, List.all_eq_true, Bool.not_eq_true',
      Bool.or_eq_true] at hb
    obtain ⟨⟨hbody, hbreak⟩, hend⟩ := hb
    obtain ⟨s', hs', hstep⟩ :=
      step_main '/' ('/' :: (body ++ lineBreak.toList) ++ after) hs (isMain_of_mem (by simp))
        (by simp)
    have hopen : s.step W '/' ('/' :: (body ++ lineBreak.toList) ++ after) =
        s'.past .line ['/'] := by
      rw [hstep]; simp [stepCode, past]
    have hskip : ∀ c ∈ '/' :: body, isBreak c = false := by
      intro c hc
      rcases List.mem_cons.1 hc with rfl | hc
      · decide
      · exact hbody c hc
    rw [Blank.render, along_cons, hopen, ← List.cons_append, along_append,
      along_line (past_mode ..) hskip, past_past]
    cases lineBreak with
    | none =>
      refine ⟨s', .line, hs', ?_, Or.inr rfl, by simp [along]⟩
      simpa [Rests] using hend
    | some c =>
      have hc : isBreak c = true := by simpa using hbreak
      refine ⟨s', .code, hs', trivial, Or.inl rfl, ?_⟩
      simp [along, step, hc, past]
  | block body =>
    have hclosed : ¬ ['*', '/'] <:+: body := by simpa [Token.lexes] using hb
    obtain ⟨s', hs', hstep⟩ :=
      step_main '/' ('*' :: (body ++ ['*', '/']) ++ after) hs (isMain_of_mem (by simp))
        (by simp)
    refine ⟨s', .code, hs', trivial, Or.inl rfl, ?_⟩
    have hopen : s.step W '/' ('*' :: (body ++ ['*', '/']) ++ after) =
        s'.past .blockOpen ['/'] := by
      rw [hstep]; simp [stepCode, past]
    have hstar : (s'.past .blockOpen ['/']).step W '*' (body ++ ['*', '/'] ++ after) =
        s'.past .block ['/', '*'] := by simp [step, past]
    have hclose : (s'.past .block ('/' :: '*' :: body)).along W ['*', '/'] after =
        s'.past .code ('/' :: '*' :: (body ++ ['*', '/'])) := by simp [along, step, past]
    rw [Blank.render, along_cons, hopen, along_cons, hstar, along_append,
      show ['*', '/'] ++ after = '*' :: '/' :: after from rfl, along_block (past_mode ..) hclosed,
      past_past]
    exact hclose

theorem along_string {s : Scan} {quote : Char} {body : List StrChar} {after : Text}
    (hs : Rests W ((Token.str quote body).render ++ after) s.mode)
    (hb : (Token.str quote body).lexes W after = true) :
    ∃ s', s.Extends s' ∧ s.along W (Token.str quote body).render after =
      s'.past .code (Token.str quote body).render := by
  simp only [Token.lexes, Bool.and_eq_true, decide_eq_true_eq, List.mem_cons, List.not_mem_nil,
    or_false] at hb
  obtain ⟨hquote, hbody⟩ := hb
  have hne : quote ≠ '\\' := by rcases hquote with rfl | rfl <;> decide
  obtain ⟨s', hs', hstep⟩ := step_main quote (body.flatMap StrChar.render ++ [quote] ++ after) hs
    (isMain_of_mem (by simp; tauto)) (by rcases hquote with rfl | rfl <;> simp)
  refine ⟨s', hs', ?_⟩
  have hopen : s.step W quote (body.flatMap StrChar.render ++ [quote] ++ after) =
      s'.past (.str quote) [quote] := by
    rw [hstep]
    rcases hquote with rfl | rfl <;> simp [stepCode, past]
  rw [Token.render, along_cons, hopen, along_append, along_str (past_mode ..) hne hbody, past_past]
  simp [along, step, past]

/-! ### Names -/

/-- A plain name.  Behind a label colon, `|` or `&` the scan takes it for a label. -/
theorem along_plainName {s : Scan} {word after : Text} (hs : Rests W (word ++ after) s.mode)
    (hn : (Name.plain word).lexes W after = true) :
    (s.mode = .label ∧ s.along W word after = s.past (.labelWord word.reverse) word) ∨
      (s.mode ≠ .label ∧ s.along W word after = s.past .code word) := by
  simp only [Name.lexes, Bool.and_eq_true, Bool.not_eq_true', List.isEmpty_eq_false_iff,
    List.all_eq_true] at hn
  obtain ⟨⟨hne, hword⟩, hend⟩ := hn
  cases word with
  | nil => exact absurd rfl hne
  | cons c word =>
    have hc : W.isWord c = true := hword c List.mem_cons_self
    have hrest : ∀ d ∈ word, W.isWord d = true := fun d hd => hword d (List.mem_cons_of_mem _ hd)
    obtain ⟨hslash, hspecial, hbar, hblank⟩ := not_special_of_isWord hc
    simp only [List.mem_cons, List.not_mem_nil, or_false, not_or] at hbar
    have hcode : s.stepCode W c (word ++ after) = s.past .code [c] :=
      stepCode_ordinary s (fun h => hslash h.1) hspecial
    have hmain : s.mode ≠ .label → s.step W c (word ++ after) = s.past .code [c] := by
      intro hlabel
      cases hmode : s.mode with
      | code => simp only [step, hmode, hcode]
      | afterName => simp only [step, hmode, stepAfter, hblank, hbar, hcode, if_false, or_self,
          Bool.false_eq_true]
      | label => exact absurd hmode hlabel
      | labelWord acc => simp [hmode, Rests, endsWord, hc] at hs
      | line => simp [hmode, Rests] at hs
      | _ => rw [hmode] at hs; exact hs.elim
    rw [along_cons]
    by_cases hlabel : s.mode = .label
    · have hstep : s.step W c (word ++ after) = s.past (.labelWord [c]) [c] := by
        simp only [List.mem_cons, List.not_mem_nil, or_false, not_or] at hspecial
        simp [step, hlabel, hblank, hspecial, hc, past]
      refine Or.inl ⟨hlabel, ?_⟩
      rw [hstep, along_labelWord (past_mode ..) hrest, past_past, List.reverse_cons]
      rfl
    · refine Or.inr ⟨hlabel, ?_⟩
      rw [hmain hlabel, along_word (past_mode ..) hrest, past_past]
      rfl

/-- A quoted name.  Behind a label colon, `|` or `&` the scan takes it for a label, up to its first
backtick. -/
theorem along_quotedName {s : Scan} {body after : Text}
    (hs : Rests W ((Name.quoted body).render ++ after) s.mode) :
    ∃ s' mode, s.Extends s' ∧ (mode = .code ∨ mode = .afterName) ∧
      s.along W (Name.quoted body).render after = s'.past mode (Name.quoted body).render ∧
      (s.mode = .label → '`' ∉ body → mode = .afterName ∧ body ∈ s'.names) := by
  rw [Name.render, along_cons]
  by_cases hlabel : s.mode = .label
  · have hstep : s.step W '`' (body.flatMap doubleTick ++ ['`'] ++ after) =
        s.past (.labelTick []) ['`'] := by simp [step, hlabel, isPlainBlank, past]
    rw [hstep]
    by_cases hcut : '`' ∈ body
    · obtain ⟨name, hname⟩ :=
        along_labelTick_cut (W := W) (past_mode s (.labelTick []) ['`']) hcut after
      refine ⟨{ s with names := name :: s.names }, .code,
        ⟨rfl, rfl, fun _ h => List.mem_cons_of_mem _ h, id⟩, Or.inl rfl, ?_,
        fun _ h => absurd hcut h⟩
      rw [hname]
      simp [past]
    · refine ⟨{ s with names := body :: s.names }, .afterName,
        ⟨rfl, rfl, fun _ h => List.mem_cons_of_mem _ h, id⟩, Or.inr rfl, ?_,
        fun _ _ => ⟨rfl, List.mem_cons_self⟩⟩
      rw [along_labelTick (past_mode ..) hcut]
      simp [past]
  · obtain ⟨s', hs', hstep⟩ := step_main '`' (body.flatMap doubleTick ++ ['`'] ++ after) hs
      (isMain_of_mem (by simp)) fun _ => hlabel
    have hopen : s'.stepCode W '`' (body.flatMap doubleTick ++ ['`'] ++ after) =
        s'.past .tick ['`'] := by simp [stepCode, past]
    refine ⟨s', .code, hs', Or.inl rfl, ?_, fun h => absurd h hlabel⟩
    rw [hstep, hopen, along_tick (past_mode ..), past_past]
    rfl

/-- Any name.  A label that the scan expects is found, unless it is cut. -/
theorem along_name {s : Scan} {n : Name} {after : Text} (hs : Rests W (n.render ++ after) s.mode)
    (hn : n.lexes W after = true) :
    ∃ s' mode, s.Extends s' ∧ Rests W after mode ∧ s.along W n.render after = s'.past mode n.render ∧
      (s.mode = .label → n.cut = false →
        (mode = .afterName ∨ ∃ acc, mode = .labelWord acc) ∧
          n.text ∈ (s'.past mode n.render).committed) := by
  cases n with
  | plain word =>
    have hend : endsWord W after = true := by
      simp only [Name.lexes, Bool.and_eq_true] at hn
      exact hn.2
    rcases along_plainName hs hn with ⟨_, halong⟩ | ⟨hlabel, halong⟩
    · exact ⟨s, .labelWord word.reverse, .rfl, hend, halong, fun _ _ =>
        ⟨Or.inr ⟨_, rfl⟩, by simp [committed, Name.text]⟩⟩
    · exact ⟨s, .code, .rfl, trivial, halong, fun h => absurd h hlabel⟩
  | quoted body =>
    obtain ⟨s', mode, hs', hmode, halong, hfound⟩ := along_quotedName hs
    refine ⟨s', mode, hs', ?_, halong, fun hlabel hcut => ?_⟩
    · rcases hmode with rfl | rfl <;> trivial
    · obtain ⟨rfl, hmem⟩ := hfound hlabel (by simpa [Name.cut] using hcut)
      exact ⟨Or.inl rfl, by simpa [committed, Name.text] using hmem⟩

/-! ### Symbols -/

theorem stepCode_sym {c : Char} {after : Text} (hc : isSymbol W c after = true) (s : Scan) :
    s.stepCode W c after =
      { s with suppress := bracesAfter W s.suppress s.before c after }.past .code [c] := by
  simp only [isSymbol, Bool.and_eq_true, Bool.not_eq_true', decide_eq_false_iff_not, List.mem_cons,
    List.not_mem_nil, or_false, not_or, Bool.and_eq_false_iff, beq_eq_false_iff_ne] at hc
  obtain ⟨⟨-, hquote⟩, hcomment⟩ := hc
  have hhead : ∀ d, d = '/' ∨ d = '*' → ¬ (c = '/' ∧ after.head? = some d) := by
    rintro d hd ⟨rfl, hafter⟩
    simp only [hafter, Option.any_some, decide_eq_false_iff_not] at hcomment
    exact hcomment.elim (fun h => h rfl) fun h => h hd
  simp only [stepCode, bracesAfter]
  rw [if_neg (hhead '/' (Or.inl rfl)), if_neg (hhead '*' (Or.inr rfl)), if_neg (by tauto),
    if_neg (by tauto)]
  split_ifs with h1 h2 h3
  · rfl
  · rfl
  · exact absurd h3.1 hquote.2.2.2
  · rfl

/-- A symbol leads back to the main loop; behind a label, `|` and `&` ask for another one. -/
theorem step_sym {s : Scan} {c : Char} {after : Text} (hs : Rests W (c :: after) s.mode)
    (hc : isSymbol W c after = true) :
    ∃ s' mode, s.Extends s' ∧ (mode = .code ∨ mode = .label) ∧
      s.step W c after =
        { s' with suppress := bracesAfter W s.suppress s.before c after }.past mode [c] ∧
      (s.mode = .afterName ∨ (∃ acc, s.mode = .labelWord acc) → c = '|' ∨ c = '&' →
        mode = .label) := by
  have hplain : isPlainBlank c = false ∧ W.isWord c = false := by
    simp only [isSymbol, Bool.and_eq_true, Bool.not_eq_true'] at hc
    refine ⟨?_, hc.1.1.1⟩
    by_contra hblank
    have : Python.isSpace c = true := isSpace_of_isPlainBlank (by simpa using hblank)
    rw [hc.1.1.2] at this
    cases this
  by_cases hbar : c = '|' ∨ c = '&'
  · have hbraces : bracesAfter W s.suppress s.before c after = s.suppress := by
      rcases hbar with rfl | rfl <;> rfl
    have hafter : ∀ t : Scan, t.stepAfter W c after = t.past .label [c] := fun t => by
      simp [stepAfter, hplain.1, hbar, past]
    have hcode : ∀ t : Scan, t.suppress = s.suppress → t.before = s.before →
        t.stepCode W c after =
          { t with suppress := bracesAfter W s.suppress s.before c after }.past .code [c] :=
      fun t hsup hbef => by rw [stepCode_sym hc, hsup, hbef]
    obtain ⟨mode, suppress, names, unresolved, before⟩ := s
    cases mode with
    | code => exact ⟨_, .code, .rfl, Or.inl rfl, hcode _ rfl rfl, by simp⟩
    | label =>
      have htick : c ≠ '`' := by rcases hbar with rfl | rfl <;> decide
      refine ⟨⟨.label, suppress, names, true, before⟩, .code,
        ⟨rfl, rfl, fun _ h => h, fun _ => rfl⟩, Or.inl rfl, ?_, by simp⟩
      simp only [step, hplain, htick, Bool.false_eq_true, if_false]
      exact hcode _ rfl rfl
    | afterName =>
      refine ⟨_, .label, .rfl, Or.inr rfl, ?_, fun _ _ => rfl⟩
      simp only [step, hafter, hbraces]
    | labelWord acc =>
      refine ⟨⟨.labelWord acc, suppress, acc.reverse :: names, unresolved, before⟩, .label,
        ⟨rfl, rfl, fun _ h => List.mem_cons_of_mem _ h, id⟩, Or.inr rfl, ?_, fun _ _ => rfl⟩
      simp only [step, hplain, hafter, hbraces, Bool.false_eq_true, if_false]
    | line => simp [Rests] at hs
    | _ => exact hs.elim
  · obtain ⟨s', hs', hstep⟩ := step_main c after hs
      ⟨hplain.2, hplain.1, by simpa using hbar⟩ fun h => by
        subst h
        simp [isSymbol] at hc
    refine ⟨s', .code, hs', Or.inl rfl, ?_, fun _ h => absurd h hbar⟩
    rw [hstep, stepCode_sym hc, hs'.suppress, hs'.before]

/-! ### Blanks -/

/-- A blank that label expressions may contain for the scan. -/
theorem along_plainBlank {s : Scan} {c : Char} {after : Text} (hs : Rests W (c :: after) s.mode)
    (hc : isPlainBlank c = true) :
    ∃ s' mode, s.Extends s' ∧ Rests W after mode ∧ s.along W [c] after = s'.past mode [c] ∧
      (s.mode = .label → mode = .label) ∧
      (s.mode = .afterName ∨ (∃ acc, s.mode = .labelWord acc) → mode = .afterName) := by
  have hword : W.isWord c = false := W.space c (isSpace_of_isPlainBlank hc)
  have hafter : ∀ t : Scan, t.stepAfter W c after = t.past .afterName [c] := fun t => by
    simp [stepAfter, hc, past]
  rw [along_cons, List.nil_append, along]
  obtain ⟨mode, suppress, names, unresolved, before⟩ := s
  cases mode with
  | code =>
    refine ⟨_, .code, .rfl, trivial, stepCode_ordinary _ ?_ ?_, by simp, by simp⟩
    · rintro ⟨rfl, -⟩
      simp [isPlainBlank] at hc
    · exact not_special_of_isSpace (isSpace_of_isPlainBlank hc)
  | label => exact ⟨_, .label, .rfl, trivial, by simp [step, hc, past], by simp, by simp⟩
  | afterName => exact ⟨_, .afterName, .rfl, trivial, hafter _, by simp, by simp⟩
  | labelWord acc =>
    refine ⟨⟨.labelWord acc, suppress, acc.reverse :: names, unresolved, before⟩, .afterName,
      ⟨rfl, rfl, fun _ h => List.mem_cons_of_mem _ h, id⟩, trivial, ?_, by simp, by simp⟩
    simp only [step, hword, Bool.false_eq_true, if_false]
    exact hafter _
  | line => simp [Rests] at hs
  | _ => exact hs.elim

/-- A blank at which the scan loses sight of a label expression. -/
theorem along_oddBlank {s : Scan} {c : Char} {after : Text} (hs : Rests W (c :: after) s.mode)
    (hspace : Python.isSpace c = true) (hc : isPlainBlank c = false) :
    ∃ s', s.Extends s' ∧ s.along W [c] after = s'.past .code [c] := by
  have hne : ∀ d : Char, Python.isSpace d = false → c ≠ d := by
    rintro d hd rfl
    rw [hd] at hspace
    cases hspace
  obtain ⟨s', hs', hstep⟩ := step_main c after hs
    ⟨W.space c hspace, hc, by simp [hne '|' (by decide), hne '&' (by decide)]⟩
    fun h => absurd h (hne '`' (by decide))
  refine ⟨s', hs', ?_⟩
  rw [along_cons, List.nil_append, along, hstep]
  exact stepCode_ordinary s' (fun h => hne '/' (by decide) h.1) (not_special_of_isSpace hspace)

/-! ### The scan beside the tokens -/

/-- What the scan has to know between two tokens, of which the second begins with `after`. -/
structure Between (W : WordClass) (s : Scan) (v : View) (after : Text) : Prop where
  mode : Rests W after s.mode
  suppress : s.suppress = v.suppress
  before : s.before = v.before
  operand : v.sight = .operand → s.unresolved = true ∨ s.mode = .label
  operator : v.sight = .operator →
    s.unresolved = true ∨ s.mode = .afterName ∨ ∃ acc, s.mode = .labelWord acc

theorem Between.init (W : WordClass) (after : Text) : Scan.init.Between W .init after :=
  ⟨trivial, rfl, rfl, by simp [View.init], by simp [View.init]⟩

/-- Over a token that is no brace, the states keep in step if its place in a label expression is
understood. -/
theorem Between.of_past {s s' : Scan} {v : View} {t : Token} {after : Text} {mode : ScanMode}
    (hs : s.Between W v (t.render ++ after)) (hs' : s.Extends s')
    (halong : s.along W t.render after = s'.past mode t.render)
    (hsuppress : (v.step W t after).suppress = v.suppress) (hmode : Rests W after mode)
    (hoperand : v.sightAfter t = .operand → s'.unresolved = true ∨ mode = .label)
    (hoperator : v.sightAfter t = .operator →
      s'.unresolved = true ∨ mode = .afterName ∨ ∃ acc, mode = .labelWord acc) :
    (s.along W t.render after).Between W (v.step W t after) after := by
  rw [halong]
  refine ⟨hmode, ?_, ?_, hoperand, hoperator⟩
  · rw [past_suppress, hs'.suppress, hs.suppress, hsuppress]
  · simp only [past, View.step, hs'.before, hs.before]

/-- A blank between tokens. -/
theorem Between.along_blank {s : Scan} {v : View} {b : Blank} {after : Text}
    (hs : s.Between W v ((Token.blank b).render ++ after))
    (hb : (Token.blank b).lexes W after = true) :
    (s.along W (Token.blank b).render after).Between W (v.step W (.blank b) after) after := by
  by_cases hspace : ∃ c, b = .space c
  · obtain ⟨c, rfl⟩ := hspace
    by_cases hplain : isPlainBlank c = true
    · obtain ⟨s', mode, hs', hmode, halong, hlabel, hafter⟩ := along_plainBlank hs.mode hplain
      have hsight : v.sightAfter (.blank (.space c)) = v.sight := if_pos hplain
      exact hs.of_past hs' halong rfl hmode
        (fun h => (hs.operand (hsight ▸ h)).imp hs'.unresolved hlabel)
        fun h => (hs.operator (hsight ▸ h)).imp hs'.unresolved fun h => Or.inl (hafter h)
    · obtain ⟨s', hs', halong⟩ := along_oddBlank hs.mode hb (by simpa using hplain)
      have hsight : v.sightAfter (.blank (.space c)) = .none := if_neg hplain
      exact hs.of_past hs' halong rfl trivial (by simp [hsight]) (by simp [hsight])
  · push Not at hspace
    obtain ⟨s', mode, hs', hmode, -, halong⟩ := along_comment hs.mode hb hspace
    have hsight : v.sightAfter (.blank b) = .none := by
      cases b with
      | space c => exact absurd rfl (hspace c)
      | _ => rfl
    exact hs.of_past hs' halong rfl hmode (by simp [hsight]) (by simp [hsight])

/-- A colon begins a label for the scan, unless it stands directly inside a map. -/
theorem Between.along_colon {s : Scan} {v : View} {t : Token} {after : Text}
    (hs : s.Between W v (t.render ++ after)) (ht : t.render = [':'])
    (hsuppress : (v.step W t after).suppress = v.suppress)
    (hoperand : v.sightAfter t = .operand → v.suppress.headD false = false)
    (hoperator : v.sightAfter t ≠ .operator) :
    (s.along W t.render after).Between W (v.step W t after) after := by
  rw [ht] at hs
  obtain ⟨s', hs', hstep⟩ := step_main ':' after hs.mode (isMain_of_mem (by simp)) (by simp)
  have hlevel : s'.suppressed = v.suppress.headD false := by
    rw [suppressed, hs'.suppress, hs.suppress]
  have halong : s.along W t.render after =
      s'.past (if v.suppress.headD false then .code else .label) t.render := by
    rw [ht, along_cons, List.nil_append, along, hstep]
    simp only [stepCode, hlevel, past]
    cases v.suppress.headD false <;> simp
  refine Between.of_past (by rwa [ht]) hs' halong hsuppress ?_ (fun h => Or.inr ?_)
    fun h => absurd h hoperator
  · split_ifs <;> trivial
  · rw [hoperand h, if_neg Bool.false_ne_true]

/-- A symbol between tokens. -/
theorem Between.along_sym {s : Scan} {v : View} {c : Char} {after : Text}
    (hs : s.Between W v ((Token.sym c).render ++ after))
    (hc : isSymbol W c after = true) :
    (s.along W (Token.sym c).render after).Between W (v.step W (.sym c) after) after := by
  obtain ⟨s', mode, hs', hmode, hstep, hbar⟩ := step_sym hs.mode hc
  have halong : s.along W (Token.sym c).render after =
      { s' with suppress := bracesAfter W s.suppress s.before c after }.past mode [c] := hstep
  rw [halong]
  refine ⟨?_, ?_, ?_, fun h => ?_, fun h => ?_⟩
  · rcases hmode with rfl | rfl <;> trivial
  · simp only [past_suppress, View.step, hs.suppress, hs.before]
  · simp only [past, View.step, hs'.before, hs.before]
    rfl
  · simp only [View.step, View.sightAfter] at h
    split_ifs at h with hv
    exact (hs.operator hv.1).imp hs'.unresolved fun hafter => hbar hafter hv.2
  · simp only [View.step, View.sightAfter] at h
    split_ifs at h

/-- **One token**: the scan and the view of it keep in step. -/
theorem Between.along_token {s : Scan} {v : View} {t : Token} {after : Text}
    (hs : s.Between W v (t.render ++ after)) (ht : t.lexes W after = true) :
    (s.along W t.render after).Between W (v.step W t after) after := by
  cases t with
  | blank b => exact hs.along_blank ht
  | str quote body =>
    obtain ⟨s', hs', halong⟩ := along_string hs.mode ht
    exact hs.of_past hs' halong rfl trivial (by simp [View.sightAfter]) (by simp [View.sightAfter])
  | name n =>
    obtain ⟨s', mode, hs', hmode, halong, -⟩ := along_name hs.mode ht
    exact hs.of_past hs' halong rfl hmode (by simp [View.sightAfter]) (by simp [View.sightAfter])
  | labelName n =>
    obtain ⟨s', mode, hs', hmode, halong, hfound⟩ := along_name hs.mode ht
    refine hs.of_past hs' halong rfl hmode ?_ fun h => ?_
    · simp only [View.sightAfter]
      split_ifs <;> simp
    · simp only [View.sightAfter] at h
      split_ifs at h with hv
      exact (hs.operand hv.1).imp hs'.unresolved fun hlabel => (hfound hlabel hv.2).1
  | sym c => exact hs.along_sym ht
  | colon => exact hs.along_colon rfl rfl (by simp [View.sightAfter]) (by simp [View.sightAfter])
  | labelColon =>
    refine hs.along_colon rfl rfl (fun h => ?_) fun h => ?_
    · simp only [View.sightAfter] at h
      split_ifs at h with hv
      simpa using hv
    · simp only [View.sightAfter] at h
      split_ifs at h

/-! ### A whole query -/

theorem names_subset_finish (s : Scan) : s.names ⊆ s.finish.1 := by
  intro name hname
  unfold finish
  split <;> first | exact hname | exact List.mem_cons_of_mem _ hname

theorem finish_unresolved {s : Scan} (hs : s.unresolved = true) : s.finish.2 = true := by
  unfold finish
  split <;> first | rfl | exact hs

theorem run_names (s : Scan) (text : Text) : s.names ⊆ (s.run W text).names := by
  induction text generalizing s with
  | nil => exact fun _ h => h
  | cons c text ih => exact fun _ h => ih _ (s.step_names c _ h)

theorem run_unresolved {s : Scan} (hs : s.unresolved = true) (text : Text) :
    (s.run W text).unresolved = true := by
  induction text generalizing s with
  | nil => exact hs
  | cons c text ih => exact ih (s.step_unresolved c _ hs)

/-- What the scan has found at the end of a token is among its final names. -/
theorem committed_subset_finish {s : Scan} {text : Text} (hs : Rests W text s.mode) :
    s.committed ⊆ (s.run W text).finish.1 := by
  intro name hname
  cases text with
  | nil =>
    cases hmode : s.mode with
    | labelTick acc => rw [hmode] at hs; exact hs.elim
    | _ => simpa [committed, run, finish, hmode] using hname
  | cons c text =>
    exact names_subset_finish _ (run_names _ text (committed_step hs hname))

/-- **A whole query**: unless the scan gives a colon up, every label of the query is hidden from it
or among its names. -/
theorem Between.sees {s : Scan} {v : View} {q : List Token} (hs : s.Between W v (render q))
    (hq : wellLexed W q = true) :
    (s.run W (render q)).finish.2 = true ∨
      ∀ n ∈ labelNames q, n ∈ hiddenLabels W v q ∨ n ∈ (s.run W (render q)).finish.1 := by
  induction q generalizing s v with
  | nil => exact Or.inr (by simp [labelNames])
  | cons t q ih =>
    simp only [wellLexed, Bool.and_eq_true] at hq
    rw [render_cons] at hs ⊢
    rw [run_append]
    have hnext := hs.along_token hq.1
    rcases ih hnext hq.2 with hgiven | hlater
    · exact Or.inl hgiven
    cases t with
    | labelName n =>
      by_cases hv : v.sight = .operand ∧ n.cut = false
      · have hfound : (s.along W n.render (render q)).unresolved = true ∨
            n.text ∈ (s.along W n.render (render q)).committed := by
          obtain ⟨s', mode, hs', -, halong, hfound⟩ := along_name hs.mode hq.1
          rw [halong]
          exact (hs.operand hv.1).imp hs'.unresolved fun hlabel => (hfound hlabel hv.2).2
        rcases hfound with hgiven | hfound
        · exact Or.inl (finish_unresolved (run_unresolved hgiven _))
        · refine Or.inr fun name hname => ?_
          simp only [labelNames, hiddenLabels, if_pos hv, List.mem_cons] at hname ⊢
          rcases hname with rfl | hname
          · exact Or.inr (committed_subset_finish hnext.mode hfound)
          · exact hlater name hname
      · refine Or.inr fun name hname => ?_
        simp only [labelNames, hiddenLabels, if_neg hv, List.mem_cons] at hname ⊢
        rcases hname with rfl | hname
        · exact Or.inl (Or.inl rfl)
        · exact (hlater name hname).imp_left Or.inr
    | _ => exact Or.inr hlater

end Scan

/-! ### The guard and the labels of a query -/

/-- The labels hidden from the scan are labels of the query. -/
theorem hiddenLabels_subset (W : WordClass) (v : View) (q : List Token) :
    hiddenLabels W v q ⊆ labelNames q := by
  induction q generalizing v with
  | nil => exact fun _ h => h
  | cons t q ih =>
    cases t with
    | labelName n =>
      intro name hname
      simp only [hiddenLabels] at hname
      split_ifs at hname
      · exact List.mem_cons_of_mem _ (ih _ hname)
      · rcases List.mem_cons.1 hname with rfl | hname
        · exact List.mem_cons_self
        · exact List.mem_cons_of_mem _ (ih _ hname)
    | _ => exact ih _

/-- A query whose only label is in sight. -/
def labelInSight : List Token :=
  [.name (.plain "MATCH".toList), .blank (.space ' '), .sym '(', .name (.plain "p".toList),
    .labelColon, .labelName (.plain "Product".toList), .sym ')', .blank (.space ' '),
    .name (.plain "RETURN".toList), .blank (.space ' '), .sym '{', .name (.plain "n".toList),
    .colon, .blank (.space ' '), .name (.plain "p".toList), .sym '.',
    .name (.plain "name".toList), .sym '}']

/-- A query with a pattern comprehension as a map value: the scan takes the colons directly inside
the braces for map keys, and never sees the label `Secret`. -/
def labelInMap : List Token :=
  [.name (.plain "MATCH".toList), .blank (.space ' '), .sym '(', .name (.plain "p".toList),
    .labelColon, .labelName (.plain "Product".toList), .sym ')', .blank (.space ' '),
    .name (.plain "RETURN".toList), .blank (.space ' '), .sym '{', .name (.plain "a".toList),
    .colon, .blank (.space ' '), .sym '[', .sym '(', .name (.plain "p".toList), .sym ')',
    .sym '<', .sym '-', .sym '[', .labelColon, .labelName (.plain "SUPPLIES".toList), .sym ']',
    .sym '-', .sym '(', .name (.plain "s".toList), .labelColon,
    .labelName (.plain "Secret".toList), .sym ')', .blank (.space ' '), .sym '|',
    .blank (.space ' '), .name (.plain "s".toList), .sym '.', .name (.plain "name".toList),
    .sym ']', .sym '}']

example : render labelInMap =
    "MATCH (p:Product) RETURN {a: [(p)<-[:SUPPLIES]-(s:Secret) | s.name]}".toList := by
  decide +kernel

end Guards
