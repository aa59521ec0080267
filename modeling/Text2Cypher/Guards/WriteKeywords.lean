import Text2Cypher.Guards.CypherGuard

/-!
# When the Cypher guard sees the write keywords

In Cypher `--` is a relationship and a backquoted name knows no escape but the doubled backtick.
The mask shared with SQL reads both differently (`maskReading`), so the guard's answer is exact for
the mask's reading of a query, not for Cypher's.

* `reasonCode_iff_maskReading`: the guard answers `WRITE_KEYWORD_DETECTED` exactly when a write
  keyword stands in code in the mask's reading;
* `writeKeyword_guard_exact_iff`: when that is the same as standing in code in Cypher's reading.
-/

namespace Guards

open Reading WholeWords

/-- Cypher's lexical rules: a backslash escapes inside `'…'` and `"…"`, a doubled backtick inside a
backquoted name, and there is no `--` comment. -/
def cypherReading : Dialect where
  dashComment := false
  escapes q := q != '`'
  doubles q := q == '`'

/-- A write keyword occurs as a whole word of the text, in code. -/
def WriteKeywordInCode (W : WordClass) (d : Dialect) (text : Text) : Prop :=
  ∃ word ∈ codeWords W.isWord d text, isWriteKeyword word = true

/-- A write keyword occurs as a whole word that stands in code for Cypher iff `inCypher`, and for
the mask iff `inMask`. -/
def WriteKeywordRead (W : WordClass) (inCypher inMask : Bool) (text : Text) : Prop :=
  ∃ word ∈ wordsBoth W.isWord cypherReading maskReading text,
    word.all (fun x => x.2.1) = inCypher ∧ word.all (fun x => x.2.2) = inMask ∧
      isWriteKeyword (word.map Prod.fst) = true

/-- The two readings of the text do not disagree about write keywords: one stands in code for both,
or one that only Cypher sees comes with one that only the mask sees. -/
def ReadingsAgree (W : WordClass) (text : Text) : Prop :=
  WriteKeywordRead W true true text ∨
    (WriteKeywordRead W true false text ↔ WriteKeywordRead W false true text)

theorem isWord_of_isDelimiter (W : WordClass) (c : Char) (h : isDelimiter c = true) :
    W.isWord c = false := by
  simp only [isDelimiter, isQuote, isBreak, Bool.or_eq_true, beq_iff_eq] at h
  rcases h with (((((rfl | rfl) | rfl) | rfl | rfl) | rfl) | rfl) <;>
    exact (W.ascii _ (by decide)).trans (by decide)

theorem isWord_blank (W : WordClass) : W.isWord ' ' = false :=
  (W.ascii _ (by decide)).trans (by decide)

/-- The guard's answer is exact for the mask's reading. -/
theorem reasonCode_iff_maskReading (W : WordClass) (graphSchema : GraphSchema) (cypher : Text) :
    (makeCypherGuard W graphSchema cypher).reasonCode = some "WRITE_KEYWORD_DETECTED" ↔
      WriteKeywordInCode W maskReading cypher := by
  rw [reasonCode_makeCypherGuard_iff, WriteKeywordInCode,
    codeWords_eq (isWord_of_isDelimiter W) (isWord_blank W), wholeWords, wholeWords, maskQueryText,
    runs_maskFrom (isWord_of_isDelimiter W) (isWord_blank W)]
  rfl

theorem writeKeywordInCode_cypher_iff (W : WordClass) (text : Text) :
    WriteKeywordInCode W cypherReading text ↔
      WriteKeywordRead W true true text ∨ WriteKeywordRead W true false text := by
  rw [WriteKeywordInCode, exists_codeWord_left W.isWord cypherReading maskReading]
  constructor
  · rintro ⟨w, hw, hc, hk⟩
    cases hm : w.all (fun x => x.2.2) with
    | true => exact Or.inl ⟨w, hw, hc, hm, hk⟩
    | false => exact Or.inr ⟨w, hw, hc, hm, hk⟩
  · rintro (⟨w, hw, hc, -, hk⟩ | ⟨w, hw, hc, -, hk⟩) <;> exact ⟨w, hw, hc, hk⟩

theorem writeKeywordInCode_mask_iff (W : WordClass) (text : Text) :
    WriteKeywordInCode W maskReading text ↔
      WriteKeywordRead W true true text ∨ WriteKeywordRead W false true text := by
  rw [WriteKeywordInCode, exists_codeWord_right W.isWord cypherReading maskReading]
  constructor
  · rintro ⟨w, hw, hm, hk⟩
    cases hc : w.all (fun x => x.2.1) with
    | true => exact Or.inl ⟨w, hw, hc, hm, hk⟩
    | false => exact Or.inr ⟨w, hw, hc, hm, hk⟩
  · rintro (⟨w, hw, -, hm, hk⟩ | ⟨w, hw, -, hm, hk⟩) <;> exact ⟨w, hw, hm, hk⟩

/-! ### Texts on which the readings cannot part -/

/-- From the mode `m` on, no `--` stands in code, and inside a backquoted name no backslash stands
directly before a backtick. -/
def clear (m : Mode) : Text → Bool
  | [] => true
  | c :: rest =>
      !(m == .code && c == '-' && rest.head? == some '-') &&
        !(m == .quoted '`' && c == '\\' && rest.head? == some '`') &&
        clear (step cypherReading m c rest.head?) rest

theorem clear_cons {m : Mode} {c : Char} {rest : Text} (h : clear m (c :: rest) = true) :
    (m = .code → ¬ (c = '-' ∧ rest.head? = some '-')) ∧
      (m = .quoted '`' → c = '\\' → rest.head? ≠ some '`') ∧
      clear (step cypherReading m c rest.head?) rest = true := by
  simp only [clear, Bool.and_eq_true, Bool.not_eq_true', Bool.and_eq_false_iff, beq_eq_false_iff_ne]
    at h
  obtain ⟨⟨hdash, htick⟩, hrest⟩ := h
  exact ⟨by tauto, by tauto, hrest⟩

/-- The modes of Cypher's reading and of the mask's on a clear text: they differ only between the
two characters of a doubled quote, which Cypher takes for an end and a new beginning, and behind a
backslash in a backquoted name, which protects no backtick. -/
inductive Abreast (text : Text) : Mode → Mode → Prop
  | same (m : Mode) (hat : m.At text) : Abreast text m m
  | doubled (q : Char) (hq : isQuote q = true) (hd : text.head? = some q) :
      Abreast text .code (.protect q)
  | inName (hd : text.head? ≠ some '`') : Abreast text (.quoted '`') (.protect '`')

theorem Abreast.step {c : Char} {text : Text} {m₁ m₂ : Mode} (h : Abreast (c :: text) m₁ m₂)
    (hp : clear m₁ (c :: text) = true) :
    Abreast text (step cypherReading m₁ c text.head?) (step maskReading m₂ c text.head?) := by
  obtain ⟨hdash, htick, -⟩ := clear_cons hp
  have hsame : ∀ {m : Mode}, m.At (c :: text) →
      Reading.step cypherReading m c text.head? = Reading.step maskReading m c text.head? →
      Abreast text (Reading.step cypherReading m c text.head?)
        (Reading.step maskReading m c text.head?) := fun hat heq => heq ▸ .same _ hat.step
  cases h with
  | doubled q hq hd =>
    simp only [List.head?_cons, Option.some.injEq] at hd
    subst hd
    have hne : c ≠ '-' ∧ c ≠ '/' := by
      simp only [isQuote, Bool.or_eq_true, beq_iff_eq] at hq
      rcases hq with (rfl | rfl) | rfl <;> decide
    simp only [Reading.step, hne, hq, false_and, if_false, if_true]
    exact .same _ hq
  | inName hd =>
    simp only [List.head?_cons, ne_eq, Option.some.injEq] at hd
    simp only [Reading.step, hd, cypherReading, if_false, bne_self_eq_false, Bool.false_eq_true,
      and_false]
    exact .same _ rfl
  | same _ hat =>
    cases m₁ with
    | code =>
      exact hsame hat (by
        rw [step_code_of_not_dashes _ (hdash rfl), step_code_of_not_dashes _ (hdash rfl)])
    | quoted q =>
      by_cases hc : c = q
      · subst hc
        by_cases hd : text.head? = some c ∧ c ≠ '`'
        · simp only [Reading.step, hd, maskReading, cypherReading, if_true, beq_iff_eq, and_self]
          exact .doubled c hat hd.1
        · refine hsame hat ?_
          simp only [Reading.step, maskReading, cypherReading, if_true, beq_iff_eq, and_true]
          by_cases hn : text.head? = some c <;> simp_all
      · by_cases hb : c = '\\' ∧ text.head?.isSome = true ∧ q = '`'
        · obtain ⟨rfl, hsome, rfl⟩ := hb
          simp only [Reading.step, maskReading, cypherReading, hsome, hc, bne_self_eq_false, if_true,
            if_false, Bool.false_eq_true, and_false, and_self]
          exact .inName (htick rfl rfl)
        · refine hsame hat ?_
          simp only [Reading.step, maskReading, cypherReading, hc, if_false, bne_iff_ne, ne_eq,
            and_true]
          by_cases h1 : c = '\\' ∧ text.head?.isSome = true
          · have hq : q ≠ '`' := fun hq => hb ⟨h1.1, h1.2, hq⟩
            simp [h1, hq]
          · rw [if_neg (fun h => h1 ⟨h.1, h.2.1⟩), if_neg h1]
    | line => exact hsame hat rfl
    | blockOpen => exact hsame hat rfl
    | block => exact hsame hat rfl
    | blockClose => exact hsame hat rfl
    | protect q => exact hsame hat rfl

/-- Abreast modes hide the same character. -/
theorem Abreast.flag_eq {c : Char} {text : Text} {m₁ m₂ : Mode} (h : Abreast (c :: text) m₁ m₂)
    (hp : clear m₁ (c :: text) = true) :
    (m₁ = .code ∧ Reading.step cypherReading m₁ c text.head? = .code) ↔
      (m₂ = .code ∧ Reading.step maskReading m₂ c text.head? = .code) := by
  cases h with
  | doubled q hq hd =>
    simp only [List.head?_cons, Option.some.injEq] at hd
    subst hd
    have hne : c ≠ '-' ∧ c ≠ '/' := by
      simp only [isQuote, Bool.or_eq_true, beq_iff_eq] at hq
      rcases hq with (rfl | rfl) | rfl <;> decide
    simp [Reading.step, hne, hq]
  | inName hd => simp
  | same _ hat =>
    refine and_congr_right fun hm => ?_
    subst hm
    have hdash := (clear_cons hp).1 rfl
    rw [step_code_of_not_dashes _ hdash, step_code_of_not_dashes _ hdash]

/-- The two readings of a clear text are the same. -/
theorem read_cypher_eq_mask {text : Text} {m₁ m₂ : Mode} (h : Abreast text m₁ m₂)
    (hp : clear m₁ text = true) :
    Reading.read cypherReading m₁ text = Reading.read maskReading m₂ text := by
  induction text generalizing m₁ m₂ with
  | nil => rfl
  | cons c text ih =>
    rw [read_cons, read_cons, ih (h.step hp) (clear_cons hp).2.2]
    simp only [h.flag_eq hp]

theorem readingsAgree_of_clear (W : WordClass) {text : Text} (hp : clear .code text = true) :
    ReadingsAgree W text := by
  have h : WriteKeywordInCode W maskReading text ↔ WriteKeywordInCode W cypherReading text := by
    rw [WriteKeywordInCode, WriteKeywordInCode, codeWords, codeWords,
      read_cypher_eq_mask (.same .code trivial) hp]
  rw [writeKeywordInCode_mask_iff, writeKeywordInCode_cypher_iff] at h
  unfold ReadingsAgree
  tauto

/-! ### The guard and Cypher's reading -/

/-- **The write keyword guard is exact for Cypher's reading exactly on the texts whose two readings
agree**, clear texts among them. -/
theorem writeKeyword_guard_exact_iff (W : WordClass) (graphSchema : GraphSchema) (cypher : Text) :
    (((makeCypherGuard W graphSchema cypher).reasonCode = some "WRITE_KEYWORD_DETECTED" ↔
        WriteKeywordInCode W cypherReading cypher) ↔ ReadingsAgree W cypher) ∧
      (clear .code cypher = true → ReadingsAgree W cypher) := by
  refine ⟨?_, readingsAgree_of_clear W⟩
  rw [reasonCode_iff_maskReading, writeKeywordInCode_mask_iff, writeKeywordInCode_cypher_iff]
  unfold ReadingsAgree
  tauto

theorem writeKeyword_guard_exact_match :
    ReadingsAgree .asciiOnly "MATCH (p) WHERE p.name = 'a -- b' RETURN p".toList :=
  (writeKeyword_guard_exact_iff .asciiOnly ⟨[], []⟩ _).2 (by decide +kernel)

/-- `--` hides the rest of the line from the mask, and a `DELETE` there passes the guard. -/
theorem writeKeyword_guard_not_exact :
    ¬ ∀ (W : WordClass) (graphSchema : GraphSchema) (cypher : Text),
      (makeCypherGuard W graphSchema cypher).reasonCode = some "WRITE_KEYWORD_DETECTED" ↔
        WriteKeywordInCode W cypherReading cypher := by
  intro h
  have h1 := (h .asciiOnly ⟨[], []⟩ "MATCH (a)--(b) DETACH DELETE b".toList).2 (by
    refine ⟨"DELETE".toList, ?_, ?_⟩ <;> decide +kernel)
  revert h1
  decide +kernel

end Guards
