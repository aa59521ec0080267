import Mathlib.Data.List.Sort
import Mathlib.Data.List.TakeWhile
import Text2Cypher.Evaluation.Postgres
import Text2Cypher.Guards.Shared
import Text2Cypher.Library.Checks
import Text2Cypher.Library.DecimalText

/-!
# The safety check of evaluated queries

Queries are checked on the masked text: one statement, a reading first word, and no write keyword.

* `validateReadOnlySql`, `validateReadOnlyCypher`: the checks;
* `validateSingleStatement_eq_ok`: what the first of them finds, in terms of what the mask's reading
  shows.
-/

namespace Evaluation

open Guards Python WholeWords

/-- `str.upper`, character by character. -/
structure UpperCase where
  upper : Char → Text
  ascii : ∀ c : Char, c.toNat < 128 → upper c = [c.toUpper]
  space : ∀ c : Char, isSpace c = true → upper c = [c]

/-- The characters of `[A-Za-z_]`. -/
def isTokenChar (c : Char) : Bool := c.isAlpha || c == '_'

/-- `re.findall(r"[A-Za-z_]+", s.upper())`. -/
def tokens (u : UpperCase) (s : Text) : List Text := wholeWords isTokenChar (s.flatMap u.upper)

/-- `str.rstrip`. -/
def rstripSpace (s : Text) : Text := (s.reverse.dropWhile isSpace).reverse

/-- The masked text without a semicolon at its end. -/
def statementText (query : Text) : Text :=
  let masked := strip (maskQueryText query)
  if masked.getLast? = some ';' then rstripSpace masked.dropLast else masked

/-- `_validate_single_statement`: the first token, and all of them. -/
def validateSingleStatement (u : UpperCase) (query : Text) : Except String (Text × List Text) :=
  if strip query = [] then .error "쿼리가 비어 있습니다."
  else if '\x00' ∈ query then .error "쿼리에 NUL 문자가 있습니다."
  else if ';' ∈ statementText query then .error "다중 문장은 실행할 수 없습니다."
  else
    match tokens u (statementText query) with
    | [] => .error "쿼리에서 문장을 찾을 수 없습니다."
    | first :: rest => .ok (first, first :: rest)

/-- The keywords of a list that occur, in the order of `sorted`. -/
def forbiddenKeywords (keywords : List String) (found : List Text) : List String :=
  (keywords.filter fun keyword => keyword.toList ∈ found).insertionSort (· ≤ ·)

def sqlStart : List String := ["SELECT", "WITH"]

def cypherStart : List String := ["MATCH", "OPTIONAL", "RETURN", "UNWIND", "WITH"]

/-- The common part of the two checks. -/
def validateReadOnly (u : UpperCase) (start : List String) (keywords : List String)
    (wrongStart forbidden : String) (query : Text) : Except String Unit := do
  let (first, found) ← validateSingleStatement u query
  if first ∉ start.map String.toList then .error wrongStart
  else
    match forbiddenKeywords keywords found with
    | [] => .ok ()
    | keyword :: _ => .error (forbidden ++ keyword)

/-- `validate_read_only_sql`. -/
def validateReadOnlySql (u : UpperCase) (query : Text) : Except String Unit :=
  validateReadOnly u sqlStart sqlWriteKeywords "SQL은 SELECT 또는 WITH로 시작해야 합니다."
    "SQL 쓰기/관리 키워드가 포함됐습니다: " query

/-- `validate_read_only_cypher`. -/
def validateReadOnlyCypher (u : UpperCase) (query : Text) : Except String Unit :=
  validateReadOnly u cypherStart cypherWriteKeywords "Cypher는 읽기 clause로 시작해야 합니다."
    "Cypher 쓰기/프로시저 키워드가 포함됐습니다: " query

/-- What the mask's reading shows of a query. -/
def maskShown (query : Text) : Text :=
  Reading.shown (Reading.read maskReading .code query)

/-- What a check looks for, in what the mask's reading shows: a semicolon has only blanks behind it,
the first token is one to start with, and no token is a keyword. -/
structure Passes (u : UpperCase) (start keywords : List String) (query : Text) : Prop where
  nonblank : strip query ≠ []
  noNul : '\x00' ∉ query
  single : ∀ before after, maskShown query = before ++ ';' :: after → ∀ c ∈ after, isSpace c = true
  first : ∃ word ∈ start, (tokens u (maskShown query)).head? = some word.toList
  readOnly : ∀ word ∈ keywords, word.toList ∉ tokens u (maskShown query)

/-! ### What is left of the mask -/

/-- A semicolon has only blanks behind it. -/
def Single (s : Text) : Prop :=
  ∀ before after, s = before ++ ';' :: after → ∀ c ∈ after, isSpace c = true

/-- The text without its blanks. -/
def solid (s : Text) : Text := s.filter fun c => !isSpace c

/-- Semicolons stand at the end of what is solid. -/
theorem single_iff (s : Text) : Single s ↔ ';' ∉ (solid s).dropLast := by
  constructor
  · intro h hmem
    have hne : solid s ≠ [] := by
      intro hnil
      rw [hnil] at hmem
      cases hmem
    obtain ⟨a, b, hab⟩ := List.append_of_mem hmem
    have hsolid : solid s = a ++ ';' :: (b ++ [(solid s).getLast hne]) := by
      conv_lhs => rw [← List.dropLast_concat_getLast hne, hab]
      rw [List.append_assoc, List.cons_append]
    obtain ⟨s₁, s₂, rfl, -, hs₂⟩ := List.filter_eq_append_iff.1 hsolid
    obtain ⟨s₃, s₄, rfl, -, -, hs₄⟩ := List.filter_eq_cons_iff.1 hs₂
    have hlast : (solid (s₁ ++ (s₃ ++ ';' :: s₄))).getLast hne ∈ s₄.filter fun c => !isSpace c := by
      rw [hs₄]
      exact List.mem_append_right _ (List.mem_singleton_self _)
    obtain ⟨hmem₄, hnot⟩ := List.mem_filter.1 hlast
    have hspace := h (s₁ ++ s₃) s₄ (by rw [List.append_assoc]) _ hmem₄
    rw [hspace] at hnot
    cases hnot
  · rintro h before after rfl c hc
    by_contra hspace
    have hafter : solid after ≠ [] := List.ne_nil_of_mem (List.mem_filter.2 ⟨hc, by simp [hspace]⟩)
    apply h
    have hsolid : solid (before ++ ';' :: after) = solid before ++ ';' :: solid after := by
      rw [solid, List.filter_append, List.filter_cons_of_pos (by decide)]
      rfl
    rw [hsolid, List.dropLast_append_of_ne_nil (List.cons_ne_nil _ _),
      List.dropLast_cons_of_ne_nil hafter]
    exact List.mem_append_right _ List.mem_cons_self

/-- `str.strip` and `str.rstrip` cut off blanks. -/
theorem exists_rstripSpace (s : Text) :
    ∃ blanks, s = rstripSpace s ++ blanks ∧ (∀ c ∈ blanks, isSpace c = true) ∧
      ∀ c ∈ (rstripSpace s).getLast?, isSpace c = false := by
  refine ⟨(s.reverse.takeWhile isSpace).reverse, ?_, fun c hc => ?_, fun c hc => ?_⟩
  · rw [rstripSpace, ← List.reverse_append, List.takeWhile_append_dropWhile, List.reverse_reverse]
  · exact List.mem_takeWhile_imp (List.mem_reverse.1 hc)
  · rw [rstripSpace, List.getLast?_reverse] at hc
    have hnot := List.head?_dropWhile_not isSpace s.reverse
    rw [hc] at hnot
    exact hnot

theorem exists_strip (s : Text) :
    ∃ blanks blanks', s = blanks ++ (strip s ++ blanks') ∧ (∀ c ∈ blanks, isSpace c = true) ∧
      (∀ c ∈ blanks', isSpace c = true) ∧ ∀ c ∈ (strip s).getLast?, isSpace c = false := by
  obtain ⟨blanks, heq, hblanks, hlast⟩ := exists_rstripSpace (s.dropWhile isSpace)
  refine ⟨s.takeWhile isSpace, blanks, ?_, fun c hc => List.mem_takeWhile_imp hc, hblanks, hlast⟩
  show s = s.takeWhile isSpace ++ (rstripSpace (s.dropWhile isSpace) ++ blanks)
  rw [← heq, List.takeWhile_append_dropWhile]

theorem solid_eq_nil {blanks : Text} (h : ∀ c ∈ blanks, isSpace c = true) : solid blanks = [] :=
  List.filter_eq_nil_iff.2 fun c hc => by simp [h c hc]

theorem solid_append (s t : Text) : solid (s ++ t) = solid s ++ solid t := List.filter_append _ _

/-- The statement and what is cut off it: blanks, and a semicolon if that is the last solid
character. -/
theorem statementText_spec (query : Text) :
    ∃ before after, maskQueryText query = before ++ (statementText query ++ after) ∧
      (∀ c ∈ before, isSpace c = true) ∧
      ((∀ c ∈ after, isSpace c = true) ∧ (∀ c ∈ (solid (statementText query)).getLast?, c ≠ ';') ∨
        solid after = [';'] ∧ ∀ c ∈ after, isSpace c = true ∨ c = ';') := by
  obtain ⟨blanks, blanks', heq, hblanks, hblanks', hlast⟩ := exists_strip (maskQueryText query)
  by_cases hsemicolon : (strip (maskQueryText query)).getLast? = some ';'
  · have htext : statementText query = rstripSpace (strip (maskQueryText query)).dropLast :=
      if_pos hsemicolon
    obtain ⟨cut, hcut, hspaces, -⟩ := exists_rstripSpace (strip (maskQueryText query)).dropLast
    refine ⟨blanks, cut ++ ';' :: blanks', ?_, hblanks, Or.inr ⟨?_, ?_⟩⟩
    · have hstrip : rstripSpace (strip (maskQueryText query)).dropLast ++ cut ++ [';'] =
          strip (maskQueryText query) := by
        rw [← hcut]
        exact List.dropLast_append_getLast? ';' hsemicolon
      rw [htext]
      conv_lhs => rw [heq, ← hstrip]
      simp only [List.append_assoc, List.singleton_append]
    · have hcons : solid (';' :: blanks') = ';' :: solid blanks' :=
        List.filter_cons_of_pos (by decide)
      rw [solid_append, solid_eq_nil hspaces, hcons, solid_eq_nil hblanks', List.nil_append]
    · intro c hc
      rcases List.mem_append.1 hc with hc | hc
      · exact Or.inl (hspaces c hc)
      rcases List.mem_cons.1 hc with rfl | hc
      · exact Or.inr rfl
      · exact Or.inl (hblanks' c hc)
  · have htext : statementText query = strip (maskQueryText query) := if_neg hsemicolon
    rw [htext]
    refine ⟨blanks, blanks', heq, hblanks, Or.inl ⟨hblanks', ?_⟩⟩
    cases hcases : (strip (maskQueryText query)).getLast? with
    | none =>
      rw [List.getLast?_eq_none_iff.1 hcases]
      simp [solid]
    | some d =>
      have hsolid : solid (strip (maskQueryText query)) =
          solid (strip (maskQueryText query)).dropLast ++ [d] := by
        conv_lhs => rw [← List.dropLast_append_getLast? d hcases, solid_append]
        congr 1
        exact List.filter_cons_of_pos (by simp [hlast d hcases])
      rw [hsolid, List.getLast?_concat]
      rintro c hc rfl
      exact hsemicolon (hcases.trans hc)

theorem mem_statementText_iff (query : Text) :
    ';' ∈ statementText query ↔ ¬ Single (maskQueryText query) := by
  obtain ⟨before, after, heq, hbefore, hafter⟩ := statementText_spec query
  have hsolid : ';' ∈ statementText query ↔ ';' ∈ solid (statementText query) := by
    rw [solid, List.mem_filter]
    exact (and_iff_left (by decide)).symm
  rw [single_iff, not_not, heq, solid_append, solid_append, solid_eq_nil hbefore, List.nil_append,
    hsolid]
  rcases hafter with ⟨hspaces, hlast⟩ | ⟨hlast, -⟩
  · rw [solid_eq_nil hspaces, List.append_nil]
    refine ⟨fun hmem => ?_, List.mem_of_mem_dropLast⟩
    have hne := List.ne_nil_of_mem hmem
    rw [← List.dropLast_concat_getLast hne, List.mem_append, List.mem_singleton] at hmem
    exact hmem.resolve_right fun h => hlast _ (List.getLast?_eq_some_getLast hne) h.symm
  · rw [hlast, List.dropLast_concat]

section

variable {u : UpperCase}

theorem isTokenChar_of_isSpace {c : Char} (h : isSpace c = true) : isTokenChar c = false := by
  rw [isTokenChar, Bool.or_eq_false_iff]
  constructor
  · by_contra halpha
    rw [isSpace_of_isAlpha (by simpa using halpha)] at h
    cases h
  · rw [beq_eq_false_iff_ne]
    rintro rfl
    revert h
    decide

/-- Blanks and semicolons have no tokens. -/
theorem flatMap_upper_seps {seps : Text} (h : ∀ c ∈ seps, isSpace c = true ∨ c = ';') :
    ∀ c ∈ seps.flatMap u.upper, isTokenChar c = false := by
  intro c hc
  obtain ⟨d, hd, hc⟩ := List.mem_flatMap.1 hc
  rcases h d hd with hspace | rfl
  · rw [u.space d hspace, List.mem_singleton] at hc
    rw [hc]
    exact isTokenChar_of_isSpace hspace
  · rw [u.ascii ';' (by decide), List.mem_singleton] at hc
    rw [hc]
    decide

theorem tokens_statementText (u : UpperCase) (query : Text) :
    tokens u (statementText query) = tokens u (maskQueryText query) := by
  obtain ⟨before, after, heq, hbefore, hafter⟩ := statementText_spec query
  have hseps : ∀ c ∈ after, isSpace c = true ∨ c = ';' := by
    rcases hafter with ⟨hspaces, -⟩ | ⟨-, hseps⟩
    · exact fun c hc => Or.inl (hspaces c hc)
    · exact hseps
  rw [heq, tokens, tokens, List.flatMap_append, List.flatMap_append,
    wholeWords_seps_append _ (flatMap_upper_seps fun c hc => Or.inl (hbefore c hc)),
    wholeWords_append_seps _ (flatMap_upper_seps hseps)]

/-! ### The mask's reading -/

theorem solid_maskQueryText (query : Text) :
    solid (maskQueryText query) = solid (maskShown query) := by
  refine maskFrom_rel (R := fun A B => solid A = solid B) rfl ?_ ?_ .top query
  · intro c A B h
    show List.filter _ (c :: A) = List.filter _ (c :: B)
    rw [List.filter_cons, List.filter_cons]
    exact congrArg₂ _ (congrArg _ h) h
  · intro A B _ h
    have hskip : solid (' ' :: ' ' :: B) = solid B := by
      rw [solid, List.filter_cons_of_neg (by decide), List.filter_cons_of_neg (by decide)]
      rfl
    rw [hskip, h]

theorem tokens_maskQueryText (u : UpperCase) (query : Text) :
    tokens u (maskQueryText query) = tokens u (maskShown query) := by
  have hruns : runs isTokenChar ((maskQueryText query).flatMap u.upper) =
      runs isTokenChar ((maskShown query).flatMap u.upper) := by
    refine maskFrom_rel (R := fun A B => runs isTokenChar (A.flatMap u.upper) =
      runs isTokenChar (B.flatMap u.upper)) rfl ?_ ?_ .top query
    · intro c A B h
      rw [List.flatMap_cons, List.flatMap_cons]
      induction u.upper c with
      | nil => exact h
      | cons d ds ih => rw [List.cons_append, List.cons_append, runs, runs, ih]
    · intro A B hhead h
      have hblank : u.upper ' ' = [' '] := u.space ' ' (by decide)
      have hfst : (runs isTokenChar (B.flatMap u.upper)).1 = [] := by
        cases B with
        | nil => rfl
        | cons c B =>
          have hspace : isSpace c = true := by
            rcases hhead c rfl with rfl | hbreak
            · decide
            · have hc : c = '\n' ∨ c = '\r' := by simpa [Reading.isBreak] using hbreak
              rcases hc with rfl | rfl <;> decide
          rw [List.flatMap_cons, u.space c hspace, List.singleton_append,
            runs_cons_sep (isTokenChar_of_isSpace hspace)]
      have hone := runs_cons_sep_of_fst (p := isTokenChar) (a := ' ') (by decide) hfst
      rw [List.flatMap_cons, List.flatMap_cons, hblank, List.singleton_append,
        List.singleton_append, runs_cons_sep_of_fst (by decide) (by rw [hone, hfst]), hone, h]
  rw [tokens, tokens, wholeWords, wholeWords, hruns]

theorem validateSingleStatement_eq_ok {query first : Text} {found : List Text} :
    validateSingleStatement u query = .ok (first, found) ↔
      strip query ≠ [] ∧ '\x00' ∉ query ∧ Single (maskShown query) ∧
        found = tokens u (maskShown query) ∧ found.head? = some first := by
  have hsingle : ';' ∈ statementText query ↔ ¬ Single (maskShown query) := by
    rw [mem_statementText_iff, single_iff, single_iff, solid_maskQueryText]
  rw [validateSingleStatement, tokens_statementText, tokens_maskQueryText]
  split_ifs with hblank hnul hsemicolon
  · exact iff_of_false (fun h => by cases h) fun h => h.1 hblank
  · exact iff_of_false (fun h => by cases h) fun h => h.2.1 hnul
  · exact iff_of_false (fun h => by cases h) fun h => hsingle.1 hsemicolon h.2.2.1
  · have hsingle' : Single (maskShown query) := by
      by_contra h
      exact hsemicolon (hsingle.2 h)
    cases htokens : tokens u (maskShown query) with
    | nil =>
      refine iff_of_false (fun h => by cases h) ?_
      rintro ⟨-, -, -, rfl, h⟩
      cases h
    | cons token rest =>
      constructor
      · intro h
        obtain ⟨rfl, rfl⟩ := Prod.mk.inj (Except.ok.inj h)
        exact ⟨hblank, hnul, hsingle', rfl, rfl⟩
      · rintro ⟨-, -, -, rfl, h⟩
        obtain rfl := Option.some.inj h
        rfl

theorem forbiddenKeywords_eq_nil {keywords : List String} {found : List Text} :
    forbiddenKeywords keywords found = [] ↔ ∀ word ∈ keywords, word.toList ∉ found := by
  rw [forbiddenKeywords, ← List.length_eq_zero_iff, List.length_insertionSort,
    List.length_eq_zero_iff, List.filter_eq_nil_iff]
  simp only [decide_eq_true_eq]

/-- **What the checks accept passes in the mask's reading.** -/
theorem validateReadOnly_eq_ok {start keywords : List String} {wrongStart forbidden : String}
    {query : Text} :
    validateReadOnly u start keywords wrongStart forbidden query = .ok () ↔
      Passes u start keywords query := by
  constructor
  · intro h
    obtain ⟨⟨first, found⟩, hsingle, hrest⟩ := Checks.bind_eq_ok.1 h
    obtain ⟨hblank, hnul, hone, rfl, hhead⟩ := validateSingleStatement_eq_ok.1 hsingle
    dsimp only at hrest
    split_ifs at hrest with hstart
    · cases hkeywords : forbiddenKeywords keywords (tokens u (maskShown query)) with
      | nil =>
        rw [List.mem_map] at hstart
        obtain ⟨word, hword, rfl⟩ := hstart
        exact ⟨hblank, hnul, hone, ⟨word, hword, hhead⟩, forbiddenKeywords_eq_nil.1 hkeywords⟩
      | cons keyword rest =>
        rw [hkeywords] at hrest
        cases hrest
  · rintro ⟨hblank, hnul, hone, ⟨word, hword, hhead⟩, hreadOnly⟩
    refine Checks.bind_eq_ok.2 ⟨(word.toList, tokens u (maskShown query)),
      validateSingleStatement_eq_ok.2 ⟨hblank, hnul, hone, rfl, hhead⟩, ?_⟩
    have hstart : word.toList ∈ start.map String.toList := List.mem_map_of_mem hword
    dsimp only
    rw [if_neg (not_not.2 hstart), forbiddenKeywords_eq_nil.2 hreadOnly]

end

end Evaluation
