import Text2Cypher.Entities.Names
import Text2Cypher.Library.Squeezing

/-!
# The comparison text

`_normalized_name_spans` builds the text that it searches character by character, with a list of the
positions beside it.

* `comparisonLists`: the two lists as the loop keeps them, `comparisonLists_eq` the list of pairs;
* `map_fst_normalizeQuery`: the text is that of `_normalized_name_comparison`;
* `traced_normalizeQuery`: what is written, and what was read for it;
* **`comparisonLists_spec`**.
-/

namespace Entities

open Python

/-! ### The two lists -/

/-- The characters that are compared as blanks. -/
def isBlank (removeCommas : Bool) (c : Char) : Bool := isSpace c || (removeCommas && c == ',')

/-- The spans of `_casefold_with_spans`. -/
def casefoldSpans (u : UnicodeData) (value : Text) : List Span :=
  value.zipIdx.flatMap fun c => List.replicate (u.casefold c.1).length (c.2, c.2 + 1)

/-- The body of the loop of `_normalized_name_spans`. -/
def comparisonStep (removeCommas : Bool) (state : Text × List Span) (c : Char × Span) :
    Text × List Span :=
  let (characters, positions) := state
  if isSpace c.1 || (removeCommas && c.1 == ',') then
    if characters = [] ∨ (!removeCommas) = true ∧ characters.getLast? = some ',' then state
    else if characters.getLast? = some ' ' then
      -- the last position keeps its start
      (characters, positions.dropLast ++ [((positions.getLast?.map Prod.fst).getD 0, c.2.2)])
    else (characters ++ [' '], positions ++ [c.2])
  else if c.1 = ',' ∧ characters.getLast? = some ' ' then
    (characters.dropLast ++ [c.1], positions.dropLast ++ [c.2])
  else (characters ++ [c.1], positions ++ [c.2])

/-- `comparison_query` with its positions, for a question in the normal form. -/
def comparisonLists (u : UnicodeData) (removeCommas : Bool) (query : Text) : Text × List Span :=
  let state := ((casefold u query).zip (casefoldSpans u query)).foldl (comparisonStep removeCommas)
    ([], [])
  if state.1.getLast? = some ' ' then (state.1.dropLast, state.2.dropLast) else state

variable {u : UnicodeData} {removeCommas : Bool}

theorem casefoldWithSpans_eq (u : UnicodeData) (value : Text) :
    casefoldWithSpans u value = (casefold u value).zip (casefoldSpans u value) := by
  unfold casefoldWithSpans casefold casefoldSpans
  generalize 0 = n
  induction value generalizing n with
  | nil => rfl
  | cons c value ih =>
    have hpiece : ∀ (l : Text) (s : Span),
        l.map (fun folded => (folded, s)) = l.zip (List.replicate l.length s) := fun l s => by
      induction l with
      | nil => rfl
      | cons d l ih => simp [List.replicate_succ, ih]
    rw [List.zipIdx_cons, List.flatMap_cons, List.flatMap_cons, List.flatMap_cons, ih, hpiece,
      List.zip_append (by simp)]

/-- The folded text of a stretch that begins at a position. -/
def foldedFrom (u : UnicodeData) (n : ℕ) (s : Text) : List (Char × Span) :=
  (s.zipIdx n).flatMap fun c => (u.casefold c.1).map fun folded => (folded, (c.2, c.2 + 1))

theorem foldedFrom_zero (s : Text) : foldedFrom u 0 s = casefoldWithSpans u s := rfl

theorem foldedFrom_cons (n : ℕ) (d : Char) (s : Text) :
    foldedFrom u n (d :: s) =
      (u.casefold d).map (fun folded => (folded, (n, n + 1))) ++ foldedFrom u (n + 1) s := by
  rw [foldedFrom, List.zipIdx_cons, List.flatMap_cons]
  rfl

theorem map_fst_foldedFrom (n : ℕ) (s : Text) :
    (foldedFrom u n s).map Prod.fst = casefold u s := by
  induction s generalizing n with
  | nil => rfl
  | cons d s ih =>
    rw [foldedFrom_cons, List.map_append, ih]
    simp [casefold, Function.comp_def]

/-- A folded character has the position of a character that folds to it. -/
theorem mem_foldedFrom {n : ℕ} {s : Text} {c : Char × Span} :
    c ∈ foldedFrom u n s ↔
      ∃ i d, s[i]? = some d ∧ c.1 ∈ u.casefold d ∧ c.2 = (n + i, n + i + 1) := by
  simp only [foldedFrom, List.mem_flatMap, List.mem_map]
  constructor
  · rintro ⟨⟨d, i⟩, hmem, x, hx, rfl⟩
    obtain ⟨hi, hd⟩ := List.mk_mem_zipIdx_iff_le_and_getElem?_sub.1 hmem
    exact ⟨i - n, d, hd, hx, by rw [Nat.add_sub_cancel' hi]⟩
  · rintro ⟨i, d, hd, hx, hspan⟩
    refine ⟨(d, n + i), ?_, c.1, hx, by rw [← hspan]⟩
    rw [List.mk_mem_zipIdx_iff_le_and_getElem?_sub, Nat.add_sub_cancel_left]
    exact ⟨Nat.le_add_right n i, hd⟩

/-! ### One step -/

theorem normalizeStep_of_blank {c : Char × Span} (hc : isBlank removeCommas c.1 = true)
    (last : Char × Span) (rest : List (Char × Span)) :
    normalizeStep removeCommas (last :: rest) c =
      if !removeCommas && last.1 == ',' then last :: rest
      else if last.1 = ' ' then (' ', (last.2.1, c.2.2)) :: rest
      else (' ', c.2) :: last :: rest := if_pos hc

theorem normalizeStep_blank_nil {c : Char × Span} (hc : isBlank removeCommas c.1 = true) :
    normalizeStep removeCommas [] c = [] := if_pos hc

theorem normalizeStep_blank_comma {c last : Char × Span} (hc : isBlank removeCommas c.1 = true)
    (hlast : removeCommas = false ∧ last.1 = ',') (rest : List (Char × Span)) :
    normalizeStep removeCommas (last :: rest) c = last :: rest := by
  rw [normalizeStep_of_blank hc]
  exact if_pos (by simp [hlast])

theorem normalizeStep_blank_space {c : Char × Span} (hc : isBlank removeCommas c.1 = true)
    (s : Span) (rest : List (Char × Span)) :
    normalizeStep removeCommas ((' ', s) :: rest) c = (' ', (s.1, c.2.2)) :: rest := by
  rw [normalizeStep_of_blank hc]
  simp

theorem normalizeStep_blank {c last : Char × Span} (hc : isBlank removeCommas c.1 = true)
    (hlast : ¬ (removeCommas = false ∧ last.1 = ',')) (hspace : last.1 ≠ ' ')
    (rest : List (Char × Span)) :
    normalizeStep removeCommas (last :: rest) c = (' ', c.2) :: last :: rest := by
  rw [normalizeStep_of_blank hc, if_neg (by simpa using hlast), if_neg hspace]

theorem normalizeStep_comma {c : Char × Span} (hc : ¬ isBlank removeCommas c.1 = true)
    (hcomma : c.1 = ',') (s : Span) (rest : List (Char × Span)) :
    normalizeStep removeCommas ((' ', s) :: rest) c = c :: rest :=
  (if_neg hc).trans (if_pos hcomma)

theorem normalizeStep_letter {c : Char × Span} (hc : ¬ isBlank removeCommas c.1 = true)
    {acc : List (Char × Span)} (h : c.1 = ',' → ∀ last ∈ acc.head?, last.1 ≠ ' ') :
    normalizeStep removeCommas acc c = c :: acc := by
  refine (if_neg hc).trans ?_
  split_ifs with hcomma
  · split
    · exact absurd rfl (h hcomma _ rfl)
    · rfl
  · rfl

theorem isBlank_space : isBlank removeCommas ' ' = true := by
  cases removeCommas <;> decide

theorem comparisonStep_eq (acc : List (Char × Span)) (c : Char × Span) :
    comparisonStep removeCommas (acc.reverse.map Prod.fst, acc.reverse.map Prod.snd) c =
      ((normalizeStep removeCommas acc c).reverse.map Prod.fst,
        (normalizeStep removeCommas acc c).reverse.map Prod.snd) := by
  unfold comparisonStep
  by_cases hc : isBlank removeCommas c.1 = true
  · refine (if_pos hc).trans ?_
    rcases acc with _ | ⟨⟨last, s⟩, rest⟩
    · rw [normalizeStep_blank_nil hc]
      simp
    · by_cases hlast : removeCommas = false ∧ last = ','
      · rw [normalizeStep_blank_comma hc hlast]
        simp [hlast]
      · have hkeep : removeCommas = false → ¬ last = ',' := fun h h' => hlast ⟨h, h'⟩
        by_cases hspace : last = ' '
        · subst hspace
          rw [normalizeStep_blank_space hc]
          simp
        · rw [normalizeStep_blank hc hlast hspace]
          simpa [hspace] using hkeep
  · refine (if_neg hc).trans ?_
    by_cases hpop : c.1 = ',' ∧ ∃ s rest, acc = (' ', s) :: rest
    · obtain ⟨hcomma, s, rest, rfl⟩ := hpop
      rw [normalizeStep_comma hc hcomma]
      simp [hcomma]
    · have hlast : c.1 = ',' → ∀ last ∈ acc.head?, last.1 ≠ ' ' := by
        intro hcomma last hlast hspace
        obtain ⟨rest, rfl⟩ := List.head?_eq_some_iff.1 hlast
        exact hpop ⟨hcomma, last.2, rest, by rw [← hspace]⟩
      rw [normalizeStep_letter hc hlast, if_neg ?_]
      · simp
      · rintro ⟨hcomma, hspace⟩
        rcases acc with _ | ⟨last, rest⟩
        · cases hspace
        · exact hlast hcomma last rfl (by simpa using hspace)

/-- The two lists are those of the pairs. -/
theorem comparisonLists_eq (query : Text) :
    comparisonLists u removeCommas query =
      ((normalizeQuery u removeCommas query).map Prod.fst,
        (normalizeQuery u removeCommas query).map Prod.snd) := by
  have hfold : ∀ (l acc : List (Char × Span)),
      l.foldl (comparisonStep removeCommas) (acc.reverse.map Prod.fst, acc.reverse.map Prod.snd) =
        ((l.foldl (normalizeStep removeCommas) acc).reverse.map Prod.fst,
          (l.foldl (normalizeStep removeCommas) acc).reverse.map Prod.snd) := by
    intro l
    induction l with
    | nil => exact fun acc => rfl
    | cons c l ih =>
      intro acc
      rw [List.foldl_cons, comparisonStep_eq, ih, List.foldl_cons]
  have hall := hfold (casefoldWithSpans u query) []
  rw [List.reverse_nil, List.map_nil, List.map_nil] at hall
  unfold comparisonLists normalizeQuery
  rw [← casefoldWithSpans_eq, hall]
  generalize (casefoldWithSpans u query).foldl (normalizeStep removeCommas) [] = acc
  rcases acc with _ | ⟨⟨last, s⟩, rest⟩
  · rfl
  · by_cases hspace : last = ' '
    · subst hspace
      simp
    · simp [hspace]

/-! ### The text -/

/-- The characters that are written; a blank that nothing follows is dropped. -/
theorem map_fst_normalizeQuery_eq_close (query : Text) :
    (normalizeQuery u removeCommas query).map Prod.fst =
      (Squeezing.close ' ' (((casefoldWithSpans u query).foldl
        (normalizeStep removeCommas) []).map Prod.fst)).reverse := by
  unfold normalizeQuery
  generalize (casefoldWithSpans u query).foldl (normalizeStep removeCommas) [] = acc
  rcases acc with _ | ⟨⟨last, s⟩, rest⟩
  · rfl
  · by_cases hspace : last = ' '
    · subst hspace
      simp [Squeezing.close]
    · simp [Squeezing.close, hspace]

/-- With commas removed a step squeezes blanks, commas among them. -/
theorem map_fst_normalizeStep_true (acc : List (Char × Span)) (c : Char × Span) :
    (normalizeStep true acc c).map Prod.fst =
      Squeezing.step isSpace ' ' (acc.map Prod.fst) (if c.1 = ',' then ' ' else c.1) := by
  have hblank : isSpace (if c.1 = ',' then ' ' else c.1) = isBlank true c.1 := by
    unfold isBlank
    split_ifs with hcomma
    · simp [hcomma]
      decide
    · simp [hcomma]
  by_cases hc : isBlank true c.1 = true
  · rw [hc] at hblank
    rcases acc with _ | ⟨⟨last, s⟩, rest⟩
    · rw [normalizeStep_blank_nil hc, List.map_nil, Squeezing.step_nil hblank]
    · by_cases hspace : last = ' '
      · subst hspace
        rw [normalizeStep_blank_space hc, List.map_cons, List.map_cons,
          Squeezing.step_sep hblank]
      · rw [normalizeStep_blank hc (by simp) hspace, List.map_cons, List.map_cons,
          Squeezing.step_blank hblank hspace]
  · have hcomma : c.1 ≠ ',' := fun h => hc (by simp [isBlank, h])
    rw [normalizeStep_letter hc fun h => absurd h hcomma, Squeezing.step_letter (hblank ▸ hc),
      if_neg hcomma, List.map_cons]

theorem map_fst_foldl_normalizeStep_true (l acc : List (Char × Span)) :
    (l.foldl (normalizeStep true) acc).map Prod.fst =
      ((l.map Prod.fst).map fun c => if c = ',' then ' ' else c).foldl (Squeezing.step isSpace ' ')
        (acc.map Prod.fst) := by
  induction l generalizing acc with
  | nil => rfl
  | cons c l ih =>
    rw [List.foldl_cons, ih, map_fst_normalizeStep_true, List.map_cons, List.map_cons,
      List.foldl_cons]

/-- Where the loop is when `tightenCommas` holds back blanks: it has read what is written and the
blanks that are held. -/
structure Holding (acc : List (Char × Span)) (held : Text) (afterComma : Bool) (written : Text) :
    Prop where
  reads : acc.map Prod.fst = held.foldl (Squeezing.step isSpace ' ') written
  blanks : ∀ c ∈ held, isSpace c = true
  letter : ∀ c ∈ written.head?, c ≠ ' '
  comma : afterComma = true ↔ written.head? = some ','
  held_nil : afterComma = true → held = []

/-- The blanks that are held are one blank on what is written. -/
theorem Holding.map_fst_eq {acc : List (Char × Span)} {held written : Text} {afterComma : Bool}
    (h : Holding acc held afterComma written) :
    acc.map Prod.fst = written ∨ held ≠ [] ∧ acc.map Prod.fst = ' ' :: written := by
  obtain ⟨hreads, hblanks, hletter, -, -⟩ := h
  rw [hreads]
  clear hreads
  induction held using List.reverseRecOn with
  | nil => exact Or.inl rfl
  | append_singleton held c ih =>
    rw [List.foldl_append, List.foldl_cons, List.foldl_nil]
    have hc := hblanks c (by simp)
    rcases ih fun d hd => hblanks d (List.mem_append_left _ hd) with hnone | ⟨-, hspace⟩
    · rw [hnone]
      cases written with
      | nil => exact Or.inl (Squeezing.step_nil hc)
      | cons d written =>
        exact Or.inr ⟨by simp, Squeezing.step_blank hc (hletter d rfl) _⟩
    · rw [hspace, Squeezing.step_sep hc]
      exact Or.inr ⟨by simp, rfl⟩

theorem Holding.blank {acc : List (Char × Span)} {held written : Text} {afterComma : Bool}
    (h : Holding acc held afterComma written) {c : Char × Span} (hc : isSpace c.1 = true) :
    Holding (normalizeStep false acc c) (if afterComma then [] else held ++ [c.1]) afterComma
      written := by
  have hblank : isBlank false c.1 = true := by simpa [isBlank] using hc
  cases hafter : afterComma with
  | true =>
    -- behind a comma the blank is skipped
    obtain ⟨hreads, -, hletter, hcomma, hnil⟩ := h
    rw [hnil hafter, List.foldl_nil] at hreads
    obtain ⟨rest, hwritten⟩ := List.head?_eq_some_iff.1 (hcomma.1 hafter)
    rw [hwritten] at hreads
    obtain ⟨last, rest', rfl, hlast, hrest⟩ := List.map_eq_cons_iff.1 hreads
    rw [normalizeStep_blank_comma hblank ⟨rfl, hlast⟩]
    exact ⟨by rw [hreads, hwritten]; rfl, by simp, hletter, hafter ▸ hcomma, fun _ => rfl⟩
  | false =>
    have hcomma := h.comma
    rw [hafter] at hcomma
    refine ⟨?_, ?_, h.letter, hcomma, fun h => by simp at h⟩
    · rw [if_neg (by simp), List.foldl_append, List.foldl_cons, List.foldl_nil, ← h.reads]
      rcases acc with _ | ⟨⟨last, s⟩, rest⟩
      · rw [normalizeStep_blank_nil hblank, List.map_nil, Squeezing.step_nil hc]
      · by_cases hspace : last = ' '
        · subst hspace
          rw [normalizeStep_blank_space hblank, List.map_cons, List.map_cons,
            Squeezing.step_sep hc]
        · have hlast : ¬ (false = false ∧ last = ',') := by
            rintro ⟨-, rfl⟩
            rcases h.map_fst_eq with hw | ⟨-, hw⟩
            · simp [← hw] at hcomma
            · exact hspace (List.cons.inj hw).1
          rw [normalizeStep_blank hblank hlast hspace, List.map_cons, List.map_cons,
            Squeezing.step_blank hc hspace]
    · intro d hd
      rw [if_neg (by simp), List.mem_append, List.mem_singleton] at hd
      rcases hd with hd | rfl
      · exact h.blanks d hd
      · exact hc

theorem Holding.atComma {acc : List (Char × Span)} {held written : Text} {afterComma : Bool}
    (h : Holding acc held afterComma written) {c : Char × Span} (hc : c.1 = ',') :
    Holding (normalizeStep false acc c) [] true (',' :: written) := by
  have hletter : ¬ isBlank false c.1 = true := by
    rw [hc]
    decide
  have hreads : (normalizeStep false acc c).map Prod.fst = ',' :: written := by
    rcases h.map_fst_eq with hw | ⟨-, hw⟩
    · rw [normalizeStep_letter hletter, List.map_cons, hw, hc]
      intro _ last hlast
      refine h.letter last.1 ?_
      rw [← hw, List.head?_map]
      exact Option.mem_map_of_mem _ hlast
    · obtain ⟨⟨last, s⟩, rest, rfl, rfl, hrest⟩ := List.map_eq_cons_iff.1 hw
      rw [normalizeStep_comma hletter hc, List.map_cons, hrest, hc]
  exact ⟨hreads, by simp, by simp, by simp, fun _ => rfl⟩

theorem Holding.atLetter {acc : List (Char × Span)} {held written : Text} {afterComma : Bool}
    (h : Holding acc held afterComma written) {c : Char × Span} (hc : ¬ isSpace c.1 = true)
    (hcomma : c.1 ≠ ',') :
    Holding (normalizeStep false acc c) [] false
      (c.1 :: held.foldl (Squeezing.step isSpace ' ') written) := by
  have hletter : ¬ isBlank false c.1 = true := by simpa [isBlank] using hc
  have hspace : c.1 ≠ ' ' := fun h => hc (by rw [h]; decide)
  refine ⟨?_, by simp, by simpa using hspace, by simpa using hcomma, fun h => by simp at h⟩
  rw [normalizeStep_letter hletter fun h => absurd h hcomma, List.map_cons, h.reads]
  rfl

/-- With commas kept a step squeezes what `tightenCommas` lets through. -/
theorem map_fst_foldl_normalizeStep_false {l acc : List (Char × Span)} {held written : Text}
    {afterComma : Bool} (h : Holding acc held afterComma written) :
    (l.foldl (normalizeStep false) acc).map Prod.fst =
      (tightenCommas held afterComma (l.map Prod.fst)).foldl (Squeezing.step isSpace ' ')
        written := by
  induction l generalizing acc held written afterComma with
  | nil => exact h.reads
  | cons c l ih =>
    rw [List.foldl_cons, List.map_cons, tightenCommas]
    split_ifs with hc hafter hcomma
    · simpa [hafter] using ih (h.blank hc)
    · simpa [hafter] using ih (h.blank hc)
    · rw [ih (h.atComma hcomma), List.foldl_cons, Squeezing.step_letter (by decide)]
    · rw [ih (h.atLetter hc hcomma), List.foldl_append, List.foldl_cons,
        Squeezing.step_letter hc]

/-- **The text** is the one of `_normalized_name_comparison`. -/
theorem map_fst_normalizeQuery (u : UnicodeData) (removeCommas : Bool) (query : Text) :
    (normalizeQuery u removeCommas (u.nfc query)).map Prod.fst =
      normalizedNameComparison u removeCommas query := by
  have hsqueeze : ∀ s, squeeze s = Squeezing.squeeze isSpace ' ' s := fun s => rfl
  rw [map_fst_normalizeQuery_eq_close, normalizedNameComparison, hsqueeze,
    ← Squeezing.close_foldl_step (by decide)]
  congr 2
  cases removeCommas with
  | true =>
    rw [map_fst_foldl_normalizeStep_true, ← foldedFrom_zero, map_fst_foldedFrom]
    rfl
  | false =>
    have hstart : Holding [] [] false [] := ⟨rfl, by simp, by simp, by simp, fun _ => rfl⟩
    rw [map_fst_foldl_normalizeStep_false hstart, ← foldedFrom_zero, map_fst_foldedFrom]
    rfl

/-! ### Where the characters come from -/

/-- What is written for a run of the folded text: a letter for itself, or one blank for a run of
blanks, with the position from the start of the first to the end of the last. -/
inductive Reads (removeCommas : Bool) : List (Char × Span) → Char × Span → Prop
  | letter (c : Char × Span) : ¬ isBlank removeCommas c.1 = true → Reads removeCommas [c] c
  | blank (run : List (Char × Span)) (first last : Char × Span) :
      (∀ c ∈ run, isBlank removeCommas c.1 = true) → run.head? = some first →
      run.getLast? = some last → Reads removeCommas run (' ', (first.2.1, last.2.2))

/-- The folded text is read from left to right: each run is skipped, if it is a blank, or written
once. -/
inductive Traced (removeCommas : Bool) : List (Char × Span) → List (Char × Span) → Prop
  | nil : Traced removeCommas [] []
  | skip {folded written : List (Char × Span)} (c : Char × Span) :
      Traced removeCommas folded written → isBlank removeCommas c.1 = true →
      Traced removeCommas (folded ++ [c]) written
  | read {folded written run : List (Char × Span)} {out : Char × Span} :
      Traced removeCommas folded written → Reads removeCommas run out →
      Traced removeCommas (folded ++ run) (written ++ [out])

theorem Traced.skips {folded written run : List (Char × Span)}
    (h : Traced removeCommas folded written)
    (hrun : ∀ c ∈ run, isBlank removeCommas c.1 = true) :
    Traced removeCommas (folded ++ run) written := by
  induction run using List.reverseRecOn with
  | nil => rwa [List.append_nil]
  | append_singleton run c ih =>
    rw [← List.append_assoc]
    exact .skip c (ih fun d hd => hrun d (List.mem_append_left _ hd)) (hrun c (by simp))

/-- The state of the loop: what is written, and a blank on it that the next character may still
extend or remove. -/
inductive Follows (removeCommas : Bool) (folded : List (Char × Span)) :
    List (Char × Span) → Prop
  | written {acc : List (Char × Span)} : Traced removeCommas folded acc.reverse →
      (∀ c ∈ acc.head?, c.1 ≠ ' ') → Follows removeCommas folded acc
  | blank {before run acc : List (Char × Span)} {first last : Char × Span} :
      folded = before ++ run → Traced removeCommas before acc.reverse →
      (∀ c ∈ acc.head?, c.1 ≠ ' ') → (∀ c ∈ run, isBlank removeCommas c.1 = true) →
      run.head? = some first → run.getLast? = some last →
      Follows removeCommas folded ((' ', (first.2.1, last.2.2)) :: acc)

theorem Traced.letter {folded written : List (Char × Span)} (h : Traced removeCommas folded written)
    {c : Char × Span} (hc : ¬ isBlank removeCommas c.1 = true) :
    Traced removeCommas (folded ++ [c]) (written ++ [c]) := .read h (.letter c hc)

/-- One step keeps what is written and where it comes from. -/
theorem Follows.step {folded acc : List (Char × Span)} (h : Follows removeCommas folded acc)
    (c : Char × Span) :
    Follows removeCommas (folded ++ [c]) (normalizeStep removeCommas acc c) := by
  by_cases hc : isBlank removeCommas c.1 = true
  · cases h with
    | written htraced hhead =>
      rcases acc with _ | ⟨last, rest⟩
      · rw [normalizeStep_blank_nil hc]
        exact .written (.skip c htraced hc) hhead
      · by_cases hlast : removeCommas = false ∧ last.1 = ','
        · rw [normalizeStep_blank_comma hc hlast]
          exact .written (.skip c htraced hc) hhead
        · rw [normalizeStep_blank hc hlast (hhead last rfl)]
          exact .blank rfl htraced hhead (by simpa using hc) rfl rfl
    | @blank before run rest first last hfolded htraced hhead hrun hfirst hlast =>
      rw [normalizeStep_blank_space hc]
      have hrun' : ∀ d ∈ run ++ [c], isBlank removeCommas d.1 = true := by
        intro d hd
        rcases List.mem_append.1 hd with hd | hd
        · exact hrun d hd
        · exact List.mem_singleton.1 hd ▸ hc
      have hfirst' : (run ++ [c]).head? = some first := by
        rw [List.head?_append, hfirst, Option.some_or]
      have hlast' : (run ++ [c]).getLast? = some c := by simp
      exact .blank (by rw [hfolded, List.append_assoc]) htraced hhead hrun' hfirst' hlast'
  · have hspace : c.1 ≠ ' ' := fun h => hc (h ▸ isBlank_space)
    have hhead' : ∀ rest : List (Char × Span), ∀ d ∈ (c :: rest).head?, d.1 ≠ ' ' := by
      intro rest d hd
      obtain rfl := Option.some.inj hd
      exact hspace
    cases h with
    | written htraced hhead =>
      rw [normalizeStep_letter hc fun _ => hhead]
      refine .written ?_ (hhead' _)
      rw [List.reverse_cons]
      exact htraced.letter hc
    | @blank before run rest first last hfolded htraced hhead hrun hfirst hlast =>
      by_cases hcomma : c.1 = ','
      · -- the comma takes the place of the blank
        rw [normalizeStep_comma hc hcomma, hfolded]
        refine .written ?_ (hhead' _)
        rw [List.reverse_cons]
        exact (htraced.skips hrun).letter hc
      · rw [normalizeStep_letter hc fun h => absurd h hcomma, hfolded]
        refine .written ?_ (hhead' _)
        rw [List.reverse_cons, List.reverse_cons]
        exact (htraced.read (.blank run first last hrun hfirst hlast)).letter hc

theorem follows_foldl (l : List (Char × Span)) :
    Follows removeCommas l (l.foldl (normalizeStep removeCommas) []) := by
  induction l using List.reverseRecOn with
  | nil => exact .written .nil (by simp)
  | append_singleton l c ih =>
    rw [List.foldl_append, List.foldl_cons, List.foldl_nil]
    exact ih.step c

/-- **What is written** for a question comes from its folded text, from left to right. -/
theorem traced_normalizeQuery (u : UnicodeData) (removeCommas : Bool) (query : Text) :
    Traced removeCommas (casefoldWithSpans u query) (normalizeQuery u removeCommas query) := by
  have hfollows := @follows_foldl removeCommas (casefoldWithSpans u query)
  unfold normalizeQuery
  generalize (casefoldWithSpans u query).foldl (normalizeStep removeCommas) [] = acc at hfollows
  cases hfollows with
  | written htraced hhead =>
    dsimp only
    split
    · exact absurd rfl (hhead _ rfl)
    · exact htraced
  | blank hfolded htraced hhead hrun hfirst hlast =>
    rw [hfolded]
    exact htraced.skips hrun

/-! ### Positions -/

/-- The spans of the folded text are those of single characters that fold to it. -/
theorem mem_casefoldWithSpans {query : Text} {c : Char × Span} :
    c ∈ casefoldWithSpans u query ↔
      ∃ i d, query[i]? = some d ∧ c.1 ∈ u.casefold d ∧ c.2 = (i, i + 1) := by
  rw [← foldedFrom_zero, mem_foldedFrom]
  simp only [Nat.zero_add]

/-- One span is not before another. -/
def NotAfter (s t : Span) : Prop := s.1 ≤ t.1 ∧ s.2 ≤ t.2

theorem pairwise_foldedFrom (n : ℕ) (s : Text) :
    ((foldedFrom u n s).map Prod.snd).Pairwise NotAfter := by
  induction s generalizing n with
  | nil => exact .nil
  | cons d s ih =>
    have hsame : ∀ t ∈ ((u.casefold d).map fun folded => (folded, (n, n + 1))).map Prod.snd,
        t = (n, n + 1) := by simp
    rw [foldedFrom_cons, List.map_append, List.pairwise_append]
    refine ⟨List.pairwise_of_forall_mem_list fun t ht t' ht' => ?_, ih (n + 1),
      fun t ht t' ht' => ?_⟩
    · rw [hsame t ht, hsame t' ht']
      exact ⟨le_rfl, le_rfl⟩
    · obtain ⟨c, hc, rfl⟩ := List.mem_map.1 ht'
      obtain ⟨i, e, -, -, hspan⟩ := mem_foldedFrom.1 hc
      rw [hsame t ht, hspan]
      exact ⟨by dsimp only; omega, by dsimp only; omega⟩

theorem pairwise_casefoldWithSpans (u : UnicodeData) (query : Text) :
    ((casefoldWithSpans u query).map Prod.snd).Pairwise NotAfter :=
  pairwise_foldedFrom 0 query

/-- The position of what is written goes from one that was read to one that was read. -/
theorem Reads.exists_ends {run : List (Char × Span)} {out : Char × Span}
    (h : Reads removeCommas run out) :
    ∃ first ∈ run, ∃ last ∈ run, out.2 = (first.2.1, last.2.2) := by
  cases h with
  | letter c hc => exact ⟨out, by simp, out, by simp, rfl⟩
  | blank run first last hrun hfirst hlast =>
    exact ⟨first, List.mem_of_mem_head? hfirst, last, List.mem_of_mem_getLast? hlast, rfl⟩

theorem Traced.exists_ends {folded written : List (Char × Span)}
    (h : Traced removeCommas folded written) {out : Char × Span} (hout : out ∈ written) :
    ∃ first ∈ folded, ∃ last ∈ folded, out.2 = (first.2.1, last.2.2) := by
  induction h with
  | nil => cases hout
  | skip c _ _ ih =>
    obtain ⟨first, hfirst, last, hlast, heq⟩ := ih hout
    exact ⟨first, List.mem_append_left _ hfirst, last, List.mem_append_left _ hlast, heq⟩
  | read _ hreads ih =>
    rcases List.mem_append.1 hout with hout | hout
    · obtain ⟨first, hfirst, last, hlast, heq⟩ := ih hout
      exact ⟨first, List.mem_append_left _ hfirst, last, List.mem_append_left _ hlast, heq⟩
    · rw [List.mem_singleton] at hout
      subst hout
      obtain ⟨first, hfirst, last, hlast, heq⟩ := hreads.exists_ends
      exact ⟨first, List.mem_append_right _ hfirst, last, List.mem_append_right _ hlast, heq⟩

/-- What is written keeps the order of the positions. -/
theorem Traced.pairwise {folded written : List (Char × Span)}
    (h : Traced removeCommas folded written) (hfolded : (folded.map Prod.snd).Pairwise NotAfter) :
    (written.map Prod.snd).Pairwise NotAfter := by
  induction h with
  | nil => exact .nil
  | skip c _ _ ih =>
    rw [List.map_append, List.pairwise_append] at hfolded
    exact ih hfolded.1
  | @read folded written run out htraced hreads ih =>
    rw [List.map_append, List.pairwise_append] at hfolded ⊢
    refine ⟨ih hfolded.1, by simp, fun s hs t ht => ?_⟩
    obtain ⟨before, hbefore, rfl⟩ := List.mem_map.1 hs
    obtain ⟨first, hfirst, last, hlast, heq⟩ := htraced.exists_ends hbefore
    obtain ⟨first', hfirst', last', hlast', heq'⟩ := hreads.exists_ends
    obtain rfl : t = out.2 := by simpa using ht
    have hstart := hfolded.2.2 _ (List.mem_map_of_mem hfirst) _ (List.mem_map_of_mem hfirst')
    have hend := hfolded.2.2 _ (List.mem_map_of_mem hlast) _ (List.mem_map_of_mem hlast')
    rw [heq, heq']
    exact ⟨hstart.1, hend.2⟩

/-- The run that a written character was read from. -/
theorem Traced.exists_run {folded written : List (Char × Span)}
    (h : Traced removeCommas folded written) {out : Char × Span} (hout : out ∈ written) :
    ∃ before run after, folded = before ++ run ++ after ∧ Reads removeCommas run out := by
  induction h with
  | nil => cases hout
  | skip c _ _ ih =>
    obtain ⟨before, run, after, rfl, hreads⟩ := ih hout
    exact ⟨before, run, after ++ [c], by simp, hreads⟩
  | @read folded written run out' _ hreads ih =>
    rcases List.mem_append.1 hout with hout | hout
    · obtain ⟨before, run', after, rfl, hreads'⟩ := ih hout
      exact ⟨before, run', after ++ run, by simp, hreads'⟩
    · rw [List.mem_singleton] at hout
      subst hout
      exact ⟨folded, run, [], by simp, hreads⟩

/-- A character of the comparison text and the range of the question that it came from: a letter
comes from one character that folds to it, a blank from characters that have a blank in what they
fold to, and nothing else between the first and the last. -/
structure CameFrom (u : UnicodeData) (removeCommas : Bool) (query : Text) (c : Char) (span : Span) :
    Prop where
  nonempty : span.1 < span.2
  within : span.2 ≤ query.length
  letter : c ≠ ' ' → isBlank removeCommas c = false ∧ span.2 = span.1 + 1 ∧
    ∃ d, query[span.1]? = some d ∧ c ∈ u.casefold d
  blank : c = ' ' → ∀ i d, span.1 ≤ i → i < span.2 → query[i]? = some d →
    ∃ x ∈ u.casefold d, isBlank removeCommas x = true
  inside : c = ' ' → ∀ i d, span.1 < i → i + 1 < span.2 → query[i]? = some d →
    ∀ x ∈ u.casefold d, isBlank removeCommas x = true

theorem cameFrom_normalizeQuery {query : Text} {out : Char × Span}
    (hout : out ∈ normalizeQuery u removeCommas query) :
    CameFrom u removeCommas query out.1 out.2 := by
  obtain ⟨before, run, after, hfolded, hreads⟩ :=
    (traced_normalizeQuery u removeCommas query).exists_run hout
  have hmem : ∀ c ∈ run, ∃ i d, query[i]? = some d ∧ c.1 ∈ u.casefold d ∧ c.2 = (i, i + 1) :=
    fun c hc => mem_casefoldWithSpans.1 (by simp [hfolded, hc])
  cases hreads with
  | letter c hc =>
    obtain ⟨i, d, hd, hx, hspan⟩ := hmem out (by simp)
    have hi : i < query.length := (List.getElem?_eq_some_iff.1 hd).1
    have hspace : out.1 ≠ ' ' := fun h => hc (h ▸ isBlank_space)
    refine ⟨by simp [hspan], by simp only [hspan]; omega, fun _ => ?_, fun h => absurd h hspace,
      fun h => absurd h hspace⟩
    exact ⟨by simpa using hc, by simp [hspan], d, by simpa [hspan] using hd, hx⟩
  | blank run first last hrun hfirst hlast =>
    have hfirstmem : first ∈ run := List.mem_of_mem_head? hfirst
    have hlastmem : last ∈ run := List.mem_of_mem_getLast? hlast
    obtain ⟨i, d, hd, hx, hi⟩ := hmem first hfirstmem
    obtain ⟨j, e, he, hy, hj⟩ := hmem last hlastmem
    have horder := pairwise_casefoldWithSpans u query
    rw [hfolded, List.map_append, List.pairwise_append, List.map_append,
      List.pairwise_append] at horder
    obtain ⟨⟨-, hinner, hbefore⟩, -, hafter⟩ := horder
    have hij : i ≤ j := by
      obtain ⟨rest, rfl⟩ := List.head?_eq_some_iff.1 hfirst
      rcases List.mem_cons.1 hlastmem with rfl | hrest
      · rw [hi, Prod.mk.injEq] at hj
        omega
      · have h := ((List.pairwise_cons.1 hinner).1 _ (List.mem_map_of_mem hrest)).1
        rw [hi, hj] at h
        exact h
    have hjlt : j < query.length := (List.getElem?_eq_some_iff.1 he).1
    have hinside : ∀ k z, i < k → k < j → query[k]? = some z →
        ∀ x ∈ u.casefold z, isBlank removeCommas x = true := by
      intro k z hik hkj hz x hxz
      have hxmem : (x, (k, k + 1)) ∈ before ++ run ++ after :=
        hfolded ▸ mem_casefoldWithSpans.2 ⟨k, z, hz, hxz, rfl⟩
      rcases List.mem_append.1 hxmem with hxmem | hxmem
      · rcases List.mem_append.1 hxmem with hxmem | hxmem
        · have h := (hbefore _ (List.mem_map_of_mem hxmem) _ (List.mem_map_of_mem hfirstmem)).1
          rw [hi] at h
          simp only at h
          omega
        · exact hrun _ hxmem
      · have h := (hafter last.2 (by simpa using Or.inr ⟨last.1, hlastmem⟩) _
          (List.mem_map_of_mem hxmem)).1
        rw [hj] at h
        simp only at h
        omega
    have hspan : (first.2.1, last.2.2) = (i, j + 1) := by rw [hi, hj]
    rw [hspan]
    refine ⟨by dsimp only; omega, by dsimp only; omega, fun h => absurd rfl h,
      fun _ k z hik hkj hz => ?_, fun _ k z hik hkj hz =>
        hinside k z hik (by dsimp only at hkj; omega) hz⟩
    dsimp only at hik hkj
    rcases Nat.eq_or_lt_of_le hik with rfl | hik
    · obtain rfl := Option.some.inj (hd.symm.trans hz)
      exact ⟨first.1, hx, hrun first hfirstmem⟩
    · rcases Nat.eq_or_lt_of_le (Nat.lt_succ_iff.1 hkj) with rfl | hkj
      · obtain rfl := Option.some.inj (he.symm.trans hz)
        exact ⟨last.1, hy, hrun last hlastmem⟩
      · obtain ⟨x, hx⟩ := List.exists_mem_of_ne_nil _ (u.casefold_ne_nil z)
        exact ⟨x, hx, hinside k z hik hkj hz x hx⟩

/-- **The comparison text** that is built character by character is the normalised question; its
positions are as many, in order, and each is the range of the question in its normal form that the
character came from. -/
theorem comparisonLists_spec (u : UnicodeData) (removeCommas : Bool) (query : Text) :
    (comparisonLists u removeCommas (u.nfc query)).1 =
        normalizedNameComparison u removeCommas query ∧
      (comparisonLists u removeCommas (u.nfc query)).2.length =
        (comparisonLists u removeCommas (u.nfc query)).1.length ∧
      (comparisonLists u removeCommas (u.nfc query)).2.Pairwise NotAfter ∧
      (∀ (k : ℕ) (c : Char) (span : Span),
        (comparisonLists u removeCommas (u.nfc query)).1[k]? = some c →
        (comparisonLists u removeCommas (u.nfc query)).2[k]? = some span →
        CameFrom u removeCommas (u.nfc query) c span) ∧
      Traced removeCommas
        ((casefold u (u.nfc query)).zip (casefoldSpans u (u.nfc query)))
        ((comparisonLists u removeCommas (u.nfc query)).1.zip
          (comparisonLists u removeCommas (u.nfc query)).2) := by
  have htraced := traced_normalizeQuery u removeCommas (u.nfc query)
  rw [comparisonLists_eq, ← casefoldWithSpans_eq]
  refine ⟨map_fst_normalizeQuery u removeCommas query, by simp,
    htraced.pairwise (pairwise_casefoldWithSpans u (u.nfc query)), fun k c span hc hspan => ?_, ?_⟩
  · rw [List.getElem?_map, Option.map_eq_some_iff] at hc hspan
    obtain ⟨out, hout, rfl⟩ := hc
    obtain ⟨out', hout', rfl⟩ := hspan
    obtain rfl := Option.some.inj (hout.symm.trans hout')
    exact cameFrom_normalizeQuery (List.mem_of_getElem? hout)
  · rw [← List.unzip_fst, ← List.unzip_snd, List.zip_unzip]
    exact htraced

end Entities
