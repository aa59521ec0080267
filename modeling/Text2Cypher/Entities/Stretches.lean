import Mathlib
import Text2Cypher.Entities.ComparisonText

/-!
# Stretches of the question

A match in the folded text that begins and ends between two characters of the question is the folded
text of a stretch of the question.

* `mem_occurrences`, `wholeCharacterMatch_iff`, `spanOf_append`: a match as a split of the text that
  is searched;
* `exists_split`: a split of the folded text between two characters splits the question;
* `mem_literalNameSpans`: the spans of a name as it is written.
-/

namespace Entities

open Python

/-! ### Matches -/

section

variable {target : Text} {l before text after : List (Char × Span)}

theorem mem_occurrences {first : ℕ} :
    first ∈ occurrences target (l.map Prod.fst) ↔
      ∃ before text after, l = before ++ text ++ after ∧ text.map Prod.fst = target ∧
        before.length = first := by
  simp only [occurrences, List.mem_filter, List.mem_range, List.length_map,
    List.isPrefixOf_iff_prefix, ← List.map_drop]
  constructor
  · rintro ⟨hfirst, hfront⟩
    obtain ⟨rest, hrest⟩ := hfront
    obtain ⟨text, after, hdrop, htext, -⟩ := List.map_eq_append_iff.1 hrest.symm
    refine ⟨l.take first, text, after, ?_, htext, by simp; omega⟩
    rw [List.append_assoc, ← hdrop, List.take_append_drop]
  · rintro ⟨before, text, after, rfl, rfl, rfl⟩
    refine ⟨by simp only [List.length_append]; omega, ?_⟩
    rw [List.append_assoc, List.drop_left, List.map_append]
    exact List.prefix_append _ _

/-- The positions on both sides of a place differ, if it has two sides. -/
def Between (before after : List (Char × Span)) : Prop :=
  ∀ a ∈ before.getLast?, ∀ b ∈ after.head?, a.2 ≠ b.2

theorem wholeCharacterMatch_iff (htext : text ≠ []) :
    wholeCharacterMatch ((before ++ text ++ after).map Prod.snd) before.length
        (before.length + text.length) = true ↔ Between before text ∧ Between text after := by
  have hlength : 0 < text.length := List.length_pos_iff.2 htext
  have hstart : (before.length == 0 ||
      ((before ++ text ++ after).map Prod.snd)[before.length - 1]? !=
        ((before ++ text ++ after).map Prod.snd)[before.length]?) = true ↔
          Between before text := by
    obtain ⟨x, text, rfl⟩ := List.exists_cons_of_ne_nil htext
    rcases List.eq_nil_or_concat before with rfl | ⟨before, a, rfl⟩
    · simp [Between]
    · simp [Between]
  have hend : (before.length + text.length == ((before ++ text ++ after).map Prod.snd).length ||
      ((before ++ text ++ after).map Prod.snd)[before.length + text.length - 1]? !=
      ((before ++ text ++ after).map Prod.snd)[before.length + text.length]?) = true ↔
        Between text after := by
    rcases List.eq_nil_or_concat text with rfl | ⟨text, y, rfl⟩
    · exact absurd rfl htext
    · cases after with
      | nil => simp [Between]
      | cons b after => simp [Between]
  rw [wholeCharacterMatch, Bool.and_eq_true, hstart, hend]

theorem spanOf_append {x y : Char × Span} (hx : text.head? = some x) (hy : text.getLast? = some y) :
    spanOf ((before ++ text ++ after).map Prod.snd) before.length (before.length + text.length) =
      (x.2.1, y.2.2) := by
  have hstart : ((before ++ text ++ after).map Prod.snd)[before.length]? = some x.2 := by
    obtain ⟨text, rfl⟩ := List.head?_eq_some_iff.1 hx
    simp
  have hend : ((before ++ text ++ after).map Prod.snd)[before.length + text.length - 1]? =
      some y.2 := by
    obtain ⟨text, rfl⟩ := List.getLast?_eq_some_iff.1 hy
    simp
  rw [spanOf, hstart, hend]
  rfl

end

/-! ### The folded text of a stretch -/

variable {u : UnicodeData}

theorem foldedFrom_append (n : ℕ) (s t : Text) :
    foldedFrom u n (s ++ t) = foldedFrom u n s ++ foldedFrom u (n + s.length) t := by
  rw [foldedFrom, List.zipIdx_append, List.flatMap_append]
  rfl

theorem length_foldedFrom (n : ℕ) (s : Text) :
    (foldedFrom u n s).length = (casefold u s).length := by
  rw [← map_fst_foldedFrom n s, List.length_map]

theorem head?_foldedFrom (n : ℕ) (d : Char) (s : Text) :
    ∃ x ∈ u.casefold d, (foldedFrom u n (d :: s)).head? = some (x, (n, n + 1)) := by
  obtain ⟨x, xs, hx⟩ := List.exists_cons_of_ne_nil (u.casefold_ne_nil d)
  exact ⟨x, by simp [hx], by simp [foldedFrom_cons, hx]⟩

theorem getLast?_foldedFrom (n : ℕ) (s : Text) (d : Char) :
    ∃ x ∈ u.casefold d, (foldedFrom u n (s ++ [d])).getLast? =
      some (x, (n + s.length, n + s.length + 1)) := by
  rcases List.eq_nil_or_concat (u.casefold d) with hnil | ⟨xs, x, hx⟩
  · exact absurd hnil (u.casefold_ne_nil d)
  · refine ⟨x, by simp [hx], ?_⟩
    rw [foldedFrom_append, foldedFrom_cons, hx]
    simp [foldedFrom]

/-- **A split of the folded text** between two characters is a split of the text. -/
theorem exists_split {n : ℕ} {s : Text} {f g : List (Char × Span)} (h : foldedFrom u n s = f ++ g)
    (hbetween : Between f g) :
    ∃ a b, s = a ++ b ∧ f = foldedFrom u n a ∧ g = foldedFrom u (n + a.length) b := by
  induction s generalizing n f with
  | nil =>
    obtain ⟨rfl, rfl⟩ := List.append_eq_nil_iff.1 h.symm
    exact ⟨[], [], rfl, rfl, rfl⟩
  | cons d s ih =>
    rcases List.eq_nil_or_concat f with rfl | ⟨f', c, rfl⟩
    · exact ⟨[], d :: s, rfl, rfl, h.symm⟩
    · rw [foldedFrom_cons] at h
      rcases List.append_eq_append_iff.1 h with ⟨f'', hf, hrest⟩ | ⟨piece, hpiece, hg⟩
      · -- the first character belongs to the first part
        have hbetween' : Between f'' g := by
          intro a ha b hb
          refine hbetween a ?_ b hb
          rw [hf, List.getLast?_append, Option.mem_def.1 ha]
          rfl
        obtain ⟨a, b, rfl, rfl, rfl⟩ := ih hrest hbetween'
        refine ⟨d :: a, b, rfl, by rw [hf, foldedFrom_cons], ?_⟩
        rw [List.length_cons, Nat.add_right_comm, Nat.add_assoc]
      · cases piece with
        | nil =>
          refine ⟨[d], s, rfl, ?_, hg⟩
          rw [List.append_nil] at hpiece
          rw [foldedFrom_cons, hpiece]
          simp [foldedFrom]
        | cons b piece =>
          -- both sides would be the same character
          have hsame : ∀ e ∈ f'.concat c ++ b :: piece, e.2 = (n, n + 1) := by
            rw [← hpiece]
            simp
          refine absurd ?_ (hbetween c (by simp) b (by simp [hg]))
          rw [hsame c (by simp), hsame b (by simp)]

/-- **A match between characters** is the folded text of a stretch, whose range is its span. -/
theorem exists_stretch {query : Text} {before text after : List (Char × Span)}
    (h : casefoldWithSpans u query = before ++ text ++ after) (htext : text ≠ [])
    (hstart : Between before text) (hend : Between text after) :
    ∃ a s b, query = a ++ s ++ b ∧ s ≠ [] ∧ before = foldedFrom u 0 a ∧
      text = foldedFrom u a.length s ∧ after = foldedFrom u (a.length + s.length) b ∧
      spanOf ((before ++ text ++ after).map Prod.snd) before.length
        (before.length + text.length) = (a.length, a.length + s.length) := by
  have hend' : Between (before ++ text) after := by
    intro c hc d hd
    refine hend c ?_ d hd
    rwa [List.getLast?_append_of_ne_nil _ htext] at hc
  obtain ⟨as, b, rfl, has, hafter⟩ := exists_split (foldedFrom_zero query ▸ h) hend'
  obtain ⟨a, s, rfl, hbefore, hs⟩ := exists_split has.symm hstart
  rw [Nat.zero_add] at hs hafter
  rw [List.length_append] at hafter
  have hne : s ≠ [] := by
    rintro rfl
    exact htext hs
  refine ⟨a, s, b, rfl, hne, hbefore, hs, hafter, ?_⟩
  obtain ⟨x, hx⟩ : ∃ x, text.head? = some (x, (a.length, a.length + 1)) := by
    obtain ⟨d, s, rfl⟩ := List.exists_cons_of_ne_nil hne
    obtain ⟨x, -, hx⟩ := @head?_foldedFrom u a.length d s
    exact ⟨x, hs ▸ hx⟩
  obtain ⟨y, hy⟩ : ∃ y, text.getLast? =
      some (y, (a.length + s.length - 1, a.length + s.length)) := by
    rcases List.eq_nil_or_concat s with rfl | ⟨s, d, rfl⟩
    · exact absurd rfl hne
    · obtain ⟨y, -, hy⟩ := @getLast?_foldedFrom u a.length s d
      refine ⟨y, ?_⟩
      rw [hs, List.concat_eq_append, hy]
      simp [Nat.add_assoc]
  rw [spanOf_append hx hy]

/-! ### ASCII words -/

/-- A position strictly inside of a run of ASCII word characters. -/
def InsideWord (s : Text) (i : ℕ) : Prop :=
  0 < i ∧ isAsciiWordAt s (i - 1) = true ∧ isAsciiWordAt s i = true

theorem isAsciiWordAt_length (a b : Text) :
    isAsciiWordAt (a ++ b) a.length = b.head?.any isAsciiWordCharacter := by
  rw [isAsciiWordAt, List.getElem?_append_right le_rfl, Nat.sub_self, List.head?_eq_getElem?]

theorem isAsciiWordAt_pred {a : Text} (ha : a ≠ []) (b : Text) :
    isAsciiWordAt (a ++ b) (a.length - 1) = a.getLast?.any isAsciiWordCharacter := by
  have hlength := List.length_pos_iff.2 ha
  rw [isAsciiWordAt, List.getElem?_append_left (by omega), List.getLast?_eq_getElem?]

theorem insideWord_append (a b : Text) :
    InsideWord (a ++ b) a.length ↔ a.getLast?.any isAsciiWordCharacter = true ∧
      b.head?.any isAsciiWordCharacter = true := by
  unfold InsideWord
  rw [isAsciiWordAt_length]
  constructor
  · rintro ⟨hpos, hlast, hhead⟩
    rw [isAsciiWordAt_pred (List.length_pos_iff.1 hpos)] at hlast
    exact ⟨hlast, hhead⟩
  · rintro ⟨hlast, hhead⟩
    have hne : a ≠ [] := by
      rintro rfl
      simp at hlast
    rw [isAsciiWordAt_pred hne]
    exact ⟨List.length_pos_iff.2 hne, hlast, hhead⟩

/-! ### The Unicode database -/

/-- What the spans rely on: every part of a text in the normal form is in the normal form, ASCII
word characters fold to their small letters, and blanks and commas fold to themselves and from
themselves only. -/
structure UnicodeData.Lawful (u : UnicodeData) : Prop where
  nfc_infix : ∀ {s t : Text}, t <:+: u.nfc s → u.nfc t = t
  casefold_word : ∀ {c : Char}, isAsciiWordCharacter c = true → u.casefold c = [c.toLower]
  casefold_blank : ∀ {c : Char}, isBlank true c = true → u.casefold c = [c]
  eq_of_mem_casefold : ∀ {c d : Char}, d ∈ u.casefold c → isBlank true d = true → d = c

theorem nfc_nfc (hu : u.Lawful) (s : Text) : u.nfc (u.nfc s) = u.nfc s :=
  hu.nfc_infix (List.infix_rfl)

theorem toNat_of_isAsciiWordCharacter {c : Char} (h : isAsciiWordCharacter c = true) :
    c.toNat < 128 := by
  rcases Bool.or_eq_true_iff.1 h with h | h
  · exact of_decide_eq_true (Bool.and_eq_true_iff.1 h).1
  · rw [beq_iff_eq.1 h]
    decide

/-- Small letters of ASCII word characters are such, and none of them is a blank or a comma. -/
theorem isAsciiWordCharacter_toLower {c : Char} (h : isAsciiWordCharacter c = true) :
    isAsciiWordCharacter c.toLower = true ∧ isBlank true c = false ∧
      isBlank true c.toLower = false := by
  have hall : ∀ n : Fin 128, isAsciiWordCharacter (Char.ofNat n) = true →
      isAsciiWordCharacter (Char.ofNat n).toLower = true ∧ isBlank true (Char.ofNat n) = false ∧
        isBlank true (Char.ofNat n).toLower = false := by decide +kernel
  have hc := hall ⟨c.toNat, toNat_of_isAsciiWordCharacter h⟩
  rw [Char.ofNat_toNat] at hc
  exact hc h

/-- Other characters have no small letters, as far as ASCII goes. -/
theorem toLower_eq {c : Char} (h : ¬ isAsciiWordCharacter c = true) : c.toLower = c := by
  refine dif_neg fun hupper => h ?_
  have hascii : c.toNat < 128 := Nat.lt_of_le_of_lt hupper.2 (by decide)
  simp only [isAsciiWordCharacter, isAsciiAlnum, Char.isAlphanum, Char.isAlpha, Char.isUpper,
    hascii, Bool.or_eq_true, Bool.and_eq_true, decide_eq_true_eq]
  exact Or.inl ⟨trivial, Or.inl (Or.inl hupper)⟩

theorem asciiData_lawful : asciiData.Lawful where
  nfc_infix _ := rfl
  casefold_word _ := rfl
  casefold_blank {c} hc := by
    have hword : ¬ isAsciiWordCharacter c = true := fun h => by
      simp [(isAsciiWordCharacter_toLower h).2.1] at hc
    exact congrArg (fun d => [d]) (toLower_eq hword)
  eq_of_mem_casefold {c d} hd hblank := by
    obtain rfl : d = c.toLower := List.mem_singleton.1 hd
    by_cases hword : isAsciiWordCharacter c = true
    · rw [(isAsciiWordCharacter_toLower hword).2.2] at hblank
      cases hblank
    · exact toLower_eq hword

theorem casefold_append (s t : Text) : casefold u (s ++ t) = casefold u s ++ casefold u t :=
  List.flatMap_append

theorem casefold_ne_nil {s : Text} (h : s ≠ []) : casefold u s ≠ [] := by
  obtain ⟨c, s, rfl⟩ := List.exists_cons_of_ne_nil h
  rw [casefold, List.flatMap_cons]
  exact List.append_ne_nil_of_left_ne_nil (u.casefold_ne_nil c) _

/-- Folding keeps a word character at the start. -/
theorem head?_casefold (hu : u.Lawful) {s : Text}
    (h : s.head?.any isAsciiWordCharacter = true) :
    (casefold u s).head?.any isAsciiWordCharacter = true := by
  cases s with
  | nil => cases h
  | cons c s =>
    rw [casefold, List.flatMap_cons, hu.casefold_word h]
    exact (isAsciiWordCharacter_toLower h).1

/-- Folding keeps a word character at the end. -/
theorem getLast?_casefold (hu : u.Lawful) {s : Text}
    (h : s.getLast?.any isAsciiWordCharacter = true) :
    (casefold u s).getLast?.any isAsciiWordCharacter = true := by
  rcases List.eq_nil_or_concat s with rfl | ⟨s, c, rfl⟩
  · cases h
  · rw [List.concat_eq_append, List.getLast?_concat] at h
    have hfold : casefold u [c] = [c.toLower] := by
      rw [casefold, List.flatMap_singleton, hu.casefold_word h]
    rw [List.concat_eq_append, casefold_append, hfold, List.getLast?_concat]
    exact (isAsciiWordCharacter_toLower h).1

/-! ### Names as they are written -/

/-- The text of a span. -/
def slice (s : Text) (span : Span) : Text := (s.take span.2).drop span.1

theorem slice_append (a s b : Text) : slice (a ++ s ++ b) (a.length, a.length + s.length) = s := by
  rw [slice, List.take_left' (by simp), List.drop_left]

/-- A span of the question begins and ends at a boundary of ASCII words, and its text has the normal
form of the name. -/
structure Respects (u : UnicodeData) (normal : Text → Text) (query name : Text) (span : Span) :
    Prop where
  start : ¬ InsideWord (u.nfc query) span.1
  finish : ¬ InsideWord (u.nfc query) span.2
  text : normal (slice (u.nfc query) span) = normal name

/-- A span of a name as it is written is a stretch that folds to the name, and neither its start nor
its end is inside of a word of the folded question. -/
theorem exists_stretch_of_mem_literalNameSpans {query name : Text} {span : Span}
    (h : span ∈ literalNameSpans u query name) :
    ∃ a s b, u.nfc query = a ++ s ++ b ∧ s ≠ [] ∧ casefold u s = casefold u (u.nfc name) ∧
      span = (a.length, a.length + s.length) ∧
      ¬ ((casefold u a).getLast?.any isAsciiWordCharacter = true ∧
        (casefold u s).head?.any isAsciiWordCharacter = true) ∧
      ¬ ((casefold u s).getLast?.any isAsciiWordCharacter = true ∧
        (casefold u b).head?.any isAsciiWordCharacter = true) := by
  unfold literalNameSpans at h
  split_ifs at h with hname
  · cases h
  · obtain ⟨first, hfirst, hsome⟩ := List.mem_filterMap.1 h
    obtain ⟨before, text, after, hfolded, htext, rfl⟩ := mem_occurrences.1 hfirst
    have hne : text ≠ [] := by
      rintro rfl
      exact casefold_ne_nil (u.nfc_ne_nil name hname) htext.symm
    have hlength : text.length = (casefold u (u.nfc name)).length := by
      rw [← htext, List.length_map]
    simp only [hfolded, ← hlength] at hsome
    split_ifs at hsome with hkept
    simp only [Bool.and_eq_true, Bool.not_eq_true', wholeCharacterMatch_iff hne] at hkept
    obtain ⟨⟨hstart, hend⟩, hbetween, hbetween'⟩ := hkept
    obtain ⟨a, s, b, hquery, hs, rfl, rfl, rfl, hspan⟩ :=
      exists_stretch hfolded hne hbetween hbetween'
    rw [map_fst_foldedFrom] at htext
    have hfold : (foldedFrom u 0 a ++ foldedFrom u a.length s ++
        foldedFrom u (a.length + s.length) b).map Prod.fst =
          casefold u a ++ casefold u s ++ casefold u b := by
      rw [List.map_append, List.map_append, map_fst_foldedFrom, map_fst_foldedFrom,
        map_fst_foldedFrom]
    refine ⟨a, s, b, hquery, hs, htext, (hspan ▸ Option.some.inj hsome).symm, ?_, ?_⟩
    · rintro ⟨hlast, hhead⟩
      have hne' : casefold u a ≠ [] := by
        intro hnil
        rw [hnil] at hlast
        cases hlast
      rw [Bool.and_eq_false_iff, Bool.and_eq_false_iff] at hstart
      rcases hstart with (hpos | hword) | hword
      · rw [decide_eq_false_iff_not, length_foldedFrom] at hpos
        exact hpos (List.length_pos_iff.2 hne')
      · rw [← htext, isAsciiWordAt, ← List.head?_eq_getElem?, hhead] at hword
        cases hword
      · rw [hfold, length_foldedFrom, List.append_assoc, isAsciiWordAt_pred hne', hlast] at hword
        cases hword
    · rintro ⟨hlast, hhead⟩
      rw [Bool.and_eq_false_iff] at hend
      rcases hend with hword | hword
      · rw [← htext, length_foldedFrom, isAsciiWordAt, ← List.getLast?_eq_getElem?, hlast] at hword
        cases hword
      · rw [hfold, length_foldedFrom, length_foldedFrom, ← List.length_append,
          isAsciiWordAt_length, hhead] at hword
        cases hword

/-- **A name as it is written** is only found at the boundaries of ASCII words. -/
theorem respects_of_mem_literalNameSpans (hu : u.Lawful) {query name : Text} {span : Span}
    (h : span ∈ literalNameSpans u query name) :
    Respects u (fun s => casefold u (u.nfc s)) query name span := by
  obtain ⟨a, s, b, hquery, hs, hfold, rfl, hstart, hend⟩ := exists_stretch_of_mem_literalNameSpans h
  refine ⟨?_, ?_, ?_⟩
  · rw [hquery, List.append_assoc, insideWord_append, List.head?_append_of_ne_nil _ hs]
    rintro ⟨hlast, hhead⟩
    exact hstart ⟨getLast?_casefold hu hlast, head?_casefold hu hhead⟩
  · dsimp only
    rw [hquery, ← List.length_append, insideWord_append, List.getLast?_append_of_ne_nil _ hs]
    rintro ⟨hlast, hhead⟩
    exact hend ⟨getLast?_casefold hu hlast, head?_casefold hu hhead⟩
  · have hinfix : s <:+: u.nfc query := ⟨a, b, hquery.symm⟩
    rw [hquery, slice_append, hu.nfc_infix hinfix, hfold]

end Entities
