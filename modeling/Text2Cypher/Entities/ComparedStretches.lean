import Text2Cypher.Entities.Stretches

/-!
# Stretches of the comparison text

A match in the comparison text is a stretch of the question that is compared as the name: the loop
that builds the comparison text looks back at one character only, so that what it writes for a
stretch does not depend on what is around it.

* `normalizeStep_append`, `foldl_normalizeStep_append`: what is under a letter stays as it is;
* `exists_split_of_letter`: where a written letter was read;
* **`mem_normalizedNameSpans`**: the spans of a name up to blanks and commas.
-/

namespace Entities

open Python

variable {u : UnicodeData} {removeCommas : Bool}

/-! ### Under a letter -/

/-- One step on top of a letter: what it writes does not depend on what is under the letter, and
begins where something that was read begins. -/
theorem normalizeStep_append (acc : List (Char × Span)) {x : Char × Span}
    (hx : ¬ isBlank removeCommas x.1 = true) (c : Char × Span) :
    ∃ acc', (∀ base, normalizeStep removeCommas (acc ++ x :: base) c = acc' ++ x :: base) ∧
      ∀ out ∈ acc', (∃ a ∈ acc, out.2.1 = a.2.1) ∨ out.2.1 = c.2.1 := by
  have hspace : x.1 ≠ ' ' := fun h => hx (h ▸ isBlank_space)
  by_cases hc : isBlank removeCommas c.1 = true
  · cases acc with
    | nil =>
      by_cases hlast : removeCommas = false ∧ x.1 = ','
      · exact ⟨[], fun base => normalizeStep_blank_comma hc hlast base, by simp⟩
      · exact ⟨[(' ', c.2)], fun base => normalizeStep_blank hc hlast hspace base, by simp⟩
    | cons last acc =>
      by_cases hlast : removeCommas = false ∧ last.1 = ','
      · exact ⟨last :: acc, fun base => normalizeStep_blank_comma hc hlast _,
          fun out hout => Or.inl ⟨out, hout, rfl⟩⟩
      · by_cases hblank : last.1 = ' '
        · obtain ⟨last, s⟩ := last
          obtain rfl : last = ' ' := hblank
          refine ⟨(' ', (s.1, c.2.2)) :: acc, fun base => normalizeStep_blank_space hc s _,
            fun out hout => Or.inl ?_⟩
          rcases List.mem_cons.1 hout with rfl | hout
          · exact ⟨(' ', s), List.mem_cons_self, rfl⟩
          · exact ⟨out, List.mem_cons_of_mem _ hout, rfl⟩
        · refine ⟨(' ', c.2) :: last :: acc, fun base => normalizeStep_blank hc hlast hblank _,
            fun out hout => ?_⟩
          rcases List.mem_cons.1 hout with rfl | hout
          · exact Or.inr rfl
          · exact Or.inl ⟨out, hout, rfl⟩
  · have hcons : ∀ acc : List (Char × Span), (∀ out ∈ c :: acc, (∃ a ∈ acc, out.2.1 = a.2.1) ∨
        out.2.1 = c.2.1) := fun acc out hout => by
      rcases List.mem_cons.1 hout with rfl | hout
      · exact Or.inr rfl
      · exact Or.inl ⟨out, hout, rfl⟩
    by_cases hpop : c.1 = ',' ∧ ∃ s rest, acc = (' ', s) :: rest
    · obtain ⟨hcomma, s, rest, rfl⟩ := hpop
      refine ⟨c :: rest, fun base => normalizeStep_comma hc hcomma s _, fun out hout => ?_⟩
      rcases hcons rest out hout with ⟨a, ha, heq⟩ | heq
      · exact Or.inl ⟨a, List.mem_cons_of_mem _ ha, heq⟩
      · exact Or.inr heq
    · refine ⟨c :: acc, fun base => normalizeStep_letter hc fun hcomma last hlast hblank => ?_,
        hcons acc⟩
      rcases acc with _ | ⟨last', rest⟩
      · obtain rfl := Option.some.inj hlast
        exact hspace hblank
      · obtain rfl := Option.some.inj hlast
        exact hpop ⟨hcomma, last'.2, rest, by rw [← hblank]⟩

/-- What is under a letter stays as it is. -/
theorem foldl_normalizeStep_append (l acc : List (Char × Span)) {x : Char × Span}
    (hx : ¬ isBlank removeCommas x.1 = true) :
    ∃ acc', (∀ base, l.foldl (normalizeStep removeCommas) (acc ++ x :: base) =
        acc' ++ x :: base) ∧
      ∀ out ∈ acc', (∃ a ∈ acc, out.2.1 = a.2.1) ∨ ∃ c ∈ l, out.2.1 = c.2.1 := by
  induction l generalizing acc with
  | nil => exact ⟨acc, fun base => rfl, fun out hout => Or.inl ⟨out, hout, rfl⟩⟩
  | cons c l ih =>
    obtain ⟨next, hnext, hnextmem⟩ := normalizeStep_append acc hx c
    obtain ⟨acc', hacc', hmem⟩ := ih next
    refine ⟨acc', fun base => ?_, fun out hout => ?_⟩
    · rw [List.foldl_cons, hnext, hacc']
    · rcases hmem out hout with ⟨a, ha, heq⟩ | ⟨d, hd, heq⟩
      · rcases hnextmem a ha with ⟨b, hb, heq'⟩ | heq'
        · exact Or.inl ⟨b, hb, heq.trans heq'⟩
        · exact Or.inr ⟨c, List.mem_cons_self, heq.trans heq'⟩
      · exact Or.inr ⟨d, List.mem_cons_of_mem _ hd, heq⟩

/-! ### Where letters come from -/

/-- A letter is written on top, over what was written or over all of it but a blank. -/
theorem exists_normalizeStep_letter (acc : List (Char × Span)) {x : Char × Span}
    (hx : ¬ isBlank removeCommas x.1 = true) :
    ∃ under, normalizeStep removeCommas acc x = x :: under ∧
      (acc = under ∨ ∃ s, acc = (' ', s) :: under ∧ x.1 = ',') := by
  by_cases hpop : x.1 = ',' ∧ ∃ s rest, acc = (' ', s) :: rest
  · obtain ⟨hcomma, s, rest, rfl⟩ := hpop
    exact ⟨rest, normalizeStep_comma hx hcomma s rest, Or.inr ⟨s, rfl, hcomma⟩⟩
  · refine ⟨acc, normalizeStep_letter hx fun hcomma last hlast hblank => ?_, Or.inl rfl⟩
    obtain ⟨rest, rfl⟩ := List.head?_eq_some_iff.1 hlast
    exact hpop ⟨hcomma, last.2, rest, by rw [← hblank]⟩

/-- A letter that is written after a step is the one that was read, or was written before. -/
theorem mem_of_normalizeStep_eq {acc above under : List (Char × Span)} {c x : Char × Span}
    (hx : ¬ isBlank removeCommas x.1 = true)
    (h : normalizeStep removeCommas acc c = above ++ x :: under) :
    (c = x ∧ above = []) ∨ ∃ above', acc = above' ++ x :: under := by
  have hspace : x.1 ≠ ' ' := fun h => hx (h ▸ isBlank_space)
  by_cases hc : isBlank removeCommas c.1 = true
  · refine Or.inr ?_
    rcases acc with _ | ⟨⟨last, s⟩, rest⟩
    · rw [normalizeStep_blank_nil hc] at h
      simp at h
    · have hpush : ∀ span : Span, (' ', span) :: rest = above ++ x :: under →
          ∃ above', rest = above' ++ x :: under := by
        intro span heq
        rcases List.cons_eq_append_iff.1 heq with ⟨-, heq⟩ | ⟨above', -, heq⟩
        · exact absurd (congrArg Prod.fst (List.cons.inj heq).1) hspace
        · exact ⟨above', heq⟩
      by_cases hlast : removeCommas = false ∧ last = ','
      · rw [normalizeStep_blank_comma hc hlast] at h
        exact ⟨above, h⟩
      · by_cases hblank : last = ' '
        · subst hblank
          rw [normalizeStep_blank_space hc] at h
          obtain ⟨above', hrest⟩ := hpush _ h
          exact ⟨(' ', s) :: above', by rw [hrest, List.cons_append]⟩
        · rw [normalizeStep_blank hc hlast hblank] at h
          rcases List.cons_eq_append_iff.1 h with ⟨-, heq⟩ | ⟨above', -, heq⟩
          · exact absurd (congrArg Prod.fst (List.cons.inj heq).1) hspace
          · exact ⟨above', heq⟩
  · obtain ⟨rest, hrest, hacc⟩ := exists_normalizeStep_letter acc hc
    rw [hrest] at h
    rcases List.cons_eq_append_iff.1 h with ⟨rfl, heq⟩ | ⟨above', -, rfl⟩
    · exact Or.inl ⟨(List.cons.inj heq).1.symm, rfl⟩
    · rcases hacc with rfl | ⟨s, rfl, -⟩
      · exact Or.inr ⟨above', rfl⟩
      · exact Or.inr ⟨(' ', s) :: above', rfl⟩

/-- **Where a written letter was read**, and what was written under it then. -/
theorem exists_split_of_letter {f above under : List (Char × Span)} {x : Char × Span}
    (hx : ¬ isBlank removeCommas x.1 = true)
    (h : f.foldl (normalizeStep removeCommas) [] = above ++ x :: under) :
    ∃ before after, f = before ++ x :: after ∧
      normalizeStep removeCommas (before.foldl (normalizeStep removeCommas) []) x =
        x :: under := by
  induction f using List.reverseRecOn generalizing above with
  | nil => simp at h
  | append_singleton f c ih =>
    rw [List.foldl_append, List.foldl_cons, List.foldl_nil] at h
    rcases mem_of_normalizeStep_eq hx h with ⟨rfl, rfl⟩ | ⟨above', hacc⟩
    · exact ⟨f, [], rfl, h⟩
    · obtain ⟨before, after, rfl, hbefore⟩ := ih hacc
      exact ⟨before, after ++ [c], by simp, hbefore⟩

/-! ### Matches -/

/-- The loop has written the comparison text, and at most one blank more. -/
theorem exists_foldl_eq (u : UnicodeData) (removeCommas : Bool) (query : Text) :
    ∃ blanks, (∀ c ∈ blanks, c.1 = ' ') ∧
      (casefoldWithSpans u query).foldl (normalizeStep removeCommas) [] =
        blanks ++ (normalizeQuery u removeCommas query).reverse := by
  unfold normalizeQuery
  generalize (casefoldWithSpans u query).foldl (normalizeStep removeCommas) [] = acc
  dsimp only
  split
  · rename_i s rest
    exact ⟨[(' ', s)], by simp, by simp⟩
  · exact ⟨[], by simp, by simp⟩

/-- The characters that are written depend on the characters that are read only. -/
theorem map_fst_foldl_normalizeStep {l l' : List (Char × Span)}
    (h : l.map Prod.fst = l'.map Prod.fst) :
    (l.foldl (normalizeStep removeCommas) []).map Prod.fst =
      (l'.foldl (normalizeStep removeCommas) []).map Prod.fst := by
  cases removeCommas with
  | true => rw [map_fst_foldl_normalizeStep_true, map_fst_foldl_normalizeStep_true, h]
  | false =>
    have hstart : Holding [] [] false [] := ⟨rfl, by simp, by simp, by simp, fun _ => rfl⟩
    rw [map_fst_foldl_normalizeStep_false hstart, map_fst_foldl_normalizeStep_false hstart, h]

theorem isBlank_true {c : Char} (h : isBlank removeCommas c = true) : isBlank true c = true := by
  cases removeCommas with
  | true => exact h
  | false =>
    have hspace : isSpace c = true := by simpa [isBlank] using h
    simp [isBlank, hspace]

/-- A blank and a letter do not come from one character. -/
theorem snd_ne_of_isBlank (hu : u.Lawful) {query : Text} {c x : Char × Span}
    (hc : c ∈ casefoldWithSpans u query) (hx : x ∈ casefoldWithSpans u query)
    (hblank : isBlank removeCommas c.1 = true) (hletter : ¬ isBlank removeCommas x.1 = true) :
    c.2 ≠ x.2 := by
  intro heq
  obtain ⟨i, d, hd, hcd, hci⟩ := mem_casefoldWithSpans.1 hc
  obtain ⟨j, e, he, hxe, hxj⟩ := mem_casefoldWithSpans.1 hx
  obtain rfl : i = j := by simpa [hci, hxj] using heq
  obtain rfl := Option.some.inj (hd.symm.trans he)
  have hblank' : isBlank true c.1 = true := isBlank_true hblank
  have hcd' : c.1 = d := hu.eq_of_mem_casefold hcd hblank'
  rw [hu.casefold_blank (hcd' ▸ hblank'), List.mem_singleton] at hxe
  exact hletter (hxe ▸ hcd' ▸ hblank)

/-- A match between letters was written for a run of the folded text between characters. -/
theorem exists_run_of_match (hu : u.Lawful) {query : Text} {before text after : List (Char × Span)}
    (h : normalizeQuery u removeCommas query = before ++ text ++ after) {x y : Char × Span}
    (hx : text.head? = some x) (hy : text.getLast? = some y)
    (hxletter : ¬ isBlank removeCommas x.1 = true) (hyletter : ¬ isBlank removeCommas y.1 = true)
    (hstart : Between before text) (hend : Between text after) :
    ∃ f g k, casefoldWithSpans u query = f ++ g ++ k ∧
      g.foldl (normalizeStep removeCommas) [] = text.reverse ∧ g.head? = some x ∧
      g.getLast? = some y ∧ Between f g ∧ Between g k := by
  obtain ⟨blanks, hblanks, hfold⟩ := exists_foldl_eq u removeCommas query
  obtain ⟨text', rfl⟩ := List.getLast?_eq_some_iff.1 hy
  have hcomparison : (casefoldWithSpans u query).foldl (normalizeStep removeCommas) [] =
      (blanks ++ after.reverse) ++ y :: (text'.reverse ++ before.reverse) := by
    rw [hfold, h]
    simp
  -- the last letter, and then the first one before it
  obtain ⟨upto, k, hfolded, hlast⟩ := exists_split_of_letter hyletter hcomparison
  obtain ⟨rest, hrest⟩ := List.head?_eq_some_iff.1 hx
  have hlast' : (upto ++ [y]).foldl (normalizeStep removeCommas) [] =
      rest.reverse ++ x :: before.reverse := by
    rw [List.foldl_append, List.foldl_cons, List.foldl_nil, hlast]
    have hreverse := congrArg List.reverse hrest
    rw [List.reverse_append, List.reverse_cons] at hreverse
    simpa using congrArg (· ++ before.reverse) hreverse
  obtain ⟨f, g, hupto, hfirst⟩ := exists_split_of_letter hxletter hlast'
  obtain ⟨written, hwritten, -⟩ := foldl_normalizeStep_append g [] hxletter
  have hg : (x :: g).foldl (normalizeStep removeCommas) [] = (text' ++ [y]).reverse := by
    have hwhole : (f ++ x :: g).foldl (normalizeStep removeCommas) [] =
        written ++ x :: before.reverse := by
      rw [List.foldl_append, List.foldl_cons, hfirst]
      exact hwritten before.reverse
    rw [← hupto, hlast', List.append_cancel_right_eq] at hwhole
    rw [hrest, List.reverse_cons, hwhole, List.foldl_cons, normalizeStep_letter hxletter (by simp)]
    exact hwritten []
  have hmem : casefoldWithSpans u query = f ++ x :: g ++ k := by
    rw [hfolded, ← hupto, List.append_assoc, List.singleton_append]
  have hlastg : (x :: g).getLast? = some y := by
    have hlastg := congrArg List.getLast? hupto
    rw [List.getLast?_concat, List.getLast?_append_of_ne_nil _ (by simp)] at hlastg
    exact hlastg.symm
  have hxmem : x ∈ casefoldWithSpans u query := by simp [hmem]
  have hymem : y ∈ casefoldWithSpans u query := by simp [hfolded]
  refine ⟨f, x :: g, k, hmem, hg, rfl, hlastg, ?_, ?_⟩
  · intro c hc b hb
    obtain rfl := Option.some.inj hb
    obtain ⟨f', rfl⟩ := List.getLast?_eq_some_iff.1 hc
    by_cases hblank : isBlank removeCommas c.1 = true
    · have hcmem : c ∈ casefoldWithSpans u query := by simp [hmem]
      exact snd_ne_of_isBlank hu hcmem hxmem hblank hxletter
    · -- the letter before is the last one that was written
      refine hstart c ?_ x hx
      obtain ⟨under, hunder, -⟩ := exists_normalizeStep_letter
        (f'.foldl (normalizeStep removeCommas) []) hblank
      rw [List.foldl_append, List.foldl_cons, List.foldl_nil, hunder] at hfirst
      rw [normalizeStep_letter hxletter fun _ last hlast => ?_] at hfirst
      · rw [← List.head?_reverse, ← (List.cons.inj hfirst).2]
        rfl
      · obtain rfl := Option.some.inj hlast
        exact fun h => hblank (h ▸ isBlank_space)
  · intro c hc b hb
    obtain rfl : y = c := Option.some.inj (hlastg.symm.trans hc)
    obtain ⟨k', rfl⟩ := List.head?_eq_some_iff.1 hb
    by_cases hblank : isBlank removeCommas b.1 = true
    · have hbmem : b ∈ casefoldWithSpans u query := by simp [hmem]
      exact (snd_ne_of_isBlank hu hbmem hymem hblank hyletter).symm
    · -- the letter behind is the first one that is written
      refine hend y (by simp) b ?_
      obtain ⟨written', hwritten', -⟩ := foldl_normalizeStep_append k' [] hblank
      have hyhead : b.1 = ',' → ∀ last ∈ (y :: (text'.reverse ++ before.reverse)).head?,
          last.1 ≠ ' ' := by
        intro _ last hlast
        obtain rfl := Option.some.inj hlast
        exact fun h => hyletter (h ▸ isBlank_space)
      rw [hfolded, List.foldl_append, List.foldl_cons, hlast, List.foldl_cons,
        normalizeStep_letter hblank hyhead] at hcomparison
      have hcut := (hwritten' _).symm.trans hcomparison
      rw [List.append_cons, List.append_cancel_right_eq] at hcut
      cases after with
      | nil =>
        have hmemb : b ∈ blanks := by
          rw [List.reverse_nil, List.append_nil] at hcut
          rw [← hcut]
          simp
        exact absurd (hblanks b hmemb ▸ isBlank_space) hblank
      | cons d after =>
        rw [List.reverse_cons, ← List.append_assoc] at hcut
        rw [(List.cons.inj (List.append_inj' hcut rfl).2).1]
        rfl

/-! ### The ends of what is written -/

/-- Nothing is written on a blank at the bottom. -/
theorem getLast?_foldl_normalizeStep (f : List (Char × Span)) :
    ∀ b ∈ (f.foldl (normalizeStep removeCommas) []).getLast?,
      ¬ isBlank removeCommas b.1 = true := by
  induction f using List.reverseRecOn with
  | nil => simp
  | append_singleton f c ih =>
    rw [List.foldl_append, List.foldl_cons, List.foldl_nil]
    generalize f.foldl (normalizeStep removeCommas) [] = acc at ih
    by_cases hc : isBlank removeCommas c.1 = true
    · rcases acc with _ | ⟨⟨last, s⟩, rest⟩
      · rw [normalizeStep_blank_nil hc]
        exact ih
      · by_cases hlast : removeCommas = false ∧ last = ','
        · rw [normalizeStep_blank_comma hc hlast]
          exact ih
        · by_cases hblank : last = ' '
          · subst hblank
            rw [normalizeStep_blank_space hc]
            cases rest with
            | nil => exact absurd isBlank_space (ih (' ', s) rfl)
            | cons d rest => exact ih
          · rw [normalizeStep_blank hc hlast hblank]
            exact ih
    · obtain ⟨under, hunder, hacc⟩ := exists_normalizeStep_letter acc hc
      rw [hunder]
      cases under with
      | nil =>
        intro b hb
        obtain rfl := Option.some.inj hb
        exact hc
      | cons d under =>
        rcases hacc with rfl | ⟨s, rfl, -⟩
        · exact ih
        · exact ih

/-- What is written is a letter or one blank. -/
theorem isBlank_of_mem_normalizeQuery {query : Text} {out : Char × Span}
    (h : out ∈ normalizeQuery u removeCommas query) (hspace : out.1 ≠ ' ') :
    ¬ isBlank removeCommas out.1 = true := by
  have hletter := (cameFrom_normalizeQuery h).letter hspace
  simp [hletter.1]

/-- The comparison text begins with a letter. -/
theorem head?_normalizeQuery {query : Text} {x : Char × Span}
    (h : (normalizeQuery u removeCommas query).head? = some x) :
    ¬ isBlank removeCommas x.1 = true := by
  obtain ⟨blanks, -, hfold⟩ := exists_foldl_eq u removeCommas query
  obtain ⟨rest, hrest⟩ := List.head?_eq_some_iff.1 h
  refine getLast?_foldl_normalizeStep (casefoldWithSpans u query) x ?_
  rw [hfold, hrest, List.reverse_cons, ← List.append_assoc, List.getLast?_concat]
  rfl

/-- The comparison text ends with a letter. -/
theorem getLast?_normalizeQuery {query : Text} {y : Char × Span}
    (h : (normalizeQuery u removeCommas query).getLast? = some y) :
    ¬ isBlank removeCommas y.1 = true := by
  refine isBlank_of_mem_normalizeQuery (List.mem_of_getLast? h) ?_
  have hfollows := @follows_foldl removeCommas (casefoldWithSpans u query)
  unfold normalizeQuery at h
  generalize (casefoldWithSpans u query).foldl (normalizeStep removeCommas) [] = acc at hfollows h
  cases hfollows with
  | written htraced hhead =>
    dsimp only at h
    split at h
    · exact absurd rfl (hhead _ rfl)
    · rw [List.getLast?_reverse] at h
      exact hhead y h
  | @blank before run rest first last hfolded htraced hhead hrun hfirst hlast =>
    replace h : rest.reverse.getLast? = some y := h
    rw [List.getLast?_reverse] at h
    exact hhead y h

/-- What is written ends where something that was read ends. -/
theorem exists_end_of_mem_foldl {f : List (Char × Span)} {out : Char × Span}
    (h : out ∈ f.foldl (normalizeStep removeCommas) []) : ∃ c ∈ f, out.2.2 = c.2.2 := by
  have hfollows := @follows_foldl removeCommas f
  generalize f.foldl (normalizeStep removeCommas) [] = acc at hfollows h
  have hends : ∀ {read : List (Char × Span)} {acc : List (Char × Span)},
      Traced removeCommas read acc.reverse → out ∈ acc → ∃ c ∈ read, out.2.2 = c.2.2 := by
    intro read acc htraced hout
    obtain ⟨first, hfirst, last, hlast, heq⟩ := htraced.exists_ends (List.mem_reverse.2 hout)
    exact ⟨last, hlast, by rw [heq]⟩
  cases hfollows with
  | written htraced hhead => exact hends htraced h
  | @blank before run rest first last hfolded htraced hhead hrun hfirst hlast =>
    rw [hfolded]
    rcases List.mem_cons.1 h with rfl | h
    · exact ⟨last, List.mem_append_right _ (List.mem_of_getLast? hlast), rfl⟩
    · obtain ⟨c, hc, heq⟩ := hends htraced h
      exact ⟨c, List.mem_append_left _ hc, heq⟩

/-! ### Stretches that are compared as the name -/

/-- A stretch that begins and ends with a letter, and that is compared as the name. -/
structure StandsFor (u : UnicodeData) (removeCommas : Bool) (name s : Text) : Prop where
  head : ∀ c ∈ s.head?, ¬ isBlank removeCommas c = true
  last : ∀ c ∈ s.getLast?, ¬ isBlank removeCommas c = true
  nonempty : s ≠ []
  text : normalizedNameComparison u removeCommas s = normalizedNameComparison u removeCommas name

/-- What a letter folds to are letters. -/
theorem not_isBlank_of_mem_casefold (hu : u.Lawful) {c d : Char} (h : c ∈ u.casefold d)
    (hd : ¬ isBlank removeCommas d = true) : ¬ isBlank removeCommas c = true := by
  intro hblank
  exact hd (hu.eq_of_mem_casefold h (isBlank_true hblank) ▸ hblank)

/-- What a letter comes from is a letter. -/
theorem not_isBlank_of_casefold (hu : u.Lawful) {c d : Char} (h : c ∈ u.casefold d)
    (hc : ¬ isBlank removeCommas c = true) : ¬ isBlank removeCommas d = true := by
  intro hblank
  rw [hu.casefold_blank (isBlank_true hblank), List.mem_singleton] at h
  exact hc (h ▸ hblank)

theorem normalizedNameComparison_nfc (hu : u.Lawful) (name : Text) :
    normalizedNameComparison u removeCommas (u.nfc name) =
      normalizedNameComparison u removeCommas name := by
  unfold normalizedNameComparison
  rw [nfc_nfc hu]

/-- What is written for a stretch between letters is its comparison text. -/
theorem map_fst_eq_normalizedNameComparison (hu : u.Lawful) {query s : Text}
    (hs : s <:+: u.nfc query) {n : ℕ} {text : List (Char × Span)}
    (htext : (foldedFrom u n s).foldl (normalizeStep removeCommas) [] = text.reverse)
    (hlast : ∀ c ∈ text.getLast?, c.1 ≠ ' ') :
    text.map Prod.fst = normalizedNameComparison u removeCommas s := by
  rw [← map_fst_normalizeQuery, hu.nfc_infix hs, map_fst_normalizeQuery_eq_close]
  have hchars : ((casefoldWithSpans u s).foldl (normalizeStep removeCommas) []).map Prod.fst =
      (text.map Prod.fst).reverse := by
    rw [← foldedFrom_zero, map_fst_foldl_normalizeStep ((map_fst_foldedFrom 0 s).trans
      (map_fst_foldedFrom n s).symm), htext, List.map_reverse]
  rw [hchars]
  rcases List.eq_nil_or_concat text with rfl | ⟨text, y, rfl⟩
  · rfl
  · have hy : y.1 ≠ ' ' := hlast y (by simp)
    simp [Squeezing.close, hy]

/-- What is written for a stretch between letters is a match between characters. -/
theorem exists_match_of_run {query : Text} {f g k : List (Char × Span)}
    (h : casefoldWithSpans u query = f ++ g ++ k) {x y : Char × Span} (hx : g.head? = some x)
    (hy : g.getLast? = some y) (hxletter : ¬ isBlank removeCommas x.1 = true)
    (hyletter : ¬ isBlank removeCommas y.1 = true) (hf : ∀ c ∈ f, c.2.2 ≠ x.2.2)
    (hk : ∀ c ∈ k, c.2.1 ≠ y.2.1) :
    ∃ before text after, normalizeQuery u removeCommas query = before ++ text ++ after ∧
      g.foldl (normalizeStep removeCommas) [] = text.reverse ∧ text.head? = some x ∧
      text.getLast? = some y ∧ Between before text ∧ Between text after := by
  obtain ⟨blanks, hblanks, hfold⟩ := exists_foldl_eq u removeCommas query
  obtain ⟨g', rfl⟩ := List.head?_eq_some_iff.1 hx
  obtain ⟨g'', hg''⟩ := List.getLast?_eq_some_iff.1 hy
  obtain ⟨under, hunder, hacc⟩ := exists_normalizeStep_letter
    (f.foldl (normalizeStep removeCommas) []) hxletter
  obtain ⟨written, hwritten, -⟩ := foldl_normalizeStep_append g' [] hxletter
  have hg : (x :: g').foldl (normalizeStep removeCommas) [] = written ++ [x] := by
    rw [List.foldl_cons, normalizeStep_letter hxletter (by simp)]
    exact hwritten []
  -- on top of the stretch stands its last letter
  obtain ⟨rest, hrest⟩ : ∃ rest, written ++ [x] = y :: rest := by
    obtain ⟨rest, hrest, -⟩ := exists_normalizeStep_letter
      (g''.foldl (normalizeStep removeCommas) []) hyletter
    exact ⟨rest, by rw [← hg, hg'', List.foldl_append, List.foldl_cons, List.foldl_nil, hrest]⟩
  obtain ⟨above, habove, hstarts⟩ := foldl_normalizeStep_append k [] hyletter
  have hwhole : blanks ++ (normalizeQuery u removeCommas query).reverse =
      above ++ ((written ++ [x]) ++ under) := by
    rw [← hfold, h, List.foldl_append, List.foldl_append, List.foldl_cons, hunder]
    have hstretch : g'.foldl (normalizeStep removeCommas) (x :: under) =
        (written ++ [x]) ++ under := by
      rw [List.append_assoc, List.singleton_append]
      exact hwritten under
    rw [hstretch, hrest]
    exact habove _
  obtain ⟨above', rfl, hcomparison⟩ : ∃ above', above = blanks ++ above' ∧
      (normalizeQuery u removeCommas query).reverse = above' ++ ((written ++ [x]) ++ under) := by
    rcases List.append_eq_append_iff.1 hwhole with ⟨above', ha, hq⟩ | ⟨rest', hb, hq⟩
    · exact ⟨above', ha, hq⟩
    · cases rest' with
      | nil => exact ⟨[], by simpa using hb.symm, by simpa using hq.symm⟩
      | cons c rest' =>
        -- the last letter would be a blank
        rw [hrest, List.cons_append, List.cons_append] at hq
        have hspace : y.1 = ' ' := hblanks y (by rw [hb, (List.cons.inj hq).1]; simp)
        exact absurd (hspace ▸ isBlank_space) hyletter
  refine ⟨under.reverse, (written ++ [x]).reverse, above'.reverse, ?_, ?_, ?_, ?_, ?_, ?_⟩
  · rw [← List.reverse_reverse (normalizeQuery u removeCommas query), hcomparison]
    simp
  · rw [hg, List.reverse_reverse]
  · simp
  · rw [hrest, List.getLast?_reverse]
    rfl
  · intro c hc b hb heq
    obtain rfl : x = b := by simpa using hb
    have hcmem : c ∈ f.foldl (normalizeStep removeCommas) [] := by
      have hcunder : c ∈ under := List.mem_reverse.1 (List.mem_of_getLast? hc)
      rcases hacc with hacc | ⟨s, hacc, -⟩
      · exact hacc ▸ hcunder
      · exact hacc ▸ List.mem_cons_of_mem _ hcunder
    obtain ⟨d, hd, hend⟩ := exists_end_of_mem_foldl hcmem
    exact hf d hd (by rw [← hend, heq])
  · intro c hc b hb heq
    rw [hrest, List.getLast?_reverse] at hc
    obtain rfl := Option.some.inj hc
    have hbmem : b ∈ blanks ++ above' :=
      List.mem_append_right _ (List.mem_reverse.1 (List.mem_of_head? hb))
    rcases hstarts b hbmem with ⟨a, ha, -⟩ | ⟨d, hd, hstart⟩
    · cases ha
    · exact hk d hd (by rw [← hstart, heq])

/-- The spans of stretches, before boundaries are checked. -/
theorem exists_match_iff (hu : u.Lawful) {query name : Text} {span : Span} :
    (∃ before text after, normalizeQuery u removeCommas (u.nfc query) = before ++ text ++ after ∧
        text.map Prod.fst = normalizedNameComparison u removeCommas name ∧ text ≠ [] ∧
        Between before text ∧ Between text after ∧
        spanOf ((before ++ text ++ after).map Prod.snd) before.length
          (before.length + text.length) = span) ↔
      ∃ a s b, u.nfc query = a ++ s ++ b ∧ StandsFor u removeCommas name s ∧
        span = (a.length, a.length + s.length) := by
  constructor
  · rintro ⟨before, text, after, hcomparison, htext, hne, hstart, hend, rfl⟩
    obtain ⟨x, hx⟩ : ∃ x, text.head? = some x := by
      obtain ⟨x, text, rfl⟩ := List.exists_cons_of_ne_nil hne
      exact ⟨x, rfl⟩
    obtain ⟨y, hy⟩ : ∃ y, text.getLast? = some y := by
      rcases List.eq_nil_or_concat text with rfl | ⟨text, y, rfl⟩
      · exact absurd rfl hne
      · exact ⟨y, by simp⟩
    -- the name is compared by a text that begins and ends with a letter
    rw [← map_fst_normalizeQuery] at htext
    have hxname : ¬ isBlank removeCommas x.1 = true := by
      have hhead := congrArg List.head? htext
      rw [List.head?_map, List.head?_map, hx] at hhead
      obtain ⟨x', hx', heq⟩ := Option.map_eq_some_iff.1 hhead.symm
      exact heq ▸ head?_normalizeQuery hx'
    have hyname : ¬ isBlank removeCommas y.1 = true := by
      have hlast := congrArg List.getLast? htext
      rw [List.getLast?_map, List.getLast?_map, hy] at hlast
      obtain ⟨y', hy', heq⟩ := Option.map_eq_some_iff.1 hlast.symm
      exact heq ▸ getLast?_normalizeQuery hy'
    obtain ⟨f, g, k, hfolded, hg, hgx, hgy, hfg, hgk⟩ :=
      exists_run_of_match hu hcomparison hx hy hxname hyname hstart hend
    have hgne : g ≠ [] := by
      rintro rfl
      cases hgx
    obtain ⟨a, s, b, hquery, hs, -, rfl, -, hspan⟩ := exists_stretch hfolded hgne hfg hgk
    refine ⟨a, s, b, hquery, ⟨?_, ?_, hs, ?_⟩, ?_⟩
    · intro c hc
      obtain ⟨s', rfl⟩ := List.head?_eq_some_iff.1 hc
      obtain ⟨z, hz, hhead⟩ := @head?_foldedFrom u a.length c s'
      obtain rfl := Option.some.inj (hhead.symm.trans hgx)
      exact not_isBlank_of_casefold hu hz hxname
    · intro c hc
      obtain ⟨s', rfl⟩ := List.getLast?_eq_some_iff.1 hc
      obtain ⟨z, hz, hlast⟩ := @getLast?_foldedFrom u a.length s' c
      obtain rfl := Option.some.inj (hlast.symm.trans hgy)
      exact not_isBlank_of_casefold hu hz hyname
    · rw [← map_fst_eq_normalizedNameComparison hu ⟨a, b, hquery.symm⟩ hg, htext,
        map_fst_normalizeQuery]
      intro c hc hspace
      obtain rfl := Option.some.inj (hy.symm.trans hc)
      exact hyname (hspace ▸ isBlank_space)
    · rw [← hspan, spanOf_append hx hy, spanOf_append hgx hgy]
  · rintro ⟨a, s, b, hquery, hs, rfl⟩
    have hfolded : casefoldWithSpans u (u.nfc query) = foldedFrom u 0 a ++
        foldedFrom u a.length s ++ foldedFrom u (a.length + s.length) b := by
      rw [hquery, ← foldedFrom_zero, foldedFrom_append, foldedFrom_append, Nat.zero_add,
        List.length_append, Nat.zero_add]
    obtain ⟨x, hx, hxd⟩ : ∃ x : Char × Span, (foldedFrom u a.length s).head? = some x ∧
        x.2 = (a.length, a.length + 1) ∧ ¬ isBlank removeCommas x.1 = true := by
      obtain ⟨d, s', rfl⟩ := List.exists_cons_of_ne_nil hs.nonempty
      obtain ⟨x, hx, hhead⟩ := @head?_foldedFrom u a.length d s'
      exact ⟨_, hhead, rfl, not_isBlank_of_mem_casefold hu hx (hs.head d rfl)⟩
    obtain ⟨y, hy, hyd⟩ : ∃ y : Char × Span, (foldedFrom u a.length s).getLast? = some y ∧
        y.2 = (a.length + s.length - 1, a.length + s.length) ∧
        ¬ isBlank removeCommas y.1 = true := by
      rcases List.eq_nil_or_concat s with rfl | ⟨s', d, rfl⟩
      · exact absurd rfl hs.nonempty
      · obtain ⟨y, hy, hlast⟩ := @getLast?_foldedFrom u a.length s' d
        rw [List.concat_eq_append]
        refine ⟨_, hlast, ?_, not_isBlank_of_mem_casefold hu hy (hs.last d (by simp))⟩
        simp [Nat.add_assoc]
    have hlength : 0 < s.length := List.length_pos_iff.2 hs.nonempty
    have hbefore : ∀ c ∈ foldedFrom u 0 a, c.2.2 ≠ x.2.2 := by
      intro c hc
      obtain ⟨i, d, hd, -, hspan⟩ := mem_foldedFrom.1 hc
      have hi := (List.getElem?_eq_some_iff.1 hd).1
      rw [hspan, hxd.1]
      dsimp only
      omega
    have hafter : ∀ c ∈ foldedFrom u (a.length + s.length) b, c.2.1 ≠ y.2.1 := by
      intro c hc
      obtain ⟨i, d, -, -, hspan⟩ := mem_foldedFrom.1 hc
      rw [hspan, hyd.1]
      dsimp only
      omega
    obtain ⟨before, text, after, hcomparison, htext, hhead, hlast, hstart, hend⟩ :=
      exists_match_of_run hfolded hx hy hxd.2 hyd.2 hbefore hafter
    have hne : text ≠ [] := by
      rintro rfl
      cases hhead
    refine ⟨before, text, after, hcomparison, ?_, hne, hstart, hend, ?_⟩
    · rw [map_fst_eq_normalizedNameComparison hu ⟨a, b, hquery.symm⟩ htext, hs.text]
      intro c hc hspace
      obtain rfl := Option.some.inj (hlast.symm.trans hc)
      exact hyd.2 (hspace ▸ isBlank_space)
    · rw [spanOf_append hhead hlast, hxd.1, hyd.1]

/-- The check at the start of a stretch. -/
theorem startCheck_eq (a r : Text) (named : Bool) :
    (decide (0 < a.length) && named && isAsciiWordAt (a ++ r) (a.length - 1)) =
      (named && a.getLast?.any isAsciiWordCharacter) := by
  rcases List.eq_nil_or_concat a with rfl | ⟨a, c, rfl⟩
  · simp
  · rw [isAsciiWordAt_pred (by simp)]
    simp

/-- **The spans of a name** up to blanks and commas: the stretches that are compared as the name, if
the name as it is written does not stop them at a word character. -/
theorem mem_normalizedNameSpans (hu : u.Lawful) {query name : Text} {span : Span} :
    span ∈ normalizedNameSpans u removeCommas query name ↔
      ∃ a s b, u.nfc query = a ++ s ++ b ∧ StandsFor u removeCommas name s ∧
        span = (a.length, a.length + s.length) ∧
        (isAsciiWordAt (u.nfc name) 0 && a.getLast?.any isAsciiWordCharacter) = false ∧
        (isAsciiWordAt (u.nfc name) ((u.nfc name).length - 1) &&
          b.head?.any isAsciiWordCharacter) = false := by
  have hchecks : ∀ {a s b : Text}, u.nfc query = a ++ s ++ b →
      ((!(decide (0 < a.length) && isAsciiWordAt (u.nfc name) 0 &&
          isAsciiWordAt (u.nfc query) (a.length - 1)) &&
        !(isAsciiWordAt (u.nfc name) ((u.nfc name).length - 1) &&
          isAsciiWordAt (u.nfc query) (a.length + s.length))) = true ↔
        (isAsciiWordAt (u.nfc name) 0 && a.getLast?.any isAsciiWordCharacter) = false ∧
        (isAsciiWordAt (u.nfc name) ((u.nfc name).length - 1) &&
          b.head?.any isAsciiWordCharacter) = false) := by
    intro a s b hquery
    rw [Bool.and_eq_true, Bool.not_eq_true', Bool.not_eq_true', hquery, List.append_assoc,
      startCheck_eq, ← List.append_assoc, ← List.length_append, isAsciiWordAt_length]
  unfold normalizedNameSpans
  simp only [normalizedNameComparison_nfc hu]
  constructor
  · intro h
    split_ifs at h with htarget
    · cases h
    · obtain ⟨first, hfirst, hsome⟩ := List.mem_filterMap.1 h
      obtain ⟨before, text, after, hcomparison, htext, rfl⟩ := mem_occurrences.1 hfirst
      have hne : text ≠ [] := by
        rintro rfl
        exact htarget htext.symm
      have hlength : text.length = (normalizedNameComparison u removeCommas name).length := by
        rw [← htext, List.length_map]
      simp only [hcomparison, ← hlength] at hsome
      split_ifs at hsome with hwhole hkept
      obtain ⟨hstart, hend⟩ := (wholeCharacterMatch_iff hne).1 hwhole
      obtain ⟨a, s, b, hquery, hs, hspan⟩ := (exists_match_iff hu).1
        ⟨before, text, after, hcomparison, htext, hne, hstart, hend, Option.some.inj hsome⟩
      rw [Option.some.inj hsome, hspan] at hkept
      exact ⟨a, s, b, hquery, hs, hspan, (hchecks hquery).1 hkept⟩
  · rintro ⟨a, s, b, hquery, hs, rfl, hkept⟩
    obtain ⟨before, text, after, hcomparison, htext, hne, hstart, hend, hspan⟩ :=
      (exists_match_iff hu).2 ⟨a, s, b, hquery, hs, rfl⟩
    have htarget : normalizedNameComparison u removeCommas name ≠ [] := by
      rw [← htext]
      simpa using hne
    have hlength : text.length = (normalizedNameComparison u removeCommas name).length := by
      rw [← htext, List.length_map]
    rw [if_neg htarget]
    refine List.mem_filterMap.2 ⟨before.length, ?_, ?_⟩
    · exact mem_occurrences.2 ⟨before, text, after, hcomparison, htext, rfl⟩
    · simp only [hcomparison, ← hlength]
      rw [if_pos ((wholeCharacterMatch_iff hne).2 ⟨hstart, hend⟩), hspan]
      exact if_pos ((hchecks hquery).2 hkept)

end Entities
