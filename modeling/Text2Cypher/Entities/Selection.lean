import Text2Cypher.Entities.Literals
import Text2Cypher.Library.Greedy

/-!
# The selection of the names in the question

The spans of the matches are a greedy choice: the longest first, of equal length the earlier one, a
span takes its place unless it overlaps one that has.  A span with matches of several entities takes
its place, and nothing is selected for it.

* `foldl_selectSpan_eq`: the selection is made from the groups that are taken;
* `GreedySelection`: what is to be selected, and what is to be left out;
* **`selectLiteralEntities_greedy`**: this is what is selected, for every order of the matches.
-/

namespace Entities

open Grouping

/-! ### The groups that are taken -/

/-- A span with its matches. -/
abbrev SpanGroup := Span × List LiteralEntityMatch

def groupsOverlap (a b : SpanGroup) : Bool := overlaps a.1 b.1

/-- The groups that take their places. -/
def takenGroups (groups : List SpanGroup) : List SpanGroup := Greedy.greedy groupsOverlap groups

/-- All matches of a group are of one entity. -/
def oneEntity (group : SpanGroup) : Bool :=
  decide ((group.2.map LiteralEntityMatch.identity).dedup.length = 1)

/-- **The selection**, from the groups that are taken. -/
theorem foldl_selectSpan_eq (groups : List SpanGroup) :
    groups.foldl selectSpan ⟨[], [], false⟩ =
      ⟨(takenGroups groups).map Prod.fst,
        ((takenGroups groups).filter oneEntity).flatMap fun group => group.2.take 1,
        (takenGroups groups).any fun group => !oneEntity group⟩ := by
  induction groups using List.reverseRecOn with
  | nil => rfl
  | append_singleton groups group ih =>
    have hstep : takenGroups (groups ++ [group]) =
        Greedy.take groupsOverlap (takenGroups groups) group := Greedy.greedy_concat _ _
    rw [List.foldl_append, List.foldl_cons, List.foldl_nil, ih, hstep, Greedy.take, selectSpan]
    have hany : ((takenGroups groups).map Prod.fst).any (overlaps group.1) =
        (takenGroups groups).any (groupsOverlap group) := by
      rw [List.any_map]
      rfl
    rw [hany]
    split_ifs with hoverlap hambiguous
    · rfl
    · have hone : oneEntity group = false := decide_eq_false hambiguous
      simp [hone]
    · have hone : oneEntity group = true := decide_eq_true (not_not.1 hambiguous)
      simp [hone]

/-! ### The order of the spans -/

/-- Longer, or equally long and earlier. -/
def Precedes (a b : Span) : Prop :=
  (b.2 : ℤ) - b.1 < a.2 - a.1 ∨ (b.2 : ℤ) - b.1 = a.2 - a.1 ∧ a.1 < b.1

theorem precedes_iff_lt {a b : Span} : Precedes a b ↔ sortKey a < sortKey b := by
  rw [sortKey, sortKey, Prod.Lex.toLex_lt_toLex, Precedes, neg_lt_neg_iff, neg_inj]
  refine or_congr_right (and_congr_left fun _ => ?_)
  exact eq_comm

theorem precedes_iff {a b : Span} : Precedes a b ↔ LongerFirst a b ∧ a ≠ b := by
  rw [precedes_iff_lt, lt_iff_le_and_ne]
  refine and_congr_right fun _ => not_congr ⟨fun h => ?_, congrArg sortKey⟩
  exact Std.Antisymm.antisymm (r := LongerFirst) a b h.le h.ge

/-- The group of a span in the list of matches. -/
def groupOf (found : List LiteralEntityMatch) (span : Span) : SpanGroup :=
  (span, found.filter fun m => decide (m.span = span))

section

variable {found : List LiteralEntityMatch}

/-- The groups of all spans, in the order in which they are gone through. -/
def spanGroups (found : List LiteralEntityMatch) : List SpanGroup :=
  sortedGroups LiteralEntityMatch.span LongerFirst found

theorem mem_spanGroups {group : SpanGroup} :
    group ∈ spanGroups found ↔
      group.1 ∈ found.map LiteralEntityMatch.span ∧ group = groupOf found group.1 := by
  rw [spanGroups, mem_sortedGroups, groupOf, Prod.ext_iff]
  simp only [true_and, beq_eq_decide]

theorem pairwise_spanGroups (found : List LiteralEntityMatch) :
    (spanGroups found).Pairwise fun a b => Precedes a.1 b.1 := by
  have hsorted : (spanGroups found).Pairwise fun a b => LongerFirst a.1 b.1 :=
    List.pairwise_map.1 (pairwise_sortedGroups found)
  have hnodup : (spanGroups found).Pairwise fun a b => a.1 ≠ b.1 := by
    have hkeys : ((spanGroups found).map Prod.fst).Nodup :=
      ((List.perm_insertionSort _ _).map Prod.fst).nodup_iff.2 (nodup_keys_group found)
    exact List.pairwise_map.1 hkeys
  exact (hsorted.and hnodup).imp fun h => precedes_iff.2 h

instance : Std.Asymm fun a b : SpanGroup => Precedes a.1 b.1 where
  asymm _ _ hab hba := lt_asymm (precedes_iff_lt.1 hab) (precedes_iff_lt.1 hba)

/-- The spans that take their places. -/
def occupiedSpans (found : List LiteralEntityMatch) : List Span :=
  (takenGroups (spanGroups found)).map Prod.fst

theorem groupOf_mem_taken {span : Span} :
    groupOf found span ∈ takenGroups (spanGroups found) ↔ span ∈ occupiedSpans found := by
  constructor
  · exact fun h => List.mem_map_of_mem h
  · intro h
    obtain ⟨group, hgroup, rfl⟩ := List.mem_map.1 h
    rwa [← (mem_spanGroups.1 ((Greedy.greedy_sublist _).mem hgroup)).2]

/-- **A span takes its place** unless one before it that has overlaps it. -/
theorem mem_occupiedSpans {span : Span} :
    span ∈ occupiedSpans found ↔ span ∈ found.map LiteralEntityMatch.span ∧
      ∀ other ∈ occupiedSpans found, Precedes other span → overlaps span other = false := by
  have htaken : groupOf found span ∈ takenGroups (spanGroups found) ↔ _ :=
    Greedy.mem_greedy (pairwise_spanGroups found)
  rw [← groupOf_mem_taken, htaken, mem_spanGroups]
  refine and_congr (and_iff_left rfl) ⟨fun h other hother hbefore => ?_, fun h b hb hbefore => ?_⟩
  · obtain ⟨group, hgroup, rfl⟩ := List.mem_map.1 hother
    exact h group hgroup hbefore
  · exact h b.1 (List.mem_map_of_mem hb) hbefore

/-! ### What should be selected -/

/-- A span with matches of more than one entity, or of one entity as more than one type. -/
def Ambiguous (found : List LiteralEntityMatch) (span : Span) : Prop :=
  ∃ m ∈ found, ∃ m' ∈ found, m.span = span ∧ m'.span = span ∧ m.identity ≠ m'.identity

/-- What is to be selected from some matches, with the spans that take their places. -/
structure GreedySelection (found chosen : List LiteralEntityMatch) (flag : Bool)
    (occupied : List Span) : Prop where
  /-- a span takes its place unless one that is longer, or as long and earlier, has taken it -/
  places : ∀ span, span ∈ occupied ↔ span ∈ found.map LiteralEntityMatch.span ∧
    ∀ other ∈ occupied, Precedes other span → overlaps span other = false
  disjoint : chosen.Pairwise fun m m' => overlaps m.span m'.span = false
  inOrder : chosen.Pairwise fun m m' => m.start ≤ m'.start
  once : (chosen.map LiteralEntityMatch.entity).Nodup
  /-- what is selected has its place, and is not ambiguous -/
  sound : ∀ m ∈ chosen, m ∈ found ∧ m.span ∈ occupied ∧ ¬ Ambiguous found m.span
  /-- what is left out has no place, is ambiguous, or repeats an entity that is selected -/
  maximal : ∀ m ∈ found, (∀ c ∈ chosen, c.span ≠ m.span) →
    (∃ other ∈ occupied, Precedes other m.span ∧ overlaps m.span other = true) ∨
      Ambiguous found m.span ∨ ∃ c ∈ chosen, c.entity = m.entity ∧ c.start ≤ m.start
  flag_iff : flag = true ↔ ∃ span ∈ occupied, Ambiguous found span

theorem overlaps_comm (a b : Span) : overlaps a b = overlaps b a := Bool.and_comm _ _

/-- Spans that are not empty overlap exactly if they share a position. -/
theorem overlaps_iff {a b : Span} (ha : a.1 < a.2) (hb : b.1 < b.2) :
    overlaps a b = true ↔ ∃ i, a.1 ≤ i ∧ i < a.2 ∧ b.1 ≤ i ∧ i < b.2 := by
  simp only [overlaps, Bool.and_eq_true, decide_eq_true_eq]
  constructor
  · intro h
    refine ⟨max a.1 b.1, ?_⟩
    omega
  · rintro ⟨i, hi⟩
    omega

theorem oneEntity_groupOf {span : Span} (hspan : span ∈ found.map LiteralEntityMatch.span) :
    oneEntity (groupOf found span) = true ↔ ¬ Ambiguous found span := by
  rw [oneEntity, decide_eq_true_eq, length_dedup_eq_one]
  have hmem : ∀ m, m ∈ (groupOf found span).2 ↔ m ∈ found ∧ m.span = span := by
    intro m
    rw [groupOf, List.mem_filter, decide_eq_true_eq]
  constructor
  · rintro ⟨identity, -, hall⟩ ⟨m, hm, m', hm', hsame, hsame', hne⟩
    refine hne ?_
    rw [hall _ (List.mem_map_of_mem ((hmem m).2 ⟨hm, hsame⟩)),
      hall _ (List.mem_map_of_mem ((hmem m').2 ⟨hm', hsame'⟩))]
  · intro hclear
    obtain ⟨m, hm, hsame⟩ := List.mem_map.1 hspan
    refine ⟨m.identity, List.mem_map_of_mem ((hmem m).2 ⟨hm, hsame⟩), fun identity hidentity => ?_⟩
    obtain ⟨m', hm', rfl⟩ := List.mem_map.1 hidentity
    by_contra hne
    exact hclear ⟨m', ((hmem m').1 hm').1, m, hm, ((hmem m').1 hm').2, hsame, hne⟩

/-! ### What is selected -/

/-- The matches that are selected, before they are put in the order of the question. -/
def takenMatches (found : List LiteralEntityMatch) : List LiteralEntityMatch :=
  ((takenGroups (spanGroups found)).filter oneEntity).flatMap fun group => group.2.take 1

theorem selectLiteralEntities_eq (found : List LiteralEntityMatch) :
    selectLiteralEntities found =
      (uniqueBy LiteralEntityMatch.entity
        ((takenMatches found).insertionSort fun a b => a.start ≤ b.start),
        (takenGroups (spanGroups found)).any fun group => !oneEntity group) := by
  rw [selectLiteralEntities, selectSpans, foldl_selectSpan_eq]
  rfl

theorem mem_takenMatches {m : LiteralEntityMatch} (hm : m ∈ takenMatches found) :
    m ∈ found ∧ m.span ∈ occupiedSpans found ∧ ¬ Ambiguous found m.span := by
  obtain ⟨group, hgroup, hin⟩ := List.mem_flatMap.1 hm
  obtain ⟨htaken, hone⟩ := List.mem_filter.1 hgroup
  obtain ⟨hspan, hgroupOf⟩ := mem_spanGroups.1 ((Greedy.greedy_sublist _).mem htaken)
  have hmem : m ∈ (groupOf found group.1).2 := hgroupOf ▸ List.mem_of_mem_take hin
  obtain ⟨hfound, hsame⟩ := List.mem_filter.1 hmem
  rw [decide_eq_true_eq] at hsame
  rw [hsame]
  refine ⟨hfound, List.mem_map_of_mem htaken, (oneEntity_groupOf hspan).1 ?_⟩
  rwa [← hgroupOf]

/-- A span in its place that is not ambiguous is selected. -/
theorem exists_takenMatch {span : Span} (hplace : span ∈ occupiedSpans found)
    (hclear : ¬ Ambiguous found span) : ∃ m ∈ takenMatches found, m.span = span := by
  have hspan := (mem_occupiedSpans.1 hplace).1
  obtain ⟨m, hm, hsame⟩ := List.mem_map.1 hspan
  have hmember : m ∈ (groupOf found span).2 :=
    List.mem_filter.2 ⟨hm, decide_eq_true hsame⟩
  obtain ⟨first, rest, hfirst⟩ := List.exists_cons_of_ne_nil (List.ne_nil_of_mem hmember)
  have hin : first ∈ (groupOf found span).2 := hfirst ▸ List.mem_cons_self
  refine ⟨first, List.mem_flatMap.2 ⟨groupOf found span, ?_, ?_⟩, ?_⟩
  · exact List.mem_filter.2 ⟨groupOf_mem_taken.2 hplace, (oneEntity_groupOf hspan).2 hclear⟩
  · rw [hfirst]
    exact List.mem_cons_self
  · exact of_decide_eq_true (List.mem_filter.1 hin).2

theorem pairwise_takenMatches (found : List LiteralEntityMatch) :
    (takenMatches found).Pairwise fun m m' => overlaps m.span m'.span = false := by
  have htaken : (takenGroups (spanGroups found)).Pairwise fun a b => overlaps a.1 b.1 = false :=
    (Greedy.pairwise_greedy (spanGroups found)).imp fun h => (overlaps_comm _ _).trans h
  refine List.pairwise_flatMap.2 ⟨fun group _ => ?_, ?_⟩
  · rcases group.2 with _ | ⟨m, rest⟩
    · exact List.Pairwise.nil
    · exact List.pairwise_singleton _ _
  · have hgroups : ∀ group ∈ (takenGroups (spanGroups found)).filter oneEntity,
        ∀ m ∈ group.2.take 1, m.span = group.1 := by
      intro group hgroup m hm
      have hmem := (Greedy.greedy_sublist _).mem (List.mem_filter.1 hgroup).1
      have hin : m ∈ (groupOf found group.1).2 :=
        (mem_spanGroups.1 hmem).2 ▸ List.mem_of_mem_take hm
      exact of_decide_eq_true (List.mem_filter.1 hin).2
    refine (htaken.sublist List.filter_sublist).imp_of_mem fun ha hb h m hm m' hm' => ?_
    rw [hgroups _ ha m hm, hgroups _ hb m' hm']
    exact h

theorem greedySelection (found : List LiteralEntityMatch) :
    GreedySelection found (selectLiteralEntities found).1 (selectLiteralEntities found).2
      (occupiedSpans found) := by
  rw [selectLiteralEntities_eq]
  have hperm := List.perm_insertionSort (fun a b : LiteralEntityMatch => a.start ≤ b.start)
    (takenMatches found)
  refine ⟨fun span => mem_occupiedSpans, ?_, ?_, ?_, ?_, ?_, ?_⟩
  · refine List.Pairwise.sublist (uniqueBy_sublist _) ?_
    refine (hperm.pairwise_iff fun h => ?_).2 (pairwise_takenMatches found)
    exact (overlaps_comm _ _).trans h
  · exact (List.pairwise_insertionSort _ _).sublist (uniqueBy_sublist _)
  · rw [map_uniqueBy]
    exact nodup_appendNew List.nodup_nil
  · intro m hm
    exact mem_takenMatches (hperm.mem_iff.1 ((uniqueBy_sublist _).mem hm))
  · intro m hm hout
    have hspan : m.span ∈ found.map LiteralEntityMatch.span := List.mem_map_of_mem hm
    by_cases hplace : m.span ∈ occupiedSpans found
    · refine Or.inr (or_iff_not_imp_left.2 fun hclear => ?_)
      obtain ⟨taken, htaken, hsame⟩ := exists_takenMatch hplace hclear
      have hidentity : taken.identity = m.identity := by
        by_contra hne
        exact hclear ⟨taken, (mem_takenMatches htaken).1, m, hm, hsame, rfl, hne⟩
      have hentity : taken.entity = m.entity := congrArg Prod.snd hidentity
      obtain ⟨before, after, hsplit⟩ := List.append_of_mem (hperm.mem_iff.2 htaken)
      obtain ⟨c, hc, hearlier, hvalue⟩ :=
        exists_uniqueBy (f := LiteralEntityMatch.entity) before after taken
      refine ⟨c, hsplit ▸ hc, hvalue.trans hentity, ?_⟩
      have hstart : taken.start = m.start := congrArg Prod.fst hsame
      rw [← hstart]
      rcases List.mem_append.1 hearlier with hbefore | hlast
      · have hsorted := List.pairwise_insertionSort
          (fun a b : LiteralEntityMatch => a.start ≤ b.start) (takenMatches found)
        rw [hsplit] at hsorted
        exact (List.pairwise_append.1 hsorted).2.2 c hbefore taken List.mem_cons_self
      · rw [List.mem_singleton.1 hlast]
    · rw [mem_occupiedSpans] at hplace
      push Not at hplace
      obtain ⟨other, hother, hbefore, hoverlap⟩ := hplace hspan
      exact Or.inl ⟨other, hother, hbefore, Bool.not_eq_false _ ▸ hoverlap⟩
  · rw [List.any_eq_true]
    constructor
    · rintro ⟨group, hgroup, hmany⟩
      obtain ⟨hspan, hgroupOf⟩ := mem_spanGroups.1 ((Greedy.greedy_sublist _).mem hgroup)
      refine ⟨group.1, List.mem_map_of_mem hgroup, ?_⟩
      by_contra hclear
      rw [← oneEntity_groupOf hspan, ← hgroupOf] at hclear
      rw [hclear] at hmany
      cases hmany
    · rintro ⟨span, hplace, hambiguous⟩
      refine ⟨groupOf found span, groupOf_mem_taken.2 hplace, ?_⟩
      rw [Bool.not_eq_true', ← Bool.not_eq_true, oneEntity_groupOf (mem_occupiedSpans.1 hplace).1]
      exact not_not.2 hambiguous

end

/-! ### The order of the matches -/

/-- What is selected with a match: the span, the type and the entity. -/
def selectionKey (m : LiteralEntityMatch) : Span × String × Entity := (m.span, m.identity)

/-- What is selected for a group that is taken. -/
def groupKey? (group : SpanGroup) : Option (Span × String × Entity) :=
  if oneEntity group then group.2.head?.map selectionKey else none

theorem map_takenMatches (found : List LiteralEntityMatch) :
    (takenMatches found).map selectionKey =
      (takenGroups (spanGroups found)).filterMap groupKey? := by
  unfold takenMatches
  induction takenGroups (spanGroups found) with
  | nil => rfl
  | cons group groups ih =>
    by_cases hone : oneEntity group = true
    · rw [List.filter_cons_of_pos hone, List.flatMap_cons, List.map_append, ih,
        List.filterMap_cons, groupKey?, if_pos hone]
      rcases group.2 with _ | ⟨m, rest⟩ <;> rfl
    · rw [List.filter_cons_of_neg hone, ih, List.filterMap_cons, groupKey?, if_neg hone]

/-- Groups of one span and the same matches. -/
def SameGroup (a b : SpanGroup) : Prop := a.1 = b.1 ∧ a.2.Perm b.2

theorem oneEntity_congr {a b : SpanGroup} (h : SameGroup a b) : oneEntity a = oneEntity b := by
  rw [oneEntity, oneEntity, ((h.2.map LiteralEntityMatch.identity).dedup).length_eq]

/-- All matches of a group of one entity have one key, whichever comes first. -/
theorem groupKey?_congr {a b : SpanGroup} (h : SameGroup a b) (ha : ∀ m ∈ a.2, m.span = a.1) :
    groupKey? a = groupKey? b := by
  rw [groupKey?, groupKey?, oneEntity_congr h]
  split_ifs with hone
  · rw [oneEntity, decide_eq_true_eq, length_dedup_eq_one] at hone
    obtain ⟨identity, -, hall⟩ := hone
    have hkey : ∀ m ∈ b.2, selectionKey m = (a.1, identity) := by
      intro m hm
      rw [selectionKey, ha m (h.2.mem_iff.2 hm), hall _ (List.mem_map_of_mem hm)]
    have hperm := h.2
    rcases hfirst : a.2 with _ | ⟨m, rest⟩
    · rw [hfirst] at hperm
      rw [List.nil_perm.1 hperm]
    · rcases hfirst' : b.2 with _ | ⟨m', rest'⟩
      · rw [hfirst, hfirst'] at hperm
        exact absurd (List.perm_nil.1 hperm) (List.cons_ne_nil _ _)
      · show some (selectionKey m) = some (selectionKey m')
        have hm : m ∈ b.2 := h.2.mem_iff.1 (hfirst ▸ List.mem_cons_self)
        rw [hkey m hm, hkey m' (hfirst' ▸ List.mem_cons_self)]
  · rfl

theorem filterMap_groupKey?_congr {groups groups' : List SpanGroup}
    (h : List.Forall₂ SameGroup groups groups')
    (hspans : ∀ group ∈ groups, ∀ m ∈ group.2, m.span = group.1) :
    groups.filterMap groupKey? = groups'.filterMap groupKey? := by
  induction h with
  | nil => rfl
  | cons hgroup _ ih =>
    rw [List.filterMap_cons, List.filterMap_cons,
      groupKey?_congr hgroup (hspans _ List.mem_cons_self),
      ih fun group hmem => hspans group (List.mem_cons_of_mem _ hmem)]

theorem any_oneEntity_congr {groups groups' : List SpanGroup}
    (h : List.Forall₂ SameGroup groups groups') :
    (groups.any fun group => !oneEntity group) = groups'.any fun group => !oneEntity group := by
  induction h with
  | nil => rfl
  | cons hgroup _ ih => rw [List.any_cons, List.any_cons, oneEntity_congr hgroup, ih]

variable {found found' : List LiteralEntityMatch}

theorem forall₂_takenGroups (hperm : found.Perm found') :
    List.Forall₂ SameGroup (takenGroups (spanGroups found)) (takenGroups (spanGroups found')) := by
  refine Greedy.forall₂_greedy (fun ha hb => ?_) (sortedGroups_perm hperm)
  rw [groupsOverlap, groupsOverlap, ha.1, hb.1]

theorem span_of_mem_taken {group : SpanGroup} (h : group ∈ takenGroups (spanGroups found)) :
    ∀ m ∈ group.2, m.span = group.1 := by
  intro m hm
  rw [(mem_spanGroups.1 ((Greedy.greedy_sublist _).mem h)).2] at hm
  exact of_decide_eq_true (List.mem_filter.1 hm).2

/-- **The selection does not depend on the order of the matches.** -/
theorem selectionKeys_perm (hperm : found.Perm found') :
    (selectLiteralEntities found).1.map selectionKey =
      (selectLiteralEntities found').1.map selectionKey ∧
    (selectLiteralEntities found).2 = (selectLiteralEntities found').2 := by
  have htaken := forall₂_takenGroups hperm
  rw [selectLiteralEntities_eq, selectLiteralEntities_eq]
  refine ⟨?_, any_oneEntity_congr htaken⟩
  have hkeys : (takenMatches found).map selectionKey = (takenMatches found').map selectionKey := by
    rw [map_takenMatches, map_takenMatches]
    exact filterMap_groupKey?_congr htaken fun group hgroup => span_of_mem_taken hgroup
  -- the entity and the start of a match stand in its key
  have hsort : ∀ l : List LiteralEntityMatch,
      (l.insertionSort fun a b => a.start ≤ b.start).map selectionKey =
        (l.map selectionKey).insertionSort fun a b => a.1.1 ≤ b.1.1 := fun l =>
    List.map_insertionSort _ _ _ l fun _ _ _ _ => Iff.rfl
  have hunique : ∀ l : List LiteralEntityMatch,
      (uniqueBy LiteralEntityMatch.entity l).map selectionKey =
        uniqueBy (fun key => key.2.2) (l.map selectionKey) := fun l =>
    map_uniqueBy_comp selectionKey (fun key => key.2.2) (fun _ => rfl) l
  rw [hunique, hunique, hsort, hsort, hkeys]

/-- **The names in the question** that are selected: a greedy choice, the longest first, of which
nothing is left out that has its place; the same for every order of the matches. -/
theorem selectLiteralEntities_greedy (found : List LiteralEntityMatch) :
    (∃ occupied, GreedySelection found (selectLiteralEntities found).1
      (selectLiteralEntities found).2 occupied) ∧
    ∀ found', found.Perm found' →
      (selectLiteralEntities found).1.map selectionKey =
        (selectLiteralEntities found').1.map selectionKey ∧
      (selectLiteralEntities found).2 = (selectLiteralEntities found').2 :=
  ⟨⟨occupiedSpans found, greedySelection found⟩, fun _ => selectionKeys_perm⟩

end Entities
