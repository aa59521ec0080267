import Mathlib.Data.Prod.Lex
import Text2Cypher.Entities.Names

/-!
# Names that stand in the question

Entities whose names stand in the question are found by an equality query for the candidates, and
the longest names that do not overlap are selected.

* `Database`: what the queries of the resolver return, by type;
* `literalMatches`, `selectLiteralEntities`: the names in the question and their selection;
* `selectLiteralEntities_perm`: the selection does not depend on the order of the matches;
* `identity_of_mem_selected`: a selected span has matches of one entity only.
-/

namespace Entities

open Grouping

/-- A value of the column that identifies an entity. -/
inductive Identifier
  | int (n : ℤ)
  | str (s : Text)
  /-- a value of another type, by the text that it prints as -/
  | other (shown : String)
  deriving DecidableEq, Repr

/-- The dict `{id_field: identifier, name_field: name}`. -/
structure Entity where
  idField : String
  id : Identifier
  nameField : String
  name : Text
  deriving DecidableEq, Repr

/-- A row of the similarity query. -/
structure SimilarRow where
  id : Identifier
  name : Text
  score : ℚ
  deriving DecidableEq

/-- A candidate that is shown to the user. -/
structure Candidate where
  id : Identifier
  name : Text
  entityType : String
  score : ℚ
  entity : Entity
  deriving DecidableEq

structure EntityResolutionSettings where
  similarityThreshold : ℚ
  candidateLimit : ℕ

/-- The content of the database, as far as the resolver asks for it: the table of each type by its
columns of identifiers and names (`none` where the name is no `str`), and what the similarity query
returns, `none` where `pg_trgm` is unavailable. -/
structure Database where
  rows : NamedEntityType → List (Identifier × Option Text)
  similarRows : NamedEntityType → Text → EntityResolutionSettings → Option (List SimilarRow)

/-- The entity of a type with an identifier and a name. -/
def NamedEntityType.entity (config : NamedEntityType) (id : Identifier) (name : Text) : Entity :=
  ⟨config.idField, id, config.nameField, name⟩

/-- The rows of the equality query, by their names. -/
def nameRows (db : Database) (config : NamedEntityType) (names : List Text) :
    List (Text × Entity) :=
  ((db.rows config).filter fun row => row.2.any (· ∈ names)).filterMap fun row =>
    row.2.map fun name => (name, config.entity row.1 name)

/-- `_find_entities_by_names`. -/
def findEntitiesByNames (db : Database) (config : NamedEntityType) (names : List Text) :
    Join.Table Text Entity :=
  if names = [] then [] else Join.group [] (nameRows db config names)

/-- An occurrence of the name of an entity in the question. -/
structure LiteralEntityMatch where
  start : ℕ
  stop : ℕ
  config : NamedEntityType
  entity : Entity
  deriving DecidableEq, Repr

namespace LiteralEntityMatch

def span (m : LiteralEntityMatch) : Span := (m.start, m.stop)

/-- What tells matches of a span apart. -/
def identity (m : LiteralEntityMatch) : String × Entity := (m.config.entityType, m.entity)

end LiteralEntityMatch

/-- `_literal_matches`. -/
def literalMatches (u : UnicodeData) (query : Text) (candidateNames : List Text)
    (config : NamedEntityType) (entitiesByName : Join.Table Text Entity) :
    List LiteralEntityMatch :=
  entitiesByName.flatMap fun entry =>
    if entry.1 ∈ candidateNames then
      entry.2.flatMap fun entity =>
        (literalNameSpans u query entry.1).map fun span => ⟨span.1, span.2, config, entity⟩
    else []

/-- The key `(-(end - start), start)` under which spans are sorted. -/
def sortKey (span : Span) : ℤ ×ₗ ℕ := toLex (-((span.2 : ℤ) - span.1), span.1)

/-- Longer spans first, of equal length the earlier one. -/
def LongerFirst (a b : Span) : Prop := sortKey a ≤ sortKey b

instance : DecidableRel LongerFirst := fun a b => inferInstanceAs (Decidable (sortKey a ≤ sortKey b))

/-- The state of the selection. -/
structure Selection where
  occupied : List Span
  selected : List LiteralEntityMatch
  ambiguous : Bool

/-- Two spans share a position. -/
def overlaps (a b : Span) : Bool := decide (a.1 < b.2) && decide (b.1 < a.2)

/-- One span of the selection, with its matches. -/
def selectSpan (s : Selection) (group : Span × List LiteralEntityMatch) : Selection :=
  if s.occupied.any (overlaps group.1) then s
  else
    let occupied := s.occupied ++ [group.1]
    if (group.2.map LiteralEntityMatch.identity).dedup.length ≠ 1 then
      { s with occupied, ambiguous := true }
    else { s with occupied, selected := s.selected ++ group.2.take 1 }

/-- The selection over all spans, the longest first. -/
def selectSpans (found : List LiteralEntityMatch) : Selection :=
  (sortedGroups LiteralEntityMatch.span LongerFirst found).foldl selectSpan ⟨[], [], false⟩

/-- `_select_literal_entities`. -/
def selectLiteralEntities (found : List LiteralEntityMatch) : List LiteralEntityMatch × Bool :=
  let s := selectSpans found
  (uniqueBy LiteralEntityMatch.entity (s.selected.insertionSort fun a b => a.start ≤ b.start),
    s.ambiguous)

/-- `_lookup_is_inside_selected_literal`. -/
def lookupIsInsideSelectedLiteral (u : UnicodeData) (query : Text) (entityType : String)
    (lookupName : Text) (selectedLiterals : List LiteralEntityMatch) : Bool :=
  let containers := (selectedLiterals.filter fun m => m.config.entityType = entityType).map
    LiteralEntityMatch.span
  if containers = [] then false
  else
    let spans := lookupSpans u query lookupName
    if spans = [] then false
    else spans.all fun span => containers.any fun container =>
      decide (container.1 ≤ span.1) && decide (span.2 ≤ container.2)

/-! ### The order of the matches -/

instance : Std.Total LongerFirst := ⟨fun a b => le_total (sortKey a) (sortKey b)⟩

instance : IsTrans Span LongerFirst := ⟨fun _ _ _ => le_trans⟩

instance : Std.Antisymm LongerFirst where
  antisymm a b hab hba := by
    have hkey : sortKey a = sortKey b := le_antisymm hab hba
    simp only [sortKey, EmbeddingLike.apply_eq_iff_eq, Prod.mk.injEq] at hkey
    apply Prod.ext
    · exact hkey.2
    · omega

/-- Matches with one span and one identity are the same, where the configurations of the matches
have different types. -/
def TypesApart (found : List LiteralEntityMatch) : Prop :=
  ∀ m ∈ found, ∀ m' ∈ found, m.config.entityType = m'.config.entityType → m.config = m'.config

theorem eq_of_identity {found : List LiteralEntityMatch} (h : TypesApart found)
    {m m' : LiteralEntityMatch} (hm : m ∈ found) (hm' : m' ∈ found) (hspan : m.span = m'.span)
    (hidentity : m.identity = m'.identity) : m = m' := by
  obtain ⟨hstart, hstop⟩ := Prod.mk.inj hspan
  obtain ⟨htype, hentity⟩ := Prod.mk.inj hidentity
  have hconfig := h m hm m' hm' htype
  cases m
  cases m'
  simp only at hstart hstop hentity hconfig
  subst hstart hstop hentity hconfig
  rfl

/-- There is one identity just if there is an element, and all have its identity. -/
theorem length_dedup_eq_one {α : Type} [DecidableEq α] {l : List α} :
    l.dedup.length = 1 ↔ ∃ a ∈ l, ∀ b ∈ l, b = a := by
  rw [List.length_eq_one_iff]
  constructor
  · rintro ⟨a, ha⟩
    have hmem : ∀ b, b ∈ l ↔ b = a := fun b => by
      rw [← List.mem_dedup, ha, List.mem_singleton]
    exact ⟨a, (hmem a).2 rfl, fun b hb => (hmem b).1 hb⟩
  · rintro ⟨a, ha, hall⟩
    have hdedup : ∀ b ∈ l.dedup, b = a := fun b hb => hall b (List.mem_dedup.1 hb)
    refine ⟨a, List.eq_replicate_of_mem hdedup ▸ ?_⟩
    have hlength : l.dedup.length = 1 := by
      have hpos : 0 < l.dedup.length := List.length_pos_of_mem (List.mem_dedup.2 ha)
      have hle : l.dedup.length ≤ 1 := by
        by_contra hlt
        have hnodup := List.nodup_dedup l
        rw [List.eq_replicate_of_mem hdedup, List.nodup_replicate] at hnodup
        omega
      omega
    rw [hlength, List.replicate_one]

/-- A group and its permutation make the same step. -/
theorem selectSpan_perm {found : List LiteralEntityMatch} (h : TypesApart found) (s : Selection)
    {span : Span} {members members' : List LiteralEntityMatch} (hperm : members.Perm members')
    (hmembers : ∀ m ∈ members, m ∈ found ∧ m.span = span) :
    selectSpan s (span, members) = selectSpan s (span, members') := by
  have hlength : (members.map LiteralEntityMatch.identity).dedup.length =
      (members'.map LiteralEntityMatch.identity).dedup.length :=
    (hperm.map _).dedup.length_eq
  unfold selectSpan
  simp only [hlength]
  by_cases hoverlaps : s.occupied.any (overlaps span) = true
  · rw [if_pos hoverlaps, if_pos hoverlaps]
  rw [if_neg hoverlaps, if_neg hoverlaps]
  by_cases hone : (members'.map LiteralEntityMatch.identity).dedup.length ≠ 1
  · rw [if_pos hone, if_pos hone]
  rw [if_neg hone, if_neg hone]
  rw [not_not, length_dedup_eq_one] at hone
  obtain ⟨identity, hmem, hall⟩ := hone
  have heq : ∀ m ∈ members', ∀ m' ∈ members', m = m' := by
    intro m hm m' hm'
    have hm₁ := hmembers m (hperm.mem_iff.2 hm)
    have hm₂ := hmembers m' (hperm.mem_iff.2 hm')
    refine eq_of_identity h hm₁.1 hm₂.1 (hm₁.2.trans hm₂.2.symm) ?_
    rw [hall _ (List.mem_map_of_mem hm), hall _ (List.mem_map_of_mem hm')]
  have htake : members.take 1 = members'.take 1 := by
    cases members with
    | nil => rw [List.nil_perm.1 hperm]
    | cons m rest =>
      cases members' with
      | nil => exact absurd (List.perm_nil.1 hperm) (List.cons_ne_nil _ _)
      | cons m' rest' =>
        have hm : m ∈ m' :: rest' := hperm.mem_iff.1 List.mem_cons_self
        rw [List.take_succ_cons, List.take_succ_cons, List.take_zero, List.take_zero,
          heq m hm m' List.mem_cons_self]
  rw [htake]

/-- **The selection does not depend on the order of the matches.** -/
theorem selectLiteralEntities_perm {found found' : List LiteralEntityMatch} (h : TypesApart found)
    (hperm : found.Perm found') : selectLiteralEntities found = selectLiteralEntities found' := by
  have hgroups : List.Forall₂ (fun g g' => g.1 = g'.1 ∧ g.2.Perm g'.2)
      (sortedGroups LiteralEntityMatch.span LongerFirst found)
      (sortedGroups LiteralEntityMatch.span LongerFirst found') := sortedGroups_perm hperm
  have hmembers : ∀ group ∈ sortedGroups LiteralEntityMatch.span LongerFirst found,
      ∀ m ∈ group.2, m ∈ found ∧ m.span = group.1 := by
    intro group hgroup m hm
    rw [(mem_sortedGroups.1 hgroup).2, List.mem_filter] at hm
    exact ⟨hm.1, by simpa using hm.2⟩
  have hfold : ∀ {groups groups' : List (Span × List LiteralEntityMatch)} (s : Selection),
      List.Forall₂ (fun g g' => g.1 = g'.1 ∧ g.2.Perm g'.2) groups groups' →
      (∀ group ∈ groups, ∀ m ∈ group.2, m ∈ found ∧ m.span = group.1) →
      groups.foldl selectSpan s = groups'.foldl selectSpan s := by
    intro groups groups' s hgroups
    induction hgroups generalizing s with
    | nil => exact fun _ => rfl
    | @cons g g' _ _ hstep _ ih =>
      intro hmem
      have hstep' : selectSpan s g = selectSpan s g' := by
        have hg' : g' = (g.1, g'.2) := Prod.ext hstep.1.symm rfl
        rw [hg']
        exact selectSpan_perm h s hstep.2 (hmem g List.mem_cons_self)
      rw [List.foldl_cons, List.foldl_cons, hstep']
      exact ih _ fun group hgroup => hmem group (List.mem_cons_of_mem _ hgroup)
  have hselection : selectSpans found = selectSpans found' := hfold _ hgroups hmembers
  rw [selectLiteralEntities, hselection, selectLiteralEntities]

/-- The matches that are selected come from the groups, from the first of which all members have
its identity. -/
theorem identity_of_mem_selected {found : List LiteralEntityMatch} {m : LiteralEntityMatch}
    (hm : m ∈ (selectLiteralEntities found).1) :
    m ∈ found ∧ ∀ m' ∈ found, m'.span = m.span → m'.identity = m.identity := by
  have hselected : m ∈ (selectSpans found).selected := by
    obtain ⟨before, after, heq, -⟩ := mem_uniqueBy.1 hm
    have hmem : m ∈ before ++ m :: after := by simp
    rwa [← heq, List.mem_insertionSort] at hmem
  -- the invariant of the fold: what is selected is selected from one of the groups
  have hfold : ∀ (groups : List (Span × List LiteralEntityMatch)) (s : Selection),
      m ∈ (groups.foldl selectSpan s).selected → m ∈ s.selected ∨ ∃ group ∈ groups,
        m ∈ group.2 ∧ ∀ m' ∈ group.2, m'.identity = m.identity := by
    intro groups
    induction groups with
    | nil => exact fun _ => Or.inl
    | cons group groups ih =>
      intro s hmem
      rcases ih _ hmem with hmem | ⟨group', hgroup', hspec⟩
      · unfold selectSpan at hmem
        split_ifs at hmem with hoverlaps hone
        · exact Or.inl hmem
        · exact Or.inl hmem
        · rcases List.mem_append.1 hmem with hmem | hmem
          · exact Or.inl hmem
          · have hin : m ∈ group.2 := List.mem_of_mem_take hmem
            rw [not_not, length_dedup_eq_one] at hone
            obtain ⟨identity, -, hall⟩ := hone
            refine Or.inr ⟨group, List.mem_cons_self, hin, fun m' hm' => ?_⟩
            rw [hall _ (List.mem_map_of_mem hm'), hall _ (List.mem_map_of_mem hin)]
      · exact Or.inr ⟨group', List.mem_cons_of_mem group hgroup', hspec⟩
  rcases hfold _ _ hselected with hmem | ⟨group, hgroup, hin, hall⟩
  · cases hmem
  · obtain ⟨-, hmembers⟩ := mem_sortedGroups.1 hgroup
    rw [hmembers, List.mem_filter] at hin
    have hspan : m.span = group.1 := by simpa using hin.2
    refine ⟨hin.1, fun m' hm' hsame => hall m' ?_⟩
    rw [hmembers, List.mem_filter]
    exact ⟨hm', by simp [hsame, hspan]⟩

end Entities
