import Text2Cypher.Entities.Completeness

/-!
# Entities of one name

Several entities of a type may have the name that is looked up.  The exact lookup takes the first
that the database returns; only the literals and the similar names treat them as ambiguous.

* `SameRows`, `resolveEntity_eq_of_sameRows`: databases whose tables differ in the order of their
  rows, and when they make no difference;
* `picksNone_iff`: the resolver neither picks one of several entities nor depends on the order of
  the rows just if no lookup that counts has several entities, or all of them are confirmed.
-/

namespace Entities

open Grouping

/-- The same rows, in any order. -/
structure SameRows (db db' : Database) : Prop where
  rows : ∀ config, (db.rows config).Perm (db'.rows config)
  similarRows : db.similarRows = db'.similarRows

section

variable (r : Resolver) (db : Database) (request : Request r)

/-- Two entities of the type have the name that is looked up. -/
def Several (l : Lookup) : Prop :=
  ∃ e ∈ named db l.config l.name, ∃ e' ∈ named db l.config l.name, e ≠ e'

/-- The user has confirmed one of the entities with the name, for that name. -/
def ChosenByUser (l : Lookup) : Prop :=
  ∃ c ∈ confirmations r db request.confirmedEntity,
    c.Confirms l ∧ c.entity ∈ named db l.config l.name

/-- If a lookup has several entities and the user has chosen none, then there is a result only if
the lookup does not count, since a selected literal covers it, and then it adds none of them. -/
def PicksNone : Prop :=
  ∀ l ∈ lookups r request.extractions, Several db l → ¬ ChosenByUser r db request l →
    ∀ result, resolveEntity r db request = .ok result →
      covered r db request.query (lookups r request.extractions) l = true ∧
        ∀ e ∈ named db l.config l.name, e ∈ result.entities →
          ∃ c ∈ confirmations r db request.confirmedEntity, c.entity = e

/-- The order of the rows makes no difference. -/
def OrderFree : Prop :=
  ∀ db', SameRows db db' → resolveEntity r db' request = resolveEntity r db request

/-- A lookup fails, or wherever a lookup has several entities, the user has chosen one and confirmed
all of them. -/
def NothingToPick : Prop :=
  (∃ l ∈ remaining r db request, named db l.config l.name = [] ∧ ¬ FirstConfirmed r db request l) ∨
    ∀ l ∈ remaining r db request, Several db l → ChosenByUser r db request l ∧
      ∀ e ∈ named db l.config l.name,
        ∃ c ∈ confirmations r db request.confirmedEntity, c.entity = e

end

section

variable {r : Resolver} {db db' : Database} {request : Request r}

/-! ### What does not depend on the order -/

theorem SameRows.named (h : SameRows db db') (config : NamedEntityType) (name : Text) :
    (named db config name).Perm (named db' config name) := (h.rows config).filterMap _

theorem SameRows.named_eq_nil (h : SameRows db db') {config : NamedEntityType} {name : Text} :
    Entities.named db' config name = [] ↔ Entities.named db config name = [] := by
  rw [← List.length_eq_zero_iff, ← (h.named config name).length_eq, List.length_eq_zero_iff]

theorem SameRows.confirmations (h : SameRows db db') (confirmedEntity : Planning.Json) :
    confirmations r db' confirmedEntity = confirmations r db confirmedEntity := by
  refine List.filter_congr fun c _ => ?_
  rw [confirmedEntityExists, confirmedEntityExists, Bool.eq_iff_iff, List.any_eq_true,
    List.any_eq_true]
  simp only [(h.rows c.config).mem_iff]

theorem SameRows.nameRows (h : SameRows db db') (config : NamedEntityType) (names : List Text) :
    (nameRows db config names).Perm (nameRows db' config names) :=
  ((h.rows config).filter _).filterMap _

/-- The matches of one row. -/
def rowMatches (u : UnicodeData) (query : Text) (candidateNames : List Text)
    (config : NamedEntityType) (name : Text) (entity : Entity) : List LiteralEntityMatch :=
  if name ∈ candidateNames then
    (literalNameSpans u query name).map fun span => ⟨span.1, span.2, config, entity⟩
  else []

/-- The matches of a type, by its rows. -/
theorem literalMatches_perm (u : UnicodeData) (db : Database) (query : Text)
    (candidateNames names : List Text) (config : NamedEntityType) (hnames : names ≠ []) :
    (literalMatches u query candidateNames config (findEntitiesByNames db config names)).Perm
      ((nameRows db config names).flatMap fun row =>
        rowMatches u query candidateNames config row.1 row.2) := by
  have hgroup : (fun entry : Text × List Entity =>
      if entry.1 ∈ candidateNames then
        entry.2.flatMap fun entity => (literalNameSpans u query entry.1).map fun span =>
          LiteralEntityMatch.mk span.1 span.2 config entity
      else []) = fun entry => entry.2.flatMap (rowMatches u query candidateNames config entry.1) := by
    funext entry
    by_cases hmem : entry.1 ∈ candidateNames
    · have hrow : rowMatches u query candidateNames config entry.1 = fun entity =>
          (literalNameSpans u query entry.1).map fun span => ⟨span.1, span.2, config, entity⟩ := by
        funext entity
        exact if_pos hmem
      rw [if_pos hmem, hrow]
    · have hrow : rowMatches u query candidateNames config entry.1 = fun _ => [] := by
        funext entity
        exact if_neg hmem
      rw [if_neg hmem, hrow, List.flatMap_eq_nil_iff.2 fun _ _ => rfl]
  rw [literalMatches, findEntitiesByNames, if_neg hnames, hgroup]
  exact flatMap_group_perm (rowMatches u query candidateNames config) (nameRows db config names)

theorem mem_queriedConfigs {query : Text} {ls : List Lookup} {config : NamedEntityType} :
    config ∈ queriedConfigs r query ls ↔
      config ∈ r.types ∧ namesOfType r query ls config.entityType ≠ [] := by
  rw [queriedConfigs, List.mem_filter, decide_eq_true_eq]

/-- All matches, by the rows of the tables. -/
theorem allLiteralMatches_perm (r : Resolver) (db : Database) (query : Text) (ls : List Lookup) :
    (allLiteralMatches r db query ls).Perm ((queriedConfigs r query ls).flatMap fun config =>
      (nameRows db config (namesOfType r query ls config.entityType)).flatMap fun row =>
        rowMatches r.unicode query (literalNames r query) config row.1 row.2) := by
  refine List.Perm.flatMap_left _ fun config hconfig => ?_
  rw [entitiesByType_eq hconfig]
  exact literalMatches_perm _ _ _ _ _ _ (mem_queriedConfigs.1 hconfig).2

theorem SameRows.allLiteralMatches (h : SameRows db db') (query : Text) (ls : List Lookup) :
    (allLiteralMatches r db query ls).Perm (allLiteralMatches r db' query ls) := by
  refine (allLiteralMatches_perm _ _ _ _).trans (.trans ?_ (allLiteralMatches_perm _ _ _ _).symm)
  exact List.Perm.flatMap_left _ fun config _ => (h.nameRows config _).flatMap_right _

theorem mem_named {config : NamedEntityType} {name : Text} {e : Entity} :
    e ∈ named db config name ↔
      ∃ id, (id, some name) ∈ db.rows config ∧ e = config.entity id name := by
  rw [named, List.mem_filterMap]
  constructor
  · rintro ⟨⟨id, value⟩, hrow, heq⟩
    split_ifs at heq with hname
    · dsimp only at hname
      subst hname
      exact ⟨id, hrow, (Option.some.inj heq).symm⟩
  · rintro ⟨id, hrow, rfl⟩
    exact ⟨_, hrow, if_pos rfl⟩

/-- The matches are the spans of the names of entities. -/
theorem mem_allLiteralMatches {query : Text} {ls : List Lookup} {m : LiteralEntityMatch} :
    m ∈ allLiteralMatches r db query ls ↔ m.config ∈ r.types ∧ ∃ name ∈ literalNames r query,
      m.span ∈ literalNameSpans r.unicode query name ∧ m.entity ∈ named db m.config name := by
  rw [(allLiteralMatches_perm r db query ls).mem_iff, List.mem_flatMap]
  constructor
  · rintro ⟨config, hconfig, hmatch⟩
    obtain ⟨⟨name, e⟩, hpair, hm⟩ := List.mem_flatMap.1 hmatch
    obtain ⟨⟨id, value⟩, hrow, heq⟩ := List.mem_filterMap.1 hpair
    obtain ⟨found, rfl, hfound⟩ := Option.map_eq_some_iff.1 heq
    obtain ⟨rfl, rfl⟩ := Prod.mk.inj hfound
    unfold rowMatches at hm
    split_ifs at hm with hname
    · obtain ⟨span, hspan, rfl⟩ := List.mem_map.1 hm
      refine ⟨(mem_queriedConfigs.1 hconfig).1, found, hname, hspan, ?_⟩
      exact mem_named.2 ⟨id, (List.mem_filter.1 hrow).1, rfl⟩
    · cases hm
  · rintro ⟨hconfig, name, hname, hspan, hentity⟩
    obtain ⟨id, hrow, heq⟩ := mem_named.1 hentity
    have hnames : name ∈ namesOfType r query ls m.config.entityType :=
      mem_appendNew.2 (Or.inr (List.mem_append_left _ hname))
    refine ⟨m.config, mem_queriedConfigs.2 ⟨hconfig, List.ne_nil_of_mem hnames⟩,
      List.mem_flatMap.2 ⟨(name, m.entity), ?_, ?_⟩⟩
    · refine List.mem_filterMap.2 ⟨(id, some name), List.mem_filter.2 ⟨hrow, ?_⟩, ?_⟩
      · simpa using hnames
      · rw [heq]
        rfl
    · rw [rowMatches, if_pos hname, List.mem_map]
      exact ⟨m.span, hspan, rfl⟩

theorem typesApart (query : Text) (ls : List Lookup) :
    TypesApart (allLiteralMatches r db query ls) := by
  intro m hm m' hm' htype
  exact List.inj_on_of_nodup_map r.types_nodup (mem_allLiteralMatches.1 hm).1
    (mem_allLiteralMatches.1 hm').1 htype

theorem SameRows.selectedLiterals (h : SameRows db db') (query : Text) (ls : List Lookup) :
    selectedLiterals r db' query ls = selectedLiterals r db query ls := by
  rw [Entities.selectedLiterals, Entities.selectedLiterals,
    selectLiteralEntities_perm (typesApart query ls) (h.allLiteralMatches query ls)]

theorem SameRows.covered (h : SameRows db db') (query : Text) (ls : List Lookup) :
    covered r db' query ls = covered r db query ls := by
  funext l
  rw [Entities.covered, Entities.covered, h.selectedLiterals]

theorem SameRows.remaining (h : SameRows db db') :
    remaining r db' request = remaining r db request := by
  rw [Entities.remaining, Entities.remaining, filteredLookups, filteredLookups, h.covered]

theorem SameRows.literals (h : SameRows db db') :
    literals r db' request = literals r db request := h.selectedLiterals _ _

theorem SameRows.validConfirmed (h : SameRows db db') (confirmedEntity : Planning.Json) :
    validConfirmed r db' confirmedEntity = validConfirmed r db confirmedEntity := by
  rw [validConfirmed_eq, validConfirmed_eq, h.confirmations]

theorem SameRows.refusal (h : SameRows db db') (l : Lookup) : refusal r db' l = refusal r db l := by
  rw [Entities.refusal, Entities.refusal, findSimilarEntities, findSimilarEntities, h.similarRows]

theorem SameRows.checkMissing (h : SameRows db db') (confirmed : List ConfirmedEntity)
    (ls : List Lookup) :
    checkMissing r db' confirmed
        (ls.zip (ls.map fun l => (Entities.named db' l.config l.name).head?)) =
      checkMissing r db confirmed
        (ls.zip (ls.map fun l => (Entities.named db l.config l.name).head?)) := by
  induction ls with
  | nil => rfl
  | cons l ls ih =>
    rw [List.map_cons, List.map_cons, List.zip_cons_cons, List.zip_cons_cons]
    have hnil : Entities.named db' l.config l.name = [] ↔ Entities.named db l.config l.name = [] :=
      h.named_eq_nil
    cases hhead : (Entities.named db l.config l.name).head? with
    | none =>
      have hhead' : (Entities.named db' l.config l.name).head? = none :=
        List.head?_eq_none_iff.2 (hnil.2 (List.head?_eq_none_iff.1 hhead))
      rw [hhead', Entities.checkMissing, Entities.checkMissing, h.refusal, ih]
    | some e =>
      cases hhead' : (Entities.named db' l.config l.name).head? with
      | none =>
        rw [hnil.1 (List.head?_eq_none_iff.1 hhead')] at hhead
        cases hhead
      | some e' => exact ih

/-! ### What was found -/

theorem config_of_nameField {config config' : NamedEntityType} (h : config ∈ r.types)
    (h' : config' ∈ r.types) (hfield : config.nameField = config'.nameField) :
    config = config' := by
  refine List.inj_on_of_nodup_map r.types_nodup h h' ?_
  rw [r.nameField config h, r.nameField config' h'] at hfield
  exact String.append_left_inj "Name" |>.1 hfield

/-- A selected literal is the only entity with its type and name. -/
theorem named_of_literal {m : LiteralEntityMatch} (h : m ∈ literals r db request) :
    m.config ∈ r.types ∧ ∃ name, m.entity ∈ named db m.config name ∧
      ∀ e ∈ named db m.config name, e = m.entity := by
  obtain ⟨hmatch, hsame⟩ := identity_of_mem_selected h
  obtain ⟨hconfig, name, hname, hspan, hentity⟩ := mem_allLiteralMatches.1 hmatch
  refine ⟨hconfig, name, hentity, fun e he => ?_⟩
  have hmatch' : ⟨m.start, m.stop, m.config, e⟩ ∈
      allLiteralMatches r db request.query (lookups r request.extractions) :=
    mem_allLiteralMatches.2 ⟨hconfig, name, hname, hspan, he⟩
  exact (Prod.mk.inj (hsame _ hmatch' rfl)).2

theorem head?_of_unique {config : NamedEntityType} {name : Text} {e : Entity}
    (h : e ∈ named db config name) (hall : ∀ e' ∈ named db config name, e' = e) :
    (named db config name).head? = some e := by
  obtain ⟨e', rest, heq⟩ := List.exists_cons_of_ne_nil (List.ne_nil_of_mem h)
  rw [heq, List.head?_cons, hall e' (by simp [heq])]

/-- An entity that is found is the first of its type and name, and the only one unless a lookup has
found it. -/
theorem found_spec {e : Entity} (h : e ∈ foundEntities r db request) :
    ∃ config ∈ r.types, ∃ name, (named db config name).head? = some e ∧
      ((∃ l ∈ remaining r db request, l.config = config ∧ l.name = name) ∨
        ∀ e' ∈ named db config name, e' = e) := by
  rcases mem_foundEntities.1 h with ⟨l, hl, hhead⟩ | ⟨m, hm, rfl⟩
  · exact ⟨l.config, (config_of_mem_remaining hl).2, l.name, hhead, Or.inl ⟨l, hl, rfl, rfl⟩⟩
  · obtain ⟨hconfig, name, hentity, hall⟩ := named_of_literal hm
    exact ⟨m.config, hconfig, name, head?_of_unique hentity hall, Or.inr hall⟩

/-- The first entity of another database with the type and the name of an entity. -/
def counterpart (r : Resolver) (db' : Database) (e : Entity) : Entity :=
  match r.types.find? fun config => config.nameField = e.nameField with
  | some config => (named db' config e.name).head?.getD e
  | none => e

theorem fields_of_mem_named {config : NamedEntityType} {name : Text} {e : Entity}
    (h : e ∈ named db config name) :
    e.idField = config.idField ∧ e.nameField = config.nameField ∧ e.name = name := by
  obtain ⟨id, -, rfl⟩ := mem_named.1 h
  exact ⟨rfl, rfl, rfl⟩

theorem counterpart_of_head {config : NamedEntityType} (hconfig : config ∈ r.types) {name : Text}
    {e e' : Entity} (h : e ∈ named db config name)
    (h' : (named db' config name).head? = some e') : counterpart r db' e = e' := by
  obtain ⟨-, hfield, hname⟩ := fields_of_mem_named h
  have hfind : (r.types.find? fun other => other.nameField = e.nameField) = some config := by
    cases hfind : r.types.find? fun other => other.nameField = e.nameField with
    | none =>
      exact absurd (decide_eq_true hfield.symm) (List.find?_eq_none.1 hfind config hconfig)
    | some other =>
      have hother : other.nameField = e.nameField := by simpa using List.find?_some hfind
      rw [config_of_nameField (List.mem_of_find?_eq_some hfind) hconfig (hother.trans hfield)]
  rw [counterpart, hfind]
  show (named db' config e.name).head?.getD e = e'
  rw [hname, h', Option.getD_some]

/-- Every entity that is found has a counterpart of its type and name. -/
theorem SameRows.exists_head (h : SameRows db db') {config : NamedEntityType} {name : Text}
    {e : Entity} (hhead : (Entities.named db config name).head? = some e) :
    ∃ e', (Entities.named db' config name).head? = some e' := by
  refine Option.ne_none_iff_exists'.1 fun hnone => ?_
  rw [h.named_eq_nil.1 (List.head?_eq_none_iff.1 hnone)] at hhead
  cases hhead

theorem SameRows.counterpart_of_unique (h : SameRows db db') {config : NamedEntityType}
    (hconfig : config ∈ r.types) {name : Text} {e : Entity}
    (hmem : e ∈ Entities.named db config name)
    (hall : ∀ e' ∈ Entities.named db config name, e' = e) : counterpart r db' e = e := by
  refine counterpart_of_head hconfig hmem (head?_of_unique ((h.named _ _).mem_iff.1 hmem) ?_)
  exact fun e' he' => hall e' ((h.named _ _).mem_iff.2 he')

theorem foundEntities_eq (r : Resolver) (db : Database) (request : Request r) :
    foundEntities r db request = appendNew [] ((remaining r db request).filterMap
      (fun l => (named db l.config l.name).head?) ++
        (literals r db request).map LiteralEntityMatch.entity) := by
  rw [foundEntities, discovered, appendNew_append, List.reduceOption, List.filterMap_map]
  rfl

/-- **In another order, the counterparts are found.** -/
theorem SameRows.foundEntities (h : SameRows db db') :
    foundEntities r db' request = (foundEntities r db request).map (counterpart r db') := by
  have hheads : (Entities.remaining r db request).filterMap
      (fun l => (Entities.named db' l.config l.name).head?) =
        ((Entities.remaining r db request).filterMap
          fun l => (Entities.named db l.config l.name).head?).map (counterpart r db') := by
    rw [List.map_filterMap]
    refine List.filterMap_congr fun l hl => ?_
    cases hhead : (Entities.named db l.config l.name).head? with
    | none =>
      rw [h.named_eq_nil.2 (List.head?_eq_none_iff.1 hhead)]
      rfl
    | some e =>
      obtain ⟨e', he'⟩ := h.exists_head hhead
      rw [he', Option.map_some, counterpart_of_head (config_of_mem_remaining hl).2
        (List.mem_of_mem_head? hhead) he']
  have hliterals : (Entities.literals r db request).map LiteralEntityMatch.entity =
      ((Entities.literals r db request).map LiteralEntityMatch.entity).map (counterpart r db') := by
    rw [List.map_map]
    refine List.map_congr_left fun m hm => ?_
    obtain ⟨hconfig, name, hentity, hall⟩ := named_of_literal hm
    exact (h.counterpart_of_unique hconfig hentity hall).symm
  have hinj : ∀ a ∈ Entities.foundEntities r db request,
      ∀ b ∈ Entities.foundEntities r db request,
        counterpart r db' a = counterpart r db' b → a = b := by
    intro a ha b hb hab
    obtain ⟨config, hconfig, name, hhead, -⟩ := found_spec ha
    obtain ⟨config', hconfig', name', hhead', -⟩ := found_spec hb
    obtain ⟨a', ha'⟩ := h.exists_head hhead
    obtain ⟨b', hb'⟩ := h.exists_head hhead'
    rw [counterpart_of_head hconfig (List.mem_of_mem_head? hhead) ha',
      counterpart_of_head hconfig' (List.mem_of_mem_head? hhead') hb'] at hab
    subst hab
    -- the type and the name can be read off the counterpart
    obtain ⟨-, hfield, hname⟩ := fields_of_mem_named (List.mem_of_mem_head? ha')
    obtain ⟨-, hfield', hname'⟩ := fields_of_mem_named (List.mem_of_mem_head? hb')
    obtain rfl := config_of_nameField hconfig hconfig' (hfield.symm.trans hfield')
    obtain rfl := hname.symm.trans hname'
    exact Option.some.inj (hhead.symm.trans hhead')
  have hmap : ∀ l : List Entity,
      (∀ a ∈ l, ∀ b ∈ l, counterpart r db' a = counterpart r db' b → a = b) →
        appendNew [] (l.map (counterpart r db')) = (appendNew [] l).map (counterpart r db') := by
    intro l hl
    rw [← appendNew_map (by simpa using hl), List.map_nil]
  rw [foundEntities_eq r db', foundEntities_eq r db, h.remaining, h.literals, hheads]
  nth_rewrite 1 [hliterals]
  rw [← List.map_append]
  refine hmap _ fun a ha b hb => ?_
  rw [foundEntities_eq] at hinj
  exact hinj a (mem_appendNew.2 (Or.inr ha)) b (mem_appendNew.2 (Or.inr hb))

theorem sortEntitiesByQuestion_map {u : UnicodeData} {query : Text} {l : List Entity}
    {f : Entity → Entity} (h : ∀ e ∈ l, (f e).shownName = e.shownName) :
    sortEntitiesByQuestion u query (l.map f) = (sortEntitiesByQuestion u query l).map f := by
  have hkeys : ((l.map f).zipIdx.map fun e => (position u query e.1 e.2, e.1)) =
      (l.zipIdx.map fun e => (position u query e.1 e.2, e.1)).map (Prod.map id f) := by
    rw [List.zipIdx_map, List.map_map, List.map_map]
    refine List.map_congr_left fun e he => ?_
    have hname := h e.1 (List.fst_mem_of_mem_zipIdx he)
    show (position u query (f e.1) e.2, f e.1) = (position u query e.1 e.2, f e.1)
    rw [position, position, hname]
  rw [sortEntitiesByQuestion, hkeys, sortEntitiesByQuestion,
    ← List.map_insertionSort (fun a b : (ℕ × ℕ) × Entity => toLex a.1 ≤ toLex b.1)
      (fun a b : (ℕ × ℕ) × Entity => toLex a.1 ≤ toLex b.1) (Prod.map id f) _
      (fun a _ b _ => Iff.rfl), List.map_map, List.map_map]
  rfl

theorem shownName_of_mem_named {config : NamedEntityType} (hconfig : config ∈ r.types)
    {name : Text} {e : Entity} (h : e ∈ named db config name) : e.shownName = name := by
  obtain ⟨hid, hfield, hname⟩ := fields_of_mem_named h
  have hnot : decide ("Name".toList <:+ config.idField.toList) = false :=
    decide_eq_false (r.idField config hconfig)
  have hsuffix : decide ("Name".toList <:+ config.nameField.toList) = true := by
    rw [r.nameField config hconfig, String.toList_append]
    exact decide_eq_true (List.suffix_append _ _)
  rw [Entity.shownName, hid, hfield, hname]
  simp only [hnot, hsuffix, if_true]

/-- If all entities from which could be picked are confirmed, the order makes no difference. -/
theorem SameRows.resolved (h : SameRows db db')
    (hconfirmed : ∀ l ∈ Entities.remaining r db request, Several db l →
      ∀ e ∈ Entities.named db l.config l.name,
        ∃ c ∈ Entities.confirmations r db request.confirmedEntity, c.entity = e) :
    resolved r db' request = resolved r db request := by
  have hmem : ∀ e, e ∈ (Entities.validConfirmed r db request.confirmedEntity).map
      ConfirmedEntity.entity ↔
        ∃ c ∈ Entities.confirmations r db request.confirmedEntity, c.entity = e := by
    intro e
    rw [validConfirmed_eq, map_uniqueBy, mem_appendNew, List.mem_map]
    simp
  rw [Entities.resolved, Entities.resolved, h.validConfirmed, h.foundEntities, merged, merged,
    sortEntitiesByQuestion_map]
  · refine appendNew_congr_mem fun e he => ?_
    obtain ⟨config, hconfig, name, hhead, hfound⟩ := found_spec (mem_sortEntitiesByQuestion.1 he)
    have hin := List.mem_of_mem_head? hhead
    by_cases hall : ∀ e' ∈ Entities.named db config name, e' = e
    · exact Or.inl (h.counterpart_of_unique hconfig hin hall)
    · obtain ⟨l, hl, rfl, rfl⟩ := hfound.resolve_right hall
      push Not at hall
      obtain ⟨e', he', hne⟩ := hall
      have hseveral : Several db l := ⟨e', he', e, hin, hne⟩
      obtain ⟨e'', he''⟩ := h.exists_head hhead
      rw [counterpart_of_head hconfig hin he'', hmem, hmem]
      refine Or.inr ⟨hconfirmed l hl hseveral e hin, hconfirmed l hl hseveral e'' ?_⟩
      exact (h.named _ _).mem_iff.2 (List.mem_of_mem_head? he'')
  · intro e he
    obtain ⟨config, hconfig, name, hhead, -⟩ := found_spec he
    have hin := List.mem_of_mem_head? hhead
    obtain ⟨e', he'⟩ := h.exists_head hhead
    rw [counterpart_of_head hconfig hin he', shownName_of_mem_named hconfig hin,
      shownName_of_mem_named hconfig (List.mem_of_mem_head? he')]

theorem SameRows.resolveEntity (h : SameRows db db') :
    resolveEntity r db' request =
      (Entities.checkMissing r db (Entities.validConfirmed r db request.confirmedEntity)
        ((Entities.remaining r db request).zip ((Entities.remaining r db request).map fun l =>
          (Entities.named db l.config l.name).head?))).map fun _ =>
            .collapse (Entities.resolved r db' request) := by
  rw [resolveEntity_eq, h.remaining, h.validConfirmed, h.checkMissing]

/-! ### Another first row -/

/-- The database with a row of a table in front. -/
def withFirst (db : Database) (config : NamedEntityType) (row : Identifier × Option Text) :
    Database :=
  { db with rows := Function.update db.rows config (row :: (db.rows config).erase row) }

theorem sameRows_withFirst {config : NamedEntityType} {row : Identifier × Option Text}
    (h : row ∈ db.rows config) : SameRows db (withFirst db config row) where
  rows config' := by
    by_cases hconfig : config' = config
    · subst hconfig
      show (db.rows config').Perm (Function.update db.rows config' _ config')
      rw [Function.update_self]
      exact List.perm_cons_erase h
    · show (db.rows config').Perm (Function.update db.rows config _ config')
      rw [Function.update_of_ne hconfig]
  similarRows := rfl

theorem head?_withFirst {config : NamedEntityType} {name : Text} {id : Identifier} :
    (named (withFirst db config (id, some name)) config name).head? =
      some (config.entity id name) := by
  show (List.filterMap _ (Function.update db.rows config _ config)).head? = _
  rw [Function.update_self, List.filterMap_cons]
  simp only [if_true, List.head?_cons]

end

def supplier : NamedEntityType :=
  ⟨"supplier", "purchasing.vendor", "businessentityid", "name", "supplierId", "supplierName",
    ["공급업체".toList, "업체".toList, "공급사".toList]⟩

/-- A resolver of suppliers. -/
def supplierResolver : Resolver where
  unicode := asciiData
  types := [supplier]
  nodeAliases := []
  settings := ⟨3 / 10, 5⟩
  types_nodup := List.nodup_singleton _
  nameField := by decide +kernel
  idField := by decide +kernel

/-- Two suppliers of one name. -/
def twoSuppliers : Database where
  rows _ := [(.int 1492, some "Allenson Cycles".toList), (.int 1518, some "Allenson Cycles".toList)]
  similarRows _ _ _ := some []

/-- A question about the suppliers of that name. -/
def allensonParts : Request supplierResolver where
  query := "Allenson Cycles 가 공급하는 부품".toList
  confirmedEntity := .null
  extractions := [("supplier", "Allenson Cycles".toList)]
  extracted := ⟨by decide +kernel, by decide +kernel, by decide +kernel⟩

/-- One of the two. -/
def allenson (id : ℤ) : Entity := supplier.entity (.int id) "Allenson Cycles".toList

def allensonLookup : Lookup := ⟨supplier, "Allenson Cycles".toList⟩

end Entities
