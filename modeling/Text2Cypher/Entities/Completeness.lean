import Text2Cypher.Entities.Resolution

/-!
# Nothing is lost

Every name that is looked up is in the result or confirmed, every confirmed entity and every
selected literal is in the result, and an error is due to a name with neither entity nor
confirmation.

* `complete_of_resolved`: a result is always complete;
* `losesNothing_iff`: errors are due to unresolved names just if every confirmation that matters is
  the first of its entity.  The resolver drops the later ones with the names they were given for.
-/

namespace Entities

open Grouping

/-- The user has confirmed the entity for the name of the lookup. -/
def ConfirmedEntity.Confirms (c : ConfirmedEntity) (l : Lookup) : Prop :=
  c.forName = l.name ∧ c.config.entityType = l.config.entityType

instance (c : ConfirmedEntity) (l : Lookup) : Decidable (c.Confirms l) :=
  inferInstanceAs (Decidable (_ ∧ _))

section

variable (r : Resolver) (db : Database) (request : Request r)

/-- No entity of the type has the name, and none is confirmed for it. -/
structure Unresolved (l : Lookup) : Prop where
  unnamed : named db l.config l.name = []
  unconfirmed : ∀ c ∈ confirmations r db request.confirmedEntity, ¬ c.Confirms l

/-- What a result must hold. -/
structure Complete (result : List Entity) : Prop where
  looked : ∀ l ∈ lookups r request.extractions,
    covered r db request.query (lookups r request.extractions) l = false →
      (∃ e ∈ named db l.config l.name, e ∈ result) ∨
        ∃ c ∈ confirmations r db request.confirmedEntity, c.Confirms l
  literal : ∀ m ∈ literals r db request, m.entity ∈ result
  /-- the confirmed entities come first -/
  confirmed : ∃ before after, result = before ++ after ∧
    ∀ e, e ∈ before ↔ ∃ c ∈ confirmations r db request.confirmedEntity, c.entity = e
  nodup : result.Nodup

/-- A result is complete, and an error is that of the first unresolved lookup. -/
def LosesNothing : Prop :=
  (∀ result, resolveEntity r db request = .ok result → Complete r db request result.entities) ∧
    ∀ e, resolveEntity r db request = .error e →
      ∃ before l after, remaining r db request = before ++ l :: after ∧
        Unresolved r db request l ∧ (∀ l' ∈ before, ¬ Unresolved r db request l') ∧
        e = refusal r db l

/-- Of the valid confirmations of an entity, the first is for the name of the lookup. -/
def FirstConfirmed (l : Lookup) : Prop :=
  ∃ before c after, confirmations r db request.confirmedEntity = before ++ c :: after ∧
    c.Confirms l ∧ ∀ c' ∈ before, c'.entity ≠ c.entity

/-- A lookup without an entity that the user has confirmed is confirmed by the first confirmation
of some entity, or comes behind an unresolved one. -/
def ConfirmationsHeeded : Prop :=
  ∀ before l after, remaining r db request = before ++ l :: after →
    named db l.config l.name = [] →
    (∃ c ∈ confirmations r db request.confirmedEntity, c.Confirms l) →
      FirstConfirmed r db request l ∨ ∃ l' ∈ before, Unresolved r db request l'

end

section

variable {r : Resolver} {db : Database} {request : Request r}

theorem covers_iff {l : Lookup} :
    confirmedEntityCoversLookup (validConfirmed r db request.confirmedEntity) l = true ↔
      FirstConfirmed r db request l := by
  rw [confirmedEntityCoversLookup, List.any_eq_true, validConfirmed_eq]
  simp only [Bool.and_eq_true, decide_eq_true_eq]
  constructor
  · rintro ⟨c, hc, hconfirms⟩
    obtain ⟨before, after, heq, hfirst⟩ := mem_uniqueBy.1 hc
    exact ⟨before, c, after, heq, hconfirms, hfirst⟩
  · rintro ⟨before, c, after, heq, hconfirms, hfirst⟩
    exact ⟨c, mem_uniqueBy.2 ⟨before, after, heq, hfirst⟩, hconfirms⟩

theorem FirstConfirmed.confirmed {l : Lookup} (h : FirstConfirmed r db request l) :
    ∃ c ∈ confirmations r db request.confirmedEntity, c.Confirms l := by
  obtain ⟨before, c, after, heq, hconfirms, -⟩ := h
  exact ⟨c, by simp [heq], hconfirms⟩

theorem head?_eq_none_iff {config : NamedEntityType} {name : Text} :
    (named db config name).head? = none ↔ named db config name = [] :=
  List.head?_eq_none_iff

/-- The two outcomes, in terms of what the tables and the request hold. -/
theorem resolveEntity_cases (r : Resolver) (db : Database) (request : Request r) :
    (resolveEntity r db request = .ok (.collapse (resolved r db request)) ∧
      ∀ l ∈ remaining r db request,
        named db l.config l.name ≠ [] ∨ FirstConfirmed r db request l) ∨
    ∃ before l after, remaining r db request = before ++ l :: after ∧
      resolveEntity r db request = .error (refusal r db l) ∧
      (named db l.config l.name = [] ∧ ¬ FirstConfirmed r db request l) ∧
      ∀ l' ∈ before, named db l'.config l'.name ≠ [] ∨ FirstConfirmed r db request l' := by
  have hcases := checkMissing_cases r db (validConfirmed r db request.confirmedEntity)
    (fun l => (named db l.config l.name).head?) (remaining r db request)
  simp only [covers_iff, ← Bool.not_eq_true, ne_eq, head?_eq_none_iff] at hcases
  rcases hcases with ⟨hok, hall⟩ | ⟨before, l, after, heq, herror, hl, hbefore⟩
  · refine Or.inl ⟨?_, hall⟩
    rw [resolveEntity_eq, hok]
    rfl
  · refine Or.inr ⟨before, l, after, heq, ?_, hl, hbefore⟩
    rw [resolveEntity_eq, herror]
    rfl

theorem mem_sortEntitiesByQuestion {u : UnicodeData} {query : Text} {l : List Entity} {e : Entity} :
    e ∈ sortEntitiesByQuestion u query l ↔ e ∈ l := by
  rw [sortEntitiesByQuestion, ((List.perm_insertionSort _ _).map Prod.snd).mem_iff, List.map_map]
  have hfst : (l.zipIdx.map (Prod.snd ∘ fun e => (position u query e.1 e.2, e.1))) = l := by
    show l.zipIdx.map Prod.fst = l
    exact List.zipIdx_map_fst 0 l
  rw [hfst]

theorem mem_resolved {e : Entity} :
    e ∈ resolved r db request ↔
      (∃ c ∈ confirmations r db request.confirmedEntity, c.entity = e) ∨
        e ∈ foundEntities r db request := by
  rw [resolved, merged, mem_appendNew, mem_sortEntitiesByQuestion, validConfirmed_eq, map_uniqueBy,
    mem_appendNew, List.mem_map]
  simp

theorem mem_foundEntities {e : Entity} :
    e ∈ foundEntities r db request ↔
      (∃ l ∈ remaining r db request, (named db l.config l.name).head? = some e) ∨
        ∃ m ∈ literals r db request, m.entity = e := by
  rw [foundEntities, discovered, mem_appendNew, mem_appendNew, List.reduceOption_mem_iff,
    List.mem_map, List.mem_map]
  simp

/-- **A result is complete.** -/
theorem complete_of_resolved
    (hall : ∀ l ∈ remaining r db request,
      named db l.config l.name ≠ [] ∨ FirstConfirmed r db request l) :
    Complete r db request (resolved r db request) := by
  constructor
  · intro l hl hcovered
    have hremaining : l ∈ remaining r db request := List.mem_filter.2 ⟨hl, by simp [hcovered]⟩
    rcases hall l hremaining with hnamed | hfirst
    · obtain ⟨e, rest, heq⟩ := List.exists_cons_of_ne_nil hnamed
      have hhead : (named db l.config l.name).head? = some e := by rw [heq, List.head?_cons]
      refine Or.inl ⟨e, List.mem_of_mem_head? hhead, ?_⟩
      exact mem_resolved.2 (Or.inr (mem_foundEntities.2 (Or.inl ⟨l, hremaining, hhead⟩)))
    · exact Or.inr hfirst.confirmed
  · intro m hm
    exact mem_resolved.2 (Or.inr (mem_foundEntities.2 (Or.inr ⟨m, hm, rfl⟩)))
  · obtain ⟨after, heq⟩ := prefix_appendNew
      ((validConfirmed r db request.confirmedEntity).map ConfirmedEntity.entity)
      (sortEntitiesByQuestion r.unicode request.query (foundEntities r db request))
    refine ⟨_, after, heq.symm, fun e => ?_⟩
    rw [validConfirmed_eq, map_uniqueBy, mem_appendNew, List.mem_map]
    simp
  · refine nodup_appendNew ?_
    rw [validConfirmed_eq, map_uniqueBy]
    exact nodup_appendNew List.nodup_nil

/-- Two lookups with one error have the same type and name. -/
theorem refusal_inj {l l' : Lookup} (h : refusal r db l = refusal r db l') :
    l.config.entityType = l'.config.entityType ∧ l.name = l'.name := by
  obtain ⟨htype, herror⟩ := Raised.mk.inj h
  refine ⟨htype, ?_⟩
  split_ifs at herror <;> simp_all

end

/-- Of two elements of a list one comes first, or they are the same. -/
theorem mem_or_eq_of_append_eq {α : Type} {before before' after after' : List α} {a a' : α}
    (h : before ++ a :: after = before' ++ a' :: after') : a ∈ before' ∨ a = a' ∨ a' ∈ before := by
  rcases List.append_eq_append_iff.1 h with ⟨middle, rfl, heq⟩ | ⟨middle, rfl, heq⟩
  · cases middle with
    | nil => exact Or.inr (Or.inl (List.cons.inj heq).1)
    | cons b middle =>
      obtain ⟨rfl, -⟩ := List.cons.inj heq
      exact Or.inl (by simp)
  · cases middle with
    | nil => exact Or.inr (Or.inl (List.cons.inj heq).1.symm)
    | cons b middle =>
      obtain ⟨rfl, -⟩ := List.cons.inj heq
      exact Or.inr (Or.inr (by simp))

/-- **The resolver loses nothing just if it heeds the confirmations**: the lookups without an entity
that the user has confirmed are confirmed by the first confirmation of some entity, or come behind
an unresolved one. -/
theorem losesNothing_iff (r : Resolver) (db : Database) (request : Request r) :
    LosesNothing r db request ↔ ConfirmationsHeeded r db request := by
  rcases resolveEntity_cases r db request with
    ⟨hok, hall⟩ | ⟨before, l, after, heq, herror, ⟨hnone, hfirst⟩, hbefore⟩
  · refine iff_of_true ⟨fun result hresult => ?_, fun e he => ?_⟩ ?_
    · obtain rfl := Except.ok.inj (hok.symm.trans hresult)
      rw [Resolved.entities_collapse]
      exact complete_of_resolved hall
    · rw [hok] at he
      cases he
    · intro before l after heq hnone _
      exact Or.inl ((hall l (by simp [heq])).resolve_left fun hne => hne hnone)
  · constructor
    · rintro ⟨-, herrors⟩ before' l' after' heq' hnone' hconfirmed
      by_contra hnot
      push Not at hnot
      obtain ⟨hfirst', hbefore'⟩ := hnot
      obtain ⟨-, k, -, -, hunresolved, -, hrefusal⟩ := herrors _ herror
      obtain ⟨htype, hname⟩ := refusal_inj hrefusal
      -- the error is also that of the unresolved `k`, so that no confirmation is for `l`
      have hl : Unresolved r db request l := by
        refine ⟨hnone, fun c hc hconfirms => hunresolved.unconfirmed c hc ?_⟩
        exact ⟨hconfirms.1.trans hname, hconfirms.2.trans htype⟩
      rcases mem_or_eq_of_append_eq (heq.symm.trans heq') with hmem | rfl | hmem
      · exact hbefore' l hmem hl
      · obtain ⟨c, hc, hconfirms⟩ := hconfirmed
        exact hl.unconfirmed c hc hconfirms
      · rcases hbefore l' hmem with hne | h
        · exact hne hnone'
        · exact hfirst' h
    · intro hheeded
      refine ⟨fun result hresult => ?_, fun e he => ?_⟩
      · rw [herror] at hresult
        cases hresult
      · obtain rfl := Except.error.inj (herror.symm.trans he)
        have hresolved : ∀ l' ∈ before, ¬ Unresolved r db request l' := by
          rintro l' hl' ⟨hunnamed, hunconfirmed⟩
          obtain ⟨c, hc, hconfirms⟩ :=
            ((hbefore l' hl').resolve_left fun hne => hne hunnamed).confirmed
          exact hunconfirmed c hc hconfirms
        refine ⟨before, l, after, heq, ⟨hnone, fun c hc hconfirms => ?_⟩, hresolved, rfl⟩
        rcases hheeded before l after heq hnone ⟨c, hc, hconfirms⟩ with h | ⟨l', hl', h⟩
        · exact hfirst h
        · exact hresolved l' hl' h

def product : NamedEntityType :=
  ⟨"product", "production.product", "productid", "name", "productId", "productName",
    ["제품".toList, "부품".toList, "완제품".toList]⟩

/-- A resolver of products. -/
def productResolver : Resolver where
  unicode := asciiData
  types := [product]
  nodeAliases := []
  settings := ⟨3 / 10, 5⟩
  types_nodup := List.nodup_singleton _
  nameField := by decide +kernel
  idField := by decide +kernel

/-- A table with one frame. -/
def oneFrame : Database where
  rows _ := [(.int 5, some "HL Road Frame".toList)]
  similarRows _ _ _ := some []

/-- The frame, confirmed for a name. -/
def frameFor (name : String) : Planning.Json :=
  .object [("entity", .object [("productId", .number "5"), ("productName", .str "HL Road Frame")]),
    ("forName", .str name)]

/-- The user means the same frame by two names. -/
def twoNames : Request productResolver where
  query := "Alloy 와 Chassis 재고".toList
  confirmedEntity := .array [frameFor "Alloy", frameFor "Chassis"]
  extractions := [("product", "Alloy".toList), ("product", "Chassis".toList)]
  extracted := ⟨by decide +kernel, by decide +kernel, by decide +kernel⟩

/-- The second name counts as not found, although the frame is confirmed for it. -/
theorem not_losesNothing_twoNames : ¬ LosesNothing productResolver oneFrame twoNames := by
  have herror : resolveEntity productResolver oneFrame twoNames =
      .error ⟨"product", .notFound "Chassis".toList⟩ := by decide +kernel
  have hconfirmed : ∀ l ∈ remaining productResolver oneFrame twoNames,
      ∃ c ∈ confirmations productResolver oneFrame twoNames.confirmedEntity, c.Confirms l := by
    decide +kernel
  rintro ⟨-, herrors⟩
  obtain ⟨before, l, after, heq, hunresolved, -⟩ := herrors _ herror
  obtain ⟨c, hc, hconfirms⟩ := hconfirmed l (by simp [heq])
  exact hunresolved.unconfirmed c hc hconfirms

end Entities
