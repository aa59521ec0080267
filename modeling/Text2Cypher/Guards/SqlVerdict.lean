import Text2Cypher.Guards.SqlScopes

/-!
# What the SQL guard allows

The guard visits the definitions and sources of a statement one after the other.  A source must be
resolved by what came before it: a CTE counts from its definition on.

* **`allowed_iff`**: the guard allows exactly one statement, without write keywords and forbidden
  calls, of the shape of a query, whose sources are all resolved at their turn.
-/

namespace Guards.Sql

open NestedWalk

variable (k : Casing)

/-- What the guard visits of a statement, in its order: the statement first, then the nested
queries in it. -/
noncomputable def visits (statement : Statement) : List (Role × Token) :=
  (statement.tokens :: nestedSelectParens statement.tokens).flatMap (isWalk k).visits

theorem walkStatement_eq_foldl (statement : Statement) :
    walkStatement k statement = (visits k statement).foldl (visit k) .init := by
  have hwalk : (fun w nested => walkForTables k nested w) =
      fun w nested => ((isWalk k).visits nested).foldl (visit k) w := by
    funext w nested
    exact (isWalk k).walk_eq_foldl nested w
  rw [walkStatement, visits, List.flatMap_cons, List.foldl_append, List.foldl_flatMap, hwalk,
    (isWalk k).walk_eq_foldl]

/-- The guard visits the definitions and sources of the lists that it walks over, and nothing else. -/
theorem mem_visits_iff {statement : Statement} {entry : Role × Token} :
    entry ∈ visits k statement ↔
      ∃ tokens, Reached k statement tokens ∧ entry ∈ entries k tokens := by
  rw [visits, List.flatMap_cons, List.mem_append, List.mem_flatMap, IsWalk.mem_visits]
  simp only [IsWalk.mem_visits]
  constructor
  · rintro (⟨tokens, hreach, hentry⟩ | ⟨nested, hnested, tokens, hreach, hentry⟩)
    · exact ⟨tokens, .inl hreach, hentry⟩
    · exact ⟨tokens, .inr ⟨nested, hnested, hreach⟩, hentry⟩
  · rintro ⟨tokens, hreach | ⟨nested, hnested, hreach⟩, hentry⟩
    · exact .inl ⟨tokens, hreach, hentry⟩
    · exact .inr ⟨nested, hnested, tokens, hreach, hentry⟩

/-- The CTE names that a list of visits has registered. -/
def registered (visited : List (Role × Token)) : List Text :=
  visited.filterMap fun part =>
    match part.1 with
    | .cteList _ => (part.2.realName.filter (· ≠ [])).map k.lower
    | _ => none

/-- How the guard resolves a source, where it knows the CTE names `known`. -/
inductive Resolved (sqlSchema : SqlSchema) (known : List Text) (source : Token) : Prop
  | function (h : (safeFromFunction k source).isSome = true)
  | parenthesis (h : (findParenthesis source).isSome = true)
  | table {real parent : Text} (hreal : source.realName = some real) (hne : real ≠ [])
      (hparent : source.parentName = some parent)
      (htable : k.lower (parent ++ '.' :: real) ∈ sqlSchema.tables.map k.lower)
  | cte {real : Text} (hreal : source.realName = some real) (hne : real ≠ [])
      (hparent : source.parentName = none) (hname : k.lower real ∈ known)

/-! ### One visit -/

/-- A walk that has met sources of the schema only. -/
def Walk.Good (sqlSchema : SqlSchema) (w : Walk) : Prop :=
  w.unresolved = false ∧ ∀ table ∈ w.tables, table ∈ sqlSchema.tables.map k.lower

theorem Walk.define_cteNames (w : Walk) (definition : Token) :
    (w.define k definition).cteNames =
      ((definition.realName.filter (· ≠ [])).map k.lower).toList ++ w.cteNames := by
  rw [Walk.define]
  cases definition.realName with
  | none => rfl
  | some name =>
    by_cases hne : name = []
    · simp [hne]
    · simp [hne, Option.filter]

theorem Walk.good_define {sqlSchema : SqlSchema} {w : Walk} {definition : Token} :
    (w.define k definition).Good k sqlSchema ↔ w.Good k sqlSchema := by
  rw [Walk.define]
  split
  · split_ifs <;> rfl
  · rfl

/-- A reference stays resolved when it is a table of the schema or a known name. -/
theorem Walk.good_refer {sqlSchema : SqlSchema} {w : Walk} {source : Token}
    (hfunction : (safeFromFunction k source).isSome = false)
    (hparenthesis : (findParenthesis source).isSome = false) :
    (w.refer k source).Good k sqlSchema ↔
      w.Good k sqlSchema ∧ Resolved k sqlSchema w.cteNames source := by
  have hunresolved : ∀ w' : Walk, w'.unresolved = true → ¬ w'.Good k sqlSchema := by
    rintro w' h ⟨hfalse, -⟩
    rw [h] at hfalse
    cases hfalse
  -- what `Resolved` leaves, once the source is no function and no parenthesis
  have hleft : Resolved k sqlSchema w.cteNames source ↔ ∃ real, source.realName = some real ∧
      real ≠ [] ∧ source.parentName.elim (k.lower real ∈ w.cteNames) fun parent =>
        k.lower (parent ++ '.' :: real) ∈ sqlSchema.tables.map k.lower := by
    constructor
    · rintro (h | h | ⟨hreal, hne, hparent, htable⟩ | ⟨hreal, hne, hparent, hname⟩)
      · simp [hfunction] at h
      · simp [hparenthesis] at h
      · exact ⟨_, hreal, hne, by rw [hparent]; exact htable⟩
      · exact ⟨_, hreal, hne, by rw [hparent]; exact hname⟩
    · rintro ⟨real, hreal, hne, hmatch⟩
      cases hparent : source.parentName with
      | none => exact .cte hreal hne hparent (by simpa [hparent] using hmatch)
      | some parent =>
        exact .table hreal hne hparent (by simpa only [hparent, Option.elim_some] using hmatch)
  rw [hleft, Walk.refer]
  cases hreal : source.realName with
  | none => simpa using hunresolved _ rfl
  | some real =>
    by_cases hne : real = []
    · simpa [hne] using hunresolved { w with unresolved := true } rfl
    · cases hparent : source.parentName with
      | none =>
        by_cases hknown : k.lower real ∈ w.cteNames
        · simp [hne, hknown]
        · simpa [hne, hknown] using hunresolved { w with unresolved := true } rfl
      | some parent =>
        simp only [hne, if_false, Walk.Good, List.mem_cons, forall_eq_or_imp, Option.some.injEq,
          exists_eq_left', ne_eq, not_false_eq_true, true_and]
        tauto

theorem good_visit {sqlSchema : SqlSchema} {w : Walk} {role : Role} {token : Token} :
    (visit k w (role, token)).Good k sqlSchema ↔
      w.Good k sqlSchema ∧ (role = .source → Resolved k sqlSchema w.cteNames token) := by
  cases role with
  | cteList recursive => simpa [visit] using Walk.good_define k
  | other => simp [visit]
  | source =>
    simp only [visit, true_imp_iff]
    split_ifs with hpassed
    · have hresolved : Resolved k sqlSchema w.cteNames token := by
        rcases hpassed with hfunction | hparenthesis
        · exact .function hfunction
        · exact .parenthesis hparenthesis
      simp [hresolved]
    · obtain ⟨hfunction, hparenthesis⟩ := not_or.1 hpassed
      exact Walk.good_refer k (Bool.eq_false_iff.2 hfunction) (Bool.eq_false_iff.2 hparenthesis)

theorem visit_cteNames (w : Walk) (entry : Role × Token) :
    (visit k w entry).cteNames = registered k [entry] ++ w.cteNames := by
  obtain ⟨role, token⟩ := entry
  cases role with
  | cteList recursive =>
    have hregistered : registered k [(Role.cteList recursive, token)] =
        ((token.realName.filter (· ≠ [])).map k.lower).toList := rfl
    rw [visit, Walk.define_cteNames, hregistered]
  | source =>
    simp only [visit]
    split_ifs <;> simp [registered]
  | other => rfl

/-! ### All visits -/

theorem registered_append (visited visited' : List (Role × Token)) :
    registered k (visited ++ visited') = registered k visited ++ registered k visited' :=
  List.filterMap_append

theorem mem_cteNames_foldl {visited : List (Role × Token)} {name : Text} :
    name ∈ (visited.foldl (visit k) .init).cteNames ↔ name ∈ registered k visited := by
  induction visited using List.reverseRecOn with
  | nil => rfl
  | append_singleton visited entry ih =>
    rw [List.foldl_append, List.foldl_cons, List.foldl_nil, visit_cteNames, registered_append,
      List.mem_append, List.mem_append, ih, or_comm]

theorem Resolved.congr {sqlSchema : SqlSchema} {known known' : List Text} {source : Token}
    (h : Resolved k sqlSchema known source) (hknown : ∀ name, name ∈ known → name ∈ known') :
    Resolved k sqlSchema known' source := by
  rcases h with h | h | ⟨hreal, hne, hparent, htable⟩ | ⟨hreal, hne, hparent, hname⟩
  · exact .function h
  · exact .parenthesis h
  · exact .table hreal hne hparent htable
  · exact .cte hreal hne hparent (hknown _ hname)

/-- Every source among the visits is resolved by what was visited before it. -/
def AllResolved (sqlSchema : SqlSchema) (visited : List (Role × Token)) : Prop :=
  ∀ before source after, visited = before ++ (.source, source) :: after →
    Resolved k sqlSchema (registered k before) source

theorem allResolved_append_singleton {sqlSchema : SqlSchema} {visited : List (Role × Token)}
    {entry : Role × Token} :
    AllResolved k sqlSchema (visited ++ [entry]) ↔ AllResolved k sqlSchema visited ∧
      (entry.1 = .source → Resolved k sqlSchema (registered k visited) entry.2) := by
  constructor
  · intro h
    refine ⟨?_, ?_⟩
    · rintro before source after rfl
      exact h before source (after ++ [entry]) (by simp)
    · intro hrole
      obtain ⟨role, token⟩ := entry
      obtain rfl : role = .source := hrole
      exact h visited token [] rfl
  · rintro ⟨hvisited, hlast⟩ before source after heq
    rcases List.eq_nil_or_concat after with rfl | ⟨after, last, rfl⟩
    · obtain ⟨rfl, hentry⟩ := List.append_inj' heq rfl
      obtain rfl : entry = (.source, source) := List.singleton_injective hentry
      exact hlast rfl
    · refine hvisited before source after ?_
      have hsplit : visited ++ [entry] = (before ++ (.source, source) :: after) ++ [last] := by
        rw [heq]
        simp
      exact (List.append_inj' hsplit rfl).1

/-- The walk over the visits stays good exactly when every source is resolved at its turn. -/
theorem good_foldl_iff {sqlSchema : SqlSchema} {visited : List (Role × Token)} :
    (visited.foldl (visit k) .init).Good k sqlSchema ↔ AllResolved k sqlSchema visited := by
  induction visited using List.reverseRecOn with
  | nil =>
    have hnone : AllResolved k sqlSchema [] := fun before source after h => by simp at h
    simpa [Walk.Good, Walk.init] using hnone
  | append_singleton visited entry ih =>
    obtain ⟨role, token⟩ := entry
    have hknown : Resolved k sqlSchema (visited.foldl (visit k) .init).cteNames token ↔
        Resolved k sqlSchema (registered k visited) token :=
      ⟨fun h => h.congr k fun _ => (mem_cteNames_foldl k).1,
        fun h => h.congr k fun _ => (mem_cteNames_foldl k).2⟩
    rw [List.foldl_append, List.foldl_cons, List.foldl_nil, good_visit, ih, hknown,
      allResolved_append_singleton]

/-! ### The verdict -/

theorem forbiddenCallIn_eq_none {tokens : List (TokenType × Text × Text)} :
    forbiddenCallIn k tokens = none ↔ ∀ before token next after,
      tokens = before ++ token :: next :: after → next.2.1 = ['('] →
        ∀ name, functionNameCandidate token = some name → isForbiddenFunction k name = false := by
  induction tokens with
  | nil => simp [forbiddenCallIn]
  | cons token rest ih =>
    -- the calls of the list are the one at its head and those of the rest
    have hcons : (∀ before token' next after, token :: rest = before ++ token' :: next :: after →
          next.2.1 = ['('] → ∀ name, functionNameCandidate token' = some name →
            isForbiddenFunction k name = false) ↔
        (∀ next after, rest = next :: after → next.2.1 = ['('] →
          ∀ name, functionNameCandidate token = some name → isForbiddenFunction k name = false) ∧
        ∀ before token' next after, rest = before ++ token' :: next :: after → next.2.1 = ['('] →
          ∀ name, functionNameCandidate token' = some name →
            isForbiddenFunction k name = false := by
      constructor
      · intro h
        refine ⟨?_, ?_⟩
        · rintro next after rfl
          exact h [] token next after rfl
        · rintro before token' next after rfl
          exact h (token :: before) token' next after rfl
      · rintro ⟨hhead, htail⟩ before token' next after heq
        cases before with
        | nil =>
          obtain ⟨rfl, hrest⟩ := List.cons.inj heq
          exact hhead next after hrest
        | cons first before =>
          obtain ⟨-, hrest⟩ := List.cons.inj heq
          exact htail before token' next after hrest
    rw [hcons, ← ih, forbiddenCallIn]
    cases hname : functionNameCandidate token with
    | none => simp
    | some name =>
      cases rest with
      | nil => simp
      | cons next after =>
        by_cases hforbidden : isForbiddenFunction k name = true ∧ next.2.1 = ['(']
        · simp [hforbidden.1, hforbidden.2]
        · have hhead : next.2.1 = ['('] → isForbiddenFunction k name = false := by
            intro hopen
            exact Bool.eq_false_iff.2 fun h => hforbidden ⟨h, hopen⟩
          simp only [List.head?_cons, Option.map_some, Option.some.injEq, if_neg hforbidden]
          constructor
          · intro hrest
            refine ⟨?_, hrest⟩
            rintro _ _ ⟨⟩ hopen _ rfl
            exact hhead hopen
          · exact fun h => h.2

/-- A statement that the guard takes for a query. -/
structure ReadOnly (sql : Text) (statement : Statement) : Prop where
  keywords : ∀ leaf ∈ Token.flattenAll statement.tokens,
    leaf.1 = .keyword ∨ leaf.1 = .ddl ∨ leaf.1 = .dml →
      k.upper leaf.2.2 ∉ sqlWriteKeywords.map String.toList
  calls : ∀ before token next after,
    (Token.flattenAll statement.tokens).filter (·.1 ≠ .whitespace) =
        before ++ token :: next :: after → next.2.1 = ['('] →
      ∀ name, functionNameCandidate token = some name → isForbiddenFunction k name = false
  shape : isReadOnlyShape k sql statement = true

theorem writeKeyword_eq_none {statement : Statement} :
    writeKeyword k statement = none ↔ ∀ leaf ∈ Token.flattenAll statement.tokens,
      leaf.1 = .keyword ∨ leaf.1 = .ddl ∨ leaf.1 = .dml →
        k.upper leaf.2.2 ∉ sqlWriteKeywords.map String.toList := by
  rw [writeKeyword, List.find?_eq_none]
  constructor
  · intro h leaf hleaf htype hword
    refine h (k.upper leaf.2.2) (List.mem_map.2 ⟨leaf, ?_, rfl⟩) (List.contains_iff_mem.2 hword)
    exact List.mem_filter.2 ⟨hleaf, decide_eq_true htype⟩
  · intro h word hword hcontains
    obtain ⟨leaf, hfilter, rfl⟩ := List.mem_map.1 hword
    obtain ⟨hleaf, htype⟩ := List.mem_filter.1 hfilter
    exact h leaf hleaf (of_decide_eq_true htype) (List.contains_iff_mem.1 hcontains)

theorem checkStatement_allowed {sqlSchema : SqlSchema} {sql : Text} {statement : Statement} :
    (checkStatement k sqlSchema sql statement).allowed = true ↔
      ReadOnly k sql statement ∧ (walkStatement k statement).Good k sqlSchema := by
  have hblock : ∀ code detail, (GuardResult.block code detail).allowed = true ↔ False :=
    fun _ _ => by simp [GuardResult.block]
  have hreadOnly : ReadOnly k sql statement ↔ writeKeyword k statement = none ∧
      findForbiddenFunctionCall k statement = none ∧ isReadOnlyShape k sql statement = true := by
    rw [writeKeyword_eq_none, findForbiddenFunctionCall, forbiddenCallIn_eq_none]
    exact ⟨fun h => ⟨h.keywords, h.calls, h.shape⟩, fun h => ⟨h.1, h.2.1, h.2.2⟩⟩
  rw [hreadOnly, checkStatement]
  cases writeKeyword k statement with
  | some word => simp [hblock]
  | none =>
    cases findForbiddenFunctionCall k statement with
    | some function => simp [hblock]
    | none =>
      cases hshape : isReadOnlyShape k sql statement with
      | false => simp [hblock]
      | true =>
        dsimp only
        cases hunresolved : (walkStatement k statement).unresolved with
        | true => simp [hblock, Walk.Good, hunresolved]
        | false =>
          rw [if_neg (by simp), if_neg (by simp)]
          split_ifs with hunknown
          · rw [hblock, false_iff]
            rintro ⟨-, -, htables⟩
            refine hunknown (List.filter_eq_nil_iff.2 fun table htable => ?_)
            simpa using htables table htable
          · refine iff_of_true rfl ⟨⟨rfl, rfl, rfl⟩, hunresolved, fun table htable => ?_⟩
            have hnone := List.filter_eq_nil_iff.1 (not_not.1 hunknown) table htable
            simpa using hnone

/-- **The guard allows exactly one read-only statement whose sources are resolved at their turn.** -/
theorem allowed_iff {parse : Text → List Statement} {sqlSchema : SqlSchema} {sql : Text} :
    (makeSqlGuard k parse sqlSchema sql).allowed = true ↔
      ∃ statement, (parse sql).filter hasText = [statement] ∧ ReadOnly k sql statement ∧
        ∀ before source after, visits k statement = before ++ (.source, source) :: after →
          Resolved k sqlSchema (registered k before) source := by
  have hstatement : ∀ statement, (checkStatement k sqlSchema sql statement).allowed = true ↔
      ReadOnly k sql statement ∧ AllResolved k sqlSchema (visits k statement) := by
    intro statement
    rw [checkStatement_allowed, walkStatement_eq_foldl, good_foldl_iff]
  rw [makeSqlGuard]
  split
  · rename_i statement hparse
    rw [hstatement]
    constructor
    · rintro ⟨hread, hresolved⟩
      exact ⟨statement, hparse, hread, hresolved⟩
    · rintro ⟨statement', hparse', hread, hresolved⟩
      obtain rfl : statement = statement' := List.singleton_injective (hparse.symm.trans hparse')
      exact ⟨hread, hresolved⟩
  · rename_i hmany
    refine iff_of_false (by simp [GuardResult.block]) ?_
    rintro ⟨statement, hparse, -⟩
    exact hmany statement hparse

end Guards.Sql
