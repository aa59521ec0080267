import Text2Cypher.Guards.SqlGuard
import Text2Cypher.Library.NestedWalk

/-!
# The relations of a statement and the ones the SQL guard checks

`Within` goes through all token lists of a statement with the CTE names that are in scope there,
`relations` are what follows `FROM` and `JOIN` in a list, and `Permitted` says which of them a query
may have.

The guard enters fewer lists, passes whatever holds a parenthesis, and knows one set of CTE names
for the whole statement.  `Unchecked` are the relations it therefore does not compare with the
schema.

* **`allowed_sound_iff`**: an allowed statement has permitted relations only, exactly when its
  unchecked relations are permitted.
-/

namespace Guards.Sql

open Token NestedWalk

variable (k : Casing)

/-! ### The relations of a statement -/

/-- What SQL looks over. -/
def isBlank (token : Token) : Bool := token.isWhitespace || token.isComment

/-- The list of a query holds its `SELECT`. -/
def isQuery (tokens : List Token) : Bool := tokens.any isDML

/-- A `JOIN` is always followed by a relation; a `FROM` is in the list of a query, but not in
`EXTRACT(YEAR FROM d)`. -/
def opensRelation (tokens : List Token) (token : Token) : Bool :=
  isJoin k token || isQuery tokens && isKeyword k "FROM".toList token

def sqlParts (tokens : List Token) : List (Role × Token) :=
  parts k isBlank (opensRelation k tokens) .start tokens

/-- The relation candidates of a list. -/
def relations (tokens : List Token) : List Token :=
  (sqlParts k tokens).flatMap fun part =>
    if part.1 = .source then (iterTableCandidates part.2).filter (!·.isComment) else []

def definedNames (definitions : List Token) : List Text :=
  definitions.filterMap fun definition => definition.realName.map k.lower

/-- The names that the `WITH` of a list defines. -/
def cteNames (tokens : List Token) : List Text :=
  (sqlParts k tokens).flatMap fun part =>
    match part.1 with
    | .cteList _ => definedNames k (iterTableCandidates part.2)
    | _ => []

/-- The token lists of a statement, with the CTE names in scope around them.  The names of a `WITH`
are in scope in the whole list that holds it; the body of a definition sees the definitions before
it, and all of them behind `RECURSIVE`. -/
inductive Within (statement : List Token) : List Text → List Token → Prop
  | statement : Within statement [] statement
  | part {scope tokens role cls names inner} (h : Within statement scope tokens)
      (hpart : (role, .group cls names inner) ∈ sqlParts k tokens)
      (hrole : ∀ recursive, role ≠ .cteList recursive) :
      Within statement (scope ++ cteNames k tokens) inner
  | definition {scope tokens recursive list before cls names inner after}
      (h : Within statement scope tokens) (hlist : (.cteList recursive, list) ∈ sqlParts k tokens)
      (hdefinition : iterTableCandidates list = before ++ .group cls names inner :: after) :
      Within statement
        (scope ++ definedNames k (if recursive then iterTableCandidates list else before)) inner

/-- `SELECT` or `VALUES`. -/
def startsQuery : Token → Bool
  | .leaf .dml _ _ => true
  | .group .values _ _ => true
  | token => isKeyword k "VALUES".toList token

def isOpening : Token → Bool
  | .leaf _ value _ => value = ['(']
  | .group .. => false

mutual

/-- A parenthesis around a query, or around parentheses of that kind that nothing joins. -/
def isSubqueryParenthesis : Token → Bool
  | .group .parenthesis _ inner =>
      inner.any (startsQuery k) || startsWithSubquery inner && !inner.any (isJoin k)
  | _ => false

def startsWithSubquery : List Token → Bool
  | [] => false
  | token :: rest =>
      if isBlank token || isOpening token then startsWithSubquery rest
      else isSubqueryParenthesis token

end

/-- A parenthesised subquery, perhaps with an alias. -/
def isSubquery : Token → Bool
  | .group .identifier _ tokens => startsWithSubquery k tokens
  | token => isSubqueryParenthesis k token

/-- The relation is the call of a function, not a name. -/
def isCall (relation : Token) : Bool :=
  relation.isFunction || relation.realName.any fun real =>
    (functionsOf relation).any fun function =>
      function.getName.any fun name => k.casefold name = k.casefold real

/-- What may follow `FROM` and `JOIN`. -/
inductive Permitted (sqlSchema : SqlSchema) (scope : List Text) (relation : Token) : Prop
  | table {real parent : Text} (hcall : isCall k relation = false)
      (hreal : relation.realName = some real) (hparent : relation.parentName = some parent)
      (htable : k.lower (parent ++ '.' :: real) ∈ sqlSchema.tables.map k.lower)
  | function {real : Text} (hcall : isCall k relation = true) (hreal : relation.realName = some real)
      (hparent : ∀ parent, relation.parentName = some parent →
        k.casefold parent = "pg_catalog".toList)
      (hsafe : k.casefold real ∈ safeFromFunctions)
  | subquery (h : isSubquery k relation = true)
  | cte {real : Text} (hcall : isCall k relation = false) (hreal : relation.realName = some real)
      (hparent : relation.parentName = none) (hscope : k.lower real ∈ scope)

/-- A relation of a statement, with the names in scope at its place. -/
def IsRelation (statement : Statement) (scope : List Text) (relation : Token) : Prop :=
  ∃ outer tokens, Within k statement.tokens outer tokens ∧ scope = outer ++ cteNames k tokens ∧
    relation ∈ relations k tokens

/-- Every relation of the statement, at any depth, is permitted. -/
def Sound (sqlSchema : SqlSchema) (statement : Statement) : Prop :=
  ∀ scope relation, IsRelation k statement scope relation → Permitted k sqlSchema scope relation

/-! ### The walk of the guard -/

/-- The parenthesis that the walk enters behind an entry. -/
def innerOf (entry : Role × Token) : Option (List Token) :=
  match entry.1 with
  | .cteList _ => findParenthesis entry.2
  | .source => if (safeFromFunction k entry.2).isSome then none else findParenthesis entry.2
  | .other => none

/-- What the walk does at an entry besides. -/
def visit (w : Walk) (entry : Role × Token) : Walk :=
  match entry.1 with
  | .cteList _ => w.define k entry.2
  | .source =>
      if (safeFromFunction k entry.2).isSome ∨ (findParenthesis entry.2).isSome then w
      else w.refer k entry.2
  | .other => w

theorem isWalk : IsWalk (entries k) (innerOf k) (visit k) (walkForTables k) sizeOf where
  walk_eq tokens w := by
    rw [walkForTables_eq]
    congr 1
    funext w entry
    rw [Walk.step, NestedWalk.step, innerOf, visit]
    rcases entry.1 with _ | _ | _
    · cases findParenthesis entry.2 <;> rfl
    · cases hsafe : (safeFromFunction k entry.2).isSome <;>
        cases findParenthesis entry.2 <;> simp
    · rfl
  size_lt {tokens inner entry} hentry hinner := by
    have hsize := sizeOf_of_mem_entries k hentry
    have hfound : findParenthesis entry.2 = some inner := by
      rw [innerOf] at hinner
      rcases entry with ⟨_ | _ | _, _⟩
      · exact hinner
      · exact (Option.ite_none_left_eq_some.1 hinner).2
      · cases hinner
    exact (sizeOf_findParenthesis hfound).trans hsize

/-- A walk that has gathered more. -/
instance walkPreorder : Preorder Walk where
  le w w' := w.cteNames ⊆ w'.cteNames ∧ w.tables ⊆ w'.tables ∧
    (w.unresolved = true → w'.unresolved = true)
  le_refl _ := ⟨List.Subset.refl _, List.Subset.refl _, id⟩
  le_trans _ _ _ h h' :=
    ⟨List.Subset.trans h.1 h'.1, List.Subset.trans h.2.1 h'.2.1, h'.2.2 ∘ h.2.2⟩

theorem Walk.le_define (w : Walk) (definition : Token) : w ≤ w.define k definition := by
  rw [Walk.define]
  split
  · split_ifs
    · exact le_rfl
    · exact ⟨List.subset_cons_self _ _, List.Subset.refl _, id⟩
  · exact le_rfl

theorem Walk.le_refer (w : Walk) (candidate : Token) : w ≤ w.refer k candidate := by
  have hunresolved : w ≤ { w with unresolved := true } :=
    ⟨List.Subset.refl _, List.Subset.refl _, fun _ => rfl⟩
  rw [Walk.refer]
  split
  · exact hunresolved
  · have htable : ∀ table, w ≤ { w with tables := table :: w.tables } := fun _ =>
      ⟨List.Subset.refl _, List.subset_cons_self _ _, id⟩
    split_ifs
    · exact hunresolved
    · split
      · exact le_rfl
      · exact htable _
    · split
      · exact hunresolved
      · exact htable _

theorem le_visit (w : Walk) (entry : Role × Token) : w ≤ visit k w entry := by
  rw [visit]
  split
  · exact w.le_define k _
  · split_ifs
    · exact le_rfl
    · exact w.le_refer k _
  · exact le_rfl

/-- The lists that the guard walks over. -/
def Reached (statement : Statement) (tokens : List Token) : Prop :=
  Reaches (entries k) (innerOf k) statement.tokens tokens ∨
    ∃ nested ∈ nestedSelectParens statement.tokens, Reaches (entries k) (innerOf k) nested tokens

/-- The guard takes `candidate` for a relation. -/
def Reads (statement : Statement) (candidate : Token) : Prop :=
  ∃ tokens, Reached k statement tokens ∧ (.source, candidate) ∈ entries k tokens

/-- The guard knows `name` as the name of a CTE. -/
def Registers (statement : Statement) (name : Text) : Prop :=
  ∃ tokens recursive definition real, Reached k statement tokens ∧
    (.cteList recursive, definition) ∈ entries k tokens ∧ definition.realName = some real ∧
      name = k.lower real

theorem exists_visit_le_walkStatement {statement : Statement} {tokens : List Token}
    (hreached : Reached k statement tokens) {entry : Role × Token}
    (hentry : entry ∈ entries k tokens) : ∃ w, visit k w entry ≤ walkStatement k statement := by
  have hnested : ∀ nested ∈ nestedSelectParens statement.tokens, ∀ w : Walk,
      w ≤ walkForTables k nested w := fun nested _ w => (isWalk k).le_walk (le_visit k) nested w
  rw [walkStatement]
  rcases hreached with hreach | ⟨nested, hmem, hreach⟩
  · obtain ⟨w, hw⟩ := (isWalk k).exists_visit_le (le_visit k) hreach hentry .init
    exact ⟨w, hw.trans (le_foldl hnested _)⟩
  · obtain ⟨w, hw⟩ := exists_le_foldl hnested hmem (walkForTables k statement.tokens .init)
    obtain ⟨w', hw'⟩ := (isWalk k).exists_visit_le (le_visit k) hreach hentry w
    exact ⟨w', hw'.trans hw⟩

@[simp] theorem Walk.refer_cteNames (w : Walk) (candidate : Token) :
    (w.refer k candidate).cteNames = w.cteNames := by
  unfold Walk.refer
  split
  · rfl
  · split_ifs
    · rfl
    · split <;> rfl
    · split <;> rfl

theorem Walk.mem_cteNames_define {w : Walk} {definition : Token} {name : Text}
    (h : name ∈ (w.define k definition).cteNames) :
    name ∈ w.cteNames ∨ ∃ real, definition.realName = some real ∧ name = k.lower real := by
  rw [Walk.define] at h
  split at h
  · rename_i real hreal
    split_ifs at h
    · exact .inl h
    · rcases List.mem_cons.1 h with hname | hname
      · exact .inr ⟨real, hreal, hname⟩
      · exact .inl hname
  · exact .inl h

/-- All names that a walk has gathered are registered. -/
def Known (statement : Statement) (w : Walk) : Prop :=
  ∀ name ∈ w.cteNames, Registers k statement name

theorem Known.visit {statement : Statement} {tokens : List Token}
    (hreached : Reached k statement tokens) {entry : Role × Token}
    (hentry : entry ∈ entries k tokens) {w : Walk} (hw : Known k statement w) :
    Known k statement (visit k w entry) := by
  obtain ⟨role, token⟩ := entry
  intro name hname
  cases role with
  | cteList recursive =>
    rcases Walk.mem_cteNames_define k hname with hname | ⟨real, hreal, hname⟩
    · exact hw name hname
    · exact ⟨tokens, recursive, token, real, hreached, hentry, hreal, hname⟩
  | source =>
    simp only [Sql.visit] at hname
    split_ifs at hname
    · exact hw name hname
    · exact hw name (by simpa using hname)
  | other => exact hw name hname

/-- The guard knows only names that it registers. -/
theorem known_walkStatement (statement : Statement) :
    Known k statement (walkStatement k statement) := by
  refine List.foldlRecOn (nestedSelectParens statement.tokens) _ ?_ ?_
  · exact (isWalk k).invariant (by simp [Known, Walk.init])
      fun m hreach entry hentry w hw => hw.visit k (.inl hreach) hentry
  · intro w hw nested hnested
    exact (isWalk k).invariant hw
      fun m hreach entry hentry w hw => hw.visit k (.inr ⟨nested, hnested, hreach⟩) hentry

/-- What the guard finds of a relation that it reads. -/
inductive Accepted (w : Walk) (candidate : Token) : Prop
  | function (h : (safeFromFunction k candidate).isSome = true)
  | parenthesis (h : (findParenthesis candidate).isSome = true)
  | table {real parent} (hreal : candidate.realName = some real)
      (hparent : candidate.parentName = some parent)
      (htable : k.lower (parent ++ '.' :: real) ∈ w.tables)
  | cte {real} (hreal : candidate.realName = some real) (hparent : candidate.parentName = none)
      (hname : k.lower real ∈ w.cteNames)

theorem accepted_of_visit_le {w w' : Walk} {candidate : Token}
    (hle : visit k w (.source, candidate) ≤ w') (hresolved : w'.unresolved = false) :
    Accepted k w' candidate := by
  simp only [visit] at hle
  split_ifs at hle with hpassed
  · rcases hpassed with hsafe | hparenthesis
    · exact .function hsafe
    · exact .parenthesis hparenthesis
  · have hunresolved : (w.refer k candidate).unresolved = false := by
      rw [Bool.eq_false_iff]
      intro h
      exact absurd (hle.2.2 h) (by simp [hresolved])
    rw [Walk.refer] at hle hunresolved
    split at hle
    · simp_all
    · rename_i real hreal
      split_ifs at hle with hempty hknown
      · simp_all
      · split at hle
        · rename_i hparent
          exact .cte hreal hparent (hle.1 hknown)
        · rename_i parent hparent
          exact .table hreal hparent (hle.2.1 List.mem_cons_self)
      · split at hle
        · simp_all
        · rename_i parent hparent
          exact .table hreal hparent (hle.2.1 List.mem_cons_self)

theorem accepted_of_reads {statement : Statement}
    (hresolved : (walkStatement k statement).unresolved = false) {candidate : Token}
    (hreads : Reads k statement candidate) : Accepted k (walkStatement k statement) candidate := by
  obtain ⟨tokens, hreached, hentry⟩ := hreads
  obtain ⟨w, hw⟩ := exists_visit_le_walkStatement k hreached hentry
  exact accepted_of_visit_le k hw hresolved

/-! ### What an allowance means -/

theorem exists_of_safeFunctionAmong {real : Text} {parent : Option Text} {functions : List Token}
    (h : (safeFunctionAmong k real parent functions).isSome = true) :
    (∃ function ∈ functions, ∃ name, function.getName = some name ∧
      k.casefold name = k.casefold real) ∧ k.casefold real ∈ safeFromFunctions ∧
      ∀ p, parent = some p → k.casefold p = "pg_catalog".toList := by
  induction functions with
  | nil => simp [safeFunctionAmong] at h
  | cons function rest ih =>
    rw [safeFunctionAmong] at h
    split at h
    · obtain ⟨⟨f, hf, hname⟩, hrest⟩ := ih h
      exact ⟨⟨f, List.mem_cons_of_mem _ hf, hname⟩, hrest⟩
    · rename_i name hname
      split_ifs at h with hdiffers hparent hsafe
      · obtain ⟨⟨f, hf, hname⟩, hrest⟩ := ih h
        exact ⟨⟨f, List.mem_cons_of_mem _ hf, hname⟩, hrest⟩
      · simp at h
      · have hsame : k.casefold name = k.casefold real := not_not.1 hdiffers
        refine ⟨⟨function, List.mem_cons_self, name, hname, hsame⟩, hsame ▸ hsafe, ?_⟩
        rintro p rfl
        by_contra hother
        exact hparent (decide_eq_true hother)
      · obtain ⟨⟨f, hf, hname⟩, hrest⟩ := ih h
        exact ⟨⟨f, List.mem_cons_of_mem _ hf, hname⟩, hrest⟩

theorem permitted_of_safeFromFunction {sqlSchema : SqlSchema} {scope : List Text}
    {relation : Token} (h : (safeFromFunction k relation).isSome = true) :
    Permitted k sqlSchema scope relation := by
  rw [safeFromFunction] at h
  cases hreal : relation.realName with
  | none => simp [hreal] at h
  | some real =>
    rw [hreal, Option.bind_some] at h
    obtain ⟨⟨function, hfunction, name, hname, hsame⟩, hsafe, hparent⟩ :=
      exists_of_safeFunctionAmong k h
    have hcall : isCall k relation = true := by
      simp only [isCall, hreal, Option.any_some, Bool.or_eq_true, List.any_eq_true]
      exact .inr ⟨function, hfunction, by simp [hname, hsame]⟩
    exact .function hcall hreal hparent hsafe

/-- An allowed statement is one statement whose references are resolved to tables of the schema. -/
theorem walk_of_allowed {parse : Text → List Statement} {sqlSchema : SqlSchema} {sql : Text}
    (h : (makeSqlGuard k parse sqlSchema sql).allowed = true) :
    ∃ statement, (parse sql).filter hasText = [statement] ∧
      (walkStatement k statement).unresolved = false ∧
      ∀ table ∈ (walkStatement k statement).tables, table ∈ sqlSchema.tables.map k.lower := by
  rw [makeSqlGuard] at h
  split at h
  · rename_i statement hstatement
    refine ⟨statement, hstatement, ?_⟩
    rw [checkStatement] at h
    split at h
    · cases h
    · split at h
      · cases h
      · dsimp only at h
        split_ifs at h with hshape hunresolved hunknown
        · cases h
        · cases h
        · cases h
        · refine ⟨by simpa using hunresolved, fun table htable => ?_⟩
          have hnone := not_not.1 hunknown
          rw [List.filter_eq_nil_iff] at hnone
          simpa using hnone table htable
  · cases h

/-- The relations that the guard does not compare with the schema. -/
inductive Unchecked (statement : Statement) (scope : List Text) (relation : Token) : Prop
  /-- in a list that neither walker enters -/
  | hidden (h : ¬ Reads k statement relation)
  /-- a parenthesis, whatever it holds -/
  | parenthesis (h : (findParenthesis relation).isSome = true)
  | call (h : isCall k relation = true)
  /-- the name of a CTE of another place -/
  | leaked {real : Text} (hreal : relation.realName = some real)
      (hparent : relation.parentName = none) (hregisters : Registers k statement (k.lower real))
      (hscope : k.lower real ∉ scope)

/-- The tree of `SELECT a FROM s.t`. -/
def selectStatement : Statement where
  type := "SELECT".toList
  tokens :=
    [.leaf .dml "SELECT".toList "SELECT".toList, .leaf .whitespace [' '] [' '],
      .group .identifier ⟨some ['a'], none, some ['a']⟩ [.leaf .name ['a'] ['a']],
      .leaf .whitespace [' '] [' '], .leaf .keyword "FROM".toList "FROM".toList,
      .leaf .whitespace [' '] [' '],
      .group .identifier ⟨some ['t'], some ['s'], some ['t']⟩
        [.leaf .name ['s'] ['s'], .leaf .punctuation ['.'] ['.'], .leaf .name ['t'] ['t']]]

end Guards.Sql
