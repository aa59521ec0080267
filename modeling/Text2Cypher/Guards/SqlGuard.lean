import Mathlib.Data.List.Infix
import Text2Cypher.Guards.CypherGuard
import Text2Cypher.Library.DecimalText

/-!
# The SQL guard

`make_sql_guard` reads the token tree that `sqlparse` makes of a generated query.  It blocks write
keywords, forbidden functions and statements that are no queries; then it collects the tables that
follow `FROM` and `JOIN` and compares them with the schema.

A token tree is taken as the parser gives it: what `get_real_name`, `get_parent_name`, `get_name`
and `get_type` answer stands in the tree.
-/

namespace Guards.Sql

/-- The token types the guard tells apart.  Nothing reads what a comment consists of, so that a
grouped comment is a token of type `comment` too. -/
inductive TokenType
  | keyword | cte | ddl | dml | name | symbol | punctuation | whitespace | comment | other
  deriving DecidableEq

/-- The classes of grouped tokens. -/
inductive GroupClass
  | identifier | identifierList | parenthesis | function | values | other
  deriving DecidableEq

/-- What the naming methods of a group answer. -/
structure Names where
  real : Option Text
  parent : Option Text
  name : Option Text
  deriving DecidableEq

def Names.none : Names := ⟨.none, .none, .none⟩

/-- A token tree. -/
inductive Token
  | leaf (ttype : TokenType) (value normalized : Text)
  | group (cls : GroupClass) (names : Names) (tokens : List Token)

/-- A parsed statement, with the answer of `get_type`. -/
structure Statement where
  type : Text
  tokens : List Token

/-- The names of the tables of the schema.  The guard reads no more of it. -/
structure SqlSchema where
  tables : List Text

/-- `str.lower`, `str.upper` and `str.casefold`. -/
structure Casing where
  lower : Text → Text
  upper : Text → Text
  casefold : Text → Text
  lower_ascii : ∀ s : Text, (∀ c ∈ s, c.toNat < 128) → lower s = s.map Char.toLower
  upper_ascii : ∀ s : Text, (∀ c ∈ s, c.toNat < 128) → upper s = s.map Char.toUpper
  casefold_ascii : ∀ s : Text, (∀ c ∈ s, c.toNat < 128) → casefold s = s.map Char.toLower

/-- The case of ASCII letters. -/
def Casing.asciiOnly : Casing where
  lower := List.map Char.toLower
  upper := List.map Char.toUpper
  casefold := List.map Char.toLower
  lower_ascii _ _ := rfl
  upper_ascii _ _ := rfl
  casefold_ascii _ _ := rfl

def forbiddenFunctionPrefixes : List Text := ["pg_advisory_".toList, "pg_try_advisory_".toList]

def forbiddenFunctions : List Text :=
  ["pg_sleep", "pg_sleep_for", "pg_sleep_until", "pg_read_file", "pg_read_binary_file",
    "pg_ls_dir", "pg_ls_logdir", "pg_ls_waldir", "pg_stat_file", "pg_terminate_backend",
    "pg_cancel_backend", "pg_reload_conf", "pg_rotate_logfile", "lo_import", "lo_export", "dblink",
    "dblink_connect", "dblink_exec"].map String.toList

def safeFromFunctions : List Text := ["unnest".toList]

/-! ### Reading one token -/

namespace Token

def isWhitespace : Token → Bool
  | leaf ttype _ _ => ttype = .whitespace
  | group .. => false

def isComment : Token → Bool
  | leaf ttype _ _ => ttype = .comment
  | group .. => false

/-- `token.match(Punctuation, ',')`. -/
def isComma : Token → Bool
  | leaf ttype value _ => ttype = .punctuation ∧ value = [',']
  | group .. => false

def isDML : Token → Bool
  | leaf ttype _ _ => ttype = .dml
  | group .. => false

def isFunction : Token → Bool
  | group .function _ _ => true
  | _ => false

/-- `_safe_call(token, "get_real_name")`: only identifiers and functions bear a name. -/
def realName : Token → Option Text
  | group .identifier names _ => names.real
  | group .function names _ => names.real
  | _ => none

/-- `_safe_call(token, "get_parent_name")`. -/
def parentName : Token → Option Text
  | leaf .. => none
  | group _ names _ => names.parent

/-- `token.get_name()`. -/
def getName : Token → Option Text
  | leaf .. => none
  | group _ names _ => names.name

/-- The inner tokens of a parenthesis. -/
def parenthesis? : Token → Option (List Token)
  | group .parenthesis _ tokens => some tokens
  | _ => none

mutual

/-- `token.flatten()`: the type, the value and the normal form of every leaf. -/
def flatten : Token → List (TokenType × Text × Text)
  | leaf ttype value normalized => [(ttype, value, normalized)]
  | group _ _ tokens => flattenAll tokens

def flattenAll : List Token → List (TokenType × Text × Text)
  | [] => []
  | token :: rest => token.flatten ++ flattenAll rest

end

end Token

open Token

variable (k : Casing)

/-- A plain keyword token with the given capitals. -/
def isKeyword (word : Text) : Token → Bool
  | .leaf .keyword _ normalized => k.upper normalized = word
  | _ => false

/-- `tok.ttype is Keyword.CTE and tok.normalized.upper() == "WITH"`. -/
def isWith : Token → Bool
  | .leaf .cte _ normalized => k.upper normalized = "WITH".toList
  | _ => false

def isJoin : Token → Bool
  | .leaf .keyword _ normalized => "JOIN".toList <:+: k.upper normalized
  | _ => false

/-- The keywords that a table follows. -/
def opensSource (token : Token) : Bool := isKeyword k "FROM".toList token || isJoin k token

/-! ### The forbidden functions -/

def isForbiddenFunction (name : Text) : Bool :=
  forbiddenFunctions.contains (k.lower name) ||
    forbiddenFunctionPrefixes.any fun start => start <+: k.lower name

/-- `_function_name_candidate`. -/
def functionNameCandidate (token : TokenType × Text × Text) : Option Text :=
  if token.1 = .name then some token.2.1
  else if token.1 = .symbol then
    let raw := token.2.1
    if 2 ≤ raw.length ∧ raw.head? = some '"' ∧ raw.getLast? = some '"' then
      some (raw.tail.dropLast)
    else none
  else none

/-- The loop of `_find_forbidden_function_call`. -/
def forbiddenCallIn : List (TokenType × Text × Text) → Option Text
  | [] => none
  | token :: rest =>
      match functionNameCandidate token with
      | some name =>
          if isForbiddenFunction k name ∧ rest.head?.map (·.2.1) = some ['('] then some name
          else forbiddenCallIn rest
      | none => forbiddenCallIn rest

def findForbiddenFunctionCall (statement : Statement) : Option Text :=
  forbiddenCallIn k ((flattenAll statement.tokens).filter (·.1 ≠ .whitespace))

/-! ### The walk for the tables -/

/-- `_find_parenthesis`: the inner tokens of the first parenthesis. -/
def findParenthesis : Token → Option (List Token)
  | .leaf .. => none
  | .group .parenthesis _ tokens => some tokens
  | .group _ _ tokens => tokens.findSome? parenthesis?

/-- `_iter_table_candidates`. -/
def iterTableCandidates : Token → List Token
  | .group .identifierList _ tokens => tokens.filter fun t => !t.isWhitespace && !t.isComma
  | token => [token]

/-- The functions that `_safe_from_function` considers. -/
def functionsOf : Token → List Token
  | .leaf .. => []
  | .group .function names tokens => [.group .function names tokens]
  | .group _ _ tokens => tokens.filter isFunction

/-- The loop of `_safe_from_function`. -/
def safeFunctionAmong (real : Text) (parent : Option Text) : List Token → Option Text
  | [] => none
  | function :: rest =>
      match function.getName with
      | none => safeFunctionAmong real parent rest
      | some name =>
          if k.casefold name ≠ k.casefold real then safeFunctionAmong real parent rest
          else if parent.any fun p => k.casefold p ≠ "pg_catalog".toList then none
          else if k.casefold name ∈ safeFromFunctions then some name
          else safeFunctionAmong real parent rest

def safeFromFunction (token : Token) : Option Text :=
  token.realName.bind fun real => safeFunctionAmong k real token.parentName (functionsOf token)

/-- Where the loop of `_walk_for_tables` stands. -/
inductive Mode
  | start
  /-- behind `FROM` or `JOIN` -/
  | pending
  /-- behind `WITH` -/
  | withSeen
  /-- behind `WITH RECURSIVE` -/
  | recursiveSeen
  deriving DecidableEq

/-- How a list of tokens uses one of them. -/
inductive Role
  | cteList (recursive : Bool)
  | source
  | other
  deriving DecidableEq

/-- The way of the loop through a list: tokens with `skip` are looked over, and a source follows
a token with `opens`. -/
def parts (skip opens : Token → Bool) : Mode → List Token → List (Role × Token)
  | _, [] => []
  | mode, token :: rest =>
      if skip token then parts skip opens mode rest
      else
        match mode with
        | .withSeen =>
            if isKeyword k "RECURSIVE".toList token then parts skip opens .recursiveSeen rest
            else (.cteList false, token) :: parts skip opens .start rest
        | .recursiveSeen => (.cteList true, token) :: parts skip opens .start rest
        | .start | .pending =>
            if isWith k token then parts skip opens .withSeen rest
            else if opens token then parts skip opens .pending rest
            else
              (if mode = .pending then .source else .other, token) :: parts skip opens .start rest

/-- The definitions and sources of a list that the loop looks at, in its order. -/
def entries (tokens : List Token) : List (Role × Token) :=
  (parts k isWhitespace (opensSource k) .start tokens).flatMap fun part =>
    (iterTableCandidates part.2).map fun candidate => (part.1, candidate)

/-- The sets of `_walk_for_tables`, and whether a reference stayed unresolved. -/
structure Walk where
  cteNames : List Text
  tables : List Text
  unresolved : Bool

def Walk.init : Walk := ⟨[], [], false⟩

/-- A definition of a CTE registers its name. -/
def Walk.define (w : Walk) (definition : Token) : Walk :=
  match definition.realName with
  | some name => if name = [] then w else { w with cteNames := k.lower name :: w.cteNames }
  | none => w

/-- A source without a parenthesis is a name of a table or of a CTE. -/
def Walk.refer (w : Walk) (candidate : Token) : Walk :=
  match candidate.realName with
  | none => { w with unresolved := true }
  | some real =>
      if real = [] then { w with unresolved := true }
      else
        match candidate.parentName with
        | none => if k.lower real ∈ w.cteNames then w else { w with unresolved := true }
        | some parent => { w with tables := k.lower (parent ++ '.' :: real) :: w.tables }

/-- What the loop does with a definition or source, where `walkInner` walks the parenthesis it
finds there. -/
def Walk.step (walkInner : List Token → Walk → Walk) (w : Walk) (entry : Role × Token) : Walk :=
  match entry.1 with
  | .cteList _ =>
      match findParenthesis entry.2 with
      | some inner => walkInner inner (w.define k entry.2)
      | none => w.define k entry.2
  | .source =>
      if (safeFromFunction k entry.2).isSome then w
      else
        match findParenthesis entry.2 with
        | some inner => walkInner inner w
        | none => w.refer k entry.2
  | .other => w

theorem sizeOf_parenthesis? {token : Token} {inner : List Token}
    (h : token.parenthesis? = some inner) : sizeOf inner < sizeOf token := by
  rcases token with _ | ⟨cls, names, tokens⟩
  · cases h
  · cases cls <;> simp_all [parenthesis?]

theorem sizeOf_findParenthesis {token : Token} {inner : List Token}
    (h : findParenthesis token = some inner) : sizeOf inner < sizeOf token := by
  rcases token with _ | ⟨cls, names, tokens⟩
  · cases h
  · by_cases hcls : cls = .parenthesis
    · subst hcls
      cases h
      simp
    · have hfound : tokens.findSome? parenthesis? = some inner := by
        cases cls <;> first | exact h | exact absurd rfl hcls
      obtain ⟨child, hchild, hinner⟩ := List.exists_of_findSome?_eq_some hfound
      have := sizeOf_parenthesis? hinner
      have := List.sizeOf_lt_of_mem hchild
      simp
      omega

theorem mem_of_mem_parts {skip opens : Token → Bool} {part : Role × Token} {tokens : List Token}
    {mode : Mode} (h : part ∈ parts k skip opens mode tokens) : part.2 ∈ tokens := by
  fun_induction parts k skip opens mode tokens with grind

theorem sizeOf_of_mem_iterTableCandidates {token candidate : Token}
    (h : candidate ∈ iterTableCandidates token) : sizeOf candidate ≤ sizeOf token := by
  rcases token with _ | ⟨cls, names, tokens⟩
  · simp_all [iterTableCandidates]
  · by_cases hcls : cls = .identifierList
    · subst hcls
      have := List.sizeOf_lt_of_mem (List.mem_of_mem_filter h)
      simp
      omega
    · have hself : candidate = .group cls names tokens := by
        cases cls <;> first | exact List.mem_singleton.1 h | exact absurd rfl hcls
      rw [hself]

theorem sizeOf_of_mem_entries {entry : Role × Token} {tokens : List Token}
    (h : entry ∈ entries k tokens) : sizeOf entry.2 < sizeOf tokens := by
  obtain ⟨part, hpart, hentry⟩ := List.mem_flatMap.1 h
  obtain ⟨candidate, hcandidate, rfl⟩ := List.mem_map.1 hentry
  have := List.sizeOf_lt_of_mem (mem_of_mem_parts k hpart)
  have := sizeOf_of_mem_iterTableCandidates hcandidate
  simp only
  omega

/-- `_walk_for_tables`. -/
def walkForTables (tokens : List Token) (w : Walk) : Walk :=
  (entries k tokens).attach.foldl (fun w ⟨(role, candidate), _⟩ =>
    match role with
    | .cteList _ =>
        match _h : findParenthesis candidate with
        | some inner => walkForTables inner (w.define k candidate)
        | none => w.define k candidate
    | .source =>
        if (safeFromFunction k candidate).isSome then w
        else
          match _h : findParenthesis candidate with
          | some inner => walkForTables inner w
          | none => w.refer k candidate
    | .other => w) w
termination_by sizeOf tokens
decreasing_by
  all_goals
    have hinner := sizeOf_findParenthesis _h
    have hentry := sizeOf_of_mem_entries k ‹_›
    simp only at hentry
    omega

theorem walkForTables_eq (tokens : List Token) (w : Walk) :
    walkForTables k tokens w = (entries k tokens).foldl (Walk.step k (walkForTables k)) w := by
  rw [walkForTables, ← List.foldl_attach (f := Walk.step k (walkForTables k))]
  congr 1
  funext w entry
  obtain ⟨⟨role, candidate⟩, hentry⟩ := entry
  cases role with
  | cteList recursive =>
    simp only [Walk.step]
    split <;> simp_all
  | source =>
    simp only [Walk.step]
    by_cases hsafe : (safeFromFunction k candidate).isSome = true
    · rw [if_pos hsafe, if_pos hsafe]
    · rw [if_neg hsafe, if_neg hsafe]
      split <;> simp_all
  | other => rfl

/-! ### The guard -/

/-- A parenthesis whose first token is a `SELECT`. -/
def opensSelect (inner : List Token) : Bool :=
  ((inner.filter fun t => !t.isWhitespace).tail).head?.any isDML

mutual

/-- `_iter_nested_select_parens`: the inner tokens of the parentheses found. -/
def iterNestedSelectParens : Token → List (List Token)
  | .leaf .. => []
  | .group _ _ tokens => nestedSelectParens tokens

def nestedSelectParens : List Token → List (List Token)
  | [] => []
  | child :: rest =>
      (child.parenthesis?.toList.filter opensSelect) ++ iterNestedSelectParens child ++
        nestedSelectParens rest

end

/-- The walk over a statement and over the nested queries in it. -/
def walkStatement (statement : Statement) : Walk :=
  (nestedSelectParens statement.tokens).foldl (fun w nested => walkForTables k nested w)
    (walkForTables k statement.tokens .init)

/-- The first write keyword of a statement. -/
def writeKeyword (statement : Statement) : Option Text :=
  (((flattenAll statement.tokens).filter fun t => t.1 = .keyword ∨ t.1 = .ddl ∨ t.1 = .dml).map
    fun t => k.upper t.2.2).find? (sqlWriteKeywords.map String.toList).contains

/-- `str(statement).strip()` is not empty. -/
def hasText (statement : Statement) : Bool :=
  Python.strip ((flattenAll statement.tokens).flatMap (·.2.1)) ≠ []

def isReadOnlyShape (sql : Text) (statement : Statement) : Bool :=
  statement.type = "SELECT".toList ∨
    statement.type = "UNKNOWN".toList ∧ "WITH".toList <+: k.upper (Python.strip sql)

/-- The part of the guard behind the count of the statements. -/
def checkStatement (sqlSchema : SqlSchema) (sql : Text) (statement : Statement) : GuardResult :=
  match writeKeyword k statement with
  | some normalized =>
      .block "WRITE_KEYWORD_DETECTED" ("쓰기 키워드 감지: " ++ String.ofList normalized)
  | none =>
      match findForbiddenFunctionCall k statement with
      | some function =>
          .block "FORBIDDEN_FUNCTION_CALL" ("위험 함수 호출 감지: " ++ String.ofList function)
      | none =>
          if isReadOnlyShape k sql statement = false then
            .block "NOT_READ_ONLY_STATEMENT" ("최상위 statement 타입=" ++ String.ofList statement.type)
          else
            let walk := walkStatement k statement
            if walk.unresolved then
              .block "UNRESOLVED_TABLE_REFERENCE"
                "테이블 참조를 해석할 수 없어(스키마 미기재 등) 차단합니다."
            else
              let allowedTables := sqlSchema.tables.map k.lower
              let unknownTables := walk.tables.filter (· ∉ allowedTables)
              if unknownTables ≠ [] then
                .block "UNKNOWN_TABLE" ("스키마에 없는 테이블 참조: " ++ joinSorted unknownTables)
              else .allow

/-- The guard that `make_sql_guard` builds. -/
def makeSqlGuard (parse : Text → List Statement) (sqlSchema : SqlSchema) (sql : Text) :
    GuardResult :=
  match (parse sql).filter hasText with
  | [statement] => checkStatement k sqlSchema sql statement
  | statements =>
      .block "MULTIPLE_STATEMENTS" ("SQL 문이 " ++ toString statements.length ++ "개 감지됨")

end Guards.Sql
