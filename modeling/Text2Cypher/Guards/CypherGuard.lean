import Mathlib.Data.List.Sort
import Text2Cypher.Guards.Shared

/-!
# The Cypher guard

`make_cypher_guard` blocks a generated query that contains a write keyword, whose colons it cannot
interpret, or that names a label or relationship type outside the graph schema.

The label scan of the source is one loop with a loop inside for every construct it skips; here the
loops are the modes of `Scan`, and `Scan.step` is what the scan does with one character.  The text
already read is kept, reversed, because the meaning of an opening brace depends on it.
-/

namespace Guards

open Reading WholeWords

/-- The names that a query may use.  The guard reads no more of the schema. -/
structure GraphSchema where
  nodes : List Text
  relationships : List Text

def GraphSchema.allowedNames (g : GraphSchema) : List Text := g.nodes ++ g.relationships

/-- A word is one of the write keywords, in any case. -/
def isWriteKeyword (word : Text) : Bool :=
  cypherWriteKeywords.any fun keyword => Python.matchesKeyword keyword.toList word

/-- `_FORBIDDEN_PATTERN.search`: the keywords consist of word characters, so a keyword between two
word boundaries is a whole word. -/
def forbiddenSearch (W : WordClass) (masked : Text) : Option Text :=
  (wholeWords W.isWord masked).find? isWriteKeyword

/-! ### The label scan -/

/-- The blanks a label expression may contain for the scan. -/
def isPlainBlank (c : Char) : Bool := c ∈ [' ', '\t', '\r', '\n']

/-- The loops of `_extract_label_and_type_references`. -/
inductive ScanMode
  | code
  | line
  | blockOpen
  | block
  | blockClose
  | str (quote : Char)
  | strEscape (quote : Char)
  | tick
  /-- behind `:`, `|` or `&`: a name has to follow -/
  | label
  | labelTick (acc : Text)
  | labelWord (acc : Text)
  /-- behind a name: `|` or `&` may follow -/
  | afterName
  deriving DecidableEq

/-- The state of the label scan. -/
structure Scan where
  mode : ScanMode
  /-- for every open brace, whether colons directly inside are map keys -/
  suppress : List Bool
  names : List Text
  unresolved : Bool
  /-- the text read so far, last character first -/
  before : Text

def Scan.init : Scan := ⟨.code, [], [], false, []⟩

/-- `keyword` stands, in any case, at the front of a reversed text. -/
def startsWithIgnoreCase : Text → Text → Bool
  | [], _ => true
  | k :: ks, c :: cs => Python.matchesIgnoreCase k c && startsWithIgnoreCase ks cs
  | _ :: _, [] => false

def subqueryKeywords : List String := ["EXISTS", "COUNT", "COLLECT"]

/-- `_SUBQUERY_BLOCK_OPENER.search(cypher[:index].rstrip())`, on the reversed text before the
brace. -/
def subqueryBlockOpener (W : WordClass) (before : Text) : Bool :=
  let stripped := before.dropWhile Python.isSpace
  subqueryKeywords.any fun keyword =>
    startsWithIgnoreCase keyword.toList.reverse stripped &&
      !(stripped.drop keyword.toList.length).head?.any W.isWord

/-- `_MAP_PROJECTION_FIELD_START.match(cypher[index + 1:])`. -/
def mapProjectionFieldStart (W : WordClass) (after : Text) : Bool :=
  match after.dropWhile Python.isSpace with
  | '.' :: c :: _ => W.isWord c
  | stripped =>
      !(stripped.takeWhile W.isWord).isEmpty &&
        ((stripped.dropWhile W.isWord).dropWhile Python.isSpace).head?.any (· ∈ [':', ',', '}'])

/-- Whether the scan takes an opening brace for a map, whose colons are keys. -/
def isMapBrace (W : WordClass) (before after : Text) : Bool :=
  !(subqueryBlockOpener W before && !mapProjectionFieldStart W after)

namespace Scan

def suppressed (s : Scan) : Bool := s.suppress.headD false

/-- The main loop at the character `c`, which `rest` follows. -/
def stepCode (W : WordClass) (s : Scan) (c : Char) (rest : Text) : Scan :=
  let s' := { s with mode := .code, before := c :: s.before }
  if c = '/' ∧ rest.head? = some '/' then { s' with mode := .line }
  else if c = '/' ∧ rest.head? = some '*' then { s' with mode := .blockOpen }
  else if c = '\'' ∨ c = '"' then { s' with mode := .str c }
  else if c = '`' then { s' with mode := .tick }
  else if c = '{' then { s' with suppress := isMapBrace W s.before rest :: s.suppress }
  else if c = '}' then { s' with suppress := s.suppress.tail }
  else if c = ':' ∧ ¬ s.suppressed then { s' with mode := .label }
  else s'

/-- Behind a name: blanks are looked over, `|` and `&` ask for another name, and anything else is
left to the main loop. -/
def stepAfter (W : WordClass) (s : Scan) (c : Char) (rest : Text) : Scan :=
  if isPlainBlank c then { s with mode := .afterName, before := c :: s.before }
  else if c = '|' ∨ c = '&' then { s with mode := .label, before := c :: s.before }
  else s.stepCode W c rest

/-- What the scan does with the character `c`, which `rest` follows. -/
def step (W : WordClass) (s : Scan) (c : Char) (rest : Text) : Scan :=
  let s' := { s with before := c :: s.before }
  match s.mode with
  | .code => s.stepCode W c rest
  | .line => if isBreak c then { s' with mode := .code } else s'
  | .blockOpen => { s' with mode := .block }
  | .block => if c = '*' ∧ rest.head? = some '/' then { s' with mode := .blockClose } else s'
  | .blockClose => { s' with mode := .code }
  | .str quote =>
      if c = quote then { s' with mode := .code }
      else if c = '\\' ∧ rest ≠ [] then { s' with mode := .strEscape quote }
      else s'
  | .strEscape quote => { s' with mode := .str quote }
  | .tick => if c = '`' then { s' with mode := .code } else s'
  | .label =>
      if isPlainBlank c then s'
      else if c = '`' then { s' with mode := .labelTick [] }
      else if W.isWord c then { s' with mode := .labelWord [c] }
      -- `!`, `%`, `(` and everything that is no name end the label loop unresolved
      else { s with unresolved := true }.stepCode W c rest
  | .labelTick acc =>
      if c = '`' then { s' with mode := .afterName, names := acc.reverse :: s.names }
      else { s' with mode := .labelTick (c :: acc) }
  | .labelWord acc =>
      if W.isWord c then { s' with mode := .labelWord (c :: acc) }
      else { s with names := acc.reverse :: s.names }.stepAfter W c rest
  | .afterName => s.stepAfter W c rest

/-- The scan over a whole text. -/
def run (W : WordClass) (s : Scan) : Text → Scan
  | [] => s
  | c :: rest => (s.step W c rest).run W rest

/-- The end of the text: an unclosed backtick or a colon without a name stays unresolved. -/
def finish (s : Scan) : List Text × Bool :=
  match s.mode with
  | .tick | .labelTick _ | .label => (s.names, true)
  | .labelWord acc => (acc.reverse :: s.names, s.unresolved)
  | _ => (s.names, s.unresolved)

end Scan

/-- The names behind colons, and whether some colon could not be interpreted. -/
def extractLabelAndTypeReferences (W : WordClass) (cypher : Text) : List Text × Bool :=
  (Scan.init.run W cypher).finish

/-- The text `', '.join(sorted(names))`. -/
def joinSorted (names : List Text) : String :=
  ", ".intercalate ((names.dedup.insertionSort (· ≤ ·)).map String.ofList)

/-- The guard that `make_cypher_guard` builds. -/
def makeCypherGuard (W : WordClass) (graphSchema : GraphSchema) (cypher : Text) : GuardResult :=
  match forbiddenSearch W (maskQueryText cypher) with
  | some word => .block "WRITE_KEYWORD_DETECTED" ("쓰기 키워드 감지: " ++ String.ofList word)
  | none =>
      let (referencedNames, unresolved) := extractLabelAndTypeReferences W cypher
      if unresolved then
        .block "UNRECOGNIZED_LABEL_SYNTAX"
          "Label/RelationshipType 구문을 해석할 수 없어 차단합니다."
      else
        let unknown := referencedNames.filter (· ∉ graphSchema.allowedNames)
        if unknown ≠ [] then
          .block "UNKNOWN_LABEL_OR_RELATIONSHIP"
            ("스키마에 없는 Label/RelationshipType: " ++ joinSorted unknown)
        else .allow

/-- What a guard's allowance means. -/
theorem allowed_makeCypherGuard_iff (W : WordClass) (graphSchema : GraphSchema) (cypher : Text) :
    (makeCypherGuard W graphSchema cypher).allowed = true ↔
      forbiddenSearch W (maskQueryText cypher) = none ∧
        (extractLabelAndTypeReferences W cypher).2 = false ∧
        ∀ name ∈ (extractLabelAndTypeReferences W cypher).1, name ∈ graphSchema.allowedNames := by
  have hunknown : (extractLabelAndTypeReferences W cypher).1.filter
      (· ∉ graphSchema.allowedNames) = [] ↔
      ∀ name ∈ (extractLabelAndTypeReferences W cypher).1, name ∈ graphSchema.allowedNames := by
    simp [List.filter_eq_nil_iff]
  unfold makeCypherGuard
  cases forbiddenSearch W (maskQueryText cypher) with
  | some word => simp [GuardResult.block]
  | none =>
    rw [← hunknown]
    dsimp only
    split_ifs with h1 h2 <;> simp_all [GuardResult.block, GuardResult.allow]

/-- The guard answers with the write keyword code exactly when the search finds one. -/
theorem reasonCode_makeCypherGuard_iff (W : WordClass) (graphSchema : GraphSchema)
    (cypher : Text) :
    (makeCypherGuard W graphSchema cypher).reasonCode = some "WRITE_KEYWORD_DETECTED" ↔
      ∃ word ∈ wholeWords W.isWord (maskQueryText cypher), isWriteKeyword word = true := by
  rw [← List.find?_isSome, ← forbiddenSearch]
  unfold makeCypherGuard
  cases forbiddenSearch W (maskQueryText cypher) with
  | some word => simp [GuardResult.block]
  | none =>
    simp only [Option.isSome_none, Bool.false_eq_true, iff_false]
    split_ifs <;> simp [GuardResult.block, GuardResult.allow]

end Guards
