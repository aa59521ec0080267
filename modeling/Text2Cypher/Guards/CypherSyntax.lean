import Mathlib.Data.List.Infix
import Text2Cypher.Guards.CypherGuard

/-!
# Cypher queries as token lists

The scan of the guard reads characters; the labels of a query are a matter of its syntax.  A lexed
query is a list of `Token`s in which the colons that begin a label expression, and the names that
belong to one, are marked.  `render` is the text of the query, `labelNames` the names that it uses
as node labels or relationship types.  Braces, brackets and parentheses are symbols like others, so
queries may nest maps, comprehensions and subquery blocks as they like.
-/

namespace Guards

/-- What may stand between two tokens. -/
inductive Blank
  | space (c : Char)
  /-- `//` up to the line break, or up to the end of the query -/
  | line (body : Text) (lineBreak : Option Char)
  | block (body : Text)

/-- A character of a string literal. -/
inductive StrChar
  | plain (c : Char)
  | escaped (c : Char)

/-- A name, as it is written. -/
inductive Name
  | plain (word : Text)
  /-- between backticks; `body` is the name itself, its backticks not yet doubled -/
  | quoted (body : Text)

inductive Token
  | blank (b : Blank)
  | str (quote : Char) (body : List StrChar)
  /-- a name, keyword, number or parameter that is no label -/
  | name (n : Name)
  | sym (c : Char)
  /-- a colon that introduces no label, such as the one behind a map key -/
  | colon
  /-- a colon that begins a label expression -/
  | labelColon
  /-- a name in a label expression -/
  | labelName (n : Name)

def Blank.render : Blank → Text
  | .space c => [c]
  | .line body lineBreak => '/' :: '/' :: (body ++ lineBreak.toList)
  | .block body => '/' :: '*' :: (body ++ ['*', '/'])

def StrChar.render : StrChar → Text
  | .plain c => [c]
  | .escaped c => ['\\', c]

/-- A backtick inside a quoted name is doubled. -/
def doubleTick (c : Char) : Text := if c = '`' then ['`', '`'] else [c]

def Name.render : Name → Text
  | .plain word => word
  | .quoted body => '`' :: (body.flatMap doubleTick ++ ['`'])

/-- The name that is meant. -/
def Name.text : Name → Text
  | .plain word => word
  | .quoted body => body

def Token.render : Token → Text
  | .blank b => b.render
  | .str quote body => quote :: (body.flatMap StrChar.render ++ [quote])
  | .name n => n.render
  | .sym c => [c]
  | .colon => [':']
  | .labelColon => [':']
  | .labelName n => n.render

/-- The text of a query. -/
def render (q : List Token) : Text := q.flatMap Token.render

@[simp] theorem render_nil : render [] = [] := rfl

@[simp] theorem render_cons (t : Token) (q : List Token) : render (t :: q) = t.render ++ render q :=
  rfl

/-- The node labels and relationship types that a query uses. -/
def labelNames : List Token → List Text
  | [] => []
  | .labelName n :: q => n.text :: labelNames q
  | _ :: q => labelNames q

/-! ### What a lexer may return -/

/-- The token is not cut short: `after` does not continue a word. -/
def endsWord (W : WordClass) (after : Text) : Bool := !after.head?.any W.isWord

def Name.lexes (W : WordClass) (after : Text) : Name → Bool
  | .plain word => !word.isEmpty && word.all W.isWord && endsWord W after
  | .quoted _ => after.head? != some '`'

def StrChar.lexes (quote : Char) : StrChar → Bool
  | .plain c => c != quote && c != '\\'
  | .escaped _ => true

/-- The symbols: neither word nor blank, nor the beginning of a quoted text or of a comment. -/
def isSymbol (W : WordClass) (c : Char) (after : Text) : Bool :=
  !W.isWord c && !Python.isSpace c && !(c ∈ ['\'', '"', '`', ':']) &&
    !(c == '/' && after.head?.any (· ∈ ['/', '*']))

def Token.lexes (W : WordClass) (after : Text) : Token → Bool
  | .blank (.space c) => Python.isSpace c
  | .blank (.line body lineBreak) =>
      body.all (fun c => !Reading.isBreak c) && lineBreak.all Reading.isBreak &&
        (lineBreak.isSome || after.isEmpty)
  | .blank (.block body) => decide (¬ ['*', '/'] <:+: body)
  | .str quote body => quote ∈ ['\'', '"'] && body.all (StrChar.lexes quote)
  | .name n => n.lexes W after
  | .sym c => isSymbol W c after
  | .colon => true
  | .labelColon => true
  | .labelName n => n.lexes W after

/-- Every token of the query is one that the lexer would have cut there. -/
def wellLexed (W : WordClass) : List Token → Bool
  | [] => true
  | t :: q => t.lexes W (render q) && wellLexed W q

/-! ### What the scan cannot see -/

/-- Where a label expression stands, as far as the scan follows it. -/
inductive Sight
  | none
  /-- a name has to follow -/
  | operand
  /-- a name has been read -/
  | operator
  deriving DecidableEq

/-- What the scan knows before a token: for every open brace whether it is taken for a map, and the
text so far, reversed. -/
structure View where
  sight : Sight
  suppress : List Bool
  before : Text

def View.init : View := ⟨.none, [], []⟩

/-- A name that the scan cuts at its first doubled backtick. -/
def Name.cut : Name → Bool
  | .plain _ => false
  | .quoted body => '`' ∈ body

/-- The scan loses a label expression at a comment or an unusual blank, and at a cut name. -/
def View.sightAfter (v : View) : Token → Sight
  | .blank (.space c) => if isPlainBlank c then v.sight else .none
  | .labelColon => if v.suppress.headD false then .none else .operand
  | .labelName n => if v.sight = .operand ∧ n.cut = false then .operator else .none
  | .sym c => if v.sight = .operator ∧ (c = '|' ∨ c = '&') then .operand else .none
  | _ => .none

/-- What a symbol does to the levels of open braces. -/
def bracesAfter (W : WordClass) (suppress : List Bool) (before : Text) (c : Char) (after : Text) :
    List Bool :=
  if c = '{' then isMapBrace W before after :: suppress
  else if c = '}' then suppress.tail else suppress

def View.step (W : WordClass) (v : View) (t : Token) (after : Text) : View where
  sight := v.sightAfter t
  suppress :=
    match t with
    | .sym c => bracesAfter W v.suppress v.before c after
    | _ => v.suppress
  before := t.render.reverse ++ v.before

/-- The labels in the blind spots of the scan: in a label expression whose colon stands directly
inside a brace taken for a map, behind a comment or an unusual blank inside a label expression, or
written with a doubled backtick. -/
def hiddenLabels (W : WordClass) (v : View) : List Token → List Text
  | [] => []
  | .labelName n :: q =>
      let later := hiddenLabels W (v.step W (.labelName n) (render q)) q
      if v.sight = .operand ∧ n.cut = false then later else n.text :: later
  | t :: q => hiddenLabels W (v.step W t (render q)) q

end Guards
