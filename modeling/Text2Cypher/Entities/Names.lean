import Mathlib.Data.List.Sort
import Text2Cypher.Library.Grouping
import Text2Cypher.Library.DecimalText

/-!
# Names in a question

How the resolver of entities finds names in the text of a question: the candidates for names in
Latin letters, the aliases of entity types, and the spans of a name in the question, as it is
written and under two looser comparisons.

The normal form NFC, case folding and `str.isdigit` come from the Unicode database of the
interpreter; a `UnicodeData` is any such database.
-/

namespace Entities

open Grouping Python

/-- What the code takes from `unicodedata`; no text becomes empty, so that the first and the last
character of a folded name can be read. -/
structure UnicodeData where
  nfc : Text → Text
  casefold : Char → Text
  isDigit : Char → Bool
  nfc_ne_nil : ∀ s, s ≠ [] → nfc s ≠ []
  casefold_ne_nil : ∀ c, casefold c ≠ []

/-- Unicode data that knows ASCII only. -/
def asciiData : UnicodeData where
  nfc := id
  casefold c := [c.toLower]
  isDigit := Char.isDigit
  nfc_ne_nil _ h := h
  casefold_ne_nil _ := List.cons_ne_nil _ _

/-- A type of entities that can be looked up by name. -/
structure NamedEntityType where
  entityType : String
  table : String
  idColumn : String
  nameColumn : String
  idField : String
  nameField : String
  aliases : List Text
  deriving DecidableEq, Repr

/-- A half-open range of positions. -/
abbrev Span := ℕ × ℕ

/-! ### Texts -/

/-- `" ".join(s.split())`. -/
def squeeze (s : Text) : Text :=
  [' '].intercalate ((s.splitOnP isSpace).filter (· ≠ []))

/-- `re.sub(r"\s*,\s*", ",", s)`; the blanks that may stand before a comma are held back. -/
def tightenCommas : (held : Text) → (afterComma : Bool) → Text → Text
  | held, _, [] => held
  | held, afterComma, c :: s =>
      if isSpace c then tightenCommas (if afterComma then [] else held ++ [c]) afterComma s
      else if c = ',' then ',' :: tightenCommas [] true s
      else held ++ c :: tightenCommas [] false s

/-- The positions at which `s.find(target, …)` finds the target. -/
def occurrences (target s : Text) : List ℕ :=
  (List.range (s.length + 1)).filter fun i => target.isPrefixOf (s.drop i)

def isAsciiAlnum (c : Char) : Bool := decide (c.toNat < 128) && c.isAlphanum

/-- `_is_ascii_word_character`. -/
def isAsciiWordCharacter (c : Char) : Bool := isAsciiAlnum c || c == '_'

/-- The same for a position that may lie outside of the text. -/
def isAsciiWordAt (s : Text) (i : ℕ) : Bool := s[i]?.any isAsciiWordCharacter

section

variable (u : UnicodeData)

/-- `str.casefold`. -/
def casefold (s : Text) : Text := s.flatMap u.casefold

/-- `_normalized_label`. -/
def normalizedLabel (value : Text) : Text := squeeze (casefold u (u.nfc value))

/-- `_normalized_name_comparison`. -/
def normalizedNameComparison (removeCommas : Bool) (value : Text) : Text :=
  let normalized := casefold u (u.nfc value)
  squeeze (if removeCommas then normalized.map fun c => if c = ',' then ' ' else c
    else tightenCommas [] false normalized)

/-! ### Candidates -/

/-- The runs that `_ASCII_NAME_CANDIDATE` matches; `run` is the one that has begun. -/
def nameRuns : (run : Option Text) → Text → List Text
  | none, [] => []
  | some run, [] => [run]
  | none, c :: s => nameRuns (if isAsciiAlnum c then some [c] else none) s
  | some run, c :: s =>
      if isAsciiAlnum c || c ∈ " \t,.'&()+/_-".toList then nameRuns (some (run ++ [c])) s
      else run :: nameRuns none s

/-- `str.rstrip(".,;:!?")`. -/
def rstripPunctuation (s : Text) : Text :=
  (s.reverse.dropWhile (· ∈ ".,;:!?".toList)).reverse

/-- `_literal_name_candidates`. -/
def literalNameCandidates (query : Text) : List Text :=
  (nameRuns none query).foldl (fun candidates run =>
    let value := strip run
    if value.any Char.isAlpha then
      appendNew candidates ([value, rstripPunctuation value].filter (· ≠ []))
    else candidates) []

/-! ### Aliases -/

/-- The syllables of Hangul. -/
def isHangul (c : Char) : Bool := '가' ≤ c ∧ c ≤ '힣'

/-- `_is_exact_type_alias`. -/
def isExactTypeAlias (typeAliases : List Text) (name : Text) : Bool :=
  let normalized := normalizedLabel u name
  if normalized ∈ typeAliases then true
  else if normalized = [] ∨ normalized.any (fun c => !(isSpace c || isHangul c)) then false
  else normalized.filter (· ≠ ' ') ∈ typeAliases.map (List.filter (· ≠ ' '))

/-- The first alias that a name starts or ends with is cut off. -/
def stripAliases (normalized : Text) : List Text → Text
  | [] => normalized
  | typeAlias :: rest =>
      let folded := casefold u normalized
      let aliasFolded := casefold u typeAlias
      if (aliasFolded ++ [' ']).isPrefixOf folded then strip (normalized.drop typeAlias.length)
      else if (' ' :: aliasFolded).isSuffixOf folded then
        -- a slice up to `-0` is empty
        if typeAlias = [] then []
        else strip (normalized.take (normalized.length - typeAlias.length))
      else stripAliases normalized rest

/-- `_strip_edge_type_alias`. -/
def stripEdgeTypeAlias (name : Text) (config : NamedEntityType) : Text :=
  stripAliases u (strip name)
    ((config.aliases ++ [config.entityType.toList]).insertionSort fun a b => b.length ≤ a.length)

/-- `str.isdigit`. -/
def isDigits (name : Text) : Bool := !name.isEmpty && name.all u.isDigit

/-! ### Spans -/

/-- `_casefold_with_spans`: the characters with the positions that they come from. -/
def casefoldWithSpans (value : Text) : List (Char × Span) :=
  value.zipIdx.flatMap fun c => (u.casefold c.1).map fun folded => (folded, (c.2, c.2 + 1))

/-- `_whole_character_match`. -/
def wholeCharacterMatch (spans : List Span) (first last : ℕ) : Bool :=
  (first == 0 || spans[first - 1]? != spans[first]?) &&
    (last == spans.length || spans[last - 1]? != spans[last]?)

/-- The span of the positions `first` to `last - 1`. -/
def spanOf (spans : List Span) (first last : ℕ) : Span :=
  ((spans[first]?.map Prod.fst).getD 0, (spans[last - 1]?.map Prod.snd).getD 0)

/-- `_literal_name_spans`. -/
def literalNameSpans (query name : Text) : List Span :=
  if name = [] then [] else
    let folded := casefoldWithSpans u (u.nfc query)
    let foldedQuery := folded.map Prod.fst
    let positions := folded.map Prod.snd
    let foldedName := casefold u (u.nfc name)
    (occurrences foldedName foldedQuery).filterMap fun first =>
      let last := first + foldedName.length
      let startsInsideWord := decide (0 < first) && isAsciiWordAt foldedName 0 &&
        isAsciiWordAt foldedQuery (first - 1)
      let endsInsideWord := isAsciiWordAt foldedName (foldedName.length - 1) &&
        isAsciiWordAt foldedQuery last
      if !startsInsideWord && !endsInsideWord && wholeCharacterMatch positions first last then
        some (spanOf positions first last)
      else none

/-- One character of the question more in the normalised question, which is kept reversed. -/
def normalizeStep (removeCommas : Bool) (acc : List (Char × Span)) (c : Char × Span) :
    List (Char × Span) :=
  if isSpace c.1 || (removeCommas && c.1 == ',') then
    match acc with
    | [] => []
    | (last, span) :: rest =>
        if !removeCommas && last == ',' then acc
        else if last = ' ' then (' ', (span.1, c.2.2)) :: rest
        else (' ', c.2) :: acc
  else if c.1 = ',' then
    match acc with
    | (' ', _) :: rest => c :: rest
    | _ => c :: acc
  else c :: acc

/-- The normalised question, with the positions that its characters come from. -/
def normalizeQuery (removeCommas : Bool) (query : Text) : List (Char × Span) :=
  let acc := (casefoldWithSpans u query).foldl (normalizeStep removeCommas) []
  match acc with
  | (' ', _) :: rest => rest.reverse
  | _ => acc.reverse

/-- `_normalized_name_spans`. -/
def normalizedNameSpans (removeCommas : Bool) (query name : Text) : List Span :=
  let normalizedQuery := u.nfc query
  let normalizedName := u.nfc name
  let target := normalizedNameComparison u removeCommas normalizedName
  if target = [] then [] else
    let comparison := normalizeQuery u removeCommas normalizedQuery
    let positions := comparison.map Prod.snd
    (occurrences target (comparison.map Prod.fst)).filterMap fun first =>
      let last := first + target.length
      if wholeCharacterMatch positions first last then
        let span := spanOf positions first last
        let startsInsideWord := decide (0 < span.1) && isAsciiWordAt normalizedName 0 &&
          isAsciiWordAt normalizedQuery (span.1 - 1)
        let endsInsideWord := isAsciiWordAt normalizedName (normalizedName.length - 1) &&
          isAsciiWordAt normalizedQuery span.2
        if !startsInsideWord && !endsInsideWord then some span else none
      else none

/-- Where a lookup occurs in the question: as it is written, or else up to blanks and the blanks
around commas, or else up to commas as well. -/
def lookupSpans (query name : Text) : List Span :=
  match literalNameSpans u query name with
  | [] =>
      match normalizedNameSpans u false query name with
      | [] => normalizedNameSpans u true query name
      | spans => spans
  | spans => spans

end

end Entities
