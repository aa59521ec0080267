import Mathlib.Data.List.Lex
import Mathlib.Order.Compare
import Text2Cypher.Library.Checks
import Text2Cypher.Library.DecimalFormat
import Text2Cypher.Library.Dict
import Text2Cypher.Library.FieldOrder

/-!
# Normal form of results

A result is compared with its gold by the hash of its normal form: the required fields of every row
under their contract names, their values in a few types, and the rows sorted by the ordering of the
contract.

Case folding and the word characters come from the Unicode database of the interpreter.
-/

namespace Normalization

open Checks

/-! ### Values -/

/-- A value of a result, as far as `_normalize_value` tells values apart. -/
inductive Raw
  | null
  | bool (b : Bool)
  | int (n : ℤ)
  | str (s : Text)
  /-- a `Decimal`, or a `float` as the number that its `str` denotes -/
  | number (x : Number)
  /-- a date, or another value that prints itself in ISO format -/
  | iso (text : Text)
  | list (items : List Raw)
  /-- the keys are written as `str` -/
  | dict (fields : List (Text × Raw))
  | other (typeName : String)

/-- A normalised value; the fields of a map stand in the order of their keys, which `==` of two maps
and the JSON text do not see. -/
inductive Norm
  | null
  | bool (b : Bool)
  | int (n : ℤ)
  | str (s : Text)
  | list (items : List Norm)
  | map (fields : List (Text × Norm))

inductive ResultContractError
  /-- "숫자를 정규화할 수 없습니다: …" -/
  | badNumber (x : Number)
  /-- "지원하지 않는 결과 타입입니다: …" -/
  | unsupportedType (typeName : String)
  /-- "필수 결과 필드 …가 없습니다." -/
  | missingField (field : Text)
  /-- "alias 필드 값이 서로 다릅니다: …" -/
  | differentAliases (names : List Text)
  /-- "지원하지 않는 ordering 표현입니다: …" -/
  | badOrdering (expression : Text)

/-- The default context of the `decimal` module. -/
def decimalContext : Decimal.Context where
  precision := 28
  emax := 999999
  emin := -999999
  precision_pos := Decimal.default_precision_pos
  emin_le := Decimal.default_emin_le
  emax_ge := Decimal.default_emax_ge

/-- A number with six places. -/
def normalizeNumber (x : Number) : Except ResultContractError Text :=
  match x with
  | .finite value =>
    match Decimal.quantize decimalContext value (-6) with
    | .ok rounded => .ok (Decimal.fixedText rounded)
    | .error _ => .error (.badNumber x)
  | .infinite _ => .error (.badNumber x)
  | .nan => .ok "NaN".toList

/-- The fields of a map: a key that occurs again gets the later value. -/
def mapOf (fields : List (Text × Norm)) : Norm :=
  .map ((Dict.ofEntries fields).entries.insertionSort fun a b => a.1 ≤ b.1)

mutual

/-- `_normalize_value`. -/
def normalizeValue : Raw → Except ResultContractError Norm
  | .null => .ok .null
  | .bool b => .ok (.bool b)
  | .int n => .ok (.int n)
  | .str s => .ok (.str s)
  | .number x => (normalizeNumber x).map .str
  | .iso text => .ok (.str text)
  | .list items => (normalizeItems items).map .list
  | .dict fields => (normalizeFields fields).map mapOf
  | .other typeName => .error (.unsupportedType typeName)

def normalizeItems : List Raw → Except ResultContractError (List Norm)
  | [] => .ok []
  | item :: items => do
    let item ← normalizeValue item
    let items ← normalizeItems items
    return item :: items

def normalizeFields : List (Text × Raw) → Except ResultContractError (List (Text × Norm))
  | [] => .ok []
  | (key, item) :: fields => do
    let item ← normalizeValue item
    let fields ← normalizeFields fields
    return (key, item) :: fields

end

mutual

/-- `==`, for which `True` is `1`. -/
def same : Norm → Norm → Bool
  | .null, .null => true
  | .bool a, .bool b => a == b
  | .bool a, .int n | .int n, .bool a => n == a.toInt
  | .int m, .int n => m == n
  | .str s, .str t => s == t
  | .list as, .list bs => sameItems as bs
  | .map as, .map bs => sameFields as bs
  | _, _ => false

def sameItems : List Norm → List Norm → Bool
  | [], [] => true
  | a :: as, b :: bs => same a b && sameItems as bs
  | _, _ => false

def sameFields : List (Text × Norm) → List (Text × Norm) → Bool
  | [], [] => true
  | (f, a) :: as, (g, b) :: bs => f == g && same a b && sameFields as bs
  | _, _ => false

end

/-! ### JSON texts -/

/-- A character in a JSON string, with `ensure_ascii=False`. -/
def escapeChar (c : Char) : Text :=
  if c = '"' then "\\\"".toList
  else if c = '\\' then "\\\\".toList
  else if c = '\n' then "\\n".toList
  else if c = '\r' then "\\r".toList
  else if c = '\t' then "\\t".toList
  else if c.toNat = 0x08 then "\\b".toList
  else if c.toNat = 0x0c then "\\f".toList
  else if c.toNat < 0x20 then
    "\\u00".toList ++ [Nat.digitChar (c.toNat / 16), Nat.digitChar (c.toNat % 16)]
  else [c]

def quoted (s : Text) : Text := '"' :: s.flatMap escapeChar ++ ['"']

mutual

/-- `json.dumps(value, ensure_ascii=False, sort_keys=True)` with the two separators. -/
def dumps (itemSeparator keySeparator : Text) : Norm → Text
  | .null => "null".toList
  | .bool true => "true".toList
  | .bool false => "false".toList
  | .int n => (toString n).toList
  | .str s => quoted s
  | .list items => '[' :: dumpsItems itemSeparator keySeparator items ++ [']']
  | .map fields => '\x7b' :: dumpsFields itemSeparator keySeparator fields ++ ['\x7d']

def dumpsItems (itemSeparator keySeparator : Text) : List Norm → Text
  | [] => []
  | [item] => dumps itemSeparator keySeparator item
  | item :: items =>
    dumps itemSeparator keySeparator item ++ itemSeparator ++
      dumpsItems itemSeparator keySeparator items

def dumpsFields (itemSeparator keySeparator : Text) : List (Text × Norm) → Text
  | [] => []
  | [(key, item)] => quoted key ++ keySeparator ++ dumps itemSeparator keySeparator item
  | (key, item) :: fields =>
    quoted key ++ keySeparator ++ dumps itemSeparator keySeparator item ++ itemSeparator ++
      dumpsFields itemSeparator keySeparator fields

end

/-! ### Keys of the order -/

/-- What `_comparable` makes of a value: tuples with the tags `0`, `1` and `2`. -/
inductive Key
  | number (q : ℚ)
  | list (items : List Key)
  | text (s : Text)

/-- `_NUMBER.fullmatch` and `Decimal(value)`: no sign but a minus. -/
def numberOf? (s : Text) : Option ℚ :=
  if s.head? = some '+' then none else Decimal.fixedValue? s

mutual

/-- `_comparable`. -/
def comparable : Norm → Key
  | .int n => .number n
  | .str s =>
    match numberOf? s with
    | some q => .number q
    | none => .text (quoted s)
  | .list items => .list (comparableItems items)
  | .null => .text (dumps ", ".toList ": ".toList .null)
  | .bool b => .text (dumps ", ".toList ": ".toList (.bool b))
  | .map fields => .text (dumps ", ".toList ": ".toList (.map fields))

def comparableItems : List Norm → List Key
  | [] => []
  | item :: items => comparable item :: comparableItems items

end

mutual

/-- The comparison of two tuples: by the tags, then by what they hold. -/
def Key.compare : Key → Key → Ordering
  | .number a, .number b => cmp a b
  | .number _, .list _ | .number _, .text _ | .list _, .text _ => .lt
  | .list _, .number _ | .text _, .number _ | .text _, .list _ => .gt
  | .list as, .list bs => Key.compareItems as bs
  | .text a, .text b => if a < b then .lt else if b < a then .gt else .eq

/-- Item by item; the tuple that ends first is less. -/
def Key.compareItems : List Key → List Key → Ordering
  | [], [] => .eq
  | [], _ :: _ => .lt
  | _ :: _, [] => .gt
  | a :: as, b :: bs =>
    match Key.compare a b with
    | .eq => Key.compareItems as bs
    | .lt => .lt
    | .gt => .gt

end

/-! ### Rows -/

abbrev Row := Dict Text Norm

/-- `row.get(field)`, with `None` for a field that is missing. -/
def fieldOf (row : Row) (field : Text) : Option Norm :=
  match row.get? field with
  | some .null | none => none
  | some value => some value

/-- The local `compare` of `_sort_rows`. -/
def compareRows : List (Text × Bool) → Row → Row → ℤ
  | [], _, _ => 0
  | (field, descending) :: rest, left, right =>
    match fieldOf left field, fieldOf right field with
    | none, none => compareRows rest left right
    | none, some _ => 1
    | some _, none => -1
    | some leftValue, some rightValue =>
      match Key.compare (comparable leftValue) (comparable rightValue) with
      | .eq => compareRows rest left right
      | .lt => if descending then 1 else -1
      | .gt => if descending then -1 else 1

/-- A letter that `[A-Za-z]` matches, ignoring case. -/
def isLetter (c : Char) : Bool :=
  (decide (c.toNat < 128) && c.isAlpha) || c = 'İ' || c = 'ı' || c = 'ſ' || c.toNat = 0x212a

/-- `_ORDERING.fullmatch(expression.strip())`: the field, and whether it is descending. -/
def parseExpression (expression : Text) : Except ResultContractError (Text × Bool) :=
  let stripped := Python.strip expression
  let isName (c : Char) : Bool := isLetter c || c = '_' || (decide (c.toNat < 128) && c.isDigit)
  let field := stripped.takeWhile isName
  let rest := stripped.dropWhile isName
  let direction := rest.dropWhile Python.isSpace
  if field.head?.any (fun c => isLetter c || c = '_') ∧ rest.head?.any Python.isSpace then
    if Python.matchesKeyword "ASC".toList direction then .ok (field, false)
    else if Python.matchesKeyword "DESC".toList direction then .ok (field, true)
    else .error (.badOrdering expression)
  else .error (.badOrdering expression)

def parseOrdering (ordering : List Text) : Except ResultContractError (List (Text × Bool)) :=
  each parseExpression ordering

/-- `_sort_rows`. -/
def sortRows (rows : List Row) (ordering : List Text) : Except ResultContractError (List Row) := do
  let parsed ← parseOrdering ordering
  return FieldOrder.sortBy (compareRows parsed) rows

section

variable (w : WordClass) (casefold : Char → Text)

/-- The local `canonical_name`. -/
def canonicalName (value : Text) : Text :=
  ((value.filter w.isWord).filter (· ≠ '_')).flatMap casefold

/-- `_field_value`. -/
def fieldValue (row : Dict Text Raw) (field : Text) (aliases : List Text)
    (allowSingleColumnFallback strictRequiredOutput : Bool) : Except ResultContractError Norm :=
  if strictRequiredOutput then
    match row.get? field with
    | some value => normalizeValue value
    | none => .error (.missingField field)
  else
    let accepted := (field :: aliases).map (canonicalName w casefold)
    let found := row.entries.filter fun entry => accepted.contains (canonicalName w casefold entry.1)
    match found with
    | [] =>
      match allowSingleColumnFallback, row.entries with
      | true, [entry] => normalizeValue entry.2
      | _, _ => .error (.missingField field)
    | first :: rest => do
      let value ← normalizeValue first.2
      let others ← each normalizeValue (rest.map Prod.snd)
      require (∀ other ∈ others, same other value = true)
        (.differentAliases (found.map Prod.fst))
      return value

variable (requiredOutputs : List Text) (aliases : Text → List Text) (strictRequiredOutputs : Bool)

/-- One row of `normalize_rows`. -/
def normalizeRow (row : Dict Text Raw) : Except ResultContractError Row := do
  let fields ← each (fun field => do
    let value ← fieldValue w casefold row field (aliases field)
      (!strictRequiredOutputs && requiredOutputs.length == 1) strictRequiredOutputs
    return (field, value)) requiredOutputs
  return Dict.ofEntries fields

/-- **`normalize_rows`.** -/
def normalizeRows (ordering : List Text) (rows : List (Dict Text Raw)) :
    Except ResultContractError (List Row) := do
  let normalized ← each (normalizeRow w casefold requiredOutputs aliases strictRequiredOutputs) rows
  sortRows normalized ordering

end

/-- The payload of `normalized_sha256`: the rows as JSON, with the keys in order. -/
def payload (rows : List Row) : Text :=
  dumps ",".toList ":".toList (.list (rows.map fun row => mapOf row.entries))

/-- `normalized_sha256`, with the hash of a text. -/
def normalizedSha256 (sha256 : Text → String) (rows : List Row) : String := sha256 (payload rows)

end Normalization
