import Mathlib.Data.Rat.Defs

/-!
# Values of the browser

What a JSON answer holds in the browser, and the readings of it that the graph builder shares.  The
fields of an object stand in the order of `Object.entries`.
-/

namespace Graphs

/-- The numbers of JavaScript, as far as the builder looks at them. -/
class JsNumber (N : Type) where
  isFinite : N → Bool
  /-- `String(n)` -/
  text : N → String
  /-- a number in the source -/
  literal : ℚ → N

inductive Value (N : Type)
  | undefined
  | null
  | boolean (b : Bool)
  | number (n : N)
  | string (s : String)
  | array (items : List (Value N))
  | object (fields : List (String × Value N))

/-- The fields of an object. -/
abbrev Fields (N : Type) := List (String × Value N)

/-- An `Error` that no code here catches. -/
inductive TypeError
  | notIterable
  deriving DecidableEq

/-- A string or a number, as `isIdentifier` lets it pass. -/
inductive Identifier (N : Type)
  | string (s : String)
  | number (n : N)

variable {N : Type}

/-- `source[field]`. -/
def Fields.get (fields : Fields N) (name : String) : Value N :=
  match fields.find? (·.1 = name) with
  | some entry => entry.2
  | none => .undefined

/-- `{ ...fields, [name]: value }`. -/
def Fields.set (fields : Fields N) (name : String) (value : Value N) : Fields N :=
  if name ∈ fields.map Prod.fst then
    fields.map fun entry => if entry.1 = name then (name, value) else entry
  else fields ++ [(name, value)]

namespace Value

/-- `a ?? b`. -/
def orElse : Value N → Value N → Value N
  | .undefined, other | .null, other => other
  | value, _ => value

/-- `typeof value === 'string' ? value : undefined`. -/
def string? : Value N → Option String
  | .string s => some s
  | _ => none

def isArray : Value N → Bool
  | .array _ => true
  | _ => false

/-- `Array.isArray(value) ? value : []`. -/
def items : Value N → List (Value N)
  | .array items => items
  | _ => []

/-- `value === true`. -/
def isTrue : Value N → Bool
  | .boolean b => b
  | _ => false

/-- `isRecord(value) ? value : undefined`. -/
def record? : Value N → Option (Fields N)
  | .object fields => some fields
  | _ => none

end Value

/-- The characters that `String.prototype.trim` removes. -/
def isBlank (c : Char) : Bool :=
  c.toNat ∈ [0x09, 0x0a, 0x0b, 0x0c, 0x0d, 0x20, 0xa0, 0x1680, 0x2000, 0x2001, 0x2002, 0x2003,
    0x2004, 0x2005, 0x2006, 0x2007, 0x2008, 0x2009, 0x200a, 0x2028, 0x2029, 0x202f, 0x205f, 0x3000,
    0xfeff]

section

variable [JsNumber N]

/-- `String(id)`. -/
def Identifier.text : Identifier N → String
  | .string s => s
  | .number n => JsNumber.text n

def Identifier.value : Identifier N → Value N
  | .string s => .string s
  | .number n => .number n

/-- `isIdentifier`, with what it lets pass. -/
def Value.identifier? : Value N → Option (Identifier N)
  | .string s => some (.string s)
  | .number n => if JsNumber.isFinite n then some (.number n) else none
  | _ => none

def finiteNumber : Value N → Option N
  | .number n => if JsNumber.isFinite n then some n else none
  | _ => none

def firstIdentifier (source : Fields N) (fields : List String) : Option (Identifier N) :=
  fields.findSome? fun field => (source.get field).identifier?

end

def firstText (source : Fields N) (fields : List String) : Option String :=
  fields.findSome? fun field =>
    (source.get field).string?.filter fun s => s.toList.any fun c => !isBlank c

def normalizeLabels (value : Value N) : List String :=
  value.items.filterMap fun label => label.string?.filter (· ≠ "")

end Graphs
