import Text2Cypher.Library.DecimalText
import Text2Cypher.Library.Dict

/-!
# Values in rows

What the composition reads of the values in the rows of a result.  The type of the values is a
parameter: `PyValue` says what kind of value one is, when two are equal, and what `repr` makes of
it.  `repr` can fail: CPython does not print an `int` of more than 4300 digits.
-/

/-- The kinds of values that the code tells apart. -/
inductive Kind (V : Type)
  | none
  | bool (b : Bool)
  | int (n : ℤ)
  /-- a float, as the number that its `str` denotes -/
  | float (x : Number)
  | decimal (x : Number)
  | str (s : String)
  | list (items : List V)
  | dict (fields : List (String × V))
  | other

/-- Python values, with `==` and what is read of them. -/
class PyValue (V : Type) extends BEq V where
  kind : V → Kind V
  /-- `hash(value)` does not raise -/
  hashable : V → Bool
  repr : V → Except PyException String
  /-- `repr` of a text, which never fails -/
  reprText : String → String

/-- Values that the code builds itself: there is one of every kind. -/
class PyBuild (V : Type) [PyValue V] where
  ofKind : Kind V → V
  kind_ofKind : ∀ k, PyValue.kind (ofKind k) = k
  repr_ofText : ∀ s, PyValue.repr (ofKind (.str s)) = .ok (PyValue.reprText V s)

namespace Python

def valueError (message : String) : PyException := ⟨"ValueError", message, none⟩

def keyError (key : String) : PyException := ⟨"KeyError", key, none⟩

/-- The digits that `str` and `repr` print at most. -/
def maxStrDigits : ℕ := 4300

/-- `str` of an `int`. -/
def intText (n : ℤ) : Except PyException String :=
  if maxStrDigits < Decimal.digits n.natAbs then
    .error (valueError ("Exceeds the limit (4300 digits) for integer string conversion; " ++
      "use sys.set_int_max_str_digits() to increase the limit"))
  else .ok (toString n)

/-- `repr` of a list of texts that are there, in some brackets. -/
def bracketed (opening closing : String) (items : List String) : String :=
  opening ++ ", ".intercalate items ++ closing

/-- `repr` of a tuple. -/
def reprTuple {V : Type} [PyValue V] (values : List V) : Except PyException String := do
  let items ← values.mapM PyValue.repr
  match items with
  | [item] => return "(" ++ item ++ ",)"
  | items => return bracketed "(" ")" items

/-- `repr` of a list of integers. -/
def intListText (ns : List ℤ) : Except PyException String := do
  let items ← ns.mapM intText
  return bracketed "[" "]" items

end Python

/-! ### Plain values -/

/-- Values that are no more than their kind. -/
inductive Cell
  | mk (kind : Kind Cell)

namespace Cell

def kind : Cell → Kind Cell
  | .mk k => k

mutual

def same : Cell → Cell → Bool
  | .mk .none, .mk .none => true
  | .mk (.bool a), .mk (.bool b) => a == b
  | .mk (.int a), .mk (.int b) => a == b
  | .mk (.float a), .mk (.float b) => a == b
  | .mk (.decimal a), .mk (.decimal b) => a == b
  | .mk (.str a), .mk (.str b) => a == b
  | .mk (.list as), .mk (.list bs) => sameItems as bs
  | .mk (.dict as), .mk (.dict bs) => sameFields as bs
  | .mk .other, .mk .other => true
  | _, _ => false

def sameItems : List Cell → List Cell → Bool
  | [], [] => true
  | a :: as, b :: bs => same a b && sameItems as bs
  | _, _ => false

def sameFields : List (String × Cell) → List (String × Cell) → Bool
  | [], [] => true
  | (f, a) :: as, (g, b) :: bs => f == g && same a b && sameFields as bs
  | _, _ => false

end

mutual

theorem same_iff : ∀ a b, same a b = true ↔ a = b
  | .mk k, .mk k' => by
    cases k <;> cases k' <;> simp [same, sameItems_iff, sameFields_iff]

theorem sameItems_iff : ∀ as bs, sameItems as bs = true ↔ as = bs
  | [], [] => by simp [sameItems]
  | [], _ :: _ => by simp [sameItems]
  | _ :: _, [] => by simp [sameItems]
  | a :: as, b :: bs => by simp [sameItems, same_iff a b, sameItems_iff as bs]

theorem sameFields_iff : ∀ as bs, sameFields as bs = true ↔ as = bs
  | [], [] => by simp [sameFields]
  | [], _ :: _ => by simp [sameFields]
  | _ :: _, [] => by simp [sameFields]
  | (f, a) :: as, (g, b) :: bs => by simp [sameFields, same_iff a b, sameFields_iff as bs]

end

instance : DecidableEq Cell := fun a b => decidable_of_iff _ (same_iff a b)

/-- `repr` of the values without parts; the others are not printed in any example. -/
def reprCell : Cell → Except PyException String
  | .mk (.int n) => Python.intText n
  | .mk (.str s) => .ok ("'" ++ s ++ "'")
  | .mk (.bool b) => .ok (if b then "True" else "False")
  | .mk .none => .ok "None"
  | _ => .ok "..."

instance : PyValue Cell where
  beq a b := decide (a = b)
  kind := kind
  hashable a := match a.kind with
    | .list _ | .dict _ => false
    | _ => true
  repr := reprCell
  reprText s := "'" ++ s ++ "'"

instance : EquivBEq Cell where
  rfl := decide_eq_true rfl
  symm h := decide_eq_true (of_decide_eq_true h).symm
  trans h h' := decide_eq_true ((of_decide_eq_true h).trans (of_decide_eq_true h'))

instance : PyBuild Cell where
  ofKind := .mk
  kind_ofKind _ := rfl
  repr_ofText _ := rfl

end Cell
