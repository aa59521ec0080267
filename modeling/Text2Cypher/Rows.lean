import Text2Cypher.Library.Dict

/-!
# Rows and results

What a database returns, as far as the code looks at it: a list whose elements are normally dicts.
The values in the dicts are of any type.
-/

namespace Query

/-- An element of a result: a dict, or some other value that has no aliases. -/
inductive Row (V : Type)
  | dict (fields : Dict String V)
  | other (v : V)

/-- `isinstance(row, dict) and alias in row`. -/
def Row.hasAlias {V : Type} (row : Row V) (name : String) : Bool :=
  match row with
  | .dict fields => decide (name ∈ fields.keys)
  | .other _ => false

/-- `row[field]`, where the row is a dict. -/
def Row.field? {V : Type} (field : String) : Row V → Option V
  | .dict fields => fields.get? field
  | .other _ => none

theorem Row.hasAlias_eq {V : Type} (row : Row V) (name : String) :
    row.hasAlias name = (row.field? name).isSome := by
  cases row with
  | other v => rfl
  | dict fields =>
    rw [Row.hasAlias, Row.field?, Bool.eq_iff_iff, Dict.get?_isSome_iff, decide_eq_true_eq]

/-- A query result, as far as the agents look at it. -/
inductive Result (V : Type)
  | none
  | list (rows : List (Row V))
  /-- another value that can be iterated, such as a tuple or the keys of a dict -/
  | iterable (rows : List (Row V))
  /-- a value that cannot -/
  | scalar (truthy : Bool)

namespace Result

variable {V : Type}

/-- The truth value that `if not result` tests. -/
def truthy : Result V → Bool
  | .none => false
  | .list rows | .iterable rows => !rows.isEmpty
  | .scalar b => b

/-- What `enumerate(result)` runs over. -/
def rows? : Result V → Option (List (Row V))
  | .list rows | .iterable rows => some rows
  | .none | .scalar _ => Option.none

end Result

end Query
