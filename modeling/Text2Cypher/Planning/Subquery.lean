import Mathlib.Data.List.Sort
import Text2Cypher.Library.Checks
import Text2Cypher.Library.Dict
import Text2Cypher.Library.Waves
import Text2Cypher.Python
import Text2Cypher.QueryFailures

/-!
# Subqueries

The plan of a question is a short list of subqueries, one for each database at most, that depend on
each other through input bindings.  This module holds what the validators of routes and of execution
plans share: the values they read, the two records they return, and their common checks.

Python's `repr` only enters error messages; it is a parameter.
-/

namespace Planning

open Checks

/-- A value decoded from JSON, as far as the validators tell values apart. -/
inductive Json
  | null
  | bool (b : Bool)
  /-- a number, by the text that it prints as -/
  | number (text : String)
  | str (s : String)
  | array (items : List Json)
  | object (fields : List (String × Json))

/-- `dict.get`. -/
def Json.get? (fields : List (String × Json)) (name : String) : Option Json :=
  (fields.find? fun field => field.1 = name).map Prod.snd

/-- A raised `ValueError`, or an error that nothing in the planner expects. -/
inductive PlanError
  | valueError (message : String)
  | typeError (message : String)
  | keyError (key : String)

def maxSubqueries : ℕ := 2

/-- `not item.strip()`. -/
def isBlank (s : String) : Bool := s.toList.all Python.isSpace

/-- `_SAFE_IDENTIFIER.fullmatch`. -/
def isSafeIdentifier (s : String) : Bool :=
  match s.toList with
  | [] => false
  | c :: rest => (c.isAlpha || c == '_') && rest.all fun c => c.isAlphanum || c == '_'

/-- The text before the first dot and the text behind it, if there is one. -/
def splitDotFrom : Text → Option (Text × Text)
  | [] => none
  | c :: rest =>
      if c = '.' then some ([], rest)
      else (splitDotFrom rest).map fun parts => (c :: parts.1, parts.2)

/-- `source.split(".", 1)`; `none` where unpacking its result fails. -/
def splitDot (source : String) : Option (String × String) :=
  (splitDotFrom source.toList).map fun parts => (String.ofList parts.1, String.ofList parts.2)

/-- `source.count(".")`. -/
def countDots (source : String) : ℕ := source.toList.count '.'

/-- `SUPPORTED_TOOLS`. -/
def tool? : Json → Option ToolName
  | .str s => if s = "sql" then some .sql else if s = "graph" then some .graph else none
  | _ => none

def toolText : ToolName → String
  | .sql => "sql"
  | .graph => "graph"

structure RouteSubquery where
  id : String
  tool : ToolName
  question : String
  dependsOn : List String
  joinKeys : List String
  inputBindings : Dict String String

structure Subquery where
  id : String
  tool : ToolName
  question : String
  dependsOn : List String
  requiredOutputs : List String
  joinKeys : List String
  inputBindings : Dict String String
  generatorRules : List String

/-- `", ".join(sorted(names))`. -/
def joinSorted (names : List String) : String :=
  ", ".intercalate (names.dedup.insertionSort (· ≤ ·))

section

variable (repr : Json → String)

/-- `subquery {subquery_id!r} …`. -/
def about (subqueryId text : String) : PlanError :=
  .valueError ("subquery " ++ repr (.str subqueryId) ++ " " ++ text)

/-- A string that is not blank. -/
def nonBlank? : Json → Option String
  | .str s => if isBlank s then none else some s
  | _ => none

/-- `_string_list`. -/
def stringList (value : Json) (field subqueryId : String) : Except PlanError (List String) :=
  match value with
  | .array items =>
      match items.mapM nonBlank? with
      | some strings => do
          require strings.Nodup (about repr subqueryId (field ++ " contains duplicates"))
          return strings
      | none => .error (about repr subqueryId (field ++ " must be a string array"))
  | _ => .error (about repr subqueryId (field ++ " must be a string array"))

/-- The shape and the values of one entry of `inputBindings`. -/
def bindingOf (subqueryId : String) (index : ℕ) (rawBinding : Json) :
    Except PlanError (String × String × String) :=
  let invalid (what : String) :=
    about repr subqueryId ("inputBindings[" ++ toString index ++ "] has invalid " ++ what)
  match rawBinding with
  | .object fields =>
      let names := ["target", "sourceSubqueryId", "sourceOutput"]
      if (∀ field ∈ fields, field.1 ∈ names) ∧ ∀ name ∈ names, name ∈ fields.map Prod.fst then
        match Json.get? fields "target", Json.get? fields "sourceSubqueryId",
            Json.get? fields "sourceOutput" with
        | some (.str target), some (.str sourceId), some (.str sourceOutput) =>
            if isSafeIdentifier target ∧ sourceId ≠ "" ∧ isSafeIdentifier sourceOutput then
              .ok (target, sourceId, sourceOutput)
            else .error (invalid "values")
        | _, _, _ => .error (invalid "values")
      else .error (invalid "shape")
  | _ => .error (invalid "shape")

/-- The loop of `_compile_binding_array`. -/
def compileBindings (subqueryId : String) :
    ℕ → Dict String String → List Json → Except PlanError (Dict String String)
  | _, compiled, [] => .ok compiled
  | index, compiled, rawBinding :: rest => do
      let (target, sourceId, sourceOutput) ← bindingOf repr subqueryId index rawBinding
      require (target ∉ compiled.keys)
        (about repr subqueryId ("input binding target " ++ repr (.str target) ++ " is duplicated"))
      compileBindings subqueryId (index + 1) (compiled.set target (sourceId ++ "." ++ sourceOutput))
        rest

/-- `_compile_binding_array`. -/
def compileBindingArray (value : Json) (subqueryId : String) :
    Except PlanError (Dict String String) :=
  match value with
  | .array items => compileBindings repr subqueryId 0 .empty items
  | _ => .error (about repr subqueryId "inputBindings must be an array")

/-! ### Checks on whole plans -/

def cyclicDependency : PlanError := .valueError "subqueries contain a cyclic dependency"

/-- `_topological_order`. -/
def topologicalOrder {α : Type} (id : α → String) (dependsOn : α → List String) (items : List α) :
    Except PlanError (List α) := do
  require (items.map id).Nodup (.valueError "subquery IDs must be unique")
  Waves.order id dependsOn cyclicDependency items

/-- IDs and tools occur once. -/
def checkUnique (ids : List String) (tools : List ToolName) : Except PlanError Unit := do
  require ids.Nodup (.valueError "subquery IDs must be unique")
  require tools.Nodup (.valueError "only one subquery per source is supported")

/-- The join keys of an ordered plan: on both sources or on neither, and the same. -/
def checkJoinKeys : List (List String) → Except PlanError Unit
  | [firstKeys, secondKeys] => do
      require (firstKeys = [] ↔ secondKeys = [])
        (.valueError "hybrid joinKeys must be present on both sources or neither")
      require (firstKeys = [] ∨ firstKeys = secondKeys)
        (.valueError "hybrid joinKeys must have the same ordered aliases")
  | _ => .ok ()

end

end Planning
