import Mathlib.Data.List.Infix
import Text2Cypher.Planning.Validation

/-!
# Scoring of plans

The evaluation compares the plan that the model has generated with the contract of its case: which
tools it uses, how it splits the question, and what the parts return and bind.  Names of subqueries
are translated first (`idMapping`): a step of the contract is matched by its ID, else by its tool,
if exactly one step of the plan is left for it.

Contracts and generated plans have passed `validate_subqueries`, so they are lists of `Subquery`;
case folding and `\d` come from the Unicode database of the interpreter, `str` and `==` of parameter
values are parameters.
-/

namespace PlanScoring

open Planning

/-! ### Contracts -/

inductive Route
  | sql
  | graph
  | hybrid
  deriving DecidableEq, Repr

structure ExpectedSubquery where
  id : String
  tool : ToolName
  question : String
  dependsOn : List String
  requiredOutputs : List String
  joinKeys : List String
  inputBindings : Dict String String

/-- `planning_shape`. -/
def ExpectedSubquery.planningShape (expected : ExpectedSubquery) : Subquery where
  id := expected.id
  tool := expected.tool
  question := expected.question
  dependsOn := expected.dependsOn
  requiredOutputs := expected.requiredOutputs
  joinKeys := expected.joinKeys
  inputBindings := expected.inputBindings
  generatorRules := []

/-- A contract with what `_load_contract` has checked of it. -/
structure EvaluationContract where
  route : Route
  toolPlan : List ToolName
  subqueries : List ExpectedSubquery
  /-- the transform of the final result, if there is a final result -/
  finalTransform : Option (Option String)
  valid : ValidPlan (subqueries.map ExpectedSubquery.planningShape)
  itemsOk : ∀ expected ∈ subqueries, ItemOk expected.planningShape
  tools : ∀ tool, tool ∈ toolPlan ↔ tool ∈ subqueries.map ExpectedSubquery.tool
  single : route ≠ .hybrid → subqueries.length = 1
  both : route = .hybrid → ∀ tool, tool ∈ subqueries.map ExpectedSubquery.tool

structure EvaluationCase (V : Type) where
  question : String
  parameters : Dict String V

/-- A plan that the validator has accepted, or none. -/
def Generated (plan : List Subquery) : Prop :=
  plan = [] ∨ ValidPlan plan ∧ ∀ item ∈ plan, ItemOk item

/-! ### Questions -/

/-- What the code takes from the Unicode database. -/
structure TextData where
  casefold : Char → Text
  /-- `\d` -/
  isDecimal : Char → Bool

def koreanNumberWords : List (String × List String) :=
  [("1", ["하나", "한개", "한건", "한곳"]), ("2", ["둘", "두개", "두건", "두곳"]),
    ("3", ["셋", "세개", "세건", "세곳"]), ("4", ["넷", "네개", "네건", "네곳"]), ("5", ["다섯"]),
    ("6", ["여섯"]), ("7", ["일곱"]), ("8", ["여덟"]), ("9", ["아홉"]),
    ("10", ["열개", "열건", "열곳"])]

/-- `_KOREAN_NUMBER_WORDS.get(number, ())`. -/
def numberWords (number : Text) : List Text :=
  ((koreanNumberWords.lookup (String.ofList number)).getD []).map String.toList

/-- The characters of `[0-9A-Za-z가-힣]`. -/
def isKept (c : Char) : Bool :=
  (decide (c.toNat < 128) && c.isAlphanum) || (0xac00 ≤ c.toNat && c.toNat ≤ 0xd7a3)

/-- `value[index : index + 2]` for every index but the last. -/
def bigrams (value : Text) : List Text :=
  (List.range (value.length - 1)).map fun index => (value.drop index).take 2

section

variable (t : TextData)

def casefold (value : Text) : Text := value.flatMap t.casefold

/-- The local `normalize` of `_question_matches`. -/
def normalize (value : Text) : Text := (casefold t value).filter isKept

/-- `re.findall(r"\d+", value)`. -/
def numbers (value : Text) : List Text :=
  (value.splitOnP fun c => !t.isDecimal c).filter (· ≠ [])

/-- Some Korean word for the number occurs in the text. -/
def spelledIn (number text : Text) : Bool :=
  (numberWords number).any fun word => decide (word <:+: text)

variable {V : Type} (isBool : V → Bool) (str : V → Text)

def parameterNumbers (parameters : Dict String V) : List Text :=
  (parameters.entries.filter fun entry =>
    !("name".toList.isSuffixOf (casefold t entry.1.toList)) && !isBool entry.2).flatMap
    fun entry => numbers t (str entry.2)

/-- `_question_matches`.  The quotient is compared with `0.02` in floating point; division is
correctly rounded, so this is the comparison of the numbers. -/
def questionMatches (expected actual sourceQuestion : Text) (parameters : Dict String V) : Bool :=
  if isBlank (String.ofList actual) then false
  else
    let expectedText := normalize t expected
    let actualText := normalize t actual
    if expectedText = [] ∨ actualText = [] then false
    else if expectedText = actualText then true
    else
      let source := normalize t sourceQuestion
      let required := (numbers t expectedText).filter fun number =>
        parameterNumbers t isBool str parameters |>.contains number
      -- a number that the question does not mention is not asked for
      let asked := required.filter fun number =>
        (numbers t source).contains number || spelledIn number source
      if asked.any fun number =>
          !(numbers t actualText).contains number && !spelledIn number actualText then false
      else
        let common := ((bigrams expectedText).filter (bigrams actualText).contains).dedup
        let union := (bigrams expectedText ++ bigrams actualText).dedup
        decide (union ≠ []) && decide (union.length ≤ 50 * common.length)

end

/-! ### Steps -/

/-- `actual_by_id.get(…)`: the last item with this ID. -/
def byId? (plan : List Subquery) (id : String) : Option Subquery :=
  plan.reverse.find? (·.id = id)

/-- One round of the matching: the IDs that are mapped so far, and those that they are mapped to. -/
def matchStep (plan : List Subquery) (state : Dict String String × List String)
    (expected : ExpectedSubquery) : Dict String String × List String :=
  match byId? plan expected.id with
  | some _ => (state.1.set expected.id expected.id, state.2 ++ [expected.id])
  | none =>
    match plan.filter fun item => item.tool = expected.tool ∧ item.id ∉ state.2 with
    | [item] => (state.1.set expected.id item.id, state.2 ++ [item.id])
    | _ => state

/-- `idMapping`. -/
def idMapping (contract : EvaluationContract) (plan : List Subquery) : Dict String String :=
  (contract.subqueries.foldl (matchStep plan) (.empty, [])).1

/-- The local `same_string_set`. -/
def sameStringSet (value expected : List String) : Bool :=
  decide value.Nodup && decide (value ⊆ expected) && decide (expected ⊆ value)

structure StructuralChecks where
  tool : Bool
  dependsOn : Bool
  joinKeys : Bool
  question : Bool
  deriving DecidableEq, Repr

def StructuralChecks.pass (checks : StructuralChecks) : Bool :=
  checks.tool && checks.dependsOn && checks.joinKeys && checks.question

/-- The check of a step; without `checks` it is `MISSING_SUBQUERY`. -/
structure StepCheck where
  id : String
  checks : Option StructuralChecks
  deriving DecidableEq, Repr

def StepCheck.pass (step : StepCheck) : Bool :=
  match step.checks with
  | some checks => checks.pass
  | none => false

structure ExecutionComparison where
  routingPass : Bool
  splitPass : Bool
  exactSteps : Bool
  expectedIds : List String
  actualIds : List String
  idMapping : Dict String String
  steps : List StepCheck
  transformPass : Bool

/-- A result transform: its type and its quantity. -/
structure ResultTransform (V : Type) where
  type : String
  productionQty : V

section

variable (t : TextData) {V : Type} [BEq V] (isBool : V → Bool) (str : V → Text)

/-- The check of one step of the contract. -/
def stepCheck (contract : EvaluationContract) (case : EvaluationCase V) (plan : List Subquery)
    (mapping : Dict String String) (expected : ExpectedSubquery) : StepCheck where
  id := expected.id
  checks :=
    ((mapping.get? expected.id).bind (byId? plan)).map fun actual =>
      let translatedDependencies := expected.dependsOn.filterMap mapping.get?
      { tool := actual.tool = expected.tool
        dependsOn := sameStringSet actual.dependsOn (translatedDependencies.filter (· ≠ ""))
        joinKeys :=
          if contract.route = .hybrid then sameStringSet actual.joinKeys expected.joinKeys
          else true
        question := questionMatches t isBool str expected.question.toList actual.question.toList
          case.question.toList case.parameters }

/-- The verdict on the result transform; a quantity that the case does not give is `None`, which no
transform has. -/
def transformPass (contract : EvaluationContract) (case : EvaluationCase V)
    (resultTransform : Option (ResultTransform V)) : Bool :=
  match contract.finalTransform with
  | some (some transform) =>
    match resultTransform, case.parameters.get? "productionQty" with
    | some actual, some productionQty =>
      decide (actual.type = transform) && actual.productionQty == productionQty
    | _, _ => false
  | _ => resultTransform.isNone

/-- **`compare_execution_contract`.** -/
def compareExecutionContract (contract : EvaluationContract) (case : EvaluationCase V)
    (toolPlan : Option (List ToolName)) (plan : List Subquery)
    (resultTransform : Option (ResultTransform V)) : ExecutionComparison :=
  let mapping := idMapping contract plan
  let ids := plan.map Subquery.id
  let exactSteps := decide ids.Nodup && decide (plan.length = contract.subqueries.length)
  let steps := contract.subqueries.map (stepCheck t isBool str contract case plan mapping)
  let transform := transformPass contract case resultTransform
  { routingPass :=
      match toolPlan with
      | some tools => decide tools.Nodup && decide (contract.toolPlan ⊆ tools) &&
          decide (tools ⊆ contract.toolPlan)
      | none => false
    splitPass := exactSteps && steps.all StepCheck.pass && transform
    exactSteps
    expectedIds := contract.subqueries.map ExpectedSubquery.id
    actualIds := ids
    idMapping := mapping
    steps
    transformPass := transform }

end

/-! ### Outputs and bindings -/

structure OutputsCheck where
  expected : List String
  actual : Option (List String)
  missing : List String
  extra : List String
  pass : Bool
  exactPass : Bool
  deriving DecidableEq, Repr

structure BindingsCheck where
  expected : List (String × String)
  actual : Option (List (String × String))
  missing : List (String × String)
  pass : Bool
  deriving DecidableEq, Repr

structure PlanStep where
  id : String
  actualId : Option String
  requiredOutputs : OutputsCheck
  inputBindings : BindingsCheck
  deriving DecidableEq, Repr

structure PlanComparison where
  requiredOutputsPass : Bool
  requiredOutputsExactPass : Bool
  bindingPass : Bool
  exactSteps : Bool
  steps : List PlanStep
  deriving DecidableEq, Repr

def PlanComparison.pass (comparison : PlanComparison) : Bool :=
  comparison.requiredOutputsPass && comparison.bindingPass

/-- `sorted(names)` of a set. -/
def sortedNames (names : List String) : List String := names.dedup.insertionSort (· ≤ ·)

def outputsCheck (expected : ExpectedSubquery) (actual : Option Subquery) : OutputsCheck :=
  let actualOutputs := actual.map Subquery.requiredOutputs
  let outputs := actualOutputs.getD []
  let missing := sortedNames (expected.requiredOutputs.filter (· ∉ outputs))
  let extra := sortedNames (outputs.filter (· ∉ expected.requiredOutputs))
  let pass := actualOutputs.isSome && decide outputs.Nodup && decide (missing = [])
  { expected := sortedNames expected.requiredOutputs
    actual := actualOutputs
    missing
    extra
    pass
    exactPass := pass && decide (extra = []) }

/-- A binding of the contract, with the ID that the plan has for its source; an ID without a match
is written `None`. -/
def translateSource (mapping : Dict String String) (source : String) : String :=
  match splitDot source with
  | some (sourceId, output) => (mapping.get? sourceId).getD "None" ++ "." ++ output
  | none => source

/-- `==` of two dicts. -/
def sameBindings (bindings bindings' : Dict String String) : Bool :=
  decide (bindings.entries ⊆ bindings'.entries) && decide (bindings'.entries ⊆ bindings.entries)

def bindingsCheck (mapping : Dict String String) (expected : ExpectedSubquery)
    (actual : Option Subquery) : BindingsCheck :=
  let expectedBindings := expected.inputBindings.mapValues (translateSource mapping)
  let actualBindings := actual.map Subquery.inputBindings
  { expected := expectedBindings.entries
    actual := actualBindings.map Dict.entries
    missing := expectedBindings.entries.filter fun entry =>
      actualBindings.all fun bindings => decide (bindings.get? entry.1 ≠ some entry.2)
    pass := actualBindings.any (sameBindings · expectedBindings) }

def planStep (plan : List Subquery) (mapping : Dict String String) (expected : ExpectedSubquery) :
    PlanStep :=
  let actualId := mapping.get? expected.id
  let actual := actualId.bind (byId? plan)
  { id := expected.id
    actualId
    requiredOutputs := outputsCheck expected actual
    inputBindings := bindingsCheck mapping expected actual }

/-- **`compare_execution_plan_contract`.** -/
def compareExecutionPlanContract (contract : EvaluationContract) (plan : List Subquery)
    (mapping : Dict String String) : PlanComparison :=
  let exactSteps := decide (plan.length = contract.subqueries.length) &&
    decide ((plan.map Subquery.id).dedup.length = contract.subqueries.length)
  let steps := contract.subqueries.map (planStep plan mapping)
  { requiredOutputsPass := exactSteps && steps.all fun step => step.requiredOutputs.pass
    requiredOutputsExactPass := exactSteps && steps.all fun step => step.requiredOutputs.exactPass
    bindingPass := exactSteps && steps.all fun step => step.inputBindings.pass
    exactSteps
    steps }

end PlanScoring
