/-!
# Query failures

What the pipeline may tell a user about a failed query: a fixed code and texts, never the exception
or the query behind it.
-/

inductive ToolName
  | sql
  | graph
  deriving DecidableEq, Repr

inductive FailureKind
  | userCorrectable
  | infrastructure
  | internal
  deriving DecidableEq, Repr

inductive FailureStage
  | entityResolution
  | routing
  | planning
  | validation
  | execution
  | result
  | dependency
  deriving DecidableEq, Repr

/-- `QueryFailure`, with the defaults of `make_query_failure`. -/
structure QueryFailure where
  code : String
  stage : FailureStage
  category : String
  kind : FailureKind
  retryable : Bool
  userSafeReason : String
  suggestedAction : String
  failedTool : Option ToolName := none
  dependentFailure : Bool := false
  deriving DecidableEq, Repr
