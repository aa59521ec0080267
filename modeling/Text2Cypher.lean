import Text2Cypher.Guards.SqlScopes
import Text2Cypher.Answer.NormalForms
import Text2Cypher.Library.ContextRounding
import Text2Cypher.Planning.ShapeCompletion
import Text2Cypher.Planning.ResultShapes
import Text2Cypher.Library.Completion
import Text2Cypher.Entities.WordBoundaries
import Text2Cypher.Entities.ComparedStretches
import Text2Cypher.Entities.Stretches
import Text2Cypher.Entities.ComparisonText
import Text2Cypher.Library.Squeezing
import Text2Cypher.Planning.TopologicalOrder
import Text2Cypher.Library.WaveCycles
import Text2Cypher.Composition.ComposedShortages
import Text2Cypher.Composition.Exceptions
import Text2Cypher.Library.Escaping
import Text2Cypher.Composition.Escapes
import Text2Cypher.Composition.ShortageReference
import Text2Cypher.Composition.CollectedRows
import Text2Cypher.Composition.ReadRows
import Text2Cypher.Composition.DisplayedShortages
import Text2Cypher.Library.DecimalRounding
import Text2Cypher.Answer.ShownNumbers
import Text2Cypher.Answer.PythonFloats
import Text2Cypher.Answer.KeptValues
import Text2Cypher.Answer.TableCells
import Text2Cypher.Answer.SectionBudget
import Text2Cypher.Entities.Selection
import Text2Cypher.Library.Greedy
import Text2Cypher.Execution.FailureChoice
import Text2Cypher.Answer.Histogram
import Text2Cypher.Etl.DumpRestore
import Text2Cypher.Evaluation.RegressionGate
import Text2Cypher.Evaluation.StabilityPolicy
import Text2Cypher.Evaluation.ResultOrder
import Text2Cypher.Evaluation.Normalization
import Text2Cypher.Library.FieldOrder
import Text2Cypher.Evaluation.NameFreeScores
import Text2Cypher.Evaluation.PlanNames
import Text2Cypher.Evaluation.Contracts
import Text2Cypher.Reviews.Serialisable
import Text2Cypher.Reviews.FailureReview
import Text2Cypher.Etl.LoadSpecs
import Text2Cypher.Etl.LosslessLoad
import Text2Cypher.Etl.Validated
import Text2Cypher.Etl.StructuredSpec
import Text2Cypher.Library.PropertyGraph
import Text2Cypher.Etl.SwapRaces
import Text2Cypher.Etl.SyncRun
import Text2Cypher.Etl.SyncLoad
import Text2Cypher.Etl.SyncRuns
import Text2Cypher.Etl.SwapDatabases
import Text2Cypher.Library.Renaming
import Text2Cypher.Evaluation.Soundness
import Text2Cypher.Evaluation.Safety
import Text2Cypher.Entities.RowOrder
import Text2Cypher.Entities.Completeness
import Text2Cypher.Entities.Resolution
import Text2Cypher.Entities.Requests
import Text2Cypher.Entities.Literals
import Text2Cypher.Entities.Names
import Text2Cypher.Library.Grouping
import Text2Cypher.Answer.Truncation
import Text2Cypher.Composition.Limits
import Text2Cypher.Execution.Fetching
import Text2Cypher.Answer.Generation
import Text2Cypher.Answer.Rendering
import Text2Cypher.Answer.Grounding
import Text2Cypher.Answer.Fallback
import Text2Cypher.Answer.Context
import Text2Cypher.Answer.Values
import Text2Cypher.Library.DecimalFormat
import Text2Cypher.Answer.Literals
import Text2Cypher.Execution.Alike
import Text2Cypher.Chat.Response
import Text2Cypher.Chat.Disclosure
import Text2Cypher.Composition.Flaws
import Text2Cypher.Composition.Joined
import Text2Cypher.Library.Join
import Text2Cypher.Composition.Results
import Text2Cypher.Composition.BomShortage
import Text2Cypher.Library.DecimalText
import Text2Cypher.Composition.Values
import Text2Cypher.Etl.PromotionRaces
import Text2Cypher.Library.Interleaving
import Text2Cypher.Etl.RetryPromote
import Text2Cypher.Library.Decimal
import Text2Cypher.Execution.Runs
import Text2Cypher.Execution.Retries
import Text2Cypher.Execution.Replay
import Text2Cypher.Execution.Plan
import Text2Cypher.Execution.Bindings
import Text2Cypher.Planning.Agreement
import Text2Cypher.Planning.Outputs
import Text2Cypher.Planning.Routes
import Text2Cypher.Planning.Validation
import Text2Cypher.Planning.Catalog
import Text2Cypher.Planning.Subquery
import Text2Cypher.Library.Dict
import Text2Cypher.Library.Checks
import Text2Cypher.Library.Waves
import Text2Cypher.Retry.Diagnostics
import Text2Cypher.Retry.Runs
import Text2Cypher.Retry.Attempt
import Text2Cypher.Retry.Agent
import Text2Cypher.Library.Rounds
import Text2Cypher.QueryFailures
import Text2Cypher.Library.WholeWords
import Text2Cypher.Library.Reading
import Text2Cypher.Python
import Text2Cypher.Guards.Shared
import Text2Cypher.Guards.CypherGuard
import Text2Cypher.Guards.SqlVerdict
import Text2Cypher.Guards.WriteKeywords
import Text2Cypher.Guards.CypherSyntax
import Text2Cypher.Guards.CypherLabels
import Text2Cypher.Library.BreadthFirst
import Text2Cypher.Graphs.Values
import Text2Cypher.Graphs.Extraction
import Text2Cypher.Graphs.Building
import Text2Cypher.Graphs.Accounts
import Text2Cypher.Graphs.Circle
import Text2Cypher.Library.Pattern
import Text2Cypher.PythonPatterns
import Text2Cypher.Observability.Privacy
import Text2Cypher.Observability.Redaction
import Text2Cypher.Guards.WriteIntent
import Text2Cypher.Library.StateGraph
import Text2Cypher.Workflow.Nodes
import Text2Cypher.Storage.Migrations
import Text2Cypher.Planning.CatalogBuilt
import Text2Cypher.Workflow.Runs
import Text2Cypher.Access.Recording
