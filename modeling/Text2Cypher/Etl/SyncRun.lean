import Text2Cypher.Etl.RetryPromote
import Text2Cypher.Etl.StructuredSpec

/-!
# A run of the synchronisation

`run_structured_mvp_sync.main` reads the rows from PostgreSQL, validates them, writes them into a
database of its own, compares what is there with what was written, and only then promotes it.

A run is modelled statement by statement (`Progress`, `advance`), so that runs can be interleaved
and can fail at every statement.  The reads of one validation are one statement here, and so are
those of PostgreSQL: they change nothing.

* `Cluster`: what a run sees of Neo4j: the server, and what the databases hold;
* `Run.queue`: the statements that write, in their order.
-/

namespace Sync

open Structured PropertyGraph

/-- The server as the promotion sees it, and the contents of its databases. -/
structure Cluster where
  server : Promotion.Server
  graphs : String → Graph Value

/-- `CREATE DATABASE … WAIT`. -/
def Cluster.create (c : Cluster) (name : String) : Cluster where
  server := { c.server with
    databases := c.server.databases ++ [name], running := c.server.running ++ [name] }
  graphs := Function.update c.graphs name Graph.empty

def Cluster.write (c : Cluster) (name : String) (g : Graph Value) : Cluster :=
  { c with graphs := Function.update c.graphs name g }

@[simp] theorem Cluster.write_server (c : Cluster) (name : String) (g : Graph Value) :
    (c.write name g).server = c.server := rfl

@[simp] theorem Cluster.write_graphs_self (c : Cluster) (name : String) (g : Graph Value) :
    (c.write name g).graphs name = g := Function.update_self ..

theorem Cluster.write_graphs_of_ne (c : Cluster) {name name' : String} (h : name' ≠ name)
    (g : Graph Value) : (c.write name g).graphs name' = c.graphs name' := Function.update_of_ne h ..

@[simp] theorem Cluster.create_default (c : Cluster) (name : String) :
    (c.create name).server.default = c.server.default := rfl

@[simp] theorem Cluster.create_graphs_self (c : Cluster) (name : String) :
    (c.create name).graphs name = Graph.empty := Function.update_self ..

theorem Cluster.create_graphs_of_ne (c : Cluster) {name name' : String} (h : name' ≠ name) :
    (c.create name).graphs name' = c.graphs name' := Function.update_of_ne h ..

theorem Cluster.mem_create_databases {c : Cluster} {name name' : String} :
    name' ∈ (c.create name).server.databases ↔ name' ∈ c.server.databases ∨ name' = name := by
  simp [Cluster.create]

/-- A statement of the load. -/
inductive Write
  /-- a constraint or an index: it leaves the empty database empty -/
  | schema
  /-- the rows of one batch -/
  | batch (mergeCypher : List Clause) (rows : List Row)

def Write.run (syncRunId : String) (g : Graph Value) : Write → Option (Graph Value)
  | .schema => some g
  | .batch mergeCypher rows => runBatch syncRunId mergeCypher g rows

/-- What a run is started with, the rows that PostgreSQL gives it, and the values that are known of
the source. -/
structure Run where
  timestamp : String
  syncRunId : String
  nodes : Dict String (List Row)
  rels : Dict String (List Row)
  /-- the statements of the constraints file -/
  constraints : ℕ
  /-- `verify_fixture_entities`, `verify_work_order_17747_fixture` and
  `verify_bom_680_to_492_quantity`: what they find missing -/
  verifyFixtures : Graph Value → List String

/-- `generate_database_name`. -/
def generateDatabaseName (timestamp : String) : String := "mvpgraph-" ++ timestamp

def Run.newDb (run : Run) : String := generateDatabaseName run.timestamp

/-- `BATCH_SIZE`. -/
def batchSize : ℕ := 1000

/-- The statements of `load_rows`. -/
def batches (mergeCypher : List Clause) (rows : List Row) : List Write :=
  (chunkRows rows batchSize).map (.batch mergeCypher)

def Run.nodeRows (run : Run) (spec : NodeSpec) : List Row := (run.nodes.get? spec.label).getD []

def Run.relRows (run : Run) (spec : RelationshipSpec) : List Row :=
  (run.rels.get? spec.relType).getD []

/-- The statements of `load_all`.  The validation has made sure that every specification has
rows. -/
def Run.queue (run : Run) : List Write :=
  List.replicate run.constraints .schema ++
    (nodeSpecs.flatMap (fun spec => batches spec.mergeCypher (run.nodeRows spec)) ++
      relationshipSpecs.flatMap fun spec => batches spec.mergeCypher (run.relRows spec))

/-- `expected_node_counts` and `expected_rel_counts`. -/
def Run.expectedNodeCounts (run : Run) : List (String × ℕ) :=
  nodeSpecs.map fun spec => (spec.label, (run.nodeRows spec).length)

def Run.expectedRelCounts (run : Run) : List (String × ℕ) :=
  relationshipSpecs.map fun spec => (spec.relType, (run.relRows spec).length)

/-- `validate_after_load` finds nothing wrong. -/
def Run.Verified (run : Run) (g : Graph Value) : Prop :=
  CountsAgree g run.expectedNodeCounts run.expectedRelCounts ∧ run.verifyFixtures g = []

instance (run : Run) (g : Graph Value) : Decidable (run.Verified g) :=
  inferInstanceAs (Decidable ((_ = _ ∧ _ = _) ∧ _ = _))

/-- What a run hears of a statement. -/
inductive Reply
  | heard (reply : Promotion.Reply)
  /-- the statement failed, and the driver closed its session without an error -/
  | unheard
  deriving DecidableEq, Repr

/-- The next statement of a run, with the default database that it has found. -/
inductive Progress
  /-- `prepare_sync_context` -/
  | context
  /-- `extract_all` and `validate_before_write` -/
  | extract (expectedDefault : String)
  | create (expectedDefault : String)
  /-- `load_all` -/
  | load (expectedDefault : String) (queue : List Write)
  /-- `validate_after_load` -/
  | verify (expectedDefault : String)
  /-- `retry_promote` -/
  | promote (expectedDefault : String) (progress : Promotion.Progress)
  | done (outcome : Promotion.Outcome)

def preWriteMessage : String := "쓰기 전 검증 실패 - Neo4j는 한 번도 안 건드렸습니다."

def postLoadMessage (newDb : String) : String :=
  "검증 실패 - 새 데이터베이스 '" ++ newDb ++ "'는 조사를 위해 남겨뒀습니다. " ++
    "기존 기본 데이터베이스는 승격하지 않아 안전합니다."

/-- One statement of a run, and what the run does with its result. -/
def advance (run : Run) (reply : Reply) : Cluster × Progress → Cluster × Progress
  | (c, .context) =>
    if reply ≠ .heard .ok then (c, .done .raised) else (c, .extract c.server.default)
  | (c, .extract expected) =>
    if reply ≠ .heard .ok then (c, .done .raised)
    else match validateBeforeWrite run.nodes run.rels with
      | .error _ => (c, .done .raised)
      | .ok [] => (c, .create expected)
      | .ok (_ :: _) => (c, .done (.exited preWriteMessage))
  | (c, .create expected) =>
    -- a name that is taken is an error of the server
    if run.newDb ∈ c.server.databases then (c, .done .raised)
    else match reply with
      | .heard .ok => (c.create run.newDb, .load expected run.queue)
      | .heard .lost => (c.create run.newDb, .done .raised)
      | .heard .rejected | .unheard => (c, .done .raised)
  | (c, .load expected []) => (c, .verify expected)
  | (c, .load expected (write :: queue)) =>
    match reply, write.run run.syncRunId (c.graphs run.newDb) with
    | .heard .ok, some g => (c.write run.newDb g, .load expected queue)
    | .heard .lost, some g => (c.write run.newDb g, .done .raised)
    | .unheard, _ => (c, .load expected queue)
    | .heard .rejected, _ | .heard _, none => (c, .done .raised)
  | (c, .verify expected) =>
    if reply ≠ .heard .ok then (c, .done .raised)
    else if run.Verified (c.graphs run.newDb) then (c, .promote expected .databaseExists)
    else (c, .done (.exited (postLoadMessage run.newDb)))
  | (c, .promote expected progress) =>
    let heard : Promotion.Reply := match reply with
      | .heard reply => reply
      | .unheard => .rejected
    let (server, progress) := Promotion.advance run.newDb (some expected) heard (c.server, progress)
    ({ c with server }, .promote expected progress)
  | (c, .done outcome) => (c, .done outcome)

/-- The run has ended. -/
def Progress.ended : Progress → Option Promotion.Outcome
  | .done outcome => some outcome
  | .promote _ (.done outcome) => some outcome
  | _ => none

end Sync
