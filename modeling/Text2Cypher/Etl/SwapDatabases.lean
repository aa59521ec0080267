import Text2Cypher.Library.Renaming
import Text2Cypher.Library.DecimalText

/-!
# Exchange of a restored database

`retry_swap` gives a restored database the name of the live one, which keeps its data under another
name.  It looks up both names first, and makes the two renamings much later, in one transaction:
what they change is seen by the others when it is committed.

A run is modelled statement by statement (`Progress`, `advance`), so that runs can be interleaved.
Looking for idle connections and ending them is one statement here: it changes no name.

* `Server`: the names that are committed, and the renamings of each open transaction;
* `Server.Free`: when a renaming need not wait for another transaction.
-/

namespace Swap

open Python Renaming

/-- What a run hears of a statement. -/
inductive Reply
  | ok
  /-- `ObjectInUse`: there are connections to the database -/
  | inUse
  /-- another error; in both cases the statement did nothing -/
  | error
  deriving DecidableEq, Repr

/-- What the runs see of the server: what the committed names stand for, the renamings of each
session's open transaction, and how many exchanges have been committed. -/
structure Server (ι α : Type) where
  names : String → Option α
  pending : ι → List (String × String)
  swaps : ℕ

variable {ι α : Type}

/-- What the names stand for in the transaction of a session. -/
def Server.view (s : Server ι α) (i : ι) : String → Option α := renameAll s.names (s.pending i)

/-- No other transaction has renamed the database of the old name, or has given away the new name
where nobody has it yet. -/
def Server.Free (s : Server ι α) (i : ι) (old new : String) : Prop :=
  ∀ j, j ≠ i → ∀ r ∈ s.pending j, r.1 ≠ old ∧ (r.2 = new → s.view i new ≠ none)

section

variable [DecidableEq ι]

/-- `ALTER DATABASE … RENAME TO …` in an open transaction. -/
def Server.rename (s : Server ι α) (i : ι) (old new : String) : Server ι α :=
  { s with pending := Function.update s.pending i (s.pending i ++ [(old, new)]) }

def Server.commit (s : Server ι α) (i : ι) : Server ι α where
  names := s.view i
  pending := Function.update s.pending i []
  swaps := s.swaps + 1

def Server.rollback (s : Server ι α) (i : ι) : Server ι α :=
  { s with pending := Function.update s.pending i [] }

@[simp] theorem Server.rename_names (s : Server ι α) (i : ι) (old new : String) :
    (s.rename i old new).names = s.names := rfl

@[simp] theorem Server.rename_swaps (s : Server ι α) (i : ι) (old new : String) :
    (s.rename i old new).swaps = s.swaps := rfl

@[simp] theorem Server.rollback_names (s : Server ι α) (i : ι) :
    (s.rollback i).names = s.names := rfl

@[simp] theorem Server.rollback_swaps (s : Server ι α) (i : ι) :
    (s.rollback i).swaps = s.swaps := rfl

end

/-- What a run of `retry_swap` is started with, and what it is told: the time of its lookup and the
answer to its question. -/
structure Run where
  newDb : String
  timestamp : String
  autoYes : Bool
  userInput : List Char

/-- How a run ends. -/
inductive Outcome
  | returned
  | exited (message : String)
  /-- the driver's error -/
  | raised
  deriving DecidableEq, Repr

/-- The next statement of a run, with the name under which it preserves the live database it has
seen, and how many exchanges had been committed when it looked. -/
inductive Progress
  | newDatabaseExists
  | liveDatabaseExists
  | confirm (previousDbName : Option String) (seen : ℕ)
  | renameLive (previousDbName : String) (seen : ℕ)
  | renameNew (previousDbName : Option String) (seen : ℕ)
  | commit (previousDbName : Option String) (seen : ℕ)
  | done (outcome : Outcome)
  deriving DecidableEq, Repr

/-- `build_previous_database_name`. -/
def buildPreviousDatabaseName (db timestamp : String) : String := db ++ "_previous_" ++ timestamp

/-- `restore_confirmed`. -/
def restoreConfirmed (userInput : List Char) (db : String) : Bool :=
  decide (strip userInput = db.toList)

/-- `build_swap_failure_message`. -/
def buildSwapFailureMessage (reason db newDb : String) : String :=
  if reason = "in_use" then
    "교체 실패 - '" ++ db ++ "' 또는 '" ++ newDb ++ "'에서 활성 연결(트랜잭션 등)이 " ++
      "사용 중이라 안전하게 교체할 수 없습니다. 복원된 데이터는 '" ++ newDb ++
      "'에 안전하게 남아있으니, 작업이 끝난 뒤 'python etl/postgres_restore.py --retry-swap " ++
      newDb ++ "'로 다시 시도하세요."
  else if reason = "race" then
    "교체 실패 - 그 사이 다른 세션이 이미 '" ++ db ++ "' 교체를 끝냈습니다. 복원된 데이터는 '" ++
      newDb ++ "'에 안전하게 남아있으니, 필요하면 확인 후 직접 처리하세요."
  else "교체 실패 - 알 수 없는 사유(" ++ reason ++ ")입니다. 상태를 직접 확인하세요."

def missingMessage (newDb : String) : String :=
  "'" ++ newDb ++ "'가 존재하지 않습니다 - 이미 교체를 마쳤거나, 이름을 잘못 입력했을 수 있습니다."

def unconfirmedMessage (newDb : String) : String :=
  "입력한 이름이 일치하지 않아 교체를 중단합니다. 복원된 데이터는 '" ++ newDb ++
    "'에 그대로 남아있습니다."

/-- The error of a statement in `swap_databases`: the transaction is rolled back, by the code or by
the end of the connection. -/
def failed [DecidableEq ι] (db : String) (run : Run) (i : ι) (reply : Reply) (s : Server ι α) :
    Server ι α × Progress :=
  match reply with
  | .ok => (s.rollback i, .done (.exited (buildSwapFailureMessage "race" db run.newDb)))
  | .inUse => (s.rollback i, .done (.exited (buildSwapFailureMessage "in_use" db run.newDb)))
  | .error => (s.rollback i, .done .raised)

/-- One statement of a run, and what the run does with its result. -/
def advance [DecidableEq ι] (db : String) (run : Run) (i : ι) (reply : Reply) :
    Server ι α × Progress → Server ι α × Progress
  | (s, .newDatabaseExists) =>
    if reply ≠ .ok then (s, .done .raised)
    else if (s.names run.newDb).isNone then (s, .done (.exited (missingMessage run.newDb)))
    else (s, .liveDatabaseExists)
  | (s, .liveDatabaseExists) =>
    if reply ≠ .ok then (s, .done .raised)
    else if (s.names db).isSome then
      (s, .confirm (some (buildPreviousDatabaseName db run.timestamp)) s.swaps)
    else (s, .confirm none s.swaps)
  | (s, .confirm previousDbName seen) =>
    if reply ≠ .ok then (s, .done .raised)
    else if run.autoYes || restoreConfirmed run.userInput db then
      match previousDbName with
      | some previous => (s, .renameLive previous seen)
      | none => (s, .renameNew none seen)
    else (s, .done (.exited (unconfirmedMessage run.newDb)))
  | (s, .renameLive previous seen) =>
    if reply = .ok ∧ (s.view i db).isSome ∧ (s.view i previous).isNone then
      (s.rename i db previous, .renameNew (some previous) seen)
    else failed db run i reply s
  | (s, .renameNew previousDbName seen) =>
    if reply = .ok ∧ (s.view i run.newDb).isSome ∧ (s.view i db).isNone then
      (s.rename i run.newDb db, .commit previousDbName seen)
    else failed db run i reply s
  | (s, .commit _ _) =>
    match reply with
    | .ok => (s.commit i, .done .returned)
    | reply => failed db run i reply s
  | (s, .done outcome) => (s, .done outcome)

/-- The statement that a run executes next need not wait for another transaction. -/
def Ready (db : String) (run : Run) (i : ι) (reply : Reply) (s : Server ι α) : Progress → Prop
  | .renameLive previous _ => reply = .ok → s.Free i db previous
  | .renameNew _ _ => reply = .ok → s.Free i run.newDb db
  | .done _ => False
  | _ => True

end Swap
