import Mathlib.Data.List.Basic
import Mathlib.Tactic.Tauto

/-!
# Promotion of a loaded database

`retry_promote` makes a freshly loaded database the default one.  The server has no command that
renames in one step, so it checks three things, stops the database that is the default and then
changes the name of the default.

A run is modelled statement by statement (`Progress`, `advance`), so that runs can be interleaved;
the server may report an error at every statement, before or after the statement took effect.

* **`keepsDefault_iff`**: exactly when a promotion leaves a running default database behind.
-/

namespace Promotion

/-- What the promotion sees of the server: the databases there are, those that run, the name of the
default database, and the database of each active transaction. -/
structure Server where
  databases : List String
  running : List String
  default : String
  transactions : List String
  deriving DecidableEq, Repr

/-- `STOP DATABASE`. -/
def Server.stop (s : Server) (name : String) : Server :=
  { s with running := s.running.filter (· ≠ name) }

/-- `CALL dbms.setDefaultDatabase`. -/
def Server.setDefault (s : Server) (name : String) : Server := { s with default := name }

@[simp] theorem Server.stop_default (s : Server) (name : String) :
    (s.stop name).default = s.default := rfl

@[simp] theorem Server.setDefault_default (s : Server) (name : String) :
    (s.setDefault name).default = name := rfl

@[simp] theorem Server.setDefault_running (s : Server) (name : String) :
    (s.setDefault name).running = s.running := rfl

theorem Server.mem_stop_running {s : Server} {name name' : String} :
    name' ∈ (s.stop name).running ↔ name' ∈ s.running ∧ name' ≠ name := by
  simp [Server.stop]

/-- What a run hears of a statement. -/
inductive Reply
  | ok
  /-- an error: the statement did nothing -/
  | rejected
  /-- an error although the statement took effect, such as a lost connection -/
  | lost
  deriving DecidableEq, Repr

/-- The statements of a run, in their order. -/
inductive Statement
  | showDatabases
  | showDefaultDatabase
  | showTransactions
  | stopDatabase
  | setDefaultDatabase
  deriving DecidableEq, Repr

/-- How a run ends. -/
inductive Outcome
  | returned
  | exited (message : String)
  /-- the driver's error -/
  | raised
  deriving DecidableEq, Repr

/-- The next statement of a run, with the name it has read. -/
inductive Progress
  | databaseExists
  | getDefaultDatabase
  | hasActiveTransactions (actualDefault : String)
  | stopDatabase (actualDefault : String)
  | setDefaultDatabase
  | done (outcome : Outcome)
  deriving DecidableEq, Repr

def missingMessage (newDb : String) : String :=
  "'" ++ newDb ++ "'가 존재하지 않습니다 - 이미 승격을 마쳤거나, 이름을 잘못 입력했을 수 있습니다."

/-- `build_promotion_failure_message`. -/
def buildPromotionFailureMessage (reason previousDefault newDb : String)
    (actualDefault : Option String) : String :=
  if reason = "transactions_in_use" then
    "승격 실패 - '" ++ previousDefault ++ "'에서 현재 트랜잭션을 이용 중입니다. " ++
      "데이터 적재 or 교체가 불가합니다. 새로 적재된 데이터는 '" ++ newDb ++ "'에 " ++
      "안전하게 남아있으니, 트랜잭션이 끝난 뒤 나중에 다시 시도하세요."
  else if reason = "race" then
    "승격 실패 - 기본 데이터베이스가 그 사이에 다른 세션에 의해 이미 바뀌었습니다('" ++
      previousDefault ++ "' -> '" ++ actualDefault.getD "None" ++ "'). 새로 적재된 데이터는 '" ++
      newDb ++ "'에 안전하게 남아있으니, 필요하면 확인 후 나중에 다시 시도하세요."
  else
    "승격 실패 - 알 수 없는 사유(" ++ reason ++ ")입니다. 상태를 직접 확인하세요."

/-- One statement of a run, and what the run does with its result. -/
def advance (newDb : String) (expectedPreviousDefault : Option String) (reply : Reply) :
    Server × Progress → Server × Progress
  | (s, .databaseExists) =>
    if reply ≠ .ok then (s, .done .raised)
    else if newDb ∉ s.databases then (s, .done (.exited (missingMessage newDb)))
    else (s, .getDefaultDatabase)
  | (s, .getDefaultDatabase) =>
    if reply ≠ .ok then (s, .done .raised)
    else match expectedPreviousDefault with
      | some expected =>
        if s.default ≠ expected then
          (s, .done (.exited
            (buildPromotionFailureMessage "race" expected newDb (some s.default))))
        else (s, .hasActiveTransactions s.default)
      | none => (s, .hasActiveTransactions s.default)
  | (s, .hasActiveTransactions actualDefault) =>
    if reply ≠ .ok then (s, .done .raised)
    else if actualDefault ∈ s.transactions then
      (s, .done (.exited
        (buildPromotionFailureMessage "transactions_in_use" actualDefault newDb none)))
    else (s, .stopDatabase actualDefault)
  | (s, .stopDatabase actualDefault) =>
    match reply with
    | .ok => (s.stop actualDefault, .setDefaultDatabase)
    | .rejected => (s, .done .raised)
    | .lost => (s.stop actualDefault, .done .raised)
  | (s, .setDefaultDatabase) =>
    match reply with
    | .ok => (s.setDefault newDb, .done .returned)
    | .rejected => (s, .done .raised)
    | .lost => (s.setDefault newDb, .done .raised)
  | (s, .done outcome) => (s, .done outcome)

/-- The statements of a run one after the other, with nothing in between. -/
def retryPromote (newDb : String) (expectedPreviousDefault : Option String)
    (reply : Statement → Reply) (s : Server) : Server × Progress :=
  [.showDatabases, .showDefaultDatabase, .showTransactions, .stopDatabase,
    .setDefaultDatabase].foldl
    (fun state statement => advance newDb expectedPreviousDefault (reply statement) state)
    (s, .databaseExists)

/-! ### One run -/

/-- The checks let the run through to `STOP DATABASE`. -/
def PassesChecks (newDb : String) (expectedPreviousDefault : Option String)
    (reply : Statement → Reply) (s : Server) : Prop :=
  reply .showDatabases = .ok ∧ newDb ∈ s.databases ∧ reply .showDefaultDatabase = .ok ∧
    (∀ expected ∈ expectedPreviousDefault, s.default = expected) ∧
    reply .showTransactions = .ok ∧ s.default ∉ s.transactions

/-- A run that does not pass the checks leaves the server alone, and does not return. -/
theorem retryPromote_of_not_passes {newDb : String} {expected : Option String}
    {reply : Statement → Reply} {s : Server} (h : ¬ PassesChecks newDb expected reply s) :
    ∃ outcome, retryPromote newDb expected reply s = (s, .done outcome) ∧
      outcome ≠ .returned := by
  simp only [retryPromote, List.foldl_cons, List.foldl_nil]
  by_cases hexists : reply .showDatabases = .ok
  · by_cases hmem : newDb ∈ s.databases
    · by_cases hdefault : reply .showDefaultDatabase = .ok
      · cases expected with
        | none =>
          by_cases htransactions : reply .showTransactions = .ok
          · have hactive : s.default ∈ s.transactions := by
              by_contra hactive
              exact h ⟨hexists, hmem, hdefault, by simp, htransactions, hactive⟩
            simp [advance, hexists, hmem, hdefault, htransactions, hactive]
          · simp [advance, hexists, hmem, hdefault, htransactions]
        | some expected =>
          by_cases hsame : s.default = expected
          · by_cases htransactions : reply .showTransactions = .ok
            · have hactive : s.default ∈ s.transactions := by
                by_contra hactive
                exact h ⟨hexists, hmem, hdefault, by simp [hsame], htransactions, hactive⟩
              simp [advance, hexists, hmem, hdefault, hsame, htransactions, hsame ▸ hactive]
            · simp [advance, hexists, hmem, hdefault, hsame, htransactions]
          · simp [advance, hexists, hmem, hdefault, hsame]
      · simp [advance, hexists, hmem, hdefault]
    · simp [advance, hexists, hmem]
  · simp [advance, hexists]

/-- A run that passes the checks stops the default database and sets the new one. -/
theorem retryPromote_of_passes {newDb : String} {expected : Option String}
    {reply : Statement → Reply} {s : Server} (h : PassesChecks newDb expected reply s) :
    retryPromote newDb expected reply s =
      advance newDb expected (reply .setDefaultDatabase)
        (advance newDb expected (reply .stopDatabase) (s, .stopDatabase s.default)) := by
  obtain ⟨hexists, hmem, hdefault, hexpected, htransactions, hactive⟩ := h
  simp only [retryPromote, List.foldl_cons, List.foldl_nil]
  cases expected with
  | none => simp [advance, hexists, hmem, hdefault, htransactions, hactive]
  | some expected =>
    have hsame : s.default = expected := hexpected expected rfl
    subst hsame
    simp [advance, hexists, hmem, hdefault, htransactions, hactive]

/-- A promotion to a database that exists leaves the default database running if it was running,
and when it returns the new database is the default and is running. -/
def KeepsDefault (newDb : String) (expectedPreviousDefault : Option String)
    (reply : Statement → Reply) (s : Server) : Prop :=
  newDb ∈ s.databases →
    let after := retryPromote newDb expectedPreviousDefault reply s
    (s.default ∈ s.running → after.1.default ∈ after.1.running) ∧
      (after.2 = .done .returned → after.1.default = newDb ∧ newDb ∈ after.1.running)

/-- The new database is another one than the default and it is running, and the server does what
the run asks of it; or it is not running the default database anyway and reports an error. -/
def SafeSwitch (newDb : String) (reply : Statement → Reply) (s : Server) : Prop :=
  reply .stopDatabase = .ok ∧ reply .setDefaultDatabase ≠ .rejected ∧ newDb ≠ s.default ∧
      newDb ∈ s.running ∨
    s.default ∉ s.running ∧ (reply .stopDatabase = .lost ∨ reply .setDefaultDatabase ≠ .ok)

/-- **Exactly when a promotion leaves a running default database**: it does not pass its checks, or
`STOP DATABASE` has no effect, or the switch that follows it is safe. -/
theorem keepsDefault_iff (newDb : String) (expectedPreviousDefault : Option String)
    (reply : Statement → Reply) (s : Server) :
    KeepsDefault newDb expectedPreviousDefault reply s ↔
      (PassesChecks newDb expectedPreviousDefault reply s → reply .stopDatabase ≠ .rejected →
        SafeSwitch newDb reply s) := by
  unfold KeepsDefault
  by_cases hpasses : PassesChecks newDb expectedPreviousDefault reply s
  · have hmem : newDb ∈ s.databases := hpasses.2.1
    rw [retryPromote_of_passes hpasses]
    cases hstop : reply .stopDatabase <;> cases hset : reply .setDefaultDatabase <;>
      simp [advance, SafeSwitch, hpasses, hmem, hstop, hset, Server.mem_stop_running] <;> tauto
  · obtain ⟨outcome, hrun, hreturned⟩ := retryPromote_of_not_passes hpasses
    rw [hrun]
    simp [hpasses, hreturned]

/-- A server whose default database is `mvpgraph-a`. -/
def twoDatabases : Server where
  databases := ["mvpgraph-a", "mvpgraph-b"]
  running := ["mvpgraph-a", "mvpgraph-b"]
  default := "mvpgraph-a"
  transactions := []

/-- Promoting the database that is the default already stops it, and returns. -/
theorem not_keepsDefault_repeated :
    ¬ KeepsDefault "mvpgraph-a" none (fun _ => .ok) twoDatabases := by
  intro h
  have hafter := (h (by decide)).1 (by decide)
  revert hafter
  decide

end Promotion
