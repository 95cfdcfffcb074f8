import Gatehouse.Connection.Lifecycle
import Gatehouse.Text.Blank

/-!
# Statements

A statement reaches the backend only over a live connection, and one that asks for rows only if it
is not blank. `Connection.executeRetrying` tries a statement again as long as it meets conflicts
and has tries left.
-/

namespace Gatehouse.Connection

variable {σ α : Type}

/-- The event of a statement that is about to reach the backend. -/
def statementEvent (call : Call) : Event :=
  match call.kind with
  | .fetch => ⟨.debug, "Executing query", [("sql", call.sql)]⟩
  | .execute => ⟨.debug, "Executing statement", [("sql", call.sql)]⟩

/-- Hands a statement to the backend. What others do in the meantime comes before the answer. -/
def deliver (c : Connection σ) (call : Call) (f : σ → Reply σ α) :
    Action σ (Except Fault α) := do
  let (outcome, meanwhile) ← Action.send call f
  c.follow meanwhile
  match outcome with
  | .answer a => return .ok a
  | .failure e => return .error e
  | .panic payload => Action.panic payload

/-- Reports a statement and hands it to the backend. -/
def submit (c : Connection σ) (call : Call) (f : σ → Reply σ α) :
    Action σ (Except Fault α) := do
  if c.logsStatements then Action.report (statementEvent call)
  c.deliver call f

/-- The rows of a statement. -/
def query (c : Connection σ) (sql : String) (params : List Json.Value) :
    Action σ (Except Fault (List Row)) := do
  if !(← Action.link).connected then return .error .notConnected
  else if Text.isAllBlank sql then return .error .emptyQuery
  else c.submit ⟨.fetch, sql, params⟩ (c.backend.fetch · sql params)

/-- Runs a statement and counts the rows that it changed. -/
def execute (c : Connection σ) (sql : String) (params : List Json.Value) :
    Action σ (Except Fault UInt64) := do
  if !(← Action.link).connected then return .error .notConnected
  else c.submit ⟨.execute, sql, params⟩ (c.backend.execute · sql params)

/-- The event of a statement that is about to be tried again. -/
def retryEvent (c : Connection σ) (attempt : Nat) : Event :=
  ⟨.warn, "Transaction conflict, retrying",
    [("attempt", toString attempt), ("max", toString c.maxRetries.toNat)]⟩

/-- Runs a statement with so many further tries left. -/
def executeWithin (c : Connection σ) (sql : String) (params : List Json.Value) :
    Nat → Action σ (Except Fault UInt64)
  | 0 => c.execute sql params
  | left + 1 => do
    match ← c.execute sql params with
    | .error .transactionConflict =>
      Action.report (c.retryEvent (c.maxRetries.toNat - left))
      c.executeWithin sql params left
    | result => return result

/-- Runs a statement, and runs it again while it meets conflicts, up to the limit of the
connection. -/
def executeRetrying (c : Connection σ) (sql : String) (params : List Json.Value) :
    Action σ (Except Fault UInt64) :=
  c.executeWithin sql params c.maxRetries.toNat

end Gatehouse.Connection
