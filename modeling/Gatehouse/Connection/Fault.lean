/-!
# What a connection can refuse

The causes for which a connection is not made or a statement has no answer.
-/

namespace Gatehouse.Connection

/-- Why a connection or a statement failed. -/
inductive Fault where
  /-- The settings allow no connection. -/
  | configuration (reason : String)
  /-- Every slot of the pool is taken. -/
  | poolExhausted
  /-- The connection is not live. -/
  | notConnected
  /-- The statement has no character but white space. -/
  | emptyQuery
  /-- The statement lost against another transaction and can be tried again. -/
  | transactionConflict
  /-- The database refused the statement. -/
  | query (reason : String)
deriving DecidableEq, Repr

namespace Fault

def message : Fault → String
  | configuration reason => "Invalid configuration: " ++ reason
  | poolExhausted => "Connection pool exhausted"
  | notConnected => "Not connected"
  | emptyQuery => "Empty query"
  | transactionConflict => "Transaction conflict"
  | query reason => "Query error: " ++ reason

/-- Whether a fault says that there is no database, rather than what it made of a statement. -/
def isOutage : Fault → Bool
  | configuration _ | poolExhausted | notConnected => true
  | emptyQuery | transactionConflict | query _ => false

end Fault

end Gatehouse.Connection
