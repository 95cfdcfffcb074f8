import Gatehouse.Denial
import Gatehouse.Connection.Fault
import Gatehouse.Event
import Gatehouse.Response

/-!
# Problems

A `Problem` is what a caller may learn of a failure. The text of a refused credential is told as
it is. What a database says is reported as an event and told in general terms only.
-/

namespace Gatehouse

/-- A failure as a caller sees it. -/
inductive Problem where
  /-- The credential was refused. -/
  | unauthorized (message : String)
  /-- Nothing is there. -/
  | notFound
  /-- Something else went wrong. -/
  | internal (message : String)
deriving DecidableEq, Repr

namespace Problem

def message : Problem → String
  | unauthorized m => m
  | notFound => "not found"
  | internal m => m

/-- The status code of the failure. -/
def status : Problem → UInt16
  | unauthorized _ => 401
  | notFound => 404
  | internal _ => 500

/-- The response that tells the failure. -/
def response : Problem → Response
  | unauthorized m => .unauthorized m
  | notFound => .notFound
  | internal m => .internalError m

/-- A refused credential. -/
def ofDenial (e : Denial) : Problem :=
  unauthorized e.message

/-- A failed statement, in general terms. -/
def ofStatement (e : Connection.Fault) : Problem :=
  if e.isOutage then internal "Database temporarily unavailable"
  else internal "Database error occurred"

/-- The event of a failed statement, with its cause. -/
def statementEvent (e : Connection.Fault) : Event :=
  if e.isOutage then ⟨.error, "Database unavailable: " ++ e.message, []⟩
  else ⟨.error, "Database error: " ++ e.message, []⟩

/-- A value that could not be written or read, in general terms. -/
def ofJson (_ : Json.Error) : Problem :=
  internal "Failed to format response"

/-- The event of a value that could not be written or read, with its cause. -/
def jsonEvent (e : Json.Error) : Event :=
  ⟨.error, "JSON serialization error: " ++ e.message, []⟩

end Problem

end Gatehouse
