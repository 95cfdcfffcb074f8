import Gatehouse.Text.Case

/-!
# Routes

Which methods and paths lead anywhere. A method counts in any case; a path counts as it is.
-/

namespace Gatehouse

/-- What can be asked for. -/
inductive Route where
  /-- Whether the service is up. -/
  | health
  /-- The user whom the token is for. -/
  | getUser
  /-- A new user. -/
  | createUser
deriving DecidableEq, Repr

namespace Route

/-- The method, in capitals, and the path of each route. -/
def table : List (String × String × Route) :=
  [("GET", "/api/health", health), ("GET", "/api/user", getUser),
    ("POST", "/api/user", createUser)]

/-- The route of a method and a path. -/
def resolve (method path : String) : Option Route :=
  (table.find? fun row => row.1 == Text.upper method && row.2.1 == path).map (·.2.2)

def name : Route → String
  | health => "Health"
  | getUser => "GetUser"
  | createUser => "CreateUser"

end Route

end Gatehouse
