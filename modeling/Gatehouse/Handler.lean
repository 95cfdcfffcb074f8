import Gatehouse.Problem
import Gatehouse.Connection.Statement
import Gatehouse.NewUser
import Gatehouse.Request
import Gatehouse.Route
import Gatehouse.Token.Validation

/-!
# Answering requests

A request passes the gate first: without a valid credential it is answered at once. Behind the gate
it is routed and run. A failure or a panic of what runs behind the gate becomes a response; a panic
of the gate itself does not.
-/

namespace Gatehouse

/-- Takes the value of an authorization header and the secret for the claims in it. -/
abbrev Validator := String → String → Ending (Except Denial Claims)

/-- The validator of signed tokens, at a time. -/
def Validator.standard (now : Nat) : Validator := fun header secret =>
  .returned (Token.validate now header secret)

/-- What decides who may pass. -/
structure Gate where
  /-- The secret with which tokens are signed. -/
  secret : String
  /-- The judge of credentials. -/
  validator : Validator

/-- The gate for signed tokens, at a time. -/
def Gate.standard (now : Nat) (secret : String) : Gate :=
  ⟨secret, .standard now⟩

/-- The claims of whoever sends a request. -/
def Gate.judge (g : Gate) (r : Request) : Ending (Except Denial Claims) :=
  let header := (r.header? "authorization").getD ""
  if header.isEmpty then .returned (.error (.malformed "Missing Authorization header"))
  else g.validator header g.secret

/-- A gate and the connection behind it. -/
structure Handler (σ : Type) where
  gate : Gate
  connection : Connection σ

namespace Handler

variable {σ : Type}

/-! ## Behind the gate -/

/-- The statement that finds a user. -/
def selectUser : String := "SELECT * FROM users WHERE id = $1"

/-- The statement that creates a user. -/
def insertUser : String := "INSERT INTO users (username, email) VALUES ($1, $2)"

/-- A failed statement, reported. -/
def failed (e : Connection.Fault) : Action σ Problem := do
  Action.report (Problem.statementEvent e)
  return Problem.ofStatement e

/-- That the service is up. -/
def healthy : Response :=
  .ok "\x7b\"status\": \"healthy\"\x7d"

/-- The first row of the user with some id. -/
def showUser (c : Connection σ) (id : String) : Action σ (Except Problem Response) := do
  match ← c.query selectUser [.string id] with
  | .error e => return .error (← failed e)
  | .ok [] => return .error .notFound
  | .ok (row :: _) => return .ok (.ok (Row.toJson row).render)

/-- The event of a body that is JSON and describes no user. -/
def rejectedEvent (e : NotAnObject) : Event :=
  ⟨.error, "Rejected create-user body: " ++ e.message, []⟩

/-- Creates the user in the body of a request. A body that is not JSON is told as a success whose
body tells the error. -/
def addUser (c : Connection σ) (r : Request) : Action σ (Except Problem Response) := do
  match r.json with
  | .error e => return .ok (.ok (Response.errorText e.message))
  | .ok v =>
    match NewUser.ofJson v with
    | .error e =>
      Action.report (rejectedEvent e)
      return .error (.internal "Invalid user payload")
    | .ok u =>
      match ← c.executeRetrying insertUser u.params with
      | .error e => return .error (← failed e)
      | .ok n => return .ok (.ok (Json.Value.object [("created", .number (.natural n))]).render)

/-- Does what a route asks for. -/
def follow (c : Connection σ) (route : Route) (claims : Claims) (r : Request) :
    Action σ (Except Problem Response) :=
  match route with
  | .health => return .ok healthy
  | .getUser => showUser c claims.sub
  | .createUser => addUser c r

/-! ## The whole way -/

/-- The event of a refused credential. -/
def refusedEvent (e : Denial) : Event :=
  ⟨.warn, "Auth failed: " ++ e.message, [("reason", e.reason.code)]⟩

/-- The event of a request that leads nowhere. -/
def unroutedEvent (r : Request) : Event :=
  ⟨.debug, "No route matched", [("method", r.method), ("path", r.path)]⟩

/-- The event of a panic behind the gate. -/
def panickedEvent (route : Route) : Event :=
  ⟨.error, "Handler panicked", [("route", route.name)]⟩

/-- The response to a request that has passed the gate. -/
def answer (c : Connection σ) (claims : Claims) (r : Request) : Action σ Response := do
  match Route.resolve r.method r.path with
  | none =>
    Action.report (unroutedEvent r)
    return .notFound
  | some route =>
    match ← Action.caught (follow c route claims r) with
    | .returned (.ok response) => return response
    | .returned (.error e) => return e.response
    | .panicked _ =>
      Action.report (panickedEvent route)
      return Problem.response (.internal "Internal server error")

/-- The response to a request. -/
def respond (h : Handler σ) (r : Request) : Action σ Response := do
  match ← Action.ofEnding (h.gate.judge r) with
  | .error e =>
    Action.report (refusedEvent e)
    return (Problem.ofDenial e).response
  | .ok claims => answer h.connection claims r

/-! ## What follows a verdict -/

section Verdict

variable {h : Handler σ} {r : Request} (w : World σ)

theorem respond_of_panicked {p : String} (hverdict : h.gate.judge r = .panicked p) :
    h.respond r w = ⟨.panicked p, w, []⟩ := by
  unfold respond
  rw [hverdict]
  rfl

/-- A refusal is reported, and that is all that happens. -/
theorem respond_of_denied {e : Denial} (hverdict : h.gate.judge r = .returned (.error e)) :
    h.respond r w =
      ⟨.returned (Problem.ofDenial e).response, w, [.seen (.event (refusedEvent e))]⟩ := by
  unfold respond
  rw [hverdict]
  rfl

theorem respond_of_granted {claims : Claims}
    (hverdict : h.gate.judge r = .returned (.ok claims)) :
    h.respond r w = answer h.connection claims r w := by
  unfold respond
  rw [hverdict]
  rfl

end Verdict

end Handler

end Gatehouse
