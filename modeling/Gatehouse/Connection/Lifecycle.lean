import Gatehouse.Connection.Action
import Gatehouse.Text.Cut
import Gatehouse.Text.Quoted

/-!
# Connecting and disconnecting

A connection is live while it holds a slot of its pool. Connecting takes a slot unless one is held
already, and disconnecting gives it back if one is held, so that a connection never holds two
slots and never gives back one that it does not hold.
-/

namespace Gatehouse

namespace Link

/-- A link that is not live, over a pool. -/
def ofPool (pool : Pool) : Link :=
  ⟨pool, false⟩

/-- The link after connecting to a target. -/
def connect (target : String) (l : Link) : Except Connection.Fault Link :=
  if l.connected then .ok l
  else if target.isEmpty then .error (.configuration "database URL must not be empty")
  else
    match l.pool.acquire? with
    | none => .error .poolExhausted
    | some pool => .ok ⟨pool, true⟩

/-- The link after disconnecting. -/
def disconnect (l : Link) : Link :=
  if l.connected then ⟨l.pool.release, false⟩ else l

end Link

/-- A target without its credentials: whatever stands up to the first `@` is left out. -/
def redact (target : String) : String :=
  match Text.cutFirst? '@' target.toList with
  | some (_, rest) => String.ofList rest
  | none => target

/-- The settings of a connection, which never change. -/
structure Connection (σ : Type) where
  /-- Where the database is, with the credentials for it. -/
  target : String
  /-- Where statements go. -/
  backend : Backend σ
  /-- How often a statement that met a conflict is tried again. -/
  maxRetries : UInt32
  /-- Whether statements are reported. -/
  logsStatements : Bool

namespace Connection

variable {σ : Type}

/-- How often a statement is tried again when nothing is said about it. -/
def standardRetries : UInt32 := 3

/-- A connection to a target with the standard settings. -/
def ofTarget (target : String) (backend : Backend σ) : Connection σ :=
  ⟨target, backend, standardRetries, true⟩

/-- The target as it may be shown. -/
def redacted (c : Connection σ) : String :=
  redact c.target

/-- The event of a link that has come alive. -/
def connectedEvent (c : Connection σ) : Event :=
  ⟨.info, "Connected to database", [("url", c.redacted)]⟩

/-- The event of a link that has ended. -/
def disconnectedEvent : Event :=
  ⟨.info, "Disconnected from database", []⟩

/-- Makes the connection live, if it is not. -/
def connect (c : Connection σ) : Action σ (Except Fault Unit) := do
  let before ← Action.link
  match before.connect c.target with
  | .error e => return .error e
  | .ok after =>
    Action.setLink after
    if !before.connected then Action.report c.connectedEvent
    return .ok ()

/-- Ends the connection, if it is live. -/
def disconnect (_ : Connection σ) : Action σ Unit := do
  let before ← Action.link
  Action.setLink before.disconnect
  if before.connected then Action.report disconnectedEvent

/-- What others did to the connection, one thing after the other. Nobody waits for the outcome. -/
def follow (c : Connection σ) : List Transition → Action σ Unit
  | [] => return
  | .connect :: rest => do
    let _ ← c.connect
    c.follow rest
  | .disconnect :: rest => do
    c.disconnect
    c.follow rest

/-! ## Texts for diagnostics -/

/-- The connection and its state, without credentials. -/
def describe (c : Connection σ) (l : Link) : String :=
  "DatabaseConnection \x7b target: " ++ Text.quoted c.redacted ++
    s!", connected: {l.connected}, active: {l.pool.active.toNat}" ++
    s!", capacity: {l.pool.capacity.toNat}" ++ " \x7d"

/-- A guard over the connection, and the connection's state. -/
def describeGuard (c : Connection σ) (l : Link) : String :=
  "ScopedConnection \x7b conn: " ++ c.describe l ++ ", released: false \x7d"

end Connection

end Gatehouse
