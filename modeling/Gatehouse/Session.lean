import Gatehouse.Http

/-!
# Sessions

A session is a connection in use: its world, and the guards that are open on it. A guard is a
promise to disconnect. It is made together with connecting, and is kept when the guard is closed,
when its scope ends, when a panic passes through that scope and when the work that owns it is
given up. A run is a list of steps, each with its answer and its history.
-/

namespace Gatehouse

/-- How a guard ends. -/
inductive GuardEnd where
  /-- It is closed. -/
  | close
  /-- Its scope ends. -/
  | scope
  /-- A panic passes through its scope. -/
  | unwind
  /-- The work that owns it is given up. -/
  | cancel
deriving DecidableEq, Repr

/-- What can be done with a connection, directly or through a guard. -/
inductive Operation where
  | connect
  | disconnect
  | query (sql : String) (params : List Json.Value)
  | execute (sql : String) (params : List Json.Value)
  | executeRetrying (sql : String) (params : List Json.Value)
  | describe
  | isConnected

/-- One step of a run. -/
inductive Step where
  /-- Does something with the connection, through the named guard if there is one. -/
  | operate (guard : Option String) (op : Operation)
  /-- Opens a guard under a name. -/
  | openGuard (name : String)
  /-- Ends the guard under a name. -/
  | endGuard (name : String) (how : GuardEnd)
  /-- Answers a request behind a gate. -/
  | respond (gate : Gate) (r : Request)
  /-- Answers an HTTP request behind a gate, with a limit on its body. -/
  | serve (gate : Gate) (limit : UInt64) (r : Http.Request)

/-- What a step gives. -/
inductive Answer where
  /-- It is done. -/
  | done
  /-- The number of rows that were changed. -/
  | count (n : UInt64)
  /-- The rows that were found. -/
  | rows (rows : List Row)
  /-- A description. -/
  | text (s : String)
  /-- Whether the connection is live. -/
  | flag (b : Bool)
  /-- The response to a request. -/
  | response (r : Response)
  /-- The response to an HTTP request. -/
  | httpResponse (r : Http.Response)
  /-- The guard has ended. -/
  | ended (how : GuardEnd)
  /-- The connection or the database refused. -/
  | failure (e : Connection.Fault)
  /-- No guard has the name. -/
  | noGuard
  /-- A guard has the name already. -/
  | guardExists

namespace Answer

/-- The outcome of an operation that has nothing to tell. -/
def ofUnit : Except Connection.Fault Unit → Answer
  | .ok () => done
  | .error e => failure e

/-- The outcome of a statement that changes rows. -/
def ofCount : Except Connection.Fault UInt64 → Answer
  | .ok n => count n
  | .error e => failure e

/-- The outcome of a statement that gives rows. -/
def ofRows : Except Connection.Fault (List Row) → Answer
  | .ok found => rows found
  | .error e => failure e

end Answer

/-- A connection in use. -/
structure Session (σ : Type) where
  /-- The connection. -/
  connection : Connection σ
  /-- Its world. -/
  world : World σ
  /-- The names of the open guards. -/
  guards : List String

namespace Session

variable {σ : Type}

/-- Does something with a connection; `guarded` says whether through a guard. -/
def operate (c : Connection σ) (guarded : Bool) : Operation → Action σ Answer
  | .connect => do return .ofUnit (← c.connect)
  | .disconnect => do
    c.disconnect
    return .done
  | .query sql params => do return .ofRows (← c.query sql params)
  | .execute sql params => do return .ofCount (← c.execute sql params)
  | .executeRetrying sql params => do return .ofCount (← c.executeRetrying sql params)
  | .describe => do
    let l ← Action.link
    return .text (if guarded then c.describeGuard l else c.describe l)
  | .isConnected => do return .flag (← Action.link).connected

/-- What a step does, and which guards are open behind it. -/
def perform (c : Connection σ) (guards : List String) :
    Step → Action σ (Answer × List String)
  | .operate none op => do return (← operate c false op, guards)
  | .operate (some name) op => do
    if guards.contains name then return (← operate c true op, guards)
    else return (.noGuard, guards)
  | .openGuard name => do
    if guards.contains name then return (.guardExists, guards)
    else
      match ← c.connect with
      | .ok () => return (.done, name :: guards)
      | .error e => return (.failure e, guards)
  | .endGuard name how => do
    if guards.contains name then
      c.disconnect
      return (.ended how, guards.erase name)
    else return (.noGuard, guards)
  | .respond gate r => do return (.response (← Handler.respond ⟨gate, c⟩ r), guards)
  | .serve gate limit r => do return (.httpResponse (← Http.serve ⟨gate, c⟩ limit r), guards)

/-- What one step comes to. -/
structure Entry where
  /-- How it ends. -/
  ending : Ending Answer
  /-- Its moments, in order. -/
  history : List Moment
  /-- The state of the connection behind it. -/
  link : Link

/-- What is seen of a step, in order. -/
def Entry.trace (e : Entry) : List Note :=
  e.history.filterMap Moment.note?

/-- One step of a session. A panic ends the step and leaves the guards as they were. -/
def step (s : Session σ) (st : Step) : Session σ × Entry :=
  let r := perform s.connection s.guards st s.world
  match r.ending with
  | .returned (answer, guards) =>
    (⟨s.connection, r.world, guards⟩, ⟨.returned answer, r.history, r.world.link⟩)
  | .panicked p => (⟨s.connection, r.world, s.guards⟩, ⟨.panicked p, r.history, r.world.link⟩)

/-- A run of a session: the session behind it and an entry per step. -/
def run (s : Session σ) : List Step → Session σ × List Entry
  | [] => (s, [])
  | st :: rest =>
    let (t, entry) := s.step st
    let (u, entries) := t.run rest
    (u, entry :: entries)

/-- The steps that end every open guard. -/
def closing (s : Session σ) : List Step :=
  s.guards.map fun name => .endGuard name .scope

end Session

end Gatehouse
