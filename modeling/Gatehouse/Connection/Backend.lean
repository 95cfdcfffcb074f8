import Gatehouse.Connection.Fault
import Gatehouse.Json.Value

/-!
# Backends

A backend is where statements go. It is a state and an answer to each statement that reaches it,
good, bad or none at all. While it works on a statement others may connect and disconnect, so a
reply also says what they did in the meantime.
-/

namespace Gatehouse

/-- A row, with a value for each column name. -/
abbrev Row := Dictionary Json.Value

def Row.toJson (row : Row) : Json.Value :=
  .object row

/-- How a backend takes a statement. -/
inductive Outcome (α : Type) where
  /-- The statement was run. -/
  | answer (a : α)
  /-- The statement failed. -/
  | failure (e : Connection.Fault)
  /-- The backend broke down over the statement. -/
  | panic (payload : String)

/-- What someone can do to a connection while a statement is pending. -/
inductive Transition where
  | connect
  | disconnect
deriving DecidableEq, Repr

/-- What comes back from a backend. -/
structure Reply (σ α : Type) where
  /-- How it took the statement. -/
  outcome : Outcome α
  /-- What others did in the meantime, in order. -/
  meanwhile : List Transition
  /-- The backend's state from then on. -/
  next : σ

/-- A place for statements, with a state of type `σ`. -/
structure Backend (σ : Type) where
  /-- Runs a statement that gives rows. -/
  fetch : σ → String → List Json.Value → Reply σ (List Row)
  /-- Runs a statement that changes rows, and counts them. -/
  execute : σ → String → List Json.Value → Reply σ UInt64

namespace Backend

/-- The one row of a simulated answer. -/
def simulatedRow : Row :=
  [("result", .string "ok")]

/-- A backend that has the same answer for every statement. -/
def simulated {σ : Type} : Backend σ where
  fetch s _ _ := ⟨.answer [simulatedRow], [], s⟩
  execute s _ _ := ⟨.answer 1, [], s⟩

/-- What a scripted backend has left to say. -/
structure Script where
  /-- How it will take the statements that give rows. -/
  fetch : List (Outcome (List Row))
  /-- How it will take the statements that change rows. -/
  execute : List (Outcome UInt64)

/-- The next line of a script and what is left of it. The last line is said over and over; without
any line the answer is the simulated one. -/
def nextLine {α : Type} (simulated : α) : List (Outcome α) → Outcome α × List (Outcome α)
  | [] => (.answer simulated, [])
  | [o] => (o, [o])
  | o :: rest => (o, rest)

/-- A backend that follows a script. -/
def scripted : Backend Script where
  fetch s _ _ :=
    let (outcome, rest) := nextLine [simulatedRow] s.fetch
    ⟨outcome, [], { s with fetch := rest }⟩
  execute s _ _ :=
    let (outcome, rest) := nextLine 1 s.execute
    ⟨outcome, [], { s with execute := rest }⟩

end Backend

end Gatehouse
