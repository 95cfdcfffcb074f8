import Gatehouse.Connection.Backend
import Gatehouse.Event
import Gatehouse.Pool

/-!
# Actions

An `Action` is a computation on a connection. It moves a `World`, the link to the database and the
backend behind it, and leaves a history: the states that the link takes, the events that are
reported and the statements that the backend gets, in one order. It ends by returning a value or by
a panic, which ends every action around it up to the one that catches it.
-/

namespace Gatehouse

/-- The two kinds of statement. -/
inductive CallKind where
  /-- A statement that gives rows. -/
  | fetch
  /-- A statement that changes rows. -/
  | execute
deriving DecidableEq, Repr

/-- A statement that reached the backend. -/
structure Call where
  /-- The kind of the statement. -/
  kind : CallKind
  /-- Its text. -/
  sql : String
  /-- The values bound to its places. -/
  params : List Json.Value

/-- One thing that is seen of a run. -/
inductive Note where
  /-- An event was reported. -/
  | event (e : Event)
  /-- A statement reached the backend. -/
  | call (c : Call)

/-- The state of a connection. -/
structure Link where
  /-- The pool from which the connection takes its slot. -/
  pool : Pool
  /-- Whether the connection is live, which is to say holds a slot. -/
  connected : Bool
deriving DecidableEq, Repr

/-- What an action moves. -/
structure World (σ : Type) where
  /-- The state of the connection. -/
  link : Link
  /-- The state of the backend. -/
  backend : σ

/-- One moment of a run. -/
inductive Moment where
  /-- Something is seen. -/
  | seen (n : Note)
  /-- The link takes a state. -/
  | moved (l : Link)

/-- What is seen in a moment. -/
def Moment.note? : Moment → Option Note
  | .seen n => some n
  | .moved _ => none

/-- How a computation ends. -/
inductive Ending (α : Type) where
  | returned (a : α)
  | panicked (payload : String)

/-- What an action comes to. -/
structure Run (σ α : Type) where
  /-- How it ends. -/
  ending : Ending α
  /-- The world behind it. -/
  world : World σ
  /-- Its moments, in order. -/
  history : List Moment

/-- A computation on a connection. -/
def Action (σ α : Type) : Type :=
  World σ → Run σ α

namespace Action

variable {σ α β : Type}

/-- Returns a value and does nothing. -/
def ret (a : α) : Action σ α := fun w =>
  ⟨.returned a, w, []⟩

/-- One action and then another, which does not happen after a panic. -/
def andThen (x : Action σ α) (f : α → Action σ β) : Action σ β := fun w =>
  match x w with
  | ⟨.returned a, v, t⟩ =>
    let r := f a v
    ⟨r.ending, r.world, t ++ r.history⟩
  | ⟨.panicked p, v, t⟩ => ⟨.panicked p, v, t⟩

instance : Monad (Action σ) where
  pure := ret
  bind := andThen

@[simp] theorem pure_run (a : α) (w : World σ) :
    (pure a : Action σ α) w = ⟨.returned a, w, []⟩ := rfl

/-- After an action that returns, the next one goes on from its world, and the histories follow one
another. -/
theorem bind_run_of_returned {x : Action σ α} {w v : World σ} {a : α} {t : List Moment}
    (f : α → Action σ β) (h : x w = ⟨.returned a, v, t⟩) :
    (x >>= f) w = ⟨(f a v).ending, (f a v).world, t ++ (f a v).history⟩ := by
  simp only [bind, andThen, h]

theorem bind_run_of_ending {x : Action σ α} {w : World σ} {a : α} (f : α → Action σ β)
    (h : (x w).ending = .returned a) :
    (x >>= f) w = ⟨(f a (x w).world).ending, (f a (x w).world).world,
      (x w).history ++ (f a (x w).world).history⟩ := by
  have hrun : x w = ⟨.returned a, (x w).world, (x w).history⟩ := by rw [← h]
  exact bind_run_of_returned f hrun

/-- After an action that panics, nothing happens. -/
theorem bind_run_of_panicked {x : Action σ α} {w v : World σ} {p : String} {t : List Moment}
    (f : α → Action σ β) (h : x w = ⟨.panicked p, v, t⟩) :
    (x >>= f) w = ⟨.panicked p, v, t⟩ := by
  simp only [bind, andThen, h]

/-- The state of the connection. -/
def link : Action σ Link := fun w =>
  ⟨.returned w.link, w, []⟩

/-- Sets the state of the connection. -/
def setLink (l : Link) : Action σ Unit := fun w =>
  ⟨.returned (), { w with link := l }, [.moved l]⟩

/-- Reports an event. -/
def report (e : Event) : Action σ Unit := fun w =>
  ⟨.returned (), w, [.seen (.event e)]⟩

/-- Hands a statement to the backend. -/
def send (c : Call) (f : σ → Reply σ α) : Action σ (Outcome α × List Transition) := fun w =>
  let reply := f w.backend
  ⟨.returned (reply.outcome, reply.meanwhile), { w with backend := reply.next },
    [.seen (.call c)]⟩

/-- Ends by a panic. -/
def panic (payload : String) : Action σ α := fun w =>
  ⟨.panicked payload, w, []⟩

/-- An action whose panic ends nothing but itself. -/
def caught (x : Action σ α) : Action σ (Ending α) := fun w =>
  let r := x w
  ⟨.returned r.ending, r.world, r.history⟩

/-- An ending as an action. -/
def ofEnding : Ending α → Action σ α
  | .returned a => ret a
  | .panicked p => panic p

@[simp] theorem link_run (w : World σ) :
    link w = ⟨.returned w.link, w, []⟩ := rfl

@[simp] theorem setLink_run (l : Link) (w : World σ) :
    setLink l w = ⟨.returned (), { w with link := l }, [.moved l]⟩ := rfl

@[simp] theorem report_run (e : Event) (w : World σ) :
    report e w = ⟨.returned (), w, [.seen (.event e)]⟩ := rfl

theorem send_run (c : Call) (f : σ → Reply σ α) (w : World σ) :
    send c f w = ⟨.returned ((f w.backend).outcome, (f w.backend).meanwhile),
      { w with backend := (f w.backend).next }, [.seen (.call c)]⟩ := rfl

@[simp] theorem caught_run (x : Action σ α) (w : World σ) :
    caught x w = ⟨.returned (x w).ending, (x w).world, (x w).history⟩ := rfl

end Action

end Gatehouse
