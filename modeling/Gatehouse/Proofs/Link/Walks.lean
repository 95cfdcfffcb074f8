import Gatehouse.Session
import Gatehouse.Proofs.Link.Ledger

/-!
# Actions that walk

An action walks when, from every world, its history is a walk of the link and leads to the link
that the action leaves behind (`Action.Walks`). The actions of the library are built from steps
that walk by combinations that keep it, so each of them walks: connecting, disconnecting, the
statements with whatever others do meanwhile, the answer to a request, and every step of a session
(`Session.walks_perform`).
-/

namespace Gatehouse

variable {σ α β : Type}

namespace Action

/-- Whether an action changes the link by moves only, and tells each of them. -/
def Walks (x : Action σ α) : Prop :=
  ∀ w, w.link.Walk (x w).history ∧ (x w).world.link = w.link.after (x w).history

namespace Walks

theorem pure (a : α) : Walks (Pure.pure a : Action σ α) :=
  fun _ => ⟨trivial, rfl⟩

theorem link : Walks (Action.link : Action σ Link) :=
  fun _ => ⟨trivial, rfl⟩

theorem report (e : Event) : Walks (Action.report e : Action σ Unit) :=
  fun _ => ⟨trivial, rfl⟩

theorem send (c : Call) (f : σ → Reply σ α) : Walks (Action.send c f) :=
  fun _ => ⟨trivial, rfl⟩

theorem panic (payload : String) : Walks (Action.panic payload : Action σ α) :=
  fun _ => ⟨trivial, rfl⟩

theorem ofEnding (e : Ending α) : Walks (Action.ofEnding e : Action σ α) := by
  cases e with
  | returned a => exact Walks.pure a
  | panicked p => exact Walks.panic p

theorem caught {x : Action σ α} (hx : Walks x) : Walks (Action.caught x) :=
  fun w => hx w

/-- What follows a walk walks on from where it leads. -/
theorem bind {x : Action σ α} {f : α → Action σ β} (hx : Walks x) (hf : ∀ a, Walks (f a)) :
    Walks (x >>= f) := by
  intro w
  obtain ⟨hwalk, hafter⟩ := hx w
  rcases hrun : x w with ⟨ending, v, t⟩
  rw [hrun] at hwalk hafter
  cases ending with
  | returned a =>
    obtain ⟨hwalk', hafter'⟩ := hf a v
    have hv : v.link = w.link.after t := hafter
    rw [Action.bind_run_of_returned f hrun]
    rw [hv] at hwalk' hafter'
    exact ⟨Link.walk_append.mpr ⟨hwalk, hwalk'⟩, by rw [Link.after_append]; exact hafter'⟩
  | panicked p =>
    rw [Action.bind_run_of_panicked f hrun]
    exact ⟨hwalk, hafter⟩

theorem ite {p : Prop} [Decidable p] {x y : Action σ α} (hx : Walks x) (hy : Walks y) :
    Walks (if p then x else y) := by
  split
  · exact hx
  · exact hy

end Walks

end Action

open Gatehouse.Action (Walks)

/-! ## Lifecycle -/

namespace Connection

/-- The run of connecting, by its outcome on the link. -/
theorem connect_run (c : Connection σ) (w : World σ) :
    c.connect w = match w.link.connect c.target with
      | .error e => ⟨.returned (.error e), w, []⟩
      | .ok l => ⟨.returned (.ok ()), { w with link := l },
          .moved l :: if w.link.connected then [] else [.seen (.event c.connectedEvent)]⟩ := by
  cases hl : w.link.connect c.target with
  | error e => simp [connect, bind, Action.andThen, hl]
  | ok l => cases hc : w.link.connected <;> simp [connect, bind, Action.andThen, hl, hc]

/-- The run of disconnecting. -/
theorem disconnect_run (c : Connection σ) (w : World σ) :
    c.disconnect w = ⟨.returned (), { w with link := w.link.disconnect },
      .moved w.link.disconnect ::
        if w.link.connected then [.seen (.event disconnectedEvent)] else []⟩ := by
  cases hc : w.link.connected <;> simp [disconnect, bind, Action.andThen, hc]

theorem walks_connect (c : Connection σ) : Walks c.connect := by
  intro w
  rw [connect_run]
  cases hl : w.link.connect c.target with
  | error e => exact ⟨trivial, rfl⟩
  | ok l =>
    have hmove := Link.move_connect hl
    cases w.link.connected <;> exact ⟨⟨hmove, trivial⟩, rfl⟩

theorem walks_disconnect (c : Connection σ) : Walks c.disconnect := by
  intro w
  rw [disconnect_run]
  have hmove := Link.move_disconnect w.link
  cases w.link.connected <;> exact ⟨⟨hmove, trivial⟩, rfl⟩

theorem walks_follow (c : Connection σ) (ts : List Transition) : Walks (c.follow ts) := by
  induction ts with
  | nil => exact Walks.pure ()
  | cons t ts ih =>
    cases t with
    | connect => exact c.walks_connect.bind fun _ => ih
    | disconnect => exact c.walks_disconnect.bind fun _ => ih

/-! ## Statements -/

theorem walks_deliver (c : Connection σ) (call : Call) (f : σ → Reply σ α) :
    Walks (c.deliver call f) := by
  refine (Walks.send call f).bind fun reply => ?_
  refine (c.walks_follow reply.2).bind fun _ => ?_
  cases reply.1 with
  | answer a => exact Walks.pure _
  | failure e => exact Walks.pure _
  | panic payload => exact Walks.panic payload

theorem walks_submit (c : Connection σ) (call : Call) (f : σ → Reply σ α) :
    Walks (c.submit call f) :=
  .ite ((Walks.report _).bind fun _ => c.walks_deliver call f) (c.walks_deliver call f)

theorem walks_query (c : Connection σ) (sql : String) (params : List Json.Value) :
    Walks (c.query sql params) :=
  Walks.link.bind fun _ => .ite (.pure _) (.ite (.pure _) (c.walks_submit _ _))

theorem walks_execute (c : Connection σ) (sql : String) (params : List Json.Value) :
    Walks (c.execute sql params) :=
  Walks.link.bind fun _ => .ite (.pure _) (c.walks_submit _ _)

theorem walks_executeWithin (c : Connection σ) (sql : String) (params : List Json.Value)
    (n : Nat) : Walks (c.executeWithin sql params n) := by
  induction n with
  | zero => exact c.walks_execute sql params
  | succ n ih =>
    refine (c.walks_execute sql params).bind fun result => ?_
    split
    · exact (Walks.report _).bind fun _ => ih
    · exact Walks.pure _

theorem walks_executeRetrying (c : Connection σ) (sql : String) (params : List Json.Value) :
    Walks (c.executeRetrying sql params) :=
  c.walks_executeWithin sql params _

end Connection

/-! ## Requests -/

namespace Handler

theorem walks_failed (e : Connection.Fault) : Walks (failed e : Action σ Problem) :=
  (Walks.report _).bind fun _ => .pure _

theorem walks_follow (c : Connection σ) (route : Route) (claims : Claims) (r : Request) :
    Walks (follow c route claims r) := by
  cases route with
  | health => exact Walks.pure _
  | getUser =>
    refine (c.walks_query _ _).bind fun result => ?_
    split
    · exact (walks_failed _).bind fun _ => .pure _
    · exact Walks.pure _
    · exact Walks.pure _
  | createUser =>
    simp only [follow, addUser]
    split
    · exact Walks.pure _
    · split
      · exact (Walks.report _).bind fun _ => .pure _
      · refine (c.walks_executeRetrying _ _).bind fun result => ?_
        split
        · exact (walks_failed _).bind fun _ => .pure _
        · exact Walks.pure _

theorem walks_answer (c : Connection σ) (claims : Claims) (r : Request) :
    Walks (answer c claims r) := by
  unfold answer
  split
  · exact (Walks.report _).bind fun _ => .pure _
  · refine (walks_follow c _ claims r).caught.bind fun ending => ?_
    split
    · exact Walks.pure _
    · exact Walks.pure _
    · exact (Walks.report _).bind fun _ => .pure _

theorem walks_respond (h : Handler σ) (r : Request) : Walks (h.respond r) := by
  refine (Walks.ofEnding _).bind fun verdict => ?_
  split
  · exact (Walks.report _).bind fun _ => .pure _
  · exact walks_answer h.connection _ r

end Handler

theorem Http.walks_serve (h : Handler σ) (limit : UInt64) (r : Http.Request) :
    Walks (Http.serve h limit r) :=
  .ite (.pure _) (.ite ((Walks.report _).bind fun _ => .pure _)
    ((h.walks_respond _).bind fun _ => .pure _))

/-! ## Sessions -/

namespace Session

theorem walks_operate (c : Connection σ) (guarded : Bool) (op : Operation) :
    Walks (operate c guarded op) := by
  cases op with
  | connect => exact c.walks_connect.bind fun _ => .pure _
  | disconnect => exact c.walks_disconnect.bind fun _ => .pure _
  | query sql params => exact (c.walks_query sql params).bind fun _ => .pure _
  | execute sql params => exact (c.walks_execute sql params).bind fun _ => .pure _
  | executeRetrying sql params => exact (c.walks_executeRetrying sql params).bind fun _ => .pure _
  | describe => exact Walks.link.bind fun _ => .pure _
  | isConnected => exact Walks.link.bind fun _ => .pure _

theorem walks_perform (c : Connection σ) (guards : List String) (st : Step) :
    Walks (perform c guards st) := by
  cases st with
  | operate guard op =>
    cases guard with
    | none => exact (walks_operate c false op).bind fun _ => .pure _
    | some name => exact .ite ((walks_operate c true op).bind fun _ => .pure _) (.pure _)
  | openGuard name =>
    refine Walks.ite (.pure _) (c.walks_connect.bind fun result => ?_)
    split
    · exact Walks.pure _
    · exact Walks.pure _
  | endGuard name how => exact .ite (c.walks_disconnect.bind fun _ => .pure _) (.pure _)
  | respond gate r => exact (Handler.walks_respond ⟨gate, c⟩ r).bind fun _ => .pure _
  | serve gate limit r => exact (Http.walks_serve ⟨gate, c⟩ limit r).bind fun _ => .pure _

end Session

end Gatehouse
