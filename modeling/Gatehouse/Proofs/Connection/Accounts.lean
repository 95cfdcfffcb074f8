import Gatehouse.Proofs.Connection.Alike
import Gatehouse.Proofs.Connection.Queries

/-!
# What calls account for

A statement that reaches the backend moves the world in two ways. The backend goes on to its next
state, and others may have connected and disconnected in the meantime. The world behind some calls
is therefore known from the backend alone (`Connection.behind`), and so are the panics over them
(`Backend.payloads`). Statements do nothing else to a world, and panic only with the backend
(`Action.Accounted`): whatever sends them leaves the world that its calls leave, and ends by a panic
where the last of its calls does.
-/

namespace Gatehouse

variable {σ α β : Type}

/-! ## Calls -/

/-- The link behind what somebody did to it, over a target. -/
def Transition.apply (target : String) (l : Link) : Transition → Link
  | .connect => (l.connect target).toOption.getD l
  | .disconnect => l.disconnect

/-- The payload of a panic. -/
def Outcome.payload? : Outcome α → Option String
  | .panic payload => some payload
  | .answer _ | .failure _ => none

/-- The payload of a panic. -/
def Ending.payload? : Ending α → Option String
  | .panicked payload => some payload
  | .returned _ => none

theorem Outcome.payload?_ending (o : Outcome α) : o.ending.payload? = o.payload? := by
  cases o <;> rfl

/-- The payload of the panic by which a backend took a statement. -/
def Heard.payload? : Heard → Option String
  | .rows outcome _ => outcome.payload?
  | .count outcome _ => outcome.payload?

/-- What others did while a statement was pending. -/
def Heard.meanwhile : Heard → List Transition
  | .rows _ meanwhile | .count _ meanwhile => meanwhile

namespace Backend

/-- The payloads of the panics over some calls, in order. -/
def payloads (b : Backend σ) (s : σ) : List Call → List String
  | [] => []
  | call :: rest => (b.hear s call).1.payload?.toList ++ b.payloads (b.hear s call).2 rest

/-- What others do while some calls are pending, in order. -/
def others (b : Backend σ) (s : σ) : List Call → List Transition
  | [] => []
  | call :: rest => (b.hear s call).1.meanwhile ++ b.others (b.hear s call).2 rest

/-- The replies to a call say what the backend says to it. -/
structure Takes (b : Backend σ) (call : Call) (f : σ → Reply σ α) : Prop where
  payload : ∀ s, (b.hear s call).1.payload? = (f s).outcome.payload?
  meanwhile : ∀ s, (b.hear s call).1.meanwhile = (f s).meanwhile
  next : ∀ s, (b.hear s call).2 = (f s).next

variable (b : Backend σ)

theorem takes_fetch (sql : String) (params : List Json.Value) :
    b.Takes ⟨.fetch, sql, params⟩ (b.fetch · sql params) :=
  ⟨fun _ => rfl, fun _ => rfl, fun _ => rfl⟩

theorem takes_execute (sql : String) (params : List Json.Value) :
    b.Takes ⟨.execute, sql, params⟩ (b.execute · sql params) :=
  ⟨fun _ => rfl, fun _ => rfl, fun _ => rfl⟩

theorem after_append (s : σ) (calls more : List Call) :
    b.after s (calls ++ more) = b.after (b.after s calls) more :=
  List.foldl_append

theorem payloads_append (s : σ) (calls more : List Call) :
    b.payloads s (calls ++ more) = b.payloads s calls ++ b.payloads (b.after s calls) more := by
  induction calls generalizing s with
  | nil => rfl
  | cons call calls ih =>
    rw [List.cons_append, payloads, ih, ← List.append_assoc]
    rfl

theorem others_append (s : σ) (calls more : List Call) :
    b.others s (calls ++ more) = b.others s calls ++ b.others (b.after s calls) more := by
  induction calls generalizing s with
  | nil => rfl
  | cons call calls ih =>
    rw [List.cons_append, others, ih, ← List.append_assoc]
    rfl

end Backend

namespace Connection

variable (c : Connection σ)

/-- The world behind some calls. -/
def behind (w : World σ) (calls : List Call) : World σ :=
  ⟨(c.backend.others w.backend calls).foldl (Transition.apply c.target) w.link,
    c.backend.after w.backend calls⟩

theorem behind_append (w : World σ) (calls more : List Call) :
    c.behind w (calls ++ more) = c.behind (c.behind w calls) more := by
  unfold behind
  rw [Backend.others_append, Backend.after_append, List.foldl_append]

/-- Where nobody else acts, the link stays as it is. -/
theorem behind_of_alone {w : World σ} {calls : List Call}
    (halone : c.backend.others w.backend calls = []) :
    c.behind w calls = ⟨w.link, c.backend.after w.backend calls⟩ := by
  unfold behind
  rw [halone]
  rfl

end Connection

/-! ## Actions -/

namespace Action

/-- The calls of an action account for the world behind it and for the panic by which it ends, if it
ends by one. -/
structure Accounted (c : Connection σ) (x : Action σ α) : Prop where
  world : ∀ w, (x w).world = c.behind w (x w).calls
  panics : ∀ w, c.backend.payloads w.backend (x w).calls = (x w).ending.payload?.toList

namespace Accounted

variable {c : Connection σ}

theorem pure (a : α) : Accounted c (Pure.pure a : Action σ α) :=
  ⟨fun _ => rfl, fun _ => rfl⟩

theorem link : Accounted c (Action.link : Action σ Link) :=
  ⟨fun _ => rfl, fun _ => rfl⟩

theorem report (e : Event) : Accounted c (Action.report e : Action σ Unit) :=
  ⟨fun _ => rfl, fun _ => rfl⟩

/-- What goes on after some calls has its own calls accounted for from the world behind them. -/
theorem bind {x : Action σ α} {f : α → Action σ β} (hx : Accounted c x)
    (hf : ∀ a, Accounted c (f a)) : Accounted c (x >>= f) := by
  have hboth : ∀ w, ((x >>= f) w).world = c.behind w ((x >>= f) w).calls ∧
      c.backend.payloads w.backend ((x >>= f) w).calls =
        ((x >>= f) w).ending.payload?.toList := by
    intro w
    have hworld := hx.world w
    have hpanics := hx.panics w
    rcases hrun : x w with ⟨ending, v, t⟩
    rw [hrun] at hworld hpanics
    cases ending with
    | returned a =>
      have hv : v = c.behind w (callsIn t) := hworld
      have hquiet : c.backend.payloads w.backend (callsIn t) = [] := hpanics
      have hbackend : c.backend.after w.backend (callsIn t) = v.backend := by
        rw [hv]
        rfl
      rw [calls_bind_of_returned f hrun, bind_run_of_returned f hrun]
      constructor
      · rw [Connection.behind_append, ← hv]
        exact (hf a).world v
      · rw [Backend.payloads_append, hquiet, hbackend]
        exact (hf a).panics v
    | panicked p =>
      rw [bind_run_of_panicked f hrun]
      exact ⟨hworld, hpanics⟩
  exact ⟨fun w => (hboth w).1, fun w => (hboth w).2⟩

theorem ite {p : Prop} [Decidable p] {x y : Action σ α} (hx : Accounted c x)
    (hy : Accounted c y) : Accounted c (if p then x else y) := by
  by_cases hp : p
  · rw [if_pos hp]
    exact hx
  · rw [if_neg hp]
    exact hy

end Accounted

end Action

/-! ## Connections -/

namespace Connection

open Gatehouse.Action (Accounted)

variable (c : Connection σ)

theorem world_follow (ts : List Transition) (w : World σ) :
    (c.follow ts w).world = { w with link := ts.foldl (Transition.apply c.target) w.link } := by
  induction ts generalizing w with
  | nil => rfl
  | cons t ts ih =>
    cases t with
    | connect =>
      unfold follow
      cases hl : w.link.connect c.target with
      | error e =>
        have hrun : c.connect w = ⟨.returned (.error e), w, []⟩ := by rw [connect_run, hl]
        have hstay : Transition.apply c.target w.link .connect = w.link := by
          simp [Transition.apply, hl, Except.toOption]
        rw [Action.bind_run_of_returned _ hrun, List.foldl_cons, hstay]
        exact ih w
      | ok l =>
        have hending : (c.connect w).ending = .returned (.ok ()) := by rw [connect_run, hl]
        have hworld : (c.connect w).world = { w with link := l } := by rw [connect_run, hl]
        have hmove : Transition.apply c.target w.link .connect = l := by
          simp [Transition.apply, hl, Except.toOption]
        rw [Action.bind_run_of_ending _ hending, List.foldl_cons, hmove, hworld]
        exact ih { w with link := l }
    | disconnect =>
      unfold follow
      rw [Action.bind_run_of_returned _ (c.disconnect_run w)]
      exact ih { w with link := w.link.disconnect }

/-- The world behind a statement that is handed over: what others did in the meantime has been done
whatever the outcome. -/
theorem world_deliver (call : Call) (f : σ → Reply σ α) (w : World σ) :
    (c.deliver call f w).world =
      ⟨(f w.backend).meanwhile.foldl (Transition.apply c.target) w.link, (f w.backend).next⟩ := by
  unfold deliver
  rw [Action.bind_run_of_returned _ (Action.send_run call f w)]
  dsimp only
  obtain ⟨u, hending, -⟩ := (c.ends_follow (f w.backend).meanwhile).exists_returned
    ⟨w.link, (f w.backend).next⟩
  rw [Action.bind_run_of_ending _ hending, ← c.world_follow _ ⟨w.link, (f w.backend).next⟩]
  cases (f w.backend).outcome <;> rfl

theorem accounted_submit {call : Call} {f : σ → Reply σ α} (hf : c.backend.Takes call f) :
    Accounted c (c.submit call f) := by
  have hdeliver : Accounted c (c.deliver call f) := by
    constructor
    · intro w
      rw [c.world_deliver, c.calls_deliver, ← hf.meanwhile, ← hf.next]
      unfold behind
      rw [Backend.others, Backend.others, List.append_nil]
      rfl
    · intro w
      rw [c.calls_deliver, c.ending_deliver, Outcome.payload?_ending, ← hf.payload,
        Backend.payloads, Backend.payloads, List.append_nil]
  exact .ite ((Accounted.report _).bind fun _ => hdeliver) hdeliver

theorem accounted_query (sql : String) (params : List Json.Value) :
    Accounted c (c.query sql params) :=
  Accounted.link.bind fun _ => .ite (.pure _)
    (.ite (.pure _) (c.accounted_submit (c.backend.takes_fetch sql params)))

theorem accounted_execute (sql : String) (params : List Json.Value) :
    Accounted c (c.execute sql params) :=
  Accounted.link.bind fun _ => .ite (.pure _)
    (c.accounted_submit (c.backend.takes_execute sql params))

theorem accounted_executeWithin (sql : String) (params : List Json.Value) (left : Nat) :
    Accounted c (c.executeWithin sql params left) := by
  induction left with
  | zero => exact c.accounted_execute sql params
  | succ left ih =>
    refine (c.accounted_execute sql params).bind fun result => ?_
    split
    · exact (Accounted.report _).bind fun _ => ih
    · exact .pure _

end Connection

end Gatehouse
