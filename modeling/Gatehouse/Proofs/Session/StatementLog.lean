import Gatehouse.Proofs.Connection.Announced
import Gatehouse.Proofs.Session.Ledger

/-!
# The log of statements

Whether a connection reports its statements is read in one place only, where a statement is
submitted. Here the two actions over a connection that does and one that does not are followed
through requests and sessions, one law for each action. Over a whole run the reported statements are
those that reach the backend, each right before it gets there; nothing else of the run depends on
the setting (`Session.statement_log`).
-/

namespace Gatehouse

variable {σ : Type}

open Gatehouse.Action (Announces)

/-! ## Requests -/

namespace Handler

variable (c : Connection σ)

theorem announces_failed (e : Connection.Fault) :
    Announces (failed e : Action σ Problem) (failed e) := by
  refine (Announces.report ?_).bind fun _ => .pure _
  cases e <;> rfl

theorem announces_showUser (id : String) :
    Announces (showUser (c.reporting true) id) (showUser (c.reporting false) id) := by
  refine (c.announces_query _ _).bind fun result => ?_
  split
  · exact (announces_failed _).bind fun _ => .pure _
  · exact .pure _
  · exact .pure _

theorem announces_addUser (r : Request) :
    Announces (addUser (c.reporting true) r) (addUser (c.reporting false) r) := by
  unfold addUser
  split
  · exact .pure _
  · split
    · exact (Announces.report rfl).bind fun _ => .pure _
    · refine (c.announces_executeRetrying _ _).bind fun result => ?_
      split
      · exact (announces_failed _).bind fun _ => .pure _
      · exact .pure _

theorem announces_follow (route : Route) (claims : Claims) (r : Request) :
    Announces (follow (c.reporting true) route claims r)
      (follow (c.reporting false) route claims r) := by
  cases route with
  | health => exact .pure _
  | getUser => exact announces_showUser c claims.sub
  | createUser => exact announces_addUser c r

theorem announces_answer (claims : Claims) (r : Request) :
    Announces (answer (c.reporting true) claims r) (answer (c.reporting false) claims r) := by
  unfold answer
  split
  · exact (Announces.report rfl).bind fun _ => .pure _
  · next route _ =>
    refine (announces_follow c route claims r).caught.bind fun ending => ?_
    split
    · exact .pure _
    · exact .pure _
    · exact (Announces.report rfl).bind fun _ => .pure _

theorem announces_respond (gate : Gate) (r : Request) :
    Announces (respond ⟨gate, c.reporting true⟩ r) (respond ⟨gate, c.reporting false⟩ r) := by
  refine (Announces.ofEnding (gate.judge r)).bind fun verdict => ?_
  cases verdict with
  | error e => exact (Announces.report rfl).bind fun _ => .pure _
  | ok claims => exact announces_answer c claims r

end Handler

theorem Http.announces_serve (c : Connection σ) (gate : Gate) (limit : UInt64)
    (r : Http.Request) :
    Announces (Http.serve ⟨gate, c.reporting true⟩ limit r)
      (Http.serve ⟨gate, c.reporting false⟩ limit r) :=
  .ite (.pure _) (.ite ((Announces.report rfl).bind fun _ => .pure _)
    ((Handler.announces_respond c gate _).bind fun _ => .pure _))

/-! ## Steps -/

namespace Session

theorem announces_operate (c : Connection σ) (guarded : Bool) (op : Operation) :
    Announces (operate (c.reporting true) guarded op) (operate (c.reporting false) guarded op) := by
  cases op with
  | connect => exact c.announces_connect.bind fun _ => .pure _
  | disconnect => exact c.announces_disconnect.bind fun _ => .pure _
  | query sql params => exact (c.announces_query sql params).bind fun _ => .pure _
  | execute sql params => exact (c.announces_execute sql params).bind fun _ => .pure _
  | executeRetrying sql params =>
    exact (c.announces_executeRetrying sql params).bind fun _ => .pure _
  | describe => exact Announces.link.bind fun _ => .pure _
  | isConnected => exact Announces.link.bind fun _ => .pure _

theorem announces_perform (c : Connection σ) (guards : List String) (st : Step) :
    Announces (perform (c.reporting true) guards st) (perform (c.reporting false) guards st) := by
  cases st with
  | operate guard op =>
    cases guard with
    | none => exact (announces_operate c false op).bind fun _ => .pure _
    | some name => exact .ite ((announces_operate c true op).bind fun _ => .pure _) (.pure _)
  | openGuard name =>
    refine .ite (.pure _) (c.announces_connect.bind fun result => ?_)
    split
    · exact .pure _
    · exact .pure _
  | endGuard name how => exact .ite (c.announces_disconnect.bind fun _ => .pure _) (.pure _)
  | respond gate r => exact (Handler.announces_respond c gate r).bind fun _ => .pure _
  | serve gate limit r => exact (Http.announces_serve c gate limit r).bind fun _ => .pure _

/-- The session with its statements reported or not. -/
def reporting (s : Session σ) (logs : Bool) : Session σ :=
  { s with connection := s.connection.reporting logs }

theorem reporting_of_logsStatements {s : Session σ} {logs : Bool}
    (h : s.connection.logsStatements = logs) : s.reporting logs = s := by
  subst h
  rfl

/-- The entry of a step with its statements announced. -/
def Entry.announced (e : Entry) : Entry :=
  { e with history := Gatehouse.announced e.history }

/-- The entry of a step without its announcements. -/
def Entry.unannounced (e : Entry) : Entry :=
  { e with history := Gatehouse.unannounced e.history }

theorem Entry.unannounced_announced {e : Entry} (hquiet : announcementsIn e.history = []) :
    e.announced.unannounced = e :=
  congrArg (fun h => { e with history := h }) (Gatehouse.unannounced_announced hquiet)

/-- A step of a session that reports its statements, beside the same step of one that does not. -/
theorem step_reporting (s : Session σ) (st : Step) :
    (s.reporting true).step st =
        (((s.reporting false).step st).1.reporting true,
          ((s.reporting false).step st).2.announced) ∧
      announcementsIn ((s.reporting false).step st).2.history = [] := by
  have hstep := announces_perform s.connection s.guards st
  have hrun := hstep.run s.world
  have hquiet := hstep.quiet s.world
  unfold step
  dsimp only [reporting] at hrun ⊢
  rw [hrun]
  cases hending : (perform (s.connection.reporting false) s.guards st s.world).ending with
  | returned a => exact ⟨rfl, hquiet⟩
  | panicked p => exact ⟨rfl, hquiet⟩

/-! ## Runs -/

/-- Both runs go on from the same world and the same guards at every step. -/
theorem run_reporting (s : Session σ) (steps : List Step) :
    (s.reporting true).run steps =
        (((s.reporting false).run steps).1.reporting true,
          ((s.reporting false).run steps).2.map Entry.announced) ∧
      ∀ e ∈ ((s.reporting false).run steps).2, announcementsIn e.history = [] := by
  induction steps generalizing s with
  | nil => exact ⟨rfl, fun e he => nomatch he⟩
  | cons st rest ih =>
    obtain ⟨hstep, hquiet⟩ := s.step_reporting st
    have hstill : (((s.reporting false).step st).1).reporting false =
        ((s.reporting false).step st).1 :=
      reporting_of_logsStatements (by rw [step_connection]; rfl)
    obtain ⟨hrun, hrest⟩ := ih ((s.reporting false).step st).1
    rw [hstill] at hrun hrest
    rw [run_cons, run_cons, hstep, hrun]
    refine ⟨rfl, ?_⟩
    intro e he
    obtain rfl | he := List.mem_cons.mp he
    · exact hquiet
    · exact hrest e he

theorem history_reporting (s : Session σ) (steps : List Step) :
    (s.reporting true).history steps = announced ((s.reporting false).history steps) ∧
      announcementsIn ((s.reporting false).history steps) = [] := by
  obtain ⟨hrun, hquiet⟩ := s.run_reporting steps
  constructor
  · rw [history, hrun, history, announced, List.flatMap_assoc, List.flatMap_map]
    rfl
  · rw [history, announcementsIn, List.filterMap_flatMap]
    exact List.flatMap_eq_nil_iff.mpr hquiet

/-! ## Main statement -/

/-- The log of statements is complete, and nothing depends on it. With statements reported, what a
run announces is what reaches the backend, statement by statement and try by try, and each
announcement stands right before its statement. Without, nothing is announced. But for the
announcements the two runs are one: step by step they have the same endings, links, events and
calls, and in the end the same world and the same guards. -/
theorem statement_log (s : Session σ) (steps : List Step) :
    let loud := s.reporting true
    let still := s.reporting false
    announcementsIn (loud.history steps) =
      (callsIn (loud.history steps)).map Call.announcement ∧
    announcementsIn (still.history steps) = [] ∧
    loud.history steps = announced (still.history steps) ∧
    callsIn (loud.history steps) = callsIn (still.history steps) ∧
    (loud.run steps).2.map Entry.unannounced = (still.run steps).2 ∧
    (loud.run steps).1 = (still.run steps).1.reporting true := by
  intro loud still
  obtain ⟨hhistory, hquiet⟩ := s.history_reporting steps
  obtain ⟨hrun, hquiets⟩ := s.run_reporting steps
  have hcalls : callsIn (loud.history steps) = callsIn (still.history steps) := by
    rw [hhistory, callsIn_announced]
  refine ⟨?_, hquiet, hhistory, hcalls, ?_, congrArg Prod.fst hrun⟩
  · rw [hcalls, hhistory, announcementsIn_announced hquiet]
  · rw [hrun, List.map_map]
    calc ((still.run steps).2.map (Entry.unannounced ∘ Entry.announced))
        = (still.run steps).2.map id :=
          List.map_congr_left fun e he => Entry.unannounced_announced (hquiets e he)
      _ = (still.run steps).2 := List.map_id _

end Session

end Gatehouse
