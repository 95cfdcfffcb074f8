import Gatehouse.Connection.Statement
import Gatehouse.Proofs.Connection.Queries

/-!
# Statements and their announcements

A connection that reports its statements announces each of them by an event of its own, right
before the statement reaches the backend. `announced` puts these events into a history. What an
action does over a reporting connection is what it does over one that does not report, with the
announcements put in, and without them nothing is announced (`Action.Announces`). The two actions
run side by side, so that they have the same endings and leave the same world.
-/

namespace Gatehouse

variable {σ α β : Type}

/-- The message of the event that announces a statement. -/
def CallKind.announcement : CallKind → String
  | .fetch => "Executing query"
  | .execute => "Executing statement"

/-- The event that announces a statement, with the text of the statement. -/
def Call.announcement (call : Call) : Event :=
  ⟨.debug, call.kind.announcement, [("sql", call.sql)]⟩

/-- Whether an event announces a statement, by its level and its message. -/
def Event.isAnnouncement (e : Event) : Bool :=
  e.level == .debug &&
    (e.message == CallKind.fetch.announcement || e.message == CallKind.execute.announcement)

/-- The announcement that is made in a moment. -/
def Moment.announcement? : Moment → Option Event
  | .seen (.event e) => if e.isAnnouncement then some e else none
  | .seen (.call _) | .moved _ => none

/-- The announcements in a history. -/
def announcementsIn (history : List Moment) : List Event :=
  history.filterMap Moment.announcement?

/-- A history without its announcements. -/
def unannounced (history : List Moment) : List Moment :=
  history.filter fun m => m.announcement?.isNone

/-- A moment, behind an announcement if it is a statement. -/
def Moment.announced (m : Moment) : List Moment :=
  match m.call? with
  | some call => [.seen (.event call.announcement), m]
  | none => [m]

/-- A history in which every statement is announced. -/
def announced (history : List Moment) : List Moment :=
  history.flatMap Moment.announced

/-! ## Histories -/

theorem announcementsIn_append (s t : List Moment) :
    announcementsIn (s ++ t) = announcementsIn s ++ announcementsIn t :=
  List.filterMap_append

theorem unannounced_append (s t : List Moment) :
    unannounced (s ++ t) = unannounced s ++ unannounced t :=
  List.filter_append s t

theorem announced_append (s t : List Moment) : announced (s ++ t) = announced s ++ announced t :=
  List.flatMap_append

theorem announced_cons (m : Moment) (t : List Moment) :
    announced (m :: t) = m.announced ++ announced t :=
  rfl

theorem Call.isAnnouncement_announcement (call : Call) :
    call.announcement.isAnnouncement = true := by
  obtain ⟨kind, sql, params⟩ := call
  cases kind <;> rfl

theorem callsIn_announced (h : List Moment) : callsIn (announced h) = callsIn h := by
  induction h with
  | nil => rfl
  | cons m h ih =>
    rw [announced_cons, callsIn_append, ih]
    rcases m with ⟨e | call⟩ | l <;> rfl

theorem announcementsIn_cons_eq_nil_iff {m : Moment} {t : List Moment} :
    announcementsIn (m :: t) = [] ↔ m.announcement? = none ∧ announcementsIn t = [] := by
  simp [announcementsIn, List.filterMap_eq_nil_iff]

section Quiet

variable {h : List Moment} (hquiet : announcementsIn h = [])

include hquiet

/-- Where nothing is announced before, the announcements that are put in are those of the
statements, in their order. -/
theorem announcementsIn_announced :
    announcementsIn (announced h) = (callsIn h).map Call.announcement := by
  induction h with
  | nil => rfl
  | cons m h ih =>
    obtain ⟨hm, hrest⟩ := announcementsIn_cons_eq_nil_iff.mp hquiet
    rw [announced_cons, announcementsIn_append, ih hrest]
    rcases m with ⟨e | call⟩ | l
    · have hevent : announcementsIn (Moment.seen (.event e)).announced = [] :=
        announcementsIn_cons_eq_nil_iff.mpr ⟨hm, rfl⟩
      rw [hevent]
      rfl
    · have hcall : announcementsIn (Moment.seen (.call call)).announced = [call.announcement] := by
        simp [announcementsIn, Moment.announced, Moment.call?, Moment.announcement?,
          call.isAnnouncement_announcement]
      rw [hcall]
      rfl
    · rfl

theorem unannounced_announced : unannounced (announced h) = h := by
  induction h with
  | nil => rfl
  | cons m h ih =>
    obtain ⟨hm, hrest⟩ := announcementsIn_cons_eq_nil_iff.mp hquiet
    have hself : unannounced m.announced = [m] := by
      rcases m with ⟨e | call⟩ | l
      · simp [unannounced, Moment.announced, Moment.call?, hm]
      · simp [unannounced, Moment.announced, Moment.call?, Moment.announcement?,
          call.isAnnouncement_announcement]
      · rfl
    rw [announced_cons, unannounced_append, hself, ih hrest]
    rfl

end Quiet

/-! ## Actions -/

namespace Action

theorem report_bind_assoc (e : Event) (x : Action σ α) (f : α → Action σ β) :
    (report e >>= fun _ => x) >>= f = report e >>= fun _ => x >>= f := by
  funext w
  rw [bind_run_of_returned _ (report_run e w)]
  rcases hx : x w with ⟨ending, v, t⟩
  have hboth : (report e >>= fun _ => x) w = ⟨ending, v, .seen (.event e) :: t⟩ := by
    rw [bind_run_of_returned _ (report_run e w), hx]
    rfl
  cases ending with
  | returned a => rw [bind_run_of_returned f hboth, bind_run_of_returned f hx]; rfl
  | panicked p => rw [bind_run_of_panicked f hboth, bind_run_of_panicked f hx]; rfl

/-- One action runs like another, but that it announces the statements; the other announces
nothing. -/
structure Announces (x y : Action σ α) : Prop where
  run : ∀ w, x w = ⟨(y w).ending, (y w).world, announced (y w).history⟩
  quiet : ∀ w, announcementsIn (y w).history = []

namespace Announces

theorem pure (a : α) : Announces (Pure.pure a : Action σ α) (Pure.pure a) :=
  ⟨fun _ => rfl, fun _ => rfl⟩

theorem link : Announces (Action.link : Action σ Link) Action.link :=
  ⟨fun _ => rfl, fun _ => rfl⟩

theorem setLink (l : Link) : Announces (Action.setLink l : Action σ Unit) (Action.setLink l) :=
  ⟨fun _ => rfl, fun _ => rfl⟩

theorem panic (payload : String) :
    Announces (Action.panic payload : Action σ α) (Action.panic payload) :=
  ⟨fun _ => rfl, fun _ => rfl⟩

theorem report {e : Event} (he : e.isAnnouncement = false) :
    Announces (Action.report e : Action σ Unit) (Action.report e) := by
  refine ⟨fun _ => rfl, fun _ => ?_⟩
  simp [announcementsIn, Moment.announcement?, he]

theorem ofEnding (e : Ending α) :
    Announces (Action.ofEnding e : Action σ α) (Action.ofEnding e) := by
  cases e with
  | returned a => exact Announces.pure a
  | panicked p => exact Announces.panic p

theorem bind {x y : Action σ α} {f g : α → Action σ β} (hx : Announces x y)
    (hf : ∀ a, Announces (f a) (g a)) : Announces (x >>= f) (y >>= g) := by
  have hboth : ∀ w, (x >>= f) w = ⟨((y >>= g) w).ending, ((y >>= g) w).world,
      announced ((y >>= g) w).history⟩ ∧ announcementsIn ((y >>= g) w).history = [] := by
    intro w
    have hrun := hx.run w
    have hquiet := hx.quiet w
    rcases hy : y w with ⟨ending, v, t⟩
    rw [hy] at hrun hquiet
    cases ending with
    | returned a =>
      rw [bind_run_of_returned f hrun, bind_run_of_returned g hy, (hf a).run v]
      refine ⟨by rw [announced_append], ?_⟩
      rw [announcementsIn_append, hquiet, (hf a).quiet v, List.append_nil]
    | panicked p =>
      rw [bind_run_of_panicked f hrun, bind_run_of_panicked g hy]
      exact ⟨rfl, hquiet⟩
  exact ⟨fun w => (hboth w).1, fun w => (hboth w).2⟩

theorem caught {x y : Action σ α} (hx : Announces x y) :
    Announces (Action.caught x) (Action.caught y) := by
  refine ⟨fun w => ?_, hx.quiet⟩
  rw [caught_run, hx.run w]
  rfl

theorem ite {p : Prop} [Decidable p] {x y x' y' : Action σ α} (hx : Announces x y)
    (hx' : Announces x' y') : Announces (if p then x else x') (if p then y else y') := by
  by_cases hp : p
  · rw [if_pos hp, if_pos hp]
    exact hx
  · rw [if_neg hp, if_neg hp]
    exact hx'

end Announces

end Action

/-! ## Connections -/

namespace Connection

open Gatehouse.Action (Announces)

/-- The connection with its statements reported or not. -/
def reporting (c : Connection σ) (logs : Bool) : Connection σ :=
  { c with logsStatements := logs }

variable (c : Connection σ)

theorem announces_connect : Announces c.connect c.connect := by
  refine Announces.link.bind fun before => ?_
  split
  · exact .pure _
  · refine (Announces.setLink _).bind fun _ => ?_
    exact .ite ((Announces.report rfl).bind fun _ => .pure _) (.pure _)

theorem announces_disconnect : Announces c.disconnect c.disconnect :=
  Announces.link.bind fun _ => (Announces.setLink _).bind fun _ => .ite (.report rfl) (.pure _)

theorem announces_follow (ts : List Transition) : Announces (c.follow ts) (c.follow ts) := by
  induction ts with
  | nil => exact .pure ()
  | cons t ts ih =>
    cases t with
    | connect => exact c.announces_connect.bind fun _ => ih
    | disconnect => exact c.announces_disconnect.bind fun _ => ih

theorem follow_reporting (logs : Bool) (ts : List Transition) :
    (c.reporting logs).follow ts = c.follow ts := by
  induction ts with
  | nil => rfl
  | cons t ts ih =>
    cases t with
    | connect => simp only [follow, ih]; rfl
    | disconnect => simp only [follow, ih]; rfl

/-! ### Statements -/

/-- A statement that is announced before it is sent, beside one that is just sent. -/
theorem announces_send (call : Call) (f : σ → Reply σ α) :
    Announces (Action.report call.announcement >>= fun _ => Action.send call f)
      (Action.send call f) :=
  ⟨fun _ => rfl, fun _ => rfl⟩

theorem statementEvent_eq (call : Call) : statementEvent call = call.announcement := by
  obtain ⟨kind, sql, params⟩ := call
  cases kind <;> rfl

/-- What comes after a reply: what others did in the meantime, and the outcome. -/
def settle (reply : Outcome α × List Transition) : Action σ (Except Fault α) :=
  c.follow reply.2 >>= fun _ => Action.ofEnding reply.1.ending

theorem deliver_eq (call : Call) (f : σ → Reply σ α) :
    c.deliver call f = Action.send call f >>= c.settle := by
  unfold deliver
  refine congrArg (Action.send call f >>= ·) (funext fun reply => ?_)
  obtain ⟨outcome, meanwhile⟩ := reply
  cases outcome <;> rfl

theorem announces_settle (reply : Outcome α × List Transition) :
    Announces ((c.reporting true).settle reply) ((c.reporting false).settle reply) := by
  unfold settle
  rw [c.follow_reporting, c.follow_reporting]
  exact (c.announces_follow reply.2).bind fun _ => .ofEnding _

/-- The one place where the setting is read. -/
theorem announces_submit (call : Call) (f : σ → Reply σ α) :
    Announces ((c.reporting true).submit call f) ((c.reporting false).submit call f) := by
  have hdeliver := (announces_send call f).bind c.announces_settle
  rw [Action.report_bind_assoc, ← deliver_eq, ← deliver_eq, ← statementEvent_eq] at hdeliver
  exact hdeliver

theorem announces_query (sql : String) (params : List Json.Value) :
    Announces ((c.reporting true).query sql params) ((c.reporting false).query sql params) :=
  Announces.link.bind fun _ => .ite (.pure _) (.ite (.pure _) (c.announces_submit _ _))

theorem announces_execute (sql : String) (params : List Json.Value) :
    Announces ((c.reporting true).execute sql params) ((c.reporting false).execute sql params) :=
  Announces.link.bind fun _ => .ite (.pure _) (c.announces_submit _ _)

/-- Every try is a statement of its own, and is announced as one. -/
theorem announces_executeWithin (sql : String) (params : List Json.Value) (left : Nat) :
    Announces ((c.reporting true).executeWithin sql params left)
      ((c.reporting false).executeWithin sql params left) := by
  induction left with
  | zero => exact c.announces_execute sql params
  | succ left ih =>
    refine (c.announces_execute sql params).bind fun result => ?_
    split
    · exact (Announces.report rfl).bind fun _ => ih
    · exact .pure _

theorem announces_executeRetrying (sql : String) (params : List Json.Value) :
    Announces ((c.reporting true).executeRetrying sql params)
      ((c.reporting false).executeRetrying sql params) :=
  c.announces_executeWithin sql params c.maxRetries.toNat

end Connection

end Gatehouse
