import Gatehouse.Proofs.Connection.Queries
import Gatehouse.Proofs.Handler.Containment
import Gatehouse.Proofs.Session.Holders
import Gatehouse.Proofs.Session.Ledger

/-!
# What a scope leaves behind

A guard that opens over a link that is not live takes the one slot that the link ever holds, and
whatever walks from there keeps the ledger of the pool as it was before (`Link.Ledger.of_connect`).
The end of the guard is a disconnect, which leaves of a ledger the pool that it compares with
(`Link.Ledger.disconnect`), so a scope leaves no trace on the link, at whatever moment it is left.
Behind it the link rests. Over a link that is not live nothing but connecting moves the world
(`Action.Rests`), so the guards that are still open have nothing left to end until somebody connects
again (`Session.scope_exit`).
-/

namespace Gatehouse

variable {σ α β : Type}

/-! ## The link behind a scope -/

namespace Link

theorem disconnect_of_apart {l : Link} (hoff : l.connected = false) : l.disconnect = l := by
  unfold disconnect
  rw [hoff]
  rfl

theorem eq_ofPool {l : Link} (hoff : l.connected = false) : l = ofPool l.pool := by
  rw [ofPool, ← hoff]

/-- A link that comes alive finds a slot that is free. -/
theorem active_le_of_connect {target : String} {l l' : Link} (hoff : l.connected = false)
    (h : l.connect target = .ok l') : l.pool.active ≤ l.pool.capacity := by
  rcases UInt64.le_total l.pool.active l.pool.capacity with hle | hfull
  · exact hle
  · obtain ⟨e, he⟩ : ∃ e, l.connect target = .error e := by
      by_cases htarget : target = ""
      · exact ⟨_, connect_eq_error_iff.mpr ⟨hoff, .inl ⟨htarget, rfl⟩⟩⟩
      · exact ⟨_, connect_eq_error_iff.mpr ⟨hoff, .inr ⟨htarget, hfull, rfl⟩⟩⟩
    rw [h] at he
    cases he

namespace Ledger

variable {pool : Pool} {l : Link}

/-- A link that comes alive keeps the ledger of its pool as it was before. -/
theorem of_connect {target : String} {l' : Link} (hoff : l.connected = false)
    (h : l.connect target = .ok l') : Ledger l.pool l' := by
  have hledger : Ledger l.pool (Link.ofPool l.pool) := .ofPool (active_le_of_connect hoff h)
  rw [← eq_ofPool hoff] at hledger
  exact (hledger.move (move_connect h)).1

/-- A ledger without a slot of the link compares the pool with itself. -/
theorem pool_eq (h : Ledger pool l) (hoff : l.connected = false) : l.pool = pool := by
  have hactive := h.active
  rw [hoff] at hactive
  calc l.pool = ⟨l.pool.capacity, l.pool.active⟩ := rfl
    _ = ⟨pool.capacity, pool.active⟩ := by rw [h.capacity, UInt64.toNat_inj.mp hactive]

/-- Disconnecting leaves of a ledger the pool that it compares with. -/
theorem disconnect (h : Ledger pool l) : l.disconnect = Link.ofPool pool := by
  have hoff : l.disconnect.connected = false := Session.connected_disconnect l
  have hledger : Ledger pool l.disconnect := (h.move (move_disconnect l)).1
  rw [eq_ofPool hoff, hledger.pool_eq hoff]

end Ledger

end Link

/-! ## A link at rest -/

namespace Action

/-- Over a link that is not live, an action leaves the world as it is. -/
def Rests (x : Action σ α) : Prop :=
  ∀ w, w.link.connected = false → (x w).world = w

namespace Rests

theorem pure (a : α) : Rests (Pure.pure a : Action σ α) :=
  fun _ _ => rfl

theorem link : Rests (Action.link : Action σ Link) :=
  fun _ _ => rfl

theorem report (e : Event) : Rests (Action.report e : Action σ Unit) :=
  fun _ _ => rfl

theorem bind {x : Action σ α} {f : α → Action σ β} (hx : Rests x) (hf : ∀ a, Rests (f a)) :
    Rests (x >>= f) := by
  intro w hoff
  have hworld := hx w hoff
  rcases hrun : x w with ⟨ending, v, t⟩
  rw [hrun] at hworld
  obtain rfl : v = w := hworld
  cases ending with
  | returned a =>
    rw [Action.bind_run_of_returned f hrun]
    exact hf a v hoff
  | panicked p => rw [Action.bind_run_of_panicked f hrun]

theorem ite {p : Prop} [Decidable p] {x y : Action σ α} (hx : Rests x) (hy : Rests y) :
    Rests (if p then x else y) := by
  split
  · exact hx
  · exact hy

end Rests

end Action

open Gatehouse.Action (Rests)

namespace Connection

variable (c : Connection σ)

theorem rests_disconnect : Rests c.disconnect := by
  intro w hoff
  rw [disconnect_run, Link.disconnect_of_apart hoff]

theorem rests_query (sql : String) (params : List Json.Value) : Rests (c.query sql params) := by
  intro w hoff
  rw [c.query_run_of_apart sql params hoff]

theorem rests_execute (sql : String) (params : List Json.Value) : Rests (c.execute sql params) := by
  intro w hoff
  rw [c.execute_run_of_apart sql params w hoff]

theorem rests_executeRetrying (sql : String) (params : List Json.Value) :
    Rests (c.executeRetrying sql params) := by
  intro w hoff
  unfold executeRetrying
  rw [c.executeWithin_run_of_apart sql params w _ hoff]

end Connection

theorem Handler.rests_respond (h : Handler σ) (r : Request) : Rests (h.respond r) := by
  intro w hoff
  have hcalls : (h.respond r w).calls = [] := by
    apply calls_respond_of_other
    rintro ⟨claims, -, hlive, -⟩
    rw [hoff] at hlive
    cases hlive
  rw [(h.accounted_respond r w).1, hcalls]
  rfl

theorem Http.rests_serve (h : Handler σ) (limit : UInt64) (r : Http.Request) :
    Rests (Http.serve h limit r) :=
  .ite (.pure _) (.ite ((Rests.report _).bind fun _ => .pure _)
    ((h.rests_respond _).bind fun _ => .pure _))

namespace Session

theorem rests_operate (c : Connection σ) (guarded : Bool) {op : Operation} (hop : op ≠ .connect) :
    Rests (operate c guarded op) := by
  cases op with
  | connect => exact absurd rfl hop
  | disconnect => exact c.rests_disconnect.bind fun _ => .pure _
  | query sql params => exact (c.rests_query sql params).bind fun _ => .pure _
  | execute sql params => exact (c.rests_execute sql params).bind fun _ => .pure _
  | executeRetrying sql params => exact (c.rests_executeRetrying sql params).bind fun _ => .pure _
  | describe => exact Rests.link.bind fun _ => .pure _
  | isConnected => exact Rests.link.bind fun _ => .pure _

theorem rests_perform (c : Connection σ) (guards : List String) {st : Step}
    (hst : st.connects = false) : Rests (perform c guards st) := by
  cases st with
  | operate guard op =>
    have hop : op ≠ .connect := by
      rintro rfl
      cases hst
    cases guard with
    | none => exact (rests_operate c false hop).bind fun _ => .pure _
    | some name => exact .ite ((rests_operate c true hop).bind fun _ => .pure _) (.pure _)
  | openGuard name => cases hst
  | endGuard name how => exact .ite (c.rests_disconnect.bind fun _ => .pure _) (.pure _)
  | respond gate r => exact (Handler.rests_respond ⟨gate, c⟩ r).bind fun _ => .pure _
  | serve gate limit r => exact (Http.rests_serve ⟨gate, c⟩ limit r).bind fun _ => .pure _

/-- A step over a link that is not live leaves the world as it is unless it is granted a live
connection. -/
theorem step_world_of_apart {s : Session σ} (hoff : s.world.link.connected = false) {st : Step}
    (hst : st.granted (s.step st).2 = false) : (s.step st).1.world = s.world := by
  cases hconnects : st.connects with
  | true =>
    obtain ⟨l, -, -, hdone⟩ | ⟨e, -, hstep⟩ | ⟨a, -, hstep⟩ := step_of_connects (s := s) hconnects
    · simp [Step.granted, hconnects, hdone] at hst
    · rw [hstep]
    · rw [hstep]
  | false =>
    have h := rests_perform s.connection s.guards hconnects s.world hoff
    unfold step
    dsimp only
    split <;> exact h

theorem run_world_of_apart {s : Session σ} (hoff : s.world.link.connected = false)
    {steps : List Step} (hsteps : ∀ p ∈ steps.zip (s.run steps).2, p.1.granted p.2 = false) :
    (s.run steps).1.world = s.world := by
  induction steps generalizing s with
  | nil => rfl
  | cons st rest ih =>
    rw [run_cons] at hsteps ⊢
    have hworld : (s.step st).1.world = s.world :=
      step_world_of_apart hoff (hsteps _ List.mem_cons_self)
    have hnext : (s.step st).1.world.link.connected = false := by rw [hworld, hoff]
    exact (ih hnext fun p hp => hsteps p (List.mem_cons_of_mem _ hp)).trans hworld

/-! ## The guard of a scope -/

theorem ends_perform_of_mem (c : Connection σ) {guards : List String} {name : String}
    (hname : name ∈ guards) {st : Step} (hst : ∀ how, st ≠ .endGuard name how) :
    Action.Ends (perform c guards st) (fun answer => name ∈ answer.2) True := by
  have hkept : ∀ {β : Type} (x : Action σ β) (f : β → Answer),
      Action.Ends (x >>= fun a => pure (f a, guards)) (fun answer => name ∈ answer.2) True :=
    fun x _ => Action.ends_bind (Action.ends_trivial x) fun _ _ => Action.ends_pure hname
  cases st with
  | operate guard op =>
    cases guard with
    | none => exact hkept _ _
    | some other => exact Action.ends_ite (hkept _ _) (Action.ends_pure hname)
  | openGuard other =>
    refine Action.ends_ite (Action.ends_pure hname) ?_
    refine Action.ends_bind (Action.ends_trivial _) fun result _ => ?_
    split
    · exact Action.ends_pure (List.mem_cons_of_mem _ hname)
    · exact Action.ends_pure hname
  | endGuard other how =>
    have hother : name ≠ other := by
      rintro rfl
      exact hst how rfl
    refine Action.ends_ite ?_ (Action.ends_pure hname)
    refine Action.ends_bind (Action.ends_trivial _) fun _ _ => Action.ends_pure ?_
    exact (List.mem_erase_of_ne hother).mpr hname
  | respond gate r => exact hkept _ _
  | serve gate limit r => exact hkept _ _

/-- A guard stays open through a step that does not end it. -/
theorem mem_guards_step {s : Session σ} {name : String} (hname : name ∈ s.guards) {st : Step}
    (hst : ∀ how, st ≠ .endGuard name how) : name ∈ (s.step st).1.guards := by
  have hends := ends_perform_of_mem s.connection hname hst s.world
  unfold step
  dsimp only
  split
  · next answer guards hreturned =>
    rw [hreturned] at hends
    exact hends
  · exact hname

theorem mem_guards_run {s : Session σ} {name : String} (hname : name ∈ s.guards)
    {steps : List Step} (hsteps : ∀ how, .endGuard name how ∉ steps) :
    name ∈ (s.run steps).1.guards := by
  induction steps generalizing s with
  | nil => exact hname
  | cons st rest ih =>
    rw [run_cons]
    have hst : ∀ how, st ≠ .endGuard name how := by
      rintro how rfl
      exact hsteps how List.mem_cons_self
    exact ih (mem_guards_step hname hst) fun how h => hsteps how (List.mem_cons_of_mem _ h)

/-- A guard opens by connecting, and is then among the open ones. -/
theorem opened_of_done {s : Session σ} {name : String}
    (hopen : (s.step (.openGuard name)).2.ending = .returned .done) :
    ∃ l, s.world.link.connect s.connection.target = .ok l ∧
      (s.step (.openGuard name)).1 =
        ⟨s.connection, { s.world with link := l }, name :: s.guards⟩ := by
  by_cases hname : name ∈ s.guards
  · rw [step_openGuard_of_mem hname] at hopen
    cases hopen
  · cases hl : s.world.link.connect s.connection.target with
    | ok l => exact ⟨l, rfl, by rw [step_openGuard_of_ok hname hl]⟩
    | error e =>
      rw [step_openGuard_of_error hname hl] at hopen
      cases hopen

/-- A guard that ends over a link that is not live ends nothing with it. -/
theorem step_endGuard_of_apart {s : Session σ} (hoff : s.world.link.connected = false)
    {name : String} (hname : name ∈ s.guards) (how : GuardEnd) :
    (s.step (.endGuard name how)).2.ending = .returned (.ended how) ∧
      (s.step (.endGuard name how)).2.trace = [] ∧
      (s.step (.endGuard name how)).1 = ⟨s.connection, s.world, s.guards.erase name⟩ := by
  rw [step_endGuard hname, Link.disconnect_of_apart hoff]
  refine ⟨rfl, ?_, rfl⟩
  simp [Entry.trace, disconnectMoments, hoff, Moment.note?]

/-! ## Main statement -/

/-- A scope leaves the link as it was. Let a guard open over a link that is not live. Whatever is
done until it ends, and however it ends, the link behind it is the one before it was opened: not
live, over the same pool. So it is at every moment at which the guard may be lost, also while a
statement is pending. Behind it, whatever has become of the backend and whichever guards are still
open, nothing moves the world until somebody is granted a live connection again: a guard that ends
later changes nothing and is not even noticed. -/
theorem scope_exit {s : Session σ} {name : String} (hoff : s.world.link.connected = false)
    (hopen : (s.step (.openGuard name)).2.ending = .returned .done) {body : List Step}
    (hbody : ∀ how, .endGuard name how ∉ body) (how : GuardEnd) :
    let opened := (s.step (.openGuard name)).1
    let inside := (opened.run body).1
    let outside := (inside.step (.endGuard name how)).1
    (inside.step (.endGuard name how)).2.ending = .returned (.ended how) ∧
    outside = ⟨s.connection, ⟨s.world.link, inside.world.backend⟩, inside.guards.erase name⟩ ∧
    (∀ done rest, opened.history body = done ++ rest →
      (opened.world.link.after done).disconnect = s.world.link) ∧
    ∀ (b : σ) (guards : List String) (later : List Step),
      let freed : Session σ := ⟨s.connection, ⟨s.world.link, b⟩, guards⟩
      let behind := (freed.run later).1
      (∀ p ∈ later.zip (freed.run later).2, p.1.granted p.2 = false) →
      behind.world = freed.world ∧
      ∀ other ∈ behind.guards, ∀ how',
        (behind.step (.endGuard other how')).2.ending = .returned (.ended how') ∧
        (behind.step (.endGuard other how')).2.trace = [] ∧
        (behind.step (.endGuard other how')).1 =
          ⟨s.connection, freed.world, behind.guards.erase other⟩ := by
  intro opened inside outside
  obtain ⟨l, hl, hopened⟩ := opened_of_done hopen
  have hstart : s.world.link = .ofPool s.world.link.pool := Link.eq_ofPool hoff
  have hledger : Link.Ledger s.world.link.pool opened.world.link := by
    have hlink : opened.world.link = l := congrArg (·.world.link) hopened
    rw [hlink]
    exact .of_connect hoff hl
  obtain ⟨hwalk, hafter⟩ := opened.run_walks body
  -- the ledger is kept up to every moment, and the end of the guard settles it
  have hsettled : ∀ done rest, opened.history body = done ++ rest →
      (opened.world.link.after done).disconnect = s.world.link := by
    intro done rest hdone
    rw [hdone] at hwalk
    rw [hstart]
    exact (hledger.balance (Link.walk_append.mp hwalk).1).1.disconnect
  have hinside : inside.world.link.disconnect = s.world.link := by
    rw [hafter]
    exact hsettled _ [] (List.append_nil _).symm
  have hname : name ∈ inside.guards := by
    have hguards : opened.guards = name :: s.guards := congrArg (·.guards) hopened
    apply mem_guards_run _ hbody
    rw [hguards]
    exact List.mem_cons_self
  have hconnection : inside.connection = s.connection := by
    rw [run_connection, step_connection]
  have hend := step_endGuard hname how
  rw [hinside, hconnection] at hend
  refine ⟨by rw [hend], congrArg Prod.fst hend, hsettled, ?_⟩
  intro b guards later freed behind hlater
  have hworld : behind.world = freed.world := run_world_of_apart (s := freed) hoff hlater
  have hdead : behind.world.link.connected = false := by
    rw [hworld]
    exact hoff
  refine ⟨hworld, fun other hother how' => ?_⟩
  obtain ⟨hended, htrace, hnext⟩ := step_endGuard_of_apart hdead hother how'
  rw [hworld, run_connection] at hnext
  exact ⟨hended, htrace, hnext⟩

/-- A body that queries, opens a guard, disconnects and connects again before a panic, over a pool
with one of two slots taken, and the end of the inner guard behind it. -/
theorem scope_exit_unwound :
    let s := ofPool (.ofTarget "db" .simulated : Connection Unit) ⟨2, 1⟩ ()
    let body : List Step := [.operate (some "a") (.query "SELECT 1" []), .openGuard "b",
      .operate none .disconnect, .operate (some "b") .connect]
    let inside := ((s.step (.openGuard "a")).1.run body).1
    let outside := (inside.step (.endGuard "a" .unwind)).1
    let later : List Step := [.operate (some "b") (.query "SELECT 1" [])]
    s.world.link.connected = false ∧ (s.step (.openGuard "a")).2.ending = .returned .done ∧
    (∀ how, .endGuard "a" how ∉ body) ∧ inside.world.link = ⟨⟨2, 2⟩, true⟩ ∧
    outside.world.link = ⟨⟨2, 1⟩, false⟩ ∧ "b" ∈ (outside.run later).1.guards ∧
    ((outside.run later).1.step (.endGuard "b" .scope)).1.world = outside.world := by
  intro s body inside outside later
  have hopen : (s.step (.openGuard "a")).2.ending = .returned .done := rfl
  have hbody : ∀ how, .endGuard "a" how ∉ body := by simp [body]
  have hinside : inside.world.link = ⟨⟨2, 2⟩, true⟩ := by decide
  have hb : "b" ∈ (outside.run later).1.guards := by decide
  have hnone : ∀ p ∈ later.zip (outside.run later).2, p.1.granted p.2 = false := by decide
  obtain ⟨-, houtside, -, hbehind⟩ := scope_exit (s := s) rfl hopen hbody .unwind
  refine ⟨rfl, hopen, hbody, hinside, ?_, hb, ?_⟩
  · dsimp only [outside, inside]
    rw [houtside]
    rfl
  · dsimp only [outside, inside] at hb hnone ⊢
    rw [houtside] at hb hnone ⊢
    exact congrArg (·.world) ((hbehind _ _ later hnone).2 "b" hb .scope).2.2

end Session

end Gatehouse
