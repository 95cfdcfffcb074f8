import Gatehouse.Session

/-!
# Credentials stay unseen

A connection needs its target in two places: an empty target cannot be connected to, and the
redacted target is shown in an event and in descriptions. So two connections whose targets have the
same redacted text, and are empty or not alike, do the same from every world
(`Connection.Indistinct`). Each action on a connection has one law here, an equation between the
actions of two such connections; over a run of a session they give that no answer, call, event or
description tells the one from the other.
-/

namespace Gatehouse

variable {σ α : Type}

/-! ## Targets -/

section Targets

variable {target credentials : String}

theorem redact_of_not_mem (h : '@' ∉ target.toList) : redact target = target := by
  simp [redact, Text.cutFirst?_of_not_mem h]

/-- What stands behind the first `@` is shown, further ones included. -/
theorem redact_append (h : '@' ∉ credentials.toList) (rest : String) :
    redact (credentials ++ "@" ++ rest) = rest := by
  have htext : (credentials ++ "@" ++ rest).toList = credentials.toList ++ '@' :: rest.toList := by
    simp
  unfold redact
  rw [htext, Text.cutFirst?_append h]
  simp

theorem isEmpty_append_at (rest : String) : (credentials ++ "@" ++ rest).isEmpty = false := by
  have hne : credentials ++ "@" ++ rest ≠ "" := by
    intro h
    have hlist : (credentials ++ "@" ++ rest).toList = [] := by rw [h]; rfl
    simp at hlist
  simp [hne]

end Targets

theorem Link.connect_eq_of_isEmpty_eq {target target' : String}
    (h : target.isEmpty = target'.isEmpty) (l : Link) : l.connect target = l.connect target' := by
  simp only [Link.connect, h]

/-! ## Connections -/

namespace Connection

/-- Two connections have the same settings, and targets that are the same but for credentials. -/
structure Indistinct (c d : Connection σ) : Prop where
  backend : c.backend = d.backend
  maxRetries : c.maxRetries = d.maxRetries
  logsStatements : c.logsStatements = d.logsStatements
  redacted : c.redacted = d.redacted
  isEmpty : c.target.isEmpty = d.target.isEmpty

theorem indistinct_of_credentials {credentials credentials' : String}
    (h : '@' ∉ credentials.toList) (h' : '@' ∉ credentials'.toList) (rest : String)
    (backend : Backend σ) (maxRetries : UInt32) (logs : Bool) :
    Indistinct ⟨credentials ++ "@" ++ rest, backend, maxRetries, logs⟩
      ⟨credentials' ++ "@" ++ rest, backend, maxRetries, logs⟩ where
  backend := rfl
  maxRetries := rfl
  logsStatements := rfl
  redacted := (redact_append h rest).trans (redact_append h' rest).symm
  isEmpty := (isEmpty_append_at rest).trans (isEmpty_append_at rest).symm

namespace Indistinct

variable {c d : Connection σ} (h : c.Indistinct d)

include h

theorem connect : c.connect = d.connect := by
  simp only [Connection.connect, connectedEvent, h.redacted,
    Link.connect_eq_of_isEmpty_eq h.isEmpty]

theorem follow (ts : List Transition) : c.follow ts = d.follow ts := by
  induction ts with
  | nil => rfl
  | cons t ts ih =>
    cases t with
    | connect => simp only [Connection.follow, h.connect, ih]
    | disconnect =>
      have hdisconnect : c.disconnect = d.disconnect := rfl
      simp only [Connection.follow, hdisconnect, ih]

theorem deliver (call : Call) (f : σ → Reply σ α) : c.deliver call f = d.deliver call f := by
  simp only [Connection.deliver, h.follow]

theorem submit (call : Call) (f : σ → Reply σ α) : c.submit call f = d.submit call f := by
  simp only [Connection.submit, h.logsStatements, h.deliver]

theorem query (sql : String) (params : List Json.Value) :
    c.query sql params = d.query sql params := by
  simp only [Connection.query, h.backend, h.submit]

theorem execute (sql : String) (params : List Json.Value) :
    c.execute sql params = d.execute sql params := by
  simp only [Connection.execute, h.backend, h.submit]

theorem executeWithin (sql : String) (params : List Json.Value) (n : Nat) :
    c.executeWithin sql params n = d.executeWithin sql params n := by
  induction n with
  | zero => exact h.execute sql params
  | succ n ih =>
    have hevent :
        c.retryEvent (d.maxRetries.toNat - n) = d.retryEvent (d.maxRetries.toNat - n) := by
      simp only [retryEvent, h.maxRetries]
    simp only [Connection.executeWithin, h.execute, h.maxRetries, hevent, ih]

theorem executeRetrying (sql : String) (params : List Json.Value) :
    c.executeRetrying sql params = d.executeRetrying sql params := by
  simp only [Connection.executeRetrying, h.maxRetries, h.executeWithin]

theorem describe (l : Link) : c.describe l = d.describe l := by
  unfold Connection.describe
  rw [h.redacted]

theorem describeGuard (l : Link) : c.describeGuard l = d.describeGuard l := by
  unfold Connection.describeGuard
  rw [h.describe]

end Indistinct

end Connection

/-! ## Requests -/

namespace Connection.Indistinct

variable {c d : Connection σ} (h : c.Indistinct d)

include h

theorem handlerFollow (route : Route) (claims : Claims) (r : Request) :
    Handler.follow c route claims r = Handler.follow d route claims r := by
  cases route with
  | health => rfl
  | getUser => simp only [Handler.follow, Handler.showUser, h.query]
  | createUser => simp only [Handler.follow, Handler.addUser, h.executeRetrying]

theorem respond (gate : Gate) (r : Request) :
    Handler.respond ⟨gate, c⟩ r = Handler.respond ⟨gate, d⟩ r := by
  have hanswer : ∀ claims, Handler.answer c claims r = Handler.answer d claims r := by
    intro claims
    simp only [Handler.answer, h.handlerFollow]
  simp only [Handler.respond, hanswer]

theorem serve (gate : Gate) (limit : UInt64) (r : Http.Request) :
    Http.serve ⟨gate, c⟩ limit r = Http.serve ⟨gate, d⟩ limit r := by
  simp only [Http.serve, h.respond]

end Connection.Indistinct

/-! ## Runs -/

namespace Session

theorem operate_eq_of_indistinct {c d : Connection σ} (h : c.Indistinct d) (guarded : Bool)
    (op : Operation) : operate c guarded op = operate d guarded op := by
  cases op with
  | connect => simp only [operate, h.connect]
  | disconnect => rfl
  | query sql params => simp only [operate, h.query]
  | execute sql params => simp only [operate, h.execute]
  | executeRetrying sql params => simp only [operate, h.executeRetrying]
  | describe => simp only [operate, h.describe, h.describeGuard]
  | isConnected => rfl

theorem perform_eq_of_indistinct {c d : Connection σ} (h : c.Indistinct d) (guards : List String)
    (st : Step) : perform c guards st = perform d guards st := by
  cases st with
  | operate guard op =>
    cases guard with
    | none => simp only [perform, operate_eq_of_indistinct h]
    | some name => simp only [perform, operate_eq_of_indistinct h]
  | openGuard name => simp only [perform, h.connect]
  | endGuard name how =>
    have hdisconnect : c.disconnect = d.disconnect := rfl
    simp only [perform, hdisconnect]
  | respond gate r => simp only [perform, h.respond]
  | serve gate limit r => simp only [perform, h.serve]

/-- Two sessions are in the same place, over connections that are the same but for credentials. -/
structure Indistinct (s t : Session σ) : Prop where
  connection : s.connection.Indistinct t.connection
  world : s.world = t.world
  guards : s.guards = t.guards

namespace Indistinct

variable {s t : Session σ}

theorem step (h : s.Indistinct t) (st : Step) :
    (s.step st).2 = (t.step st).2 ∧ (s.step st).1.Indistinct (t.step st).1 := by
  have hperform : perform s.connection s.guards st s.world =
      perform t.connection t.guards st t.world := by
    rw [h.guards, h.world, perform_eq_of_indistinct h.connection]
  simp only [Session.step, hperform]
  cases (perform t.connection t.guards st t.world).ending with
  | returned a => exact ⟨rfl, h.connection, rfl, rfl⟩
  | panicked p => exact ⟨rfl, h.connection, rfl, h.guards⟩

/-- Each step gives the same entry on both sides and leaves the sessions in the same place. -/
theorem run (h : s.Indistinct t) (steps : List Step) :
    (s.run steps).2 = (t.run steps).2 ∧ (s.run steps).1.Indistinct (t.run steps).1 := by
  induction steps generalizing s t with
  | nil => exact ⟨rfl, h⟩
  | cons st steps ih =>
    obtain ⟨hentry, hnext⟩ := h.step st
    obtain ⟨hentries, hlast⟩ := ih hnext
    simp only [Session.run, hentry, hentries]
    exact ⟨trivial, hlast⟩

end Indistinct

/-- What stands before the first `@` of a target is never seen. Two sessions over targets that
differ in nothing else have the same entries for every list of steps, so the same answers, events,
calls and descriptions in the same order, and end in the same place. Both targets show as what
stands behind the `@`, and a target without one shows as it is. -/
theorem run_hides_credentials (credentials credentials' rest : String)
    (h : '@' ∉ credentials.toList) (h' : '@' ∉ credentials'.toList) (backend : Backend σ)
    (maxRetries : UInt32) (logs : Bool) (w : World σ) (guards : List String) (steps : List Step) :
    let c : Connection σ := ⟨credentials ++ "@" ++ rest, backend, maxRetries, logs⟩
    let d : Connection σ := ⟨credentials' ++ "@" ++ rest, backend, maxRetries, logs⟩
    let ran := Session.run ⟨c, w, guards⟩ steps
    let ran' := Session.run ⟨d, w, guards⟩ steps
    ran.2 = ran'.2 ∧ ran.1.world = ran'.1.world ∧ ran.1.guards = ran'.1.guards ∧
      c.redacted = rest ∧ d.redacted = rest ∧
      (∀ l, c.describe l = d.describe l ∧ c.describeGuard l = d.describeGuard l) ∧
      ∀ target : String, '@' ∉ target.toList → redact target = target := by
  intro c d ran ran'
  have hc : c.Indistinct d :=
    Connection.indistinct_of_credentials h h' rest backend maxRetries logs
  have hs : Indistinct (⟨c, w, guards⟩ : Session σ) ⟨d, w, guards⟩ := ⟨hc, rfl, rfl⟩
  obtain ⟨hentries, hlast⟩ := hs.run steps
  exact ⟨hentries, hlast.world, hlast.guards, redact_append h rest, redact_append h' rest,
    fun l => ⟨hc.describe l, hc.describeGuard l⟩, fun _ => redact_of_not_mem⟩

/-- A password and a guest's name over one host: connecting, asking and describing, through a guard
and without one, is the same for both. -/
theorem run_hides_credentials_from_guest :
    let steps : List Step := [.openGuard "g", .operate (some "g") .describe,
      .operate none (.query "SELECT 1" []), .endGuard "g" .scope, .operate none .describe]
    let w : World Unit := ⟨.ofPool (.ofCapacity 2), ()⟩
    '@' ∉ "app:hunter2".toList ∧ '@' ∉ "guest".toList ∧
      (Session.run ⟨⟨"app:hunter2" ++ "@" ++ "db:5432/main", .simulated, 3, true⟩, w, []⟩ steps).2 =
        (Session.run ⟨⟨"guest" ++ "@" ++ "db:5432/main", .simulated, 3, true⟩, w, []⟩ steps).2 := by
  intro steps w
  have happ : '@' ∉ "app:hunter2".toList := by decide
  have hguest : '@' ∉ "guest".toList := by decide
  have hruns := run_hides_credentials "app:hunter2" "guest" "db:5432/main" happ hguest .simulated
    3 true w [] steps
  exact ⟨happ, hguest, hruns.1⟩

end Session

end Gatehouse
