import Gatehouse.Proofs.Connection.Alike
import Gatehouse.Proofs.Handler.Responses
import Gatehouse.Proofs.Session.Steps

/-!
# What callers learn of the database

The text of a refusal and the payload of a panic go into events, and no further. Over two backends
that differ in nothing else, requests that come one after the other get the same responses, and the
same statements reach the backends (`run_requests_alike`), through tries that are repeated and
panics that are caught.
-/

namespace Gatehouse

variable {σ τ : Type}

open Gatehouse.Action (Alike)

namespace Handler

variable (c : Connection σ) (b' : Backend τ)

/-- Faults that are alike are told in the same words. -/
theorem alike_failed {b : Backend σ} {e e' : Connection.Fault} (h : e.Alike e') :
    Alike b b' Eq (failed e) (failed e') := by
  have hproblem : Problem.ofStatement e = Problem.ofStatement e' := by
    unfold Problem.ofStatement
    rw [h.isOutage_eq]
  exact (Alike.report _ _).bind fun _ _ _ => .pure hproblem

theorem alike_showUser (id : String) :
    Alike c.backend b' Eq (showUser c id) (showUser (c.withBackend b') id) := by
  refine (c.alike_query b' selectUser [.string id]).bind ?_
  intro rows rows' hrows
  cases hrows with
  | error h =>
    refine (alike_failed b' h).bind ?_
    rintro p _ rfl
    exact .pure rfl
  | ok found =>
    cases found with
    | nil => exact .pure rfl
    | cons row more => exact .pure rfl

theorem alike_addUser (r : Request) :
    Alike c.backend b' Eq (addUser c r) (addUser (c.withBackend b') r) := by
  unfold addUser
  cases r.json with
  | error e => exact .pure rfl
  | ok v =>
    dsimp only
    cases NewUser.ofJson v with
    | error e => exact (Alike.report _ _).bind fun _ _ _ => .pure rfl
    | ok u =>
      refine (c.alike_executeRetrying b' insertUser u.params).bind ?_
      intro count count' hcount
      cases hcount with
      | ok n => exact .pure rfl
      | error h =>
        refine (alike_failed b' h).bind ?_
        rintro p _ rfl
        exact .pure rfl

theorem alike_follow (route : Route) (claims : Claims) (r : Request) :
    Alike c.backend b' Eq (follow c route claims r) (follow (c.withBackend b') route claims r) := by
  cases route with
  | health => exact .pure rfl
  | getUser => exact alike_showUser c b' claims.sub
  | createUser => exact alike_addUser c b' r

theorem alike_answer (claims : Claims) (r : Request) :
    Alike c.backend b' Eq (answer c claims r) (answer (c.withBackend b') claims r) := by
  unfold answer
  cases Route.resolve r.method r.path with
  | none => exact (Alike.report _ _).bind fun _ _ _ => .pure rfl
  | some route =>
    refine (alike_follow c b' route claims r).caught.bind ?_
    intro ending ending' hending
    cases hending with
    | panicked p q => exact (Alike.report _ _).bind fun _ _ _ => .pure rfl
    | @returned result _ h =>
      subst h
      cases result with
      | ok response => exact .pure rfl
      | error e => exact .pure rfl

theorem alike_respond (g : Gate) (r : Request) :
    Alike c.backend b' Eq ((⟨g, c⟩ : Handler σ).respond r)
      ((⟨g, c.withBackend b'⟩ : Handler τ).respond r) := by
  refine (Alike.ofEnding _).bind ?_
  rintro verdict _ rfl
  cases verdict with
  | error e => exact (Alike.report _ _).bind fun _ _ _ => .pure rfl
  | ok claims => exact alike_answer c b' claims r

theorem respond_ending_eq {g : Gate} {r : Request} {w : World σ} {v : World τ}
    (hlink : w.link = v.link) (hbackend : c.backend.Alike b' w.backend v.backend) :
    ((⟨g, c⟩ : Handler σ).respond r w).ending =
      ((⟨g, c.withBackend b'⟩ : Handler τ).respond r v).ending := by
  have halike := (alike_respond c b' g r w v hlink hbackend).ending
  -- Alike endings may be two panics with different payloads. The gate is the same in both runs, and
  -- behind it there is no panic.
  cases hverdict : g.judge r with
  | panicked p =>
    rw [respond_of_panicked w hverdict, respond_of_panicked v hverdict]
  | returned verdict =>
    obtain ⟨x, hx, -⟩ := exists_response (h := ⟨g, c⟩) hverdict w
    obtain ⟨y, hy, -⟩ := exists_response (h := ⟨g, c.withBackend b'⟩) hverdict v
    rw [hx, hy] at halike ⊢
    cases halike with
    | returned h => rw [h]

end Handler

namespace Session

/-- Two sessions over two backends that are alike, and the same otherwise. -/
structure Alike (s : Session σ) (t : Session τ) : Prop where
  connection : t.connection = s.connection.withBackend t.connection.backend
  link : s.world.link = t.world.link
  backend : s.connection.backend.Alike t.connection.backend s.world.backend t.world.backend
  guards : s.guards = t.guards

theorem step_respond (s : Session σ) (g : Gate) (r : Request) :
    let x := (⟨g, s.connection⟩ : Handler σ).respond r s.world
    (s.step (.respond g r)).1 = ⟨s.connection, x.world, s.guards⟩ ∧
      (s.step (.respond g r)).2.history = x.history ∧
      (s.step (.respond g r)).2.ending =
        match x.ending with
        | .returned response => .returned (.response response)
        | .panicked p => .panicked p := by
  intro x
  have hperform : perform s.connection s.guards (.respond g r) =
      (⟨g, s.connection⟩ : Handler σ).respond r >>= fun response =>
        pure (.response response, s.guards) := rfl
  rcases hx : x with ⟨ending, v, history⟩
  unfold step
  rw [hperform]
  cases ending with
  | returned response =>
    rw [Action.bind_run_of_returned _ hx]
    simp
  | panicked p =>
    rw [Action.bind_run_of_panicked _ hx]
    simp

/-- One request keeps sessions alike, gets one ending and makes the same calls. -/
theorem Alike.step {s : Session σ} {t : Session τ} (h : Alike s t) (g : Gate) (r : Request) :
    Alike (s.step (.respond g r)).1 (t.step (.respond g r)).1 ∧
      (s.step (.respond g r)).2.ending = (t.step (.respond g r)).2.ending ∧
      callsIn (s.step (.respond g r)).2.history = callsIn (t.step (.respond g r)).2.history := by
  obtain ⟨hs, hshistory, hsending⟩ := s.step_respond g r
  obtain ⟨ht, hthistory, htending⟩ := t.step_respond g r
  have halike := Handler.alike_respond s.connection t.connection.backend g r _ _ h.link h.backend
  have hending := Handler.respond_ending_eq s.connection t.connection.backend (g := g) (r := r)
    h.link h.backend
  rw [← h.connection] at halike hending
  rw [hs, ht, hshistory, hthistory, hsending, htending, hending]
  exact ⟨⟨h.connection, halike.link, halike.backend, h.guards⟩, rfl, halike.calls⟩

/-- Requests to be answered one after the other, each behind a gate. -/
def answering (requests : List (Gate × Request)) : List Step :=
  requests.map fun q => .respond q.1 q.2

/-- The endings of a run's steps with the calls that each of them made. -/
def outcomes (s : Session σ) (steps : List Step) : List (Ending Answer × List Call) :=
  (s.run steps).2.map fun entry => (entry.ending, callsIn entry.history)

theorem Alike.outcomes_eq {s : Session σ} {t : Session τ} (h : Alike s t)
    (requests : List (Gate × Request)) :
    s.outcomes (answering requests) = t.outcomes (answering requests) := by
  induction requests generalizing s t with
  | nil => rfl
  | cons q requests ih =>
    obtain ⟨g, r⟩ := q
    obtain ⟨hnext, hending, hcalls⟩ := h.step g r
    have hrest := ih hnext
    unfold outcomes answering at hrest ⊢
    rw [List.map_cons, run_cons, run_cons, List.map_cons, List.map_cons, hrest, hending, hcalls]

/-- Whatever the configuration and the state of a connection, and whatever is asked, the responses
and the calls are the same over two backends that are alike. -/
theorem run_requests_alike {b : Backend σ} {b' : Backend τ} {x : σ} {y : τ} (h : b.Alike b' x y)
    (target : String) (maxRetries : UInt32) (logs : Bool) (link : Link) (guards : List String)
    (requests : List (Gate × Request)) :
    let s : Session σ := ⟨⟨target, b, maxRetries, logs⟩, ⟨link, x⟩, guards⟩
    let t : Session τ := ⟨⟨target, b', maxRetries, logs⟩, ⟨link, y⟩, guards⟩
    (s.run (answering requests)).2.map (·.ending) = (t.run (answering requests)).2.map (·.ending) ∧
      (s.run (answering requests)).2.map (fun entry => callsIn entry.history) =
        (t.run (answering requests)).2.map fun entry => callsIn entry.history := by
  intro s t
  have halike : Alike s t := ⟨rfl, rfl, h, rfl⟩
  have houtcomes := halike.outcomes_eq requests
  unfold outcomes at houtcomes
  have hendings := congrArg (List.map Prod.fst) houtcomes
  have hcalls := congrArg (List.map Prod.snd) houtcomes
  rw [List.map_map, List.map_map] at hendings hcalls
  exact ⟨hendings, hcalls⟩

/-- A conflict that is tried again, a refusal and a panic, over two scripts that tell them in
different words. -/
theorem run_requests_alike_scripted :
    let script (text : String) : Backend.Script :=
      ⟨[.panic text, .failure (.configuration text)],
        [.failure .transactionConflict, .failure (.query text)]⟩
    let requests : List (Gate × Request) :=
      let gate : Gate := ⟨"", fun _ _ => .returned (.ok ⟨"1", .user, 0, 0⟩)⟩
      let headers := [("authorization", "x")]
      [(gate, ⟨"POST", "/api/user", headers, some "\x7b\x7d", none⟩),
        (gate, ⟨"GET", "/api/user", headers, none, none⟩),
        (gate, ⟨"GET", "/api/user", headers, none, none⟩)]
    let run (text : String) :=
      (⟨⟨"db", .scripted, 1, true⟩, ⟨⟨⟨1, 1⟩, true⟩, script text⟩, []⟩ : Session _).run
        (answering requests)
    Backend.scripted.Alike Backend.scripted (script "disk") (script "password") ∧
      (run "disk").2.map (·.ending) = (run "password").2.map (·.ending) := by
  intro script requests run
  have hscripts : (script "disk").Alike (script "password") :=
    ⟨.cons (.panic _ _) (.cons (.configuration _ _) .nil),
      .cons (.same _) (.cons (.query _ _) .nil)⟩
  exact ⟨hscripts.scripted,
    (run_requests_alike hscripts.scripted "db" 1 true ⟨⟨1, 1⟩, true⟩ [] requests).1⟩

end Session

end Gatehouse
