import Gatehouse.Proofs.Connection.Accounts
import Gatehouse.Proofs.Handler.Disclosure
import Gatehouse.Proofs.Handler.Statements

/-!
# How far a panic gets

Two things that others provide run for a request and may panic: the backend, behind the gate, and
the validator, which is the gate. A panic of the backend is caught. It becomes a response that is
the same for every payload, and what stays of it is the backend's own state. A panic of the
validator is not caught: it ends the answer without any response, before anything has happened
(`panics_contained`).
-/

namespace Gatehouse

variable {σ : Type}

open Gatehouse.Action (Accounted)

namespace Handler

/-! ## Behind the gate -/

theorem accounted_failed (c : Connection σ) (e : Connection.Fault) :
    Accounted c (failed e : Action σ Problem) :=
  (Accounted.report _).bind fun _ => .pure _

theorem accounted_follow (c : Connection σ) (route : Route) (claims : Claims) (r : Request) :
    Accounted c (follow c route claims r) := by
  cases route with
  | health => exact .pure _
  | getUser =>
    refine (c.accounted_query _ _).bind fun rows => ?_
    split
    · exact (accounted_failed c _).bind fun _ => .pure _
    · exact .pure _
    · exact .pure _
  | createUser =>
    simp only [follow, addUser]
    split
    · exact .pure _
    · split
      · exact (Accounted.report _).bind fun _ => .pure _
      · refine (c.accounted_executeWithin _ _ _).bind fun count => ?_
        split
        · exact (accounted_failed c _).bind fun _ => .pure _
        · exact .pure _

/-- The response to what a route has come to. -/
def presented : Ending (Except Problem Response) → Response
  | .returned (.ok response) => response
  | .returned (.error e) => e.response
  | .panicked _ => .internalError "Internal server error"

section Answer

variable (c : Connection σ) (claims : Claims) {r : Request} (w : World σ)

theorem answer_run_of_none (hroute : Route.resolve r.method r.path = none) :
    answer c claims r w = ⟨.returned .notFound, w, [.seen (.event (unroutedEvent r))]⟩ := by
  unfold answer
  rw [hroute]
  rfl

/-- What a route comes to is presented, panics included, and the world is left as it is then. -/
theorem answer_of_some {route : Route} (hroute : Route.resolve r.method r.path = some route) :
    (answer c claims r w).ending = .returned (presented (follow c route claims r w).ending) ∧
      (answer c claims r w).world = (follow c route claims r w).world := by
  rcases hrun : follow c route claims r w with ⟨ending, v, t⟩
  have hcaught : Action.caught (follow c route claims r) w = ⟨.returned ending, v, t⟩ := by
    rw [Action.caught_run, hrun]
  unfold answer
  rw [hroute]
  dsimp only
  rw [Action.bind_run_of_returned _ hcaught]
  cases ending with
  | returned result => cases result <;> exact ⟨rfl, rfl⟩
  | panicked p => exact ⟨rfl, rfl⟩

end Answer

/-! ## The gate -/

/-- The gate panics where its validator does, and the validator sees no empty header value. -/
theorem judge_eq_panicked_iff {g : Gate} {r : Request} {p : String} :
    g.judge r = .panicked p ↔
      r.credential ≠ "" ∧ g.validator r.credential g.secret = .panicked p := by
  unfold Gate.judge Request.credential
  dsimp only
  by_cases hempty : (r.header? "authorization").getD "" = ""
  · simp [hempty]
  · simp [hempty]

/-- The calls of a request tell the world behind it, and over a panic among them there is one
response only. -/
theorem accounted_respond (h : Handler σ) (r : Request) (w : World σ) :
    (h.respond r w).world = h.connection.behind w (h.respond r w).calls ∧
      (h.connection.backend.payloads w.backend (h.respond r w).calls ≠ [] →
        (h.respond r w).ending = .returned (.internalError "Internal server error")) := by
  cases hverdict : h.gate.judge r with
  | panicked p =>
    rw [respond_of_panicked w hverdict]
    exact ⟨rfl, fun hpayloads => absurd rfl hpayloads⟩
  | returned verdict =>
    cases verdict with
    | error e =>
      rw [respond_of_denied w hverdict]
      exact ⟨rfl, fun hpayloads => absurd rfl hpayloads⟩
    | ok claims =>
      cases hroute : Route.resolve r.method r.path with
      | none =>
        rw [respond_of_granted w hverdict, answer_run_of_none h.connection claims w hroute]
        exact ⟨rfl, fun hpayloads => absurd rfl hpayloads⟩
      | some route =>
        have hfollow := accounted_follow h.connection route claims r
        obtain ⟨hending, hworld⟩ := answer_of_some h.connection claims w hroute
        rw [calls_respond hverdict hroute, respond_of_granted w hverdict, hending, hworld,
          hfollow.panics w]
        refine ⟨hfollow.world w, fun hpayloads => ?_⟩
        cases hpanic : (follow h.connection route claims r w).ending with
        | returned result =>
          rw [hpanic] at hpayloads
          exact absurd rfl hpayloads
        | panicked p => rfl

/-- An answer panics where the gate does. -/
theorem ending_respond_eq_panicked_iff {h : Handler σ} {r : Request} {w : World σ} {p : String} :
    (h.respond r w).ending = .panicked p ↔ h.gate.judge r = .panicked p := by
  constructor
  · intro hending
    cases hverdict : h.gate.judge r with
    | panicked q =>
      rw [respond_of_panicked w hverdict] at hending
      cases hending
      rfl
    | returned verdict =>
      obtain ⟨x, hx, -⟩ := exists_response hverdict w
      rw [hx] at hending
      cases hending
  · intro hverdict
    rw [respond_of_panicked w hverdict]

/-- A response has one of four forms. -/
theorem response_forms {h : Handler σ} {r : Request} {w : World σ} {x : Response}
    (hx : (h.respond r w).ending = .returned x) :
    x.IsSuccess ∨ (∃ e, h.gate.judge r = .returned (.error e) ∧ x.IsFailure 401 e.message) ∨
      x.IsFailure 404 "not found" ∨ ∃ m ∈ Response.internalMessages, x.IsFailure 500 m := by
  cases hverdict : h.gate.judge r with
  | panicked p =>
    rw [respond_of_panicked w hverdict] at hx
    cases hx
  | returned verdict =>
    cases verdict with
    | error e =>
      rw [respond_of_denied w hverdict] at hx
      cases hx
      exact .inr (.inl ⟨e, rfl, Problem.isFailure_response (.ofDenial e)⟩)
    | ok claims =>
      rw [respond_of_granted w hverdict] at hx
      obtain ⟨y, hy, hpresents⟩ := (ends_answer h.connection claims r).exists_returned w
      cases hy.symm.trans hx
      cases hpresents with
      | success h => exact .inl h
      | notFound h => exact .inr (.inr (.inl h))
      | internal hm h => exact .inr (.inr (.inr ⟨_, hm, h⟩))

/-! ## Main statement -/

/-- A panic of the backend is contained, a panic of the validator is not. An answer panics if and
only if the validator does over the header value, and then nothing has happened. Otherwise there is
a response of one of four forms; if the backend panicked it is the one that tells nothing. The world
behind an answer is that behind its calls: the link is left to the others that connect and
disconnect in the meantime, and where there are none, the link stays as it was and whatever is done
later goes on as if only the backend had seen the request. -/
theorem panics_contained (h : Handler σ) (r : Request) (w : World σ) :
    let b := h.connection.backend
    let run := h.respond r w
    (∀ p, run.ending = .panicked p ↔
      r.credential ≠ "" ∧ h.gate.validator r.credential h.gate.secret = .panicked p) ∧
    (∀ p, run.ending = .panicked p → run = ⟨.panicked p, w, []⟩) ∧
    (∀ x, run.ending = .returned x →
      x.IsSuccess ∨ (∃ e, h.gate.judge r = .returned (.error e) ∧ x.IsFailure 401 e.message) ∨
        x.IsFailure 404 "not found" ∨ ∃ m ∈ Response.internalMessages, x.IsFailure 500 m) ∧
    (b.payloads w.backend run.calls ≠ [] →
      run.ending = .returned (.internalError "Internal server error")) ∧
    run.world = h.connection.behind w run.calls ∧
    (b.others w.backend run.calls = [] →
      run.world.link = w.link ∧
      ∀ guards steps,
        let s : Session σ := ⟨h.connection, w, guards⟩
        let later : Session σ := ⟨h.connection, ⟨w.link, b.after w.backend run.calls⟩, guards⟩
        (s.run (.respond h.gate r :: steps)).1 = (later.run steps).1 ∧
          (s.run (.respond h.gate r :: steps)).2.tail = (later.run steps).2) := by
  intro b run
  obtain ⟨hworld, hpayloads⟩ := h.accounted_respond r w
  refine ⟨fun p => ending_respond_eq_panicked_iff.trans judge_eq_panicked_iff, fun p hp => ?_,
    fun x hx => response_forms hx, hpayloads, hworld, fun halone => ?_⟩
  · exact respond_of_panicked w (ending_respond_eq_panicked_iff.mp hp)
  · have hbehind : run.world = ⟨w.link, b.after w.backend run.calls⟩ :=
      hworld.trans (h.connection.behind_of_alone halone)
    refine ⟨by rw [hbehind], ?_⟩
    intro guards steps s later
    have hstep : (s.step (.respond h.gate r)).1 = later :=
      (s.step_respond h.gate r).1.trans
        (congrArg (fun v => (⟨h.connection, v, guards⟩ : Session σ)) hbehind)
    rw [Session.run_cons, hstep]
    exact ⟨rfl, rfl⟩

/-- A request over which the backend panics, and one more. -/
theorem panics_contained_twice :
    let backend : Backend Nat :=
      ⟨fun n _ _ => ⟨if n = 0 then .panic "boom" else .answer [], [], n + 1⟩,
        fun n _ _ => ⟨.answer 0, [], n⟩⟩
    let gate : Gate := ⟨"", fun _ _ => .returned (.ok ⟨"1", .user, 0, 0⟩)⟩
    let c : Connection Nat := ⟨"db", backend, 3, false⟩
    let r : Request := ⟨"GET", "/api/user", [("authorization", "x")], none, none⟩
    let live : Link := ⟨⟨1, 1⟩, true⟩
    (respond ⟨gate, c⟩ r ⟨live, 0⟩).ending = .returned (.internalError "Internal server error") ∧
    ((⟨c, ⟨live, 0⟩, []⟩ : Session Nat).run [.respond gate r, .respond gate r]).2.tail =
      ((⟨c, ⟨live, 1⟩, []⟩ : Session Nat).run [.respond gate r]).2 := by
  intro backend gate c r live
  obtain ⟨-, -, -, hpayloads, -, halone⟩ := panics_contained ⟨gate, c⟩ r ⟨live, 0⟩
  have hroute : Route.resolve r.method r.path = some .getUser := by decide
  have hverdict : gate.judge r = .returned (.ok ⟨"1", .user, 0, 0⟩) := rfl
  have hcalls : (respond ⟨gate, c⟩ r ⟨live, 0⟩).calls = [⟨.fetch, selectUser, [.string "1"]⟩] :=
    calls_respond_getUser (h := ⟨gate, c⟩) hverdict hroute
  rw [hcalls] at hpayloads halone
  exact ⟨hpayloads (List.cons_ne_nil "boom" []), ((halone rfl).2 [] [.respond gate r]).2⟩

/-- A validator that panics leaves a request without a response. -/
theorem panicked_validator :
    let gate : Gate := ⟨"", fun _ _ => .panicked "boom"⟩
    let r : Request := ⟨"GET", "/api/health", [("authorization", "x")], none, none⟩
    let w : World Unit := ⟨.ofPool ⟨1, 0⟩, ()⟩
    (respond ⟨gate, .ofTarget "db" .simulated⟩ r w).ending = .panicked "boom" ∧
      ¬ ∃ x, (respond ⟨gate, .ofTarget "db" .simulated⟩ r w).ending = .returned x := by
  intro gate r w
  have hverdict : gate.judge r = .panicked "boom" := rfl
  have hending : (respond ⟨gate, .ofTarget "db" .simulated⟩ r w).ending = .panicked "boom" := by
    rw [respond_of_panicked w hverdict]
  refine ⟨hending, ?_⟩
  rintro ⟨x, hx⟩
  rw [hending] at hx
  cases hx

end Handler

end Gatehouse
