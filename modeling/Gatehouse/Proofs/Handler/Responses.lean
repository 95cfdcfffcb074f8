import Gatehouse.Handler
import Gatehouse.Proofs.Connection.Endings
import Gatehouse.Proofs.Handler.ErrorText

/-!
# The forms of responses

Whatever is asked for and whatever happens behind the gate, there is a response, and it has one of
four forms: success with the text of an object, or a failure of one of three kinds with a message
and nothing else (`respond_forms`). Behind the gate this takes the form of a `Result`: a success or
a problem out of a fixed list, whatever the database said.
-/

namespace Gatehouse

variable {σ : Type}

namespace Response

/-- Success: the body is an object, and the one header says so. -/
structure IsSuccess (x : Response) : Prop where
  status : x.status = 200
  headers : x.headers = [("content-type", "application/json")]
  body : ∃ ms, Json.Members ms (Utf8.encode x.body)

/-- Failure: the body tells a message, and there is no header. -/
structure IsFailure (x : Response) (status : UInt16) (message : String) : Prop where
  status : x.status = status
  headers : x.headers = []
  body : Tells x.body message

/-- What is told of a failure that is not the caller's. -/
def internalMessages : List String :=
  ["Database temporarily unavailable", "Database error occurred", "Invalid user payload",
    "Internal server error", "Failed to format response"]

theorem isSuccess_object (members : List (String × Json.Value)) :
    (ok (Json.Value.object members).render).IsSuccess :=
  ⟨rfl, rfl, _, Json.members_chars members⟩

end Response

theorem Problem.isFailure_response (p : Problem) : p.response.IsFailure p.status p.message := by
  have hbody := p.tells_response
  cases p with
  | unauthorized m => exact ⟨rfl, rfl, hbody⟩
  | notFound => exact ⟨rfl, rfl, hbody⟩
  | internal m => exact ⟨rfl, rfl, hbody⟩

theorem Problem.ofStatement_mem (e : Connection.Fault) :
    ∃ m ∈ Response.internalMessages, ofStatement e = .internal m := by
  unfold ofStatement
  split
  · exact ⟨_, by decide, rfl⟩
  · exact ⟨_, by decide, rfl⟩

namespace Handler

/-! ## Behind the gate -/

/-- What a route comes to: a success, or a problem that says nothing of its cause. -/
inductive Result : Except Problem Response → Prop
  | success {x : Response} (h : x.IsSuccess) : Result (.ok x)
  | notFound : Result (.error .notFound)
  | internal {m : String} (h : m ∈ Response.internalMessages) : Result (.error (.internal m))

theorem result_ofStatement (e : Connection.Fault) : Result (.error (.ofStatement e)) := by
  obtain ⟨m, hm, heq⟩ := Problem.ofStatement_mem e
  rw [heq]
  exact .internal hm

theorem isSuccess_healthy : healthy.IsSuccess :=
  ⟨rfl, rfl, _, Json.members_of_spaced (k := "status") (s := "healthy") (by decide)⟩

theorem ends_failed (e : Connection.Fault) :
    Action.Ends (failed e : Action σ Problem) (fun p => p = .ofStatement e) True :=
  Action.ends_bind (Action.ends_report _) fun _ _ => Action.ends_pure rfl

theorem ends_showUser (c : Connection σ) (id : String) :
    Action.Ends (showUser c id) Result True := by
  refine Action.ends_bind (Action.ends_trivial _) fun rows _ => ?_
  split
  · next e =>
    refine Action.ends_bind (ends_failed e) fun p hp => Action.ends_pure ?_
    rw [hp]
    exact result_ofStatement e
  · exact Action.ends_pure .notFound
  · next row _ => exact Action.ends_pure (.success (Response.isSuccess_object row))

theorem ends_addUser (c : Connection σ) (r : Request) :
    Action.Ends (addUser c r) Result True := by
  unfold addUser
  split
  · exact Action.ends_pure (.success (Response.isSuccess_object _))
  · split
    · refine Action.ends_bind (Action.ends_trivial _) fun _ _ => Action.ends_pure ?_
      exact .internal (by decide)
    · refine Action.ends_bind (Action.ends_trivial _) fun count _ => ?_
      split
      · next e =>
        refine Action.ends_bind (ends_failed e) fun p hp => Action.ends_pure ?_
        rw [hp]
        exact result_ofStatement e
      · exact Action.ends_pure (.success (Response.isSuccess_object _))

theorem ends_follow (c : Connection σ) (route : Route) (claims : Claims) (r : Request) :
    Action.Ends (follow c route claims r) Result True := by
  cases route with
  | health => exact Action.ends_pure (.success isSuccess_healthy)
  | getUser => exact ends_showUser c claims.sub
  | createUser => exact ends_addUser c r

/-! ## The whole way -/

/-- A response to a request that has passed the gate. -/
inductive Presents : Response → Prop
  | success {x : Response} (h : x.IsSuccess) : Presents x
  | notFound {x : Response} (h : x.IsFailure 404 "not found") : Presents x
  | internal {x : Response} {m : String} (hm : m ∈ Response.internalMessages)
      (h : x.IsFailure 500 m) : Presents x

theorem Result.presents_response {p : Problem} (h : Result (.error p)) : Presents p.response := by
  cases h with
  | notFound => exact .notFound (Problem.isFailure_response .notFound)
  | internal hm => exact .internal hm (Problem.isFailure_response (.internal _))

/-- Behind the gate there is always a response, since a panic becomes one. -/
theorem ends_answer (c : Connection σ) (claims : Claims) (r : Request) :
    Action.Ends (answer c claims r) Presents False := by
  unfold answer
  split
  · refine Action.ends_bind (Action.ends_report _) fun _ _ => Action.ends_pure ?_
    exact .notFound (Problem.isFailure_response .notFound)
  · next route _ =>
    refine Action.ends_bind (Action.ends_caught (ends_follow c route claims r)) fun ending h => ?_
    split
    · cases h with
      | success h => exact Action.ends_pure (.success h)
    · exact Action.ends_pure (Result.presents_response h)
    · refine Action.ends_bind (Action.ends_report _) fun _ _ => Action.ends_pure ?_
      exact Result.presents_response (.internal (m := "Internal server error") (by decide))

/-- A body that is not JSON is told as a success whose body tells what is wrong with it. -/
theorem answer_of_unreadable {c : Connection σ} {claims : Claims} {r : Request} {e : BodyError}
    (hroute : Route.resolve r.method r.path = some .createUser) (he : r.json = .error e)
    (w : World σ) :
    (answer c claims r w).ending = .returned (.ok (Response.errorText e.message)) := by
  have hfollow : follow c .createUser claims r =
      pure (.ok (.ok (Response.errorText e.message))) := by
    show addUser c r = _
    unfold addUser
    rw [he]
  unfold answer
  rw [hroute]
  dsimp only
  rw [hfollow]
  rfl

theorem Presents.headers {x : Response} (h : Presents x) :
    x.headers = [] ∨ x.headers = [("content-type", "application/json")] := by
  cases h with
  | success h => exact .inr h.headers
  | notFound h => exact .inl h.headers
  | internal _ h => exact .inl h.headers

/-- Once the validator has answered there is a response, with one header or with none. -/
theorem exists_response {h : Handler σ} {r : Request} {verdict : Except Denial Claims}
    (hverdict : h.gate.judge r = .returned verdict) (w : World σ) :
    ∃ x : Response, (h.respond r w).ending = .returned x ∧
      (x.headers = [] ∨ x.headers = [("content-type", "application/json")]) := by
  cases verdict with
  | error e =>
    rw [respond_of_denied w hverdict]
    exact ⟨_, rfl, .inl rfl⟩
  | ok claims =>
    rw [respond_of_granted w hverdict]
    obtain ⟨x, hx, hpresents⟩ := (ends_answer h.connection claims r).exists_returned w
    exact ⟨x, hx, hpresents.headers⟩

/-- Unless the validator panics there is a response, and it has one of four forms. -/
theorem respond_forms {h : Handler σ} {r : Request} {verdict : Except Denial Claims}
    (hverdict : h.gate.judge r = .returned verdict) (w : World σ) :
    ∃ x : Response, (h.respond r w).ending = .returned x ∧
      (x.IsSuccess ∨
        (∃ e, verdict = .error e ∧ x.IsFailure 401 e.message) ∨
        x.IsFailure 404 "not found" ∨
        ∃ m ∈ Response.internalMessages, x.IsFailure 500 m) ∧
      ∀ claims e, verdict = .ok claims → Route.resolve r.method r.path = some .createUser →
        r.json = .error e → x.IsSuccess ∧ Tells x.body e.message := by
  cases verdict with
  | error e =>
    rw [respond_of_denied w hverdict]
    refine ⟨_, rfl, .inr (.inl ⟨e, rfl, Problem.isFailure_response (.ofDenial e)⟩), ?_⟩
    intro claims _ hclaims
    cases hclaims
  | ok claims =>
    rw [respond_of_granted w hverdict]
    obtain ⟨x, hx, hforms⟩ := (ends_answer h.connection claims r).exists_returned w
    refine ⟨x, hx, ?_, ?_⟩
    · cases hforms with
      | success h => exact .inl h
      | notFound h => exact .inr (.inr (.inl h))
      | internal hm h => exact .inr (.inr (.inr ⟨_, hm, h⟩))
    · intro claims' e _ hroute he
      rw [answer_of_unreadable hroute he] at hx
      cases hx
      exact ⟨Response.isSuccess_object _, tells_errorText e.message⟩

/-- A request to create a user from no body. -/
theorem respond_forms_no_body :
    let claims : Claims := ⟨"1", .user, 0, 0⟩
    let h : Handler Unit := ⟨⟨"", fun _ _ => .returned (.ok claims)⟩, .ofTarget "db" .simulated⟩
    let r : Request := ⟨"post", "/api/user", [("authorization", "x")], none, none⟩
    h.gate.judge r = .returned (.ok claims) ∧
      ∃ x : Response, (h.respond r ⟨.ofPool ⟨1, 0⟩, ()⟩).ending = .returned x ∧
        x.IsSuccess ∧ Tells x.body "Empty request body" := by
  intro claims h r
  have hverdict : h.gate.judge r = .returned (.ok claims) := rfl
  obtain ⟨x, hx, -, hunreadable⟩ := respond_forms hverdict ⟨.ofPool ⟨1, 0⟩, ()⟩
  exact ⟨hverdict, x, hx, hunreadable claims .empty rfl (by decide) rfl⟩

end Handler

end Gatehouse
