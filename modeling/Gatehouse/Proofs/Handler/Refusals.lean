import Gatehouse.Handler
import Gatehouse.Proofs.Connection.Calls
import Gatehouse.Proofs.Handler.ErrorText
import Gatehouse.Proofs.Token.Decoding

/-!
# Refused requests

A request that the gate refuses is answered from the refusal alone. Nothing else of the request is
looked at, no statement reaches the backend and the link stays as it is, so that two refusals for
one reason cannot be told from each other, whoever sends what to which connection
(`respond_alike_of_refused`).
-/

namespace Gatehouse

/-- The value of the authorization header of a request. A request without the header is like one
with an empty value. -/
def Request.credential (r : Request) : String :=
  (r.header? "authorization").getD ""

/-- A gate refuses a header value: an empty one itself, any other by its validator. -/
def Gate.Refuses (g : Gate) (credential : String) (e : Denial) : Prop :=
  (credential = "" ∧ e = .malformed "Missing Authorization header") ∨
    (credential ≠ "" ∧ g.validator credential g.secret = .returned (.error e))

variable {σ τ : Type}

/-- A gate looks at nothing else. -/
theorem Gate.judge_congr (g : Gate) {r r' : Request} (h : r.credential = r'.credential) :
    g.judge r = g.judge r' := by
  unfold judge
  unfold Request.credential at h
  rw [h]

theorem Gate.judge_of_refuses {g : Gate} {r : Request} {e : Denial}
    (h : g.Refuses r.credential e) : g.judge r = .returned (.error e) := by
  unfold Gate.judge
  dsimp only
  rcases h with ⟨hempty, rfl⟩ | ⟨hne, hvalidator⟩
  · have hheader : ((r.header? "authorization").getD "").isEmpty = true :=
      String.isEmpty_iff.mpr hempty
    rw [if_pos hheader]
  · have hheader : ¬ ((r.header? "authorization").getD "").isEmpty = true :=
      fun h => hne (String.isEmpty_iff.mp h)
    rw [if_neg hheader]
    exact hvalidator

theorem Gate.Refuses.message_of_empty {g : Gate} {e : Denial} (h : g.Refuses "" e) :
    e.message = "Missing Authorization header" := by
  rcases h with ⟨-, rfl⟩ | ⟨hne, -⟩
  · rfl
  · exact absurd rfl hne

namespace Handler

theorem respond_of_refused {h : Handler σ} {r : Request} {e : Denial}
    (he : h.gate.Refuses r.credential e) (w : World σ) :
    h.respond r w =
      ⟨.returned (.unauthorized e.message), w, [.seen (.event (refusedEvent e))]⟩ :=
  respond_of_denied w (Gate.judge_of_refuses he)

/-- Requests with one header value that are refused for one reason get one response, whatever else
they say and whatever is behind their connections, and nothing happens to the connections or the
backends. For signed tokens the reason itself is a matter of the header value. -/
theorem respond_alike_of_refused {h : Handler σ} {h' : Handler τ} {r r' : Request} {e : Denial}
    (hheader : r.credential = r'.credential) (he : h.gate.Refuses r.credential e)
    (w : World σ) (w' : World τ) :
    ∃ response : Response,
      response.status = 401 ∧ response.headers = [] ∧
      response.body = Response.errorText e.message ∧ Tells response.body e.message ∧
      (r.credential = "" → e.message = "Missing Authorization header") ∧
      ((h.respond r w).ending = .returned response ∧
        (h.respond r w).calls = [] ∧ (h.respond r w).world = w) ∧
      (h'.gate.Refuses r'.credential e →
        (h'.respond r' w').ending = .returned response ∧
          (h'.respond r' w').calls = [] ∧ (h'.respond r' w').world = w') ∧
      ∀ now secret, h.gate = .standard now secret → h'.gate = .standard now secret →
        (h'.respond r' w').ending = .returned response := by
  have hrefused' : h'.gate.Refuses r'.credential e →
      (h'.respond r' w').ending = .returned (.unauthorized e.message) ∧
        (h'.respond r' w').calls = [] ∧ (h'.respond r' w').world = w' := by
    intro he'
    rw [respond_of_refused he']
    exact ⟨rfl, rfl, rfl⟩
  refine ⟨.unauthorized e.message, rfl, rfl, rfl, tells_errorText e.message, ?_, ?_, hrefused', ?_⟩
  · intro hempty
    rw [hempty] at he
    exact he.message_of_empty
  · rw [respond_of_refused he]
    exact ⟨rfl, rfl, rfl⟩
  · intro now secret hgate hgate'
    rw [hheader, hgate, ← hgate'] at he
    exact (hrefused' he).1

/-- A request for health and one with a body that is no text, with the same bad token, over
connections of which one is live. -/
theorem respond_alike_of_refused_bad_token :
    let gate := Gate.standard 0 "secret"
    let headers := [("authorization", "Bearer token")]
    let r : Request := ⟨"GET", "/api/health", headers, none, none⟩
    let r' : Request := (⟨"POST", "/api/user", headers, none, none⟩ : Request).withBodyBytes [0xFF]
    let c : Connection Unit := .ofTarget "db" .simulated
    let e : Denial := .malformed "Malformed JWT token: InvalidToken"
    ∃ response : Response, response.status = 401 ∧ Tells response.body e.message ∧
      ((⟨gate, c⟩ : Handler Unit).respond r ⟨.ofPool ⟨1, 1⟩, ()⟩).ending = .returned response ∧
      ((⟨gate, c⟩ : Handler Unit).respond r' ⟨⟨⟨1, 1⟩, true⟩, ()⟩).ending = .returned response := by
  intro gate headers r r' c e
  have hcredential : Token.credential? "Bearer token" = some "token" := by decide
  have hparts : Token.parts? "token" = none := by decide
  have hvalidate : Token.validate 0 "Bearer token" "secret" = .error e := by
    rw [Token.validate_of_credential (by decide) hcredential]
    unfold Token.decode
    rw [hparts]
    rfl
  have he : gate.Refuses r.credential e := .inr ⟨by decide, congrArg Ending.returned hvalidate⟩
  obtain ⟨response, hstatus, -, -, htells, -, ⟨hfirst, -⟩, -, hstandard⟩ :=
    @respond_alike_of_refused Unit Unit ⟨gate, c⟩ ⟨gate, c⟩ r r' e rfl he
      ⟨.ofPool ⟨1, 1⟩, ()⟩ ⟨⟨⟨1, 1⟩, true⟩, ()⟩
  exact ⟨response, hstatus, htells, hfirst, hstandard 0 "secret" rfl rfl⟩

end Handler

end Gatehouse
