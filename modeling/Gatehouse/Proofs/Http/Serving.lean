import Gatehouse.Proofs.Dictionary
import Gatehouse.Proofs.Handler.Responses
import Gatehouse.Proofs.Http.Asked

/-!
# Serving is responding

An HTTP request is answered in one of three ways. A request for the options of a resource and a
request whose body is too long get a response of their own, and nothing behind them is asked.
Every other request gets the response of the handler to the request that it asks (`Http.Asks`),
under more headers.
-/

namespace Gatehouse.Http

/-! ## Headers of responses -/

/-- An HTTP response shows a handler's response. -/
structure Shows (x : Gatehouse.Response) (y : Response) : Prop where
  status : y.status = x.status
  body : y.body = x.body
  contentType : y.headers.find? "content-type" = x.contentType?

theorem shows_ofResponse {x : Gatehouse.Response}
    (h : x.headers = [] ∨ x.headers = [("content-type", "application/json")]) :
    Shows x (ofResponse x) := by
  constructor
  · rfl
  · rfl
  · have hmore : ∀ entry ∈ ("content-length", toString (Utf8.encode x.body).length) ::
        sharedHeaders ++ [("access-control-expose-headers", "*")], entry.1 ≠ "content-type" := by
      simp [sharedHeaders]
    have hfound : (ofResponse x).headers.find? "content-type" =
        (Dictionary.ofList x.headers).find? "content-type" := by
      simp only [ofResponse, withHeaders, Dictionary.ofList]
      rw [List.append_assoc, List.foldl_append]
      exact Dictionary.find?_foldl_insert_of_ne _ hmore
    rw [hfound]
    cases h with
    | inl h => rw [h, Response.contentType?, h]; rfl
    | inr h => rw [h, Response.contentType?, h]; rfl

/-! ## Runs -/

section Runs

variable {σ : Type} {limit : UInt64} {r : Request} (h : Handler σ) (w : World σ)

theorem serve_of_options (hmethod : r.method = "OPTIONS") :
    serve h limit r w = ⟨.returned options, w, []⟩ := by
  simp [serve, hmethod]

theorem serve_of_tooLarge (hmethod : r.method ≠ "OPTIONS") (hbody : limit.toNat < r.body.length) :
    serve h limit r w =
      ⟨.returned (ofResponse tooLarge), w, [.seen (.event tooLargeEvent)]⟩ := by
  simp [serve, hmethod, hbody, bind, Action.andThen]

variable (hmethod : r.method ≠ "OPTIONS") (hbody : r.body.length ≤ limit.toNat)

include hmethod hbody

theorem serve_of_read {q : Gatehouse.Request} (hasks : Asks r q) :
    serve h limit r = h.respond q >>= fun x => pure (ofResponse x) := by
  have hrespond : h.respond q = h.respond r.toRequest := hasks.respond_eq (asks_toRequest r) h
  have hfits : ¬ limit.toNat < r.body.length := Nat.not_lt.mpr hbody
  rw [hrespond]
  simp [serve, hmethod, hfits]

/-- Serving a request that is read ends as the handler's response to it does, in the same world and
with the same history. -/
theorem serve_run_of_read {q : Gatehouse.Request} (hasks : Asks r q) :
    (serve h limit r w).world = (h.respond q w).world ∧
      (serve h limit r w).history = (h.respond q w).history ∧
      (∀ p, (h.respond q w).ending = .panicked p → (serve h limit r w).ending = .panicked p) ∧
      ∀ x, (h.respond q w).ending = .returned x →
        ∃ y, (serve h limit r w).ending = .returned y ∧ Shows x y := by
  rw [serve_of_read h hmethod hbody hasks]
  cases hverdict : h.gate.judge q with
  | panicked p =>
    have hrun := Handler.respond_of_panicked w hverdict
    rw [Action.bind_run_of_panicked _ hrun, hrun]
    refine ⟨rfl, rfl, fun _ hp => ?_, fun _ hx => ?_⟩
    · cases hp
      rfl
    · cases hx
  | returned verdict =>
    obtain ⟨x, hx, hheaders⟩ := Handler.exists_response hverdict w
    rw [Action.bind_run_of_ending _ hx, hx]
    refine ⟨rfl, List.append_nil _, fun _ hp => ?_, fun _ hx' => ?_⟩
    · cases hp
    · cases hx'
      exact ⟨_, rfl, shows_ofResponse hheaders⟩

end Runs

/-- What an HTTP request comes to, for every handler. A request for options is answered at once, and
one whose body is too long after one event; neither the gate nor the database is asked. Every other
request, its body as long as the limit included, comes to what the handler comes to on whatever
request asks the same: the same world, the same history, the same panic, and a response with the
same status, body and type of the body. There is a request that asks the same, and its path is the
one that the target locates. -/
theorem serve_agrees_with_respond {σ : Type} (limit : UInt64) (r : Request) :
    (r.method = "OPTIONS" → ∃ y : Response, y.status = 200 ∧ y.body = "" ∧
      ∀ (h : Handler σ) w, serve h limit r w = ⟨.returned y, w, []⟩) ∧
    (r.method ≠ "OPTIONS" → limit.toNat < r.body.length →
      ∃ y : Response, y.status = 413 ∧
        y.body = "\x7b\"error\":\"request body too large\"\x7d" ∧
        ∀ (h : Handler σ) w,
          serve h limit r w = ⟨.returned y, w, [.seen (.event tooLargeEvent)]⟩) ∧
    (r.method ≠ "OPTIONS" → r.body.length ≤ limit.toNat →
      (∃ q, Asks r q) ∧ ∀ q, Asks r q → ∀ (h : Handler σ) w,
        (serve h limit r w).world = (h.respond q w).world ∧
        (serve h limit r w).history = (h.respond q w).history ∧
        (∀ p, (h.respond q w).ending = .panicked p → (serve h limit r w).ending = .panicked p) ∧
        ∀ x, (h.respond q w).ending = .returned x →
          ∃ y, (serve h limit r w).ending = .returned y ∧ Shows x y) ∧
    ∀ path : String, Locates r.uri.toList path.toList → Http.path r.uri = path := by
  refine ⟨?_, ?_, ?_, fun _ => path_of_locates⟩
  · intro hmethod
    exact ⟨options, rfl, rfl, fun h w => serve_of_options h w hmethod⟩
  · intro hmethod hbody
    have htext : (ofResponse tooLarge).body = "\x7b\"error\":\"request body too large\"\x7d" := by
      decide +kernel
    exact ⟨ofResponse tooLarge, rfl, htext, fun h w => serve_of_tooLarge h w hmethod hbody⟩
  · intro hmethod hbody
    refine ⟨⟨r.toRequest, asks_toRequest r⟩, ?_⟩
    intro q hasks h w
    exact serve_run_of_read h w hmethod hbody hasks

/-- Three values under one name, of which the last cannot be read, over a target with a query, and a
body of one byte that is no text. It is read where one byte is let through and not where none is. -/
theorem serve_agrees_with_respond_at_limit :
    let r : Request := ⟨"POST", "/api/user?id=1",
      [("authorization", [0x61]), ("Authorization", [0x62]), ("authorization", [0xFF])], [0xFF]⟩
    let q : Gatehouse.Request :=
      ⟨"POST", "/api/user", [("authorization", "b")], none, some ⟨0, some 1⟩⟩
    let h : Handler Unit := ⟨⟨"", fun header _ =>
      if header = "b" then .returned (.ok ⟨"1", .user, 0, 0⟩) else .panicked "another value"⟩,
      .ofTarget "db" .simulated⟩
    let w : World Unit := ⟨.ofPool ⟨1, 0⟩, ()⟩
    let o : Request := { r with method := "OPTIONS" }
    r.method ≠ "OPTIONS" ∧ r.body.length ≤ (1 : UInt64).toNat ∧ Asks r q ∧
      (serve h 1 r w).history = (h.respond q w).history ∧
      (∃ y, (serve h 1 r w).ending = .returned y ∧ y.status = 200) ∧
      (0 : UInt64).toNat < r.body.length ∧
      (∃ y, (serve h 0 r w).ending = .returned y ∧ y.status = 413) ∧
      o.method = "OPTIONS" ∧ (serve h 0 o w).history = [] := by
  intro r q h w o
  have hmethod : r.method ≠ "OPTIONS" := by decide
  have hread : r.body.length ≤ (1 : UInt64).toNat := by decide
  have hlong : (0 : UInt64).toNat < r.body.length := by decide
  have hasks : Asks r q := by
    have heq : r.toRequest = q := by decide +kernel
    exact heq ▸ asks_toRequest r
  obtain ⟨-, -, hserved, -⟩ := serve_agrees_with_respond (σ := Unit) 1 r
  obtain ⟨-, hrefused, -, -⟩ := serve_agrees_with_respond (σ := Unit) 0 r
  obtain ⟨hoptions, -, -, -⟩ := serve_agrees_with_respond (σ := Unit) 0 o
  obtain ⟨-, hhistory, -, hending⟩ := (hserved hmethod hread).2 q hasks h w
  have hrespond : (h.respond q w).ending = .returned
      (.ok (Response.errorText (BodyError.notUtf8 ⟨0, some 1⟩).message)) := by
    have hverdict : h.gate.judge q = .returned (.ok ⟨"1", .user, 0, 0⟩) := by
      dsimp only [h, q]
      rfl
    rw [Handler.respond_of_granted w hverdict]
    exact Handler.answer_of_unreadable (by decide) rfl w
  obtain ⟨y, hy, hshows⟩ := hending _ hrespond
  obtain ⟨y', hstatus', -, hy'⟩ := hrefused hmethod hlong
  obtain ⟨y'', -, -, hy''⟩ := hoptions rfl
  refine ⟨hmethod, hread, hasks, hhistory, ⟨y, hy, hshows.status⟩, hlong,
    ⟨y', ?_, hstatus'⟩, rfl, ?_⟩
  · rw [hy']
  · rw [hy'']

end Gatehouse.Http
