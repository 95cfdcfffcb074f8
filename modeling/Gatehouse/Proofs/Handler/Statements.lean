import Gatehouse.Proofs.Handler.Refusals
import Gatehouse.Proofs.Json.ObjectText
import Gatehouse.Proofs.Json.Printed

/-!
# The statements of a request

What a request does to the database: nothing at all, one question for the user of the token, or one
insertion, repeated while it meets conflicts (`respond_calls`). What is inserted are the last values
under the two columns in the text of the body. That text is the body itself unless the body starts
with the marker for an embedded text; then the embedded one counts (`not_bound_from_body`).
-/

namespace Gatehouse

variable {σ : Type}

namespace Handler

open Gatehouse.Action (Silent)

/-! ## Behind the gate -/

theorem silent_failed (e : Connection.Fault) : Silent (failed e : Action σ Problem) :=
  (Silent.report _).bind fun _ => .pure _

theorem calls_showUser (c : Connection σ) (id : String) (w : World σ) :
    (showUser c id w).calls =
      if w.link.connected then [⟨.fetch, selectUser, [.string id]⟩] else [] := by
  have hquery := c.calls_query selectUser [.string id] w (by decide)
  rw [← hquery]
  refine Action.calls_bind_left _ (fun rows => ?_) w
  split
  · exact (silent_failed _).bind fun _ => .pure _
  · exact .pure _
  · exact .pure _

theorem silent_addUser (c : Connection σ) {r : Request} (h : ∀ d, r.json ≠ .ok (.object d)) :
    Silent (addUser c r) := by
  unfold addUser
  split
  · exact .pure _
  · next v hv =>
    split
    · exact (Silent.report _).bind fun _ => .pure _
    · next u hu =>
      cases v with
      | object d => exact absurd hv (h d)
      | null | bool | number | string | array => cases hu

theorem calls_addUser (c : Connection σ) {r : Request} {d : Dictionary Json.Value}
    (h : r.json = .ok (.object d)) (w : World σ) :
    (addUser c r w).calls =
      (c.executeRetrying insertUser
        [(d.find? "username").getD .null, (d.find? "email").getD .null] w).calls := by
  unfold addUser
  rw [h]
  dsimp only
  rw [NewUser.ofJson_object]
  refine Action.calls_bind_left _ (fun count => ?_) w
  split
  · exact (silent_failed _).bind fun _ => .pure _
  · exact .pure _

/-! ## The whole way -/

section Whole

variable {h : Handler σ} {r : Request} {w : World σ} {claims : Claims} {route : Route}

theorem calls_respond_of_not_judged (hverdict : ∀ claims, h.gate.judge r ≠ .returned (.ok claims)) :
    (h.respond r w).calls = [] := by
  cases hjudge : h.gate.judge r with
  | panicked p =>
    rw [respond_of_panicked w hjudge]
    rfl
  | returned verdict =>
    cases verdict with
    | error e =>
      rw [respond_of_denied w hjudge]
      rfl
    | ok claims => exact absurd hjudge (hverdict claims)

theorem calls_respond_of_unrouted (hroute : Route.resolve r.method r.path = none) :
    (h.respond r w).calls = [] := by
  by_cases hverdict : ∃ claims, h.gate.judge r = .returned (.ok claims)
  · obtain ⟨claims, hclaims⟩ := hverdict
    rw [respond_of_granted w hclaims]
    unfold answer
    rw [hroute]
    rfl
  · exact calls_respond_of_not_judged fun claims hclaims => hverdict ⟨claims, hclaims⟩

theorem calls_respond (hverdict : h.gate.judge r = .returned (.ok claims))
    (hroute : Route.resolve r.method r.path = some route) :
    (h.respond r w).calls = (follow h.connection route claims r w).calls := by
  rw [respond_of_granted w hverdict]
  unfold answer
  rw [hroute]
  refine Action.calls_bind_left (Action.caught (follow h.connection route claims r))
    (fun ending => ?_) w
  split
  · exact .pure _
  · exact .pure _
  · exact (Silent.report _).bind fun _ => .pure _

theorem calls_respond_getUser (hverdict : h.gate.judge r = .returned (.ok claims))
    (hroute : Route.resolve r.method r.path = some .getUser) :
    (h.respond r w).calls =
      if w.link.connected then [⟨.fetch, selectUser, [.string claims.sub]⟩] else [] := by
  rw [calls_respond hverdict hroute]
  exact calls_showUser h.connection claims.sub w

theorem calls_respond_createUser {d : Dictionary Json.Value}
    (hverdict : h.gate.judge r = .returned (.ok claims)) (hlive : w.link.connected = true)
    (hroute : Route.resolve r.method r.path = some .createUser)
    (hjson : r.json = .ok (.object d)) :
    ∃ k, 1 ≤ k ∧ k ≤ h.connection.maxRetries.toNat + 1 ∧ (h.respond r w).calls =
      List.replicate k ⟨.execute, insertUser,
        [(d.find? "username").getD .null, (d.find? "email").getD .null]⟩ := by
  obtain ⟨k, hk, hcalls⟩ := h.connection.calls_executeWithin insertUser
    [(d.find? "username").getD .null, (d.find? "email").getD .null] w
    h.connection.maxRetries.toNat hlive
  refine ⟨k + 1, Nat.le_add_left 1 k, Nat.succ_le_succ hk, ?_⟩
  rw [calls_respond hverdict hroute, ← hcalls]
  exact calls_addUser h.connection hjson w

theorem calls_follow_of_apart (c : Connection σ) (hlive : w.link.connected = false) :
    (follow c route claims r w).calls = [] := by
  cases route with
  | health => rfl
  | getUser =>
    show (showUser c claims.sub w).calls = []
    rw [calls_showUser, hlive]
    rfl
  | createUser =>
    show (addUser c r w).calls = []
    by_cases hobject : ∃ d, r.json = .ok (.object d)
    · obtain ⟨d, hd⟩ := hobject
      rw [calls_addUser c hd]
      exact c.calls_executeWithin_of_apart _ _ w _ hlive
    · exact silent_addUser c (fun d hd => hobject ⟨d, hd⟩) w

theorem calls_respond_of_other
    (hother : ¬ ∃ claims, h.gate.judge r = .returned (.ok claims) ∧ w.link.connected = true ∧
      (Route.resolve r.method r.path = some .getUser ∨
        Route.resolve r.method r.path = some .createUser ∧ ∃ d, r.json = .ok (.object d))) :
    (h.respond r w).calls = [] := by
  by_cases hverdict : ∃ claims, h.gate.judge r = .returned (.ok claims)
  · obtain ⟨claims, hclaims⟩ := hverdict
    cases hroute : Route.resolve r.method r.path with
    | none => exact calls_respond_of_unrouted hroute
    | some route =>
      rw [calls_respond hclaims hroute]
      by_cases hlive : w.link.connected = true
      · cases route with
        | health => rfl
        | getUser => exact absurd ⟨claims, hclaims, hlive, .inl hroute⟩ hother
        | createUser =>
          apply silent_addUser
          intro d hd
          exact hother ⟨claims, hclaims, hlive, .inr ⟨hroute, d, hd⟩⟩
      · exact calls_follow_of_apart h.connection (by simpa using hlive)
  · exact calls_respond_of_not_judged fun claims hclaims => hverdict ⟨claims, hclaims⟩

end Whole

/-- Which statements reach the backend, in each case and in no other. Whose user is asked for is a
matter of the header value alone. -/
theorem respond_calls (h : Handler σ) (r : Request) (w : World σ) :
    (∀ claims, h.gate.judge r = .returned (.ok claims) → w.link.connected = true →
      Route.resolve r.method r.path = some .getUser →
      (h.respond r w).calls =
        [⟨.fetch, "SELECT * FROM users WHERE id = $1", [.string claims.sub]⟩]) ∧
    (∀ claims (d : Dictionary Json.Value), h.gate.judge r = .returned (.ok claims) →
      w.link.connected = true → Route.resolve r.method r.path = some .createUser →
      r.json = .ok (.object d) →
      ∃ k body ms username email, 1 ≤ k ∧ k ≤ h.connection.maxRetries.toNat + 1 ∧
        r.body = some body ∧ Json.Carries (Utf8.encode body) ms ∧
        Json.LastValue "username" ms username ∧ Json.LastValue "email" ms email ∧
        username = (d.find? "username").getD .null ∧ email = (d.find? "email").getD .null ∧
        (h.respond r w).calls = List.replicate k
          ⟨.execute, "INSERT INTO users (username, email) VALUES ($1, $2)", [username, email]⟩) ∧
    ((¬ ∃ claims, h.gate.judge r = .returned (.ok claims) ∧ w.link.connected = true ∧
        (Route.resolve r.method r.path = some .getUser ∨
          Route.resolve r.method r.path = some .createUser ∧ ∃ d, r.json = .ok (.object d))) →
      (h.respond r w).calls = []) ∧
    ∀ (r' : Request) (w' : World σ), r'.credential = r.credential →
      Route.resolve r.method r.path = some .getUser →
      Route.resolve r'.method r'.path = some .getUser →
      w'.link.connected = w.link.connected → (h.respond r' w').calls = (h.respond r w).calls := by
  refine ⟨?_, ?_, calls_respond_of_other, ?_⟩
  · intro claims hverdict hlive hroute
    rw [calls_respond_getUser hverdict hroute, hlive]
    rfl
  · intro claims d hverdict hlive hroute hjson
    obtain ⟨k, hk, hbound, hcalls⟩ := calls_respond_createUser hverdict hlive hroute hjson
    obtain ⟨body, hbody, hparse⟩ := r.exists_body_of_json hjson
    obtain ⟨ms, hcarries, hvalues⟩ := Json.carries_of_parse hparse
    exact ⟨k, body, ms, _, _, hk, hbound, hbody, hcarries, hvalues "username", hvalues "email",
      rfl, rfl, hcalls⟩
  · intro r' w' hcredential hroute hroute' hlive
    have hjudge : h.gate.judge r' = h.gate.judge r := h.gate.judge_congr hcredential
    by_cases hverdict : ∃ claims, h.gate.judge r = .returned (.ok claims)
    · obtain ⟨claims, hclaims⟩ := hverdict
      rw [calls_respond_getUser hclaims hroute,
        calls_respond_getUser (hjudge.trans hclaims) hroute', hlive]
    · rw [calls_respond_of_not_judged fun claims hclaims => hverdict ⟨claims, hclaims⟩,
        calls_respond_of_not_judged fun claims hclaims =>
          hverdict ⟨claims, hjudge.symm.trans hclaims⟩]

/-- Two requests of one user, for the user and to create a user without an address. -/
theorem respond_calls_of_user :
    let claims : Claims := ⟨"7", .user, 0, 0⟩
    let h : Handler Unit := ⟨⟨"", fun _ _ => .returned (.ok claims)⟩, .ofTarget "db" .simulated⟩
    let r : Request := ⟨"get", "/api/user", [("authorization", "x")], none, none⟩
    let r' : Request := Request.withBody ⟨"POST", "/api/user", [("authorization", "x")], none, none⟩
      "\x7b\"username\":\"x\"\x7d"
    let w : World Unit := ⟨⟨⟨1, 1⟩, true⟩, ()⟩
    (h.respond r w).calls =
        [⟨.fetch, "SELECT * FROM users WHERE id = $1", [.string "7"]⟩] ∧
      ∃ k, 1 ≤ k ∧ (h.respond r' w).calls = List.replicate k ⟨.execute,
        "INSERT INTO users (username, email) VALUES ($1, $2)", [.string "x", .null]⟩ := by
  intro claims h r r' w
  have hparse := Json.parse_render_of_string "username" "x" (by decide)
  have hjson : r'.json = .ok (.object [("username", .string "x")]) := r.json_withBody hparse
  obtain ⟨hshows, -⟩ := respond_calls h r w
  obtain ⟨-, hcreates, -⟩ := respond_calls h r' w
  obtain ⟨k, _, _, _, _, hk, -, -, -, -, -, rfl, rfl, hcalls⟩ :=
    hcreates claims _ rfl rfl (by decide) hjson
  exact ⟨hshows claims rfl rfl (by decide), k, hk, hcalls⟩

/-- The one member of this body is under the marker, so that neither column is in its text. What is
inserted is the column in the embedded text. -/
theorem not_bound_from_body :
    let claims : Claims := ⟨"7", .user, 0, 0⟩
    let h : Handler Unit := ⟨⟨"", fun _ _ => .returned (.ok claims)⟩, .ofTarget "db" .simulated⟩
    let body := "\x7b\"$serde_json::private::RawValue\":\"\x7b\\\"username\\\":\\\"x\\\"\x7d\"\x7d"
    let r : Request :=
      Request.withBody ⟨"POST", "/api/user", [("authorization", "x")], none, none⟩ body
    let w : World Unit := ⟨⟨⟨1, 1⟩, true⟩, ()⟩
    h.gate.judge r = .returned (.ok claims) ∧ w.link.connected = true ∧
      Route.resolve r.method r.path = some .createUser ∧ (∃ d, r.json = .ok (.object d)) ∧
      (∃ q, Json.Members [("$serde_json::private::RawValue", q)] (Utf8.encode body)) ∧
      ¬ ∃ k, 1 ≤ k ∧ (h.respond r w).calls = List.replicate k
        ⟨.execute, "INSERT INTO users (username, email) VALUES ($1, $2)", [.null, .null]⟩ := by
  intro claims h body r w
  let marked : List (String × Json.Value) :=
    [("$serde_json::private::RawValue", .string "\x7b\"username\":\"x\"\x7d")]
  have hbody : body = (Json.Value.object marked).render := rfl
  have hparse : Json.parse body = .ok (.object [("username", .string "x")]) := by
    rw [hbody]
    exact Json.parse_render_of_embedded (Json.parse_render_of_string "username" "x" (by decide))
  have hmembers : ∃ q, Json.Members [("$serde_json::private::RawValue", q)] (Utf8.encode body) := by
    rw [hbody]
    exact ⟨_, Json.members_chars marked⟩
  have hjson : r.json = .ok (.object [("username", .string "x")]) := Request.json_withBody _ hparse
  obtain ⟨k, hk, -, hcalls⟩ := calls_respond_createUser (h := h) (w := w) rfl rfl (by decide) hjson
  refine ⟨rfl, rfl, by decide, ⟨_, hjson⟩, hmembers, ?_⟩
  rintro ⟨k', hk', hcalls'⟩
  rw [hcalls] at hcalls'
  obtain ⟨k, rfl⟩ := Nat.exists_eq_add_of_le' hk
  obtain ⟨k', rfl⟩ := Nat.exists_eq_add_of_le' hk'
  have hhead := congrArg List.head? hcalls'
  cases hhead

end Handler

end Gatehouse
