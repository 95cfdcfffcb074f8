import Gatehouse.Problem
import Gatehouse.Request
import Gatehouse.Proofs.Json.ObjectText
import Gatehouse.Proofs.Json.Printed

/-!
# Error texts

A failure is told as an object with one string in it. Whatever the string says, quotes, backslashes,
control characters and everything outside ASCII included, the object is read back as itself
(`Json.parse_of_members`), so a request that carries the body of a failure carries its message
(`Problem.tells_response`).
-/

namespace Gatehouse

open Json

/-! ## The JSON in a body -/

theorem Json.parse_render_of_string (k s : String) (hk : k ≠ embeddedKey) :
    parse (Value.object [(k, .string s)]).render = .ok (.object [(k, .string s)]) :=
  parse_of_members hk (members_chars [(k, .string s)]) (spellsString_stringChars s)

theorem Json.parse_render_of_embedded {s : String} {p : Value} (h : parse s = .ok p) :
    parse (Value.object [(embeddedKey, .string s)]).render = .ok p :=
  parse_of_embedded (members_chars [(embeddedKey, .string s)]) (spellsString_stringChars s) h

theorem Request.json_withBody (r : Request) {body : String} {v : Value} (h : parse body = .ok v) :
    (r.withBody body).json = .ok v := by
  -- an empty body is refused before it is parsed, but an empty text is no JSON either
  have hne : body.isEmpty = false := by
    cases hempty : body.isEmpty with
    | false => rfl
    | true =>
      rw [String.isEmpty_iff.mp hempty] at h
      cases h
  simp only [withBody, json, hne, h]
  rfl

theorem Request.exists_body_of_json {r : Request} {v : Value} (h : r.json = .ok v) :
    ∃ body, r.body = some body ∧ parse body = .ok v := by
  unfold json at h
  split at h
  · cases h
  · split at h
    · cases h
    · next body hbody =>
      split at h
      · cases h
      · refine ⟨body, hbody, ?_⟩
        cases hparse : parse body with
        | error e =>
          rw [hparse] at h
          cases h
        | ok v' =>
          rw [hparse] at h
          cases h
          rfl

/-! ## Messages -/

/-- A body that tells a message: read as the body of any request it is the object with the message
under `error`. -/
def Tells (body message : String) : Prop :=
  ∀ r : Request, (r.withBody body).json = .ok (.object [("error", .string message)])

theorem tells_of_members {body message : String} {v : List UInt8}
    (ht : Members [("error", v)] (Utf8.encode body)) (hv : SpellsString message v) :
    Tells body message := by
  intro r
  exact r.json_withBody (parse_of_members (by decide) ht hv)

/-- The text of an error tells it, whatever characters the message has. -/
theorem tells_errorText (message : String) : Tells (Response.errorText message) message :=
  tells_of_members (members_chars [("error", .string message)]) (spellsString_stringChars message)

theorem Problem.tells_response (p : Problem) : Tells p.response.body p.message := by
  cases p with
  | unauthorized m => exact tells_errorText m
  | internal m => exact tells_errorText m
  | notFound =>
    exact tells_of_members (members_of_spaced (by decide)) (spellsString_stringChars "not found")

end Gatehouse
