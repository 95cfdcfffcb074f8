import Gatehouse.Request
import Mathlib.Data.List.Induction

/-!
# Setting the body of a request

A body is set as a text, as bytes, or by putting another one in the place of the old one.
`BodyStep.told` is what a request has to say of its JSON by one of these steps alone. It is what the
request says when that step was the last, unless the step only put a body in place behind bytes that
were no text: then the request still tells what was wrong with the bytes, whatever body stands there
(`Request.json_of_last_body`).
-/

namespace Gatehouse

/-- A way to set the body of a request. -/
inductive BodyStep where
  /-- A text becomes the body. -/
  | text (body : String)
  /-- Bytes become the body, if they are a text. -/
  | bytes (body : List UInt8)
  /-- A body, or none, is put in the place of the body. -/
  | put (body : Option String)

namespace BodyStep

/-- The request behind a step. -/
def apply (r : Request) : BodyStep → Request
  | text body => r.withBody body
  | bytes body => r.withBodyBytes body
  | put body => r.replaceBody body

def isPut : BodyStep → Bool
  | put _ => true
  | text _ | bytes _ => false

/-- The text that a step sets, empty where it leaves no body, or what is wrong with its bytes. -/
def content : BodyStep → Except Utf8.Fault String
  | text body => .ok body
  | bytes body => Utf8.decode body
  | put body => .ok (body.getD "")

/-- What there is to say of the JSON in a body by the step that sets it. -/
def told (step : BodyStep) : Except BodyError Json.Value :=
  match step.content with
  | .error fault => .error (.notUtf8 fault)
  | .ok body => if body = "" then .error .empty else (Json.parse body).mapError .notJson

end BodyStep

namespace Request

/-- The request behind some steps. -/
def set (r : Request) (steps : List BodyStep) : Request :=
  steps.foldl BodyStep.apply r

/-- What was wrong with some bytes is remembered behind some steps: nothing has been done since but
putting bodies in place. -/
inductive Remembers (r : Request) : List BodyStep → Utf8.Fault → Prop
  | given {fault : Utf8.Fault} (h : r.undecodable = some fault) : Remembers r [] fault
  | bytes {body : List UInt8} {fault : Utf8.Fault} (steps : List BodyStep)
      (h : Utf8.decode body = .error fault) : Remembers r (steps ++ [.bytes body]) fault
  | put {steps : List BodyStep} {fault : Utf8.Fault} (body : Option String)
      (h : Remembers r steps fault) : Remembers r (steps ++ [.put body]) fault

theorem set_concat (r : Request) (steps : List BodyStep) (last : BodyStep) :
    r.set (steps ++ [last]) = last.apply (r.set steps) :=
  List.foldl_append

/-! ## What is remembered -/

theorem undecodable_withBodyBytes (r : Request) (body : List UInt8) (fault : Utf8.Fault) :
    (r.withBodyBytes body).undecodable = some fault ↔ Utf8.decode body = .error fault := by
  cases body with
  | nil => exact ⟨nofun, nofun⟩
  | cons b body =>
    unfold withBodyBytes
    dsimp only
    cases Utf8.decode (b :: body) with
    | ok text => exact ⟨nofun, nofun⟩
    | error fault' => simp only [Option.some.injEq, Except.error.injEq]

theorem remembers_concat {r : Request} {steps : List BodyStep} {last : BodyStep}
    {fault : Utf8.Fault} :
    Remembers r (steps ++ [last]) fault ↔
      match last with
      | .text _ => False
      | .bytes body => Utf8.decode body = .error fault
      | .put _ => Remembers r steps fault := by
  constructor
  · intro h
    generalize hall : steps ++ [last] = all at h
    cases h with
    | given h => simp at hall
    | bytes steps' h =>
      obtain ⟨rfl, hlast⟩ := List.append_inj' hall rfl
      obtain rfl := List.singleton_inj.mp hlast
      exact h
    | put body h =>
      obtain ⟨rfl, hlast⟩ := List.append_inj' hall rfl
      obtain rfl := List.singleton_inj.mp hlast
      exact h
  · intro h
    cases last with
    | text body => exact h.elim
    | bytes body => exact .bytes steps h
    | put body => exact .put body h

theorem undecodable_set (r : Request) (steps : List BodyStep) (fault : Utf8.Fault) :
    (r.set steps).undecodable = some fault ↔ Remembers r steps fault := by
  induction steps using List.reverseRecOn with
  | nil =>
    constructor
    · exact .given
    · intro h
      generalize hall : ([] : List BodyStep) = all at h
      cases h with
      | given h => exact h
      | bytes => simp at hall
      | put => simp at hall
  | append_singleton steps last ih =>
    rw [set_concat, remembers_concat]
    cases last with
    | text body => exact ⟨nofun, False.elim⟩
    | bytes body => exact undecodable_withBodyBytes _ body fault
    | put body => exact ih

/-! ## What is told -/

theorem json_of_undecodable {r : Request} {fault : Utf8.Fault} (h : r.undecodable = some fault) :
    r.json = .error (.notUtf8 fault) := by
  simp only [json, h]

theorem json_of_body {r : Request} (h : r.undecodable = none) :
    r.json = if r.body.getD "" = "" then .error .empty
      else (Json.parse (r.body.getD "")).mapError .notJson := by
  unfold json
  rw [h]
  cases hbody : r.body with
  | none => rfl
  | some body => simp only [String.isEmpty_iff, Option.getD_some]

/-- A text and bytes leave nothing else to tell of. -/
theorem json_apply {step : BodyStep} (h : step.isPut = false) (r : Request) :
    (step.apply r).json = step.told := by
  cases step with
  | text body => exact json_of_body rfl
  | bytes body =>
    unfold BodyStep.told
    show (r.withBodyBytes body).json = match Utf8.decode body with
      | .error fault => .error (.notUtf8 fault)
      | .ok body => if body = "" then .error .empty else (Json.parse body).mapError .notJson
    cases body with
    | nil => rfl
    | cons b body =>
      unfold withBodyBytes
      dsimp only
      cases Utf8.decode (b :: body) with
      | ok text => exact json_of_body rfl
      | error fault => rfl
  | put body => cases h

theorem json_apply_put {r : Request} (h : r.undecodable = none) (body : Option String) :
    ((BodyStep.put body).apply r).json = (BodyStep.put body).told :=
  json_of_body (r := r.replaceBody body) h

/-- What a request tells of its JSON is a matter of the last step that set its body, unless that
step put a body in place while something is remembered of earlier bytes. Then it tells what was
wrong with those bytes. -/
theorem json_of_last_body (r : Request) (steps : List BodyStep) (last : BodyStep) :
    (¬ (last.isPut = true ∧ ∃ fault, Remembers r steps fault) →
      (r.set (steps ++ [last])).json = last.told) ∧
    ∀ fault, last.isPut = true → Remembers r steps fault →
      (r.set (steps ++ [last])).json = .error (.notUtf8 fault) := by
  rw [set_concat]
  constructor
  · intro h
    cases last with
    | text body => exact json_apply rfl _
    | bytes body => exact json_apply rfl _
    | put body =>
      apply json_apply_put
      rw [Option.eq_none_iff_forall_ne_some]
      intro fault hfault
      exact h ⟨rfl, fault, (undecodable_set r steps fault).mp hfault⟩
  · intro fault hput hremembers
    have hfault := (undecodable_set r steps fault).mpr hremembers
    cases last with
    | text body => cases hput
    | bytes body => cases hput
    | put body => exact json_of_undecodable (r := (r.set steps).replaceBody body) hfault

/-- A text makes earlier bytes forgotten, and a body that is put in place behind it counts. Put in
place right behind the bytes, a body counts for nothing, and neither does none. -/
theorem json_of_last_body_put :
    let r : Request := ⟨"POST", "/api/user", [], some "[]", none⟩
    (r.set [.bytes [0xFF], .text "", .put (some "1")]).json = .ok (.number (.natural 1)) ∧
    (r.set [.bytes [0xC3], .put (some "1"), .put none]).json =
      .error (.notUtf8 ⟨0, none⟩) := by
  intro r
  have hforgotten : ∀ fault, ¬ Remembers r ([.bytes [0xFF]] ++ [.text ""]) fault :=
    fun _ h => remembers_concat.mp h
  have hremembers : Remembers r [.bytes [0xC3], .put (some "1")] ⟨0, none⟩ :=
    .put (some "1") (.bytes [] rfl)
  constructor
  · exact (json_of_last_body r [.bytes [0xFF], .text ""] (.put (some "1"))).1
      fun ⟨_, fault, h⟩ => hforgotten fault h
  · exact (json_of_last_body r [.bytes [0xC3], .put (some "1")] (.put none)).2 _ rfl hremembers

/-- The same last step, and what is told of it depends on the step before. -/
theorem json_of_put_behind_bytes :
    let r : Request := ⟨"POST", "/api/user", [], none, none⟩
    (r.set [.put (some "\x7b\x7d")]).json = .ok (.object []) ∧
    (BodyStep.put (some "\x7b\x7d")).told = .ok (.object []) ∧
    (r.set [.bytes [0xFF], .put (some "\x7b\x7d")]).json = .error (.notUtf8 ⟨0, some 1⟩) :=
  ⟨rfl, rfl, rfl⟩

end Request

end Gatehouse
