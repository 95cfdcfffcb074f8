import Gatehouse.Proofs.Request.Bodies
import Gatehouse.Proofs.Text.Faults

/-!
# Bodies from bytes

Bytes that are set as the body of a request are kept to the last one, or what is wrong with them is
reported, and they are never rewritten. Main statement: without any byte there is no body, the bytes
of a text leave the request that the text would have left, and all other bytes leave no body and the
one fault that breaks them (`Request.bytes_kept_or_reported`).
-/

namespace Gatehouse.Request

/-- Bytes of a text leave the request that the text would have left. -/
theorem withBodyBytes_of_text {bytes : List UInt8} (hne : bytes ≠ []) {text : String}
    (h : Utf8.decode bytes = .ok text) (r : Request) : r.withBodyBytes bytes = r.withBody text := by
  cases bytes with
  | nil => exact absurd rfl hne
  | cons b bytes => simp only [withBodyBytes, h, withBody]

/-- Bytes that are no text leave no body, and it is known what is wrong with them. -/
theorem withBodyBytes_of_fault {bytes : List UInt8} {fault : Utf8.Fault}
    (h : Utf8.decode bytes = .error fault) (r : Request) :
    r.withBodyBytes bytes = { r with body := none, undecodable := some fault } := by
  cases bytes with
  | nil => cases h
  | cons b bytes => simp only [withBodyBytes, h]

theorem json_withBody_of_ne {text : String} (h : text ≠ "") (r : Request) :
    (r.withBody text).json = (Json.parse text).mapError .notJson := by
  rw [json_of_body rfl]
  exact if_neg h

/-- Bytes that are set as the body are kept or reported. Exactly one of three things holds. There is
no byte, no body and no JSON. Or the bytes are those of a text: then the body is this text, the
request is the one that setting the text would have left, and its JSON is what the text reads as. Or
they are no text: then there is no body, one fault breaks them, and it is what is told of the
JSON. -/
theorem bytes_kept_or_reported (r : Request) (bytes : List UInt8) :
    let behind := r.withBodyBytes bytes
    let absent := bytes = [] ∧ behind.body = none ∧ behind.json = .error .empty
    let kept := ∃ text, Utf8.encode text = bytes ∧ behind.body = some text ∧
      behind = r.withBody text ∧ behind.json = (Json.parse text).mapError .notJson
    let reported := (∀ text, Utf8.encode text ≠ bytes) ∧ behind.body = none ∧
      ∃ fault, (∀ f, Utf8.Breaks bytes f ↔ f = fault) ∧ behind.json = .error (.notUtf8 fault)
    (absent ∨ kept ∨ reported) ∧
      ¬ (absent ∧ kept) ∧ ¬ (absent ∧ reported) ∧ ¬ (kept ∧ reported) := by
  intro behind absent kept reported
  refine ⟨?_, ?_, ?_, ?_⟩
  · by_cases hne : bytes = []
    · subst hne
      exact .inl ⟨rfl, rfl, rfl⟩
    · cases hdecode : Utf8.decode bytes with
      | ok text =>
        have hbehind : behind = r.withBody text := withBodyBytes_of_text hne hdecode r
        have hencode : Utf8.encode text = bytes := Utf8.decode_eq_ok_iff.mp hdecode
        have htext : text ≠ "" := by
          rintro rfl
          exact hne hencode.symm
        refine .inr (.inl ⟨text, hencode, ?_, hbehind, ?_⟩)
        · rw [hbehind]
          rfl
        · rw [hbehind, json_withBody_of_ne htext]
      | error fault =>
        have hbehind : behind = { r with body := none, undecodable := some fault } :=
          withBodyBytes_of_fault hdecode r
        have hbreaks : Utf8.Breaks bytes fault := Utf8.decode_eq_error_iff.mp hdecode
        have hone : ∀ f, Utf8.Breaks bytes f → f = fault := fun f hf => hf.unique hbreaks
        refine .inr (.inr ⟨hbreaks.not_text, ?_, fault, fun f => ⟨hone f, ?_⟩, ?_⟩)
        · rw [hbehind]
        · rintro rfl
          exact hbreaks
        · rw [hbehind]
          exact json_of_undecodable rfl
  · rintro ⟨⟨-, hnone, -⟩, text, -, hsome, -⟩
    rw [hnone] at hsome
    cases hsome
  · rintro ⟨⟨hempty, -⟩, hnot, -⟩
    exact hnot "" hempty.symm
  · rintro ⟨⟨text, htext, -⟩, hnot, -⟩
    exact hnot text htext

end Gatehouse.Request
