import Gatehouse.Token.Validation

/-!
# The steps of decoding

A token is cut at its last two points (`parts?_eq_some`), and its parts go through the steps of
`decode` in order: a wrong header is refused without a look at the signature, and a wrong signature
without a look at the payload or the clock (`decode_of_wrong_signature`). Only behind the signature
can a token give claims or be refused for its times (`decode_cases`).
-/

namespace Gatehouse.Token

open Json

/-! ## Cutting a token -/

/-- Three parts with points between them. -/
def Parts.joined (p : Parts) : String :=
  p.message ++ "." ++ p.signature

theorem Parts.toList_joined (p : Parts) :
    p.joined.toList =
      (p.header.toList ++ '.' :: p.payload.toList) ++ '.' :: p.signature.toList := by
  simp only [joined, Parts.message, String.toList_append, List.append_assoc]
  rfl

theorem not_mem_of_cutLast?_eq_none {sep : Char} {cs : List Char}
    (h : Text.cutLast? sep cs = none) : sep ∉ cs := by
  induction cs with
  | nil => exact List.not_mem_nil
  | cons c cs ih =>
    rw [Text.cutLast?] at h
    split at h
    · cases h
    · next hcs =>
      split at h
      · cases h
      · next hne =>
        intro hmem
        rcases List.mem_cons.mp hmem with rfl | hmem
        · exact hne rfl
        · exact ih hcs hmem

theorem eq_of_cutLast? {sep : Char} {cs a b : List Char}
    (h : Text.cutLast? sep cs = some (a, b)) : cs = a ++ sep :: b ∧ sep ∉ b := by
  induction cs generalizing a with
  | nil => cases h
  | cons c cs ih =>
    rw [Text.cutLast?] at h
    split at h
    · next a' b' hcs =>
      cases h
      obtain ⟨rfl, hmem⟩ := ih hcs
      exact ⟨rfl, hmem⟩
    · next hcs =>
      split at h
      · next hc =>
        cases h
        rw [hc]
        exact ⟨rfl, not_mem_of_cutLast?_eq_none hcs⟩
      · cases h

/-- A token is cut where its parts were joined. -/
theorem parts?_joined {p : Parts} (hpayload : '.' ∉ p.payload.toList)
    (hsignature : '.' ∉ p.signature.toList) : parts? p.joined = some p := by
  have hsome : ∀ message, message = p.header.toList ++ '.' :: p.payload.toList →
      (Text.cutLast? '.' message).bind (fun cut =>
        some (Parts.mk (String.ofList cut.1) (String.ofList cut.2)
          (String.ofList p.signature.toList))) = some p := by
    rintro _ rfl
    rw [Text.cutLast?_append _ hpayload]
    simp only [Option.bind_some, String.ofList_toList]
  rw [parts?, p.toList_joined, Text.cutLast?_append _ hsignature]
  exact hsome _ rfl

theorem joined_of_parts? {token : String} {p : Parts} (h : parts? token = some p) :
    token = p.joined ∧ '.' ∉ p.payload.toList ∧ '.' ∉ p.signature.toList := by
  simp only [parts?, Option.bind_eq_bind, Option.bind_eq_some_iff] at h
  obtain ⟨⟨message, signature⟩, hfirst, ⟨header, payload⟩, hsecond, heq⟩ := h
  cases heq
  obtain ⟨htoken, hsignature⟩ := eq_of_cutLast? hfirst
  obtain ⟨rfl, hpayload⟩ := eq_of_cutLast? hsecond
  refine ⟨String.toList_inj.mp ?_, ?_, ?_⟩
  · rw [Parts.toList_joined, htoken]
    simp only [String.toList_ofList]
  · rw [String.toList_ofList]
    exact hpayload
  · rw [String.toList_ofList]
    exact hsignature

/-! ## Reading a part -/

theorem ok_bind {ε α β : Type} (a : α) (f : α → Except ε β) : (Except.ok a >>= f) = f a := rfl

theorem ok_of_bind {α β : Type} {x : Except Fault α} {f : α → Except Fault β} {b : β}
    (h : (x >>= f) = .ok b) : ∃ a, x = .ok a ∧ f a = .ok b := by
  cases x with
  | error fault => cases h
  | ok a => exact ⟨a, rfl, h⟩

theorem readPart_of_run {α : Type} {reader : Nat → Json.Reader α} {bytes : List UInt8} {a : α}
    (h : (reader Json.maxDepth).run bytes = .ok a) : readPart reader bytes = .ok a := by
  rw [readPart, h]
  rfl

theorem run_of_readPart {α : Type} {reader : Nat → Json.Reader α} {bytes : List UInt8} {a : α}
    (h : readPart reader bytes = .ok a) : (reader Json.maxDepth).run bytes = .ok a := by
  unfold readPart at h
  cases hrun : (reader Json.maxDepth).run bytes with
  | error e =>
    rw [hrun] at h
    cases h
  | ok b =>
    rw [hrun] at h
    cases h
    rfl

theorem decode_of_partBytes {text : String} {bytes : List UInt8}
    (h : partBytes text = .ok bytes) : Base64Url.decode text = .ok bytes := by
  unfold partBytes at h
  cases hdecode : Base64Url.decode text with
  | error e =>
    rw [hdecode] at h
    cases h
  | ok b =>
    rw [hdecode] at h
    cases h
    rfl

/-- The header that a part spells out. -/
def headerOf (text : String) : Except Fault Header :=
  partBytes text >>= readPart Header.reader

theorem headerOf_of_read {text : String} {bytes : List UInt8} {header : Header}
    (hbytes : partBytes text = .ok bytes) (hheader : readPart Header.reader bytes = .ok header) :
    headerOf text = .ok header := by
  rw [headerOf, hbytes, ok_bind, hheader]

theorem read_of_headerOf {text : String} {header : Header} (h : headerOf text = .ok header) :
    ∃ bytes, Base64Url.decode text = .ok bytes ∧
      (Header.reader Json.maxDepth).run bytes = .ok header := by
  obtain ⟨bytes, hbytes, h⟩ := ok_of_bind h
  exact ⟨bytes, decode_of_partBytes hbytes, run_of_readPart h⟩

/-- A fault that comes before the payload: nothing of it depends on a clock. -/
def Fault.Early (fault : Fault) : Prop :=
  fault ≠ .noExpiry ∧ fault ≠ .expired

theorem early_of_headerOf {text : String} {fault : Fault} (h : headerOf text = .error fault) :
    fault.Early := by
  unfold headerOf partBytes at h
  cases hdecode : Base64Url.decode text with
  | error e =>
    rw [hdecode] at h
    cases h
    exact ⟨Fault.noConfusion, Fault.noConfusion⟩
  | ok bytes =>
    rw [hdecode] at h
    replace h : readPart Header.reader bytes = .error fault := h
    unfold readPart at h
    cases hrun : (Header.reader Json.maxDepth).run bytes with
    | error e =>
      rw [hrun] at h
      cases h
      exact ⟨Fault.noConfusion, Fault.noConfusion⟩
    | ok header =>
      rw [hrun] at h
      cases h

/-! ## The steps -/

/-- Behind the cut come the header, the algorithm, the signature and the payload. -/
theorem decode_of_parts {token : String} {p : Parts} (hparts : parts? token = some p) (now : Nat)
    (secret : String) :
    decode now token secret = headerOf p.header >>= fun header =>
      if header.algorithm ≠ .hs256 then .error .algorithm
      else if p.signature ≠ signature secret p.message then .error .signature
      else payloadClaims now p.payload := by
  unfold decode headerOf
  rw [hparts]
  dsimp only
  cases partBytes p.header with
  | error fault => rfl
  | ok bytes => rfl

theorem payloadClaims_of_read {now : Nat} {payload : String} {bytes : List UInt8} {claims : Claims}
    {screening : Screening} (hbytes : partBytes payload = .ok bytes)
    (hclaims : readPart Claims.reader bytes = .ok claims)
    (hscreening : readPart Screening.reader bytes = .ok screening) :
    payloadClaims now payload = (screening.check now).map fun _ => claims := by
  unfold payloadClaims
  rw [hbytes, ok_bind, hclaims, ok_bind, hscreening, ok_bind]
  cases screening.check now <;> rfl

/-- Claims come out of a payload that both readers read and that holds. -/
theorem read_of_payloadClaims {now : Nat} {payload : String} {claims : Claims}
    (h : payloadClaims now payload = .ok claims) :
    ∃ bytes screening, Base64Url.decode payload = .ok bytes ∧
      (Claims.reader Json.maxDepth).run bytes = .ok claims ∧
      (Screening.reader Json.maxDepth).run bytes = .ok screening ∧
      screening.check now = .ok () := by
  unfold payloadClaims at h
  obtain ⟨bytes, hbytes, h⟩ := ok_of_bind h
  obtain ⟨claims', hclaims, h⟩ := ok_of_bind h
  obtain ⟨screening, hscreening, h⟩ := ok_of_bind h
  obtain ⟨_, hcheck, h⟩ := ok_of_bind h
  cases h
  exact ⟨bytes, screening, decode_of_partBytes hbytes, run_of_readPart hclaims,
    run_of_readPart hscreening, hcheck⟩

/-- Before the signature a token is refused for what does not depend on its payload or the clock;
behind it everything is a matter of the payload. -/
theorem decode_cases (now : Nat) (token secret : String) :
    (∃ fault : Fault, decode now token secret = .error fault ∧ fault.Early) ∨
      ∃ p, parts? token = some p ∧ headerOf p.header = .ok ⟨.hs256⟩ ∧
        p.signature = signature secret p.message ∧
        decode now token secret = payloadClaims now p.payload := by
  cases hparts : parts? token with
  | none =>
    refine .inl ⟨.parts, ?_, Fault.noConfusion, Fault.noConfusion⟩
    unfold decode
    rw [hparts]
  | some p =>
    rw [decode_of_parts hparts]
    cases hheader : headerOf p.header with
    | error fault => exact .inl ⟨fault, rfl, early_of_headerOf hheader⟩
    | ok header =>
      rw [ok_bind]
      obtain ⟨algorithm⟩ := header
      by_cases hhs256 : algorithm = .hs256
      · subst hhs256
        by_cases hsignature : p.signature = signature secret p.message
        · refine .inr ⟨p, rfl, hheader, hsignature, ?_⟩
          rw [if_neg (fun h => h rfl), if_neg (fun h => h hsignature)]
        · refine .inl ⟨.signature, ?_, Fault.noConfusion, Fault.noConfusion⟩
          rw [if_neg (fun h => h rfl), if_pos hsignature]
      · refine .inl ⟨.algorithm, ?_, Fault.noConfusion, Fault.noConfusion⟩
        rw [if_pos hhs256]

/-- Why a token with a wrong signature is refused, from what its first part spells out. -/
def refusal : Except Fault Header → Fault
  | .error fault => fault
  | .ok header => if header.algorithm = .hs256 then .signature else .algorithm

/-- What is wrong with a token whose signature is wrong is a matter of its header. -/
theorem decode_of_wrong_signature {token secret : String} {p : Parts}
    (hparts : parts? token = some p) (hsignature : p.signature ≠ signature secret p.message)
    (now : Nat) : decode now token secret = .error (refusal (headerOf p.header)) := by
  rw [decode_of_parts hparts]
  cases headerOf p.header with
  | error fault => rfl
  | ok header =>
    rw [ok_bind, refusal]
    by_cases hhs256 : header.algorithm = .hs256
    · rw [if_neg (fun h => h hhs256), if_pos hsignature, if_pos hhs256]
    · rw [if_pos hhs256, if_neg hhs256]

theorem validate_of_credential {header token secret : String} (hsecret : secret ≠ "")
    (h : credential? header = some token) (now : Nat) :
    validate now header secret = (decode now token secret).mapError Fault.denial := by
  unfold validate
  rw [h]
  exact if_neg (by rw [String.isEmpty_iff]; exact hsecret)

end Gatehouse.Token
