import Gatehouse.Proofs.Token.HeaderForm
import Gatehouse.Proofs.Token.ListForm
import Gatehouse.Proofs.Token.RoundTrip
import Gatehouse.Proofs.Token.Screened

/-!
# The gate at the signature

Nothing behind the signature is ever looked at without the signature that the secret gives: claims
and everything that tells of a payload or a clock stand for a signed token (`validate_gate`). The
claims that are granted then are those of the one object in the payload, whose list form the reading
for the expiry turns down.
-/

namespace Gatehouse.Token

open Json

/-- The credential of a header value consists of three parts, cut at its last two points. -/
structure Splits (header : String) (p : Parts) : Prop where
  credential : credential? header = some p.joined
  payload : '.' ∉ p.payload.toList
  signature : '.' ∉ p.signature.toList

theorem Splits.parts? {header : String} {p : Parts} (h : Splits header p) :
    parts? p.joined = some p :=
  parts?_joined h.payload h.signature

theorem Splits.eq {header : String} {p p' : Parts} (h : Splits header p) (h' : Splits header p') :
    p = p' := by
  have hjoined := Option.some.inj (h.credential.symm.trans h'.credential)
  have hparts := h.parts?
  rw [hjoined, h'.parts?] at hparts
  exact (Option.some.inj hparts).symm

/-- A part decodes to a header that names the algorithm of the signatures. -/
def SpellsHs256 (text : String) : Prop :=
  ∃ bytes w t r, Base64Url.decode text = .ok bytes ∧
    (Header.reader maxDepth).run bytes = .ok ⟨.hs256⟩ ∧
    bytes = w ++ (t ++ r) ∧ Blanks w ∧ Header.Names .hs256 t ∧ Blanks r

/-- The parts of a token that was signed with a secret. -/
structure Signed (secret : String) (p : Parts) : Prop where
  header : SpellsHs256 p.header
  signature : p.signature =
    Base64Url.encode (Hmac.code (Utf8.encode secret) (Utf8.encode (p.header ++ "." ++ p.payload)))

/-- A part decodes to an object that carries the claims and names no audience. -/
def SpellsClaims (c : Claims) (text : String) : Prop :=
  ∃ bytes w t r ms, Base64Url.decode text = .ok bytes ∧
    bytes = w ++ (t ++ r) ∧ Blanks w ∧ Members ms t ∧ Blanks r ∧
    c.InMembers ms ∧ ∀ v ∈ textsOf "aud" ms, ¬ Screening.SpellsAudience v

/-- A validation has looked behind the signature: it gives claims, or refuses the token because it
is expired or has no expiry. -/
inductive PastSignature : Except Denial Claims → Prop
  | claims {c : Claims} : PastSignature (.ok c)
  | expired {text : String} : PastSignature (.error ⟨text, .expired⟩)
  | noExpiry : PastSignature (.error ⟨"Invalid JWT token: Missing required claim: exp", .invalid⟩)

theorem PastSignature.error_cases {e : Denial} (h : PastSignature (.error e)) :
    e.reason = .expired ∨ e = ⟨"Invalid JWT token: Missing required claim: exp", .invalid⟩ := by
  cases h with
  | expired => exact .inl rfl
  | noExpiry => exact .inr rfl

theorem not_pastSignature_malformed (text : String) :
    ¬ PastSignature (.error (.malformed text)) := by
  intro h
  rcases h.error_cases with hreason | heq
  · cases hreason
  · cases congrArg Denial.reason heq

theorem Fault.Early.not_pastSignature {fault : Fault} (h : fault.Early) :
    ¬ PastSignature (.error fault.denial) := by
  cases fault with
  | noExpiry => exact absurd rfl h.1
  | expired => exact absurd rfl h.2
  | parts | base64 | json | audience => exact not_pastSignature_malformed _
  | signature =>
    intro hpast
    rcases hpast.error_cases with hreason | heq
    · cases hreason
    · cases congrArg Denial.reason heq
  | algorithm =>
    intro hpast
    rcases hpast.error_cases with hreason | heq
    · cases hreason
    · exact absurd (congrArg Denial.message heq) (by decide)

/-! ## In front of the signature -/

theorem spellsHs256_of_headerOf {text : String} (h : headerOf text = .ok ⟨.hs256⟩) :
    SpellsHs256 text := by
  obtain ⟨bytes, hbytes, hrun⟩ := read_of_headerOf h
  obtain ⟨d, hread, hd⟩ := Reader.run_eq_ok.mp hrun
  obtain ⟨w, t, hw, ht, hrest⟩ := Header.ends_reader.good_of_ok hread
  rw [Cursor.rest_start] at hrest
  exact ⟨bytes, w, t, d.rest, hbytes, hrun, hrest, hw, ht, blanks_of_dropWhile hd⟩

/-- A header value is refused for what does not depend on a payload, or else carries a signed token
and everything is a matter of the payload. -/
theorem validate_cases {secret : String} (hsecret : secret ≠ "") (now : Nat) (header : String) :
    ¬ PastSignature (validate now header secret) ∨
      ∃ p, Splits header p ∧ Signed secret p ∧
        validate now header secret = (payloadClaims now p.payload).mapError Fault.denial := by
  cases hcredential : credential? header with
  | none =>
    left
    unfold validate
    rw [hcredential]
    exact not_pastSignature_malformed _
  | some token =>
    rw [validate_of_credential hsecret hcredential]
    rcases decode_cases now token secret with ⟨fault, hdecode, hearly⟩ | ⟨p, hp, hheader, hs, heq⟩
    · rw [hdecode]
      exact .inl hearly.not_pastSignature
    · obtain ⟨rfl, hpayload, hsignature⟩ := joined_of_parts? hp
      rw [heq]
      exact .inr ⟨p, ⟨hcredential, hpayload, hsignature⟩,
        ⟨spellsHs256_of_headerOf hheader, hs⟩, rfl⟩

/-! ## Behind the signature -/

/-- A screening lets an expiry through that is not negative and not long ago. -/
theorem Screening.of_check {now : Nat} {s : Screening} (h : s.check now = .ok ()) :
    ∃ u : UInt64, s.exp = some u ∧ now ≤ u.toNat + 60 ∧ s.audience = false := by
  unfold check leeway at h
  split at h
  · cases h
  · next u hu =>
    refine ⟨u, hu, ?_⟩
    split at h
    · cases h
    · next hnow =>
      split at h
      · cases h
      · next haudience => exact ⟨Nat.not_lt.mp hnow, Bool.not_eq_true _ ▸ haudience⟩

/-- A time that is read from a numeral is the number. -/
theorem toInt_of_timeOf? {i : Int64} {u : UInt64}
    (h : Screening.timeOf? (Number.ofInt64 i) = some u) : (u.toNat : Int) = i.toInt := by
  rcases Reader.ofInt64_cases i with ⟨-, u', hu, hval⟩ | ⟨-, hu⟩
  · rw [hu] at h
    cases h
    exact hval
  · rw [hu] at h
    cases h

/-- Claims are granted from an object that carries them, at their time and to everybody. -/
theorem granted_of_payloadClaims {now : Nat} {payload : String} {c : Claims}
    (h : payloadClaims now payload = .ok c) :
    SpellsClaims c payload ∧ 0 ≤ c.exp.toInt ∧ (now : Int) - 60 ≤ c.exp.toInt := by
  obtain ⟨bytes, s, hbytes, hclaims, hscreening, hcheck⟩ := read_of_payloadClaims h
  obtain ⟨d, hread, hd⟩ := Reader.run_eq_ok.mp hclaims
  obtain ⟨w, t, hw, hrest, hform⟩ := Claims.ends_reader.good_of_ok hread
  rw [Cursor.rest_start] at hrest
  have hr : Blanks d.rest := blanks_of_dropWhile hd
  rcases hform with ⟨ms, hms, hcarries⟩ | hlist
  · have hsees : s.Sees ms := Screening.sees_of_run hscreening hw hr hms hrest
    obtain ⟨u, hu, hnow, haudience⟩ := Screening.of_check hcheck
    have hexp : (u.toNat : Int) = c.exp.toInt :=
      toInt_of_timeOf? ((hsees.exp c.exp hcarries.exp).symm.trans hu)
    refine ⟨⟨bytes, w, t, d.rest, ms, hbytes, hrest, hw, hms, hr, hcarries, ?_⟩, by omega, by omega⟩
    intro v hv hspells
    rw [hsees.audience v hv hspells] at haudience
    cases haudience
  · -- a list of the four claims is too short to be screened
    exact absurd hscreening (Screening.not_ok_of_list hw hlist hrest)

/-! ## The result -/

theorem ne_signature_of_blank {text secret message : String} {c : Char} (hc : c ∈ text.toList)
    (hblank : Text.isBlank c = true) : text ≠ signature secret message := by
  rintro rfl
  rw [Base64Url.not_blank_of_mem_encode hc] at hblank
  cases hblank

/-- Only a token that was signed with the secret gives claims or tells of its times, so a message
has one signature; the claims that are granted are those of an object in the payload, not before
1970 nor over for more than a minute. All tokens with one first part and wrong signatures are
refused in the same words. -/
theorem validate_gate {secret : String} (hsecret : secret ≠ "") :
    (∀ now header, PastSignature (validate now header secret) →
      ∃ p, Splits header p ∧ Signed secret p) ∧
    (∀ now now' header header' p p', Splits header p → Splits header' p' →
      PastSignature (validate now header secret) → PastSignature (validate now' header' secret) →
      p.message = p'.message → p.signature = p'.signature) ∧
    (∀ now header c, validate now header secret = .ok c →
      ∃ p, Splits header p ∧ Signed secret p ∧ SpellsClaims c p.payload ∧
        0 ≤ c.exp.toInt ∧ (now : Int) - 60 ≤ c.exp.toInt) ∧
    (∀ now now' header header' p p', Splits header p → Splits header' p' → p.header = p'.header →
      p.signature ≠ signature secret p.message → p'.signature ≠ signature secret p'.message →
      ∃ e, validate now header secret = .error e ∧ validate now' header' secret = .error e) := by
  have hgate : ∀ now header, PastSignature (validate now header secret) →
      ∃ p, Splits header p ∧ Signed secret p := by
    intro now header hpast
    rcases validate_cases hsecret now header with hnot | ⟨p, hp, hsigned, -⟩
    · exact absurd hpast hnot
    · exact ⟨p, hp, hsigned⟩
  have hsigned : ∀ now header p, Splits header p → PastSignature (validate now header secret) →
      p.signature = signature secret p.message := by
    intro now header p hp hpast
    obtain ⟨p', hp', hsigned⟩ := hgate now header hpast
    cases hp.eq hp'
    exact hsigned.signature
  refine ⟨hgate, ?_, ?_, ?_⟩
  · intro now now' header header' p p' hp hp' hpast hpast' hmessage
    rw [hsigned now header p hp hpast, hsigned now' header' p' hp' hpast', hmessage]
  · intro now header c hok
    rcases validate_cases hsecret now header with hnot | ⟨p, hp, hsigned, heq⟩
    · rw [hok] at hnot
      exact absurd .claims hnot
    · rw [hok] at heq
      refine ⟨p, hp, hsigned, granted_of_payloadClaims ?_⟩
      cases hpayload : payloadClaims now p.payload with
      | error fault =>
        rw [hpayload] at heq
        cases heq
      | ok c' =>
        rw [hpayload] at heq
        cases heq
        rfl
  · intro now now' header header' p p' hp hp' hheader hwrong hwrong'
    refine ⟨(refusal (headerOf p.header)).denial, ?_, ?_⟩
    · rw [validate_of_credential hsecret hp.credential, decode_of_wrong_signature hp.parts? hwrong]
      rfl
    · rw [validate_of_credential hsecret hp'.credential,
        decode_of_wrong_signature hp'.parts? hwrong', hheader]
      rfl

/-- An issued token is looked into in its last second and in the one after it, and the same first
part over two wrong signatures is refused in the same words at any time. -/
theorem validate_gate_in_last_second :
    (∃ header p,
      validate 1700000060 header "s3cret" = .ok ⟨"π", .moderator, 1700000000, 1699996400⟩ ∧
      validate 1700000061 header "s3cret" = .error ⟨"Token has expired", .expired⟩ ∧
      Splits header p ∧ Signed "s3cret" p ∧
      SpellsClaims ⟨"π", .moderator, 1700000000, 1699996400⟩ p.payload) ∧
    ∃ e,
      validate 0 "eyJ0eXAiOiJKV1QiLCJhbGciOiJIUzI1NiJ9.e30.not signed" "s3cret" = .error e ∧
      validate 1700000061 "BEARER  eyJ0eXAiOiJKV1QiLCJhbGciOiJIUzI1NiJ9..a b" "s3cret" =
        .error e := by
  have hsecret : "s3cret" ≠ "" := by decide
  obtain ⟨hpast, -, hgranted, hsame⟩ := validate_gate hsecret
  refine ⟨?_, ?_⟩
  · have hcarries :
        Carries (issuedParts ⟨"π", .moderator, 1700000000, 1699996400⟩ "s3cret").joined _ :=
      .bare (List.forall_mem_nil _) (List.forall_mem_singleton (a := '\n').mpr rfl)
    have hlast := (validate_issued hsecret hcarries 1700000060).trans rfl
    have hover := (validate_issued hsecret hcarries 1700000061).trans rfl
    obtain ⟨p, hp, hsigned⟩ := hpast 1700000061 _ (by rw [hover]; exact .expired)
    obtain ⟨p', hp', -, hspells, -⟩ := hgranted 1700000060 _ _ hlast
    cases hp.eq hp'
    exact ⟨_, p, hlast, hover, hp, hsigned, hspells⟩
  · have hp : Splits "eyJ0eXAiOiJKV1QiLCJhbGciOiJIUzI1NiJ9.e30.not signed"
        ⟨"eyJ0eXAiOiJKV1QiLCJhbGciOiJIUzI1NiJ9", "e30", "not signed"⟩ :=
      ⟨by decide +kernel, by decide +kernel, by decide +kernel⟩
    have hp' : Splits "BEARER  eyJ0eXAiOiJKV1QiLCJhbGciOiJIUzI1NiJ9..a b"
        ⟨"eyJ0eXAiOiJKV1QiLCJhbGciOiJIUzI1NiJ9", "", "a b"⟩ :=
      ⟨by decide +kernel, by decide +kernel, by decide +kernel⟩
    exact hsame 0 1700000061 _ _ _ _ hp hp' rfl
      (ne_signature_of_blank (c := ' ') (by decide +kernel) rfl)
      (ne_signature_of_blank (c := ' ') (by decide +kernel) rfl)

end Gatehouse.Token
