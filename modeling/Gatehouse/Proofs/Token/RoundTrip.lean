import Gatehouse.Proofs.Token.Bearer
import Gatehouse.Proofs.Token.Decoding
import Gatehouse.Proofs.Token.Issued

/-!
# Issued tokens

A token that was signed here gives back the claims that were signed, whatever they are, as long as
they hold: the three parts are found again, the header and the signature are those of the signer,
and both readings of the payload see the same expiry (`validate_sign`).
-/

namespace Gatehouse.Token

open Json

/-! ## The parts of an issued token -/

theorem partBytes_part (v : Value) : partBytes (part v) = .ok (Utf8.encode v.render) := by
  rw [partBytes, part, Base64Url.decode_encode]
  rfl

/-- The parts of an issued token. -/
def issuedParts (c : Claims) (secret : String) : Parts :=
  ⟨part Header.issued.toJson, part c.toJson, signature secret (message c)⟩

theorem sign_eq_ok {secret : String} (h : secret ≠ "") (c : Claims) :
    sign c secret = .ok (issuedParts c secret).joined := by
  rw [sign, if_neg (by rw [String.isEmpty_iff]; exact h), Parts.joined]
  rfl

theorem parts?_issued (c : Claims) (secret : String) :
    parts? (issuedParts c secret).joined = some (issuedParts c secret) :=
  parts?_joined (Base64Url.point_not_mem_encode _) (Base64Url.point_not_mem_encode _)

theorem not_blank_of_mem_issued {c : Claims} {secret : String} {x : Char}
    (h : x ∈ (issuedParts c secret).joined.toList) : Text.isBlank x = false := by
  rw [Parts.toList_joined] at h
  simp only [List.mem_append, List.mem_cons] at h
  rcases h with (h | rfl | h) | rfl | h
  · exact Base64Url.not_blank_of_mem_encode h
  · decide
  · exact Base64Url.not_blank_of_mem_encode h
  · decide
  · exact Base64Url.not_blank_of_mem_encode h

theorem joined_ne_nil (p : Parts) : p.joined.toList ≠ [] := by
  rw [Parts.toList_joined]
  simp

/-- Decoding an issued token comes down to the expiry. -/
theorem decode_issued (now : Nat) (c : Claims) (secret : String) :
    decode now (issuedParts c secret).joined secret =
      (Screening.check now ⟨Screening.timeOf? (Number.ofInt64 c.exp), false⟩).map fun _ => c := by
  have hheader : headerOf (issuedParts c secret).header = .ok Header.issued :=
    headerOf_of_read (partBytes_part _) (readPart_of_run (Header.run_reader_render 126))
  rw [decode_of_parts (parts?_issued c secret), hheader, ok_bind, if_neg (fun h => h rfl),
    if_neg (fun h => h rfl)]
  exact payloadClaims_of_read (partBytes_part _) (readPart_of_run (c.run_reader_render 126))
    (readPart_of_run (Screening.run_reader_render c 126))

/-! ## The result -/

theorem validate_issued {header secret : String} {c : Claims} (hsecret : secret ≠ "")
    (h : Carries (issuedParts c secret).joined header) (now : Nat) :
    validate now header secret =
      Except.mapError Fault.denial
        ((Screening.check now ⟨Screening.timeOf? (Number.ofInt64 c.exp), false⟩).map
          fun _ => c) := by
  have hcredential : credential? header = some (issuedParts c secret).joined :=
    h.credential?_eq (joined_ne_nil _) fun x hx => not_blank_of_mem_issued hx
  rw [validate_of_credential hsecret hcredential, decode_issued]

theorem check_of_nonneg {now : Nat} {u : UInt64} :
    Screening.check now ⟨some u, false⟩ =
      if u.toNat + 60 < now then .error .expired else .ok () := rfl

/-- Any claims can be signed with a secret that is not empty, and every header value that carries
the token gives the claims back as they were until 60 seconds after their expiry. Later it is
refused as expired, and an expiry before 1970 counts as none. -/
theorem validate_sign (c : Claims) {secret : String} (hsecret : secret ≠ "") (now : Nat) :
    ∃ token, sign c secret = .ok token ∧ ∀ header, Carries token header →
      (0 ≤ c.exp.toInt → (now : Int) - 60 ≤ c.exp.toInt →
        validate now header secret = .ok c) ∧
      (0 ≤ c.exp.toInt → c.exp.toInt < (now : Int) - 60 →
        validate now header secret = .error ⟨"Token has expired", .expired⟩) ∧
      (c.exp.toInt < 0 →
        validate now header secret =
          .error ⟨"Invalid JWT token: Missing required claim: exp", .invalid⟩) := by
  refine ⟨_, sign_eq_ok hsecret c, fun header hheader => ?_⟩
  rw [validate_issued hsecret hheader]
  rcases Reader.ofInt64_cases c.exp with ⟨hpos, u, hu, hval⟩ | ⟨hneg, hu⟩
  · rw [hu, Screening.timeOf?, check_of_nonneg]
    refine ⟨fun _ hnow => ?_, fun _ hnow => ?_, fun h => by omega⟩
    · rw [if_neg (by omega)]
      rfl
    · rw [if_pos (by omega)]
      rfl
  · rw [hu]
    exact ⟨fun h => by omega, fun h => by omega, fun _ => rfl⟩

/-- A token behind a scheme in mixed case is good in its last second and expired in the next one,
and a token that never had an expiry after 1970 is good at no time. -/
theorem validate_sign_in_last_second :
    ∃ token old,
      sign ⟨"π \"x\"\\", .moderator, 1700000000, 1699996400⟩ "s3cret" = .ok token ∧
      sign ⟨"", .guest, -1, 0⟩ "s3cret" = .ok old ∧
      validate 1700000060 (String.ofList (['\u00a0'] ++ (['b', 'E', 'A', 'r', 'e', 'R'] ++
          ' ' :: (List.replicate 1 ' ' ++ token.toList) ++ ['\t']))) "s3cret" =
        .ok ⟨"π \"x\"\\", .moderator, 1700000000, 1699996400⟩ ∧
      validate 1700000061 (String.ofList ([] ++ (token.toList ++ ['\n']))) "s3cret" =
        .error ⟨"Token has expired", .expired⟩ ∧
      validate 1700000061 (String.ofList ([] ++ (old.toList ++ []))) "s3cret" =
        .error ⟨"Invalid JWT token: Missing required claim: exp", .invalid⟩ := by
  have hsecret : "s3cret" ≠ "" := by decide
  obtain ⟨token, hsign, hlast⟩ := validate_sign
    ⟨"π \"x\"\\", .moderator, 1700000000, 1699996400⟩ hsecret 1700000060
  obtain ⟨token', hsign', hover⟩ := validate_sign
    ⟨"π \"x\"\\", .moderator, 1700000000, 1699996400⟩ hsecret 1700000061
  obtain ⟨old, hold, hnever⟩ := validate_sign ⟨"", .guest, -1, 0⟩ hsecret 1700000061
  cases hsign.symm.trans hsign'
  refine ⟨token, old, hsign, hold, ?_, ?_, ?_⟩
  · exact (hlast _ (.scheme (List.forall_mem_singleton.mpr rfl)
      (List.forall_mem_singleton.mpr rfl) rfl)).1 (by decide +kernel) (by decide +kernel)
  · exact (hover _ (.bare (List.forall_mem_nil _) (List.forall_mem_singleton.mpr rfl))).2.1
      (by decide +kernel) (by decide +kernel)
  · exact (hnever _ (.bare (List.forall_mem_nil _) (List.forall_mem_nil _))).2.2
      (by decide +kernel)

end Gatehouse.Token
