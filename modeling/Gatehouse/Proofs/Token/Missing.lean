import Gatehouse.Proofs.Token.Bearer
import Gatehouse.Proofs.Token.Decoding

/-!
# Missing credentials

A header value is told to hold no credential exactly if it is white space only
(`told_missing_iff_blank`). The scheme with nothing behind it but white space is not: trimming takes
the space away that belongs to the scheme, so the word itself is handed on, and is refused as what
is no token, or for want of a secret.
-/

namespace Gatehouse.Token

open Text

theorem credential?_eq_none_iff {header : String} :
    credential? header = none ↔ isAllBlank header = true := by
  rw [isAllBlank, List.all_eq_true]
  obtain ⟨hnone, hblank⟩ | ⟨core, hsome, hcore, ⟨a, b, hab⟩⟩ := credential?_cases header
  · exact iff_of_true hnone hblank
  · refine iff_of_false (by rw [hsome]; exact Option.some_ne_none _) fun hblank => ?_
    obtain ⟨c, rest, rfl, hc⟩ := hcore.head
    rw [hblank c (by rw [← hab]; simp)] at hc
    cases hc

/-- No refusal of a token says that it is missing. -/
theorem Fault.denial_ne_missing (fault : Fault) :
    fault.denial ≠ .malformed "Empty JWT token" := by
  have hhead : fault.denial.message.toList.head? ≠ some 'E' := by
    cases fault with
    | base64 e => simp [denial, Denial.malformed, String.toList_append]
    | json e => simp [denial, Denial.malformed, String.toList_append]
    | _ => decide
  intro h
  rw [h] at hhead
  exact hhead (by decide)

/-- Only white space is told to be a missing credential. -/
theorem validate_eq_missing_iff {now : Nat} {header secret : String} :
    validate now header secret = .error (.malformed "Empty JWT token") ↔
      isAllBlank header = true := by
  rw [← credential?_eq_none_iff]
  unfold validate
  cases hcredential : credential? header with
  | none => exact iff_of_true rfl rfl
  | some token =>
    refine iff_of_false (fun h => ?_) (Option.some_ne_none _)
    dsimp only at h
    split at h
    · exact absurd (congrArg Denial.message (Except.error.inj h)) (by decide)
    · cases hdecode : decode now token secret with
      | ok claims =>
        rw [hdecode] at h
        cases h
      | error fault =>
        rw [hdecode] at h
        exact fault.denial_ne_missing (Except.error.inj h)

/-! ## The scheme alone -/

/-- The scheme is not followed by a space when it stands alone, so it is a credential itself. -/
theorem credential?_of_scheme_alone {header : String} {w v s : List Char}
    (hw : ∀ c ∈ w, isBlank c = true) (hv : ∀ c ∈ v, isBlank c = true)
    (hs : s.map Char.toLower = ['b', 'e', 'a', 'r', 'e', 'r'])
    (h : header.toList = w ++ (s ++ v)) : credential? header = some (String.ofList s) := by
  refine credential?_of_tight hw hv (tight_scheme hs) ?_ h
  rintro ⟨t, rest, -, rfl⟩
  have hspace := not_blank_of_mem_scheme hs (c := ' ') (by simp)
  cases hspace

theorem decode_of_no_point {token : String} (h : '.' ∉ token.toList) (now : Nat)
    (secret : String) : decode now token secret = .error .parts := by
  have hparts : parts? token = none := by
    unfold parts?
    rw [cutLast?_of_not_mem h]
    rfl
  unfold decode
  rw [hparts]

theorem point_not_mem_scheme {s : List Char}
    (hs : s.map Char.toLower = ['b', 'e', 'a', 'r', 'e', 'r']) : '.' ∉ s := by
  intro hmem
  have hlower : '.' ∈ s.map Char.toLower := List.mem_map_of_mem (f := Char.toLower) hmem
  rw [hs] at hlower
  exact absurd hlower (by decide)

theorem validate_of_scheme_alone {header : String} {w v s : List Char}
    (hw : ∀ c ∈ w, isBlank c = true) (hv : ∀ c ∈ v, isBlank c = true)
    (hs : s.map Char.toLower = ['b', 'e', 'a', 'r', 'e', 'r'])
    (h : header.toList = w ++ (s ++ v)) (now : Nat) (secret : String) :
    validate now header secret = .error (if secret = "" then ⟨"JWT secret not configured", .invalid⟩
      else .malformed "Malformed JWT token: InvalidToken") := by
  have hcredential := credential?_of_scheme_alone hw hv hs h
  by_cases hsecret : secret = ""
  · subst hsecret
    unfold validate
    rw [hcredential]
    rfl
  · have hpoint : '.' ∉ (String.ofList s).toList := by
      rw [String.toList_ofList]
      exact point_not_mem_scheme hs
    rw [validate_of_credential hsecret hcredential, decode_of_no_point hpoint, if_neg hsecret]
    rfl

/-! ## Main statement -/

/-- A header value is refused for a missing credential exactly if it is white space only, whatever
the secret. With the scheme in it and nothing else but white space it is refused for what the word
is: no token, where there is a secret to check one with. -/
theorem told_missing_iff_blank (now : Nat) (header secret : String) :
    (validate now header secret = .error (.malformed "Empty JWT token") ↔
      ∀ c ∈ header.toList, isBlank c = true) ∧
    ∀ w s w' : List Char, (∀ c ∈ w, isBlank c = true) → (∀ c ∈ w', isBlank c = true) →
      s.map Char.toLower = ['b', 'e', 'a', 'r', 'e', 'r'] →
      header = String.ofList (w ++ (s ++ w')) →
      validate now header secret = .error (if secret = ""
        then ⟨"JWT secret not configured", .invalid⟩
        else .malformed "Malformed JWT token: InvalidToken") := by
  constructor
  · rw [← List.all_eq_true]
    exact validate_eq_missing_iff
  · rintro w s w' hw hw' hs rfl
    exact validate_of_scheme_alone hw hw' hs String.toList_ofList now secret

/-- The scheme in mixed case between a tab and a wide space. -/
theorem told_missing_iff_blank_mixed_case :
    let w := ['\t']
    let s := ['b', 'E', 'A', 'r', 'e', 'R']
    let w' := [' ', Char.ofNat 0x3000]
    (∀ c ∈ w, isBlank c = true) ∧ (∀ c ∈ w', isBlank c = true) ∧
      s.map Char.toLower = ['b', 'e', 'a', 'r', 'e', 'r'] ∧
      validate 0 (String.ofList (w ++ (s ++ w'))) "key" =
        .error (.malformed "Malformed JWT token: InvalidToken") := by
  intro w s w'
  have hw : ∀ c ∈ w, isBlank c = true := List.all_eq_true.mp rfl
  have hw' : ∀ c ∈ w', isBlank c = true := List.all_eq_true.mp rfl
  have hs : s.map Char.toLower = ['b', 'e', 'a', 'r', 'e', 'r'] := by decide
  exact ⟨hw, hw', hs, (told_missing_iff_blank 0 _ "key").2 w s w' hw hw' hs rfl⟩

/-- The scheme and three spaces hold no credential, and yet none is told to be missing. -/
theorem not_told_missing_behind_scheme :
    ¬ ∀ (now : Nat) (secret : String) (w s w' : List Char), (∀ c ∈ w, isBlank c = true) →
      (∀ c ∈ w', isBlank c = true) → s.map Char.toLower = ['b', 'e', 'a', 'r', 'e', 'r'] →
      validate now (String.ofList (w ++ (s ++ w'))) secret =
        .error (.malformed "Empty JWT token") := by
  intro h
  have hspaces : ∀ c ∈ [' ', ' ', ' '], isBlank c = true := List.all_eq_true.mp rfl
  have hs : "Bearer".toList.map Char.toLower = ['b', 'e', 'a', 'r', 'e', 'r'] := by decide
  have htold := h 0 "key" [] "Bearer".toList [' ', ' ', ' '] nofun hspaces hs
  rw [validate_of_scheme_alone (w := []) nofun hspaces hs String.toList_ofList] at htold
  exact absurd (Except.error.inj htold) (by decide)

end Gatehouse.Token
