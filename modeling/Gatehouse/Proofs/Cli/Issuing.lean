import Gatehouse.Cli.Command
import Gatehouse.Proofs.Config.Readiness
import Gatehouse.Proofs.Json.Indented
import Gatehouse.Proofs.Role

/-!
# Issuing and checking at the command line

A token is issued if its role is known, its lifetime ends before the calendar does and there is a
secret to sign it with, and these are looked at in this order. What is printed then tells the claims
that the token bears, and checking the token with the same secret prints them again, until a minute
after they expire (`Cli.verifies_what_it_issues`).
-/

namespace Gatehouse

open Json Json.Reader

/-! ## Claims as JSON -/

namespace Claims

/-- The claims under their names, in the order in which they are read. -/
def byName (c : Claims) : List (String × Json.Value) :=
  [("exp", .number (.ofInt64 c.exp)), ("iat", .number (.ofInt64 c.iat)),
    ("role", .string c.role.name), ("sub", .string c.sub)]

theorem ordered_members (c : Claims) : Value.ordered c.members = .object c.byName := by
  simp only [Value.ordered, byName, members, Role.toJson, Dictionary.ofList, List.foldl_cons,
    List.foldl_nil, Dictionary.insert, String.reduceLT, String.reduceEq, reduceIte]

theorem ordered_byName (c : Claims) : Value.ordered c.byName = .object c.byName := by
  simp only [Value.ordered, byName, Dictionary.ofList, List.foldl_cons, List.foldl_nil,
    Dictionary.insert, String.reduceLT, String.reduceEq, reduceIte]

/-- Printed without blanks, claims are read as they are. -/
theorem reads_byName (c : Claims) (room : Nat) :
    Reads (room + 1) (Utf8.encodeChars (Value.object c.byName).chars) (.object c.byName) := by
  have hreads : Reads (room + 1) (Utf8.encodeChars (Value.object c.byName).chars)
      (.ordered c.byName) := by
    apply reads_printed
    · rintro _ ⟨⟩
      exact (by decide : "exp" ≠ embeddedKey)
    · simp only [byName, List.forall_mem_cons]
      exact ⟨reads_ofInt64 c.exp, reads_ofInt64 c.iat, reads_stringChars c.role.name,
        reads_stringChars c.sub, List.forall_mem_nil _⟩
  rwa [ordered_byName] at hreads

/-- Printed over several lines, claims are read in the order of their names. -/
theorem parse_renderIndented (c : Claims) :
    Json.parse (c.toJson.renderIndented ++ "\n") = .ok (.object c.byName) := by
  apply parse_line
  rw [Utf8.encode, Value.renderIndented, String.toList_ofList, ← ordered_members]
  apply reads_indented
  · rintro _ ⟨⟩
    exact (by decide : "sub" ≠ embeddedKey)
  · simp only [members, List.forall_mem_cons]
    exact ⟨reads_stringChars c.sub, reads_stringChars c.role.name, reads_ofInt64 c.exp,
      reads_ofInt64 c.iat, List.forall_mem_nil _⟩

end Claims

/-! ## What a token bears -/

namespace Token

/-- The payload of a token, wherever it comes from, is read as some claims. -/
def Bears (token : String) (c : Claims) : Prop :=
  ∃ p bytes, parts? token = some p ∧ Base64Url.decode p.payload = .ok bytes ∧
    (Claims.reader maxDepth).run bytes = .ok c

theorem bears_issued (c : Claims) (secret : String) : Bears (issuedParts c secret).joined c :=
  ⟨_, _, parts?_issued c secret, Base64Url.decode_encode _, c.run_reader_render 126⟩

end Token

/-! ## Lifetimes -/

namespace Claims

variable {now : Nat} {sub : String} {role : Role} {hours : UInt64}

theorem issue_of_late (h : lastSecond < (now : Int) + 3600 * hours.toNat) :
    issue now sub role hours = .error ⟨hours⟩ := by
  rw [issue_eq (Calendar.first_le_natCast now), if_pos h]

/-- Claims that end in time say who, as what, from when and until when. -/
theorem issue_of_in_time (h : (now : Int) + 3600 * hours.toNat ≤ lastSecond) :
    ∃ c, issue now sub role hours = .ok c ∧ c.sub = sub ∧ c.role = role ∧ c.iat.toInt = now ∧
      c.exp.toInt = now + 3600 * hours.toNat := by
  rw [issue_eq (Calendar.first_le_natCast now), if_neg (Int.not_lt.mpr h)]
  refine ⟨_, rfl, rfl, rfl, ?_, ?_⟩
  · unfold lastSecond at h
    exact Int64.toInt_ofInt_of_le (by omega) (by omega)
  · unfold lastSecond at h
    exact Int64.toInt_ofInt_of_le (by omega) (by omega)

end Claims

namespace Cli

/-! ## What is printed -/

/-- What is printed of a token that has been issued tells the token and its claims. -/
def ShowsIssued (token : String) (c : Claims) (printed : String) : Format → Prop
  | .text => printed = token ++ "\n"
  | .json => Json.parse printed =
      .ok (.object [("claims", .object c.byName), ("token", .string token)])

/-- What is printed of a token that has been checked tells its claims. -/
def ShowsClaims (c : Claims) (printed : String) : Format → Prop
  | .text => printed = "subject: " ++ c.sub ++ "\nrole: " ++ c.role.name ++ "\nexpires: " ++
      toString c.exp.toInt ++ "\n"
  | .json => Json.parse printed = .ok (.object c.byName)

theorem showsIssued_renderIssued (format : Format) (token : String) (c : Claims) :
    ShowsIssued token c (renderIssued format token c) format := by
  cases format with
  | text => rfl
  | json =>
    let ms : List (String × Value) := [("claims", .object c.byName), ("token", .string token)]
    have hms : Value.ordered [("token", .string token), ("claims", .ordered c.members)] =
        .object ms := by
      rw [Claims.ordered_members]
      simp only [Value.ordered, ms, Dictionary.ofList, List.foldl_cons, List.foldl_nil,
        Dictionary.insert, String.reduceLT, reduceIte]
    have hsorted : Value.ordered ms = .object ms := by
      simp only [Value.ordered, ms, Dictionary.ofList, List.foldl_cons, List.foldl_nil,
        Dictionary.insert, String.reduceLT, String.reduceEq, reduceIte]
    have hreads : Reads maxDepth (Utf8.encodeChars (Value.object ms).chars) (.ordered ms) := by
      apply reads_printed
      · rintro _ ⟨⟩
        exact (by decide : "claims" ≠ embeddedKey)
      · simp only [ms, List.forall_mem_cons]
        exact ⟨c.reads_byName _, reads_stringChars token, List.forall_mem_nil _⟩
    rw [hsorted, ← Value.encode_render] at hreads
    unfold ShowsIssued renderIssued
    dsimp only
    rw [hms]
    exact parse_line hreads

theorem showsClaims_renderClaims (format : Format) (c : Claims) :
    ShowsClaims c (renderClaims format c) format := by
  cases format with
  | text => rfl
  | json => exact c.parse_renderIndented

/-! ## Issuing -/

section Issuing

variable {now : Nat} {secret subject text : String} {hours : UInt64} {format : Format}

theorem issue_of_unknown {e : Role.Unknown} (h : Role.ofText text = .error e) :
    issue now secret subject text hours format =
      .error ⟨"Unknown role: " ++ Text.quoted text, []⟩ := by
  unfold issue
  rw [h, (Role.ofText_eq_error_iff.mp h).2]
  rfl

section Known

variable {role : Role} (hrole : Role.ofText text = .ok role)

include hrole

/-- With a role that is known, the lifetime and then the secret count. -/
theorem issue_of_known :
    issue now secret subject text hours format = (do
      let claims ← (Claims.issue now subject role hours).mapError fun e => ⟨e.message, []⟩
      let token ← (Token.sign claims secret).mapError fun e =>
        ⟨"failed to sign token", [e.message]⟩
      return renderIssued format token claims) := by
  unfold issue
  rw [hrole]
  exact Token.ok_bind role _

theorem issue_of_late (hlate : Claims.lastSecond < (now : Int) + 3600 * hours.toNat) :
    issue now secret subject text hours format =
      .error ⟨"Token lifetime of " ++ toString hours.toNat ++ " hours is out of range", []⟩ := by
  rw [issue_of_known hrole, Claims.issue_of_late hlate]
  rfl

variable (htime : (now : Int) + 3600 * hours.toNat ≤ Claims.lastSecond)

include htime

theorem issue_of_no_secret (hsecret : secret = "") :
    issue now secret subject text hours format =
      .error ⟨"failed to sign token", ["Invalid JWT secret"]⟩ := by
  obtain ⟨c, hclaims, -⟩ := Claims.issue_of_in_time htime
  rw [issue_of_known hrole, hclaims, hsecret]
  rfl

theorem issue_of_secret (hsecret : secret ≠ "") :
    ∃ c, issue now secret subject text hours format =
        .ok (renderIssued format (Token.issuedParts c secret).joined c) ∧
      c.sub = subject ∧ c.role = role ∧ c.iat.toInt = now ∧
      c.exp.toInt = now + 3600 * hours.toNat := by
  obtain ⟨c, hclaims, hfields⟩ := Claims.issue_of_in_time htime
  refine ⟨c, ?_, hfields⟩
  rw [issue_of_known hrole, hclaims]
  show ((Token.sign c secret).mapError _ >>= _) = _
  rw [Token.sign_eq_ok hsecret]
  rfl

end Known

theorem issue_eq_ok_iff :
    (∃ out, issue now secret subject text hours format = .ok out) ↔
      (∃ role, Role.ofText text = .ok role) ∧
        (now : Int) + 3600 * hours.toNat ≤ Claims.lastSecond ∧ secret ≠ "" := by
  constructor
  · rintro ⟨out, hout⟩
    cases hrole : Role.ofText text with
    | error e => cases hout.symm.trans (issue_of_unknown hrole)
    | ok role =>
      have htime : (now : Int) + 3600 * hours.toNat ≤ Claims.lastSecond :=
        Int.not_lt.mp fun hlate => by cases hout.symm.trans (issue_of_late hrole hlate)
      exact ⟨⟨role, rfl⟩, htime, fun hsecret => by
        cases hout.symm.trans (issue_of_no_secret hrole htime hsecret)⟩
  · rintro ⟨⟨role, hrole⟩, htime, hsecret⟩
    obtain ⟨c, hout, -⟩ := issue_of_secret hrole htime hsecret
    exact ⟨_, hout⟩

theorem verify_of_unexpired {c : Claims} {header : String} (hsecret : secret ≠ "")
    (hheader : Token.Carries (Token.issuedParts c secret).joined header) (hc : c.Unexpired now) :
    verify now secret header format = .ok (renderClaims format c) := by
  unfold verify
  rw [Token.validate_of_unexpired hsecret hheader hc]
  rfl

end Issuing

/-! ## Main statement -/

/-- A token is issued if and only if its role is known, its lifetime ends in time and there is a
secret, and the first of these that is missing is told. What is printed tells the token and its
claims, which the token bears: the subject, the role and a time of so many hours from now. Until a
minute after this time checking the token with the same secret prints the same claims. -/
theorem verifies_what_it_issues (now : Nat) (config : Config) (format : Format)
    (given : Option String) (subject text : String) (hours? : Option UInt64) :
    let secret := given.getD config.security.secret
    let hours := (hours?.getD config.security.lifetimeHours).toNat
    let printed := run now config ⟨format, given, .token subject text hours?⟩
    ((∃ out, printed = .ok out) ↔
      (∃ role, Role.ofText text = .ok role) ∧ (now : Int) + 3600 * hours ≤ Claims.lastSecond ∧
        secret ≠ "") ∧
    (∀ e, Role.ofText text = .error e →
      printed = .error ⟨"Unknown role: " ++ Text.quoted text, []⟩) ∧
    ∀ role, Role.ofText text = .ok role →
      (Claims.lastSecond < (now : Int) + 3600 * hours →
        printed =
          .error ⟨"Token lifetime of " ++ toString hours ++ " hours is out of range", []⟩) ∧
      ((now : Int) + 3600 * hours ≤ Claims.lastSecond → secret = "" →
        printed = .error ⟨"failed to sign token", ["Invalid JWT secret"]⟩) ∧
      ((now : Int) + 3600 * hours ≤ Claims.lastSecond → secret ≠ "" →
        ∃ (token : String) (c : Claims) (out : String), printed = .ok out ∧
          ShowsIssued token c out format ∧ Token.Bears token c ∧
          c.sub = subject ∧ c.role = role ∧ c.iat.toInt = now ∧
          c.exp.toInt - c.iat.toInt = 3600 * hours ∧
          ∀ (later : Nat) (config' : Config) (format' : Format) (given' : Option String) header,
            (later : Int) ≤ c.exp.toInt + 60 → given'.getD config'.security.secret = secret →
            header = token ∨ header = "Bearer " ++ token →
            ∃ shown, run later config' ⟨format', given', .verify header⟩ = .ok shown ∧
              ShowsClaims c shown format') := by
  intro secret hours printed
  refine ⟨issue_eq_ok_iff, fun _ => issue_of_unknown, fun role hrole =>
    ⟨issue_of_late hrole, issue_of_no_secret hrole, fun htime hsecret => ?_⟩⟩
  obtain ⟨c, hout, hsub, hrole', hiat, hexp⟩ : ∃ c,
      printed = .ok (renderIssued format (Token.issuedParts c secret).joined c) ∧
        c.sub = subject ∧ _ :=
    issue_of_secret hrole htime hsecret
  refine ⟨_, c, _, hout, showsIssued_renderIssued format _ c, Token.bears_issued c secret, hsub,
    hrole', hiat, by omega, ?_⟩
  intro later config' format' given' header hlater hsame hheader
  have hcarries : Token.Carries (Token.issuedParts c secret).joined header := by
    obtain rfl | rfl := hheader
    · exact Token.Carries.self _
    · exact Token.Carries.bearer _
  refine ⟨_, ?_, showsClaims_renderClaims format' c⟩
  show verify later (given'.getD config'.security.secret) header format' = _
  rw [hsame]
  exact verify_of_unexpired hsecret hcarries ⟨by omega, hlater⟩

/-- A token for an administrator with the lifetime that nobody sets, checked in its last second, and
three tokens that are not issued. -/
theorem verifies_what_it_issues_to_admin :
    let config : Config := .ofVariables fun _ => none
    let claims : Claims := ⟨"7", .admin, 1700604800, 1700000000⟩
    let issued (secret role : String) (hours : Option UInt64) : Except Failure String :=
      run 1700000000 config ⟨.json, some secret, .token "7" role hours⟩
    (∃ token out, issued "s3cret" " Admin " none = .ok out ∧
      Json.parse out = .ok (.object [("claims", .object claims.byName), ("token", .string token)]) ∧
      Token.Bears token claims ∧
      run 1700604860 config ⟨.text, some "s3cret", .verify ("Bearer " ++ token)⟩ =
        .ok "subject: 7\nrole: admin\nexpires: 1700604800\n") ∧
    issued "" "root" (some 0xFFFFFFFFFFFFFFFF) = .error ⟨"Unknown role: \"root\"", []⟩ ∧
    issued "" "user" (some 0xFFFFFFFFFFFFFFFF) =
      .error ⟨"Token lifetime of 18446744073709551615 hours is out of range", []⟩ ∧
    issued "" "user" none = .error ⟨"failed to sign token", ["Invalid JWT secret"]⟩ := by
  intro config claims issued
  have hhours : config.security.lifetimeHours = 168 := by decide +kernel
  have hlaw (secret role : String) (hours : Option UInt64) :=
    verifies_what_it_issues 1700000000 config .json (some secret) "7" role hours
  obtain ⟨-, hunknown, -⟩ := hlaw "" "root" (some 0xFFFFFFFFFFFFFFFF)
  obtain ⟨-, -, hlate⟩ := hlaw "" "user" (some 0xFFFFFFFFFFFFFFFF)
  obtain ⟨-, -, hempty⟩ := hlaw "" "user" none
  obtain ⟨-, -, hgood⟩ := hlaw "s3cret" " Admin " none
  rw [Option.getD_none, hhours] at hempty hgood
  refine ⟨?_, ?_, ?_, ?_⟩
  · obtain ⟨token, c, out, hout, hshows, hbears, hsub, hrole, hiat, hexp, hverify⟩ :=
      (hgood .admin rfl).2.2 (by decide) (by decide)
    have hseconds : (3600 * (168 : UInt64).toNat : Int) = 604800 := by decide
    rw [hseconds] at hexp
    have hexp' : c.exp.toInt = 1700604800 := by omega
    have hc : c = claims := by
      obtain ⟨sub, role, exp, iat⟩ := c
      obtain rfl : exp = 1700604800 := Int64.toInt_inj.mp hexp'
      obtain rfl : iat = 1700000000 := Int64.toInt_inj.mp hiat
      cases hsub
      cases hrole
      rfl
    subst hc
    obtain ⟨shown, hshown, htext⟩ := hverify 1700604860 config .text (some "s3cret")
      ("Bearer " ++ token) (by decide) rfl (.inr rfl)
    have hlines : shown = "subject: 7\nrole: admin\nexpires: 1700604800\n" :=
      htext.trans (by decide +kernel)
    exact ⟨token, out, hout, hshows, hbears, hlines ▸ hshown⟩
  · have hquoted : "Unknown role: " ++ Text.quoted "root" = "Unknown role: \"root\"" := by
      decide +kernel
    rw [← hquoted]
    exact hunknown _ rfl
  · have hmessage : "Token lifetime of " ++ toString (0xFFFFFFFFFFFFFFFF : UInt64).toNat ++
        " hours is out of range" =
        "Token lifetime of 18446744073709551615 hours is out of range" := by
      decide +kernel
    rw [← hmessage]
    exact (hlate .user rfl).1 (by decide)
  · exact (hempty .user rfl).2.1 (by decide) rfl

end Cli

end Gatehouse
