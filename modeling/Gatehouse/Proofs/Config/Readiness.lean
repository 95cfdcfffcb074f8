import Gatehouse.Config.Variables
import Gatehouse.Proofs.Claims.Lifetime
import Gatehouse.Proofs.Handler.ReadBack
import Gatehouse.Proofs.Token.RoundTrip

/-!
# Settings to run with

Settings are accepted when there is a secret and the pool is to have a slot. Then there is a free
slot, the handler has a secret to check tokens with, and once the connection is made a token that
was signed with this secret gets its bearer an answer. Connecting asks for a target besides, and
nothing else (`Config.serves_of_accepted`). Two of the presets have none, and settings without one
are accepted (`Config.accepted_without_target`).
-/

namespace Gatehouse

/-! ## Fresh tokens -/

/-- The time of some claims is not over: a token with them is taken at a time. -/
def Claims.Unexpired (now : Nat) (c : Claims) : Prop :=
  0 ≤ c.exp.toInt ∧ (now : Int) ≤ c.exp.toInt + 60

/-- Claims that are issued now are not expired now. -/
theorem Claims.unexpired_of_issue {now : Nat} {sub : String} {role : Role} {hours : UInt64}
    {c : Claims} (h : Claims.issue now sub role hours = .ok c) : c.Unexpired now := by
  rw [Claims.issue_eq (Calendar.first_le_natCast now)] at h
  unfold lastSecond at h
  split at h
  · cases h
  · next hlast =>
    obtain rfl := Except.ok.inj h
    have hexp : (Int64.ofInt ((now : Int) + 3600 * hours.toNat)).toInt =
        (now : Int) + 3600 * hours.toNat :=
      Int64.toInt_ofInt_of_le (by omega) (by omega)
    show 0 ≤ (Int64.ofInt _).toInt ∧ (now : Int) ≤ (Int64.ofInt _).toInt + 60
    rw [hexp]
    omega

/-- A token that was signed with a secret is taken with that secret while it is not expired. -/
theorem Token.validate_of_unexpired {secret header : String} {c : Claims} {now : Nat}
    (hsecret : secret ≠ "") (hheader : Carries (issuedParts c secret).joined header)
    (hc : c.Unexpired now) : validate now header secret = .ok c := by
  obtain ⟨hpos, hnow⟩ := hc
  rw [validate_issued hsecret hheader]
  obtain ⟨-, u, hu, hval⟩ | ⟨hneg, -⟩ := Json.Reader.ofInt64_cases c.exp
  · rw [hu, Screening.timeOf?, check_of_nonneg, if_neg (by omega)]
    rfl
  · omega

namespace Config

/-! ## What is accepted -/

theorem validate_eq_ok_iff {c : Config} :
    c.validate = .ok () ↔ c.security.secret ≠ "" ∧ c.database.poolSize ≠ 0 := by
  unfold validate
  split
  · next h => simp [String.isEmpty_iff.mp h]
  · next h =>
    have hsecret : c.security.secret ≠ "" := fun he => h (String.isEmpty_iff.mpr he)
    split
    · next h' => simp [h']
    · next h' => simp [hsecret, h']

/-! ## Starting -/

namespace Database

variable (c : Database)

/-- A pool has a slot whatever size is asked for, and at the start none is taken. -/
theorem available_link : 0 < c.link.pool.available := by
  show 0 < (if c.poolSize = 0 then 1 else c.poolSize) - 0
  rw [UInt64.sub_zero]
  split
  · decide
  · next h => exact UInt64.pos_iff_ne_zero.mpr h

/-- With a target the first connecting takes a slot. -/
theorem connect_link (hurl : c.url ≠ "") : ∃ p, c.link.connect c.url = .ok ⟨p, true⟩ := by
  have hfree : c.link.pool.active < c.link.pool.capacity := by
    have hpos := c.available_link
    rwa [Pool.available, show c.link.pool.active = 0 from rfl, UInt64.sub_zero] at hpos
  have hoff : ¬ c.link.connected = true := Bool.false_ne_true
  refine ⟨{ c.link.pool with active := c.link.pool.active + 1 }, ?_⟩
  unfold Link.connect
  rw [if_neg hoff, if_neg (by rwa [String.isEmpty_iff]),
    Pool.acquire?_eq_some_iff.mpr ⟨hfree, rfl⟩]

variable {σ : Type} (backend : Backend σ) (s : σ)

theorem connects (hurl : c.url ≠ "") :
    ((c.connection backend).connect ⟨c.link, s⟩).ending = .returned (.ok ()) ∧
      ((c.connection backend).connect ⟨c.link, s⟩).world.link.connected = true := by
  obtain ⟨p, hp⟩ := c.connect_link hurl
  rw [Connection.connect_run]
  dsimp only [connection]
  rw [hp]
  exact ⟨rfl, rfl⟩

/-- Without a target there is no connecting. -/
theorem ending_connect_of_empty (hurl : c.url = "") :
    ((c.connection backend).connect ⟨c.link, s⟩).ending =
      .returned (.error (.configuration "database URL must not be empty")) := by
  rw [Connection.connect_run]
  dsimp only [connection]
  rw [hurl]
  rfl

theorem connects_iff :
    ((c.connection backend).connect ⟨c.link, s⟩).ending = .returned (.ok ()) ↔ c.url ≠ "" := by
  refine ⟨fun h hurl => ?_, fun hurl => (c.connects backend s hurl).1⟩
  rw [c.ending_connect_of_empty backend s hurl] at h
  cases h

end Database

end Config

/-! ## Answering -/

/-- A gate for signed tokens lets the bearer of a token pass whose header value is valid. -/
theorem Gate.judge_of_valid {now : Nat} {secret : String} {r : Request} {c : Claims}
    (h : Token.validate now r.credential secret = .ok c) :
    (Gate.standard now secret).judge r = .returned (.ok c) := by
  have hne : ¬ r.credential.isEmpty = true := by
    intro hempty
    rw [String.isEmpty_iff.mp hempty] at h
    cases h
  show (if r.credential.isEmpty then _
    else Ending.returned (Token.validate now r.credential secret)) = _
  rw [if_neg hne, h]

namespace Config

/-- Accepted settings have a free slot and a secret, and connecting with them succeeds exactly if
there is a target. Then a token that was signed with the secret and is not expired, as a token is
that is issued now, gets its bearer the simulated row. -/
theorem serves_of_accepted {vars : Variables} (haccepted : (ofVariables vars).validate = .ok ()) :
    let c := ofVariables vars
    let connection : Connection Unit := c.database.connection .simulated
    let opened := connection.connect ⟨c.database.link, ()⟩
    0 < c.database.link.pool.available ∧ c.security.secret ≠ "" ∧
    (opened.ending = .returned (.ok ()) ↔ c.database.url ≠ "") ∧
    (c.database.url ≠ "" → ∀ (now : Nat) (claims : Claims), claims.Unexpired now →
      ∃ token, Token.sign claims c.security.secret = .ok token ∧
        ∀ r : Request, Route.resolve r.method r.path = some .getUser →
          Token.Carries token r.credential →
          ((⟨.standard now c.security.secret, connection⟩ : Handler Unit).respond r
            opened.world).ending = .returned (.ok "\x7b\"result\":\"ok\"\x7d")) ∧
    ∀ (now : Nat) sub role hours claims, Claims.issue now sub role hours = .ok claims →
      claims.Unexpired now := by
  intro c connection opened
  obtain ⟨hsecret, -⟩ := validate_eq_ok_iff.mp haccepted
  refine ⟨c.database.available_link, hsecret, c.database.connects_iff _ (), ?_,
    fun _ _ _ _ _ => Claims.unexpired_of_issue⟩
  intro hurl now claims hclaims
  refine ⟨_, Token.sign_eq_ok hsecret claims, fun r hroute hheader => ?_⟩
  have hvalid := Token.validate_of_unexpired hsecret hheader hclaims
  have hfinds : Handler.Finds ⟨.standard now c.security.secret, connection⟩ r opened.world
      Backend.simulatedRow :=
    ⟨(c.database.connects _ () hurl).2, hroute, claims, [], Gate.judge_of_valid hvalid, rfl⟩
  exact hfinds.ending

/-- A secret is all that is set: a token from last year gets its bearer an answer behind a scheme in
capitals. -/
theorem serves_of_accepted_secret :
    let vars : Variables := fun name =>
      if name = "JWT_SECRET" then some (Utf8.encode "s3cret") else none
    let c := ofVariables vars
    let connection : Connection Unit := c.database.connection .simulated
    let claims : Claims := ⟨"7", .user, 1700000000, 1699996400⟩
    c.validate = .ok () ∧ (connection.connect ⟨c.database.link, ()⟩).ending = .returned (.ok ()) ∧
      ∃ token, Token.sign claims "s3cret" = .ok token ∧
        let header := String.ofList ([] ++ ("BEARER".toList ++ ' ' ::
          (List.replicate 0 ' ' ++ token.toList) ++ []))
        ((⟨.standard 1700000060 "s3cret", connection⟩ : Handler Unit).respond
          ⟨"GET", "/api/user", [("authorization", header)], none, none⟩
          (connection.connect ⟨c.database.link, ()⟩).world).ending =
            .returned (.ok "\x7b\"result\":\"ok\"\x7d") := by
  intro vars c connection claims
  have hurl : c.database.url ≠ "" := by decide +kernel
  have hpool : c.database.poolSize ≠ 0 := by decide +kernel
  have hsecret : c.security.secret = "s3cret" := by decide +kernel
  have haccepted : c.validate = .ok () :=
    validate_eq_ok_iff.mpr ⟨by rw [hsecret]; decide, hpool⟩
  obtain ⟨-, -, hconnects, hserves, -⟩ := @serves_of_accepted vars haccepted
  obtain ⟨token, hsign, hanswers⟩ := hserves hurl 1700000060 claims
    ⟨by decide +kernel, by decide +kernel⟩
  rw [hsecret] at hsign hanswers
  have hroute : Route.resolve "GET" "/api/user" = some .getUser := by decide
  refine ⟨haccepted, hconnects.mpr hurl, token, hsign, hanswers _ hroute ?_⟩
  exact .scheme (List.forall_mem_nil _) (List.forall_mem_nil _) rfl

/-- A staging service with a secret is accepted, and does not connect. -/
theorem accepted_without_target :
    let vars : Variables := fun name =>
      if name = "APP_ENV" then some (Utf8.encode "staging")
      else if name = "JWT_SECRET" then some (Utf8.encode "s3cret") else none
    let c := ofVariables vars
    c.validate = .ok () ∧
      ((c.database.connection .simulated).connect ⟨c.database.link, ()⟩).ending =
        .returned (.error (.configuration "database URL must not be empty")) := by
  intro vars c
  have hurl : c.database.url = "" := by decide +kernel
  have hpool : c.database.poolSize ≠ 0 := by decide +kernel
  have hsecret : c.security.secret ≠ "" := by decide +kernel
  -- Of the settings only these three facts count from here.
  clear_value c
  exact ⟨validate_eq_ok_iff.mpr ⟨hsecret, hpool⟩,
    c.database.ending_connect_of_empty .simulated () hurl⟩

end Config

end Gatehouse
