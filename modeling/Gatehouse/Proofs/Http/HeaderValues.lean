import Gatehouse.Proofs.Http.Serving

/-!
# Which header values are handed on

A request to a handler conveys an HTTP request (`Http.Conveys`) when it has its method, path and
body, and under each name the last value as text. Every HTTP request whose header values are UTF-8
can be conveyed. What is served is the answer to a request that conveys it as long as the last
credential is visible ASCII, whatever the other headers are. A credential in any other text is not
handed on: the last one before it that is visible counts in its place, and without such a one the
credential is missing (`Http.serve_agrees_on_visible_credential`).
-/

namespace Gatehouse.Http

/-! ## Values under a name -/

/-- The values under a name, in order. -/
def valuesUnder (headers : List (String × List UInt8)) (name : String) : List (List UInt8) :=
  (headers.filter fun header => Text.asciiLower header.1 = Text.asciiLower name).map (·.2)

/-- The values under a name that are visible ASCII, in order. -/
def visibleUnder (headers : List (String × List UInt8)) (name : String) : List (List UInt8) :=
  (valuesUnder headers name).filter fun value => value.all isVisible

section Concat

variable {headers : List (String × List UInt8)} {header : String × List UInt8} {name : String}

theorem valuesUnder_concat_same (h : SameName header.1 name) :
    valuesUnder (headers ++ [header]) name = valuesUnder headers name ++ [header.2] := by
  have hname : Text.asciiLower header.1 = Text.asciiLower name := h
  simp [valuesUnder, hname]

theorem valuesUnder_concat_other (h : ¬ SameName header.1 name) :
    valuesUnder (headers ++ [header]) name = valuesUnder headers name := by
  have hname : ¬ Text.asciiLower header.1 = Text.asciiLower name := h
  simp [valuesUnder, hname]

end Concat

/-- The last value that can be read is the last visible one. -/
theorem isLast_iff (headers : List (String × List UInt8)) (name text : String) :
    IsLast headers name text ↔
      (visibleUnder headers name).getLast? = some (Utf8.encode text) := by
  induction headers using List.reverseRecOn with
  | nil => simp [IsLast, visibleUnder, valuesUnder]
  | append_singleton headers header ih =>
    by_cases hname : SameName header.1 name
    · by_cases hvisible : Visible header.2
      · have hall := all_isVisible_iff.mpr hvisible
        rw [isLast_concat_of_read hname hvisible, visibleUnder, valuesUnder_concat_same hname]
        simp [hall, eq_comm]
      · have hall := mt all_isVisible_iff.mp hvisible
        rw [isLast_concat_of_skipped fun _ => hvisible, ih, visibleUnder, visibleUnder,
          valuesUnder_concat_same hname]
        simp [hall]
    · rw [isLast_concat_of_skipped fun h => absurd h hname, ih, visibleUnder, visibleUnder,
        valuesUnder_concat_other hname]

theorem getLast?_visibleUnder {headers : List (String × List UInt8)} {name : String}
    {value : List UInt8} (hlast : (valuesUnder headers name).getLast? = some value)
    (hvisible : Visible value) : (visibleUnder headers name).getLast? = some value := by
  obtain ⟨before, hvalues⟩ := List.getLast?_eq_some_iff.mp hlast
  have hall := all_isVisible_iff.mpr hvisible
  rw [visibleUnder, hvalues]
  simp [hall]

/-! ## Conveying -/

/-- A request to a handler has all that an HTTP request says, under each name the last value. -/
structure Conveys (q : Gatehouse.Request) (r : Request) : Prop where
  method : q.method = r.method
  path : q.path = Http.path r.uri
  header : ∀ name, (q.header? name).map Utf8.encode = (valuesUnder r.headers name).getLast?
  body : Carries r.body q.body q.undecodable

theorem exists_headers {headers : List (String × List UInt8)}
    (hutf8 : ∀ header ∈ headers, ∃ text, Utf8.encode text = header.2) :
    ∃ d : Dictionary String, ∀ name,
      (d.find? (Text.asciiLower name)).map Utf8.encode = (valuesUnder headers name).getLast? := by
  induction headers using List.reverseRecOn with
  | nil => exact ⟨[], fun _ => rfl⟩
  | append_singleton headers header ih =>
    obtain ⟨d, hd⟩ := ih fun x hx => hutf8 x (List.mem_append_left _ hx)
    obtain ⟨text, htext⟩ := hutf8 header (by simp)
    refine ⟨d.insert (Text.asciiLower header.1) text, fun name => ?_⟩
    by_cases hname : SameName header.1 name
    · rw [valuesUnder_concat_same hname, List.getLast?_concat, ← htext,
        show Text.asciiLower name = Text.asciiLower header.1 from hname.symm,
        Dictionary.find?_insert_self]
      rfl
    · rw [valuesUnder_concat_other hname, ← hd name,
        Dictionary.find?_insert_of_ne d text (Ne.symm hname)]

theorem exists_conveys {r : Request}
    (hutf8 : ∀ header ∈ r.headers, ∃ text, Utf8.encode text = header.2) : ∃ q, Conveys q r := by
  obtain ⟨d, hd⟩ := exists_headers hutf8
  let bare : Gatehouse.Request := ⟨r.method, Http.path r.uri, d, none, none⟩
  obtain ⟨hmethod, hpath, hheaders⟩ := withBodyBytes_keeps bare r.body
  refine ⟨bare.withBodyBytes r.body, hmethod, hpath, fun name => ?_, carries_withBodyBytes _ _⟩
  rw [Request.header?, hheaders]
  exact hd name

namespace Conveys

variable {r : Request} {q : Gatehouse.Request} (hq : Conveys q r)

include hq

theorem header?_eq_some_iff {name text : String} :
    q.header? name = some text ↔
      (valuesUnder r.headers name).getLast? = some (Utf8.encode text) := by
  rw [← hq.header name, Option.map_eq_some_iff]
  constructor
  · intro h
    exact ⟨text, h, rfl⟩
  · rintro ⟨text', h, htext⟩
    rw [h, Utf8.encode_injective htext]

/-- A visible last value is handed on, and so it is when there is none. -/
theorem header?_toRequest {name : String}
    (hvisible : ∀ text, q.header? name = some text → Visible (Utf8.encode text)) :
    r.toRequest.header? name = q.header? name := by
  apply Option.ext
  intro text
  rw [(asks_toRequest r).header, isLast_iff]
  cases hheader : q.header? name with
  | none =>
    have hlast := hq.header name
    rw [hheader, Option.map_none] at hlast
    have hnone : valuesUnder r.headers name = [] := List.getLast?_eq_none_iff.mp hlast.symm
    rw [visibleUnder, hnone]
    exact ⟨nofun, nofun⟩
  | some value =>
    have hlast := hq.header?_eq_some_iff.mp hheader
    rw [getLast?_visibleUnder hlast (hvisible value hheader), Option.some.injEq, Option.some.injEq]
    exact ⟨fun h => Utf8.encode_injective h, fun h => by rw [h]⟩

/-- A handler sees of a request that is handed on nothing but its credential that could differ from
what the request conveys. -/
theorem respond_eq_of_credential {σ : Type} {q' : Gatehouse.Request}
    (hcredential : q'.header? "authorization" = r.toRequest.header? "authorization")
    (hmethod : q'.method = q.method) (hpath : q'.path = q.path) (hjson : q'.json = q.json)
    (h : Handler σ) : h.respond q' = h.respond r.toRequest := by
  have hasks := asks_toRequest r
  have hbody := (hq.body.withBodyBytes_eq q).symm.trans (hasks.body.withBodyBytes_eq q)
  simp only [Gatehouse.Request.mk.injEq, true_and] at hbody
  apply Handler.respond_eq_of_seen
  · rw [hmethod, hq.method, hasks.method]
  · rw [hpath, hq.path, hasks.path]
  · exact hcredential
  · rw [hjson]
    simp only [Gatehouse.Request.json, hbody]

end Conveys

/-! ## What is served -/

/-- Serving ended as a response did, in the same world and with the same history: by the same panic,
or by showing the response. -/
structure ServesAs {σ : Type} (served : Run σ Response) (responded : Run σ Gatehouse.Response) :
    Prop where
  world : served.world = responded.world
  history : served.history = responded.history
  panic : ∀ p, responded.ending = .panicked p → served.ending = .panicked p
  shows : ∀ x, responded.ending = .returned x →
    ∃ y, served.ending = .returned y ∧ Shows x y

section Serving

variable {σ : Type} {limit : UInt64} {r : Request} (h : Handler σ) (w : World σ)
  (hmethod : r.method ≠ "OPTIONS") (hbody : r.body.length ≤ limit.toNat)

include hmethod hbody

theorem servesAs_of_respond_eq {q : Gatehouse.Request} (hq : h.respond q = h.respond r.toRequest) :
    ServesAs (serve h limit r w) (h.respond q w) := by
  obtain ⟨hworld, hhistory, hpanic, hshows⟩ :=
    serve_run_of_read h w hmethod hbody (asks_toRequest r)
  rw [hq]
  exact ⟨hworld, hhistory, hpanic, hshows⟩

/-- Without a visible credential the credential is missing. -/
theorem serve_run_of_none_visible (hnone : visibleUnder r.headers "authorization" = []) :
    ServesAs (serve h limit r w)
      ⟨.returned (.unauthorized "Missing Authorization header"), w,
        [.seen (.event (Handler.refusedEvent (.malformed "Missing Authorization header")))]⟩ := by
  have hheader : r.toRequest.header? "authorization" = none := by
    rw [Option.eq_none_iff_forall_ne_some]
    intro text htext
    rw [(asks_toRequest r).header, isLast_iff, hnone] at htext
    cases htext
  have hverdict : h.gate.judge r.toRequest =
      .returned (.error (.malformed "Missing Authorization header")) := by
    simp only [Gate.judge, hheader]
    rfl
  have hserved := servesAs_of_respond_eq h w hmethod hbody (rfl : h.respond r.toRequest = _)
  rw [Handler.respond_of_denied w hverdict] at hserved
  exact hserved

end Serving

/-- What becomes of the header values of an HTTP request that is read, if all of them are UTF-8.
There is a request that conveys them, and every such request is answered as the HTTP request is
served if its credential is visible ASCII or it has none. Another credential is not handed on: the
last visible one stands in its place, and without one the credential is missing. -/
theorem serve_agrees_on_visible_credential {σ : Type} (limit : UInt64) (r : Request)
    (hmethod : r.method ≠ "OPTIONS") (hbody : r.body.length ≤ limit.toNat)
    (hutf8 : ∀ header ∈ r.headers, ∃ text, Utf8.encode text = header.2) :
    (∃ q, Conveys q r) ∧ ∀ q, Conveys q r → ∀ (h : Handler σ) w,
      ((∀ text, q.header? "authorization" = some text → Visible (Utf8.encode text)) →
        ServesAs (serve h limit r w) (h.respond q w)) ∧
      ∀ text, q.header? "authorization" = some text → ¬ Visible (Utf8.encode text) →
        (∀ earlier, (visibleUnder r.headers "authorization").getLast? =
            some (Utf8.encode earlier) →
          ServesAs (serve h limit r w) (h.respond (q.insertHeader "authorization" earlier) w)) ∧
        (visibleUnder r.headers "authorization" = [] →
          ServesAs (serve h limit r w)
            ⟨.returned (.unauthorized "Missing Authorization header"), w,
              [.seen (.event
                (Handler.refusedEvent (.malformed "Missing Authorization header")))]⟩) := by
  refine ⟨exists_conveys hutf8, fun q hq h w => ⟨fun hvisible => ?_, ?_⟩⟩
  · apply servesAs_of_respond_eq h w hmethod hbody
    exact hq.respond_eq_of_credential (hq.header?_toRequest hvisible).symm rfl rfl rfl h
  · intro text _ _
    refine ⟨fun earlier hearlier => ?_, serve_run_of_none_visible h w hmethod hbody⟩
    have hcredential : (q.insertHeader "authorization" earlier).header? "authorization" =
        r.toRequest.header? "authorization" := by
      rw [((asks_toRequest r).header _ earlier).mpr ((isLast_iff _ _ _).mpr hearlier),
        Request.header?_insertHeader, if_pos rfl]
    apply servesAs_of_respond_eq h w hmethod hbody
    exact hq.respond_eq_of_credential hcredential rfl rfl rfl h

/-- Accented names beside a credential, an accented credential behind another one, and an accented
credential alone. -/
theorem serve_agrees_on_visible_credential_beside_accents :
    let accent : List UInt8 := [0xC3, 0xA9]
    let named : Request :=
      ⟨"GET", "/api/health", [("x-name", accent), ("authorization", [0x78])], []⟩
    let behind : Request :=
      { named with headers := [("authorization", [0x78]), ("Authorization", accent)] }
    let alone : Request := { named with headers := [("authorization", accent)] }
    let h : Handler Unit := ⟨⟨"", fun header _ =>
      if header = "x" then .returned (.ok ⟨"1", .user, 0, 0⟩) else .panicked "another value"⟩,
      .ofTarget "db" .simulated⟩
    let w : World Unit := ⟨.ofPool ⟨1, 0⟩, ()⟩
    named.method ≠ "OPTIONS" ∧ named.body.length ≤ (0 : UInt64).toNat ∧
      (∃ q, Conveys q named ∧ q.header? "authorization" = some "x" ∧
        ServesAs (serve h 0 named w) (h.respond q w)) ∧
      (∃ q, Conveys q behind ∧ q.header? "authorization" = some "é" ∧
        ServesAs (serve h 0 behind w) (h.respond (q.insertHeader "authorization" "x") w)) ∧
      ∃ q y, Conveys q alone ∧ q.header? "authorization" = some "é" ∧
        (serve h 0 alone w).ending = .returned y ∧ y.status = 401 := by
  intro accent named behind alone h w
  have hmethod : named.method ≠ "OPTIONS" := by decide
  have hbody : named.body.length ≤ (0 : UInt64).toNat := by decide
  have hx : Utf8.encode "x" = [0x78] := by decide +kernel
  have haccent : Utf8.encode "é" = accent := by decide +kernel
  have hutf8 : ∀ value, value = accent ∨ value = [0x78] → ∃ text, Utf8.encode text = value := by
    rintro value (rfl | rfl)
    · exact ⟨_, haccent⟩
    · exact ⟨_, hx⟩
  have hvisible : Visible (Utf8.encode "x") := by
    rw [hx, ← all_isVisible_iff]
    decide
  have hinvisible : ¬ Visible (Utf8.encode "é") := by
    rw [haccent, ← all_isVisible_iff]
    decide
  obtain ⟨⟨q₁, hq₁⟩, hnamed⟩ := serve_agrees_on_visible_credential (σ := Unit) 0 named hmethod hbody
    (by simpa [named] using ⟨hutf8 _ (.inl rfl), hutf8 _ (.inr rfl)⟩)
  obtain ⟨⟨q₂, hq₂⟩, hbehind⟩ := serve_agrees_on_visible_credential (σ := Unit) 0 behind hmethod
    hbody (by simpa [behind] using ⟨hutf8 _ (.inr rfl), hutf8 _ (.inl rfl)⟩)
  obtain ⟨⟨q₃, hq₃⟩, halone⟩ := serve_agrees_on_visible_credential (σ := Unit) 0 alone hmethod hbody
    (by simpa [alone] using hutf8 _ (.inl rfl))
  have hcredential₁ : q₁.header? "authorization" = some "x" := by
    rw [hq₁.header?_eq_some_iff, hx]
    decide +kernel
  have hcredential₂ : q₂.header? "authorization" = some "é" := by
    rw [hq₂.header?_eq_some_iff, haccent]
    decide +kernel
  have hcredential₃ : q₃.header? "authorization" = some "é" := by
    rw [hq₃.header?_eq_some_iff, haccent]
    decide +kernel
  have hserved := ((halone q₃ hq₃ h w).2 "é" hcredential₃ hinvisible).2 (by decide +kernel)
  obtain ⟨y, hy, hshows⟩ := hserved.shows _ rfl
  refine ⟨hmethod, hbody, ⟨q₁, hq₁, hcredential₁, (hnamed q₁ hq₁ h w).1 ?_⟩,
    ⟨q₂, hq₂, hcredential₂, ((hbehind q₂ hq₂ h w).2 "é" hcredential₂ hinvisible).1 "x" ?_⟩,
    q₃, y, hq₃, hcredential₃, hy, hshows.status⟩
  · intro text htext
    cases hcredential₁.symm.trans htext
    exact hvisible
  · rw [hx]
    decide +kernel

/-- An accented credential that the judge takes is handed on as text by the request that conveys it,
and is missing where it is served. -/
theorem accented_credential_missing :
    let r : Request := ⟨"GET", "/api/health", [("authorization", [0xC3, 0xA9])], []⟩
    let q : Gatehouse.Request := ⟨"GET", "/api/health", [("authorization", "é")], none, none⟩
    let h : Handler Unit := ⟨⟨"", fun header _ =>
      if header = "é" then .returned (.ok ⟨"7", .user, 0, 0⟩) else .panicked "another value"⟩,
      .ofTarget "db" .simulated⟩
    let w : World Unit := ⟨.ofPool ⟨1, 0⟩, ()⟩
    r.method ≠ "OPTIONS" ∧ r.method ≠ "HEAD" ∧ r.body.length ≤ (0 : UInt64).toNat ∧
      (∀ header ∈ r.headers, ∃ text, Utf8.encode text = header.2) ∧ Conveys q r ∧
      (∃ x, (h.respond q w).ending = .returned x ∧ x.status = 200) ∧
      (∃ y, (serve h 0 r w).ending = .returned y ∧ y.status = 401) ∧
      ¬ ServesAs (serve h 0 r w) (h.respond q w) := by
  intro r q h w
  have hmethod : r.method ≠ "OPTIONS" := by decide
  have hbody : r.body.length ≤ (0 : UInt64).toNat := by decide
  have haccent : Utf8.encode "é" = [0xC3, 0xA9] := by decide +kernel
  have hconveys : Conveys q r := by
    refine ⟨rfl, by decide +kernel, fun name => ?_, .empty⟩
    have hlower : Text.asciiLower "authorization" = "authorization" := by decide +kernel
    by_cases hname : Text.asciiLower name = "authorization"
    · simp [q, r, Gatehouse.Request.header?, Dictionary.find?, valuesUnder, hname, hlower, haccent]
    · simp [q, r, Gatehouse.Request.header?, Dictionary.find?, valuesUnder, hname, hlower,
        Ne.symm hname]
  have hverdict : h.gate.judge q = .returned (.ok ⟨"7", .user, 0, 0⟩) := by
    dsimp only [h, q]
    rfl
  have hrespond : (h.respond q w).ending = .returned Handler.healthy := by
    have hroute : Route.resolve q.method q.path = some .health := by decide
    rw [Handler.respond_of_granted w hverdict, Handler.answer, hroute]
    rfl
  have hserved := serve_run_of_none_visible h w hmethod hbody (by decide +kernel)
  obtain ⟨y, hy, hshows⟩ := hserved.shows _ rfl
  refine ⟨hmethod, by decide, hbody, by simpa [r] using ⟨_, haccent⟩, hconveys,
    ⟨_, hrespond, rfl⟩, ⟨y, hy, hshows.status⟩, fun hsame => ?_⟩
  obtain ⟨z, hz, hstatus⟩ := hsame.shows _ hrespond
  cases hy.symm.trans hz
  cases hstatus.status.symm.trans hshows.status

end Gatehouse.Http
