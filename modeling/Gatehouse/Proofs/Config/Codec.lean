import Gatehouse.Config.Json
import Gatehouse.Proofs.Json.Records

/-!
# The configuration in a file

A text spells a configuration if it has each setting once, in any order and beside anything else;
only the secret may be missing, which then counts as empty. Such a text is read as what it spells
(`Config.run_reader_of_spelled`). Configuration is written without its secret, and what is written
spells all the rest. So written texts tell configurations apart exactly by what is not secret, and
writing what was read from any text comes to rest at once (`Config.codec_without_secret`).
-/

namespace Gatehouse.Config

open Json Json.Reader

variable {room : Nat} {u : List UInt8}

/-! ## The database -/

namespace Database

def slots : Slots member where
  fields :=
    [⟨"url", string "a string", Partial.url, fun x p => { p with url := x },
        fun _ => rfl, fun _ _ => rfl⟩,
      ⟨"pool_size", uint64 "usize", Partial.poolSize, fun x p => { p with poolSize := x },
        fun _ => rfl, fun _ _ => rfl⟩,
      ⟨"max_retries", uint32, Partial.maxRetries, fun x p => { p with maxRetries := x },
        fun _ => rfl, fun _ _ => rfl⟩,
      ⟨"enable_query_logging", bool, Partial.logsStatements,
        fun x p => { p with logsStatements := x }, fun _ => rfl, fun _ _ => rfl⟩]
  unique := by simp
  apart := by simp
  ext := by
    rintro ⟨⟩ ⟨⟩ h
    simpa using h
  other := by
    intro k p h
    simp only [List.forall_mem_cons, List.not_mem_nil, false_implies, implies_true] at h
    obtain ⟨hurl, hpool, hretries, hlogs, -⟩ := h
    unfold member
    split
    · exact absurd rfl hurl
    · exact absurd rfl hpool
    · exact absurd rfl hretries
    · exact absurd rfl hlogs
    · rfl

/-- A text is an object with the settings, each of them once. -/
def Spelled (c : Database) (u : List UInt8) : Prop :=
  ∃ ms q, Members ms u ∧ textsOf "url" ms = [q] ∧ SpellsString c.url q ∧
    textsOf "pool_size" ms = [numeral c.poolSize.toNat] ∧
    textsOf "max_retries" ms = [numeral c.maxRetries.toNat] ∧
    textsOf "enable_query_logging" ms = [Utf8.encodeChars (boolChars c.logsStatements)]

theorem yields_reader {c : Database} (h : c.Spelled u) : Yields (reader (room + 1)) u c := by
  obtain ⟨ms, q, hms, hurl, hq, hpool, hretries, hlogs⟩ := h
  refine slots.yields_record ⟨some c.url, some c.poolSize, some c.maxRetries, some c.logsStatements⟩
    hms ?_ rfl
  simp only [slots, List.forall_mem_cons]
  refine ⟨?_, ?_, ?_, ?_, List.forall_mem_nil _⟩
  · rw [hurl]
    exact .ahead (yields_string hq)
  · rw [hpool]
    exact .ahead (yields_uint64 c.poolSize)
  · rw [hretries]
    exact .ahead (yields_uint32 c.maxRetries)
  · rw [hlogs]
    exact .ahead (yields_bool c.logsStatements)

end Database
/-! ## The interface -/

namespace Api

def slots : Slots member where
  fields :=
    [⟨"port", uint16, Partial.port, fun x p => { p with port := x }, fun _ => rfl,
        fun _ _ => rfl⟩,
      ⟨"max_request_size_bytes", uint64 "usize", Partial.maxBodyBytes,
        fun x p => { p with maxBodyBytes := x }, fun _ => rfl, fun _ _ => rfl⟩]
  unique := by simp
  apart := by simp
  ext := by
    rintro ⟨⟩ ⟨⟩ h
    simpa using h
  other := by
    intro k p h
    simp only [List.forall_mem_cons] at h
    obtain ⟨hport, hbody, -⟩ := h
    unfold member
    split
    · exact absurd rfl hport
    · exact absurd rfl hbody
    · rfl

/-- A text is an object with the settings, each of them once. -/
def Spelled (c : Api) (u : List UInt8) : Prop :=
  ∃ ms, Members ms u ∧ textsOf "port" ms = [numeral c.port.toNat] ∧
    textsOf "max_request_size_bytes" ms = [numeral c.maxBodyBytes.toNat]

theorem yields_reader {c : Api} (h : c.Spelled u) : Yields (reader (room + 1)) u c := by
  obtain ⟨ms, hms, hport, hbody⟩ := h
  refine slots.yields_record ⟨some c.port, some c.maxBodyBytes⟩ hms ?_ rfl
  simp only [slots, List.forall_mem_cons]
  refine ⟨?_, ?_, List.forall_mem_nil _⟩
  · rw [hport]
    exact .ahead (yields_uint16 c.port)
  · rw [hbody]
    exact .ahead (yields_uint64 c.maxBodyBytes)

end Api

/-! ## Tokens -/

namespace Security

def slots : Slots member where
  fields :=
    [⟨"jwt_secret", string "a string", Partial.secret, fun x p => { p with secret := x },
        fun _ => rfl, fun _ _ => rfl⟩,
      ⟨"jwt_expiry_hours", uint64 "u64", Partial.lifetimeHours,
        fun x p => { p with lifetimeHours := x }, fun _ => rfl, fun _ _ => rfl⟩]
  unique := by simp
  apart := by simp
  ext := by
    rintro ⟨⟩ ⟨⟩ h
    simpa using h
  other := by
    intro k p h
    simp only [List.forall_mem_cons] at h
    obtain ⟨hsecret, hhours, -⟩ := h
    unfold member
    split
    · exact absurd rfl hsecret
    · exact absurd rfl hhours
    · rfl

/-- A text is an object with the lifetime once and the secret at most once. A missing secret is
empty. -/
def Spelled (c : Security) (u : List UInt8) : Prop :=
  ∃ ms, Members ms u ∧ textsOf "jwt_expiry_hours" ms = [numeral c.lifetimeHours.toNat] ∧
    ((textsOf "jwt_secret" ms = [] ∧ c.secret = "") ∨
      ∃ q, textsOf "jwt_secret" ms = [q] ∧ SpellsString c.secret q)

theorem yields_reader {c : Security} (h : c.Spelled u) : Yields (reader (room + 1)) u c := by
  obtain ⟨ms, hms, hhours, ⟨hnone, hempty⟩ | ⟨q, hsecret, hq⟩⟩ := h
  · refine slots.yields_record ⟨none, some c.lifetimeHours⟩ hms ?_ (by rw [← hempty]; rfl)
    simp only [slots, List.forall_mem_cons]
    refine ⟨?_, ?_, List.forall_mem_nil _⟩
    · rw [hnone]
      exact .already none
    · rw [hhours]
      exact .ahead (yields_uint64 c.lifetimeHours)
  · refine slots.yields_record ⟨some c.secret, some c.lifetimeHours⟩ hms ?_ rfl
    simp only [slots, List.forall_mem_cons]
    refine ⟨?_, ?_, List.forall_mem_nil _⟩
    · rw [hsecret]
      exact .ahead (yields_string hq)
    · rw [hhours]
      exact .ahead (yields_uint64 c.lifetimeHours)

end Security

/-! ## All settings -/

def slots (room : Nat) : Slots (member room) where
  fields :=
    [⟨"environment", Environment.reader room, Partial.environment,
        fun x p => { p with environment := x }, fun _ => rfl, fun _ _ => rfl⟩,
      ⟨"database", Database.reader room, Partial.database, fun x p => { p with database := x },
        fun _ => rfl, fun _ _ => rfl⟩,
      ⟨"api", Api.reader room, Partial.api, fun x p => { p with api := x }, fun _ => rfl,
        fun _ _ => rfl⟩,
      ⟨"security", Security.reader room, Partial.security, fun x p => { p with security := x },
        fun _ => rfl, fun _ _ => rfl⟩]
  unique := by simp
  apart := by simp
  ext := by
    rintro ⟨⟩ ⟨⟩ h
    simpa using h
  other := by
    intro k p h
    simp only [List.forall_mem_cons] at h
    obtain ⟨henvironment, hdatabase, hapi, hsecurity, -⟩ := h
    unfold member
    split
    · exact absurd rfl henvironment
    · exact absurd rfl hdatabase
    · exact absurd rfl hapi
    · exact absurd rfl hsecurity
    · rfl

/-- A text is an object with all settings. -/
def Spelled (c : Config) (u : List UInt8) : Prop :=
  ∃ ms q d a s, Members ms u ∧
    textsOf "environment" ms = [q] ∧ SpellsString c.environment.name q ∧
    textsOf "database" ms = [d] ∧ c.database.Spelled d ∧
    textsOf "api" ms = [a] ∧ c.api.Spelled a ∧
    textsOf "security" ms = [s] ∧ c.security.Spelled s

theorem Environment.lookup_name (e : Environment) :
    (all.map fun e => (e.name, e)).lookup e.name = some e := by
  cases e <;> rfl

theorem yields_reader {c : Config} (h : c.Spelled u) : Yields (reader (room + 2)) u c := by
  obtain ⟨ms, q, d, a, s, hms, henvironment, hq, hdatabase, hd, hapi, ha, hsecurity, hs⟩ := h
  refine (slots (room + 1)).yields_record
    ⟨some c.environment, some c.database, some c.api, some c.security⟩ hms ?_ rfl
  simp only [slots, List.forall_mem_cons]
  refine ⟨?_, ?_, ?_, ?_, List.forall_mem_nil _⟩
  · rw [henvironment]
    exact .ahead (yields_choice hq c.environment.lookup_name)
  · rw [hdatabase]
    exact .ahead (Database.yields_reader hd)
  · rw [hapi]
    exact .ahead (Api.yields_reader ha)
  · rw [hsecurity]
    exact .ahead (Security.yields_reader hs)

/-! ## What is written -/

theorem Database.spelled_of_written {c : Database} (h : Written c.toJson u) : c.Spelled u := by
  obtain ⟨text, htext, hms⟩ := h.object
  refine ⟨_, text (.string c.url), hms, by simp [textsOf], (htext _).string, ?_, ?_, ?_⟩
  · simpa [textsOf] using (htext (.number (.natural c.poolSize))).natural
  · simpa [textsOf] using (htext (.number (.natural c.maxRetries.toUInt64))).natural
  · simpa [textsOf] using (htext (.bool c.logsStatements)).bool

theorem Api.spelled_of_written {c : Api} (h : Written c.toJson u) : c.Spelled u := by
  obtain ⟨text, htext, hms⟩ := h.object
  refine ⟨_, hms, ?_, ?_⟩
  · simpa [textsOf] using (htext (.number (.natural c.port.toUInt64))).natural
  · simpa [textsOf] using (htext (.number (.natural c.maxBodyBytes))).natural

/-- Of the settings of tokens all is written but the secret. -/
theorem Security.spelled_of_written {c : Security} (h : Written c.toJson u) :
    Spelled { c with secret := "" } u := by
  obtain ⟨text, htext, hms⟩ := h.object
  refine ⟨_, hms, ?_, .inl ⟨by simp [textsOf], rfl⟩⟩
  simpa [textsOf] using (htext (.number (.natural c.lifetimeHours))).natural

theorem spelled_of_written {c : Config} (h : Written c.toJson u) :
    (c.withSecret "").Spelled u := by
  obtain ⟨text, htext, hms⟩ := h.object
  refine ⟨_, text c.environment.toJson, text c.database.toJson, text c.api.toJson,
    text c.security.toJson, hms, by simp [textsOf], (htext c.environment.toJson).string,
    by simp [textsOf], ?_, by simp [textsOf], ?_, by simp [textsOf], ?_⟩
  · exact Database.spelled_of_written (htext c.database.toJson)
  · exact Api.spelled_of_written (htext c.api.toJson)
  · exact Security.spelled_of_written (htext c.security.toJson)

/-- The settings of tokens in another order, with the secret and beside something else. -/
def Security.rearranged (c : Security) (comment : Value) : Value :=
  .object [("jwt_expiry_hours", .number (.natural c.lifetimeHours)), ("comment", comment),
    ("jwt_secret", .string c.secret)]

/-- All settings likewise. -/
def rearranged (c : Config) (comment : Value) : Value :=
  .object [("security", c.security.rearranged comment), ("comment", comment),
    ("api", c.api.toJson), ("environment", c.environment.toJson),
    ("database", c.database.toJson)]

theorem Security.spelled_of_rearranged {c : Security} {comment : Value}
    (h : Written (c.rearranged comment) u) : c.Spelled u := by
  obtain ⟨text, htext, hms⟩ := h.object
  refine ⟨_, hms, ?_,
    .inr ⟨text (.string c.secret), by simp [textsOf], (htext (.string c.secret)).string⟩⟩
  simpa [textsOf] using (htext (.number (.natural c.lifetimeHours))).natural

theorem spelled_of_rearranged {c : Config} {comment : Value}
    (h : Written (c.rearranged comment) u) : c.Spelled u := by
  obtain ⟨text, htext, hms⟩ := h.object
  refine ⟨_, text c.environment.toJson, text c.database.toJson, text c.api.toJson,
    text (c.security.rearranged comment), hms, by simp [textsOf],
    (htext c.environment.toJson).string, by simp [textsOf], ?_, by simp [textsOf], ?_,
    by simp [textsOf], ?_⟩
  · exact Database.spelled_of_written (htext c.database.toJson)
  · exact Api.spelled_of_written (htext c.api.toJson)
  · exact Security.spelled_of_rearranged (htext (c.security.rearranged comment))

/-! ## Reading and writing -/

/-- A text spells a configuration, with blanks around it. -/
def SpelledBy (c : Config) (text : String) : Prop :=
  ∃ w u r, Utf8.encode text = w ++ (u ++ r) ∧ Blanks w ∧ Blanks r ∧ c.Spelled u

theorem Spelled.spelledBy {c : Config} {text : String} (h : c.Spelled (Utf8.encode text)) :
    c.SpelledBy text :=
  ⟨[], _, [], (List.append_nil _).symm, Blanks.nil, Blanks.nil, h⟩

theorem run_reader_of_spelledBy {c : Config} {text : String} (h : c.SpelledBy text) :
    (reader maxDepth).run (Utf8.encode text) = .ok c := by
  obtain ⟨w, u, r, htext, hw, hr, hu⟩ := h
  rw [htext]
  exact (yields_reader hu).run hw hr

theorem run_reader_of_written {c : Config} {text : String}
    (h : Written c.toJson (Utf8.encode text)) :
    (reader maxDepth).run (Utf8.encode text) = .ok (c.withSecret "") :=
  run_reader_of_spelledBy (spelled_of_written h).spelledBy

/-- The secret is no part of what is written. -/
theorem toJson_withSecret (c : Config) (secret : String) :
    (c.withSecret secret).toJson = c.toJson := rfl

theorem render_eq_iff {c c' : Config} :
    c.toJson.render = c'.toJson.render ↔ c.withSecret "" = c'.withSecret "" := by
  constructor
  · intro h
    have hread := run_reader_of_written (written_render c.toJson)
    rw [h, run_reader_of_written (written_render c'.toJson)] at hread
    exact (Except.ok.inj hread).symm
  · intro h
    rw [← toJson_withSecret c "", h, toJson_withSecret]

/-- The text that is written for what was read from a text. -/
def normalized (text : String) : Except Error String :=
  ((reader maxDepth).run (Utf8.encode text)).map fun c => c.toJson.render

/-- Normal text is its own normal form. -/
theorem normalized_of_normalized {text normal : String} (h : normalized text = .ok normal) :
    normalized normal = .ok normal := by
  unfold normalized at h ⊢
  cases hread : (reader maxDepth).run (Utf8.encode text) with
  | error e =>
    rw [hread] at h
    cases h
  | ok c =>
    rw [hread] at h
    cases h
    rw [run_reader_of_written (written_render c.toJson)]
    rfl

/-- Configuration that is written is read back without its secret, and two configurations are
written alike exactly if they differ in nothing but the secret. A text with the settings in any
order, beside anything else and perhaps with a secret, is read as what it spells, and writing what
was read from any text comes to rest at once. -/
theorem codec_without_secret :
    (∀ c : Config,
      (reader maxDepth).run (Utf8.encode c.toJson.render) = .ok (c.withSecret "") ∧
      (reader maxDepth).run (Utf8.encode c.toJson.renderIndented) = .ok (c.withSecret "")) ∧
    (∀ c c' : Config, c.toJson.render = c'.toJson.render ↔ c.withSecret "" = c'.withSecret "") ∧
    (∀ (c : Config) (text : String), c.SpelledBy text →
      (reader maxDepth).run (Utf8.encode text) = .ok c) ∧
    ∀ text normal, normalized text = .ok normal → normalized normal = .ok normal := by
  refine ⟨fun c => ⟨?_, ?_⟩, fun c c' => render_eq_iff, fun c text => run_reader_of_spelledBy,
    fun text normal => normalized_of_normalized⟩
  · exact run_reader_of_written (written_render c.toJson)
  · exact run_reader_of_written (written_renderIndented c.toJson)

/-- A text with the sections in another order, a comment at the top and another in the settings of
tokens, and the secret written out. -/
theorem codec_without_secret_rearranged :
    let c : Config := ⟨.staging, ⟨"db", 20, 3, true⟩, ⟨8080, 4096⟩, ⟨"s3cret", 24⟩⟩
    let text := (rearranged c (.array [.null])).render
    c.SpelledBy text ∧ (reader maxDepth).run (Utf8.encode text) = .ok c ∧
      normalized text = .ok c.toJson.render ∧
      normalized c.toJson.render = .ok c.toJson.render := by
  intro c text
  obtain ⟨-, -, hspelled, hnormal⟩ := codec_without_secret
  have htext : c.SpelledBy text := (spelled_of_rearranged (written_render _)).spelledBy
  have hread := hspelled c text htext
  have hnormalized : normalized text = .ok c.toJson.render := by
    unfold normalized
    rw [hread]
    rfl
  exact ⟨htext, hread, hnormalized, hnormal text c.toJson.render hnormalized⟩

end Gatehouse.Config
