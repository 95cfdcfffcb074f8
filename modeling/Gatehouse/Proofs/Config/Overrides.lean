import Gatehouse.Config.Variables
import Gatehouse.Proofs.Decimal.Numeral
import Gatehouse.Proofs.Text.Utf8

/-!
# Settings and their variables

A variable holds a text when it is set to the bytes of that text; bytes that are not UTF-8 hold
nothing. A setting is settled by its variable: it has the value that the text there stands for in
the setting's grammar, and the value of the preset where there is no such text (`Config.Settled`).
Every setting is settled by its own variable and by nothing else (`Config.settled_fieldwise`).
-/

namespace Gatehouse

namespace Variables

/-- A variable is set to the bytes of a text. -/
def Holds (vars : Variables) (name s : String) : Prop :=
  vars name = some (Utf8.encode s)

/-- The text that counts for the port: that of the first variable, and that of the second where the
first holds none. -/
def HoldsPort (vars : Variables) (s : String) : Prop :=
  vars.Holds "API_PORT" s ∨ (∀ t, ¬ vars.Holds "API_PORT" t) ∧ vars.Holds "PORT" s

/-- Two environments hold the same texts in some variables. -/
def AgreeOn (names : List String) (vars vars' : Variables) : Prop :=
  ∀ name ∈ names, ∀ s, vars.Holds name s ↔ vars'.Holds name s

variable {vars vars' : Variables} {name s : String}

theorem text?_eq_some_iff : vars.text? name = some s ↔ vars.Holds name s := by
  unfold text? Holds
  rw [Option.bind_eq_some_iff]
  constructor
  · rintro ⟨bytes, hbytes, hs⟩
    have hdecode : Utf8.decode bytes = .ok s := by
      cases h : Utf8.decode bytes with
      | error fault =>
        rw [h] at hs
        cases hs
      | ok t =>
        rw [h] at hs
        exact congrArg Except.ok (Option.some.inj hs)
    rw [hbytes, Utf8.encode_of_decode hdecode]
  · intro h
    exact ⟨_, h, by rw [Utf8.decode_encode]; rfl⟩

theorem portText_eq_some_iff :
    (vars.text? "API_PORT").or (vars.text? "PORT") = some s ↔ vars.HoldsPort s := by
  have hnone : vars.text? "API_PORT" = none ↔ ∀ t, ¬ vars.Holds "API_PORT" t := by
    simp only [← text?_eq_some_iff, Option.eq_none_iff_forall_ne_some]
  unfold HoldsPort
  rw [Option.or_eq_some_iff, hnone, text?_eq_some_iff, text?_eq_some_iff]

theorem AgreeOn.text?_eq {names : List String} (h : AgreeOn names vars vars')
    (hname : name ∈ names) : vars.text? name = vars'.text? name := by
  refine Option.ext fun s => ?_
  rw [text?_eq_some_iff, text?_eq_some_iff]
  exact h name hname s

end Variables

namespace Config

/-! ## Grammars -/

/-- The texts of the two truth values. -/
def SpellsBool (s : String) (b : Bool) : Prop :=
  s = if b then "true" else "false"

theorem readBool?_eq_some_iff {s : String} {b : Bool} : readBool? s = some b ↔ SpellsBool s b := by
  unfold readBool? SpellsBool
  split
  · next h => cases b <;> simp [h]
  · next h =>
    split
    · next h' => cases b <;> simp [h']
    · next h' => cases b <;> simp [h, h']

section Words

variable {s : String}

theorem readUInt16?_eq_some_iff {n : UInt16} :
    readUInt16? s = some n ↔ Decimal.Spells s n.toNat := by
  simp only [readUInt16?, Option.map_eq_some_iff, Decimal.below?_eq_some_iff]
  constructor
  · rintro ⟨m, ⟨hs, hm⟩, rfl⟩
    rwa [Nat.toUInt16, UInt16.toNat_ofNat_of_lt' hm]
  · exact fun hs => ⟨n.toNat, ⟨hs, n.toNat_lt⟩, UInt16.ofNat_toNat⟩

theorem readUInt32?_eq_some_iff {n : UInt32} :
    readUInt32? s = some n ↔ Decimal.Spells s n.toNat := by
  simp only [readUInt32?, Option.map_eq_some_iff, Decimal.below?_eq_some_iff]
  constructor
  · rintro ⟨m, ⟨hs, hm⟩, rfl⟩
    rwa [Nat.toUInt32, UInt32.toNat_ofNat_of_lt' hm]
  · exact fun hs => ⟨n.toNat, ⟨hs, n.toNat_lt⟩, UInt32.ofNat_toNat⟩

theorem readUInt64?_eq_some_iff {n : UInt64} :
    readUInt64? s = some n ↔ Decimal.Spells s n.toNat := by
  simp only [readUInt64?, Option.map_eq_some_iff, Decimal.below?_eq_some_iff]
  constructor
  · rintro ⟨m, ⟨hs, hm⟩, rfl⟩
    rwa [Nat.toUInt64, UInt64.toNat_ofNat_of_lt' hm]
  · exact fun hs => ⟨n.toNat, ⟨hs, n.toNat_lt⟩, UInt64.ofNat_toNat⟩

end Words

/-! ## Settings -/

/-- A setting has the value for which a text stands that is given for it, and its standard value
where no text is given that stands for a value. -/
def Settled {α : Type} (given : String → Prop) (spells : String → α → Prop) (standard value : α) :
    Prop :=
  (∃ s, given s ∧ spells s value) ∨ (∀ s v, given s → ¬ spells s v) ∧ value = standard

theorem settled_overridden {α : Type} {read? : String → Option α} {text : Option String}
    {given : String → Prop} {spells : String → α → Prop} (hgiven : ∀ {s}, text = some s ↔ given s)
    (hspells : ∀ {s v}, read? s = some v ↔ spells s v) (standard : α) :
    Settled given spells standard (overridden read? text standard) := by
  unfold Settled overridden
  cases hread : text.bind read? with
  | some v =>
    obtain ⟨s, hs, hv⟩ := Option.bind_eq_some_iff.mp hread
    exact .inl ⟨s, hgiven.mp hs, hspells.mp hv⟩
  | none =>
    refine .inr ⟨fun s v hs hv => ?_, rfl⟩
    rw [hgiven.mpr hs] at hread
    exact absurd (hread.symm.trans (hspells.mpr hv)) (by simp)

/-- The environment that a variable chooses. -/
def Chosen (vars : Variables) : Environment → Prop
  | .production => vars.Holds "APP_ENV" "production" ∨ vars.Holds "APP_ENV" "prod"
  | .staging => vars.Holds "APP_ENV" "staging" ∨ vars.Holds "APP_ENV" "stage"
  | .development => ∀ s ∈ ["production", "prod", "staging", "stage"], ¬ vars.Holds "APP_ENV" s

theorem chosen_environmentOf (vars : Variables) :
    Chosen vars (environmentOf (vars.text? "APP_ENV")) := by
  unfold environmentOf
  split
  · next h => exact .inl (Variables.text?_eq_some_iff.mp h)
  · next h => exact .inr (Variables.text?_eq_some_iff.mp h)
  · next h => exact .inl (Variables.text?_eq_some_iff.mp h)
  · next h => exact .inr (Variables.text?_eq_some_iff.mp h)
  · next hproduction hprod hstaging hstage =>
    simp only [Chosen, List.forall_mem_cons, ← Variables.text?_eq_some_iff]
    exact ⟨hproduction, hprod, hstaging, hstage, fun _ h => by cases h⟩

/-- Every setting is settled by its own variable over some standard settings. -/
structure Overrides (vars : Variables) (base c : Config) : Prop where
  environment : c.environment = base.environment
  url : Settled (vars.Holds "DATABASE_URL") Eq base.database.url c.database.url
  poolSize : Settled (vars.Holds "DATABASE_POOL_SIZE") (fun s n => Decimal.Spells s n.toNat)
    base.database.poolSize c.database.poolSize
  maxRetries : Settled (vars.Holds "DATABASE_MAX_RETRIES") (fun s n => Decimal.Spells s n.toNat)
    base.database.maxRetries c.database.maxRetries
  logsStatements : Settled (vars.Holds "DATABASE_ENABLE_QUERY_LOGGING") SpellsBool
    base.database.logsStatements c.database.logsStatements
  port : Settled vars.HoldsPort (fun s n => Decimal.Spells s n.toNat) base.api.port c.api.port
  maxBodyBytes : Settled (vars.Holds "API_MAX_REQUEST_SIZE_BYTES")
    (fun s n => Decimal.Spells s n.toNat) base.api.maxBodyBytes c.api.maxBodyBytes
  secret : Settled (vars.Holds "JWT_SECRET") Eq base.security.secret c.security.secret
  lifetimeHours : Settled (vars.Holds "SECURITY_JWT_EXPIRY_HOURS")
    (fun s n => Decimal.Spells s n.toNat) base.security.lifetimeHours c.security.lifetimeHours

theorem preset_environment (e : Environment) : (preset e).environment = e := by
  cases e <;> rfl

theorem overrides_ofVariables (vars : Variables) :
    Overrides vars (preset (environmentOf (vars.text? "APP_ENV"))) (ofVariables vars) where
  environment := rfl
  url := settled_overridden Variables.text?_eq_some_iff Option.some_inj _
  poolSize := settled_overridden Variables.text?_eq_some_iff readUInt64?_eq_some_iff _
  maxRetries := settled_overridden Variables.text?_eq_some_iff readUInt32?_eq_some_iff _
  logsStatements := settled_overridden Variables.text?_eq_some_iff readBool?_eq_some_iff _
  port := settled_overridden Variables.portText_eq_some_iff readUInt16?_eq_some_iff _
  maxBodyBytes := settled_overridden Variables.text?_eq_some_iff readUInt64?_eq_some_iff _
  secret := settled_overridden Variables.text?_eq_some_iff Option.some_inj _
  lifetimeHours := settled_overridden Variables.text?_eq_some_iff readUInt64?_eq_some_iff _

/-! ## What a setting depends on -/

/-- A setting is the same in any two environments that hold the same texts in some variables. -/
def DependsOn {α : Type} (names : List String) (setting : Config → α) : Prop :=
  ∀ vars vars', Variables.AgreeOn names vars vars' →
    setting (ofVariables vars) = setting (ofVariables vars')

theorem environment_ofVariables (vars : Variables) :
    (ofVariables vars).environment = environmentOf (vars.text? "APP_ENV") :=
  preset_environment _

theorem dependsOn_environment : DependsOn ["APP_ENV"] (·.environment) := by
  intro vars vars' hagree
  simp only [environment_ofVariables, hagree.text?_eq List.mem_cons_self]

/-- A setting with one variable depends on that one and on the choice of the preset. -/
theorem dependsOn_overridden {α : Type} {name : String} {read? : String → Option α}
    {setting : Config → α}
    (hsetting : ∀ vars, setting (ofVariables vars) = overridden read? (vars.text? name)
      (setting (preset (environmentOf (vars.text? "APP_ENV"))))) :
    DependsOn ["APP_ENV", name] setting := by
  intro vars vars' hagree
  rw [hsetting, hsetting, hagree.text?_eq (by simp), hagree.text?_eq (by simp)]

theorem dependsOn_port : DependsOn ["APP_ENV", "API_PORT", "PORT"] (·.api.port) := by
  intro vars vars' hagree
  have hchoice : vars.text? "APP_ENV" = vars'.text? "APP_ENV" := hagree.text?_eq (by simp)
  have hfirst : vars.text? "API_PORT" = vars'.text? "API_PORT" := hagree.text?_eq (by simp)
  have hsecond : vars.text? "PORT" = vars'.text? "PORT" := hagree.text?_eq (by simp)
  simp only [ofVariables, hchoice, hfirst, hsecond]

/-! ## Main statement -/

/-- Whatever the variables are set to there are settings: those of the preset that the first
variable chooses, but that each setting has the value that its own variable spells out, if it spells
out one. The port looks at its second variable only where the first holds no text. So a setting is
the same in any two environments that agree on its own variables and on the choice of the preset. -/
theorem settled_fieldwise :
    (∀ vars, Chosen vars (ofVariables vars).environment ∧
      Overrides vars (preset (ofVariables vars).environment) (ofVariables vars)) ∧
    DependsOn ["APP_ENV"] (·.environment) ∧
    DependsOn ["APP_ENV", "DATABASE_URL"] (·.database.url) ∧
    DependsOn ["APP_ENV", "DATABASE_POOL_SIZE"] (·.database.poolSize) ∧
    DependsOn ["APP_ENV", "DATABASE_MAX_RETRIES"] (·.database.maxRetries) ∧
    DependsOn ["APP_ENV", "DATABASE_ENABLE_QUERY_LOGGING"] (·.database.logsStatements) ∧
    DependsOn ["APP_ENV", "API_PORT", "PORT"] (·.api.port) ∧
    DependsOn ["APP_ENV", "API_MAX_REQUEST_SIZE_BYTES"] (·.api.maxBodyBytes) ∧
    DependsOn ["APP_ENV", "JWT_SECRET"] (·.security.secret) ∧
    DependsOn ["APP_ENV", "SECURITY_JWT_EXPIRY_HOURS"] (·.security.lifetimeHours) := by
  refine ⟨fun vars => ?_, dependsOn_environment, ?_, ?_, ?_, ?_, dependsOn_port, ?_, ?_, ?_⟩
  · rw [environment_ofVariables]
    exact ⟨chosen_environmentOf vars, overrides_ofVariables vars⟩
  all_goals exact dependsOn_overridden fun _ => rfl

/-- The first variable of the port is no number, and still hides the second. -/
example : (ofVariables fun name =>
    if name = "API_PORT" then some (Utf8.encode "eighty")
    else if name = "PORT" then some (Utf8.encode "8000") else none).api.port = 3000 := by
  decide +kernel

end Config

end Gatehouse
