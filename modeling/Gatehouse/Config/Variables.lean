import Gatehouse.Config
import Gatehouse.Decimal.Numeral
import Gatehouse.Text.Utf8

/-!
# Configuration from environment variables

One variable chooses the preset, and each setting has a variable of its own that overrides it. A
variable whose bytes are not UTF-8 counts as not set, and one whose text is not in the setting's
grammar changes nothing. The port has a second variable, which counts only where the first is not
set.
-/

namespace Gatehouse

/-- The bytes of each variable that is set. -/
abbrev Variables := String → Option (List UInt8)

/-- The text of a variable. -/
def Variables.text? (vars : Variables) (name : String) : Option String :=
  (vars name).bind fun bytes => (Utf8.decode bytes).toOption

namespace Config

/-- The value of a setting that may be overridden by a text. -/
def overridden {α : Type} (read? : String → Option α) (given : Option String) (standard : α) : α :=
  (given.bind read?).getD standard

/-- The truth value that a text names. -/
def readBool? (s : String) : Option Bool :=
  if s = "true" then some true else if s = "false" then some false else none

/-- A text as a whole number of 16 bits. -/
def readUInt16? (s : String) : Option UInt16 :=
  (Decimal.below? 0x10000 s).map Nat.toUInt16

/-- A text as a whole number of 32 bits. -/
def readUInt32? (s : String) : Option UInt32 :=
  (Decimal.below? 0x100000000 s).map Nat.toUInt32

/-- A text as a whole number of 64 bits. -/
def readUInt64? (s : String) : Option UInt64 :=
  (Decimal.below? 0x10000000000000000 s).map Nat.toUInt64

/-- The environment that a text names. -/
def environmentOf (given : Option String) : Environment :=
  match given with
  | some "production" | some "prod" => .production
  | some "staging" | some "stage" => .staging
  | _ => .development

/-- The settings of the preset that the variables choose, each overridden by its own variable. -/
def ofVariables (vars : Variables) : Config :=
  let base := preset (environmentOf (vars.text? "APP_ENV"))
  { environment := base.environment
    database :=
      { url := overridden some (vars.text? "DATABASE_URL") base.database.url
        poolSize :=
          overridden readUInt64? (vars.text? "DATABASE_POOL_SIZE") base.database.poolSize
        maxRetries :=
          overridden readUInt32? (vars.text? "DATABASE_MAX_RETRIES") base.database.maxRetries
        logsStatements :=
          overridden readBool? (vars.text? "DATABASE_ENABLE_QUERY_LOGGING")
            base.database.logsStatements }
    api :=
      { port :=
          overridden readUInt16? ((vars.text? "API_PORT").or (vars.text? "PORT")) base.api.port
        maxBodyBytes :=
          overridden readUInt64? (vars.text? "API_MAX_REQUEST_SIZE_BYTES")
            base.api.maxBodyBytes }
    security :=
      { secret := overridden some (vars.text? "JWT_SECRET") base.security.secret
        lifetimeHours :=
          overridden readUInt64? (vars.text? "SECURITY_JWT_EXPIRY_HOURS")
            base.security.lifetimeHours } }

end Config

end Gatehouse
