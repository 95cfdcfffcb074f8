import Gatehouse.Connection.Lifecycle

/-!
# Configuration

The settings of the service. Each environment has a preset, and none of the presets has a secret,
without which the service is not to run.
-/

namespace Gatehouse

namespace Config

/-- Where the service runs. -/
inductive Environment where
  | development
  | staging
  | production
deriving DecidableEq, Repr

/-- The settings of the database connection. -/
structure Database where
  /-- The target of the connection. -/
  url : String
  /-- The capacity of its pool. -/
  poolSize : UInt64
  /-- How often a statement that met a conflict is tried again. -/
  maxRetries : UInt32
  /-- Whether statements are reported. -/
  logsStatements : Bool
deriving DecidableEq, Repr

/-- The settings of the HTTP interface. -/
structure Api where
  /-- The port. -/
  port : UInt16
  /-- How many bytes a body may have. -/
  maxBodyBytes : UInt64
deriving DecidableEq, Repr

/-- The settings of tokens. -/
structure Security where
  /-- The secret with which tokens are signed. -/
  secret : String
  /-- For how many hours tokens are valid. -/
  lifetimeHours : UInt64
deriving DecidableEq, Repr

/-- Why the service is not to run with some settings. -/
inductive Fault where
  /-- A setting is missing. -/
  | missing (what : String)
  /-- A setting makes no sense. -/
  | invalid (what : String)
deriving DecidableEq, Repr

def Fault.message : Fault → String
  | .missing what => "Missing configuration: " ++ what
  | .invalid what => "Invalid configuration: " ++ what

end Config

/-- The settings of the service. -/
structure Config where
  /-- Where the service runs. -/
  environment : Config.Environment
  /-- The database connection. -/
  database : Config.Database
  /-- The HTTP interface. -/
  api : Config.Api
  /-- The tokens. -/
  security : Config.Security
deriving DecidableEq, Repr

namespace Config

/-- So many mebibytes. -/
def mebibytes (n : UInt64) : UInt64 :=
  n * 1024 * 1024

/-- The settings of an environment. -/
def preset : Environment → Config
  | .development =>
    ⟨.development, ⟨"postgres://localhost:5432/app", 5, 3, true⟩, ⟨3000, mebibytes 10⟩, ⟨"", 168⟩⟩
  | .staging => ⟨.staging, ⟨"", 20, 3, true⟩, ⟨3000, mebibytes 5⟩, ⟨"", 24⟩⟩
  | .production => ⟨.production, ⟨"", 50, 5, false⟩, ⟨8080, mebibytes 2⟩, ⟨"", 4⟩⟩

/-- The settings with another secret. -/
def withSecret (c : Config) (secret : String) : Config :=
  { c with security := { c.security with secret := secret } }

/-- Whether the service may run with the settings. -/
def validate (c : Config) : Except Fault Unit :=
  if c.security.secret.isEmpty then .error (.missing "JWT_SECRET")
  else if c.database.poolSize = 0 then
    .error (.invalid "DATABASE_POOL_SIZE must be greater than zero")
  else .ok ()

namespace Database

/-- The connection that the settings describe. -/
def connection {σ : Type} (c : Database) (backend : Backend σ) : Connection σ :=
  ⟨c.url, backend, c.maxRetries, c.logsStatements⟩

/-- The state in which that connection starts. -/
def link (c : Database) : Link :=
  .ofPool (.ofCapacity c.poolSize)

end Database

end Config

end Gatehouse
