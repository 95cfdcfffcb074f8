import Gatehouse.Config
import Gatehouse.Json.Record

/-!
# Configuration as JSON

The settings as JSON, without the secret. Reading takes a secret where one is given, and an empty
one where none is.
-/

namespace Gatehouse.Config

open Json Json.Reader

namespace Environment

def all : List Environment :=
  [development, staging, production]

def name : Environment → String
  | development => "Development"
  | staging => "Staging"
  | production => "Production"

def toJson (e : Environment) : Value :=
  .string e.name

def reader (room : Nat) : Reader Environment :=
  choice room (all.map fun e => (e.name, e))

end Environment

namespace Database

def toJson (c : Database) : Value :=
  .object [("url", .string c.url), ("pool_size", .number (.natural c.poolSize)),
    ("max_retries", .number (.natural c.maxRetries.toUInt64)),
    ("enable_query_logging", .bool c.logsStatements)]

/-- The settings that have been read so far. -/
structure Partial where
  url : Option String := none
  poolSize : Option UInt64 := none
  maxRetries : Option UInt32 := none
  logsStatements : Option Bool := none

def member (name : String) (p : Partial) : Reader Partial := do
  match name with
  | "url" => return { p with url := ← field name p.url (string "a string") }
  | "pool_size" => return { p with poolSize := ← field name p.poolSize (uint64 "usize") }
  | "max_retries" => return { p with maxRetries := ← field name p.maxRetries uint32 }
  | "enable_query_logging" =>
    return { p with logsStatements := ← field name p.logsStatements bool }
  | _ => otherMember p

def fromMembers : Reader Database := do
  let p ← Reader.members member ({} : Partial)
  let url ← required "url" p.url
  let poolSize ← required "pool_size" p.poolSize
  let maxRetries ← required "max_retries" p.maxRetries
  let logsStatements ← required "enable_query_logging" p.logsStatements
  return ⟨url, poolSize, maxRetries, logsStatements⟩

def fromItems : Reader Database := do
  let whole := asList "DatabaseConfig" 4
  let url ← itemAt whole 0 (string "a string")
  let poolSize ← itemAt whole 1 (uint64 "usize")
  let maxRetries ← itemAt whole 2 uint32
  let logsStatements ← itemAt whole 3 bool
  return ⟨url, poolSize, maxRetries, logsStatements⟩

def reader (room : Nat) : Reader Database :=
  record room "DatabaseConfig" fromMembers fromItems

end Database

namespace Api

def toJson (c : Api) : Value :=
  .object [("port", .number (.natural c.port.toUInt64)),
    ("max_request_size_bytes", .number (.natural c.maxBodyBytes))]

/-- The settings that have been read so far. -/
structure Partial where
  port : Option UInt16 := none
  maxBodyBytes : Option UInt64 := none

def member (name : String) (p : Partial) : Reader Partial := do
  match name with
  | "port" => return { p with port := ← field name p.port uint16 }
  | "max_request_size_bytes" =>
    return { p with maxBodyBytes := ← field name p.maxBodyBytes (uint64 "usize") }
  | _ => otherMember p

def fromMembers : Reader Api := do
  let p ← Reader.members member ({} : Partial)
  let port ← required "port" p.port
  let maxBodyBytes ← required "max_request_size_bytes" p.maxBodyBytes
  return ⟨port, maxBodyBytes⟩

def fromItems : Reader Api := do
  let whole := asList "ApiConfig" 2
  let port ← itemAt whole 0 uint16
  let maxBodyBytes ← itemAt whole 1 (uint64 "usize")
  return ⟨port, maxBodyBytes⟩

def reader (room : Nat) : Reader Api :=
  record room "ApiConfig" fromMembers fromItems

end Api

namespace Security

/-- The settings as JSON, without the secret. -/
def toJson (c : Security) : Value :=
  .object [("jwt_expiry_hours", .number (.natural c.lifetimeHours))]

/-- The settings that have been read so far. -/
structure Partial where
  secret : Option String := none
  lifetimeHours : Option UInt64 := none

def member (name : String) (p : Partial) : Reader Partial := do
  match name with
  | "jwt_secret" => return { p with secret := ← field name p.secret (string "a string") }
  | "jwt_expiry_hours" =>
    return { p with lifetimeHours := ← field name p.lifetimeHours (uint64 "u64") }
  | _ => otherMember p

/-- Reads the settings from an object. The secret may be missing. -/
def fromMembers : Reader Security := do
  let p ← Reader.members member ({} : Partial)
  let lifetimeHours ← required "jwt_expiry_hours" p.lifetimeHours
  return ⟨p.secret.getD "", lifetimeHours⟩

/-- Reads the settings from a list. The secret is missing only where the list ends. -/
def fromItems : Reader Security := do
  let whole := asList "SecurityConfig" 2
  let secret ← itemAt? 0 (string "a string")
  let lifetimeHours ← itemAt whole 1 (uint64 "u64")
  return ⟨secret.getD "", lifetimeHours⟩

def reader (room : Nat) : Reader Security :=
  record room "SecurityConfig" fromMembers fromItems

end Security

/-! ## All settings -/

/-- The settings as JSON, without the secret. -/
def toJson (c : Config) : Value :=
  .object [("environment", c.environment.toJson), ("database", c.database.toJson),
    ("api", c.api.toJson), ("security", c.security.toJson)]

/-- The settings that have been read so far. -/
structure Partial where
  environment : Option Environment := none
  database : Option Database := none
  api : Option Api := none
  security : Option Security := none

def member (room : Nat) (name : String) (p : Partial) : Reader Partial := do
  match name with
  | "environment" =>
    return { p with environment := ← field name p.environment (Environment.reader room) }
  | "database" => return { p with database := ← field name p.database (Database.reader room) }
  | "api" => return { p with api := ← field name p.api (Api.reader room) }
  | "security" => return { p with security := ← field name p.security (Security.reader room) }
  | _ => otherMember p

def fromMembers (room : Nat) : Reader Config := do
  let p ← Reader.members (member room) ({} : Partial)
  let environment ← required "environment" p.environment
  let database ← required "database" p.database
  let api ← required "api" p.api
  let security ← required "security" p.security
  return ⟨environment, database, api, security⟩

def fromItems (room : Nat) : Reader Config := do
  let whole := asList "AppConfig" 4
  let environment ← itemAt whole 0 (Environment.reader room)
  let database ← itemAt whole 1 (Database.reader room)
  let api ← itemAt whole 2 (Api.reader room)
  let security ← itemAt whole 3 (Security.reader room)
  return ⟨environment, database, api, security⟩

def reader (room : Nat) : Reader Config :=
  record room "AppConfig" (fromMembers (room - 1)) (fromItems (room - 1))

end Gatehouse.Config
