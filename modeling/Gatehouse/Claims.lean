import Gatehouse.Calendar
import Gatehouse.Role

/-!
# Claims

What a token says of its bearer: who it is, with which role, and from when until when. Times are
seconds since the start of 1970.
-/

namespace Gatehouse

/-- The content of a token. -/
structure Claims where
  /-- Whom the token is for. -/
  sub : String
  /-- The role that it grants. -/
  role : Role
  /-- When it expires. -/
  exp : Int64
  /-- When it was issued. -/
  iat : Int64
deriving DecidableEq, Repr

/-- A lifetime that ends after the last date. -/
structure LifetimeOutOfRange where
  /-- The lifetime in hours. -/
  hours : UInt64
deriving DecidableEq, Repr

def LifetimeOutOfRange.message (e : LifetimeOutOfRange) : String :=
  s!"Token lifetime of {e.hours.toNat} hours is out of range"

namespace Claims

open Json Json.Reader

/-- The last second of the calendar, at the end of the year 262142. -/
def lastSecond : Int := 8210266876799

/-- A number of hours as one with a sign. -/
def signedHours? (hours : UInt64) : Option Int64 :=
  if hours.toNat < 0x8000000000000000 then some hours.toInt64 else none

/-- The end of so many hours from a time, if such a span and such a time exist. -/
def expiry? (now : Instant) (hours : UInt64) : Option Instant := do
  let hours ← signedHours? hours
  let lifetime ← Span.ofHours? hours
  now.add? lifetime

/-- Claims that are valid for so many hours from a time. They tell whole seconds. -/
def issueAt (now : Instant) (sub : String) (role : Role) (hours : UInt64) :
    Except LifetimeOutOfRange Claims :=
  match expiry? now hours with
  | some exp => .ok ⟨sub, role, exp.second, now.second⟩
  | none => .error ⟨hours⟩

/-- Claims that are valid for so many hours from the start of a second. Outside the calendar no
lifetime is in range. -/
def issue (now : Int) (sub : String) (role : Role) (hours : UInt64) :
    Except LifetimeOutOfRange Claims :=
  match Instant.ofSecond? now with
  | some now => issueAt now sub role hours
  | none => .error ⟨hours⟩

/-! ## JSON -/

/-- The claims under their names, in the order in which a token carries them. -/
def members (c : Claims) : List (String × Json.Value) :=
  [("sub", .string c.sub), ("role", c.role.toJson), ("exp", .number (.ofInt64 c.exp)),
    ("iat", .number (.ofInt64 c.iat))]

def toJson (c : Claims) : Json.Value :=
  .object c.members

/-- The claims that have been read so far. -/
structure Partial where
  sub : Option String := none
  role : Option Role := none
  exp : Option Int64 := none
  iat : Option Int64 := none

def member (room : Nat) (name : String) (p : Partial) : Reader Partial := do
  match name with
  | "sub" => return { p with sub := ← field name p.sub (string "a string") }
  | "role" => return { p with role := ← field name p.role (Role.reader room) }
  | "exp" => return { p with exp := ← field name p.exp int64 }
  | "iat" => return { p with iat := ← field name p.iat int64 }
  | _ => otherMember p

/-- Reads claims from an object. The role may be missing. -/
def fromMembers (room : Nat) : Reader Claims := do
  let p ← Reader.members (member room) ({} : Partial)
  let sub ← required "sub" p.sub
  let exp ← required "exp" p.exp
  let iat ← required "iat" p.iat
  return ⟨sub, p.role.getD Role.standard, exp, iat⟩

/-- Reads claims from a list. The role is missing only where the list ends. -/
def fromItems (room : Nat) : Reader Claims := do
  let whole := asList "Claims" 4
  let sub ← itemAt whole 0 (string "a string")
  let role ← itemAt? 1 (Role.reader room)
  let exp ← itemAt whole 2 int64
  let iat ← itemAt whole 3 int64
  return ⟨sub, role.getD Role.standard, exp, iat⟩

def reader (room : Nat) : Json.Reader Claims :=
  Json.Reader.record room "Claims" (fromMembers (room - 1)) (fromItems (room - 1))

end Claims

end Gatehouse
