import Gatehouse.Json.Record

/-!
# New users

The two columns of a user that is to be created. Any value may stand in either, and a missing one
is null.
-/

namespace Gatehouse

/-- A user to be created. -/
structure NewUser where
  username : Json.Value
  email : Json.Value

/-- A value that is no object. -/
structure NotAnObject where
  /-- The kind of the value. -/
  kind : String
deriving DecidableEq, Repr

def NotAnObject.message (e : NotAnObject) : String :=
  "Expected a JSON object, got " ++ e.kind

namespace NewUser

open Json Json.Reader

/-- The user that a value describes. -/
def ofJson : Json.Value → Except NotAnObject NewUser
  | .object members =>
    let column (name : String) := (members.lookup name).getD .null
    .ok ⟨column "username", column "email"⟩
  | v => .error ⟨v.kind⟩

theorem ofJson_object (d : Dictionary Json.Value) :
    ofJson (.object d) =
      .ok ⟨(d.find? "username").getD .null, (d.find? "email").getD .null⟩ := by
  unfold ofJson
  simp only [Dictionary.lookup_eq_find?]

/-- The columns in the order in which a statement binds them. -/
def params (u : NewUser) : List Json.Value :=
  [u.username, u.email]

def toJson (u : NewUser) : Json.Value :=
  .object [("username", u.username), ("email", u.email)]

/-- The columns that have been read so far. -/
structure Partial where
  username : Option Json.Value := none
  email : Option Json.Value := none

def member (room : Nat) (name : String) (p : Partial) : Reader Partial := do
  match name with
  | "username" => return { p with username := ← field name p.username (value room) }
  | "email" => return { p with email := ← field name p.email (value room) }
  | _ => otherMember p

def fromMembers (room : Nat) : Reader NewUser := do
  let p ← Reader.members (member room) ({} : Partial)
  return ⟨p.username.getD .null, p.email.getD .null⟩

/-- Reads a user from a list. A column is missing only where the list ends. -/
def fromItems (room : Nat) : Reader NewUser := do
  let username ← itemAt? 0 (value room)
  let email ← itemAt? 1 (value room)
  return ⟨username.getD .null, email.getD .null⟩

/-- Reads a user from JSON. Unlike `ofJson` it refuses an object that has a column twice. -/
def reader (room : Nat) : Json.Reader NewUser :=
  Json.Reader.record room "NewUser" (fromMembers (room - 1)) (fromItems (room - 1))

end NewUser

end Gatehouse
