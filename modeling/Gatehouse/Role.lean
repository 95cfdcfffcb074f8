import Gatehouse.Json.Record
import Gatehouse.Text.Blank
import Gatehouse.Text.Case

/-!
# Roles

The privilege levels that a token can grant, in ascending order. A role is read from typed text
without regard to case and surrounding white space, and from JSON by its exact name.
-/

namespace Gatehouse

/-- A privilege level. -/
inductive Role where
  /-- Read-only access. -/
  | guest
  /-- Access of a registered user. -/
  | user
  /-- Access to the work of others. -/
  | moderator
  /-- Full access. -/
  | admin
deriving DecidableEq, Repr

namespace Role

/-- Every role, in ascending order. -/
def all : List Role :=
  [guest, user, moderator, admin]

def name : Role → String
  | guest => "guest"
  | user => "user"
  | moderator => "moderator"
  | admin => "admin"

/-- The role of a token that names none. -/
def standard : Role := user

/-- The place of a role in the order. -/
def rank : Role → Nat
  | guest => 0
  | user => 1
  | moderator => 2
  | admin => 3

/-- Whether a role suffices where another is asked for. -/
def permits (r required : Role) : Bool :=
  required.rank ≤ r.rank

/-- A text that names no role, as it was typed. -/
structure Unknown where
  text : String
deriving DecidableEq, Repr

def Unknown.message (u : Unknown) : String :=
  "Unknown role: " ++ Text.quoted u.text

/-- The role that a typed text names. -/
def ofText (s : String) : Except Unknown Role :=
  match all.find? (·.name == Text.lower (Text.trim s)) with
  | some r => .ok r
  | none => .error ⟨s⟩

def toJson (r : Role) : Json.Value :=
  .string r.name

def reader (room : Nat) : Json.Reader Role :=
  Json.Reader.choice room (all.map fun r => (r.name, r))

end Role

end Gatehouse
