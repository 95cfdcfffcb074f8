import Gatehouse.Json.Record

/-!
# Refused credentials

Why a credential was refused: a text for the caller and a reason code for machines.
-/

namespace Gatehouse

namespace Denial

/-- The kinds of refusal. -/
inductive Reason where
  /-- The credential is missing or is no token. -/
  | malformed
  /-- The token's time is over. -/
  | expired
  /-- The token was not signed with this secret. -/
  | invalidSignature
  /-- The token is well formed and does not grant access, or nothing can. -/
  | invalid
deriving DecidableEq, Repr

namespace Reason

def all : List Reason :=
  [malformed, expired, invalidSignature, invalid]

/-- The code of a reason. -/
def code : Reason → String
  | malformed => "MALFORMED"
  | expired => "EXPIRED"
  | invalidSignature => "INVALID_SIGNATURE"
  | invalid => "INVALID"

def toJson (r : Reason) : Json.Value :=
  .string r.code

def reader (room : Nat) : Json.Reader Reason :=
  Json.Reader.choice room (all.map fun r => (r.code, r))

end Reason

end Denial

/-- A refused credential. -/
structure Denial where
  /-- The text for the caller. -/
  message : String
  /-- The kind of refusal. -/
  reason : Denial.Reason
deriving DecidableEq, Repr

/-- The refusal of what is no credential. -/
def Denial.malformed (message : String) : Denial :=
  ⟨message, .malformed⟩

end Gatehouse
