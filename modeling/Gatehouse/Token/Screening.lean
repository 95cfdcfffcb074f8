import Gatehouse.Json.Record

/-!
# Screening a payload

A payload is read a second time for what decides whether its claims hold now and here: the expiry
as an unsigned time and the audience. This reading is lenient. A value of the wrong form counts as
given and unreadable, and reading goes on from where the value's reader came to a halt.
-/

namespace Gatehouse.Token

/-- What decides about a payload. -/
structure Screening where
  /-- When the token expires, if the payload says so with a number from zero up. -/
  exp : Option UInt64
  /-- Whether the payload names an audience, one text or a list of texts. -/
  audience : Bool
deriving DecidableEq, Repr

namespace Screening

open Json Json.Reader

/-- A reader that gives nothing where the other halts. -/
def lenient {α : Type} (r : Reader α) : Reader (Option α) := fun c =>
  match r c with
  | .ok a d => .ok (some a) d
  | .error _ d => .ok none d

/-- A number as a time. Fractions are rounded to the nearest second. -/
def timeOf? : Number → Option UInt64
  | .natural n => some n
  | .negative _ => none
  | .float x => if 0 ≤ x && x < 18446744073709551616 then some x.round.toUInt64 else none

/-- A time, if one stands next. Of a list or an object the brackets are passed and nothing between
them. -/
def time : Reader (Option UInt64) := do
  match ← ahead? with
  | some Byte.openBracket =>
    skip
    let _ ← lenient closeList
    return none
  | some Byte.openBrace =>
    skip
    let _ ← lenient closeObject
    return none
  | _ =>
    match ← lenient (plainValue 0) with
    | some (.number n) => return timeOf? n
    | _ => return none

/-- Whether a value is a string. -/
def isString : Value → Bool
  | .string _ => true
  | _ => false

/-- Whether a value is a string or a list of strings. -/
def isAudience : Value → Bool
  | .array items => items.all isString
  | v => isString v

/-- Whether a string or a list of strings stands next. -/
def audienceNext (room : Nat) : Reader Bool := do
  match ← lenient (optional (plainValue room)) with
  | some (some v) => return isAudience v
  | _ => return false

/-- Passes a subject. -/
def subject : Reader Unit := do
  let _ ← lenient (optional (string "a string"))

/-- The fields that have been read so far. -/
structure Partial where
  exp : Option (Option UInt64) := none
  nbf : Option (Option UInt64) := none
  sub : Option Unit := none
  iss : Option Bool := none
  aud : Option Bool := none

def member (room : Nat) (name : String) (p : Partial) : Reader Partial := do
  match name with
  | "exp" => return { p with exp := ← field name p.exp time }
  | "nbf" => return { p with nbf := ← field name p.nbf time }
  | "sub" => return { p with sub := ← field name p.sub subject }
  | "iss" => return { p with iss := ← field name p.iss (audienceNext room) }
  | "aud" => return { p with aud := ← field name p.aud (audienceNext room) }
  | _ => otherMember p

def fromMembers (room : Nat) : Reader Screening := do
  let p ← Reader.members (member room) ({} : Partial)
  return ⟨p.exp.getD none, p.aud.getD false⟩

def fromItems (room : Nat) : Reader Screening := do
  let whole := asList "ClaimsForValidation" 5
  let exp ← itemAt? 0 time
  let _ ← itemAt? 1 time
  itemAt whole 2 subject
  let _ ← itemAt whole 3 (audienceNext room)
  let aud ← itemAt whole 4 (audienceNext room)
  return ⟨exp.getD none, aud⟩

def reader (room : Nat) : Reader Screening :=
  record room "ClaimsForValidation" (fromMembers (room - 1)) (fromItems (room - 1))

end Screening

end Gatehouse.Token
