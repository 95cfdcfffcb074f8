import Gatehouse.Denial
import Gatehouse.Text.Cut
import Gatehouse.Token.Bearer
import Gatehouse.Token.Screening
import Gatehouse.Token.Signing

/-!
# Validation

`decode` gives the claims of a token that was signed with a secret and is not expired. The steps
come in a fixed order: the three parts, the header, the algorithm, the signature, and only then
the payload. `validate` takes the token from the value of a header and turns what is wrong with it
into a refusal.
-/

namespace Gatehouse.Token

/-- Why a token gives no claims. -/
inductive Fault where
  /-- The token does not have three parts. -/
  | parts
  /-- A part is not in base 64. -/
  | base64 (fault : Base64Url.Fault)
  /-- A part is not the JSON that should stand there. -/
  | json (error : Json.Error)
  /-- The header names another algorithm than the one in use. -/
  | algorithm
  /-- The signature is not the one that the secret gives. -/
  | signature
  /-- The payload has no expiry, or one before 1970. -/
  | noExpiry
  /-- The token is expired. -/
  | expired
  /-- The token is meant for a named audience. -/
  | audience

/-- The fault as a refusal. -/
def Fault.denial : Fault → Denial
  | .parts => .malformed "Malformed JWT token: InvalidToken"
  | .base64 fault => .malformed ("Malformed JWT token: Base64 error: " ++ fault.message)
  | .json error => .malformed ("Malformed JWT token: JSON error: " ++ error.message)
  | .algorithm => ⟨"Invalid JWT token: InvalidAlgorithm", .invalid⟩
  | .signature => ⟨"Invalid token signature", .invalidSignature⟩
  | .noExpiry => ⟨"Invalid JWT token: Missing required claim: exp", .invalid⟩
  | .expired => ⟨"Token has expired", .expired⟩
  | .audience => .malformed "Malformed JWT token: InvalidAudience"

/-- The parts of a token. -/
structure Parts where
  header : String
  payload : String
  signature : String
deriving DecidableEq, Repr

/-- What of a token is signed. -/
def Parts.message (p : Parts) : String :=
  p.header ++ "." ++ p.payload

/-- A token cut at its last two points. -/
def parts? (token : String) : Option Parts := do
  let (message, signature) ← Text.cutLast? '.' token.toList
  let (header, payload) ← Text.cutLast? '.' message
  return ⟨String.ofList header, String.ofList payload, String.ofList signature⟩

/-- The bytes of a part. -/
def partBytes (text : String) : Except Fault (List UInt8) :=
  (Base64Url.decode text).mapError .base64

/-- What a reader makes of the bytes of a part. -/
def readPart {α : Type} (reader : Nat → Json.Reader α) (bytes : List UInt8) : Except Fault α :=
  ((reader Json.maxDepth).run bytes).mapError .json

/-- How many seconds a token is still taken after its expiry. -/
def leeway : Nat := 60

/-- Whether a screened payload holds at a time. -/
def Screening.check (now : Nat) (s : Screening) : Except Fault Unit :=
  match s.exp with
  | none => .error .noExpiry
  | some exp =>
    if exp.toNat + leeway < now then .error .expired
    else if s.audience then .error .audience
    else .ok ()

/-- The claims in the payload of a token, if they hold at a time. -/
def payloadClaims (now : Nat) (payload : String) : Except Fault Claims := do
  let bytes ← partBytes payload
  let claims ← readPart Claims.reader bytes
  let screening ← readPart Screening.reader bytes
  screening.check now
  return claims

/-- The claims of a token that was signed with a secret, if they hold at a time. -/
def decode (now : Nat) (token secret : String) : Except Fault Claims := do
  let some parts := parts? token | .error .parts
  let bytes ← partBytes parts.header
  let header ← readPart Header.reader bytes
  if header.algorithm ≠ .hs256 then .error .algorithm
  else if parts.signature ≠ signature secret parts.message then .error .signature
  else payloadClaims now parts.payload

/-- The claims of the token in the value of an authorization header, if they hold at a time. -/
def validate (now : Nat) (header secret : String) : Except Denial Claims :=
  match credential? header with
  | none => .error (.malformed "Empty JWT token")
  | some token =>
    if secret.isEmpty then .error ⟨"JWT secret not configured", .invalid⟩
    else (decode now token secret).mapError Fault.denial

end Gatehouse.Token
