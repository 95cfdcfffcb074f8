import Gatehouse.Claims
import Gatehouse.Codec.Base64Url
import Gatehouse.Hash.Hmac
import Gatehouse.Token.Header

/-!
# Signing

A token is a header and a payload, each as JSON in base 64, and a signature over both, with points
between the three.
-/

namespace Gatehouse.Token

/-- The signature of a message under a secret. -/
def signature (secret message : String) : String :=
  Base64Url.encode (Hmac.code (Utf8.encode secret) (Utf8.encode message))

/-- The part of a token that spells out a value. -/
def part (v : Json.Value) : String :=
  Base64Url.encode (Utf8.encode v.render)

/-- What of a token is signed. -/
def message (c : Claims) : String :=
  part Header.issued.toJson ++ "." ++ part c.toJson

/-- Nothing can be signed with an empty secret. -/
structure EmptySecret where
deriving DecidableEq, Repr

def EmptySecret.message (_ : EmptySecret) : String :=
  "Invalid JWT secret"

/-- A token with some claims. -/
def sign (c : Claims) (secret : String) : Except EmptySecret String :=
  if secret.isEmpty then .error ⟨⟩
  else .ok (message c ++ "." ++ signature secret (message c))

end Gatehouse.Token
