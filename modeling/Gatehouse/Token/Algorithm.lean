import Gatehouse.Json.Record

/-!
# Signature algorithms

The names under which the header of a token says how it is signed.
-/

namespace Gatehouse.Token

/-- An algorithm with which tokens are signed. -/
inductive Algorithm where
  | hs256
  | hs384
  | hs512
  | es256
  | es384
  | rs256
  | rs384
  | rs512
  | ps256
  | ps384
  | ps512
  | edDSA
deriving DecidableEq, Repr

namespace Algorithm

def all : List Algorithm :=
  [hs256, hs384, hs512, es256, es384, rs256, rs384, rs512, ps256, ps384, ps512, edDSA]

def name : Algorithm → String
  | hs256 => "HS256"
  | hs384 => "HS384"
  | hs512 => "HS512"
  | es256 => "ES256"
  | es384 => "ES384"
  | rs256 => "RS256"
  | rs384 => "RS384"
  | rs512 => "RS512"
  | ps256 => "PS256"
  | ps384 => "PS384"
  | ps512 => "PS512"
  | edDSA => "EdDSA"

def reader (room : Nat) : Json.Reader Algorithm :=
  Json.Reader.choice room (all.map fun a => (a.name, a))

end Algorithm

end Gatehouse.Token
