import Gatehouse.Token.Key

/-!
# The header of a token

The first part of a token names the algorithm with which it is signed. Of the other fields that a
header may have only the form is checked.
-/

namespace Gatehouse.Token

/-- What counts of a header. -/
structure Header where
  /-- The algorithm of the signature. -/
  algorithm : Algorithm
deriving DecidableEq, Repr

namespace Header

/-- The header of every token that is issued. -/
def issued : Header := ⟨.hs256⟩

def toJson (h : Header) : Json.Value :=
  .object [("typ", .string "JWT"), ("alg", .string h.algorithm.name)]

/-! ## Reading -/

open Json Json.Reader

/-- An optional text, which is passed over. -/
def optionalText : Reader Unit := do
  let _ ← optional (string "a string")

/-- An optional list of texts, which is passed over. -/
def optionalTexts (room : Nat) : Reader Unit := do
  let _ ← optional (listOf room (string "a string"))

/-- An optional key, which is passed over. -/
def optionalKey (room : Nat) : Reader Unit := do
  let _ ← optional (Key.reader room)

/-- The header as far as it has been read. -/
structure Partial where
  /-- The algorithm. -/
  algorithm : Option Algorithm := none
  /-- The names of the other fields. -/
  others : List String := []

/-- Reads a field that does not count. -/
def passed (name : String) (p : Partial) (item : Reader Unit) : Reader Partial := do
  let _ ← field name (if p.others.contains name then some () else none) item
  return { p with others := name :: p.others }

def member (room : Nat) (name : String) (p : Partial) : Reader Partial := do
  match name with
  | "alg" => return { p with algorithm := ← field name p.algorithm (Algorithm.reader room) }
  | "typ" | "cty" | "jku" | "kid" | "x5u" | "x5t" | "x5t#S256" => passed name p optionalText
  | "jwk" => passed name p (optionalKey room)
  | "x5c" => passed name p (optionalTexts room)
  | _ => otherMember p

def fromMembers (room : Nat) : Reader Header := do
  let p ← Reader.members (member room) ({} : Partial)
  let algorithm ← required "alg" p.algorithm
  return ⟨algorithm⟩

def fromItems (room : Nat) : Reader Header := do
  let whole := asList "Header" 10
  itemAt whole 0 optionalText
  let algorithm ← itemAt whole 1 (Algorithm.reader room)
  itemAt whole 2 optionalText
  itemAt whole 3 optionalText
  itemAt whole 4 (optionalKey room)
  itemAt whole 5 optionalText
  itemAt whole 6 optionalText
  itemAt whole 7 (optionalTexts room)
  itemAt whole 8 optionalText
  itemAt whole 9 optionalText
  return ⟨algorithm⟩

def reader (room : Nat) : Json.Reader Header :=
  Json.Reader.record room "Header" (fromMembers (room - 1)) (fromItems (room - 1))

end Header

end Gatehouse.Token
