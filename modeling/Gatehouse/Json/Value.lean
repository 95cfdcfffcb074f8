import Gatehouse.Dictionary

/-!
# JSON values

A JSON value with its numbers kept apart by the widest exact type that holds them: a whole number
that fits in 64 bits stays whole, any other number is a double.
-/

namespace Gatehouse.Json

/-- A JSON number. -/
inductive Number where
  /-- A whole number from zero up. -/
  | natural (n : UInt64)
  /-- A whole number below zero. -/
  | negative (i : Int64)
  /-- Any other number, minus zero among them. -/
  | float (x : Float)

/-- A signed whole number of 64 bits as a JSON number. -/
def Number.ofInt64 (i : Int64) : Number :=
  if i < 0 then .negative i else .natural i.toUInt64

/-- A JSON value. The members of an object stand in the order in which they are written. -/
inductive Value where
  | null
  | bool (b : Bool)
  | number (n : Number)
  | string (s : String)
  | array (items : List Value)
  | object (members : List (String × Value))

instance : Inhabited Value := ⟨.null⟩

/-- An object with its members in the order of their keys. -/
def Value.ordered (members : List (String × Value)) : Value :=
  .object (Dictionary.ofList members)

/-- The kind of a value, as a message about it names it. -/
def Value.kind : Value → String
  | .null => "null"
  | .bool _ => "a boolean"
  | .number _ => "a number"
  | .string _ => "a string"
  | .array _ => "an array"
  | .object _ => "an object"

end Gatehouse.Json
