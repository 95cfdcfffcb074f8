import Gatehouse.Json.Parser
import Gatehouse.Json.Skipper

/-!
# Reading a value of a given shape

Readers for the shapes that the records of this library are made of: Booleans, bounded integers,
optional values, records and choices among names. A record is an object with its fields in any
order and other members between them, or a list of its fields in their own order. A choice is its
name, or an object with the name as its one key over `null`.
-/

namespace Gatehouse.Json.Reader

variable {α σ : Type}

/-! ## Plain values -/

/-- A Boolean. -/
def bool : Reader Bool := placed do
  match ← ahead? with
  | none => stopAhead .endInValue
  | some Byte.smallT =>
    skip
    restOfTrue
    return true
  | some Byte.smallF =>
    skip
    restOfFalse
    return false
  | some _ => mismatch "a boolean"

/-- The integer of a number, if it is one that fits. -/
def fitting (expected : String) (fit : Int → Option α) (n : Number) : Reader α :=
  match n with
  | .float x => unplaced (.wrongType (.float x) expected)
  | .natural u =>
    match fit u.toNat with
    | some a => return a
    | none => unplaced (.wrongValue n.found expected)
  | .negative i =>
    match fit i.toInt with
    | some a => return a
    | none => unplaced (.wrongValue n.found expected)

/-- An integer that fits; `expected` says in a message what fits. -/
def integer (expected : String) (fit : Int → Option α) : Reader α := placed do
  match ← ahead? with
  | none => stopAhead .endInValue
  | some Byte.minus =>
    skip
    let n ← numberBody false
    fitting expected fit n
  | some b =>
    if Byte.isDigit b then
      let n ← numberBody true
      fitting expected fit n
    else mismatch expected

/-- Whether an integer lies between two bounds, the upper one excluded. -/
def inRange (low high i : Int) : Option Int :=
  if low ≤ i ∧ i < high then some i else none

/-- A signed integer of 64 bits. -/
def int64 : Reader Int64 :=
  integer "i64" fun i => (inRange (-0x8000000000000000) 0x8000000000000000 i).map Int64.ofInt

/-- An unsigned integer of 64 bits. -/
def uint64 (expected : String) : Reader UInt64 :=
  integer expected fun i => (inRange 0 0x10000000000000000 i).map fun i => i.toNat.toUInt64

/-- An unsigned integer of 32 bits. -/
def uint32 : Reader UInt32 :=
  integer "u32" fun i => (inRange 0 0x100000000 i).map fun i => i.toNat.toUInt32

/-- An unsigned integer of 16 bits. -/
def uint16 : Reader UInt16 :=
  integer "u16" fun i => (inRange 0 0x10000 i).map fun i => i.toNat.toUInt16

/-- A value, or `null` for none. -/
def optional (item : Reader α) : Reader (Option α) := do
  match ← ahead? with
  | some Byte.smallN =>
    skip
    restOfNull
    return none
  | _ =>
    let a ← item
    return some a

/-- A value that must be `null`. -/
def unit : Reader Unit := placed do
  match ← ahead? with
  | none => stopAhead .endInValue
  | some Byte.smallN =>
    skip
    restOfNull
  | some _ => mismatch "unit"

/-- A list of values, with room for so many levels. -/
def listOf (room : Nat) (item : Reader α) : Reader (List α) := placed do
  match ← ahead? with
  | none => stopAhead .endInValue
  | some Byte.openBracket =>
    match room with
    | 0 => stopAhead .tooDeep
    | _ + 1 =>
      skip
      list (items item)
  | some _ => mismatch "a sequence"

/-! ## Objects with all their members -/

/-- Adds a member behind those so far, also under a key that one of them has. -/
def appendMember (item : Reader α) (k : String) (ms : List (String × α)) :
    Reader (List (String × α)) := do
  colon
  let a ← item
  return ms ++ [(k, a)]

/-- The members of an object in their order, with room for so many levels; `expected` says in a
message what was asked for. -/
def membersOf (room : Nat) (expected : String) (item : Reader α) :
    Reader (List (String × α)) := placed do
  match ← ahead? with
  | none => stopAhead .endInValue
  | some Byte.openBrace =>
    match room with
    | 0 => stopAhead .tooDeep
    | _ + 1 =>
      skip
      object (members (appendMember item) [])
  | some _ => mismatch expected

/-- A value whose objects keep members with one key apart, with room for so many levels. The marker
has no meaning in it. -/
def unmerged : Nat → Reader Value
  | 0 => plainValue 0
  | room + 1 => do
    match ← ahead? with
    | some Byte.openBracket =>
      let vs ← listOf (room + 1) (unmerged room)
      return .array vs
    | some Byte.openBrace =>
      let ms ← membersOf (room + 1) "a map" (unmerged room)
      return .object ms
    | _ => plainValue 0

/-! ## Choices -/

/-- The choice whose name stands next. -/
def choiceName (choices : List (String × α)) : Reader α := placed do
  skip
  let name ← stringBody
  match choices.lookup name with
  | some a => return a
  | none => unplaced (.unknownVariant name (choices.map (·.1)))

/-- A choice among names, with room for so many levels. -/
def choice (room : Nat) (choices : List (String × α)) : Reader α := do
  match ← ahead? with
  | none => stopAhead .endInValue
  | some Byte.quote => choiceName choices
  | some Byte.openBrace =>
    match room with
    | 0 => stopAhead .tooDeep
    | _ + 1 =>
      skip
      match ← ahead? with
      | none => stopAhead .endInObject
      | some Byte.quote =>
        let a ← choiceName choices
        colon
        unit
        match ← ahead? with
        | none => stop .endInObject
        | some Byte.closeBrace =>
          skip
          return a
        | some _ => stop .expectedValue
      | some Byte.closeBrace => stopAhead .expectedValue
      | some _ => stopAhead .keyNotString
  | some _ => stopAhead .expectedValue

/-! ## Records -/

/-- A record from its members or from the items of a list. -/
def record (room : Nat) (name : String) (fromMembers fromItems : Reader α) : Reader α := placed do
  match ← ahead? with
  | none => stopAhead .endInValue
  | some Byte.openBracket =>
    match room with
    | 0 => stopAhead .tooDeep
    | _ + 1 =>
      skip
      list fromItems
  | some Byte.openBrace =>
    match room with
    | 0 => stopAhead .tooDeep
    | _ + 1 =>
      skip
      object fromMembers
  | some _ => mismatch ("struct " ++ name)

/-- The value of a field, which may not have one yet. -/
def field (name : String) (seen : Option α) (item : Reader α) : Reader (Option α) := do
  match seen with
  | some _ => unplaced (.duplicateField name)
  | none =>
    colon
    let a ← item
    return some a

/-- Passes a member that is no field. -/
def otherMember (s : σ) : Reader σ := do
  colon
  skipValue
  return s

/-- The value that a field must have got. -/
def required (name : String) (seen : Option α) : Reader α :=
  match seen with
  | some a => return a
  | none => unplaced (.missingField name)

/-- The item of a list at a place, if the list is that long. -/
def itemAt? (index : Nat) (item : Reader α) : Reader (Option α) := do
  if ← hasItem (index == 0) then
    let a ← item
    return some a
  else return none

/-- The item of a list at a place; `whole` says in a message what the list stands for. -/
def itemAt (whole : String) (index : Nat) (item : Reader α) : Reader α := do
  match ← itemAt? index item with
  | some a => return a
  | none => unplaced (.wrongLength index whole)

/-- What a list stands for that has the fields of a record. -/
def asList (name : String) (fields : Nat) : String :=
  s!"struct {name} with {fields} elements"

end Gatehouse.Json.Reader
