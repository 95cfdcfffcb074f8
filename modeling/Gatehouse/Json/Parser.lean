import Gatehouse.Json.Bracketed

/-!
# Reading any value

`parse` reads a text as a JSON value. Lists and objects may be nested 127 deep. Of the members
with one key the last counts. An object whose first key is the marker `embeddedKey` stands for the
value that its one member's string spells out; that text is read as a text of its own, with its
own depth and its own places.
-/

namespace Gatehouse.Json

/-- How deep lists and objects may be nested. -/
def maxDepth : Nat := 127

/-- The key that marks an object as the carrier of a JSON text. -/
def embeddedKey : String := "$serde_json::private::RawValue"

namespace Reader

/-- Halts at a value of another kind than expected, and names the kind. A word, number or string
is read to its end first; of a list or an object the bracket is enough. -/
def mismatch {α : Type} (expected : String) : Reader α := placed do
  match ← peek? with
  | some Byte.smallN =>
    skip
    restOfNull
    unplaced (.wrongType .null expected)
  | some Byte.smallT =>
    skip
    restOfTrue
    unplaced (.wrongType (.bool true) expected)
  | some Byte.smallF =>
    skip
    restOfFalse
    unplaced (.wrongType (.bool false) expected)
  | some Byte.minus =>
    skip
    let n ← numberBody false
    unplaced (.wrongType n.found expected)
  | some Byte.quote =>
    skip
    let s ← stringBody
    unplaced (.wrongType (.string s) expected)
  | some Byte.openBracket => unplaced (.wrongType .sequence expected)
  | some Byte.openBrace => unplaced (.wrongType .map expected)
  | b =>
    if (b.map Byte.isDigit).getD false then
      let n ← numberBody true
      unplaced (.wrongType n.found expected)
    else stopAhead .expectedValue

/-- A string; `expected` says in a message what was asked for. -/
def string (expected : String) : Reader String := placed do
  match ← ahead? with
  | none => stopAhead .endInValue
  | some Byte.quote =>
    skip
    stringBody
  | some _ => mismatch expected

/-- The value that the string of a marked object spells out. -/
def embedded (parseText : String → Except Error Value) : Reader Value := do
  colon
  let text ← string "raw value"
  match parseText text with
  | .ok v => return v
  | .error e => throw ⟨.embedded e.fault, some (e.line, e.column)⟩

/-- Reads the value of a member into the members so far. -/
def valueMember (item : Reader Value) (k : String) (d : Dictionary Value) :
    Reader (Dictionary Value) := do
  colon
  let v ← item
  return d.insert k v

/-- The body of an object as a value. A text reader makes the marker count. -/
def objectBody (parseText : Option (String → Except Error Value)) (item : Reader Value) :
    Reader Value := do
  if ← hasKey true then
    let k ← key
    match parseText, k == embeddedKey with
    | some parseText, true => embedded parseText
    | _, _ =>
      let d ← valueMember item k []
      let d ← membersUpTo (valueMember item) ((← get).rest.length + 1) false d
      return .object d
  else return .object []

/-- A value, given the reader of the values inside it unless no more nesting is allowed. -/
def valueWith (parseText : Option (String → Except Error Value)) (inner : Option (Reader Value)) :
    Reader Value := placed do
  match ← ahead? with
  | none => stopAhead .endInValue
  | some Byte.smallN =>
    skip
    restOfNull
    return .null
  | some Byte.smallT =>
    skip
    restOfTrue
    return .bool true
  | some Byte.smallF =>
    skip
    restOfFalse
    return .bool false
  | some Byte.minus =>
    skip
    let n ← numberBody false
    return .number n
  | some Byte.quote =>
    skip
    let s ← stringBody
    return .string s
  | some Byte.openBracket =>
    match inner with
    | none => stopAhead .tooDeep
    | some inner =>
      skip
      let vs ← list (items inner)
      return .array vs
  | some Byte.openBrace =>
    match inner with
    | none => stopAhead .tooDeep
    | some inner =>
      skip
      object (objectBody parseText inner)
  | some b =>
    if Byte.isDigit b then
      let n ← numberBody true
      return .number n
    else stopAhead .expectedValue

/-- A value with room for so many levels of lists and objects. -/
def valueWithin (parseText : Option (String → Except Error Value)) : Nat → Reader Value
  | 0 => valueWith parseText none
  | room + 1 => valueWith parseText (some (valueWithin parseText room))

/-- A value in which the marker has no meaning. -/
def plainValue (room : Nat) : Reader Value :=
  valueWithin none room

end Reader

/-- Reads a text whose embedded texts go at most `n` deep. An embedded text is shorter than the
text around it, so that its length is depth enough. -/
def parseNested : Nat → String → Except Error Value
  | 0, s => (Reader.plainValue maxDepth).run (Utf8.encode s)
  | n + 1, s => (Reader.valueWithin (some (parseNested n)) maxDepth).run (Utf8.encode s)

namespace Reader

/-- A value with room for so many levels of lists and objects. -/
def value (room : Nat) : Reader Value := do
  let c ← get
  valueWithin (some (parseNested c.rest.length)) room

end Reader

/-- The value that a text spells out. -/
def parse (s : String) : Except Error Value :=
  (Reader.value maxDepth).run (Utf8.encode s)

end Gatehouse.Json
