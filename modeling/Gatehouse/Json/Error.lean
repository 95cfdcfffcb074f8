import Gatehouse.Json.Printer
import Gatehouse.Text.Quoted

/-!
# What can be wrong with a JSON text

A `Fault` is the cause, an `Error` the cause with its place. Faults fall into three categories:
the text is not JSON, the text ends too early, or the JSON is not what the reader was asked for.
-/

namespace Gatehouse.Json

/-- What a reader met in place of what it was asked for. -/
inductive Found where
  | null
  | bool (b : Bool)
  | integer (i : Int)
  | float (x : Float)
  | string (s : String)
  | sequence
  | map

/-- The name of what was met, with its value where it has one. -/
def Found.describe : Found → String
  | .null => "null"
  | .bool b => s!"boolean `{b}`"
  | .integer i => s!"integer `{i}`"
  | .float x => "floating point `" ++ String.ofList (floatChars x) ++ "`"
  | .string s => "string " ++ Text.quoted s
  | .sequence => "sequence"
  | .map => "map"

/-- A number as something that was met. -/
def Number.found : Number → Found
  | .natural n => .integer n.toNat
  | .negative i => .integer i.toInt
  | .float x => .float x

/-- A value as something that was met. -/
def Value.found : Value → Found
  | .null => .null
  | .bool b => .bool b
  | .number n => n.found
  | .string s => .string s
  | .array _ => .sequence
  | .object _ => .map

/-- Why a text was refused. -/
inductive Fault where
  /-- The text ends inside a list. -/
  | endInList
  /-- The text ends inside an object. -/
  | endInObject
  /-- The text ends inside a string. -/
  | endInString
  /-- The text ends where a value should stand, or inside one. -/
  | endInValue
  /-- No colon follows a key. -/
  | expectedColon
  /-- Neither a comma nor the end of the list follows an item. -/
  | expectedCommaOrBracket
  /-- Neither a comma nor the end of the object follows a member. -/
  | expectedCommaOrBrace
  /-- A word starts like `null`, `true` or `false` and goes on otherwise. -/
  | expectedWord
  /-- No value starts here. -/
  | expectedValue
  /-- A backslash stands before what is no escape. -/
  | invalidEscape
  /-- A number breaks off or goes on where it must not. -/
  | invalidNumber
  /-- A number is too large for a double. -/
  | numberOutOfRange
  /-- The bytes of a string are not UTF-8. -/
  | invalidCharacter
  /-- A control character stands in a string. -/
  | controlCharacter
  /-- A key is not a string. -/
  | keyNotString
  /-- A comma stands before the end of a list or object. -/
  | trailingComma
  /-- Something follows the value. -/
  | trailingCharacters
  /-- The first half of a surrogate pair has no second half after it. -/
  | unfinishedPair
  /-- One half of a surrogate pair stands in the place of the other or alone. -/
  | loneSurrogate
  /-- Lists and objects are nested too deep. -/
  | tooDeep
  /-- A record lacks a field that has no default. -/
  | missingField (name : String)
  /-- A record has a field twice. -/
  | duplicateField (name : String)
  /-- A name is not one of those that were offered. -/
  | unknownVariant (name : String) (known : List String)
  /-- A value is of another kind. -/
  | wrongType (found : Found) (expected : String)
  /-- A value is of the right kind and outside its range. -/
  | wrongValue (found : Found) (expected : String)
  /-- A record written as a list ends after this many items. -/
  | wrongLength (length : Nat) (expected : String)
  /-- An object has none of the forms that were offered under a name. -/
  | noForm (name : String)
  /-- A text that stands inside the text was refused. -/
  | embedded (fault : Fault)

/-- The kinds of fault. -/
inductive Category where
  /-- The text is not JSON. -/
  | form
  /-- The text is not yet JSON. -/
  | ending
  /-- The JSON is not what was asked for. -/
  | content
deriving DecidableEq, Repr

/-- The kind of a fault. A refused inner text is no fault of the outer text's form. -/
def Fault.category : Fault → Category
  | .endInList | .endInObject | .endInString | .endInValue => .ending
  | .missingField _ | .duplicateField _ | .unknownVariant .. | .wrongType .. | .wrongValue ..
  | .wrongLength .. | .noForm _ | .embedded _ => .content
  | _ => .form

/-- A name between back quotes. -/
def ticked (name : String) : String :=
  s!"`{name}`"

/-- The names that were offered, as a message lists them. -/
def offer : List String → String
  | [] => "there are no variants"
  | [a] => "expected " ++ ticked a
  | [a, b] => "expected " ++ ticked a ++ " or " ++ ticked b
  | names => "expected one of " ++ ", ".intercalate (names.map ticked)

/-- A fault in words, without its place. -/
def Fault.message : Fault → String
  | .endInList => "EOF while parsing a list"
  | .endInObject => "EOF while parsing an object"
  | .endInString => "EOF while parsing a string"
  | .endInValue => "EOF while parsing a value"
  | .expectedColon => "expected `:`"
  | .expectedCommaOrBracket => "expected `,` or `]`"
  | .expectedCommaOrBrace => "expected `,` or `\x7d`"
  | .expectedWord => "expected ident"
  | .expectedValue => "expected value"
  | .invalidEscape => "invalid escape"
  | .invalidNumber => "invalid number"
  | .numberOutOfRange => "number out of range"
  | .invalidCharacter => "invalid unicode code point"
  | .controlCharacter => "control character (\\u0000-\\u001F) found while parsing a string"
  | .keyNotString => "key must be a string"
  | .trailingComma => "trailing comma"
  | .trailingCharacters => "trailing characters"
  | .unfinishedPair => "unexpected end of hex escape"
  | .loneSurrogate => "lone leading surrogate in hex escape"
  | .tooDeep => "recursion limit exceeded"
  | .missingField name => "missing field " ++ ticked name
  | .duplicateField name => "duplicate field " ++ ticked name
  | .unknownVariant name known => "unknown variant " ++ ticked name ++ ", " ++ offer known
  | .wrongType found expected => "invalid type: " ++ found.describe ++ ", expected " ++ expected
  | .wrongValue found expected => "invalid value: " ++ found.describe ++ ", expected " ++ expected
  | .wrongLength length expected => s!"invalid length {length}, expected " ++ expected
  | .noForm name => "data did not match any variant of untagged enum " ++ name
  | .embedded fault => fault.message

/-- A fault at its place. -/
structure Error where
  /-- The cause. -/
  fault : Fault
  /-- The line, from 1. -/
  line : Nat
  /-- The number of bytes of the line up to the place. -/
  column : Nat

/-- An error in words. -/
def Error.message (e : Error) : String :=
  e.fault.message ++ s!" at line {e.line} column {e.column}"

end Gatehouse.Json
