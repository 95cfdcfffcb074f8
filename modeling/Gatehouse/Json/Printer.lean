import Gatehouse.Decimal.Shortest
import Gatehouse.Json.Value

/-!
# Printing JSON

`Value.render` writes a value without any blank, `Value.renderIndented` with a line per item and
two spaces per level. A string escapes the quote, the backslash and the controls, each in its
shortest form; every other character stands as it is. A double is written with the fewest digits
that read back, positionally from `0.00001` up to below `10000000000000000.0` and with an exponent
outside that range, and always with a mark that tells it from a whole number.
-/

namespace Gatehouse.Json

/-! ## Numbers -/

/-- The digits of a figure with the point in place. -/
def positional (f : Decimal.Figure) : List Char :=
  if f.exponent < 0 then
    ['0', '.'] ++ List.replicate (-f.exponent - 1).toNat '0' ++ f.digits
  else
    let whole := f.exponent.toNat + 1
    if f.digits.length ≤ whole then
      f.digits ++ List.replicate (whole - f.digits.length) '0' ++ ['.', '0']
    else
      f.digits.take whole ++ '.' :: f.digits.drop whole

/-- The digits of a figure with the point after the first of them and an exponent, which has a
sign either way. -/
def exponential (f : Decimal.Figure) : List Char :=
  let digits :=
    match f.digits with
    | d :: e :: ds => d :: '.' :: e :: ds
    | ds => ds
  let sign := if f.exponent < 0 then '-' else '+'
  digits ++ 'e' :: sign :: Nat.toDigits 10 f.exponent.natAbs

/-- A figure in the notation that its size asks for. -/
def figureChars (f : Decimal.Figure) : List Char :=
  if -5 ≤ f.exponent ∧ f.exponent < 16 then positional f else exponential f

/-- A double. JSON has no text for infinities and for what is not a number. -/
def floatChars (x : Float) : List Char :=
  let bits := x.toBits
  let magnitude := bits &&& 0x7FFFFFFFFFFFFFFF
  let sign := if bits = magnitude then [] else ['-']
  if 0x7FF0000000000000 ≤ magnitude then ['n', 'u', 'l', 'l']
  else if magnitude = 0 then sign ++ ['0', '.', '0']
  else sign ++ figureChars (Decimal.Binary.ofBits magnitude).shortest

/-- A whole number. -/
def integerChars (i : Int) : List Char :=
  if i < 0 then '-' :: Nat.toDigits 10 i.natAbs else Nat.toDigits 10 i.natAbs

/-- A number. -/
def Number.chars : Number → List Char
  | .natural n => integerChars n.toNat
  | .negative i => integerChars i.toInt
  | .float x => floatChars x

/-! ## Strings -/

/-- A character as it stands in a string. -/
def escapeChar (c : Char) : List Char :=
  if c = '"' then ['\\', '"']
  else if c = '\\' then ['\\', '\\']
  else if c = '\x08' then ['\\', 'b']
  else if c = '\x0c' then ['\\', 'f']
  else if c = '\n' then ['\\', 'n']
  else if c = '\r' then ['\\', 'r']
  else if c = '\t' then ['\\', 't']
  else if c.toNat < 0x20 then
    ['\\', 'u', '0', '0', Nat.digitChar (c.toNat / 16), Nat.digitChar (c.toNat % 16)]
  else [c]

/-- A string between its quotes. -/
def stringChars (s : String) : List Char :=
  '"' :: s.toList.flatMap escapeChar ++ ['"']

/-! ## Values -/

/-- The text of a Boolean. -/
def boolChars (b : Bool) : List Char :=
  if b then ['t', 'r', 'u', 'e'] else ['f', 'a', 'l', 's', 'e']

mutual

/-- A value without blanks. -/
def Value.chars : Value → List Char
  | .null => ['n', 'u', 'l', 'l']
  | .bool b => boolChars b
  | .number n => n.chars
  | .string s => stringChars s
  | .array items => '[' :: itemChars items ++ [']']
  | .object members => '\x7b' :: memberChars members ++ ['\x7d']

/-- Items with a comma between neighbours. -/
def itemChars : List Value → List Char
  | [] => []
  | [v] => v.chars
  | v :: w :: vs => v.chars ++ ',' :: itemChars (w :: vs)

/-- Members with a comma between neighbours. -/
def memberChars : List (String × Value) → List Char
  | [] => []
  | [(k, v)] => stringChars k ++ ':' :: v.chars
  | (k, v) :: m :: ms => stringChars k ++ ':' :: v.chars ++ ',' :: memberChars (m :: ms)

end

/-- The text of a value. -/
def Value.render (v : Value) : String :=
  String.ofList v.chars

/-- A new line at a level of nesting. -/
def newline (level : Nat) : List Char :=
  '\n' :: List.replicate (2 * level) ' '

mutual

/-- A value that stands at a level of nesting, with a line for every item and member. -/
def Value.indentedChars (level : Nat) : Value → List Char
  | .array (v :: vs) =>
    '[' :: newline (level + 1) ++ indentedItems (level + 1) (v :: vs) ++ newline level ++ [']']
  | .object (m :: ms) =>
    '\x7b' :: newline (level + 1) ++ indentedMembers (level + 1) (m :: ms) ++ newline level ++
      ['\x7d']
  | .array [] => ['[', ']']
  | .object [] => ['\x7b', '\x7d']
  | .null => ['n', 'u', 'l', 'l']
  | .bool b => boolChars b
  | .number n => n.chars
  | .string s => stringChars s

/-- Items on lines of their own. -/
def indentedItems (level : Nat) : List Value → List Char
  | [] => []
  | [v] => v.indentedChars level
  | v :: w :: vs => v.indentedChars level ++ ',' :: newline level ++ indentedItems level (w :: vs)

/-- Members on lines of their own. -/
def indentedMembers (level : Nat) : List (String × Value) → List Char
  | [] => []
  | [(k, v)] => stringChars k ++ [':', ' '] ++ v.indentedChars level
  | (k, v) :: m :: ms =>
    stringChars k ++ [':', ' '] ++ v.indentedChars level ++ ',' :: newline level ++
      indentedMembers level (m :: ms)

end

/-- The text of a value over several lines. -/
def Value.renderIndented (v : Value) : String :=
  String.ofList (v.indentedChars 0)

end Gatehouse.Json
