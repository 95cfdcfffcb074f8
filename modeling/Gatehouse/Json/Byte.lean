/-!
# The bytes of JSON

The bytes that have a meaning in JSON text, by name.
-/

namespace Gatehouse.Json.Byte

@[match_pattern] abbrev tab : UInt8 := 0x09
@[match_pattern] abbrev newline : UInt8 := 0x0A
@[match_pattern] abbrev carriageReturn : UInt8 := 0x0D
@[match_pattern] abbrev space : UInt8 := 0x20
@[match_pattern] abbrev quote : UInt8 := 0x22
@[match_pattern] abbrev plus : UInt8 := 0x2B
@[match_pattern] abbrev comma : UInt8 := 0x2C
@[match_pattern] abbrev minus : UInt8 := 0x2D
@[match_pattern] abbrev point : UInt8 := 0x2E
@[match_pattern] abbrev slash : UInt8 := 0x2F
@[match_pattern] abbrev zero : UInt8 := 0x30
@[match_pattern] abbrev nine : UInt8 := 0x39
@[match_pattern] abbrev colon : UInt8 := 0x3A
@[match_pattern] abbrev capitalE : UInt8 := 0x45
@[match_pattern] abbrev openBracket : UInt8 := 0x5B
@[match_pattern] abbrev backslash : UInt8 := 0x5C
@[match_pattern] abbrev closeBracket : UInt8 := 0x5D
@[match_pattern] abbrev smallB : UInt8 := 0x62
@[match_pattern] abbrev smallE : UInt8 := 0x65
@[match_pattern] abbrev smallF : UInt8 := 0x66
@[match_pattern] abbrev smallN : UInt8 := 0x6E
@[match_pattern] abbrev smallR : UInt8 := 0x72
@[match_pattern] abbrev smallT : UInt8 := 0x74
@[match_pattern] abbrev smallU : UInt8 := 0x75
@[match_pattern] abbrev openBrace : UInt8 := 0x7B
@[match_pattern] abbrev closeBrace : UInt8 := 0x7D

/-- Whether a byte may stand between the parts of a text. -/
def isBlank (b : UInt8) : Bool :=
  b == space || b == newline || b == tab || b == carriageReturn

/-- Whether a byte is a decimal digit. -/
def isDigit (b : UInt8) : Bool :=
  zero ≤ b && b ≤ nine

/-- The value of a decimal digit. -/
def digitValue (b : UInt8) : Nat :=
  b.toNat - 0x30

/-- The value of a hexadecimal digit of either case. -/
def hexValue? (b : UInt8) : Option Nat :=
  if isDigit b then some (digitValue b)
  else if 0x41 ≤ b && b ≤ 0x46 then some (b.toNat - 0x41 + 10)
  else if 0x61 ≤ b && b ≤ 0x66 then some (b.toNat - 0x61 + 10)
  else none

end Gatehouse.Json.Byte
