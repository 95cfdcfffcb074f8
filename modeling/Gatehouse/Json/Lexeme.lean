import Gatehouse.Json.Cursor
import Gatehouse.Text.Utf8

/-!
# Words, strings and numbers

The readers of the indivisible parts of a JSON text. A number is exact while its digits fit in 64
bits. Otherwise it is its leading digits times or over a power of ten, in one operation on
doubles where the power is at most 308.
-/

namespace Gatehouse.Json.Reader

/-- Passes the rest of a word, given its bytes. -/
def word : List UInt8 → Reader Unit
  | [] => return
  | expected :: more => do
    match ← next? with
    | none => stop .endInValue
    | some b => if b = expected then word more else stop .expectedWord

/-- Passes `null` behind its first letter. -/
def restOfNull : Reader Unit :=
  word [0x75, 0x6C, 0x6C]

/-- Passes `true` behind its first letter. -/
def restOfTrue : Reader Unit :=
  word [0x72, 0x75, 0x65]

/-- Passes `false` behind its first letter. -/
def restOfFalse : Reader Unit :=
  word [0x61, 0x6C, 0x73, 0x65]

/-! ## Strings -/

/-- Takes the bytes up to a quote, a backslash, a control or the end. -/
def plainRun : Reader (List UInt8) := do
  let run := (← get).rest.takeWhile fun b =>
    b != Byte.quote && b != Byte.backslash && 0x20 ≤ b
  modify (Cursor.advance run.length)
  return run

/-- The value of four hexadecimal digits. -/
def hexOf? : List UInt8 → Option Nat
  | [a, b, c, d] => do
    let a ← Byte.hexValue? a
    let b ← Byte.hexValue? b
    let c ← Byte.hexValue? c
    let d ← Byte.hexValue? d
    return ((a * 16 + b) * 16 + c) * 16 + d
  | _ => none

/-- Takes the four hexadecimal digits of an escape. -/
def hexDigits : Reader Nat := do
  let rest := (← get).rest
  if rest.length < 4 then
    modify (Cursor.advance rest.length)
    stop .endInString
  else
    modify (Cursor.advance 4)
    match hexOf? (rest.take 4) with
    | some n => return n
    | none => stop .invalidEscape

/-- Passes a byte that must come next for a surrogate pair to go on. -/
def pairByte (expected : UInt8) : Reader Unit := do
  match ← peek? with
  | none => stop .endInString
  | some b =>
    skip
    if b = expected then return else stop .unfinishedPair

/-- The bytes of the character that a hexadecimal escape stands for. Above the first 65536 code
points that takes two escapes, the halves of a surrogate pair. -/
def hexEscape : Reader (List UInt8) := do
  let n ← hexDigits
  if 0xDC00 ≤ n ∧ n ≤ 0xDFFF then stop .loneSurrogate
  else if n < 0xD800 ∨ 0xDBFF < n then return String.utf8EncodeChar (Char.ofNat n)
  else
    pairByte Byte.backslash
    pairByte Byte.smallU
    let m ← hexDigits
    if m < 0xDC00 ∨ 0xDFFF < m then stop .loneSurrogate
    else return String.utf8EncodeChar (Char.ofNat ((n - 0xD800) * 0x400 + (m - 0xDC00) + 0x10000))

/-- The byte that a one-letter escape stands for. -/
def letterEscape? : UInt8 → Option UInt8
  | Byte.quote => some Byte.quote
  | Byte.backslash => some Byte.backslash
  | Byte.slash => some Byte.slash
  | Byte.smallB => some 0x08
  | Byte.smallF => some 0x0C
  | Byte.smallN => some 0x0A
  | Byte.smallR => some 0x0D
  | Byte.smallT => some 0x09
  | _ => none

/-- The bytes that an escape stands for, read behind its backslash. -/
def escape : Reader (List UInt8) := do
  match ← next? with
  | none => stop .endInString
  | some b =>
    match letterEscape? b with
    | some e => return [e]
    | none => if b = Byte.smallU then hexEscape else stop .invalidEscape

/-- The bytes of a string up to its closing quote, with at most `n` runs between escapes. -/
def stringRuns : Nat → Reader (List UInt8)
  | 0 => stop .endInString
  | n + 1 => do
    let run ← plainRun
    match ← peek? with
    | none => stop .endInString
    | some Byte.quote =>
      skip
      return run
    | some Byte.backslash =>
      skip
      let escaped ← escape
      let more ← stringRuns n
      return run ++ escaped ++ more
    | some _ =>
      skip
      stop .controlCharacter

/-- Halts so many bytes before the cursor, on its line. -/
def stopBehind {α : Type} (fault : Fault) (n : Nat) : Reader α := do
  let c ← get
  throw ⟨fault, some (c.line, c.column - n)⟩

/-- The string behind an opening quote. Every run ends with a byte, so that there are no more runs
than bytes. Of a string that is not UTF-8 the place is as far before its end as its bytes from the
first ill-formed one on are many, where an escape counts as the bytes that it stands for. -/
def stringBody : Reader String := do
  let bytes ← stringRuns ((← get).rest.length + 1)
  match Utf8.decode bytes with
  | .ok s => return s
  | .error fault => stopBehind .invalidCharacter (bytes.length - fault.index)

/-! ## Numbers -/

/-- The power of ten as a double, to nearest. -/
def tenTo (k : Nat) : Float :=
  Float.ofScientific 1 false k

/-- A double over a power of ten, in steps that divide by at most `10 ^ 308`. -/
def overTenTo (x : Float) (k : Nat) : Float :=
  if k ≤ 308 then x / tenTo k
  else if x == 0 then x
  else overTenTo (x / tenTo 308) (k - 308)
termination_by k

/-- A whole number times a power of ten, unless it is too large for a double. -/
def scaled? (significand : Nat) (exponent : Int) : Option Float :=
  let x := significand.toUInt64.toFloat
  if exponent < 0 then some (overTenTo x exponent.natAbs)
  else if exponent ≤ 308 then
    let y := x * tenTo exponent.toNat
    if y.isInf then none else some y
  else if x == 0 then some x
  else none

/-- A signed double from its digits and exponent. -/
def floatOf (positive : Bool) (significand : Nat) (exponent : Int) : Reader Number := do
  match scaled? significand exponent with
  | some x => return .float (if positive then x else -x)
  | none => stop .numberOutOfRange

/-- Takes a run of digits. -/
def digitRun : Reader (List Nat) := do
  let run := (← get).rest.takeWhile Byte.isDigit
  modify (Cursor.advance run.length)
  return run.map Byte.digitValue

/-- Adds digits to a significand while it stays below `2 ^ 64`, and gives the digits that are left
over. -/
def accumulate (significand : Nat) : List Nat → Nat × List Nat
  | [] => (significand, [])
  | d :: ds =>
    if significand * 10 + d < 0x10000000000000000 then accumulate (significand * 10 + d) ds
    else (significand, d :: ds)

/-- The value of an exponent's digits after a part whose value is `e`, or the number of digits up
to the one with which it passes the 31 bits that an exponent has. -/
def exponentOf (e : Nat) : List Nat → Except Nat Nat
  | [] => .ok e
  | d :: ds =>
    if e * 10 + d < 0x80000000 then
      match exponentOf (e * 10 + d) ds with
      | .ok e => .ok e
      | .error n => .error (n + 1)
    else .error 1

/-- A number from the digits of its exponent on. A number whose exponent passes every bound is zero
when its digits are, or when the exponent is negative, and too large otherwise. -/
def exponentDigits (positive : Bool) (significand : Nat) (start : Int) (upward : Bool) :
    Reader Number := do
  match ← next? with
  | none => stop .endInValue
  | some b =>
    if !Byte.isDigit b then stop .invalidNumber
    else
      let run := ((← get).rest.takeWhile Byte.isDigit).map Byte.digitValue
      match exponentOf (Byte.digitValue b) run with
      | .ok e =>
        modify (Cursor.advance run.length)
        floatOf positive significand (if upward then start + e else start - e)
      | .error n =>
        if significand ≠ 0 ∧ upward then
          modify (Cursor.advance n)
          stop .numberOutOfRange
        else
          modify (Cursor.advance run.length)
          return .float (if positive then 0 else -0)

/-- A number from its exponent mark on. -/
def exponentPart (positive : Bool) (significand : Nat) (start : Int) : Reader Number := do
  skip
  match ← peek? with
  | some Byte.plus =>
    skip
    exponentDigits positive significand start true
  | some Byte.minus =>
    skip
    exponentDigits positive significand start false
  | _ => exponentDigits positive significand start true

/-- The number that ends here, unless an exponent follows. -/
def exponentOrEnd (positive : Bool) (significand : Nat) (exponent : Int) : Reader Number := do
  match ← peek? with
  | some Byte.smallE | some Byte.capitalE => exponentPart positive significand exponent
  | _ => floatOf positive significand exponent

/-- A number from its decimal point on. -/
def fractionPart (positive : Bool) (significand : Nat) (start : Int) : Reader Number := do
  skip
  let ds ← digitRun
  if ds.isEmpty then
    match ← peek? with
    | none => stopAhead .endInValue
    | some _ => stopAhead .invalidNumber
  else
    let (significand, surplus) := accumulate significand ds
    exponentOrEnd positive significand (start - (ds.length - surplus.length))

/-- The whole number with a sign. Minus zero and what is below 64 bits are doubles. -/
def wholeNumber (positive : Bool) (significand : Nat) : Number :=
  if positive then .natural significand.toUInt64
  else if significand = 0 ∨ 0x8000000000000000 < significand then
    .float (-significand.toUInt64.toFloat)
  else .negative (Int64.ofInt (-significand))

/-- A number whose whole part is behind. -/
def afterWhole (positive : Bool) (significand : Nat) (surplus : List Nat) : Reader Number := do
  match ← peek? with
  | some Byte.point => fractionPart positive significand surplus.length
  | some Byte.smallE | some Byte.capitalE => exponentPart positive significand surplus.length
  | _ =>
    if surplus.isEmpty then return wholeNumber positive significand
    else floatOf positive significand surplus.length

/-- A number behind its sign. -/
def numberBody (positive : Bool) : Reader Number := do
  match ← next? with
  | none => stop .endInValue
  | some b =>
    if !Byte.isDigit b then stop .invalidNumber
    else if b = Byte.zero then
      if ((← peek?).map Byte.isDigit).getD false then stopAhead .invalidNumber
      else afterWhole positive 0 []
    else
      let ds ← digitRun
      let (significand, surplus) := accumulate (Byte.digitValue b) ds
      afterWhole positive significand surplus

end Gatehouse.Json.Reader
