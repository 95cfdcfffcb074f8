import Gatehouse.Text.Utf8

/-!
# Base 64 for addresses

Bytes as text of 64 symbols that need no escape in an address, six bits to a symbol and without
padding. Reading is strict: the bits that the last symbol has to spare must be zero, so that no
two texts stand for the same bytes.
-/

namespace Gatehouse.Base64Url

/-- The symbol of a number below 64. -/
def symbol (n : Nat) : Char :=
  if n < 26 then Char.ofNat (65 + n)
  else if n < 52 then Char.ofNat (97 + (n - 26))
  else if n < 62 then Char.ofNat (48 + (n - 52))
  else if n = 62 then '-'
  else '_'

/-- The symbols of some bytes. Three bytes make four symbols; one or two bytes at the end make two
or three. -/
def encodeChars : List UInt8 → List Char
  | [] => []
  | [a] =>
    let n := a.toNat * 16
    [symbol (n / 64), symbol (n % 64)]
  | [a, b] =>
    let n := (a.toNat * 256 + b.toNat) * 4
    [symbol (n / 4096), symbol (n / 64 % 64), symbol (n % 64)]
  | a :: b :: c :: rest =>
    let n := (a.toNat * 256 + b.toNat) * 256 + c.toNat
    symbol (n / 262144) :: symbol (n / 4096 % 64) :: symbol (n / 64 % 64) :: symbol (n % 64) ::
      encodeChars rest

/-- The text of some bytes. -/
def encode (bytes : List UInt8) : String :=
  String.ofList (encodeChars bytes)

/-- Why a text stands for no bytes. -/
inductive Fault where
  /-- A byte is no symbol. -/
  | symbol (byte : UInt8) (offset : Nat)
  /-- The text breaks off inside a byte. -/
  | length (symbols : Nat)
  /-- The bits to spare are not zero. -/
  | lastSymbol (byte : UInt8) (offset : Nat)
  /-- The text is padded. -/
  | padding
deriving DecidableEq, Repr

def Fault.message : Fault → String
  | .symbol byte offset => s!"Invalid symbol {byte.toNat}, offset {offset}."
  | .length symbols => s!"Invalid input length: {symbols}"
  | .lastSymbol byte offset => s!"Invalid last symbol {byte.toNat}, offset {offset}."
  | .padding => "Invalid padding"

/-- The number that a byte stands for. -/
def value? (b : UInt8) : Option Nat :=
  let n := b.toNat
  if 65 ≤ n ∧ n ≤ 90 then some (n - 65)
  else if 97 ≤ n ∧ n ≤ 122 then some (n - 97 + 26)
  else if 48 ≤ n ∧ n ≤ 57 then some (n - 48 + 52)
  else if n = 45 then some 62
  else if n = 95 then some 63
  else none

/-- The padding byte. -/
@[match_pattern] abbrev pad : UInt8 := 0x3D

/-- The number of the symbol at an offset. -/
def valueAt (offset : Nat) (b : UInt8) : Except Fault Nat :=
  match value? b with
  | some n => .ok n
  | none => .error (.symbol b offset)

/-- The numbers of the last group, up to four bytes. Padding is told apart from other bytes only
where it could stand, behind two symbols; a symbol behind padding is the fault of the padding. -/
def lastValues (start : Nat) : Nat → List UInt8 → Except Fault (List Nat × Bool)
  | _, [] => .ok ([], false)
  | i, b :: rest =>
    if b = pad ∧ 2 ≤ i then
      if rest.all (· == pad) then .ok ([], true) else .error (.symbol pad (start + i))
    else do
      let n ← valueAt (start + i) b
      let (ns, padded) ← lastValues start (i + 1) rest
      return (n :: ns, padded)

/-- The bytes of the last group, given its numbers. -/
def lastBytes (start : Nat) (group : List UInt8) : List Nat → Except Fault (List UInt8)
  | [a, b] =>
    if b % 16 = 0 then .ok [(a * 4 + b / 16).toUInt8]
    else .error (.lastSymbol (group.getD 1 0) (start + 1))
  | [a, b, c] =>
    let n := (a * 64 + b) * 64 + c
    if c % 4 = 0 then .ok [(n / 1024).toUInt8, (n / 4 % 256).toUInt8]
    else .error (.lastSymbol (group.getD 2 0) (start + 2))
  | [a, b, c, d] =>
    let n := ((a * 64 + b) * 64 + c) * 64 + d
    .ok [(n / 65536).toUInt8, (n / 256 % 256).toUInt8, (n % 256).toUInt8]
  | ns => .error (.length (start + ns.length))

/-- The bytes that the last group stands for. -/
def decodeLast (start : Nat) (group : List UInt8) : Except Fault (List UInt8) := do
  let (ns, padded) ← lastValues start 0 group
  if ns.length < 2 then .error (.length (start + ns.length))
  else if padded then .error .padding
  else lastBytes start group ns

/-- The bytes that the symbols from an offset on stand for. -/
def decodeFrom (start : Nat) : List UInt8 → Except Fault (List UInt8)
  | [] => .ok []
  | a :: b :: c :: d :: rest =>
    match rest with
    | [] => decodeLast start [a, b, c, d]
    | _ :: _ => do
      let a ← valueAt start a
      let b ← valueAt (start + 1) b
      let c ← valueAt (start + 2) c
      let d ← valueAt (start + 3) d
      let n := ((a * 64 + b) * 64 + c) * 64 + d
      let bytes ← decodeFrom (start + 4) rest
      return (n / 65536).toUInt8 :: (n / 256 % 256).toUInt8 :: (n % 256).toUInt8 :: bytes
  | group => decodeLast start group

/-- A byte that stands alone behind whole groups and is no symbol. It is the first fault to be
reported, before any other that comes earlier in the text. -/
def strayEnd? (symbols : List UInt8) : Option Fault :=
  if symbols.length % 4 = 1 then
    symbols.getLast?.bind fun b =>
      if b ≠ pad ∧ value? b = none then some (.symbol b (symbols.length - 1)) else none
  else none

/-- The bytes that a text stands for. -/
def decode (s : String) : Except Fault (List UInt8) :=
  let symbols := Utf8.encode s
  match strayEnd? symbols with
  | some fault => .error fault
  | none => decodeFrom 0 symbols

end Gatehouse.Base64Url
