import Gatehouse.Json.Byte
import Gatehouse.Json.Error

/-!
# Reading with a place

A `Reader` takes bytes off a `Cursor`, which knows its line and column. A reader that stops leaves
the cursor where it came to a halt, so that a lenient reader can go on from there. A fault is
placed at the cursor (`stop`), just after the byte that was looked at (`stopAhead`), or nowhere
yet (`unplaced`); the innermost reader of a whole value gives an unplaced fault its place
(`placed`).
-/

namespace Gatehouse.Json

/-- What is left to read, and where. -/
structure Cursor where
  /-- The bytes that are left. -/
  rest : List UInt8
  /-- The line of the next byte, from 1. -/
  line : Nat
  /-- How many bytes of that line are behind. -/
  column : Nat
deriving DecidableEq, Repr

namespace Cursor

/-- The start of a text. -/
def start (bytes : List UInt8) : Cursor :=
  ⟨bytes, 1, 0⟩

/-- The place behind a byte. -/
def past (line column : Nat) (b : UInt8) (rest : List UInt8) : Cursor :=
  if b = Byte.newline then ⟨rest, line + 1, 0⟩ else ⟨rest, line, column + 1⟩

/-- The cursor behind the next byte. -/
def step (c : Cursor) : Cursor :=
  match c.rest with
  | [] => c
  | b :: rest => past c.line c.column b rest

/-- The cursor behind the next `n` bytes. -/
def advance : Nat → Cursor → Cursor
  | 0, c => c
  | n + 1, c => advance n c.step

/-- The cursor behind the blanks at some place. -/
def dropBlanks (line column : Nat) : List UInt8 → Cursor
  | [] => ⟨[], line, column⟩
  | b :: rest =>
    if Byte.isBlank b then
      if b = Byte.newline then dropBlanks (line + 1) 0 rest
      else dropBlanks line (column + 1) rest
    else ⟨b :: rest, line, column⟩

/-- The cursor behind the blanks. -/
def skipBlanks (c : Cursor) : Cursor :=
  dropBlanks c.line c.column c.rest

end Cursor

/-- A fault, with its line and column once they are known. -/
structure Halt where
  /-- The cause. -/
  fault : Fault
  /-- The line and the column. -/
  place : Option (Nat × Nat)

/-- A computation that takes bytes off a cursor and gives a result or halts. -/
abbrev Reader := EStateM Halt Cursor

namespace Reader

variable {α : Type}

/-- The next byte, which stays. -/
def peek? : Reader (Option UInt8) := do
  return (← get).rest.head?

/-- Passes the next byte. -/
def skip : Reader Unit :=
  modify Cursor.step

/-- Takes the next byte. -/
def next? : Reader (Option UInt8) := do
  let b ← peek?
  skip
  return b

/-- The next byte behind the blanks, which stays. -/
def ahead? : Reader (Option UInt8) := do
  modify Cursor.skipBlanks
  peek?

/-- Halts at the cursor. -/
def stop (fault : Fault) : Reader α := do
  let c ← get
  throw ⟨fault, some (c.line, c.column)⟩

/-- Halts behind the byte that was looked at. -/
def stopAhead (fault : Fault) : Reader α := do
  let c := (← get).step
  throw ⟨fault, some (c.line, c.column)⟩

/-- Halts without a place. -/
def unplaced (fault : Fault) : Reader α :=
  throw ⟨fault, none⟩

/-- Gives an unplaced fault the place at which the reader came to a halt. -/
def placed (r : Reader α) : Reader α := fun c =>
  match r c with
  | .error ⟨fault, none⟩ d => .error ⟨fault, some (d.line, d.column)⟩ d
  | result => result

/-- Reads a body and then its end. The end is read even where the body halted, and then the body's
fault stands. -/
def enclosed (body : Reader α) (close : Reader Unit) : Reader α := fun c =>
  match body c with
  | .ok a d =>
    match close d with
    | .ok _ e => .ok a e
    | .error halt e => .error halt e
  | .error halt d =>
    match close d with
    | .ok _ e => .error halt e
    | .error _ e => .error halt e

/-- What a reader makes of a whole text: nothing but blanks may follow. -/
def run (r : Reader α) (bytes : List UInt8) : Except Error α :=
  let whole : Reader α := do
    let a ← r
    match ← ahead? with
    | none => return a
    | some _ => stopAhead .trailingCharacters
  match whole (Cursor.start bytes) with
  | .ok a _ => .ok a
  | .error ⟨fault, some (line, column)⟩ _ => .error ⟨fault, line, column⟩
  | .error ⟨fault, none⟩ c => .error ⟨fault, c.line, c.column⟩

end Reader

end Gatehouse.Json
