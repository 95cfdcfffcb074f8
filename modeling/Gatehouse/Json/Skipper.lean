import Gatehouse.Json.Bracketed

/-!
# Passing over a value

A record passes over the members it does not know. Passing over a value checks its form and
nothing else: nesting has no limit, numbers no range, and strings may hold any bytes and any
escapes. The open brackets are kept on a stack.
-/

namespace Gatehouse.Json

/-- An opening bracket that has not been closed. -/
inductive Bracket where
  | list
  | object
deriving DecidableEq, Repr

namespace Bracket

/-- The byte that closes it. -/
def close : Bracket → UInt8
  | .list => Byte.closeBracket
  | .object => Byte.closeBrace

/-- The fault when the text ends inside it. -/
def endFault : Bracket → Fault
  | .list => .endInList
  | .object => .endInObject

/-- The fault when something other than a comma or the end follows inside it. -/
def separatorFault : Bracket → Fault
  | .list => .expectedCommaOrBracket
  | .object => .expectedCommaOrBrace

end Bracket

namespace Reader

/-! ## Numbers and strings -/

/-- Passes a run of digits and counts them. -/
def skipDigits : Reader Nat := do
  let run := (← get).rest.takeWhile Byte.isDigit
  modify (Cursor.advance run.length)
  return run.length

/-- Passes the digits of an exponent, at least one. -/
def skipExponentDigits : Reader Unit := do
  if ((← next?).map Byte.isDigit).getD false then
    let _ ← skipDigits
  else stop .invalidNumber

/-- Passes a number from its exponent mark on. -/
def skipExponent : Reader Unit := do
  skip
  let sign ← peek?
  if sign = some Byte.plus ∨ sign = some Byte.minus then
    skip
    skipExponentDigits
  else skipExponentDigits

/-- Passes an exponent if one follows. -/
def skipExponentOrEnd : Reader Unit := do
  match ← peek? with
  | some Byte.smallE | some Byte.capitalE => skipExponent
  | _ => return

/-- Passes a fraction and an exponent if they follow. -/
def skipFractionOrEnd : Reader Unit := do
  match ← peek? with
  | some Byte.point =>
    skip
    if (← skipDigits) = 0 then stopAhead .invalidNumber
    else skipExponentOrEnd
  | _ => skipExponentOrEnd

/-- Passes a number behind its sign. -/
def skipNumber : Reader Unit := do
  let b ← next?
  if !(b.map Byte.isDigit).getD false then stop .invalidNumber
  else if b = some Byte.zero then
    if ((← peek?).map Byte.isDigit).getD false then stopAhead .invalidNumber
    else skipFractionOrEnd
  else
    let _ ← skipDigits
    skipFractionOrEnd

/-- Passes a string up to its closing quote, with at most `n` runs between escapes. -/
def skipRuns : Nat → Reader Unit
  | 0 => stop .endInString
  | n + 1 => do
    let _ ← plainRun
    match ← peek? with
    | none => stop .endInString
    | some Byte.quote => skip
    | some Byte.backslash =>
      skip
      match ← next? with
      | none => stop .endInString
      | some b =>
        if (letterEscape? b).isSome then skipRuns n
        else if b = Byte.smallU then
          let _ ← hexDigits
          skipRuns n
        else stop .invalidEscape
    | some _ => stop .controlCharacter

/-- Passes a string behind its opening quote. -/
def skipString : Reader Unit := do
  skipRuns ((← get).rest.length + 1)

/-! ## Values -/

/-- Passes the closing brackets that follow. The brackets that stay open come back if another
value follows inside the innermost; `afterValue` says that a comma must come before it. -/
def skipClosing (afterValue : Bool) : List Bracket → Reader (List Bracket)
  | [] => return []
  | bracket :: outer => do
    match ← ahead? with
    | none => stopAhead bracket.endFault
    | some b =>
      if b = Byte.comma ∧ afterValue then
        skip
        return bracket :: outer
      else if b = bracket.close then
        skip
        skipClosing true outer
      else if afterValue then stopAhead bracket.separatorFault
      else return bracket :: outer

/-- Passes a key and its colon. -/
def skipKey : Reader Unit := do
  match ← ahead? with
  | none => stopAhead .endInObject
  | some Byte.quote =>
    skip
    skipString
    colon
  | some _ => stopAhead .keyNotString

/-- Passes a word, number or string, or an opening bracket, and says which bracket it was. -/
def skipOpening : Reader (Option Bracket) := do
  match ← ahead? with
  | none => stopAhead .endInValue
  | some Byte.smallN =>
    skip
    restOfNull
    return none
  | some Byte.smallT =>
    skip
    restOfTrue
    return none
  | some Byte.smallF =>
    skip
    restOfFalse
    return none
  | some Byte.minus =>
    skip
    skipNumber
    return none
  | some Byte.quote =>
    skip
    skipString
    return none
  | some Byte.openBracket =>
    skip
    return some .list
  | some Byte.openBrace =>
    skip
    return some .object
  | some b =>
    if Byte.isDigit b then
      skipNumber
      return none
    else stopAhead .expectedValue

/-- Goes on with the next value inside the innermost open bracket, behind its key in an object. -/
def skipOnward (values : List Bracket → Reader Unit) : List Bracket → Reader Unit
  | [] => return
  | .list :: outer => values (.list :: outer)
  | .object :: outer => do
    skipKey
    values (.object :: outer)

/-- Passes the values that complete the innermost open bracket and those around it, at most `n`
opening brackets and atoms. -/
def skipWithin : Nat → List Bracket → Reader Unit
  | 0, _ => return
  | n + 1, stack => do
    match ← skipOpening with
    | some bracket => skipOnward (skipWithin n) (← skipClosing false (bracket :: stack))
    | none => skipOnward (skipWithin n) (← skipClosing true stack)

/-- Passes a value. -/
def skipValue : Reader Unit := do
  skipWithin ((← get).rest.length + 1) []

end Reader

end Gatehouse.Json
