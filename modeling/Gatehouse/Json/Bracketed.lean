import Gatehouse.Json.Lexeme

/-!
# Lists and objects

The punctuation of lists and objects: whether another item or key follows, what stands at the end,
and the loops over items and members, for any reader of the items. Every turn of a loop passes a
byte, so a loop takes no more turns than there are bytes left.
-/

namespace Gatehouse.Json.Reader

variable {α σ : Type}

/-! ## Punctuation -/

/-- Whether another item follows in a list; `first` before the first one. -/
def hasItem (first : Bool) : Reader Bool := do
  match ← ahead? with
  | none => stopAhead .endInList
  | some Byte.closeBracket => return false
  | some b =>
    if first then return true
    else if b = Byte.comma then
      skip
      match ← ahead? with
      | none => stopAhead .endInValue
      | some Byte.closeBracket => stopAhead .trailingComma
      | some _ => return true
    else stopAhead .expectedCommaOrBracket

/-- Whether another key follows in an object; `first` before the first one. -/
def hasKey (first : Bool) : Reader Bool := do
  match ← ahead? with
  | none => stopAhead .endInObject
  | some Byte.closeBrace => return false
  | some b =>
    if first then
      if b = Byte.quote then return true else stopAhead .keyNotString
    else if b = Byte.comma then
      skip
      match ← ahead? with
      | none => stopAhead .endInValue
      | some Byte.quote => return true
      | some Byte.closeBrace => stopAhead .trailingComma
      | some _ => stopAhead .keyNotString
    else stopAhead .expectedCommaOrBrace

/-- Passes the colon behind a key. -/
def colon : Reader Unit := do
  match ← ahead? with
  | none => stopAhead .endInObject
  | some Byte.colon => skip
  | some _ => stopAhead .expectedColon

/-- Takes the key that stands next. -/
def key : Reader String := do
  skip
  stringBody

/-- Passes the end of a list. -/
def closeList : Reader Unit := do
  match ← ahead? with
  | none => stopAhead .endInList
  | some Byte.closeBracket => skip
  | some Byte.comma =>
    skip
    match ← ahead? with
    | some Byte.closeBracket => stopAhead .trailingComma
    | _ => stopAhead .trailingCharacters
  | some _ => stopAhead .trailingCharacters

/-- Passes the end of an object. -/
def closeObject : Reader Unit := do
  match ← ahead? with
  | none => stopAhead .endInObject
  | some Byte.closeBrace => skip
  | some Byte.comma => stopAhead .trailingComma
  | some _ => stopAhead .trailingCharacters

/-! ## Loops -/

/-- At most `n` items. -/
def itemsUpTo (item : Reader α) : Nat → Bool → Reader (List α)
  | 0, _ => return []
  | n + 1, first => do
    if ← hasItem first then
      let a ← item
      let more ← itemsUpTo item n false
      return a :: more
    else return []

/-- The items of a list behind its bracket. -/
def items (item : Reader α) : Reader (List α) := do
  itemsUpTo item ((← get).rest.length + 1) true

/-- At most `n` members, each of which moves a state. The reader of a member gets the key and
stands before the colon. -/
def membersUpTo (member : String → σ → Reader σ) : Nat → Bool → σ → Reader σ
  | 0, _, s => return s
  | n + 1, first, s => do
    if ← hasKey first then
      let k ← key
      let s ← member k s
      membersUpTo member n false s
    else return s

/-- The members of an object behind its brace. -/
def members (member : String → σ → Reader σ) (s : σ) : Reader σ := do
  membersUpTo member ((← get).rest.length + 1) true s

/-- A list in its brackets, read behind the opening one. -/
def list (body : Reader α) : Reader α :=
  enclosed body closeList

/-- An object in its braces, read behind the opening one. -/
def object (body : Reader α) : Reader α :=
  enclosed body closeObject

end Gatehouse.Json.Reader
