import Gatehouse.Text.Case.Table

/-!
# Upper and lower case

Full case mapping, in which one character may become several. `asciiLower` is the narrower rule
that moves the twenty-six ASCII capitals and nothing else. The lower case of a sigma does not look
at its neighbours: both of its forms are non-ASCII, and no text is compared here with a
non-ASCII one.
-/

namespace Gatehouse.Text

open Case in
/-- A character under a case map given by the characters that become several and those that
become one other. -/
def Case.map (special : List (Nat × List Nat)) (runs : List Run) (c : Char) : List Char :=
  match special.lookup c.toNat with
  | some images => images.map Char.ofNat
  | none =>
    match runs.findSome? (·.image? c.toNat) with
    | some image => [Char.ofNat image]
    | none => [c]

/-- The upper case of a character. -/
def upperChar (c : Char) : List Char :=
  Case.map Case.raisedSpecial Case.raisedRuns c

/-- The lower case of a character. -/
def lowerChar (c : Char) : List Char :=
  Case.map Case.loweredSpecial Case.loweredRuns c

/-- The text in upper case. -/
def upper (s : String) : String :=
  String.ofList (s.toList.flatMap upperChar)

/-- The text in lower case. -/
def lower (s : String) : String :=
  String.ofList (s.toList.flatMap lowerChar)

/-- The text with its ASCII capitals made small and every other character as it is. -/
def asciiLower (s : String) : String :=
  String.ofList (s.toList.map Char.toLower)

end Gatehouse.Text
