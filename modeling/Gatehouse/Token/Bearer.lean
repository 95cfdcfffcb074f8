import Gatehouse.Text.Blank

/-!
# Credentials in a header

The credential is what an authorization header holds apart from the scheme `Bearer`, which may be
missing, and from the white space around it.
-/

namespace Gatehouse.Token

/-- The scheme and the blank behind it, in lower case. -/
def scheme : List Char :=
  ['b', 'e', 'a', 'r', 'e', 'r', ' ']

/-- The characters behind the scheme, if they start with it in whatever ASCII case. -/
def dropScheme (cs : List Char) : List Char :=
  if (cs.take scheme.length).map Char.toLower = scheme then cs.drop scheme.length else cs

/-- The credential in the value of a header, unless it is empty. -/
def credential? (header : String) : Option String :=
  match Text.trimChars (dropScheme (Text.trimChars header.toList)) with
  | [] => none
  | cs => some (String.ofList cs)

end Gatehouse.Token
