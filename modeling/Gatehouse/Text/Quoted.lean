import Gatehouse.Text.Printable

/-!
# Quoted text

The text of a value as diagnostics show it: in double quotes, with an escape for whatever would
not be seen or would be taken for a quote. A character that has no printed form of its own, or
that would merge with the one before it, is written as its code point in braces.
-/

namespace Gatehouse.Text

/-- A code point in lower-case hexadecimal between braces. -/
def codePoint (n : Nat) : List Char :=
  '\\' :: 'u' :: '\x7b' :: Nat.toDigits 16 n ++ ['\x7d']

/-- A character as it stands between the quotes. -/
def quoteChar (c : Char) : List Char :=
  if c = '\x00' then ['\\', '0']
  else if c = '\t' then ['\\', 't']
  else if c = '\r' then ['\\', 'r']
  else if c = '\n' then ['\\', 'n']
  else if c = '"' then ['\\', '"']
  else if c = '\\' then ['\\', '\\']
  else if combining.holds c.toNat || unprinted.holds c.toNat then codePoint c.toNat
  else [c]

/-- The text in double quotes, escaped. -/
def quoted (s : String) : String :=
  String.ofList ('"' :: s.toList.flatMap quoteChar ++ ['"'])

end Gatehouse.Text
