/-!
# White space

The characters with the Unicode property White_Space, and trimming by them. The set is wider than
the six ASCII blanks and narrower than "prints nothing": the zero-width characters are not in it.
-/

namespace Gatehouse.Text

/-- Whether a character is white space. -/
def isBlank (c : Char) : Bool :=
  let n := c.toNat
  (0x9 ≤ n && n ≤ 0xD) || n == 0x20 || n == 0x85 || n == 0xA0 || n == 0x1680 ||
    (0x2000 ≤ n && n ≤ 0x200A) || n == 0x2028 || n == 0x2029 || n == 0x202F || n == 0x205F ||
    n == 0x3000

/-- The characters without the white space at either end. -/
def trimChars (cs : List Char) : List Char :=
  ((cs.dropWhile isBlank).reverse.dropWhile isBlank).reverse

/-- The text without the white space at either end. -/
def trim (s : String) : String :=
  String.ofList (trimChars s.toList)

/-- Whether a text has no character but white space. -/
def isAllBlank (s : String) : Bool :=
  s.toList.all isBlank

end Gatehouse.Text
