/-!
# UTF-8

`Utf8.encode` gives the bytes of a text and `Utf8.decode` the text of some bytes. Bytes that are
not UTF-8 are refused with the place and the length of the first ill-formed part: a maximal
subpart of one to three bytes, or an end of input inside a character that was well formed so far.
-/

namespace Gatehouse.Utf8

/-- Where some bytes stop being UTF-8. -/
structure Fault where
  /-- The length of the longest well-formed prefix that ends at a character boundary. -/
  index : Nat
  /-- The length of the ill-formed subpart there; none when the bytes end inside a character. -/
  span : Option Nat
deriving DecidableEq, Repr

def Fault.message (f : Fault) : String :=
  match f.span with
  | some n => s!"invalid utf-8 sequence of {n} bytes from index {f.index}"
  | none => s!"incomplete utf-8 byte sequence from index {f.index}"

/-- The bytes of a list of characters. -/
def encodeChars (cs : List Char) : List UInt8 :=
  cs.flatMap String.utf8EncodeChar

/-- The bytes of a text. -/
def encode (s : String) : List UInt8 :=
  encodeChars s.toList

@[simp] theorem encodeChars_nil : encodeChars [] = [] := rfl

theorem encodeChars_cons (c : Char) (cs : List Char) :
    encodeChars (c :: cs) = String.utf8EncodeChar c ++ encodeChars cs := rfl

theorem encodeChars_append (cs ds : List Char) :
    encodeChars (cs ++ ds) = encodeChars cs ++ encodeChars ds := by
  simp [encodeChars]

theorem encode_append (s t : String) : encode (s ++ t) = encode s ++ encode t := by
  simp [encode, encodeChars_append]

/-- What a lead byte asks of the bytes after it. -/
structure Lead where
  /-- The least second byte. -/
  low : UInt8
  /-- The greatest second byte. -/
  high : UInt8
  /-- How many bytes follow the second one. -/
  more : Nat

/-- The demands of a byte that starts a character of two or more bytes. The bounds on the second
byte rule out overlong forms, surrogates and code points past the last one. -/
def lead? (b : UInt8) : Option Lead :=
  if b < 0xC2 then none
  else if b ≤ 0xDF then some ⟨0x80, 0xBF, 0⟩
  else if b = 0xE0 then some ⟨0xA0, 0xBF, 1⟩
  else if b = 0xED then some ⟨0x80, 0x9F, 1⟩
  else if b ≤ 0xEF then some ⟨0x80, 0xBF, 1⟩
  else if b = 0xF0 then some ⟨0x90, 0xBF, 2⟩
  else if b ≤ 0xF3 then some ⟨0x80, 0xBF, 2⟩
  else if b = 0xF4 then some ⟨0x80, 0x8F, 2⟩
  else none

/-- Whether a byte continues a character. -/
def isTail (b : UInt8) : Bool :=
  0x80 ≤ b && b ≤ 0xBF

/-- The six bits that a continuation byte carries. -/
def tailBits (b : UInt8) : Nat :=
  b.toNat % 64

/-- The characters of some bytes that stand at offset `i` of the input. -/
def decodeFrom (i : Nat) : List UInt8 → Except Fault (List Char)
  | [] => .ok []
  | b :: rest =>
    if b < 0x80 then
      (decodeFrom (i + 1) rest).map (Char.ofNat b.toNat :: ·)
    else
      match lead? b with
      | none => .error ⟨i, some 1⟩
      | some l =>
        match rest with
        | [] => .error ⟨i, none⟩
        | c :: rest =>
          if c < l.low || l.high < c then .error ⟨i, some 1⟩
          else if l.more = 0 then
            (decodeFrom (i + 2) rest).map
              (Char.ofNat (b.toNat % 32 * 64 + tailBits c) :: ·)
          else
            match rest with
            | [] => .error ⟨i, none⟩
            | d :: rest =>
              if !isTail d then .error ⟨i, some 2⟩
              else if l.more = 1 then
                (decodeFrom (i + 3) rest).map
                  (Char.ofNat ((b.toNat % 16 * 64 + tailBits c) * 64 + tailBits d) :: ·)
              else
                match rest with
                | [] => .error ⟨i, none⟩
                | e :: rest =>
                  if !isTail e then .error ⟨i, some 3⟩
                  else
                    (decodeFrom (i + 4) rest).map
                      (Char.ofNat
                        (((b.toNat % 8 * 64 + tailBits c) * 64 + tailBits d) * 64 +
                          tailBits e) :: ·)

/-- The text of some bytes. -/
def decode (bs : List UInt8) : Except Fault String :=
  (decodeFrom 0 bs).map String.ofList

end Gatehouse.Utf8
