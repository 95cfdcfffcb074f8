import Gatehouse.Hash.Sha256

/-!
# Keyed hashes

The authentication code of a message under a key: a hash of the key and of the hash of the key and
the message, where the key is brought to the length of a block and masked in two ways.
-/

namespace Gatehouse.Hmac

/-- A key of the length of a block. A longer key is replaced by its hash. -/
def blockKey (key : List UInt8) : List UInt8 :=
  let key := if 64 < key.length then Sha256.digest key else key
  key ++ List.replicate (64 - key.length) 0

/-- The authentication code of a message under a key. -/
def code (key message : List UInt8) : List UInt8 :=
  let key := blockKey key
  let inner := Sha256.digest (key.map (· ^^^ 0x36) ++ message)
  Sha256.digest (key.map (· ^^^ 0x5c) ++ inner)

end Gatehouse.Hmac
