import Gatehouse.Digest.Sha512

/-!
Keyed digests: HMAC over the digests of the SHA-2 family.
-/

namespace Gatehouse.Digest

/-- A digest function with the length of its blocks. -/
structure HashFunction where
  blockSize : Nat
  hash : List UInt8 → List UInt8

def sha256 : HashFunction := ⟨64, Sha256.hash⟩

def sha384 : HashFunction := ⟨128, Sha512.hash384⟩

def sha512 : HashFunction := ⟨128, Sha512.hash512⟩

/-- The key of exactly one block: a long key is hashed first, a short one is filled with zeros. -/
def blockKey (f : HashFunction) (key : List UInt8) : List UInt8 :=
  let k := if f.blockSize < key.length then f.hash key else key
  k ++ List.replicate (f.blockSize - k.length) 0

def hmac (f : HashFunction) (key message : List UInt8) : List UInt8 :=
  let k := blockKey f key
  f.hash (k.map (· ^^^ 0x5C) ++ f.hash (k.map (· ^^^ 0x36) ++ message))

end Gatehouse.Digest
