import ComputeArray.Bytes.Basic
import ComputeArray.Text.Quoted

/-!
# Digests of byte vectors

Short vectors are shown in hexadecimal. Longer ones are shown by their length and a 32-bit hash that
multiplies by a prime after mixing in each byte.
-/

set_option autoImplicit false

namespace ComputeArray.Bytes

def hashPrime : UInt32 := 0x01000193

/-- The multiplicative hash, from its fixed offset basis. Mixing in a zero leaves only the
multiplication. -/
def hash (bytes : Bytes) : UInt32 :=
  let mixed : UInt32 :=
    bytes.written.foldl (fun h byte => (h ^^^ byte.toUInt32) * hashPrime) 0x811c9dc5
  Nat.repeat (· * hashPrime) (bytes.size - bytes.written.size) mixed

def hexText (bytes : Bytes) : String :=
  String.ofList (bytes.toArray.toList.flatMap fun byte => Text.hex 2 byte.toNat)

def digest (bytes : Bytes) : String :=
  if bytes.size ≤ 128 then bytes.hexText
  else s!"fnv:{bytes.size}:" ++ String.ofList (Text.hex 8 bytes.hash.toNat)

end ComputeArray.Bytes
