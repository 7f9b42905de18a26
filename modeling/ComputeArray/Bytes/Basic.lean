/-!
# Byte vectors

Host storage and device buffers are vectors of bytes, zero where nothing has been written. Only the
bytes up to the last one written are kept, so that a fresh vector takes no room whatever its size.
Elements of one, two or four bytes lie at multiples of their width, least byte first.
-/

set_option autoImplicit false

namespace ComputeArray

structure Bytes where
  size : Nat
  /-- The bytes from the first one on; all later ones are zero. -/
  written : Array UInt8
  deriving Inhabited

namespace Bytes

def zeros (size : Nat) : Bytes := ⟨size, #[]⟩

def ofArray (bytes : Array UInt8) : Bytes := ⟨bytes.size, bytes⟩

def get (bytes : Bytes) (i : Nat) : UInt8 :=
  if i < bytes.size then bytes.written.getD i 0 else 0

/-- The first `count` bytes, as many as there are. -/
def take (bytes : Bytes) (count : Nat) : Bytes :=
  ⟨min count bytes.size, bytes.written.extract 0 count⟩

def toArray (bytes : Bytes) : Array UInt8 :=
  bytes.written ++ Array.replicate (bytes.size - bytes.written.size) 0

/-- Replaces a byte; outside the vector there is nothing to replace. -/
def set (bytes : Bytes) (i : Nat) (byte : UInt8) : Bytes :=
  match bytes with
  | ⟨size, written⟩ =>
    if size ≤ i then ⟨size, written⟩
    else if i < written.size then ⟨size, written.setIfInBounds i byte⟩
    else ⟨size, (written ++ Array.replicate (i - written.size) 0).push byte⟩

/-- The number whose base 256 digits are `width` bytes from `start` on, least byte first. -/
def number (bytes : Bytes) (start : Nat) : Nat → Nat
  | 0 => 0
  | width + 1 => (bytes.get start).toNat + 256 * number bytes (start + 1) width

/-- Writes a number into `width` bytes from `start` on. -/
def putNumber (bytes : Bytes) (start n : Nat) : Nat → Bytes
  | 0 => bytes
  | width + 1 => putNumber (bytes.set start (UInt8.ofNat n)) (start + 1) (n / 256) width

/-- The element at a position, all elements having the same width. -/
def element (bytes : Bytes) (width position : Nat) : Nat := bytes.number (position * width) width

def putElement (bytes : Bytes) (width position n : Nat) : Bytes :=
  bytes.putNumber (position * width) n width

/-- The first `count` elements. -/
def elements (bytes : Bytes) (width count : Nat) : List Nat :=
  (List.range count).map (bytes.element width)

/-- Writes elements at the given positions, one after the other. -/
def putElements (bytes : Bytes) (width : Nat) : List (Nat × Nat) → Bytes
  | [] => bytes
  | (position, n) :: rest => putElements (bytes.putElement width position n) width rest

/-- Writes the same element at the first `count` positions. -/
def fill (bytes : Bytes) (width n count : Nat) : Bytes :=
  count.fold (fun position _ bytes => bytes.putElement width position n) bytes

/-- Overwrites the bytes from `start` on with others, as far as they lie inside. -/
def overwrite (bytes : Bytes) (start : Nat) (patch : Bytes) : Bytes :=
  if start = 0 ∧ patch.size = bytes.size then patch
  else patch.size.fold (fun i _ bytes => bytes.set (start + i) (patch.get i)) bytes

/-- Words of four bytes each. -/
def ofWords (words : List Nat) : Bytes :=
  (zeros (4 * words.length)).putElements 4 ((List.range words.length).zip words)

end Bytes

end ComputeArray
