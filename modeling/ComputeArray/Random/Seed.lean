import ComputeArray.Failure
import ComputeArray.Number.Word

/-!
# Seeding

A 64-bit counter advances by a fixed odd increment, and each output mixes the counter by two
multiplications and three xor-shifts. The state of a stream is two outputs, low words first.
-/

set_option autoImplicit false

namespace ComputeArray.Random

def increment : UInt64 := 0x9e3779b97f4a7c15

/-- The output made from a counter. -/
def mix (x : UInt64) : UInt64 :=
  let z := (x ^^^ (x >>> 30)) * 0xbf58476d1ce4e5b9
  let z := (z ^^^ (z >>> 27)) * 0x94d049bb133111eb
  z ^^^ (z >>> 31)

/-- One step of the counter, with the output it gives. -/
def splitMix (x : UInt64) : UInt64 × UInt64 := (x + increment, mix (x + increment))

/-- The four words of a stream's state. -/
structure StreamState where
  x : UInt32
  y : UInt32
  z : UInt32
  w : UInt32
  deriving DecidableEq, Repr, Inhabited

namespace StreamState

def zero : StreamState := ⟨0, 0, 0, 0⟩

def toList (s : StreamState) : List UInt32 := [s.x, s.y, s.z, s.w]

/-- The sum of two states as vectors of bits. -/
def xor (s t : StreamState) : StreamState := ⟨s.x ^^^ t.x, s.y ^^^ t.y, s.z ^^^ t.z, s.w ^^^ t.w⟩

end StreamState

def lowWord (x : UInt64) : UInt32 := x.toUInt32

def highWord (x : UInt64) : UInt32 := (x >>> 32).toUInt32

/-- The integer as a 64-bit word, higher bits dropped. -/
def wordOf (n : Int) : UInt64 := UInt64.ofNat (Word.pattern 64 n)

/-- The state expanded from a seed. -/
def expand (seed : UInt64) : StreamState :=
  let (x, a) := splitMix seed
  let (_, b) := splitMix x
  ⟨lowWord a, highWord a, lowWord b, highWord b⟩

def seedState (seed : Int) : Except Failure StreamState :=
  let state := expand (wordOf seed)
  if state = .zero then .error (.zeroState seed) else .ok state

end ComputeArray.Random
