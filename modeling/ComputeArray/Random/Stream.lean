import ComputeArray.Kernel.Stream
import ComputeArray.Random.Seed

/-!
# Random streams

A stream is a state of four words. `step` gives the word of a state and the state after it; `jump`
is the sum of the states under the set bits of the jump polynomial, one step apart.
-/

set_option autoImplicit false

namespace ComputeArray.Random

def rotateLeft (x k : UInt32) : UInt32 := (x <<< k) ||| (x >>> (32 - k))

namespace StreamState

/-- The word a state gives. -/
def output (s : StreamState) : UInt32 := rotateLeft (s.x + s.w) 7 + s.x

/-- The state one step later. -/
def next (s : StreamState) : StreamState :=
  let t := s.y <<< 9
  let z := s.z ^^^ s.x
  let w := s.w ^^^ s.y
  let y := s.y ^^^ z
  let x := s.x ^^^ w
  ⟨x, y, z ^^^ t, rotateLeft w 11⟩

/-- The bits of the jump polynomial, lowest first. -/
def jumpBits : List Bool :=
  Kernel.Stream.jumpWords.flatMap fun word => (List.range 32).map word.testBit

/-- The sum of the states at the set bits, the first bit at `s`. -/
def sumAlong (bits : List Bool) (s sum : StreamState) : StreamState :=
  match bits with
  | [] => sum
  | bit :: rest => sumAlong rest s.next (if bit then sum.xor s else sum)

def jump (s : StreamState) : StreamState := sumAlong jumpBits s .zero

/-- The words of the next `count` steps, and the state after them. -/
def draw (count : Nat) (s : StreamState) : List UInt32 × StreamState :=
  match count with
  | 0 => ([], s)
  | count + 1 =>
    let (words, last) := draw count s.next
    (s.output :: words, last)

def jumpTimes (count : Nat) (s : StreamState) : StreamState :=
  match count with
  | 0 => s
  | count + 1 => jumpTimes count s.jump

/-- The state with the given words. -/
def ofList (words : List UInt32) : Except Failure StreamState :=
  match words with
  | [x, y, z, w] => .ok ⟨x, y, z, w⟩
  | words => .error (if words.length < 4 then .stateTooShort words.length else .stateTooLong)

end StreamState

/-- The words of `steps` steps after a number of jumps, and the state after them. Nothing is asked
of the words of a state that is neither jumped nor stepped. -/
def trace (words : List UInt32) (jumps steps : Nat) :
    Except Failure (List UInt32 × List UInt32) := do
  if jumps = 0 ∧ steps = 0 then return ([], words)
  let start ← StreamState.ofList words
  let (outputs, last) := (start.jumpTimes jumps).draw steps
  return (outputs, last.toList)

end ComputeArray.Random
