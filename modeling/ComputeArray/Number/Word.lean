/-!
# Powers and machine words

Powers of two and of ten, and the integers a machine word of a number of bits stands for, with and
without sign. An integer outside the range of a word wraps around.
-/

set_option autoImplicit false

namespace ComputeArray

def twoTo (n : Nat) : Nat := Nat.pow 2 n

def tenTo (n : Nat) : Nat := Nat.pow 10 n

namespace Word

/-- Whether a signed word of `bits` bits holds an integer. -/
def holdsSigned (bits : Nat) (n : Int) : Bool :=
  -(twoTo (bits - 1) : Int) ≤ n && n < twoTo (bits - 1)

/-- Whether an unsigned word of `bits` bits holds an integer. -/
def holdsUnsigned (bits : Nat) (n : Int) : Bool := 0 ≤ n && n < twoTo bits

/-- The integer a signed word stands for after an integer has been put into it. -/
def wrapSigned (bits : Nat) (n : Int) : Int := Int.bmod n (twoTo bits)

/-- The pattern of an integer in a word, higher bits dropped. -/
def pattern (bits : Nat) (n : Int) : Nat := (n % twoTo bits).toNat

/-- The least integer of a signed word. -/
def least (bits : Nat) : Int := -(twoTo (bits - 1) : Int)

end Word

end ComputeArray
