import ComputeArray.Kernel.Operand

/-!
# Kernels of random streams

Each lane owns one stream, a vector of four words. The kernels advance all streams by one step and
store what the step gives, derive further streams by the jump polynomial, or draw a pair of normal
samples from two steps.
-/

set_option autoImplicit false

namespace ComputeArray.Kernel.Stream

def stateItem (state : Operand) : Item := .array state.slot .readWrite "state" "vec4<u32>"

/-- A word turned to the left by `k` bits. -/
def rotateFunction : Function where
  name := "rotl"
  parameters := [("x", "u32"), ("k", "u32")]
  result := some "u32"
  body := [.result (.binary "|" (.group (.binary "<<" (.name "x") (.name "k")))
    (.group (.binary ">>" (.name "x") (.group (.binary "-" (.word 32) (.name "k"))))))]

/-- The high bits of a word under the exponent of one, less one. -/
def transplanted (cast : Expression → Expression) (shift exponentWidth exponent : Nat)
    (one : String) : Expression :=
  .binary "-" (cast (.binary "|" (.group (.binary ">>" (.name "x") (.word shift)))
    (.hexWord exponentWidth exponent))) (.literal one)

def toFloatFunction : Function where
  name := "to_float"
  parameters := [("x", "u32")]
  result := some "f32"
  body := [.result (transplanted (fun bits => .call "bitcast<f32>" [bits]) 9 8 0x3f800000 "1.0")]

def toHalfFunction : Function where
  name := "to_half"
  parameters := [("x", "u32")]
  result := some "f16"
  body := [.result
    (transplanted (fun bits => .member (.call "bitcast<vec2<f16>>" [bits]) "x") 22 4 0x3c00 "1.0h")]

def component (field : String) : Expression := .member (.name "s") field

def stateAt (position : Expression) : Expression := .index "state" position

/-- One step of stream `i`, giving the word of the step. -/
def advanceFunction : Function where
  name := "advance"
  parameters := [("i", "u32")]
  result := some "u32"
  body :=
    [.declare "s" (some "vec4<u32>") (stateAt lane),
      .define "result" (some "u32") (.binary "+"
        (.call "rotl" [.binary "+" (component "x") (component "w"), .word 7]) (component "x")),
      .define "t" (some "u32") (.binary "<<" (component "y") (.word 9)),
      .blank,
      .update "^" (component "z") (component "x"),
      .update "^" (component "w") (component "y"),
      .update "^" (component "y") (component "z"),
      .update "^" (component "x") (component "w"),
      .blank,
      .update "^" (component "z") (.name "t"),
      .assign (component "w") (.call "rotl" [component "w", .word 11]),
      .blank,
      .assign (stateAt lane) (.name "s"),
      .result (.name "result")]

def functions : List Item :=
  [.blank, .function rotateFunction, .blank, .function toFloatFunction, .blank,
    .function advanceFunction]

def advanced : Expression := .call "advance" [lane]

/-- What a step stores: the word itself, or the float in the unit interval made from it. -/
def drawStatement : Option Operand → Statement
  | none => .discard advanced
  | some out =>
    .assign (.index "out" lane)
      (if out.type = "u32" then advanced
      else if out.type = "f16" then .call "to_half" [advanced]
      else .call out.type [.call "to_float" [advanced]])

/-- Advances every stream by one step. -/
def draw (size : Int) (state : Operand) (out : Option Operand) : Kernel :=
  let half := out.any (·.type = "f16")
  let bound :=
    match out with
    | none => beyond "state"
    | some _ => .binary "||" (beyond "state") (beyond "out")
  ⟨[preamble out.toList, stateItem state]
    ++ [out.elim .blank (·.item "out" .readWrite)]
    ++ functions
    ++ [.blank, .blank]
    ++ (if half then [.function toHalfFunction, .blank] else [])
    ++ [.lanes size [laneNumber size, .stop bound, .blank, drawStatement out]]⟩

/-- The words of the jump polynomial. -/
def jumpWords : List Nat := [0x8764000b, 0xf542d2d3, 0x6fa035c3, 0x77f2db5b]

/-- A loop over a word from zero to a limit. -/
def countUp (counter : String) (limit : Int) (body : List Statement) : Statement :=
  .loop counter (.word 0) (.binary "<" (.name counter) (.word limit))
    (.binary "+" (.name counter) (.word 1)) body

/-- Moves stream `i` ahead by the jump polynomial: the states under the set bits are summed. -/
def jumpFunction : Function where
  name := "jump"
  parameters := [("i", "u32")]
  result := none
  body :=
    [.define "poly" none (.call "vec4<u32>" (jumpWords.map (.hexWord 8))),
      .declare "acc" none (.call "vec4<u32>" (List.replicate 4 (.word 0))),
      countUp "w" 4
        [countUp "b" 32
          [.branch (.binary "!=" (.group (.binary "&" (.index "poly" (.name "w"))
              (.group (.binary "<<" (.word 1) (.name "b"))))) (.word 0))
            [.update "^" (.name "acc") (stateAt lane)],
            .discard advanced]],
      .assign (stateAt lane) (.name "acc")]

/-- Derives up to `chunk` streams from the ones before them; the cursor is the next one due. -/
def derive (state cursor : Operand) (chunk : Int) : Kernel :=
  let cursorCell := Expression.index "cursor" (.literal "0")
  ⟨[.blank, stateItem state, .array cursor.slot .readWrite "cursor" "u32"]
    ++ functions
    ++ [.blank, .function jumpFunction, .blank,
      .single
        [.define "n" (some "u32") (.arrayLength "state"),
          .define "first" (some "u32") cursorCell,
          .define "last" (some "u32")
            (.call "min" [.binary "+" (.name "first") (.word chunk), .name "n"]),
          .loop "i" (.name "first") (.binary "<" lane (.name "last")) (.binary "+" lane (.word 1))
            [.assign (stateAt lane) (stateAt (.binary "-" lane (.word 1))),
              .run (.call "jump" [lane])],
          .assign cursorCell (.name "last")]]⟩

/-- A pair of normal samples for every stream, from two uniform draws. -/
def normalPair (size : Int) (state first second : Operand) : Kernel :=
  let uniform := Expression.call "to_float" [advanced]
  let sample (out : Operand) (turn : String) : Expression :=
    .call out.type [.binary "*" (.name "r") (.call turn [.name "theta"])]
  ⟨[preamble [first, second], stateItem state, first.item "out0" .readWrite,
      second.item "out1" .readWrite]
    ++ functions
    ++ [.blank, .constant "TAU" "f32" (.literal "6.283185307179586"), .blank,
      .lanes size
        [laneNumber size,
          .stop (.binary "||" (beyond "state") (beyond "out0")),
          .blank,
          .define "u1" (some "f32") uniform,
          .define "u2" (some "f32") uniform,
          .define "r" (some "f32") (.call "sqrt" [.binary "*" (.literal "-2.0")
            (.call "log" [.binary "-" (.literal "1.0") (.name "u1")])]),
          .define "theta" (some "f32") (.binary "*" (.name "TAU") (.name "u2")),
          .blank,
          .assign (.index "out0" lane) (sample first "cos"),
          .assign (.index "out1" lane) (sample second "sin")]]⟩

end ComputeArray.Kernel.Stream
