import ComputeArray.Engine.Access
import ComputeArray.Engine.Submit
import ComputeArray.Kernel.Source
import ComputeArray.Kernel.Stream
import ComputeArray.Random.Stream

/-!
# Random generators

A generator holds one stream in each row of a device array. The first stream comes from the seed;
the others are derived on the device, a bounded number in each pass. A normal draw gives two samples
per stream; the second is kept for the next normal draw of the same element type.
-/

set_option autoImplicit false

namespace ComputeArray

namespace Generator

/-- The streams derived in one pass. -/
def chunk : Nat := 16

/-- The passes of one submission. -/
def passLimit : Nat := 256

def hexInt (n : Int) : String :=
  (if n < 0 then "-" else "") ++ "0x" ++ String.ofList (Text.hex 1 n.natAbs)

def shown (generator : Generator) : String :=
  s!"Xoshiro128pp(size={generator.size}, seed={hexInt generator.seed})"

def stateOperand : Kernel.Operand := ⟨some 0, ElementType.u32.name, ""⟩

def outOperand (slot : Nat) (element : ElementType) : Kernel.Operand :=
  ⟨some (slot : Int), element.name, ""⟩

/-- A pass over the streams in an array that writes the given arrays. -/
def dispatch (generator : Generator) (state : Nat) (kernel : Kernel) (outputs : List Nat) :
    Dispatch :=
  ⟨kernel.source, (.array state, .readWrite) :: outputs.map fun out => (.array out, .write),
    generator.size, []⟩

/-- Passes cut into submissions. -/
def passCounts (passes : Nat) : List Nat :=
  (List.range ((passes + passLimit - 1) / passLimit)).map fun i =>
    min passLimit (passes - i * passLimit)

end Generator

namespace Action

/-- Derives all streams but the first, each from the one before it. -/
def deriveStreams (size state : Nat) : Action Unit := do
  let cursor ← newArray (.int 1) (.text ElementType.u32.name) .none
  setValue cursor (.int 1) []
  let kernel := Kernel.Stream.derive Generator.stateOperand (Generator.outOperand 1 .u32)
    (Generator.chunk : Int)
  let pass : Dispatch :=
    ⟨kernel.source, [(.array state, .readWrite), (.array cursor, .readWrite)], 1, []⟩
  let passes := (size - 1 + Generator.chunk - 1) / Generator.chunk
  (Generator.passCounts passes).forM fun count => do
    let _ ← submit (List.replicate count pass) [] []
  modify (Engine.release cursor)

/-- A generator with a number of streams; without a seed it takes the given entropy. -/
def newGenerator (size seed entropy : Value) : Action Nat := do
  let size ← ofExcept size.toInt
  let seed ← ofExcept (match seed with
    | .none => entropy.toInt
    | seed => seed.toInt)
  let state ← newContiguous .u32 [size, 4]
  let _ ← ofExcept (ElementType.u32.hostBytes [size.toNat, 4])
  let first ← ofExcept (Random.seedState seed)
  let rest := List.replicate (4 * (size.toNat - 1)) 0
  setElements state (first.toList.map UInt32.toNat ++ rest)
  if 1 < size then deriveStreams size.toNat state
  modify (Engine.addGenerator state ⟨size.toNat, seed, none⟩)
  return state

def generator (state : Nat) : Action Generator := do
  return (← get).generator state

/-- Advances all streams by one step and gives one value for each. -/
def drawUniform (state : Nat) (elementName : Value) : Action Nat := do
  let generator ← generator state
  let element ← ofExcept (ElementType.ofValue elementName)
  if element = .i32 then throw .noDrawOf
  let out ← newContiguous element [(generator.size : Int)]
  let kernel := Kernel.Stream.draw (← get).workgroupSize Generator.stateOperand
    (some (Generator.outOperand 1 element))
  let _ ← submit [generator.dispatch state kernel [out]] [] []
  return out

/-- Advances all streams by one step. -/
def skipDraw (state : Nat) : Action Unit := do
  let generator ← generator state
  let kernel := Kernel.Stream.draw (← get).workgroupSize Generator.stateOperand none
  let _ ← submit [generator.dispatch state kernel []] [] []

/-- Takes the kept samples out, whatever their element type. -/
def takeKept (state : Nat) : Action (Option (ElementType × Nat)) :=
  modifyGet fun engine =>
    let generator := engine.generator state
    (generator.kept, engine.setGenerator state { generator with kept := none })

/-- Draws a pair of normal samples for each stream, giving the first and keeping the second. -/
def drawNormalPair (state : Nat) (element : ElementType) : Action Nat := do
  let generator ← generator state
  let first ← newContiguous element [(generator.size : Int)]
  let second ← newContiguous element [(generator.size : Int)]
  let kernel := Kernel.Stream.normalPair (← get).workgroupSize Generator.stateOperand
    (Generator.outOperand 1 element) (Generator.outOperand 2 element)
  let _ ← submit [generator.dispatch state kernel [first, second]] [] []
  modify (Engine.setGenerator state { generator with kept := some (element, second) })
  return first

/-- One normal sample for each stream. Kept samples of another element type are given up. -/
def drawNormal (state : Nat) (elementName : Value) : Action Nat := do
  let element ← ofExcept (ElementType.ofValue elementName)
  if !element.isFloat then throw (.noNormalOf element.name)
  match ← takeKept state with
  | some (kept, samples) =>
    if kept = element then return samples
    modify (Engine.release samples)
    drawNormalPair state element
  | none => drawNormalPair state element

end Action

end ComputeArray
