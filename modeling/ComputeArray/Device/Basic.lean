import ComputeArray.Device.Call

/-!
# Devices

A device keeps the bytes of its buffers, what its modules, layouts and pipelines were made of, and
the trace of its calls. Copies and passes are carried out at their submission. What a pass computes
is a parameter of the device: a recording device leaves every buffer as it is. The compiler accepts
sources, refuses them, or accepts them with messages.
-/

set_option autoImplicit false

namespace ComputeArray

structure Limits where
  workgroupSizeX : Int
  workgroupInvocations : Int
  workgroupsPerDimension : Int

/-- How a device compiles: all sources alike, or each as it answers for that source. -/
inductive Compiler where
  | accepting
  | refusing (message : String)
  /-- Messages with their severities. -/
  | reporting (messages : List (String × String))
  | judging (answers : String → Except String (List (String × String)))

/-- The messages about a source that is made a module, or the refusal of the source. -/
def Compiler.answer : Compiler → String → Except String (List (String × String))
  | accepting, _ => .ok []
  | refusing message, _ => .error message
  | reporting messages, _ => .ok messages
  | judging answers, source => answers source

/-- What passes compute: the bytes a pass leaves in the buffers of its slots, from the number of
passes run before, the pass itself and what its buffers hold. -/
abbrev Computing := Nat → Command → List Bytes → List Bytes

/-- The object with a number, the first one having number one. -/
def numbered {α : Type} (objects : Array α) : Nat → Option α
  | 0 => none
  | i + 1 => objects[i]?

/-- What a pipeline was made of. -/
structure PipelineParts where
  layout : Nat
  module : Nat
  constants : List (String × Value)

structure Device where
  features : List String
  limits : Limits
  destroyFailure : Option String
  compiler : Compiler
  computing : Computing
  /-- The bytes of all buffers, the first buffer being number one. -/
  buffers : Array Bytes
  /-- The sources of all modules, the entries of all layouts and the parts of all pipelines. -/
  modules : Array String
  layouts : Array (List LayoutEntry)
  pipelines : Array PipelineParts
  /-- The number of passes run. -/
  passCount : Nat
  /-- The number of command encoders created. -/
  encoders : Nat
  calls : Array Call

namespace Device

/-- The usage of array buffers: storage, copied from and to. -/
def storageUsage : Nat := 0x80 + 0x04 + 0x08

/-- The usage of read-back buffers: mapped for reading and copied to. -/
def stagingUsage : Nat := 0x01 + 0x08

/-- The usage of stride buffers: storage that is copied to. -/
def stridesUsage : Nat := 0x80 + 0x08

def halfFeature : String := "shader-f16"

/-- A new device with the given way to compute. -/
def createWith (computing : Computing) (features : List String) (limits : Limits)
    (destroyFailure : Option String) : Device :=
  ⟨features, limits, destroyFailure, .accepting, computing, #[], #[], #[], #[], 0, 0, #[]⟩

/-- A new recording device: its passes change nothing. -/
def create (features : List String) (limits : Limits) (destroyFailure : Option String) : Device :=
  createWith (fun _ _ held => held) features limits destroyFailure

def hasHalf (device : Device) : Bool := device.features.contains halfFeature

def record (call : Call) (device : Device) : Device :=
  { device with calls := device.calls.push call }

def bytesOf (device : Device) (buffer : Nat) : Bytes :=
  (numbered device.buffers buffer).getD (.zeros 0)

def sizeOf (device : Device) (buffer : Nat) : Nat := (device.bytesOf buffer).size

def setBytes (buffer : Nat) (bytes : Bytes) (device : Device) : Device :=
  match buffer with
  | 0 => device
  | i + 1 => { device with buffers := device.buffers.setIfInBounds i bytes }

def createBuffer (size usage : Nat) (device : Device) : Nat × Device :=
  let buffer := device.buffers.size + 1
  (buffer, { device with buffers := device.buffers.push (.zeros size) }.record
    (.createBuffer buffer size usage))

def createFilledBuffer (bytes : Bytes) (usage : Nat) (device : Device) : Nat × Device :=
  let buffer := device.buffers.size + 1
  (buffer, { device with buffers := device.buffers.push bytes }.record
    (.createFilledBuffer buffer bytes usage))

/-- Writes bytes to the start of a buffer. -/
def write (buffer : Nat) (bytes : Bytes) (device : Device) : Device :=
  (device.setBytes buffer ((device.bytesOf buffer).overwrite 0 bytes)).record
    (.write buffer bytes)

/-- The access a layout grants to its bindings. -/
def modesOf (device : Device) (layout : Nat) : List Mode :=
  ((numbered device.layouts layout).getD []).map fun (entry : LayoutEntry) => entry

/-- Stores what a pass has left in a slot, unless the slot is only read. -/
def storeResult (device : Device) (slot : Mode × Nat × Bytes) : Device :=
  let (mode, buffer, result) := slot
  if mode = .read then device
  else device.setBytes buffer ((device.bytesOf buffer).overwrite 0 result)

/-- Runs a pass on buffers bound by a layout. -/
def runPass (device : Device) (pass : Command) (layout : Nat) (buffers : List Nat) : Device :=
  let results := device.computing device.passCount pass (buffers.map device.bytesOf)
  ((device.modesOf layout).zip (buffers.zip results)).foldl storeResult
    { device with passCount := device.passCount + 1 }

/-- The state after one command. -/
def perform (device : Device) : Command → Device
  | .dispatch pipeline layout buffers groups =>
    device.runPass (.dispatch pipeline layout buffers groups) layout (buffers.map Prod.fst)
  | .copy source target size =>
    device.setBytes target
      ((device.bytesOf target).overwrite 0 ((device.bytesOf source).take size))

def submit (commands : List Command) (device : Device) : Device :=
  (commands.foldl perform device).record (.submit commands)

def createEncoder (device : Device) : Device :=
  { device with encoders := device.encoders + 1 }

/-- A module for a source with the messages about it, or the compiler's refusal. -/
def compile (source : String) (device : Device) :
    Except String (Nat × List (String × String)) × Device :=
  match device.compiler.answer source with
  | .error message => (.error message, device.record (.rejectSource source))
  | .ok messages =>
    let module := device.modules.size + 1
    (.ok (module, messages),
      { device with modules := device.modules.push source }.record (.compile module source))

def createLayout (label : String) (entries : List LayoutEntry) (device : Device) : Nat × Device :=
  let layout := device.layouts.size + 1
  (layout, { device with layouts := device.layouts.push entries }.record
    (.createLayout layout label entries))

def createPipeline (layout module : Nat) (constants : List (String × Value)) (device : Device) :
    Nat × Device :=
  let pipeline := device.pipelines.size + 1
  (pipeline, { device with pipelines := device.pipelines.push ⟨layout, module, constants⟩ }.record
    (.createPipeline pipeline layout module constants))

/-- Destroys the device, unless it refuses. -/
def destroy (device : Device) : Except String Device :=
  match device.destroyFailure with
  | some message => .error message
  | none => .ok (device.record .destroyDevice)

end Device

end ComputeArray
