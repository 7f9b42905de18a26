import ComputeArray.Bytes.Basic
import ComputeArray.Value.Truth

/-!
# Calls to a device

What an engine asks of its device, one constructor for each kind of call. Objects are known by
numbers that count from one for each kind of object. The trace of all calls is the part of an
engine's behaviour an observer of the device can see.
-/

set_option autoImplicit false

namespace ComputeArray

/-- The commands of a submission. -/
inductive Command where
  /-- Runs a pipeline over buffers, each with its size, in a grid of workgroups. -/
  | dispatch (pipeline layout : Nat) (buffers : List (Nat × Nat)) (groups : Int × Int)
  | copy (source target size : Nat)

/-- How a kernel accesses a binding. -/
inductive Mode where
  | read
  | write
  | readWrite
  deriving DecidableEq

namespace Mode

/-- Any word but the first two grants full access. -/
def ofText (text : String) : Mode :=
  match text with
  | "read" => .read
  | "write" => .write
  | _ => .readWrite

/-- A value that is no text is no word for a lesser access either. -/
def ofScalar : Value → Mode
  | .text text => ofText text
  | _ => .readWrite

/-- The mode a value gives; a table gives that of its only cell. -/
def ofValue : Value → Except Failure Mode
  | .table _ _ cells => (Value.onlyCell cells).map ofScalar
  | value => .ok (ofScalar value)

/-- The letter of a mode in a layout's signature: layouts only tell reading from the rest. -/
def letter : Mode → Char
  | .read => 'r'
  | _ => 'w'

end Mode

/-- The signature of a list of modes. -/
def signatureOf (modes : List Mode) : String := String.ofList (modes.map Mode.letter)

/-- What a layout says of a binding: the stages that see it, the type of the buffer, and whether an
offset is given with each pass. -/
structure LayoutEntry where
  binding : Nat
  visibility : Nat
  type : String
  dynamicOffset : Bool
  deriving DecidableEq

namespace LayoutEntry

/-- The stage that runs kernels. -/
def computeStage : Nat := 0x4

/-- The entry of a binding that is accessed with a mode. -/
def ofMode (binding : Nat) (mode : Mode) : LayoutEntry :=
  ⟨binding, computeStage, if mode = .read then "read-only-storage" else "storage", false⟩

/-- The access an entry grants: all there is, or reading alone. -/
def access (entry : LayoutEntry) : Mode :=
  if entry.type = "read-only-storage" then .read else .readWrite

/-- Where a mode is asked for, an entry stands for the access it grants. -/
instance : Coe LayoutEntry Mode := ⟨access⟩

end LayoutEntry

/-- The entries of the layout for a list of modes. -/
def entriesOf (modes : List Mode) : List LayoutEntry := modes.mapIdx LayoutEntry.ofMode

inductive Call where
  | createBuffer (buffer size usage : Nat)
  | createFilledBuffer (buffer : Nat) (bytes : Bytes) (usage : Nat)
  | write (buffer : Nat) (bytes : Bytes)
  | compile (module : Nat) (source : String)
  | rejectSource (source : String)
  | createLayout (layout : Nat) (label : String) (entries : List LayoutEntry)
  | createPipeline (pipeline layout module : Nat) (constants : List (String × Value))
  | submit (commands : List Command)
  | map (buffer size : Nat) (blocking : Bool)
  | unmap (buffer : Nat)
  | destroyBuffer (buffer : Nat)
  | awaitQueue (blocking : Bool)
  | destroyDevice

namespace Call

/-- The word for the kind of a call. -/
def kind : Call → String
  | .createBuffer .. => "buffer"
  | .createFilledBuffer .. => "buffer_data"
  | .write .. => "write"
  | .compile .. => "shader"
  | .rejectSource _ => "shader_error"
  | .createLayout .. => "layout"
  | .createPipeline .. => "pipeline"
  | .submit _ => "submit"
  | .map .. => "map"
  | .unmap _ => "unmap"
  | .destroyBuffer _ => "destroy"
  | .awaitQueue blocking => if blocking then "wait" else "wait_async"
  | .destroyDevice => "device_destroy"

/-- Puts a destruction into its place among those the list begins with. -/
def insertDestruction (buffer : Nat) : List Call → List Call
  | .destroyBuffer other :: rest =>
    if buffer ≤ other then .destroyBuffer buffer :: .destroyBuffer other :: rest
    else .destroyBuffer other :: insertDestruction buffer rest
  | rest => .destroyBuffer buffer :: rest

/-- The calls with each run of consecutive destructions in the order of their buffers. -/
def arranged : List Call → List Call
  | [] => []
  | .destroyBuffer buffer :: rest => insertDestruction buffer (arranged rest)
  | call :: rest => call :: arranged rest

end Call

end ComputeArray
