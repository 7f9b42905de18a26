import ComputeArray.Engine.Describe
import ComputeArray.Engine.Lifetime
import ComputeArray.Workspace.Step

/-!
# Workspaces

A workspace is an engine with names for arrays and generators. An array lives as long as a name, a
generator or an outstanding load leads to it.
-/

set_option autoImplicit false

namespace ComputeArray

/-- What a name stands for. -/
inductive Handle where
  | array (buffer : Nat)
  | generator (state : Nat)
  deriving DecidableEq

structure Workspace where
  engine : Engine
  names : List (String × Handle)

/-- What a step answers. -/
inductive Answer where
  | nothing
  | value (value : Value)
  | array (description : ArrayDescription)
  | elements (element : ElementType) (shape : List Nat) (bits : List Nat)
  | bytes (bytes : Bytes)
  | engine (description : EngineDescription)
  | caches (description : CacheDescription)
  | generator (text : String)
  | generatorState (generator : Generator) (state : ArrayDescription) (host : List Nat)
      (hostDirty deviceDirty : Bool)
  | reports (reports : List (Except Failure Answer))
  | rounds (last : List (Except Failure Answer)) (counts : List (String × Nat))

abbrev Report := Except Failure Answer

/-- Steps act on the workspace and may fail. -/
abbrev Session (α : Type) := ExceptT Failure (StateM Workspace) α

namespace Workspace

def arrays (workspace : Workspace) : List (String × Nat) :=
  workspace.names.filterMap fun (name, handle) =>
    match handle with
    | .array buffer => some (name, buffer)
    | .generator _ => none

def generators (workspace : Workspace) : List (String × Nat) :=
  workspace.names.filterMap fun (name, handle) =>
    match handle with
    | .array _ => none
    | .generator state => some (name, state)

def bind (name : String) (handle : Handle) (workspace : Workspace) : Workspace :=
  { workspace with names := (workspace.names.filter (·.1 ≠ name)) ++ [(name, handle)] }

def unbind (name : String) (workspace : Workspace) : Workspace :=
  { workspace with names := workspace.names.filter (·.1 ≠ name) }

/-- Releases what no name leads to any more. -/
def collect (workspace : Workspace) : Workspace :=
  { workspace with
    engine := workspace.engine.collect (workspace.arrays.map Prod.snd)
      (workspace.generators.map Prod.snd) }

end Workspace

namespace Session

/-- Lets the engine act. -/
def act {α : Type} (action : Action α) : Session α :=
  ExceptT.mk fun workspace =>
    let (result, engine) := action.run.run workspace.engine
    (result, { workspace with engine })

def ofExcept {α : Type} (result : Except Failure α) : Session α := MonadExcept.ofExcept result

def handle (name : String) : Session Handle := do
  match (← get).names.lookup name with
  | some handle => return handle
  | none => throw (.missingKey name)

/-- The array of a name. -/
def array (name : String) : Session Nat := do
  match ← handle name with
  | .array buffer => return buffer
  | .generator _ => throw (.missingKey name)

/-- The array of a name as a value. -/
def arrayValue (name : String) : Session Value := do
  let buffer ← array name
  return .array buffer ((← get).engine.array buffer).shown

/-- The generator of a name. -/
def generator (name : String) : Session Nat := do
  match ← handle name with
  | .generator state => return state
  | .array _ => throw (.missingKey name)

mutual

def resolve : Term → Session Value
  | .value value => return value
  | .reference name => arrayValue name
  | .list items => return .list (← resolveAll items)

def resolveAll : List Term → Session (List Value)
  | [] => return []
  | item :: rest => return (← resolve item) :: (← resolveAll rest)

end

/-- Named values. -/
def resolveNamed : List (String × Term) → Session (List (String × Value))
  | [] => return []
  | (name, term) :: rest => return (name, ← resolve term) :: (← resolveNamed rest)

/-- Arguments of a step; in a repeated step the text `$i` is the number of the round. -/
def resolveArguments (round : Option Nat) (arguments : List Term) : Session (List Value) := do
  let values ← resolveAll arguments
  match round with
  | none => return values
  | some i => return values.map fun
    | .text "$i" => .int i
    | value => value

def describeArray (buffer : Nat) : Session Answer := do
  return .array (← ofExcept ((← get).engine.describeArray buffer))

end Session

end ComputeArray
