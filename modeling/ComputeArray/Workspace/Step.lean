import ComputeArray.Engine.Basic

/-!
# Steps of a workspace

A workspace names arrays and generators. A step makes an array, reads or changes one, or asks the
engine for something else. Steps may hold further steps, run while loads are outstanding or run
several times.
-/

set_option autoImplicit false

namespace ComputeArray

/-- A value that may refer to named arrays. -/
inductive Term where
  | value (value : Value)
  | reference (name : String)
  | list (items : List Term)
  deriving Inhabited

/-- Arguments for an operation, with the name of an output. -/
structure Operands where
  arguments : List Term
  out : Option String

/-- The ways to come by an array. -/
inductive Making where
  | layout (shape elementName strides : Term)
  | full (value shape elementName : Term)
  | range (arguments : List Term) (named : List (String × Term))
  | table (value : Term)
  | call (name : String) (operands : Operands)
  | elementwise (tag : String) (operands : Operands)
  | reduce (tag : String) (operands : Operands)
  | arithmetic (symbol : String) (left right : Term)
  | named (name : String)
  | reshaped (name : String) (extents : List Term)
  | uniform (generator : String) (elementName : Term)
  | normal (generator : String) (elementName : Term)

structure DispatchTerm where
  source : String
  bindings : List (String × Term)
  lanes : Int
  constants : List (String × Term)

inductive Step where
  /-- Makes an array and names it, or drops it if there is no name for it. -/
  | make (making : Making) (name : Option String)
  | makeGenerator (size seed entropy : Term) (name : Option String)
  | drop (name : String)
  | describe (name : String)
  | hostElements (name : String)
  | deviceBytes (name : String)
  /-- Overwrites bytes of the device buffer, as a kernel would, without telling the engine. -/
  | poke (name : String) (start : Nat) (bytes : Bytes)
  | set (name : String) (value : Term) (index : List Term)
  | element (name : String) (index : List Term)
  | hostElement (name : String) (index : List Term)
  | elements (name : String)
  | send (name : String)
  | loadBlocking (name : String)
  | markDeviceDirty (name : String)
  | release (name : String)
  /-- Loads arrays at the same time, with steps that run while the loads are outstanding. -/
  | load (names : List String) (during : List Step)
  | skip (generator : String)
  | describeGenerator (generator : String)
  | grid (lanes : Int)
  | synchronize (blocking : Bool)
  | retire (serial : Int)
  | destroy
  | markLost (arguments : List Term)
  | assertActive
  | describeEngine
  | describeCaches
  | setCompiler (compiler : Compiler)
  | createLayout (modes : Term)
  | createModule (source : String)
  | createPipeline (source : String) (modes : Term) (constants : List (String × Term))
  | submit (dispatches : List DispatchTerm) (copies : List (String × String))
  | repeated (count : Nat) (steps : List Step)

end ComputeArray
