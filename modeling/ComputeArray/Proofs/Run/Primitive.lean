import ComputeArray.Engine.Construct
import ComputeArray.Engine.Generator
import ComputeArray.Engine.Lifetime
import ComputeArray.Proofs.Run.Elementary

/-!
# Primitive actions

Whatever callers ask of an engine is carried out by a few primitive actions, one after the other,
up to the first that fails. `MadeOf` says so of an action: from every state it leaves the state that
some list of primitives leaves. What every primitive preserves is then preserved by every action,
and the states between two primitives are the states an action passes through.
-/

set_option autoImplicit false

namespace ComputeArray

/-- The actions all others are made of. -/
inductive Primitive where
  | allocate (element : ElementType) (shape strides : List Nat) (customStrides : Bool)
      (count : Int)
  | stridesBuffer (strides : List Int)
  | submit (dispatches : List Dispatch) (helpers : List Nat) (copies : List (Nat × Nat))
  | setValue (buffer : Nat) (value : Value) (index : List Value)
  | setElements (buffer : Nat) (values : List Nat)
  | reshape (buffer : Nat) (extents : List Value)
  | send (buffer : Nat)
  | loadBlocking (buffer : Nat)
  | load (buffer : Nat)
  | createLayout (modes : List Mode)
  | createModule (source : String)
  | createPipeline (source : String) (modes : List Mode) (constants : List (String × Value))
  | release (buffer : Nat)
  | collect (arrays generators : List Nat)
  | setGenerator (state : Nat) (generator : Generator)
  | addGenerator (state : Nat) (generator : Generator)
  | synchronize (blocking : Bool)
  | retire (serial : Int)
  | markLost (arguments : List Value)
  | destroy
  | setCompiler (compiler : Compiler)
  | requestLoad (buffer : Nat)
  | startLoad (buffer : Nat)
  | finishLoad (buffer : Nat)
  | markDeviceDirty (buffer : Nat)
  | poke (buffer start : Nat) (bytes : Bytes)
  | replaceCalls (calls : Array Call)

namespace Primitive

def action : Primitive → Action Unit
  | allocate element shape strides customStrides count => do
    let _ ← Action.allocate element shape strides customStrides count
  | stridesBuffer strides => do let _ ← Action.stridesBuffer strides
  | submit dispatches helpers copies => do let _ ← Action.submit dispatches helpers copies
  | setValue buffer value index => Action.setValue buffer value index
  | setElements buffer values => Action.setElements buffer values
  | reshape buffer extents => Action.reshape buffer extents
  | send buffer => Action.send buffer
  | loadBlocking buffer => Action.loadBlocking buffer
  | load buffer => Action.load buffer
  | createLayout modes => do let _ ← Action.createLayout modes
  | createModule source => do let _ ← Action.createModule source
  | createPipeline source modes constants => do
    let _ ← Action.createPipeline source modes constants
  | release buffer => modify (Engine.release buffer)
  | collect arrays generators => modify (Engine.collect arrays generators)
  | setGenerator state generator => modify (Engine.setGenerator state generator)
  | addGenerator state generator => modify (Engine.addGenerator state generator)
  | synchronize blocking => Action.synchronize blocking
  | retire serial => modify (Engine.retire serial)
  | markLost arguments => Action.markLost arguments
  | destroy => Action.destroy
  | setCompiler compiler => Action.changeDevice fun device => { device with compiler }
  | requestLoad buffer => Action.requestLoad buffer
  | startLoad buffer => do let _ ← Action.startLoad buffer
  | finishLoad buffer => Action.finishLoad buffer
  | markDeviceDirty buffer => Action.markDeviceDirty buffer
  | poke buffer start bytes =>
    Action.changeDevice fun device =>
      device.setBytes buffer ((device.bytesOf buffer).overwrite start bytes)
  | replaceCalls calls =>
    Action.changeDevice fun device => { device with calls }

/-- Whether the primitive writes the host copy of an array. -/
def Stores : Primitive → Prop
  | setValue .. => True
  | setElements .. => True
  | _ => False

end Primitive

namespace Dispatch

/-- Kernels only read the buffers that have no host copy. -/
def ReadsPlain (dispatch : Dispatch) : Prop :=
  ∀ buffer mode, (Resource.plain buffer, mode) ∈ dispatch.bindings → mode = .read

end Dispatch

namespace Primitive

/-- A submission whose kernels write arrays only, or any other primitive that keeps to itself: no
part of an asynchronous load, and nothing done to the device or its flags from outside. -/
def Proper : Primitive → Prop
  | submit dispatches _ _ => ∀ dispatch ∈ dispatches, dispatch.ReadsPlain
  | requestLoad _ => False
  | startLoad _ => False
  | finishLoad _ => False
  | markDeviceDirty _ => False
  | poke .. => False
  | replaceCalls _ => False
  | _ => True

/-- A proper primitive that leaves host copies to their owners. -/
def Computes (primitive : Primitive) : Prop := primitive.Proper ∧ ¬ primitive.Stores

theorem Computes.proper {primitive : Primitive} (h : primitive.Computes) : primitive.Proper := h.1

end Primitive

namespace Engine

/-- The state after a primitive, whether it failed or not. -/
def after (engine : Engine) (primitive : Primitive) : Engine := stateAfter primitive.action engine

/-! Some primitives leave out what their action gives. -/

section Discards

variable (engine : Engine)

theorem after_allocate (element : ElementType) (shape strides : List Nat) (customStrides : Bool)
    (count : Int) : engine.after (.allocate element shape strides customStrides count) =
      stateAfter (Action.allocate element shape strides customStrides count) engine :=
  stateAfter_discard _ engine

theorem after_stridesBuffer (strides : List Int) :
    engine.after (.stridesBuffer strides) = stateAfter (Action.stridesBuffer strides) engine :=
  stateAfter_discard _ engine

theorem after_submit (dispatches : List Dispatch) (helpers : List Nat) (copies : List (Nat × Nat)) :
    engine.after (.submit dispatches helpers copies) =
      stateAfter (Action.submit dispatches helpers copies) engine :=
  stateAfter_discard _ engine

theorem after_createLayout (modes : List Mode) :
    engine.after (.createLayout modes) = stateAfter (Action.createLayout modes) engine :=
  stateAfter_discard _ engine

theorem after_createModule (source : String) :
    engine.after (.createModule source) = stateAfter (Action.createModule source) engine :=
  stateAfter_discard _ engine

theorem after_createPipeline (source : String) (modes : List Mode)
    (constants : List (String × Value)) : engine.after (.createPipeline source modes constants) =
      stateAfter (Action.createPipeline source modes constants) engine :=
  stateAfter_discard _ engine

theorem after_startLoad (buffer : Nat) :
    engine.after (.startLoad buffer) = stateAfter (Action.startLoad buffer) engine :=
  stateAfter_discard _ engine

end Discards

/-- The state after primitives carried out in turn. -/
def afterAll (engine : Engine) (primitives : List Primitive) : Engine :=
  primitives.foldl after engine

@[simp] theorem afterAll_nil (engine : Engine) : engine.afterAll [] = engine := rfl

@[simp] theorem afterAll_cons (engine : Engine) (primitive : Primitive) (rest : List Primitive) :
    engine.afterAll (primitive :: rest) = (engine.after primitive).afterAll rest :=
  rfl

theorem afterAll_append (engine : Engine) (first second : List Primitive) :
    engine.afterAll (first ++ second) = (engine.afterAll first).afterAll second :=
  List.foldl_append

end Engine

variable {α : Type} {allowed wider : Primitive → Prop}

/-- Some allowed primitives lead from one state to another. -/
def Leads (allowed : Primitive → Prop) (first last : Engine) : Prop :=
  ∃ primitives : List Primitive,
    (∀ primitive ∈ primitives, allowed primitive) ∧ last = first.afterAll primitives

namespace Leads

theorem refl (engine : Engine) : Leads allowed engine engine := ⟨[], by simp, rfl⟩

theorem trans {first middle last : Engine} (hfirst : Leads allowed first middle)
    (hlast : Leads allowed middle last) : Leads allowed first last := by
  obtain ⟨before, hbefore, rfl⟩ := hfirst
  obtain ⟨after, hafter, rfl⟩ := hlast
  refine ⟨before ++ after, ?_, (Engine.afterAll_append _ _ _).symm⟩
  intro primitive hmem
  rcases List.mem_append.mp hmem with hmem | hmem
  · exact hbefore primitive hmem
  · exact hafter primitive hmem

theorem mono {first last : Engine} (h : Leads allowed first last)
    (hwider : ∀ primitive, allowed primitive → wider primitive) : Leads wider first last := by
  obtain ⟨primitives, hallowed, rfl⟩ := h
  exact ⟨primitives, fun primitive hmem ↦ hwider primitive (hallowed primitive hmem), rfl⟩

end Leads

instance : Std.Refl (Leads allowed) := ⟨Leads.refl⟩

instance : IsTrans Engine (Leads allowed) := ⟨fun _ _ _ ↦ Leads.trans⟩

/-- From every state, allowed primitives lead to the state the action leaves. -/
abbrev MadeOf (allowed : Primitive → Prop) (m : Action α) : Prop := Moves (Leads allowed) m

namespace Moves

/-- An action that leaves the same state as an allowed primitive. -/
theorem single {m : Action α} (primitive : Primitive) (hallowed : allowed primitive)
    (h : ∀ engine, stateAfter m engine = engine.after primitive) : MadeOf allowed m :=
  fun engine ↦ ⟨[primitive], by simpa using hallowed, h engine⟩

end Moves

end ComputeArray
