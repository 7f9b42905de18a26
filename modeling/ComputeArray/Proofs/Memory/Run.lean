import ComputeArray.Proofs.Memory.Access
import ComputeArray.Proofs.Memory.Submit
import ComputeArray.Proofs.Run.Allocation

/-!
# Memory along a run

Every proper primitive keeps the copies of all arrays coherent. It changes the content of the arrays
it touches only: those it stores in, and those written by the passes and the copies it submits
(`steady_after`).
-/

set_option autoImplicit false

namespace ComputeArray

open Engine

variable {touched : Nat → Prop} {engine : Engine}

namespace Primitive

/-- The array a primitive stores in, and how. -/
def stored? : Primitive → Option (Nat × (ArrayState → Except Failure ArrayState))
  | setValue buffer value index => some (buffer, (·.setValue index value))
  | setElements buffer values => some (buffer, (·.setAll values))
  | _ => none

/-- The arrays whose content a primitive may change. -/
def Touches : Primitive → Nat → Prop
  | submit dispatches _ copies, buffer => buffer ∈ writtenBy dispatches copies
  | setValue target _ _, buffer => buffer = target
  | setElements target _, buffer => buffer = target
  | _, _ => False

end Primitive

/-! ### Arrays that come and go -/

theorem steady_addArray {buffer : Nat} {array : ArrayState}
    (h : array.CoherentOn engine.device buffer) :
    Steady (· = buffer) engine (engine.addArray buffer array) := by
  intro hcoherent
  refine ⟨fun other found hlookup ↦ ?_, fun other found hlookup htouched ↦ ?_⟩
  · rcases lookup_of_lookup_append_singleton hlookup with hold | ⟨rfl, rfl⟩
    · exact hcoherent other found hold
    · exact h
  · rcases lookup_of_lookup_append_singleton hlookup with hold | ⟨hother, -⟩
    · refine ⟨⟨found, hold⟩, ?_⟩
      rw [content_of_lookup hlookup, content_of_lookup hold]
      rfl
    · exact absurd hother htouched

theorem steady_createBuffer (size usage : Nat) (engine : Engine) :
    Steady touched engine { engine with device := (engine.device.createBuffer size usage).2 } := by
  refine .of_device (fun _ ↦ rfl) ?_ fun buffer hle ↦ Device.bytesOf_push _ hle
  exact Nat.le_trans (Nat.le_succ _) (Nat.le_of_eq (Array.size_push _).symm)

/-- A new array is zero-filled on both sides. -/
theorem coherentOn_fresh (element : ElementType) (shape strides : List Nat) (customStrides : Bool)
    (count : Int) (size : Nat) (device : Device) :
    (ArrayState.fresh element shape strides customStrides count size).CoherentOn
      (device.createBuffer size Device.storageUsage).2 (device.buffers.size + 1) := by
  have hnew : (device.createBuffer size Device.storageUsage).2.bytesOf (device.buffers.size + 1) =
      .zeros size := Device.bytesOf_push_new _ _
  refine ⟨Nat.succ_pos _, Nat.le_of_eq (Array.size_push _).symm, ?_, ?_, ?_, rfl⟩
  · rw [Device.sizeOf, hnew]
    rfl
  · rintro ⟨h, -⟩
    cases h
  · intro _ _
    rw [hnew]
    exact .refl _

/-- A new array comes to be at the next buffer. -/
theorem steady_allocate (element : ElementType) (shape strides : List Nat) (customStrides : Bool)
    (count : Int) :
    Steady (· = engine.device.buffers.size + 1) engine
      (stateAfter (Action.allocate element shape strides customStrides count) engine) := by
  rcases allocate_cases element shape strides customStrides count engine with
    ⟨-, hsame⟩ | ⟨size, -, -, -, hafter⟩
  · rw [hsame]
    exact .refl engine
  · rw [hafter]
    exact (steady_createBuffer size Device.storageUsage engine).trans
      (steady_addArray (coherentOn_fresh element shape strides customStrides count size _))

/-- Stride buffers are no arrays. -/
theorem steady_stridesBuffer (strides : List Int) :
    Moves (Steady touched) (Action.stridesBuffer strides) := by
  refine .bind (.ofExcept _) fun words ↦ .bind .assertActive fun _ ↦ fun engine ↦ ?_
  refine .of_device (fun _ ↦ rfl) ?_ fun buffer hle ↦ Device.bytesOf_push _ hle
  exact Nat.le_trans (Nat.le_succ _) (Nat.le_of_eq (Array.size_push _).symm)

/-- Releasing an array leaves its content alone. -/
theorem steady_release (buffer : Nat) (engine : Engine) :
    Steady touched engine (engine.release buffer) := by
  obtain ⟨-, h⟩ | ⟨-, _, h, -⟩ := release_cases buffer engine
  · rw [h]
    exact .refl engine
  · rw [h]
    refine Steady.trans (steady_setArray fun old hold hcopies ↦ ?_) (.of_memory_eq rfl)
    rw [array_of_lookup hold]
    refine ⟨⟨hcopies.pos, hcopies.le, hcopies.size, hcopies.exclusive, hcopies.agreeing,
      hcopies.idle⟩, fun _ ↦ ?_⟩
    rw [content_of_lookup hold]

/-- Collecting forgets arrays, and changes the content of none. -/
theorem steady_collect (arrays generators : List Nat) (engine : Engine) :
    Steady touched engine (engine.collect arrays generators) := by
  refine collect_of (fun _ _ ↦ .of_memory_eq rfl) steady_release (fun keep engine hcoherent ↦ ?_)
    arrays generators engine
  refine ⟨fun buffer found hlookup ↦ ?_, fun buffer found hlookup _ ↦ ?_⟩
  · exact hcoherent buffer found (lookup_of_lookup_filter hlookup)
  · have hold := lookup_of_lookup_filter hlookup
    refine ⟨⟨found, hold⟩, ?_⟩
    rw [content_of_lookup hlookup, content_of_lookup hold]

/-! ### The device -/

theorem memory_markLost (wanted : Bool) (reason message : Value) (engine : Engine) :
    (engine.markLost wanted reason message).memory = engine.memory := by
  rcases markLost_cases wanted reason message engine with ⟨-, hsame⟩ | ⟨-, log, hmarked⟩
  · rw [hsame]
  · rw [hmarked]
    rfl

theorem memory_markLostAction (arguments : List Value) (engine : Engine) :
    (stateAfter (Action.markLost arguments) engine).memory = engine.memory := by
  simp only [Action.markLost, stateAfter_bind, outcomeOf_actionOfExcept, stateAfter_actionOfExcept]
  cases Action.lossSignature.bind arguments [] with
  | error failure => rfl
  | ok values =>
    simp only [outcomeOf_get, stateAfter_get]
    split
    · rfl
    · rw [stateAfter_bind, outcomeOf_actionOfExcept, stateAfter_actionOfExcept]
      cases (values.getD 0 .none).equalsText Engine.destroyedReason with
      | error failure => rfl
      | ok wanted => exact memory_markLost _ _ _ _

theorem memory_destroy (engine : Engine) :
    (stateAfter Action.destroy engine).memory = engine.memory := by
  rcases destroy_cases engine with hsame | ⟨-, hafter⟩
  · rw [hsame]
  · rw [hafter]
    exact (memory_markLost _ _ _ _).trans rfl

theorem memory_synchronize (blocking : Bool) (engine : Engine) :
    (stateAfter (Action.synchronize blocking) engine).memory = engine.memory := by
  simp only [Action.synchronize, stateAfter_bind, stateAfter_assertActive]
  cases outcomeOf Action.assertActive engine with
  | error failure => rfl
  | ok active => exact (memory_retire _ _).trans rfl

/-! ### All primitives -/

theorem Engine.Preparing.steadyFor {before after : Engine} (h : Preparing before after) :
    Steady touched before after :=
  h.steady.mono fun _ ↦ False.elim

/-- Every proper primitive keeps the copies of all arrays coherent. The arrays that were there
before keep their content unless it touches them. -/
theorem steady_after {primitive : Primitive} (hproper : primitive.Proper)
    (hfaithful : engine.FaithfulCaches) :
    Steady (fun buffer ↦ primitive.Touches buffer ∨ buffer = engine.device.buffers.size + 1) engine
      (engine.after primitive) := by
  have hwiden {last : Engine} (h : Steady primitive.Touches engine last) : Steady
      (fun buffer ↦ primitive.Touches buffer ∨ buffer = engine.device.buffers.size + 1)
        engine last :=
    h.mono fun _ ↦ .inl
  cases primitive with
  | allocate element shape strides customStrides count =>
    rw [after_allocate]
    exact (steady_allocate element shape strides customStrides count).mono fun _ ↦ .inr
  | stridesBuffer strides =>
    rw [after_stridesBuffer]
    exact steady_stridesBuffer strides engine
  | submit dispatches helpers copies =>
    rw [after_submit]
    exact hwiden (steady_submit helpers copies hfaithful hproper)
  | setValue buffer value index =>
    exact hwiden (steady_loadThenUpdate (fun array ↦ array.storesBy_setValue index value) engine)
  | setElements buffer values =>
    exact hwiden (steady_loadThenUpdate (fun array ↦ array.storesBy_setAll values) engine)
  | reshape buffer extents => exact steady_reshape buffer extents engine
  | send buffer => exact steady_send buffer engine
  | loadBlocking buffer => exact steady_loadBlocking buffer engine
  | load buffer => exact steady_load buffer engine
  | createLayout modes =>
    rw [after_createLayout]
    exact (Preparing.of_compiles (compiles_createLayout modes engine)).steadyFor
  | createModule source =>
    rw [after_createModule]
    exact (Preparing.of_compiles (compiles_createModule source engine)).steadyFor
  | createPipeline source modes constants =>
    rw [after_createPipeline]
    exact (Preparing.of_compiles
      (compiles_createPipeline source modes constants engine)).steadyFor
  | release buffer => exact steady_release buffer engine
  | collect arrays generators => exact steady_collect arrays generators engine
  | setGenerator state generator => exact .of_memory_eq rfl
  | addGenerator state generator => exact .of_memory_eq rfl
  | synchronize blocking => exact .of_memory_eq (memory_synchronize blocking engine)
  | retire serial => exact .of_memory_eq (memory_retire serial engine)
  | markLost arguments => exact .of_memory_eq (memory_markLostAction arguments engine)
  | destroy => exact .of_memory_eq (memory_destroy engine)
  | setCompiler compiler => exact .of_memory_eq rfl
  | requestLoad buffer => exact hproper.elim
  | startLoad buffer => exact hproper.elim
  | finishLoad buffer => exact hproper.elim
  | markDeviceDirty buffer => exact hproper.elim
  | poke buffer start bytes => exact hproper.elim
  | replaceCalls calls => exact hproper.elim

/-- A run of proper primitives keeps the copies of all arrays coherent. -/
theorem coherent_afterAll {primitives : List Primitive}
    (hproper : ∀ primitive ∈ primitives, primitive.Proper) (hcoherent : engine.Coherent)
    (hfaithful : engine.FaithfulCaches) :
    (engine.afterAll primitives).Coherent ∧ (engine.afterAll primitives).FaithfulCaches := by
  induction primitives generalizing engine with
  | nil => exact ⟨hcoherent, hfaithful⟩
  | cons primitive rest ih =>
    have hfirst := hproper primitive (by simp)
    exact ih (fun later hmem ↦ hproper later (List.mem_cons_of_mem primitive hmem))
      (steady_after hfirst hfaithful hcoherent).1 (caching_after primitive engine hfaithful).1

/-- A new engine has no arrays yet. -/
theorem coherent_create (device : Device) (options : Options) :
    (Engine.create device options).Coherent :=
  fun _ _ h ↦ by cases h

end ComputeArray
