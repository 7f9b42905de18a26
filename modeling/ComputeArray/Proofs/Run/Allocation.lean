import ComputeArray.Engine.Storage
import ComputeArray.Proofs.Lookup
import ComputeArray.Proofs.Run.Elementary

/-!
# Allocations

A new array stands for the next buffer of the device (`newArray_eq_ok`), so it is none of the arrays
whose buffers exist already. `Engine.Numbered` says that the buffers of all arrays do, and
`Engine.Keeps` that the arrays there were are still there.
-/

set_option autoImplicit false

namespace ComputeArray

/-- An array as it is allocated: zero-filled, the same on both sides. -/
def ArrayState.fresh (element : ElementType) (shape strides : List Nat) (customStrides : Bool)
    (count : Int) (size : Nat) : ArrayState where
  element := element
  shape := shape
  strides := strides
  customStrides := customStrides
  count := count
  storage := .zeros size
  hostDirty := false
  deviceDirty := false
  version := 0
  loading := .idle
  released := false

namespace Engine

/-- The number of the next buffer. -/
def nextBuffer (engine : Engine) : Nat := engine.device.buffers.size + 1

/-- The engine with one more array, at the next buffer. -/
def allocated (size : Nat) (array : ArrayState) (engine : Engine) : Engine :=
  addArray engine.nextBuffer array
    { engine with device := (engine.device.createBuffer size Device.storageUsage).2 }

/-- The later engine still has the arrays of the earlier one, and lanes of the same width. -/
structure Keeps (before after : Engine) : Prop where
  arrays : ∀ buffer array, before.arrays.lookup buffer = some array →
    after.arrays.lookup buffer = some array
  width : after.workgroupSize = before.workgroupSize

instance : Std.Refl Keeps := ⟨fun _ ↦ ⟨fun _ _ h ↦ h, rfl⟩⟩

instance : IsTrans Engine Keeps :=
  ⟨fun _ _ _ hfirst hlast ↦ ⟨fun buffer array h ↦ hlast.arrays buffer array
    (hfirst.arrays buffer array h), hlast.width.trans hfirst.width⟩⟩

/-- The buffers of all arrays exist. -/
def Numbered (engine : Engine) : Prop :=
  ∀ buffer array, engine.arrays.lookup buffer = some array → buffer < engine.nextBuffer

end Engine

variable {engine : Engine} {element : ElementType}

namespace Engine

theorem nextBuffer_allocated (size : Nat) (array : ArrayState) (engine : Engine) :
    (engine.allocated size array).nextBuffer = engine.nextBuffer + 1 :=
  congrArg (· + 1) (Array.size_push _)

theorem numbered_of_keys (h : ∀ buffer ∈ engine.arrays.map Prod.fst, buffer < engine.nextBuffer) :
    engine.Numbered := by
  intro buffer array hlookup
  obtain ⟨before, after, hsplit, -⟩ := List.lookup_eq_some_iff.mp hlookup
  exact h buffer (List.mem_map.mpr ⟨(buffer, array), by rw [hsplit]; simp, rfl⟩)

theorem Numbered.lookup_nextBuffer (h : engine.Numbered) :
    engine.arrays.lookup engine.nextBuffer = none := by
  cases hlookup : engine.arrays.lookup engine.nextBuffer with
  | none => rfl
  | some array => exact absurd (h _ _ hlookup) (Nat.lt_irrefl _)

/-- The new array is found at the next buffer. -/
theorem Numbered.lookup_allocated {size : Nat} {array : ArrayState} (h : engine.Numbered) :
    (engine.allocated size array).arrays.lookup engine.nextBuffer = some array :=
  lookup_append_singleton array h.lookup_nextBuffer

theorem Numbered.allocated {size : Nat} {array : ArrayState} (h : engine.Numbered) :
    (engine.allocated size array).Numbered := by
  intro buffer found hlookup
  rw [nextBuffer_allocated]
  rcases lookup_of_lookup_append_singleton hlookup with hlookup | ⟨rfl, -⟩
  · exact Nat.lt_succ_of_lt (h buffer found hlookup)
  · exact Nat.lt_succ_self _

theorem Keeps.exists_lookup {before after : Engine} {buffer : Nat} (h : Keeps before after)
    (hbuffer : ∃ array, before.arrays.lookup buffer = some array) :
    ∃ array, after.arrays.lookup buffer = some array := by
  obtain ⟨array, hlookup⟩ := hbuffer
  exact ⟨array, h.arrays buffer array hlookup⟩

theorem Keeps.array_eq {before after : Engine} {buffer : Nat} (h : Keeps before after)
    (hlookup : ∃ array, before.arrays.lookup buffer = some array) :
    after.array buffer = before.array buffer := by
  obtain ⟨array, hlookup⟩ := hlookup
  rw [Engine.array, Engine.array, h.arrays buffer array hlookup, hlookup]

theorem keeps_allocated (size : Nat) (array : ArrayState) (engine : Engine) :
    Keeps engine (engine.allocated size array) :=
  ⟨fun _ _ h ↦ (List.prefix_append engine.arrays _).lookup_eq_some h, rfl⟩

end Engine

/-- An allocation leaves one more array, or it fails and leaves the engine as it was. -/
theorem allocate_cases (element : ElementType) (shape strides : List Nat) (customStrides : Bool)
    (count : Int) (engine : Engine) :
    ((∃ failure, outcomeOf (Action.allocate element shape strides customStrides count) engine =
        .error failure) ∧
      stateAfter (Action.allocate element shape strides customStrides count) engine = engine) ∨
    ∃ size, storageBytes element count = .ok size ∧ engine.lost = none ∧
      outcomeOf (Action.allocate element shape strides customStrides count) engine =
        .ok engine.nextBuffer ∧
      stateAfter (Action.allocate element shape strides customStrides count) engine =
        engine.allocated size (.fresh element shape strides customStrides count size) := by
  unfold Action.allocate
  simp only [outcomeOf_bind, stateAfter_bind, outcomeOf_actionOfExcept, stateAfter_actionOfExcept,
    stateAfter_assertActive]
  cases storageBytes element count with
  | error failure => exact .inl ⟨⟨failure, rfl⟩, rfl⟩
  | ok size =>
    dsimp only
    cases hactive : outcomeOf Action.assertActive engine with
    | error failure => exact .inl ⟨⟨failure, rfl⟩, rfl⟩
    | ok active => exact .inr ⟨size, rfl, lost_of_outcomeOf_assertActive hactive, rfl, rfl⟩

/-- An allocation that succeeds leaves one more array. -/
theorem allocate_eq_ok {shape strides : List Nat} {customStrides : Bool} {count : Int}
    {buffer : Nat} (h : outcomeOf (Action.allocate element shape strides customStrides count)
      engine = .ok buffer) :
    ∃ size, storageBytes element count = .ok size ∧ engine.lost = none ∧
      buffer = engine.nextBuffer ∧
      stateAfter (Action.allocate element shape strides customStrides count) engine =
        engine.allocated size (.fresh element shape strides customStrides count size) := by
  rcases allocate_cases element shape strides customStrides count engine with
    ⟨⟨failure, hfailure⟩, -⟩ | ⟨size, hsize, hlost, hbuffer, hafter⟩
  · cases hfailure.symm.trans h
  · exact ⟨size, hsize, hlost, Except.ok.inj (h.symm.trans hbuffer), hafter⟩

theorem keeps_allocate (element : ElementType) (shape strides : List Nat) (customStrides : Bool)
    (count : Int) :
    Moves Engine.Keeps (Action.allocate element shape strides customStrides count) := by
  intro engine
  rcases allocate_cases element shape strides customStrides count engine with
    ⟨-, hafter⟩ | ⟨size, -, -, -, hafter⟩
  · rw [hafter]
    exact refl_of Engine.Keeps engine
  · rw [hafter]
    exact engine.keeps_allocated size _

/-- A new array without given strides is contiguous. -/
theorem newArray_eq_ok {shape name : Value} {buffer : Nat}
    (h : outcomeOf (Action.newArray shape name .none) engine = .ok buffer) :
    ∃ element extents count size,
      ElementType.ofValue name = .ok element ∧ Shape.ofValue shape = .ok extents ∧
      Layout.contiguousCount (extents.map Int.ofNat) = .ok count ∧
      storageBytes element count = .ok size ∧ engine.lost = none ∧ buffer = engine.nextBuffer ∧
      stateAfter (Action.newArray shape name .none) engine =
        engine.allocated size (.fresh element extents
          ((Layout.contiguous (extents.map Int.ofNat)).map Int.toNat) false count size) := by
  unfold Action.newArray at h ⊢
  simp only [outcomeOf_bind_eq_ok, outcomeOf_actionOfExcept, stateAfter_actionOfExcept,
    stateAfter_assertActive] at h
  obtain ⟨_, hactive, element, helement, _, hcheck, extents, hextents, count, hcount, h⟩ := h
  have hsame : stateAfter (Action.checkElement element) engine = engine := by
    unfold Action.checkElement
    rw [stateAfter_bind_of_ok (outcomeOf_get engine), stateAfter_get]
    split <;> rfl
  rw [hsame] at h
  obtain ⟨size, hsize, hlost, rfl, hafter⟩ := allocate_eq_ok h
  refine ⟨element, extents, count, size, helement, hextents, hcount, hsize, hlost, rfl, ?_⟩
  rw [stateAfter_bind_of_ok hactive, stateAfter_assertActive,
    stateAfter_bind_of_ok ((outcomeOf_actionOfExcept _ _).trans helement),
    stateAfter_actionOfExcept, stateAfter_bind_of_ok hcheck, hsame,
    stateAfter_bind_of_ok ((outcomeOf_actionOfExcept _ _).trans hextents),
    stateAfter_actionOfExcept]
  dsimp only
  rw [stateAfter_bind_of_ok ((outcomeOf_actionOfExcept _ _).trans hcount),
    stateAfter_actionOfExcept, hafter]

/-- A new array is found at the next buffer, and all there was stays. -/
theorem newArray_fresh {shape name : Value} {buffer : Nat} (hnumbered : engine.Numbered)
    (h : outcomeOf (Action.newArray shape name .none) engine = .ok buffer) :
    ∃ array, ElementType.ofValue name = .ok array.element ∧ buffer = engine.nextBuffer ∧
      (stateAfter (Action.newArray shape name .none) engine).Numbered ∧
      Engine.Keeps engine (stateAfter (Action.newArray shape name .none) engine) ∧
      (stateAfter (Action.newArray shape name .none) engine).arrays.lookup buffer = some array := by
  obtain ⟨element, extents, count, size, helement, -, -, -, -, rfl, hafter⟩ := newArray_eq_ok h
  rw [hafter]
  exact ⟨_, helement, rfl, hnumbered.allocated, Engine.keeps_allocated _ _ _,
    hnumbered.lookup_allocated⟩

theorem ofValue_name (element : ElementType) :
    ElementType.ofValue (.text element.name) = .ok element := by
  cases element <;> rfl

/-- A new contiguous array has the element type asked for. -/
theorem newContiguous_eq_ok {shape : List Int} {buffer : Nat}
    (h : outcomeOf (Action.newContiguous element shape) engine = .ok buffer) :
    ∃ extents count size,
      Shape.ofValue (.list (shape.map .int)) = .ok extents ∧
      Layout.contiguousCount (extents.map Int.ofNat) = .ok count ∧
      storageBytes element count = .ok size ∧ engine.lost = none ∧ buffer = engine.nextBuffer ∧
      stateAfter (Action.newContiguous element shape) engine =
        engine.allocated size (.fresh element extents
          ((Layout.contiguous (extents.map Int.ofNat)).map Int.toNat) false count size) := by
  obtain ⟨found, extents, count, size, helement, hextents, hcount, hsize, hlost, hbuffer, hafter⟩ :=
    newArray_eq_ok h
  rw [ofValue_name] at helement
  cases helement
  exact ⟨extents, count, size, hextents, hcount, hsize, hlost, hbuffer, hafter⟩

theorem newContiguous_fresh {shape : List Int} {buffer : Nat} (hnumbered : engine.Numbered)
    (h : outcomeOf (Action.newContiguous element shape) engine = .ok buffer) :
    ∃ array, array.element = element ∧
      (stateAfter (Action.newContiguous element shape) engine).Numbered ∧
      Engine.Keeps engine (stateAfter (Action.newContiguous element shape) engine) ∧
      (stateAfter (Action.newContiguous element shape) engine).arrays.lookup buffer =
        some array := by
  obtain ⟨array, helement, -, hnumbered', hkeeps, hlookup⟩ := newArray_fresh hnumbered h
  rw [ofValue_name] at helement
  exact ⟨array, (Except.ok.inj helement).symm, hnumbered', hkeeps, hlookup⟩

theorem size_of_tableBytes {n bytes : Nat} (h : element.tableBytes [n] = .ok bytes) :
    bytes = n * element.size := by
  unfold ElementType.tableBytes at h
  simp only [bind, Except.bind] at h
  split at h
  · cases h
  · split at h
    · cases h
    · cases h
      exact congrArg (· * element.size) (Nat.mul_one n)

theorem size_of_hostBytes {n bytes : Nat} (h : element.hostBytes [n] = .ok bytes) :
    bytes = n * element.size := by
  unfold ElementType.hostBytes at h
  cases htable : element.tableBytes [n] with
  | error failure =>
    rw [htable] at h
    cases h
  | ok found =>
    rw [htable] at h
    cases hgrant : element.grant [n] found with
    | error failure =>
      simp only [bind, Except.bind, hgrant] at h
      cases h
    | ok granted =>
      simp only [bind, Except.bind, hgrant] at h
      cases h
      exact size_of_tableBytes htable

/-- Storage is as large as the elements that fill its words, padded ones included. -/
theorem size_of_storageBytes {count : Int} {size : Nat}
    (h : storageBytes element count = .ok size) :
    size = (wholeWords (count * element.size)).toNat / element.size * element.size := by
  unfold storageBytes at h
  simp only [bind, Except.bind] at h
  split at h
  · cases h
  · exact size_of_hostBytes h

/-- Half floats alone are padded, to an even number of them. -/
theorem elements_of_storageBytes {n size : Nat} (h : storageBytes element n = .ok size) :
    n ≤ size / element.size ∧ size / element.size ≤ n + n % 2 := by
  have hsize := size_of_storageBytes h
  cases element <;>
  · simp only [ElementType.size, wholeWords] at hsize ⊢
    omega

/-- A list of positive extents is a shape. -/
theorem ofValue_extents {extents : List Nat} (hne : extents ≠ [])
    (hpos : ∀ extent ∈ extents, 0 < extent) :
    Shape.ofValue (.list (extents.map fun extent : Nat ↦ Value.int extent)) = .ok extents := by
  have hints : (Value.list (extents.map fun extent : Nat ↦ Value.int extent)).toIntList =
      .ok (extents.map Int.ofNat) := by
    change (extents.map fun extent : Nat ↦ Value.int extent).mapM Value.toInt = _
    clear hne hpos
    induction extents with
    | nil => rfl
    | cons extent rest ih => rw [List.map_cons, List.mapM_cons, ih]; rfl
  have hsome : (extents.map Int.ofNat).isEmpty = false := by simpa using hne
  have hallowed : ((extents.map Int.ofNat).any fun extent ↦ decide (extent ≤ 0)) = false := by
    rw [List.any_eq_false]
    intro extent hmem
    obtain ⟨n, hn, rfl⟩ := List.mem_map.mp hmem
    simp [Nat.pos_iff_ne_zero.mp (hpos n hn)]
  have hback : (extents.map Int.ofNat).map Int.toNat = extents := by
    simp [Function.comp_def]
  unfold Shape.ofValue
  dsimp only
  rw [hints]
  simp only [bind, Except.bind, hsome, hallowed, Bool.false_eq_true, if_false]
  exact congrArg Except.ok hback

end ComputeArray
