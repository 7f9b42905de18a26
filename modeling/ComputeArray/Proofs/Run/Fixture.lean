import ComputeArray.Proofs.Device.Objects
import ComputeArray.Proofs.Lookup
import ComputeArray.Proofs.Run.Compilation

/-!
# Fixtures of an engine

The options of an engine, the limits of its device, the way the device computes and the arrays there
are, each with its layout, stay the same while work is submitted, so a pass has the grid that the
engine at hand gives it (`groups_of_encode`).
-/

set_option autoImplicit false

namespace ComputeArray

/-- What the elements of an array are, and where they lie. -/
def ArrayState.layout (array : ArrayState) : ElementType × List Nat × List Nat × Bool × Int :=
  (array.element, array.shape, array.strides, array.customStrides, array.count)

namespace Engine

/-- What submissions leave as it is. -/
def fixture (engine : Engine) :=
  (engine.options, engine.device.limits, engine.device.computing,
    fun buffer ↦ (engine.arrays.lookup buffer).map ArrayState.layout)

def SameFixture (before after : Engine) : Prop := after.fixture = before.fixture

instance : Std.Refl SameFixture := ⟨fun _ ↦ rfl⟩

instance : IsTrans Engine SameFixture := ⟨fun _ _ _ hfirst hlast ↦ Eq.trans hlast hfirst⟩

variable {before after : Engine}

theorem SameFixture.workgroupSize (h : SameFixture before after) :
    after.workgroupSize = before.workgroupSize := by
  simp only [SameFixture, fixture, Prod.mk.injEq] at h
  rw [Engine.workgroupSize, Engine.workgroupSize, h.1, h.2.1]

theorem SameFixture.maxWorkgroups (h : SameFixture before after) :
    after.maxWorkgroups = before.maxWorkgroups := by
  simp only [SameFixture, fixture, Prod.mk.injEq] at h
  rw [Engine.maxWorkgroups, Engine.maxWorkgroups, h.2.1]

theorem SameFixture.computing (h : SameFixture before after) :
    after.device.computing = before.device.computing := by
  simp only [SameFixture, fixture, Prod.mk.injEq] at h
  exact h.2.2.1

theorem SameFixture.layouts (h : SameFixture before after) (buffer : Nat) :
    (after.arrays.lookup buffer).map ArrayState.layout =
      (before.arrays.lookup buffer).map ArrayState.layout := by
  simp only [SameFixture, fixture, Prod.mk.injEq] at h
  exact congrFun h.2.2.2 buffer

/-- The same arrays are there. -/
theorem SameFixture.exists_lookup {buffer : Nat} (h : SameFixture before after)
    (hbuffer : ∃ array, before.arrays.lookup buffer = some array) :
    ∃ array, after.arrays.lookup buffer = some array := by
  rw [← Option.isSome_iff_exists] at hbuffer ⊢
  have hsame := congrArg Option.isSome (h.layouts buffer)
  rwa [Option.isSome_map, Option.isSome_map, hbuffer] at hsame

/-- They have the same layouts. -/
theorem SameFixture.layout (h : SameFixture before after) (buffer : Nat) :
    (after.array buffer).layout = (before.array buffer).layout := by
  have hgetD (found : Option ArrayState) : (found.getD default).layout =
      (found.map ArrayState.layout).getD (default : ArrayState).layout := by
    cases found <;> rfl
  rw [Engine.array, Engine.array, hgetD, hgetD, h.layouts]

theorem SameFixture.element (h : SameFixture before after) (buffer : Nat) :
    (after.array buffer).element = (before.array buffer).element :=
  congrArg Prod.fst (h.layout buffer)

theorem SameFixture.shape (h : SameFixture before after) (buffer : Nat) :
    (after.array buffer).shape = (before.array buffer).shape :=
  congrArg (·.2.1) (h.layout buffer)

theorem SameFixture.strides (h : SameFixture before after) (buffer : Nat) :
    (after.array buffer).strides = (before.array buffer).strides :=
  congrArg (·.2.2.1) (h.layout buffer)

theorem SameFixture.count (h : SameFixture before after) (buffer : Nat) :
    (after.array buffer).count = (before.array buffer).count :=
  congrArg (·.2.2.2.2) (h.layout buffer)

theorem SameFixture.length (h : SameFixture before after) (buffer : Nat) :
    (after.array buffer).length = (before.array buffer).length := by
  rw [ArrayState.length, ArrayState.length, ArrayState.shapeInts, ArrayState.shapeInts, h.shape]

end Engine

open Engine

/-! ### Devices -/

namespace Device

/-- The limits of a device and the way it computes. -/
def fixture (device : Device) := (device.limits, device.computing)

theorem fixture_of_apparatus {before after : Device} (h : after.apparatus = before.apparatus) :
    after.fixture = before.fixture := by
  simp only [apparatus, Prod.mk.injEq] at h
  simp only [fixture, h]

theorem fixture_perform (device : Device) (command : Command) :
    (device.perform command).fixture = device.fixture :=
  fixture_of_apparatus (apparatus_perform device command)

theorem fixture_submit (device : Device) (commands : List Command) :
    (device.submit commands).fixture = device.fixture := by
  change (commands.foldl perform device).fixture = _
  exact fixture_of_apparatus (apparatus_foldl_perform commands device)

end Device

theorem Engine.SameFixture.of_device {before after : Engine}
    (hoptions : after.options = before.options) (harrays : after.arrays = before.arrays)
    (hdevice : after.device.fixture = before.device.fixture) : SameFixture before after := by
  simp only [Device.fixture, Prod.mk.injEq] at hdevice
  simp only [SameFixture, fixture, hoptions, harrays, hdevice]

theorem Engine.SameFixture.of_compiles {before after : Engine} (h : Compiles before after) :
    SameFixture before after := by
  have hrest := h.rest
  simp only [uncompiled, Prod.mk.injEq] at hrest
  simp only [SameFixture, fixture, hrest]

theorem sameFixture_changeArray (buffer : Nat) {change : ArrayState → ArrayState}
    (hchange : ∀ array, (change array).layout = array.layout) :
    Moves SameFixture (Action.changeArray buffer change) := by
  intro engine
  have hlayouts (other : Nat) :
      ((engine.setArray buffer (change (engine.array buffer))).arrays.lookup other).map
          ArrayState.layout = (engine.arrays.lookup other).map ArrayState.layout := by
    rw [setArray, lookup_map_replace, Option.map_map]
    cases hlookup : engine.arrays.lookup other with
    | none => rfl
    | some array =>
      rw [Option.map_some, Option.map_some, Function.comp_apply]
      split
      · next hsame => rw [hchange, Engine.array, ← hsame, hlookup, Option.getD_some]
      · rfl
  simp only [SameFixture, fixture, stateAfter_changeArray, hlayouts]
  rfl

/-! ### Releases -/

theorem Engine.device_release (buffer : Nat) (engine : Engine) :
    (engine.release buffer).device = engine.device := by
  obtain ⟨-, h⟩ | ⟨-, _, h, -⟩ := release_cases buffer engine
  · rw [h]
  · rw [h]
    rfl

theorem Engine.device_foldl_release (buffers : List Nat) (engine : Engine) :
    (buffers.foldl (fun engine buffer ↦ engine.release buffer) engine).device = engine.device :=
  foldl_release_eq device_release buffers engine

theorem sameFixture_release (buffer : Nat) (engine : Engine) :
    SameFixture engine (engine.release buffer) := by
  obtain ⟨-, h⟩ | ⟨-, _, h, -⟩ := release_cases buffer engine
  · rw [h]
    exact refl_of SameFixture engine
  · rw [h]
    exact @sameFixture_changeArray buffer (fun array ↦ { array with released := true })
      (fun _ ↦ rfl) engine

/-! ### Submissions -/

theorem sameFixture_retire (serial : Int) (engine : Engine) :
    SameFixture engine (engine.retire serial) := by
  have hdestroyed (due : List (Nat × Nat)) (device : Device) :
      (due.foldl (fun device entry ↦ device.record (.destroyBuffer entry.2)) device).fixture =
        device.fixture := by
    induction due generalizing device with
    | nil => rfl
    | cons entry rest ih => exact ih _
  exact .of_device rfl rfl (hdestroyed _ _)

theorem sameFixture_send (buffer : Nat) : Moves SameFixture (Action.send buffer) := by
  have hwrite (bytes : Bytes) (device : Device) :
      (device.write buffer bytes).fixture = device.fixture := by
    change (device.setBytes buffer _).fixture = _
    exact Device.fixture_of_apparatus (Device.apparatus_setBytes _ _ _)
  refine .bind (.array buffer) fun array ↦ ?_
  split
  · exact .pure _
  · exact .bind .assertActive fun _ ↦ .bind (fun engine ↦ .of_device rfl rfl (hwrite _ _)) fun _ ↦
      sameFixture_changeArray _ fun _ ↦ rfl

theorem sameFixture_encode (dispatch : Dispatch) : Moves SameFixture (Action.encode dispatch) :=
  (compiles_encode dispatch).mono fun _ _ ↦ .of_compiles

theorem sameFixture_prepare (dispatches : List Dispatch) (copies : List (Nat × Nat)) :
    Moves SameFixture (Action.prepare dispatches copies) :=
  .prepare sameFixture_send (fun _ ↦ rfl) sameFixture_encode _ _

theorem sameFixture_markDeviceDirty (buffer : Nat) :
    Moves SameFixture (Action.markDeviceDirty buffer) :=
  sameFixture_changeArray buffer fun _ ↦ rfl

theorem sameFixture_settle (serial : Nat) (helpers : List Nat) :
    Moves SameFixture (Action.settle serial helpers) := by
  refine .bind (.update fun _ ↦ rfl) fun _ ↦ .bind .get fun engine ↦ ?_
  split
  · exact .bind (fun _ ↦ rfl) fun _ ↦ .update fun _ ↦ sameFixture_retire _ _
  · exact .pure _

theorem sameFixture_submit (dispatches : List Dispatch) (helpers : List Nat)
    (copies : List (Nat × Nat)) :
    Moves SameFixture (Action.submit dispatches helpers copies) :=
  .submit sameFixture_send (fun _ ↦ rfl) sameFixture_encode sameFixture_markDeviceDirty
    (fun commands engine ↦ .of_device rfl rfl (Device.fixture_submit engine.device commands))
    sameFixture_settle _ _ _

/-- Lanes that fit a workgroup make a grid of one. -/
theorem gridFor_eq_one {width maxWorkgroups count : Int} (hpos : 1 ≤ count) (hle : count ≤ width)
    (hmax : 0 < maxWorkgroups) : gridFor width maxWorkgroups count = (1, 1) := by
  have hquotient : (-count) / width = -1 := by
    have hsplit : (-count) / width = -1 ∧ (-count) % width = width - count :=
      (Int.ediv_emod_unique (by omega)).mpr ⟨by omega, by omega, by omega⟩
    exact hsplit.1
  have hgroups : max 1 (ceilingDiv count width) = 1 := by
    rw [ceilingDiv, Int.fdiv_eq_ediv_of_nonneg _ (by omega), hquotient]
    rfl
  rw [gridFor, hgroups]
  exact if_pos (by omega)

/-- A pass is encoded with the grid of its lanes. -/
theorem groups_of_encode {dispatch : Dispatch} {engine : Engine} {pipeline layout : Nat}
    {buffers : List (Nat × Nat)} {groups : Int × Int}
    (h : outcomeOf (Action.encode dispatch) engine =
      .ok (.dispatch pipeline layout buffers groups)) :
    groups = gridFor engine.workgroupSize engine.maxWorkgroups dispatch.lanes := by
  simp only [Action.encode, outcomeOf_bind_eq_ok] at h
  obtain ⟨⟨found, kept⟩, hcreated, current, hcurrent, grid, hgrid, h⟩ := h
  have hsame : SameFixture engine _ := .of_compiles
    (compiles_createPipeline dispatch.source dispatch.modes dispatch.constants engine)
  cases h
  simp only [Action.grid, outcomeOf_bind_eq_ok, outcomeOf_get, stateAfter_get] at hgrid
  obtain ⟨found, hfound, hgrid⟩ := hgrid
  cases hfound
  split at hgrid
  · cases hgrid
  · cases hgrid
    rw [hsame.workgroupSize, hsame.maxWorkgroups]

end ComputeArray
