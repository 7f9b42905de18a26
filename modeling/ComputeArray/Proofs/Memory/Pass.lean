import ComputeArray.Proofs.Memory.Submit
import ComputeArray.Proofs.Run.Fixture

/-!
# Passes on a device

An encoded dispatch is a pass over the buffers of its bindings, with the layout of their modes, the
grid of its lanes and a pipeline made of its source (`encodes_of_prepare`). What a submission leaves
in the arrays it writes is what the device makes of its commands, one after the other
(`content_of_submit`).
-/

set_option autoImplicit false

namespace ComputeArray

open Engine

variable {engine : Engine} {buffer : Nat}

/-- The command is a pass of a dispatch in a grid, on a device with the layouts, modules and
pipelines of the given one. -/
def Device.Encodes (device : Device) (dispatch : Dispatch) (grid : Int × Int)
    (command : Command) : Prop :=
  ∃ pipeline layout buffers parts,
    command = .dispatch pipeline layout buffers grid ∧
    buffers.map Prod.fst = dispatch.bindings.map (fun binding ↦ binding.1.buffer) ∧
    numbered device.layouts layout = some (entriesOf dispatch.modes) ∧
    numbered device.pipelines pipeline = some parts ∧
    numbered device.modules parts.module = some dispatch.source

theorem Device.Encodes.mono {before after : Device} {dispatch : Dispatch} {grid : Int × Int}
    {command : Command} (hgrow : before.Grows after) (h : before.Encodes dispatch grid command) :
    after.Encodes dispatch grid command := by
  obtain ⟨pipeline, layout, buffers, parts, hcommand, hbuffers, hentries, hparts, hmodule⟩ := h
  exact ⟨pipeline, layout, buffers, parts, hcommand, hbuffers, hgrow.layouts _ _ hentries,
    hgrow.pipelines _ _ hparts, hgrow.modules _ _ hmodule⟩

/-- A pass that writes all its buffers, which are different ones, leaves in them what the device
computes. -/
theorem Device.Encodes.map_bytesOf_perform {device : Device} {dispatch : Dispatch}
    {grid : Int × Int} {command : Command} {buffers : List Nat} {results : List Bytes}
    (h : device.Encodes dispatch grid command)
    (hbuffers : dispatch.bindings.map (fun binding ↦ binding.1.buffer) = buffers)
    (hwrites : ∀ mode ∈ dispatch.modes, mode ≠ .read) (hnodup : buffers.Nodup)
    (hrange : ∀ buffer ∈ buffers, 1 ≤ buffer ∧ buffer ≤ device.buffers.size)
    (hsizes : results.map Bytes.size = buffers.map device.sizeOf)
    (hresults : device.computing device.passCount command (buffers.map device.bytesOf) = results) :
    buffers.map (device.perform command).bytesOf = results := by
  obtain ⟨pipeline, layout, slots, parts, rfl, hslots, hentries, -, -⟩ := h
  rw [hbuffers] at hslots
  set modes := (entriesOf dispatch.modes).map LayoutEntry.access with hgranted
  have hletters : modes.map Mode.letter = dispatch.modes.map Mode.letter :=
    letters_entriesOf dispatch.modes
  have hmodesOf : device.modesOf layout = modes := by
    rw [Device.modesOf, hentries]
    rfl
  have hcount : modes.length = buffers.length := by
    have hlength := congrArg List.length hletters
    simp only [List.length_map, Dispatch.modes] at hlength
    rw [hlength, ← hbuffers, List.length_map]
  -- layouts tell from the other modes only that of slots that are read
  have hwritten : ∀ mode ∈ modes, mode ≠ .read := by
    intro mode hmem
    have hletter := List.mem_map_of_mem (f := Mode.letter) hmem
    rw [hletters] at hletter
    obtain ⟨bound, hbound, hsame⟩ := List.mem_map.mp hletter
    rw [Ne, Mode.eq_read_iff_letter, ← hsame, ← Mode.eq_read_iff_letter]
    exact hwrites bound hbound
  rw [Device.perform, hslots]
  exact Device.map_bytesOf_runPass (hmodesOf ▸ hcount) (hmodesOf ▸ hwritten) hnodup hrange hsizes
    hresults

theorem encodes_of_encode {dispatch : Dispatch} {command : Command}
    (hfaithful : engine.FaithfulCaches)
    (h : outcomeOf (Action.encode dispatch) engine = .ok command) :
    (stateAfter (Action.encode dispatch) engine).device.Encodes dispatch
      (gridFor engine.workgroupSize engine.maxWorkgroups dispatch.lanes) command := by
  obtain ⟨pipeline, layout, buffers, groups, rfl, hafter, hlayout, hbuffers, parts, hparts, hmodule,
    -⟩ := encode_spec hfaithful h
  obtain ⟨modes, hentries, hsignature⟩ := hafter.layouts _ _ hlayout
  rw [(signatureOf_eq_iff _ _).mp hsignature] at hentries
  rw [groups_of_encode h]
  exact ⟨pipeline, layout, buffers, parts, rfl, hbuffers, hentries, hparts,
    hafter.modules _ _ hmodule⟩

namespace Engine

/-- Buffers keep their sizes. -/
def SameSizes (before after : Engine) : Prop :=
  ∀ buffer, after.device.sizeOf buffer = before.device.sizeOf buffer

instance : Std.Refl SameSizes := ⟨fun _ _ ↦ rfl⟩

instance : IsTrans Engine SameSizes :=
  ⟨fun _ _ _ hfirst hlast buffer ↦ (hlast buffer).trans (hfirst buffer)⟩

end Engine

theorem sameSizes_send (buffer : Nat) : Moves SameSizes (Action.send buffer) := by
  refine .bind (.array buffer) fun array ↦ ?_
  split
  · exact .pure _
  · exact .bind .assertActive fun _ ↦
      .bind (fun engine ↦ (Device.sameOutside_write engine.device buffer array.storage).size)
        fun _ _ _ ↦ rfl

/-- A submission is prepared by encoding its dispatches as passes, and its copies to take over the
whole target. -/
theorem encodes_of_prepare {dispatches : List Dispatch} {copies : List (Nat × Nat)}
    {commands : List Command} (hfaithful : engine.FaithfulCaches)
    (h : outcomeOf (Action.prepare dispatches copies) engine = .ok commands) :
    ∃ passes moves, commands = passes ++ moves ∧
      List.Forall₂ (fun dispatch pass ↦
        (stateAfter (Action.prepare dispatches copies) engine).device.Encodes dispatch
          (gridFor engine.workgroupSize engine.maxWorkgroups dispatch.lanes) pass)
        dispatches passes ∧
      List.Forall₂ (fun copy move ↦ move = .copy copy.1 copy.2
        ((stateAfter (Action.prepare dispatches copies) engine).device.sizeOf copy.2))
        copies moves := by
  obtain ⟨passes, moves, sent, encoded, rfl, -, hsent, hpasses, hencoded, hmoves, hstate⟩ :=
    prepare_eq_ok h
  have hsame : SameFixture engine sent :=
    hsent ▸ Moves.beginEncoding sameFixture_send (fun _ ↦ rfl) dispatches engine
  obtain ⟨hfaithful', -⟩ := caching_beginEncoding dispatches engine hfaithful
  rw [← hsent] at hfaithful'
  obtain ⟨⟨⟨hcaches, -⟩, -⟩, hencodes⟩ := forall₂_persisting_of_outcomeOf_mapM
    (I := fun current ↦ current.FaithfulCaches ∧ SameFixture engine current) (R := CachesGrow)
    (Q := fun current dispatch command ↦ current.device.Encodes dispatch
      (gridFor engine.workgroupSize engine.maxWorkgroups dispatch.lanes) command)
    (fun dispatch current hcurrent ↦ by
      obtain ⟨hnext, hgrow⟩ := caching_encode dispatch current hcurrent.1
      exact ⟨⟨hnext, trans_of SameFixture hcurrent.2 (sameFixture_encode dispatch current)⟩, hgrow⟩)
    (fun dispatch current command h hencode ↦ by
      rw [← h.2.workgroupSize, ← h.2.maxWorkgroups]
      exact encodes_of_encode h.1 hencode)
    (fun _ _ _ _ hgrow ↦ .mono hgrow.device) ⟨hfaithful', hsame⟩ hpasses
  rw [← hencoded] at hcaches hencodes
  obtain ⟨-, hgrow⟩ :=
    Moves.mapM copies (fun copy _ ↦ .encodeCopy caching_send copy) encoded hcaches
  rw [hstate]
  refine ⟨passes, moves, rfl, hencodes.imp fun _ _ ↦ .mono hgrow.device, ?_⟩
  exact (forall₂_persisting_of_outcomeOf_mapM (I := fun _ ↦ True) (R := SameSizes)
    (Q := fun current copy move ↦ move = .copy copy.1 copy.2 (current.device.sizeOf copy.2))
    (fun copy current _ ↦ ⟨trivial, Moves.encodeCopy sameSizes_send copy current⟩)
    (fun copy current move _ hencode ↦ eq_copy_of_encodeCopy hencode)
    (fun _ _ copy move hsizes hmove ↦ by rw [hmove, hsizes]) trivial hmoves).2

theorem objects_settle (serial : Nat) (helpers : List Nat) (engine : Engine) :
    (stateAfter (Action.settle serial helpers) engine).device.objects = engine.device.objects := by
  simp only [Action.settle, stateAfter_bind, outcomeOf_modify, stateAfter_modify, outcomeOf_get,
    stateAfter_get]
  split
  · simp only [stateAfter_bind, outcomeOf_changeDevice, stateAfter_changeDevice, stateAfter_modify]
    have hcaches := caches_retire serial { engine with
      device := engine.device.record (.awaitQueue true)
      pending := engine.pending ++ helpers.map fun buffer ↦ (serial, buffer) }
    simp only [caches, Prod.mk.injEq] at hcaches
    exact hcaches.2.2.2.2
  · rfl

/-- A submission that succeeds prepares itself, marks the arrays it
writes, and hands its commands to the device under the next serial. -/
theorem submit_eq_ok {dispatches : List Dispatch} {helpers : List Nat} {copies : List (Nat × Nat)}
    {serial : Nat} (h : outcomeOf (Action.submit dispatches helpers copies) engine = .ok serial) :
    ∃ commands marked, engine.lost = none ∧
      outcomeOf (Action.prepare dispatches copies) engine = .ok commands ∧
      marked = stateAfter ((writtenBy dispatches copies).forM Action.markDeviceDirty)
        (stateAfter (Action.prepare dispatches copies) engine) ∧
      serial = marked.serial + 1 ∧
      stateAfter (Action.submit dispatches helpers copies) engine =
        stateAfter (Action.settle serial helpers)
          (stateAfter (Action.submitCommands commands) marked) := by
  simp only [Action.submit, outcomeOf_bind_eq_ok, stateAfter_assertActive] at h
  obtain ⟨_, hactive, commands, hcommands, found, hover, _, hsettled, hserial⟩ := h
  cases hserial
  set prepared := stateAfter (Action.prepare dispatches copies) engine
  set marked := stateAfter ((writtenBy dispatches copies).forM Action.markDeviceDirty) prepared
    with hmark
  obtain ⟨-, hdone⟩ := markedAll_forM (writtenBy dispatches copies) prepared
  refine ⟨commands, marked, lost_of_outcomeOf_assertActive hactive, hcommands, rfl, ?_, ?_⟩
  · rw [handOver_eq, outcomeOf_bind, hdone] at hover
    exact (Except.ok.inj hover).symm
  · rw [Action.submit, stateAfter_bind_of_ok hactive, stateAfter_assertActive,
      stateAfter_bind_of_ok hcommands, stateAfter_bind_of_ok hover,
      stateAfter_bind_of_ok hsettled, stateAfter_pure, handOver_eq, stateAfter_bind, hdone]

/-- A submission leaves in the arrays it writes what the device makes of its commands, and adds no
objects to those its preparation has left. -/
theorem content_of_submit {dispatches : List Dispatch} {helpers : List Nat}
    {copies : List (Nat × Nat)} {serial : Nat}
    (h : outcomeOf (Action.submit dispatches helpers copies) engine = .ok serial) :
    ∃ commands, outcomeOf (Action.prepare dispatches copies) engine = .ok commands ∧
      (stateAfter (Action.submit dispatches helpers copies) engine).device.objects =
        (stateAfter (Action.prepare dispatches copies) engine).device.objects ∧
      ∀ buffer ∈ writtenBy dispatches copies,
        (∃ array, engine.arrays.lookup buffer = some array) →
        ((stateAfter (Action.submit dispatches helpers copies) engine).array buffer).deviceDirty =
            true ∧
          (stateAfter (Action.submit dispatches helpers copies) engine).content buffer =
            ((stateAfter (Action.prepare dispatches copies) engine).device.submit
              commands).bytesOf buffer := by
  obtain ⟨commands, marked, -, hcommands, hmark, -, hafter⟩ := submit_eq_ok h
  set prepared := stateAfter (Action.prepare dispatches copies) engine with hprepared
  set submitted := stateAfter (Action.submitCommands commands) marked
  obtain ⟨hmarked, -⟩ := markedAll_forM (writtenBy dispatches copies) prepared
  rw [← hmark] at hmarked
  have hmemory := hafter ▸ memory_settle serial helpers submitted
  have hdevice : submitted.device = prepared.device.submit commands := by
    rw [← hmarked.device]
    rfl
  refine ⟨commands, hcommands, ?_, fun buffer hmem hlookup ↦ ?_⟩
  · rw [hafter, objects_settle, hdevice, Device.objects_submit]
  · have hlookup := (sameFixture_prepare dispatches copies engine).exists_lookup hlookup
    have hsame : SameFixture prepared marked :=
      hmark ▸ Moves.forM _ (fun buffer _ ↦ sameFixture_markDeviceDirty buffer) prepared
    obtain ⟨array, harray⟩ := hsame.exists_lookup hlookup
    obtain ⟨old, -, hnew⟩ := hmarked.marked buffer hmem array harray
    have hfound : submitted.arrays.lookup buffer = some array := harray
    rw [array_eq_of_memory_eq hmemory, content_eq_of_memory_eq hmemory, array_of_lookup hfound,
      content_of_lookup hfound, hnew.hostDirty, hdevice]
    exact ⟨hnew.deviceDirty, rfl⟩

end ComputeArray
