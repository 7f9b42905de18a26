import ComputeArray.Proofs.Calls.Failing
import ComputeArray.Proofs.Memory.Pass

/-!
# Effects of a submission

A submission that succeeds hands one list of commands to the device: its passes, and then its
copies, which take over the whole target (`submits_of_submit`). What it writes is newer on the
device from then on. What its passes only read has been sent, and nothing has happened to any other
array.
-/

set_option autoImplicit false

namespace ComputeArray

open Engine

variable {engine : Engine} {buffer serial : Nat} {old : ArrayState} {dispatches : List Dispatch}
  {helpers : List Nat} {copies : List (Nat × Nat)} {commands : List Command}

/-! ### Submissions made -/

namespace Device

variable {device later : Device}

/-- The commands of the submissions that were made. -/
def submissions (device : Device) : List (List Command) :=
  device.calls.toList.filterMap fun
    | .submit commands => some commands
    | _ => none

theorem submissions_of_quietUntil (h : device.QuietUntil later) :
    later.submissions = device.submissions :=
  h.filterMap_eq fun call hquiet ↦ by
    cases call with
    | submit commands => exact hquiet.elim
    | _ => rfl

theorem submissions_submit (commands : List Command) (device : Device) :
    (device.submit commands).submissions = device.submissions ++ [commands] := by
  rw [submissions, calls_submit, Array.toList_push, List.filterMap_append]
  rfl

theorem submissions_foldl_destroy (due : List (Nat × Nat)) (device : Device) :
    (due.foldl (fun device entry ↦ device.record (.destroyBuffer entry.2)) device).submissions =
      device.submissions := by
  induction due generalizing device with
  | nil => rfl
  | cons entry rest ih =>
    refine (ih _).trans ?_
    change List.filterMap _ (device.calls.push _).toList = _
    rw [Array.toList_push, List.filterMap_append]
    exact List.append_nil _

end Device

/-- Settling makes no submission. -/
theorem settle_submissions (serial : Nat) (helpers : List Nat) (engine : Engine) :
    (stateAfter (Action.settle serial helpers) engine).serial = engine.serial ∧
      (stateAfter (Action.settle serial helpers) engine).device.submissions =
        engine.device.submissions := by
  simp only [Action.settle, stateAfter_bind, outcomeOf_modify, stateAfter_modify, outcomeOf_get,
    stateAfter_get]
  split
  · simp only [stateAfter_bind, outcomeOf_changeDevice, stateAfter_changeDevice, stateAfter_modify]
    refine ⟨rfl, (Device.submissions_foldl_destroy _ _).trans ?_⟩
    rw [Device.submissions, Device.record, Array.toList_push, List.filterMap_append]
    exact List.append_nil _
  · exact ⟨rfl, rfl⟩

/-! ### Arrays that are not written -/

namespace Engine

/-- Nothing has happened to an array. -/
def SameAt (buffer : Nat) (before after : Engine) : Prop :=
  after.arrays.lookup buffer = before.arrays.lookup buffer ∧
    after.device.bytesOf buffer = before.device.bytesOf buffer

instance : Std.Refl (SameAt buffer) := ⟨fun _ ↦ ⟨rfl, rfl⟩⟩

instance : IsTrans Engine (SameAt buffer) :=
  ⟨fun _ _ _ hfirst hlast ↦ ⟨hlast.1.trans hfirst.1, hlast.2.trans hfirst.2⟩⟩

/-- Nothing has happened to an array, but that news of its host copy have been sent if it is among
those that are read. -/
def SentAmong (reads : List Nat) (before after : Engine) (buffer : Nat) (old : ArrayState) : Prop :=
  if buffer ∈ reads then
    after.arrays.lookup buffer = some { old with hostDirty := false } ∧
      after.device.bytesOf buffer = before.content buffer
  else
    after.arrays.lookup buffer = some old ∧
      after.device.bytesOf buffer = before.device.bytesOf buffer

end Engine

theorem sameAt_send {other : Nat} (hother : other ≠ buffer) :
    Moves (SameAt buffer) (Action.send other) := by
  intro engine
  rcases send_cases engine other with ⟨-, -, h⟩ | ⟨-, -, h⟩ | ⟨-, -, h⟩
  · rw [h]
    exact refl_of (SameAt buffer) engine
  · rw [h]
    exact refl_of (SameAt buffer) engine
  · rw [h]
    exact ⟨lookup_setArray_of_ne _ hother.symm,
      (Device.sameOutside_write engine.device other _).bytes buffer hother.symm⟩

/-- Preparations leave arrays alone that are neither read nor the targets of copies. -/
theorem sameAt_prepare (hreads : buffer ∉ readBy dispatches)
    (hcopies : buffer ∉ copies.map Prod.snd) :
    Moves (SameAt buffer) (Action.prepare dispatches copies) := by
  refine .bind (.bind (.forM _ fun other hmem ↦ sameAt_send fun heq ↦ hreads (heq ▸ hmem))
    fun _ _ ↦ ⟨rfl, rfl⟩) fun _ ↦
    .bind (.mapM _ fun dispatch _ ↦ (compiles_encode dispatch).mono fun _ _ h ↦ ?_) fun _ ↦
      .bind (.mapM _ fun copy hmem ↦ .bind (sameAt_send fun heq ↦ ?_) fun _ ↦ .bind .get fun _ ↦
        .pure _) fun _ ↦ .pure _
  · exact ⟨by rw [h.arrays], by rw [Device.bytesOf, Device.bytesOf, h.buffers]⟩
  · exact hcopies (heq ▸ List.mem_map_of_mem hmem)

theorem sentAmong_of_prepare (hfitting : engine.Fitting)
    (h : outcomeOf (Action.prepare dispatches copies) engine = .ok commands)
    (hold : engine.arrays.lookup buffer = some old) (hcopies : buffer ∉ copies.map Prod.snd) :
    SentAmong (readBy dispatches) engine (stateAfter (Action.prepare dispatches copies) engine)
      buffer old := by
  unfold SentAmong
  split
  · next hread =>
    have hclean := hostDirty_of_prepare h hread
    obtain ⟨-, hunharmed⟩ := harmless_prepare dispatches copies engine hfitting
    rw [content_of_lookup hold]
    rcases hunharmed.arrays buffer old hold with ⟨hlookup, hbytes⟩ | ⟨hdirty, hlookup, hbytes⟩
    · rw [array_of_lookup hlookup] at hclean
      rw [hlookup, hbytes, hclean]
      exact ⟨by rw [← hclean], rfl⟩
    · rw [if_pos hdirty]
      exact ⟨hlookup, hbytes⟩
  · next hread =>
    obtain ⟨hlookup, hbytes⟩ := sameAt_prepare hread hcopies engine
    exact ⟨hlookup.trans hold, hbytes⟩

theorem Engine.SentAmong.trans_sameAt {reads : List Nat} {first middle last : Engine}
    (hfirst : SentAmong reads first middle buffer old) (hlast : SameAt buffer middle last) :
    SentAmong reads first last buffer old := by
  unfold SentAmong at hfirst ⊢
  rwa [hlast.1, hlast.2]

/-! ### Submissions that succeed -/

/-- What a submission has done that has succeeded. -/
structure Engine.Submits (dispatches : List Dispatch) (copies : List (Nat × Nat))
    (passes moves : List Command) (before after : Engine) : Prop where
  serial : after.serial = before.serial + 1
  submissions : after.device.submissions = before.device.submissions ++ [passes ++ moves]
  encodes : List.Forall₂ (fun dispatch pass ↦ after.device.Encodes dispatch
    (gridFor before.workgroupSize before.maxWorkgroups dispatch.lanes) pass) dispatches passes
  moves : List.Forall₂ (fun copy move ↦
    move = .copy copy.1 copy.2 (after.device.sizeOf copy.2)) copies moves
  sizes : SameSizes before after
  written : ∀ buffer ∈ writtenBy dispatches copies, ∀ old,
    before.arrays.lookup buffer = some old →
      ∃ new, after.arrays.lookup buffer = some new ∧ Marked old new
  others : ∀ buffer, buffer ∉ writtenBy dispatches copies → ∀ old,
    before.arrays.lookup buffer = some old → SentAmong (readBy dispatches) before after buffer old
  untouched : ∀ buffer, buffer ∉ readBy dispatches → buffer ∉ writtenBy dispatches copies →
    SameAt buffer before after

theorem sameSizes_prepare (dispatches : List Dispatch) (copies : List (Nat × Nat)) :
    Moves SameSizes (Action.prepare dispatches copies) :=
  .prepare sameSizes_send (fun _ _ ↦ rfl)
    (fun dispatch ↦ (compiles_encode dispatch).mono fun _ _ h buffer ↦
      congrArg (fun buffers ↦ ((numbered buffers buffer).getD (.zeros 0)).size) h.buffers) _ _

theorem sameSizes_submit (dispatches : List Dispatch) (helpers : List Nat)
    (copies : List (Nat × Nat)) : Moves SameSizes (Action.submit dispatches helpers copies) := by
  refine .submit sameSizes_send (fun _ _ ↦ rfl)
    (fun dispatch ↦ (compiles_encode dispatch).mono fun _ _ h buffer ↦
      congrArg (fun buffers ↦ ((numbered buffers buffer).getD (.zeros 0)).size) h.buffers)
    (fun _ _ _ ↦ rfl) (fun commands engine buffer ↦
      (Device.sameOutside_submit commands engine.device).size buffer)
    (fun serial helpers engine buffer ↦ ?_) _ _ _
  obtain ⟨-, hbuffers⟩ := memory_eq_iff.mp (memory_settle serial helpers engine)
  rw [Device.sizeOf, Device.sizeOf, Device.bytesOf, Device.bytesOf, hbuffers]

/-- Arrays that are there are marked if they are written. -/
theorem exists_marked_of_prepare {marked : Engine} (hfitting : engine.Fitting)
    (hmarked : MarkedAll (writtenBy dispatches copies)
      (stateAfter (Action.prepare dispatches copies) engine) marked)
    (hsame : SameFixture (stateAfter (Action.prepare dispatches copies) engine) marked)
    (hmem : buffer ∈ writtenBy dispatches copies) (hold : engine.arrays.lookup buffer = some old) :
    ∃ new, marked.arrays.lookup buffer = some new ∧ Marked old new := by
  obtain ⟨-, hunharmed⟩ := harmless_prepare dispatches copies engine hfitting
  have hkept := hunharmed.arrays buffer old hold
  obtain ⟨new, hnew⟩ := hsame.exists_lookup <| by
    rcases hkept with ⟨hlookup, -⟩ | ⟨-, hlookup, -⟩
    · exact ⟨_, hlookup⟩
    · exact ⟨_, hlookup⟩
  obtain ⟨middle, hmiddle, hnews⟩ := hmarked.marked buffer hmem new hnew
  refine ⟨new, hnew, ?_⟩
  rcases hkept with ⟨hlookup, -⟩ | ⟨-, hlookup, -⟩
  · rw [hlookup] at hmiddle
    cases hmiddle
    exact hnews
  · rw [hlookup] at hmiddle
    cases hmiddle
    exact hnews

theorem submits_of_submit (hfitting : engine.Fitting) (hfaithful : engine.FaithfulCaches)
    (hplain : ∀ dispatch ∈ dispatches, dispatch.ReadsPlain)
    (h : outcomeOf (Action.submit dispatches helpers copies) engine = .ok serial) :
    ∃ passes moves, Submits dispatches copies passes moves engine
      (stateAfter (Action.submit dispatches helpers copies) engine) := by
  obtain ⟨commands, marked, -, hcommands, hmark, -, hafter⟩ := submit_eq_ok h
  obtain ⟨passes, moves, rfl, hpasses, hmoves⟩ := encodes_of_prepare hfaithful hcommands
  set prepared := stateAfter (Action.prepare dispatches copies) engine with hprepared
  set submitted := stateAfter (Action.submitCommands (passes ++ moves)) marked
  set after := stateAfter (Action.submit dispatches helpers copies) engine
  obtain ⟨hmarked, -⟩ := markedAll_forM (writtenBy dispatches copies) prepared
  rw [← hmark] at hmarked
  have hcalm : Calm engine marked := by
    refine (calm_prepare dispatches copies engine).trans ?_
    rw [hmark]
    exact Moves.forM _ (fun buffer _ ↦ calm_markDeviceDirty buffer) prepared
  have hfixture : SameFixture prepared marked := by
    rw [hmark]
    exact Moves.forM _ (fun buffer _ ↦ sameFixture_markDeviceDirty buffer) prepared
  obtain ⟨hlookups, hbuffers⟩ := memory_eq_iff.mp (memory_settle serial helpers submitted)
  obtain ⟨hserial, hsubmissions⟩ := settle_submissions serial helpers submitted
  have hobjects := objects_settle serial helpers submitted
  rw [← hafter] at hlookups hbuffers hserial hsubmissions hobjects
  have hdevice : submitted.device = prepared.device.submit (passes ++ moves) := by
    rw [← hmarked.device]
    rfl
  have hoccupied := Device.sameOutside_submit (passes ++ moves) prepared.device
  rw [← hdevice] at hoccupied
  have hbytes (buffer : Nat) : after.device.bytesOf buffer = submitted.device.bytesOf buffer := by
    rw [Device.bytesOf, Device.bytesOf, hbuffers]
  have hsizes : SameSizes prepared after := fun buffer ↦
    (congrArg Bytes.size (hbytes buffer)).trans (hoccupied.size buffer)
  have hunwritten (buffer : Nat) (hmem : buffer ∉ writtenBy dispatches copies) :
      SameAt buffer prepared after := by
    refine ⟨(hlookups buffer).trans (hmarked.others buffer hmem), (hbytes buffer).trans ?_⟩
    refine hoccupied.bytes buffer ?_
    rintro ⟨command, hcommand, hwrites⟩
    exact hmem (mem_writtenBy_of_prepare hfaithful hplain hcommands hcommand hwrites)
  refine ⟨passes, moves, ?_⟩
  constructor
  case serial =>
    rw [hserial, ← hcalm.serial]
    rfl
  case submissions =>
    rw [hsubmissions, hdevice, Device.submissions_submit, ← hmarked.device,
      Device.submissions_of_quietUntil hcalm.quiet]
  case encodes =>
    have hgrow : prepared.device.Grows after.device :=
      .of_objects (by rw [hobjects, hdevice, Device.objects_submit])
    exact hpasses.imp fun _ _ ↦ .mono hgrow
  case moves =>
    refine hmoves.imp fun copy move hmove ↦ ?_
    rw [hmove, hsizes]
  case sizes => exact trans_of SameSizes (sameSizes_prepare dispatches copies engine) hsizes
  case written =>
    intro buffer hmem old hold
    obtain ⟨new, hnew, hnews⟩ := exists_marked_of_prepare hfitting hmarked hfixture hmem hold
    exact ⟨new, (hlookups buffer).trans hnew, hnews⟩
  case others =>
    intro buffer hmem old hold
    exact (sentAmong_of_prepare hfitting hcommands hold fun h ↦
      hmem (List.mem_append_right _ h)).trans_sameAt (hunwritten buffer hmem)
  case untouched =>
    intro buffer hread hmem
    exact trans_of (SameAt buffer) (sameAt_prepare hread (fun h ↦
      hmem (List.mem_append_right _ h)) engine) (hunwritten buffer hmem)

/-! ### Copies that go out last -/

/-- A copy of the whole target leaves there what the source holds. -/
theorem Device.same_perform_copy {device : Device} {source target : Nat} (hapart : source ≠ target)
    (hsize : device.sizeOf source = device.sizeOf target) (hpos : 1 ≤ target)
    (hle : target ≤ device.buffers.size) :
    ((device.perform (.copy source target (device.sizeOf target))).bytesOf target).Same
      ((device.perform (.copy source target (device.sizeOf target))).bytesOf source) := by
  have htaken : ((device.bytesOf source).take (device.sizeOf source)).Same
      (device.bytesOf source) := Bytes.same_take _
  rw [perform, bytesOf_setBytes_self _ hpos hle, bytesOf_setBytes_of_ne _ hapart, ← hsize,
    Bytes.overwrite_of_size_eq (htaken.1.trans hsize)]
  exact htaken

/-- An array that the passes write, and that is copied into another one of its size after them, is
the same as that one when the submission has gone out. -/
theorem same_of_submit {source target : Nat} {array : ArrayState} (hfitting : engine.Fitting)
    (hfaithful : engine.FaithfulCaches) (hplain : ∀ dispatch ∈ dispatches, dispatch.ReadsPlain)
    (hapart : source ≠ target) (hsize : engine.device.sizeOf source = engine.device.sizeOf target)
    (hsource : engine.arrays.lookup source = some array)
    (htarget : engine.arrays.lookup target = some old)
    (hwritten : source ∈ writtenBy dispatches [(source, target)])
    (h : outcomeOf (Action.submit dispatches helpers [(source, target)]) engine = .ok serial) :
    let after := stateAfter (Action.submit dispatches helpers [(source, target)]) engine
    (after.device.bytesOf target).Same (after.device.bytesOf source) := by
  intro after
  obtain ⟨_, _, hsubmits⟩ := submits_of_submit hfitting hfaithful hplain h
  obtain ⟨commands, hcommands, -, hcontent⟩ := content_of_submit h
  obtain ⟨passes, moves, rfl, -, hmoves⟩ := encodes_of_prepare hfaithful hcommands
  obtain ⟨move, _, rfl, hnil, rfl⟩ := List.forall₂_cons_left_iff.mp hmoves
  cases hnil
  set prepared := stateAfter (Action.prepare dispatches [(source, target)]) engine with hprepared
  set ran := passes.foldl Device.perform prepared.device with hran
  -- Both arrays are marked, so the device holds what they hold.
  have hbytes {buffer : Nat} {array : ArrayState}
      (hlookup : engine.arrays.lookup buffer = some array)
      (hmem : buffer ∈ writtenBy dispatches [(source, target)]) :
      after.device.bytesOf buffer =
        (ran.perform (.copy source target (prepared.device.sizeOf target))).bytesOf buffer := by
    obtain ⟨new, hnew, hnews⟩ := hsubmits.written buffer hmem array hlookup
    have hfinal := (hcontent buffer hmem ⟨array, hlookup⟩).2
    rw [content_of_lookup hnew, hnews.hostDirty, Device.submit, Device.bytesOf_record,
      List.foldl_append] at hfinal
    exact hfinal
  have hsame := Device.sameOutside_foldl_perform passes prepared.device
  have hsizes := sameSizes_prepare dispatches [(source, target)] engine
  have hfits := hfitting target old htarget
  rw [hbytes hsource hwritten, hbytes htarget (List.mem_append_right _ List.mem_cons_self),
    ← hsame.size target]
  refine Device.same_perform_copy hapart ?_ hfits.pos ?_
  · rw [hsame.size, hsame.size, hsizes source, hsizes target, hsize]
  · rw [hsame.count]
    exact Nat.le_trans hfits.le (calm_prepare dispatches [(source, target)] engine).count

end ComputeArray
