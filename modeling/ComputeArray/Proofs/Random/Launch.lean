import ComputeArray.Proofs.Aliasing.Calls
import ComputeArray.Proofs.Launch.Coverage
import ComputeArray.Proofs.Random.Construction
import ComputeArray.Proofs.Random.Draw

/-!
# Passes over the streams of an engine

An engine hands a pass over the streams of a generator to its device in a grid that has a lane for
every stream. If the device runs the kernel of the pass for each invocation of the grid, in whatever
order, the array of the streams holds all of them advanced when the submission has succeeded, and
the outputs hold what each stream gave (`submit_pass`).
-/

set_option autoImplicit false

namespace ComputeArray

open Engine Kernel ComputeArray.Random

namespace Device

/-- Wherever a pipeline was made of the source of a kernel, the device runs the kernel for all the
invocations of a grid, in some order. -/
def Runs (device : Device) (kernel : Kernel) (width : Int) (rounding : Rounding) : Prop :=
  ∀ count pipeline layout buffers grid parts held,
    numbered device.pipelines pipeline = some parts →
    numbered device.modules parts.module = some kernel.source →
    ∃ order rounds, order.Perm (Invocation.all width grid) ∧
      device.computing count (.dispatch pipeline layout buffers grid) held =
        kernel.processGrid rounding rounds order held

theorem Runs.of_grows {before after : Device} {kernel : Kernel} {width : Int} {rounding : Rounding}
    (hgrow : before.Grows after) (hcomputing : after.computing = before.computing)
    (h : after.Runs kernel width rounding) : before.Runs kernel width rounding := by
  intro count pipeline layout buffers grid parts held hparts hmodule
  rw [← hcomputing]
  exact h count pipeline layout buffers grid parts held (hgrow.pipelines _ _ hparts)
    (hgrow.modules _ _ hmodule)

end Device

namespace Generator

variable {engine before after : Engine} {state n serial : Nat} {rows : List StreamState}
  {pass : Pass} {rounding : Rounding} {outs : List Nat}

/-- The limits of the device let an engine draw from so many streams: the invocations of a dispatch
are numbered by words, and a kernel has the lengths of its arrays as words, where half floats may be
padded by one. -/
structure Fits (engine : Engine) (n : Nat) : Prop where
  width : 1 ≤ engine.workgroupSize
  widthWord : engine.workgroupSize < 2 ^ 32
  groups : 1 ≤ engine.maxWorkgroups
  invocations : (gridFor engine.workgroupSize engine.maxWorkgroups n).1 *
    (gridFor engine.workgroupSize engine.maxWorkgroups n).2 * engine.workgroupSize ≤ 2 ^ 32
  elements : n + n % 2 < 2 ^ 32

theorem Fits.of_eq (hwidth : after.workgroupSize = before.workgroupSize)
    (hgroups : after.maxWorkgroups = before.maxWorkgroups) (h : Fits before n) : Fits after n := by
  obtain ⟨hpos, hword, hlimit, hinvocations, helements⟩ := h
  rw [← hwidth] at hpos hword hinvocations
  rw [← hgroups] at hlimit hinvocations
  exact ⟨hpos, hword, hlimit, hinvocations, helements⟩

/-- The grid of a draw has a lane for each stream, and its lanes have words for their numbers. -/
theorem Fits.lanes (h : Fits engine n) :
    let grid := gridFor engine.workgroupSize engine.maxWorkgroups n
    n ≤ grid.1.toNat * grid.2.toNat * engine.workgroupSize.toNat ∧
      grid.1.toNat * grid.2.toNat * engine.workgroupSize.toNat ≤ 2 ^ 32 := by
  intro grid
  have hcovers := covers_gridFor n h.width h.groups
  have hcolumns : 0 ≤ grid.1 := Int.le_of_lt hcovers.columns.1
  have hrows : 0 ≤ grid.2 := Int.le_of_lt hcovers.least.1
  have hwidth : 0 ≤ engine.workgroupSize := Int.le_of_lt h.width
  have hcount : grid.1.toNat * grid.2.toNat * engine.workgroupSize.toNat =
      (grid.1 * grid.2 * engine.workgroupSize).toNat := by
    rw [Int.toNat_mul (mul_nonneg hcolumns hrows) hwidth, Int.toNat_mul hcolumns hrows]
  have hcovered : (n : Int) ≤ grid.1 * grid.2 * engine.workgroupSize := hcovers.covered
  have hinvocations : grid.1 * grid.2 * engine.workgroupSize ≤ 2 ^ 32 := h.invocations
  rw [hcount]
  omega

/-- An array holds the streams of a generator, one in each row. -/
structure HoldsStreams (engine : Engine) (state : Nat) (rows : List StreamState) : Prop where
  found : ∃ array, engine.arrays.lookup state = some array
  streams : (engine.content state).streams = rows
  size : (engine.content state).size = 16 * rows.length

/-- A pass over streams leaves them advanced, and its outputs filled. -/
theorem map_bytesOf_perform {device : Device} {command : Command} {generator : Generator}
    (hfits : Fits engine n) (hpass : pass.Drawable) (hsize : generator.size = n)
    (hcount : rows.length = n) (hrows : (device.bytesOf state).streams = rows)
    (hstates : (device.bytesOf state).size = 16 * n)
    (hlength : outs.length = pass.outputs.length) (hnodup : (state :: outs).Nodup)
    (hrange : ∀ buffer ∈ state :: outs, 1 ≤ buffer ∧ buffer ≤ device.buffers.size)
    (hroomy : ∀ (k : Nat) output (out : Nat), pass.outputs[k]? = some output →
      outs[k]? = some out → Pass.Roomy n output (device.bytesOf out))
    (hruns : device.Runs (pass.kernel engine.workgroupSize) engine.workgroupSize rounding)
    (hcommand : device.Encodes
      (generator.dispatch state (pass.kernel engine.workgroupSize) outs)
      (gridFor engine.workgroupSize engine.maxWorkgroups n) command) :
    ((device.perform command).bytesOf state).streams = rows.map StreamState.next^[pass.steps] ∧
      ((device.perform command).bytesOf state).size = 16 * n ∧
      ∀ (k : Nat) output (out : Nat), pass.outputs[k]? = some output → outs[k]? = some out →
        Pass.Stored rounding rows output ((device.perform command).bytesOf out) := by
  subst hcount
  obtain ⟨hcovered, hwords⟩ := hfits.lanes
  have hsmall : rows.length < 2 ^ 32 := Nat.lt_of_le_of_lt (Nat.le_add_right _ _) hfits.elements
  have hbytes (k : Nat) output (bytes : Bytes) (houtput : pass.outputs[k]? = some output)
      (hbytes : (outs.map device.bytesOf)[k]? = some bytes) :
      Pass.Roomy rows.length output bytes := by
    rw [List.getElem?_map] at hbytes
    obtain ⟨out, hout, rfl⟩ := Option.map_eq_some_iff.mp hbytes
    exact hroomy k output out houtput hout
  obtain ⟨states', outs', hresults, hstreams, hsize', hsizes, hstored⟩ :
      ∃ states' outs', device.computing device.passCount command
          ((state :: outs).map device.bytesOf) = states' :: outs' ∧
        states'.streams = rows.map StreamState.next^[pass.steps] ∧
        states'.size = 16 * rows.length ∧
        outs'.map Bytes.size = (outs.map device.bytesOf).map Bytes.size ∧
        ∀ (k : Nat) output (bytes : Bytes), pass.outputs[k]? = some output →
          outs'[k]? = some bytes → Pass.Stored rounding rows output bytes := by
    obtain ⟨pipeline, layout, slots, parts, rfl, -, -, hparts, hmodule⟩ := hcommand
    obtain ⟨order, rounds, hperm, hcomputing⟩ := hruns device.passCount pipeline layout slots _
      parts ((state :: outs).map device.bytesOf) hparts hmodule
    rw [hcomputing]
    exact Pass.processGrid_pass rounding rounds hpass (Int.le_of_lt hfits.width) hfits.widthWord
      hrows hsmall (by rw [List.length_map, hlength]) hbytes hperm hcovered hwords
  have hbuffers : (generator.dispatch state (pass.kernel engine.workgroupSize) outs).bindings.map
      (fun binding ↦ binding.1.buffer) = state :: outs := by
    simp [dispatch, Resource.buffer, Function.comp_def]
  have hwrites : ∀ mode ∈
      (generator.dispatch state (pass.kernel engine.workgroupSize) outs).modes, mode ≠ .read := by
    simp [dispatch, Dispatch.modes]
  have hleft : (state :: outs).map (device.perform command).bytesOf = states' :: outs' := by
    refine hcommand.map_bytesOf_perform hbuffers hwrites hnodup hrange ?_ hresults
    rw [List.map_cons, List.map_cons, hsize', hsizes, Device.sizeOf, hstates, List.map_map]
    rfl
  rw [List.map_cons, List.cons.injEq] at hleft
  obtain ⟨hstate, houts⟩ := hleft
  rw [hstate]
  refine ⟨hstreams, hsize', fun k output out houtput hout ↦ hstored k output _ houtput ?_⟩
  rw [← houts, List.getElem?_map, hout]
  rfl

/-! ### Submissions -/

theorem readBy_dispatch (generator : Generator) (state : Nat) (kernel : Kernel) (outs : List Nat) :
    readBy [generator.dispatch state kernel outs] = [state] := by
  simp [readBy, dispatch, Dispatch.arrays]

theorem writtenBy_dispatch (generator : Generator) (state : Nat) (kernel : Kernel)
    (outs : List Nat) : writtenBy [generator.dispatch state kernel outs] [] = state :: outs := by
  simp [writtenBy, dispatch, Dispatch.arrays]

theorem readsPlain_dispatch (generator : Generator) (state : Nat) (kernel : Kernel)
    (outs : List Nat) :
    ∀ dispatch ∈ [generator.dispatch state kernel outs], dispatch.ReadsPlain := by
  intro found hmem buffer mode hbinding
  obtain rfl := List.mem_singleton.mp hmem
  simp [dispatch] at hbinding

/-- A submission of a pass leaves the streams advanced, and its outputs filled. -/
theorem submit_pass {generator : Generator} (hcoherent : engine.Coherent)
    (hfaithful : engine.FaithfulCaches) (hfits : Fits engine n) (hpass : pass.Drawable)
    (hsize : generator.size = n) (hcount : rows.length = n)
    (hstreams : HoldsStreams engine state rows) (hlength : outs.length = pass.outputs.length)
    (hnodup : (state :: outs).Nodup)
    (hfound : ∀ out ∈ outs, ∃ array, engine.arrays.lookup out = some array)
    (hroomy : ∀ (k : Nat) output (out : Nat), pass.outputs[k]? = some output →
      outs[k]? = some out → Pass.Roomy n output (engine.device.bytesOf out))
    (hruns : (stateAfter (Action.submit
      [generator.dispatch state (pass.kernel engine.workgroupSize) outs] [] []) engine).device.Runs
        (pass.kernel engine.workgroupSize) engine.workgroupSize rounding)
    (h : outcomeOf (Action.submit
      [generator.dispatch state (pass.kernel engine.workgroupSize) outs] [] []) engine =
        .ok serial) :
    let after := stateAfter (Action.submit
      [generator.dispatch state (pass.kernel engine.workgroupSize) outs] [] []) engine
    HoldsStreams after state (rows.map StreamState.next^[pass.steps]) ∧
      ∀ (k : Nat) output (out : Nat), pass.outputs[k]? = some output → outs[k]? = some out →
        Pass.Stored rounding rows output (after.content out) := by
  intro after
  set dispatch := generator.dispatch state (pass.kernel engine.workgroupSize) outs with hdispatch
  set prepared := stateAfter (Action.prepare [dispatch] []) engine with hprepared
  obtain ⟨commands, hcommands, hobjects, hwritten⟩ := content_of_submit h
  obtain ⟨passes, moves, rfl, hencodes, hmoves⟩ := encodes_of_prepare hfaithful hcommands
  cases hmoves
  obtain ⟨command, _, hencode, hnil, rfl⟩ := List.forall₂_cons_left_iff.mp hencodes
  cases hnil
  have hfixture : SameFixture engine prepared := sameFixture_prepare _ _ engine
  have hsame : SameFixture engine after := sameFixture_submit _ _ _ engine
  have hsizes : SameSizes engine prepared := sameSizes_prepare [dispatch] [] engine
  have hfound' : ∀ buffer ∈ state :: outs, ∃ array, engine.arrays.lookup buffer = some array :=
    List.forall_mem_cons.mpr ⟨hstreams.found, hfound⟩
  have hrange : ∀ buffer ∈ state :: outs, 1 ≤ buffer ∧ buffer ≤ prepared.device.buffers.size := by
    intro buffer hmem
    obtain ⟨array, harray⟩ := hfixture.exists_lookup (hfound' buffer hmem)
    have hcopies :=
      ((preparing_prepare [dispatch] [] engine).steady hcoherent).1 buffer array harray
    exact ⟨hcopies.pos, hcopies.le⟩
  have hstate : prepared.device.bytesOf state = engine.content state :=
    bytesOf_of_prepare hcoherent hcommands (by rw [hdispatch, readBy_dispatch]; simp)
  have hroomy' (k : Nat) output (out : Nat) (houtput : pass.outputs[k]? = some output)
      (hout : outs[k]? = some out) : Pass.Roomy n output (prepared.device.bytesOf out) := by
    obtain ⟨hroom, hwords⟩ := hroomy k output out houtput hout
    have hsize : (prepared.device.bytesOf out).size = (engine.device.bytesOf out).size := hsizes out
    exact ⟨hsize ▸ hroom, hsize ▸ hwords⟩
  have hlanes : dispatch.lanes = n := congrArg Int.ofNat hsize
  rw [hlanes] at hencode
  obtain ⟨hrows, hbytes, hstored⟩ := map_bytesOf_perform hfits hpass hsize hcount
    (hstate ▸ hstreams.streams) (by rw [hstate, hstreams.size, hcount]) hlength hnodup hrange
    hroomy' (hruns.of_grows (.of_objects hobjects) (hsame.computing.trans hfixture.computing.symm))
    hencode
  have hcontent : ∀ buffer ∈ state :: outs,
      after.content buffer = (prepared.device.perform command).bytesOf buffer := fun buffer hmem ↦
    (hwritten buffer (by rwa [hdispatch, writtenBy_dispatch]) (hfound' buffer hmem)).2
  refine ⟨⟨hsame.exists_lookup hstreams.found, ?_, ?_⟩, fun k output out houtput hout ↦ ?_⟩
  · rw [hcontent state List.mem_cons_self, hrows]
  · rw [hcontent state List.mem_cons_self, hbytes, List.length_map, hcount]
  · rw [hcontent out (List.mem_cons_of_mem _ (List.mem_of_getElem? hout))]
    exact hstored k output out houtput hout

end Generator

/-! ### Outputs -/

namespace Generator

/-- New arrays for outputs of so many elements each, in buffers one after the other. -/
structure Stocked (n : Nat) (outputs : List (String × ElementType × (StreamState → Register)))
    (outs : List Nat) (before after : Engine) : Prop extends Enlarges before after where
  coherent : after.Coherent
  faithful : after.FaithfulCaches
  lost : after.lost = before.lost
  options : after.options = before.options
  limits : after.device.limits = before.device.limits
  computing : after.device.computing = before.device.computing
  objects : after.device.objects = before.device.objects
  numbers : outs = List.range' before.nextBuffer outputs.length
  next : after.nextBuffer = before.nextBuffer + outputs.length
  made : ∀ (k : Nat) output (out : Nat), outputs[k]? = some output → outs[k]? = some out →
    (∃ array, after.arrays.lookup out = some array ∧ array.released = false) ∧
      (n ≤ (after.device.bytesOf out).size / output.2.1.size ∧
        (after.device.bytesOf out).size / output.2.1.size ≤ n + n % 2)

variable {engine before after : Engine} {n : Nat}
  {outputs : List (String × ElementType × (StreamState → Register))} {outs : List Nat}

theorem Stocked.length_eq (h : Stocked n outputs outs before after) :
    outs.length = outputs.length := by
  rw [h.numbers, List.length_range']

theorem Stocked.workgroupSize_eq (h : Stocked n outputs outs before after) :
    after.workgroupSize = before.workgroupSize := by
  rw [workgroupSize, workgroupSize, h.options, h.limits]

theorem Stocked.maxWorkgroups_eq (h : Stocked n outputs outs before after) :
    after.maxWorkgroups = before.maxWorkgroups := by
  rw [maxWorkgroups, maxWorkgroups, h.limits]

theorem Stocked.exists_made (h : Stocked n outputs outs before after) {out : Nat}
    (hmem : out ∈ outs) :
    ∃ array, after.arrays.lookup out = some array ∧ array.released = false := by
  obtain ⟨k, hk, rfl⟩ := List.getElem_of_mem hmem
  have houtput : k < outputs.length := h.length_eq ▸ hk
  exact (h.made k _ outs[k] (List.getElem?_eq_getElem houtput) (List.getElem?_eq_getElem hk)).1

/-- Arrays that were there lie before the new ones. -/
theorem Stocked.not_mem_of_lookup (h : Stocked n outputs outs before after)
    (hcoherent : before.Coherent) {buffer : Nat} {old : ArrayState}
    (hlookup : before.arrays.lookup buffer = some old) : buffer ∉ outs := by
  have hold : buffer < before.nextBuffer := numbered_of_coherent hcoherent buffer old hlookup
  rw [h.numbers, List.mem_range'_1]
  omega

theorem Stocked.content_of_lookup (h : Stocked n outputs outs before after)
    (hcoherent : before.Coherent) {buffer : Nat} {old : ArrayState}
    (hlookup : before.arrays.lookup buffer = some old) :
    after.content buffer = before.content buffer := by
  have hold : buffer < before.nextBuffer := numbered_of_coherent hcoherent buffer old hlookup
  rw [Engine.content_of_lookup (h.arrays buffer old hlookup), Engine.content_of_lookup hlookup,
    h.bytes buffer hold]

theorem Stocked.holdsStreams {state : Nat} {rows : List StreamState}
    (h : Stocked n outputs outs before after) (hcoherent : before.Coherent)
    (hstreams : HoldsStreams before state rows) : HoldsStreams after state rows := by
  obtain ⟨⟨old, hstate⟩, hrows, hsize⟩ := hstreams
  rw [← h.content_of_lookup hcoherent hstate] at hrows hsize
  exact ⟨⟨old, h.arrays state old hstate⟩, hrows, hsize⟩

theorem Stocked.append {first middle last : Engine} {outs' : List Nat}
    {outputs' : List (String × ElementType × (StreamState → Register))}
    (hfirst : Stocked n outputs outs first middle) (hlast : Stocked n outputs' outs' middle last) :
    Stocked n (outputs ++ outputs') (outs ++ outs') first last where
  toEnlarges := trans_of Enlarges hfirst.toEnlarges hlast.toEnlarges
  coherent := hlast.coherent
  faithful := hlast.faithful
  lost := hlast.lost.trans hfirst.lost
  options := hlast.options.trans hfirst.options
  limits := hlast.limits.trans hfirst.limits
  computing := hlast.computing.trans hfirst.computing
  objects := hlast.objects.trans hfirst.objects
  numbers := by
    rw [hfirst.numbers, hlast.numbers, hfirst.next, List.length_append, List.range'_append_1]
  next := by rw [hlast.next, hfirst.next, List.length_append, Nat.add_assoc]
  made k output out houtput hout := by
    rw [List.getElem?_append] at houtput hout
    rw [hfirst.length_eq] at hout
    split at houtput
    · next hk =>
      rw [if_pos hk] at hout
      obtain ⟨⟨array, harray, hreleased⟩, hroom⟩ := hfirst.made k output out houtput hout
      have hold : out < middle.nextBuffer :=
        Nat.lt_succ_of_le (hfirst.coherent out array harray).le
      rw [hlast.bytes out hold]
      exact ⟨⟨array, hlast.arrays out array harray, hreleased⟩, hroom⟩
    · next hk =>
      rw [if_neg hk] at hout
      exact hlast.made _ output out houtput hout

theorem stocked_newContiguous {output : String × ElementType × (StreamState → Register)}
    {out : Nat} (hpos : 0 < n) (hlt : n < 2 ^ 63) (hcoherent : engine.Coherent)
    (hfaithful : engine.FaithfulCaches)
    (h : outcomeOf (Action.newContiguous output.2.1 [(n : Int)]) engine = .ok out) :
    Stocked n [output] [out] engine
      (stateAfter (Action.newContiguous output.2.1 [(n : Int)]) engine) := by
  obtain ⟨hcoherent', hfaithful'⟩ := coherent_of_madeOf
    (madeOf_newContiguous output.2.1 [(n : Int)]).proper hcoherent hfaithful
  have henlarges : Enlarges engine
      (stateAfter (Action.newContiguous output.2.1 [(n : Int)]) engine) :=
    Moves.newContiguous enlarges_allocate _ _ engine
  obtain ⟨size, hsize, -, rfl, -, hafter⟩ := newContiguous_row_eq hpos hlt h
  rw [hafter] at hcoherent' hfaithful' henlarges ⊢
  refine ⟨henlarges, hcoherent', hfaithful', rfl, rfl, rfl, rfl, rfl, rfl,
    nextBuffer_allocated _ _ _, fun k other out houtput hout ↦ ?_⟩
  cases k with
  | succ k => cases houtput
  | zero =>
    cases houtput
    cases hout
    have hbytes : (engine.allocated size (.fresh output.2.1 [n]
        ((Layout.contiguous ([n].map Int.ofNat)).map Int.toNat) false n size)).device.bytesOf
          engine.nextBuffer = .zeros size := Device.bytesOf_push_new _ _
    rw [hbytes]
    exact ⟨⟨_, (numbered_of_coherent hcoherent).lookup_allocated, rfl⟩,
      elements_of_storageBytes hsize⟩

theorem stocked_of_mapM (hpos : 0 < n) (hlt : n < 2 ^ 63) (hcoherent : engine.Coherent)
    (hfaithful : engine.FaithfulCaches)
    (h : outcomeOf (outputs.mapM fun output ↦ Action.newContiguous output.2.1 [(n : Int)]) engine =
      .ok outs) :
    Stocked n outputs outs engine
      (stateAfter (outputs.mapM fun output ↦ Action.newContiguous output.2.1 [(n : Int)])
        engine) := by
  set make : String × ElementType × (StreamState → Register) → Action Nat :=
    fun output ↦ Action.newContiguous output.2.1 [(n : Int)]
  induction outputs generalizing engine outs with
  | nil =>
    cases h
    exact ⟨refl_of Enlarges engine, hcoherent, hfaithful, rfl, rfl, rfl, rfl, rfl, rfl, rfl, nofun⟩
  | cons output rest ih =>
    rw [List.mapM_cons] at h
    simp only [outcomeOf_bind_eq_ok] at h
    obtain ⟨first, hfirst, others, hothers, hpure⟩ := h
    cases hpure
    have hstocked : Stocked n [output] [first] engine (stateAfter (make output) engine) :=
      stocked_newContiguous hpos hlt hcoherent hfaithful hfirst
    rw [(mapM_cons_of_ok hfirst hothers).2]
    exact hstocked.append (ih hstocked.coherent hstocked.faithful hothers)

end Generator

/-! ### Passes with their outputs -/

namespace Action

/-- Makes the outputs of a pass over the streams of a generator, and runs it. -/
def drawPass (generator : Generator) (state : Nat) (pass : Generator.Pass) : Action (List Nat) := do
  let outs ← pass.outputs.mapM fun output => newContiguous output.2.1 [(generator.size : Int)]
  let kernel := pass.kernel (← get).workgroupSize
  let _ ← submit [generator.dispatch state kernel outs] [] []
  return outs

theorem drawUniform_eq (state : Nat) (elementName : Value) :
    drawUniform state elementName = (do
      let generator ← generator state
      let element ← ofExcept (ElementType.ofValue elementName)
      if element = .i32 then throw .noDrawOf
      let outs ← drawPass generator state (.uniform (some element))
      return outs.headD 0) := by
  simp [drawUniform, drawPass, Generator.Pass.outputs, Generator.Pass.kernel]

theorem skipDraw_eq (state : Nat) :
    skipDraw state = (do
      let generator ← generator state
      let _ ← drawPass generator state (.uniform none)) := by
  simp [skipDraw, drawPass, Generator.Pass.outputs, Generator.Pass.kernel]

theorem drawNormalPair_eq (state : Nat) (element : ElementType) :
    drawNormalPair state element = (do
      let generator ← generator state
      let outs ← drawPass generator state (.pair element)
      modify (Engine.setGenerator state
        { generator with kept := some (element, outs.getD 1 0) })
      return outs.headD 0) := by
  simp [drawNormalPair, drawPass, Generator.Pass.outputs, Generator.Pass.kernel]

end Action

namespace Generator

/-- The device was handed a pass of a generator in a submission of its own. -/
def Launches (generator : Generator) (state : Nat) (pass : Pass) (outs : List Nat)
    (before after : Engine) : Prop :=
  ∃ command, after.device.submissions = before.device.submissions ++ [[command]] ∧
    after.device.Encodes (generator.dispatch state (pass.kernel before.workgroupSize) outs)
      (gridFor before.workgroupSize before.maxWorkgroups generator.size) command

/-- What a pass over the streams of a generator has done, together with making its outputs. -/
structure Draws (generator : Generator) (state : Nat) (rows : List StreamState) (pass : Pass)
    (rounding : Rounding) (outs : List Nat) (before after : Engine) : Prop where
  coherent : after.Coherent
  faithful : after.FaithfulCaches
  active : before.lost = none ∧ after.lost = none
  generators : after.generators = before.generators
  fits : ∀ n, Fits before n → Fits after n
  launches : Launches generator state pass outs before after
  numbers : outs = List.range' before.nextBuffer pass.outputs.length
  made : ∀ out ∈ outs, ∃ array, after.arrays.lookup out = some array ∧ array.released = false
  streams : HoldsStreams after state (rows.map StreamState.next^[pass.steps])
  stored : ∀ (k : Nat) output (out : Nat), pass.outputs[k]? = some output → outs[k]? = some out →
    Pass.Stored rounding rows output (after.content out)
  kept : ∀ buffer old, before.arrays.lookup buffer = some old →
    (∃ new, after.arrays.lookup buffer = some new ∧ new.released = old.released) ∧
      (buffer ≠ state → after.content buffer = before.content buffer)

theorem fitting_of_coherent {engine : Engine} (h : engine.Coherent) : engine.Fitting :=
  fun buffer array hlookup ↦
    let hcopies := h buffer array hlookup
    ⟨hcopies.pos, hcopies.le, hcopies.size, hcopies.exclusive, fun _ hloading ↦ by
      rw [hcopies.idle] at hloading
      cases hloading⟩

variable {engine : Engine} {state n : Nat} {rows : List StreamState} {pass : Pass}
  {rounding : Rounding} {outs : List Nat} {generator : Generator}

/-- Submissions do not mind generators. -/
def SameGenerators (before after : Engine) : Prop := after.generators = before.generators

instance : Std.Refl SameGenerators := ⟨fun _ ↦ rfl⟩

instance : IsTrans Engine SameGenerators := ⟨fun _ _ _ hfirst hlast ↦ Eq.trans hlast hfirst⟩

theorem sameGenerators_createEncoder :
    Moves SameGenerators (Action.changeDevice Device.createEncoder) :=
  fun _ ↦ rfl

theorem sameGenerators_submit (dispatches : List Dispatch) (helpers : List Nat)
    (copies : List (Nat × Nat)) :
    Moves SameGenerators (Action.submit dispatches helpers copies) := by
  refine .submit (fun buffer ↦ (calm_send buffer).mono fun _ _ h ↦ h.generators)
    sameGenerators_createEncoder
    (fun dispatch ↦ (compiles_encode dispatch).mono fun _ _ h ↦ h.generators)
    (fun _ _ ↦ rfl) (fun _ _ ↦ rfl) (fun serial helpers ↦ ?_) _ _ _
  refine .bind (.update fun _ ↦ rfl) fun _ ↦ .bind .get fun engine ↦ ?_
  split
  · exact .bind (fun _ ↦ rfl) fun _ ↦ .update fun _ ↦ rfl
  · exact .pure _

/-- Outputs are made before a pass is submitted. -/
theorem drawPass_eq_ok (h : outcomeOf (Action.drawPass generator state pass) engine = .ok outs) :
    ∃ stocked serial,
      outcomeOf (pass.outputs.mapM fun output ↦
        Action.newContiguous output.2.1 [(generator.size : Int)]) engine = .ok outs ∧
      stocked = stateAfter (pass.outputs.mapM fun output ↦
        Action.newContiguous output.2.1 [(generator.size : Int)]) engine ∧
      outcomeOf (Action.submit
        [generator.dispatch state (pass.kernel stocked.workgroupSize) outs] [] []) stocked =
          .ok serial ∧
      stateAfter (Action.drawPass generator state pass) engine = stateAfter (Action.submit
        [generator.dispatch state (pass.kernel stocked.workgroupSize) outs] [] []) stocked := by
  simp only [Action.drawPass, outcomeOf_bind_eq_ok, outcomeOf_get, stateAfter_get,
    Except.ok.injEq, exists_eq_left'] at h
  obtain ⟨made, hmade, serial, hsubmit, hpure⟩ := h
  cases hpure
  refine ⟨_, serial, hmade, rfl, hsubmit, ?_⟩
  rw [Action.drawPass, stateAfter_bind_of_ok hmade, stateAfter_bind_of_ok (outcomeOf_get _),
    stateAfter_get, stateAfter_bind_of_ok hsubmit, stateAfter_pure]

/-- A submitted pass over the streams of a generator sends and marks the array of the streams, and
keeps all other arrays but its outputs. -/
theorem kept_of_submits {kernel : Kernel} {passes moves : List Command} {before after : Engine}
    (h : Submits [generator.dispatch state kernel outs] [] passes moves before after) {buffer : Nat}
    {old : ArrayState} (hlookup : before.arrays.lookup buffer = some old)
    (hapart : buffer ∉ outs) :
    (∃ new, after.arrays.lookup buffer = some new ∧ new.released = old.released) ∧
      (buffer ≠ state → after.content buffer = before.content buffer) := by
  by_cases hstate : buffer = state
  · obtain ⟨new, hnew, hmarked⟩ := h.written buffer
      (by rw [writtenBy_dispatch, hstate]; exact List.mem_cons_self) old hlookup
    exact ⟨⟨new, hnew, hmarked.released⟩, fun hother ↦ absurd hstate hother⟩
  · have hother := h.others buffer (by rw [writtenBy_dispatch]; simp [hstate, hapart]) old hlookup
    rw [SentAmong, readBy_dispatch, if_neg (by simpa using hstate)] at hother
    obtain ⟨hafter, hbytes⟩ := hother
    refine ⟨⟨old, hafter, rfl⟩, fun _ ↦ ?_⟩
    rw [content_of_lookup hafter, content_of_lookup hlookup, hbytes]

/-- Making the outputs submits nothing, so the pass stands in the only submission. -/
theorem launches_of_submits {outputs : List (String × ElementType × (StreamState → Register))}
    {passes moves : List Command} {before stocked after : Engine}
    (hstocked : Stocked n outputs outs before stocked)
    (h : Submits [generator.dispatch state (pass.kernel stocked.workgroupSize) outs] [] passes
      moves stocked after) :
    Launches generator state pass outs before after := by
  have hmoves := h.moves
  have hsubmissions := h.submissions
  obtain ⟨command, _, hencode, hnil, rfl⟩ := List.forall₂_cons_left_iff.mp h.encodes
  cases hnil
  cases hmoves
  rw [hstocked.workgroupSize_eq, hstocked.maxWorkgroups_eq] at hencode
  rw [Device.submissions_of_quietUntil hstocked.quiet] at hsubmissions
  exact ⟨command, hsubmissions, hencode⟩

theorem draws_of_drawPass (hcoherent : engine.Coherent) (hfaithful : engine.FaithfulCaches)
    (hfits : Fits engine n) (hpos : 1 ≤ n) (hpass : pass.Drawable) (hsize : generator.size = n)
    (hcount : rows.length = n) (hstreams : HoldsStreams engine state rows)
    (hruns : (stateAfter (Action.drawPass generator state pass) engine).device.Runs
      (pass.kernel engine.workgroupSize) engine.workgroupSize rounding)
    (h : outcomeOf (Action.drawPass generator state pass) engine = .ok outs) :
    Draws generator state rows pass rounding outs engine
      (stateAfter (Action.drawPass generator state pass) engine) := by
  subst hsize
  have hlt : generator.size < 2 ^ 63 := by
    have := hfits.elements
    omega
  obtain ⟨stocked, serial, hmade, hdef, hsubmit, hafter⟩ := drawPass_eq_ok h
  have hstocked : Stocked generator.size pass.outputs outs engine stocked :=
    hdef ▸ stocked_of_mapM hpos hlt hcoherent hfaithful hmade
  clear hdef
  have hwidth : stocked.workgroupSize = engine.workgroupSize := hstocked.workgroupSize_eq
  have hgroups : stocked.maxWorkgroups = engine.maxWorkgroups := hstocked.maxWorkgroups_eq
  rw [hafter] at hruns ⊢
  set dispatch := generator.dispatch state (pass.kernel stocked.workgroupSize) outs with hdispatch
  set after := stateAfter (Action.submit [dispatch] [] []) stocked with hdone
  have hnodup : (state :: outs).Nodup := by
    obtain ⟨old, hstate⟩ := hstreams.found
    rw [List.nodup_cons]
    exact ⟨hstocked.not_mem_of_lookup hcoherent hstate, hstocked.numbers ▸ List.nodup_range'⟩
  have hfound (out : Nat) (hmem : out ∈ outs) : ∃ array, stocked.arrays.lookup out = some array :=
    (hstocked.exists_made hmem).imp fun _ h ↦ h.1
  have hroomy (k : Nat) output (out : Nat) (houtput : pass.outputs[k]? = some output)
      (hout : outs[k]? = some out) :
      Pass.Roomy generator.size output (stocked.device.bytesOf out) := by
    obtain ⟨-, hroom, hwords⟩ := hstocked.made k output out houtput hout
    exact ⟨hroom, Nat.lt_of_le_of_lt hwords hfits.elements⟩
  obtain ⟨hadvanced, hstored⟩ := submit_pass hstocked.coherent hstocked.faithful
    (hfits.of_eq hwidth hgroups) hpass rfl hcount (hstocked.holdsStreams hcoherent hstreams)
    hstocked.length_eq hnodup hfound hroomy (hwidth.symm ▸ hruns) hsubmit
  have hplain := readsPlain_dispatch generator state (pass.kernel stocked.workgroupSize) outs
  obtain ⟨passes, moves, hsubmits⟩ := submits_of_submit (fitting_of_coherent hstocked.coherent)
    hstocked.faithful hplain hsubmit
  obtain ⟨_, _, hactive, -⟩ := submit_eq_ok hsubmit
  have hfixture : SameFixture stocked after := sameFixture_submit _ _ _ stocked
  constructor
  case coherent => exact (steady_submit [] [] hstocked.faithful hplain hstocked.coherent).1
  case faithful => exact (caching_submit [dispatch] [] [] stocked hstocked.faithful).1
  case active =>
    exact ⟨hstocked.lost ▸ hactive, (sameLoss_submit [dispatch] [] [] stocked).trans hactive⟩
  case generators =>
    exact (sameGenerators_submit [dispatch] [] [] stocked).trans hstocked.generators
  case fits =>
    exact fun n h ↦ h.of_eq (hfixture.workgroupSize.trans hwidth)
      (hfixture.maxWorkgroups.trans hgroups)
  case launches => exact launches_of_submits hstocked hsubmits
  case numbers => exact hstocked.numbers
  case made =>
    intro out hmem
    obtain ⟨array, harray, hreleased⟩ := hstocked.exists_made hmem
    obtain ⟨new, hnew, hmarked⟩ := hsubmits.written out
      (by rw [writtenBy_dispatch]; exact List.mem_cons_of_mem _ hmem) array harray
    exact ⟨new, hnew, hmarked.released.trans hreleased⟩
  case streams => exact hadvanced
  case stored => exact hstored
  case kept =>
    intro buffer old hlookup
    rw [← hstocked.content_of_lookup hcoherent hlookup]
    exact kept_of_submits hsubmits (hstocked.arrays buffer old hlookup)
      (hstocked.not_mem_of_lookup hcoherent hlookup)

end Generator

end ComputeArray
