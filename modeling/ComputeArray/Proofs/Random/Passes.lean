import ComputeArray.Engine.Generator
import ComputeArray.Proofs.Memory.Pass
import ComputeArray.Proofs.Random.Derive

/-!
# Passes that derive streams

Each pass takes up where the cursor stands: it derives the streams of at most one chunk and leaves
all others as they are (`runSingle_streamsBelow`). So the state of the buffers depends on the number
of passes run so far only, whatever submissions they came in (`deriving_submissions`).
-/

set_option autoImplicit false

namespace ComputeArray

open Engine Kernel ComputeArray.Random

namespace Generator

/-- The rows of the streams, derived below the cursor and zero from there on. -/
def streamsBelow (first : StreamState) (n cursor : Nat) : List StreamState :=
  (List.range n).map fun i ↦ if i < cursor then first.jumpTimes i else .zero

/-- The cursor after a number of passes. -/
def cursorAfter (n passes : Nat) : Nat := min (1 + chunk * passes) n

/-- The passes that derive all streams but the first. -/
def passesFor (n : Nat) : Nat := (n - 1 + chunk - 1) / chunk

def deriveKernel : Kernel := Stream.derive stateOperand (outOperand 1 .u32) chunk

def derivePass (state cursor : Nat) : Dispatch :=
  ⟨deriveKernel.source, [(.array state, .readWrite), (.array cursor, .readWrite)], 1, []⟩

variable {first : StreamState} {n cursor count passes rounds : Nat}

theorem cursorAfter_passesFor (hn : 1 ≤ n) : cursorAfter n (passesFor n) = n := by
  unfold cursorAfter passesFor chunk
  omega

theorem length_streamsBelow (first : StreamState) (n cursor : Nat) :
    (streamsBelow first n cursor).length = n := by
  simp [streamsBelow]

theorem jumpTimes_succ (count : Nat) (s : StreamState) :
    s.jumpTimes (count + 1) = (s.jumpTimes count).jump := by
  induction count generalizing s with
  | zero => rfl
  | succ count ih => exact ih s.jump

/-- Filling rows from the cursor on derives the streams there. -/
theorem jumpedRows_streamsBelow (hpos : 1 ≤ cursor) (h : cursor + count ≤ n) :
    Stream.jumpedRows (streamsBelow first n cursor) cursor count =
      streamsBelow first n (cursor + count) := by
  induction count with
  | zero => rfl
  | succ count ih =>
    have hrow : (streamsBelow first n (cursor + count)).getD (cursor + count - 1) .zero =
        first.jumpTimes (cursor + count - 1) := by
      simp [streamsBelow, show cursor + count - 1 < n by omega,
        show cursor + count - 1 < cursor + count by omega]
    rw [Stream.jumpedRows, ih (by omega), hrow, ← jumpTimes_succ]
    refine List.ext_getElem (by simp [streamsBelow]) fun i hi hi' ↦ ?_
    rw [List.getElem_set]
    by_cases hplace : cursor + count = i
    · subst hplace
      simp [streamsBelow, show cursor + count - 1 + 1 = cursor + count by omega]
    · rw [if_neg hplace]
      have hsame : i < cursor + count ↔ i < cursor + (count + 1) := by omega
      simp [streamsBelow, hsame]

theorem rows_cursorAfter (first : StreamState) (hn : 1 ≤ n) (passes : Nat) :
    Stream.jumpedRows (streamsBelow first n (cursorAfter n passes)) (cursorAfter n passes)
        (min (cursorAfter n passes + chunk) n - cursorAfter n passes) =
      streamsBelow first n (cursorAfter n (passes + 1)) := by
  have hnext : cursorAfter n passes + (min (cursorAfter n passes + chunk) n -
      cursorAfter n passes) = cursorAfter n (passes + 1) := by
    unfold cursorAfter chunk
    omega
  rw [jumpedRows_streamsBelow (by unfold cursorAfter; omega) (by unfold cursorAfter; omega), hnext]

theorem cursorAfter_succ (n passes : Nat) :
    min (cursorAfter n passes + chunk) n = cursorAfter n (passes + 1) := by
  unfold cursorAfter chunk
  omega

/-- A pass derives the streams of the next chunk, and nothing else changes. -/
theorem runSingle_streamsBelow (first : StreamState) (hn : 1 ≤ n) (hfits : n + chunk < 2 ^ 32)
    (hrounds : 32 < rounds) (passes : Nat) :
    deriveKernel.runSingle rounds (Stream.deriveMemory
        (streamsBelow first n (cursorAfter n passes)) (cursorAfter n passes)) =
      some (Stream.deriveMemory (streamsBelow first n (cursorAfter n (passes + 1)))
        (cursorAfter n (passes + 1))) := by
  have hrun : deriveKernel.runSingle rounds (Stream.deriveMemory
      (streamsBelow first n (cursorAfter n passes)) (cursorAfter n passes)) = _ :=
    Stream.runSingle_derive hrounds (Nat.lt_trans (by decide) hrounds)
    (by unfold cursorAfter; omega) (by rw [length_streamsBelow]; exact Nat.min_le_right _ _)
    (by rwa [length_streamsBelow])
  rw [length_streamsBelow, rows_cursorAfter first hn, cursorAfter_succ] at hrun
  exact hrun

/-! ### Buffers -/

/-- What the buffers of the streams and of the cursor hold after a number of passes. -/
structure Holds (first : StreamState) (n passes : Nat) (states cell : Bytes) : Prop where
  streams : states.streams = streamsBelow first n (cursorAfter n passes)
  size : states.size = 16 * n
  cursor : cell.words = [.ofNat (cursorAfter n passes)]
  cursorSize : cell.size = 4

theorem Holds.process {states cell : Bytes} (hn : 1 ≤ n) (hfits : n + chunk < 2 ^ 32)
    (hrounds : 32 < rounds) (h : Holds first n passes states cell) :
    ∃ states' cell', deriveKernel.process rounds [states, cell] = [states', cell'] ∧
      Holds first n (passes + 1) states' cell' := by
  have hprocess : deriveKernel.process rounds [states, cell] = _ := Stream.process_derive hrounds
    (Nat.lt_trans (by decide) hrounds) (show 1 ≤ cursorAfter n passes by unfold cursorAfter; omega)
    (by rw [length_streamsBelow]; exact Nat.min_le_right _ _) (by rwa [length_streamsBelow])
    h.streams h.cursor
  rw [length_streamsBelow, rows_cursorAfter first hn, cursorAfter_succ] at hprocess
  refine ⟨_, _, hprocess, ?_, ?_, ?_, ?_⟩
  · rw [Register.streams_bytesOf]
  · rw [Register.size_bytesOf_vectors, length_streamsBelow]
  · exact Register.words_bytesOf [_]
  · exact Register.size_bytesOf_words [_]

end Generator

/-! ### Devices -/

namespace Device

/-- The device runs a kernel of a single invocation wherever a pipeline was made of its source. -/
def Executes (device : Device) (kernel : Kernel) (rounds : Nat) : Prop :=
  ∀ count pipeline layout buffers parts held,
    numbered device.pipelines pipeline = some parts →
    numbered device.modules parts.module = some kernel.source →
    device.computing count (.dispatch pipeline layout buffers (1, 1)) held =
      kernel.process rounds held

/-- What a device runs it has run as long as the pipelines were there. -/
theorem Executes.of_grows {before after : Device} {kernel : Kernel} {rounds : Nat}
    (hgrow : before.Grows after) (hcomputing : after.computing = before.computing)
    (h : after.Executes kernel rounds) : before.Executes kernel rounds := by
  intro count pipeline layout buffers parts held hparts hmodule
  rw [← hcomputing]
  exact h count pipeline layout buffers parts held (hgrow.pipelines _ _ hparts)
    (hgrow.modules _ _ hmodule)

end Device

namespace Generator

variable {first : StreamState} {n passes rounds state cursor : Nat} {device : Device}

theorem holds_perform {command : Command} (hn : 1 ≤ n) (hfits : n + chunk < 2 ^ 32)
    (hrounds : 32 < rounds) (hexecutes : device.Executes deriveKernel rounds)
    (hapart : state ≠ cursor) (hstate : 1 ≤ state ∧ state ≤ device.buffers.size)
    (hcursor : 1 ≤ cursor ∧ cursor ≤ device.buffers.size)
    (hcommand : device.Encodes (derivePass state cursor) (1, 1) command)
    (h : Holds first n passes (device.bytesOf state) (device.bytesOf cursor)) :
    Holds first n (passes + 1) ((device.perform command).bytesOf state)
      ((device.perform command).bytesOf cursor) := by
  obtain ⟨states, cell, hprocess, hholds⟩ := h.process hn hfits hrounds
  have hresults : device.computing device.passCount command
      ([state, cursor].map device.bytesOf) = [states, cell] := by
    obtain ⟨_, _, _, _, rfl, -, -, hparts, hmodule⟩ := hcommand
    exact (hexecutes _ _ _ _ _ _ hparts hmodule).trans hprocess
  have hwrites : ∀ mode ∈ (derivePass state cursor).modes, mode ≠ .read := by
    simp [derivePass, Dispatch.modes]
  have hsizes : [states, cell].map Bytes.size = [state, cursor].map device.sizeOf := by
    simp only [List.map_cons, List.map_nil, Device.sizeOf, hholds.size, h.size, hholds.cursorSize,
      h.cursorSize]
  have hleft : [state, cursor].map (device.perform command).bytesOf = [states, cell] :=
    hcommand.map_bytesOf_perform rfl hwrites (by simpa using hapart) (by simp [hstate, hcursor])
      hsizes hresults
  simp only [List.map_cons, List.map_nil, List.cons.injEq, and_true] at hleft
  rw [hleft.1, hleft.2]
  exact hholds

/-- Passes one after the other. -/
theorem holds_foldl_perform {commands : List Command} (hn : 1 ≤ n) (hfits : n + chunk < 2 ^ 32)
    (hrounds : 32 < rounds) (hexecutes : device.Executes deriveKernel rounds)
    (hapart : state ≠ cursor) (hstate : 1 ≤ state ∧ state ≤ device.buffers.size)
    (hcursor : 1 ≤ cursor ∧ cursor ≤ device.buffers.size)
    (hcommands : ∀ command ∈ commands, device.Encodes (derivePass state cursor) (1, 1) command)
    (h : Holds first n passes (device.bytesOf state) (device.bytesOf cursor)) :
    Holds first n (passes + commands.length) ((commands.foldl Device.perform device).bytesOf state)
      ((commands.foldl Device.perform device).bytesOf cursor) := by
  induction commands generalizing device passes with
  | nil => exact h
  | cons command rest ih =>
    have hgrow := Device.Grows.of_objects (Device.objects_perform device command)
    have hback := Device.Grows.of_objects (Device.objects_perform device command).symm
    have hcomputing : (device.perform command).computing = device.computing :=
      congrArg Prod.snd (Device.fixture_perform device command)
    have hcount := (Device.sameOutside_perform device command).count
    have hnext := holds_perform hn hfits hrounds hexecutes hapart hstate hcursor
      (hcommands command List.mem_cons_self) h
    have hrest := ih (hexecutes.of_grows hback hcomputing.symm) (hcount ▸ hstate)
      (hcount ▸ hcursor)
      (fun later hmem ↦ (hcommands later (List.mem_cons_of_mem _ hmem)).mono hgrow) hnext
    rw [List.length_cons, Nat.add_comm rest.length, ← Nat.add_assoc]
    exact hrest

/-! ### Submissions -/

/-- An engine on which the streams are being derived, a number of passes having been run. -/
structure Deriving (engine : Engine) (state cursor : Nat) (first : StreamState) (n passes : Nat) :
    Prop where
  coherent : engine.Coherent
  faithful : engine.FaithfulCaches
  width : 1 ≤ engine.workgroupSize
  groups : 0 < engine.maxWorkgroups
  stateFound : ∃ array, engine.arrays.lookup state = some array
  cursorFound : ∃ array, engine.arrays.lookup cursor = some array
  apart : state ≠ cursor
  /-- Only the device has the streams once it has derived some. -/
  dirty : 0 < passes → (engine.array state).deviceDirty = true ∧
    (engine.array cursor).deviceDirty = true
  holds : Holds first n passes (engine.content state) (engine.content cursor)

variable {engine : Engine} {count serial : Nat}

theorem mem_of_submission {buffer : Nat} (hcount : 0 < count)
    (hbuffer : buffer = state ∨ buffer = cursor) :
    buffer ∈ readBy (List.replicate count (derivePass state cursor)) ∧
      buffer ∈ writtenBy (List.replicate count (derivePass state cursor)) [] := by
  have hmem : derivePass state cursor ∈ List.replicate count (derivePass state cursor) :=
    List.mem_replicate.mpr ⟨Nat.ne_of_gt hcount, rfl⟩
  have hbound (condition : Mode → Bool) (hcondition : condition .readWrite = true) :
      buffer ∈ (derivePass state cursor).arrays condition := by
    rcases hbuffer with rfl | rfl <;> simp [derivePass, Dispatch.arrays, hcondition]
  exact ⟨List.mem_flatMap.mpr ⟨_, hmem, hbound _ rfl⟩,
    List.mem_append_left _ (List.mem_flatMap.mpr ⟨_, hmem, hbound _ rfl⟩)⟩

/-- A submission of passes takes the streams further, however many passes there are. -/
theorem deriving_submit (hn : 1 ≤ n) (hfits : n + chunk < 2 ^ 32) (hrounds : 32 < rounds)
    (hcount : 0 < count)
    (hexecutes : (stateAfter (Action.submit (List.replicate count (derivePass state cursor)) [] [])
      engine).device.Executes deriveKernel rounds)
    (h : outcomeOf (Action.submit (List.replicate count (derivePass state cursor)) [] []) engine =
      .ok serial) (hderiving : Deriving engine state cursor first n passes) :
    Deriving (stateAfter (Action.submit (List.replicate count (derivePass state cursor)) [] [])
      engine) state cursor first n (passes + count) := by
  set dispatches := List.replicate count (derivePass state cursor) with hdispatches
  set after := stateAfter (Action.submit dispatches [] []) engine with hafter
  set prepared := stateAfter (Action.prepare dispatches []) engine
  obtain ⟨commands, hcommands, hobjects, hwritten⟩ := content_of_submit h
  obtain ⟨encoded, moves, hsplit, hencodes, hmoves⟩ :=
    encodes_of_prepare hderiving.faithful hcommands
  cases hmoves
  obtain rfl : commands = encoded := hsplit.trans (List.append_nil encoded)
  have hplain : ∀ dispatch ∈ dispatches, dispatch.ReadsPlain := by
    intro dispatch hmem buffer mode hbinding
    rw [List.eq_of_mem_replicate hmem] at hbinding
    simp [derivePass] at hbinding
  have hsame : SameFixture engine after := sameFixture_submit _ _ _ engine
  have hprepared : SameFixture engine prepared := sameFixture_prepare _ _ engine
  obtain ⟨hfaithful, -⟩ := caching_submit dispatches [] [] engine hderiving.faithful
  obtain ⟨hcoherent, -⟩ := steady_submit [] [] hderiving.faithful hplain hderiving.coherent
  have hsteady := (preparing_prepare dispatches [] engine).steady hderiving.coherent
  -- both buffers hold on the device what the arrays hold when the passes begin
  have hbytes {buffer : Nat} (hbuffer : buffer = state ∨ buffer = cursor) :
      prepared.device.bytesOf buffer = engine.content buffer :=
    bytesOf_of_prepare hderiving.coherent hcommands (mem_of_submission hcount hbuffer).1
  have hrange {buffer : Nat} (hlookup : ∃ array, engine.arrays.lookup buffer = some array) :
      1 ≤ buffer ∧ buffer ≤ prepared.device.buffers.size := by
    obtain ⟨array, harray⟩ := hprepared.exists_lookup hlookup
    exact ⟨(hsteady.1 buffer array harray).pos, (hsteady.1 buffer array harray).le⟩
  have hgrid : gridFor engine.workgroupSize engine.maxWorkgroups 1 = (1, 1) :=
    gridFor_eq_one (Int.le_refl 1) hderiving.width hderiving.groups
  have hpass : ∀ command ∈ commands,
      prepared.device.Encodes (derivePass state cursor) (1, 1) command := by
    intro command hmem
    obtain ⟨dispatch, hdispatch, hencode⟩ := exists_of_forall₂ hencodes hmem
    rw [List.eq_of_mem_replicate hdispatch] at hencode
    exact hgrid ▸ hencode
  have hholds := holds_foldl_perform hn hfits hrounds
    (hexecutes.of_grows (.of_objects hobjects)
      (hsame.computing.trans hprepared.computing.symm))
    hderiving.apart (hrange hderiving.stateFound) (hrange hderiving.cursorFound) hpass
    (by rw [hbytes (.inl rfl), hbytes (.inr rfl)]; exact hderiving.holds)
  obtain ⟨hdirty, hcontent⟩ :=
    hwritten state (mem_of_submission hcount (.inl rfl)).2 hderiving.stateFound
  obtain ⟨hdirty', hcontent'⟩ :=
    hwritten cursor (mem_of_submission hcount (.inr rfl)).2 hderiving.cursorFound
  refine ⟨hcoherent, hfaithful, hsame.workgroupSize ▸ hderiving.width,
    hsame.maxWorkgroups ▸ hderiving.groups, hsame.exists_lookup hderiving.stateFound,
    hsame.exists_lookup hderiving.cursorFound, hderiving.apart, fun _ ↦ ⟨hdirty, hdirty'⟩, ?_⟩
  rw [hcontent, hcontent']
  rw [← hencodes.length_eq, hdispatches, List.length_replicate] at hholds
  exact hholds

/-! ### Submissions in turn -/

/-- The submissions of passes into the streams and the cursor, one after the other. -/
def submissions (counts : List Nat) (state cursor : Nat) : Action Unit :=
  counts.forM fun count ↦ do
    let _ ← Action.submit (List.replicate count (derivePass state cursor)) [] []

theorem sameFixture_submissions (counts : List Nat) (state cursor : Nat) :
    Moves SameFixture (submissions counts state cursor) :=
  .forM counts fun _ _ ↦ .bind (sameFixture_submit _ _ _) fun _ ↦ .pure _

theorem deriving_submissions {counts : List Nat} {result : Unit} (hn : 1 ≤ n)
    (hfits : n + chunk < 2 ^ 32) (hrounds : 32 < rounds) (hcounts : ∀ count ∈ counts, 0 < count)
    (hexecutes : (stateAfter (submissions counts state cursor) engine).device.Executes deriveKernel
      rounds)
    (h : outcomeOf (submissions counts state cursor) engine = .ok result)
    (hderiving : Deriving engine state cursor first n passes) :
    Deriving (stateAfter (submissions counts state cursor) engine) state cursor first n
      (passes + counts.sum) := by
  induction counts generalizing engine passes with
  | nil => exact hderiving
  | cons count rest ih =>
    let submission : Action Unit := do
      let _ ← Action.submit (List.replicate count (derivePass state cursor)) [] []
    have hsplit : submissions (count :: rest) state cursor = submission >>= fun _ ↦
      submissions rest state cursor := rfl
    rw [hsplit, outcomeOf_bind_eq_ok] at h
    obtain ⟨done, hfirst, hrest⟩ := h
    obtain ⟨serial, hserial, -⟩ := outcomeOf_bind_eq_ok.mp hfirst
    have hmiddle : stateAfter submission engine = stateAfter
        (Action.submit (List.replicate count (derivePass state cursor)) [] []) engine :=
      stateAfter_discard _ _
    rw [hsplit, stateAfter_bind_of_ok hfirst] at hexecutes ⊢
    rw [hmiddle] at hexecutes hrest ⊢
    set middle := stateAfter
      (Action.submit (List.replicate count (derivePass state cursor)) [] []) engine
    obtain ⟨hfaithful, -⟩ := caching_submit (List.replicate count (derivePass state cursor)) [] []
      engine hderiving.faithful
    have hcaching : Moves Caching (submissions rest state cursor) :=
      .forM rest fun _ _ ↦ .bind (caching_submit _ _ _) fun _ ↦ .pure _
    obtain ⟨-, hgrow⟩ := hcaching middle hfaithful
    have hcomputing := (sameFixture_submissions rest state cursor middle).computing
    have hnext := deriving_submit hn hfits hrounds (hcounts count List.mem_cons_self)
      (hexecutes.of_grows hgrow.device hcomputing) hserial hderiving
    rw [List.sum_cons, ← Nat.add_assoc]
    exact ih (fun count hmem ↦ hcounts count (List.mem_cons_of_mem _ hmem)) hexecutes hrest hnext

end Generator

end ComputeArray
