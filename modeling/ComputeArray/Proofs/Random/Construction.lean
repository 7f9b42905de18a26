import ComputeArray.Proofs.Memory.Run
import ComputeArray.Proofs.Random.Passes
import ComputeArray.Proofs.Reduction.Passes

/-!
# Generators and their streams

A generator with one stream has it from its seed. For more of them the first stream is uploaded,
with zeros for the rest, next to a cursor at the second row (`Uploaded`, `deriving_of_setValue`);
from there the passes take over, in submissions of any size up to the limit
(`streams_of_deriveStreamsIn`). In the end each row holds the first stream jumped as often as there
are rows before it (`streams_of_newGenerator`).
-/

set_option autoImplicit false

namespace ComputeArray

open Engine Kernel ComputeArray.Random

namespace Action

/-- Derives all streams but the first, in submissions of the given numbers of passes. -/
def deriveStreamsIn (counts : List Nat) (state : Nat) : Action Unit := do
  let cursor ← newArray (.int 1) (.text ElementType.u32.name) .none
  setValue cursor (.int 1) []
  counts.forM fun count => do
    let _ ← submit (List.replicate count (Generator.derivePass state cursor)) [] []
  modify (Engine.release cursor)

/-- A generator whose passes are cut into submissions in a given way. -/
def newGeneratorBy (split : Nat → List Nat) (size seed entropy : Value) : Action Nat := do
  let size ← ofExcept size.toInt
  let seed ← ofExcept (match seed with
    | .none => entropy.toInt
    | seed => seed.toInt)
  let state ← newContiguous .u32 [size, 4]
  let _ ← ofExcept (ElementType.u32.hostBytes [size.toNat, 4])
  let first ← ofExcept (Random.seedState seed)
  let rest := List.replicate (4 * (size.toNat - 1)) 0
  setElements state (first.toList.map UInt32.toNat ++ rest)
  if 1 < size then deriveStreamsIn (split (Generator.passesFor size.toNat)) state
  modify (Engine.addGenerator state ⟨size.toNat, seed, none⟩)
  return state

theorem newGenerator_eq : newGenerator = newGeneratorBy Generator.passCounts := rfl

end Action

namespace Generator

variable {first : StreamState} {n : Nat}

/-- A way to cut passes into submissions. -/
def IsSplit (split : Nat → List Nat) : Prop :=
  ∀ passes, (split passes).sum = passes ∧ ∀ count ∈ split passes, 0 < count ∧ count ≤ passLimit

theorem isSplit_passCounts : IsSplit passCounts := by
  intro passes
  have hsum (count : Nat) :
      ((List.range count).map fun i ↦ min passLimit (passes - i * passLimit)).sum =
        min (count * passLimit) passes := by
    induction count with
    | zero => simp
    | succ count ih =>
      rw [List.range_succ, List.map_append, List.sum_append, ih, List.map_singleton,
        List.sum_singleton]
      unfold passLimit
      omega
  refine ⟨?_, fun count hmem ↦ ?_⟩
  · rw [passCounts, hsum]
    unfold passLimit
    omega
  · obtain ⟨i, hi, rfl⟩ := List.mem_map.mp hmem
    rw [List.mem_range] at hi
    unfold passLimit at hi ⊢
    omega

end Generator

/-! ### Uploads -/

theorem loadThenUpdate_eq_ok {engine : Engine} {buffer : Nat}
    {update : ArrayState → Except Failure ArrayState} {result : Unit}
    (hclean : (engine.array buffer).deviceDirty = false)
    (h : outcomeOf (loadThenUpdate buffer update) engine = .ok result) :
    ∃ updated, update (engine.array buffer) = .ok updated ∧
      stateAfter (loadThenUpdate buffer update) engine = engine.setArray buffer updated := by
  simp only [loadThenUpdate, outcomeOf_bind, stateAfter_bind, outcomeOf_array, stateAfter_array,
    hclean, Bool.false_eq_true, if_false] at h ⊢
  rcases updateArray_cases engine buffer update with
    ⟨failure, -, houtcome, -⟩ | ⟨updated, hupdated, -, hstate⟩
  · rw [houtcome] at h
    cases h
  · exact ⟨updated, hupdated, hstate⟩

/-- The offsets of rows of four elements are all places in order. -/
theorem Layout.offsets_rows (n : Nat) : Layout.offsets [n, 4] [4, 1] = List.range (4 * n) := by
  have hrow (i : Nat) : (Layout.offsets [4] [1]).map (i * 4 + ·) =
      [4 * i, 4 * i + 1, 4 * i + 2, 4 * i + 3] := by
    rw [Nat.mul_comm i]
    rfl
  rw [Layout.offsets]
  induction n with
  | zero => rfl
  | succ n ih =>
    rw [List.range_succ, List.flatMap_append, ih, List.flatMap_singleton, hrow, Nat.mul_add]
    simp [List.range_succ]

theorem ArrayState.placed_rows {array : ArrayState} {n : Nat} {values : List Nat}
    (hshape : array.shape = [n, 4]) (hstrides : array.strides = [4, 1])
    (hlength : values.length = 4 * n) :
    array.placed values = (List.range values.length).zip values := by
  have hplaces : (Layout.contiguous array.shapeInts).map Int.toNat = [4, 1] := by
    rw [ArrayState.shapeInts, hshape]
    rfl
  have hsorted : (Layout.axes array.shape array.strides [4, 1]).mergeSort
      (fun a b ↦ b.stride ≤ a.stride) = Layout.axes array.shape array.strides [4, 1] := by
    rw [hshape, hstrides]
    refine List.mergeSort_of_pairwise ?_
    simp [Layout.axes]
  rw [ArrayState.placed, hplaces, Layout.offsetPairs, hsorted, hshape, hstrides]
  change ((Layout.offsets [n, 4] [4, 1]).zip (Layout.offsets [n, 4] [4, 1])).map _ = _
  rw [Layout.offsets_rows, ← hlength]
  refine List.ext_getElem (by simp) fun i hi hi' ↦ ?_
  simp at hi
  simp [hi]

/-- Words fill their storage without padding. -/
theorem storageBytes_words {count size : Nat} (h : storageBytes .u32 count = .ok size) :
    size = 4 * count := by
  have hsize := size_of_storageBytes h
  simp only [ElementType.size, wholeWords] at hsize
  omega

theorem ArrayState.setAll_eq_ok {array updated : ArrayState} {values : List Nat}
    (h : array.setAll values = .ok updated) : updated = array.store (array.placed values) := by
  unfold ArrayState.setAll at h
  cases hchecks : array.checkValues values with
  | error failure =>
    rw [hchecks] at h
    cases h
  | ok checked =>
    rw [hchecks] at h
    cases h
    rfl

namespace Generator

variable {first : StreamState} {n state cursor : Nat} {engine : Engine}

theorem streamsBelow_one (first : StreamState) (hn : 1 ≤ n) :
    streamsBelow first n 1 = first :: List.replicate (n - 1) .zero := by
  obtain ⟨n, rfl⟩ : ∃ m, n = m + 1 := ⟨n - 1, by omega⟩
  refine List.ext_getElem (by simp [streamsBelow]) fun i hi hi' ↦ ?_
  cases i with
  | zero => simp [streamsBelow, StreamState.jumpTimes]
  | succ i => simp [streamsBelow]

/-- The words a generator uploads are its first stream and zeros. -/
theorem uploaded_words (first : StreamState) (hn : 1 ≤ n) :
    first.toList.map UInt32.toNat ++ List.replicate (4 * (n - 1)) 0 =
      ((streamsBelow first n 1).flatMap StreamState.toList).map UInt32.toNat := by
  have hzeros (count : Nat) :
      ((List.replicate count StreamState.zero).flatMap StreamState.toList).map UInt32.toNat =
        List.replicate (4 * count) 0 := by
    induction count with
    | zero => rfl
    | succ count ih =>
      rw [List.replicate_succ, List.flatMap_cons, List.map_append, ih, Nat.mul_succ, Nat.add_comm,
        List.replicate_add]
      rfl
  rw [streamsBelow_one first hn, List.flatMap_cons, List.map_append, hzeros]

theorem upload_streams {result : Unit} (hnumbered : engine.Numbered) (hn : 1 ≤ n)
    (hsmall : n < 2 ^ 32)
    (hnew : outcomeOf (Action.newContiguous .u32 [(n : Int), 4]) engine = .ok state)
    (hset : outcomeOf (Action.setElements state
      (first.toList.map UInt32.toNat ++ List.replicate (4 * (n - 1)) 0))
      (stateAfter (Action.newContiguous .u32 [(n : Int), 4]) engine) = .ok result) :
    ∃ size fresh array, state = engine.nextBuffer ∧ array.hostDirty = true ∧
      array.storage = Register.bytesOf ((streamsBelow first n 1).map .vector) ∧
      stateAfter (Action.setElements state
        (first.toList.map UInt32.toNat ++ List.replicate (4 * (n - 1)) 0))
        (stateAfter (Action.newContiguous .u32 [(n : Int), 4]) engine) =
          (engine.allocated size fresh).setArray state array := by
  obtain ⟨extents, elements, size, hextents, helements, hsize, -, rfl, hafter⟩ :=
    newContiguous_eq_ok hnew
  have hpos : ∀ extent ∈ [n, 4], 0 < extent := by simp; omega
  have hvolume : Shape.volume [n, 4] = 4 * n := by
    rw [Shape.volume_cons, Shape.volume_cons, Shape.volume_nil]
    omega
  obtain rfl : extents = [n, 4] := by
    have hextents' := @ofValue_extents [n, 4] (List.cons_ne_nil _ _) hpos
    exact Except.ok.inj (hextents.symm.trans hextents')
  obtain rfl : elements = ((4 * n : Nat) : Int) := by
    rw [Layout.contiguousCount_eq hpos (by rw [hvolume]; omega), hvolume] at helements
    exact Except.ok.inj helements.symm
  obtain rfl : size = 4 * (4 * n) := storageBytes_words hsize
  rw [hafter] at hset ⊢
  set fresh := ArrayState.fresh .u32 [n, 4]
    ((Layout.contiguous ([n, 4].map Int.ofNat)).map Int.toNat) false ((4 * n : Nat) : Int)
    (4 * (4 * n))
  have harray : (engine.allocated (4 * (4 * n)) fresh).array engine.nextBuffer = fresh :=
    array_of_lookup hnumbered.lookup_allocated
  obtain ⟨updated, hupdated, hstate⟩ := loadThenUpdate_eq_ok (by rw [harray]; rfl) hset
  rw [harray] at hupdated
  obtain rfl := ArrayState.setAll_eq_ok hupdated
  refine ⟨_, _, _, rfl, rfl, ?_, hstate⟩
  have hlength : (((streamsBelow first n 1).flatMap StreamState.toList).map
      UInt32.toNat).length = 4 * n := by
    rw [List.length_map, Register.length_flatMap_toList, length_streamsBelow]
  have hcells : ((streamsBelow first n 1).map Register.vector).flatMap Register.words =
      (streamsBelow first n 1).flatMap StreamState.toList := by
    simp [List.flatMap_map, Register.words]
  rw [uploaded_words first hn, ArrayState.store, ArrayState.placed_rows rfl rfl hlength,
    Register.bytesOf, hcells, Bytes.ofWords, hlength]
  rfl

/-- The cursor starts at the second stream. -/
theorem upload_cursor {result : Unit} (hnumbered : engine.Numbered)
    (hnew : outcomeOf (Action.newArray (.int 1) (.text ElementType.u32.name) .none) engine =
      .ok cursor)
    (hset : outcomeOf (Action.setValue cursor (.int 1) [])
      (stateAfter (Action.newArray (.int 1) (.text ElementType.u32.name) .none) engine) =
        .ok result) :
    ∃ size fresh array, cursor = engine.nextBuffer ∧ array.element = .u32 ∧
      array.hostDirty = true ∧ array.storage.words = [1] ∧ array.storage.size = 4 ∧
      stateAfter (Action.setValue cursor (.int 1) [])
        (stateAfter (Action.newArray (.int 1) (.text ElementType.u32.name) .none) engine) =
          (engine.allocated size fresh).setArray cursor array := by
  obtain ⟨element, extents, count, size, helement, hextents, hcount, hsize, -, rfl, hafter⟩ :=
    newArray_eq_ok hnew
  obtain rfl : element = .u32 := Except.ok.inj (helement.symm.trans (ofValue_name .u32))
  obtain rfl : extents = [1] := Except.ok.inj hextents.symm
  obtain rfl : count = 1 := Except.ok.inj hcount.symm
  obtain rfl : size = 4 := @storageBytes_words 1 _ hsize
  rw [hafter] at hset ⊢
  set fresh := ArrayState.fresh .u32 [1]
    ((Layout.contiguous ([1].map Int.ofNat)).map Int.toNat) false 1 4
  have harray : (engine.allocated 4 fresh).array engine.nextBuffer = fresh :=
    array_of_lookup hnumbered.lookup_allocated
  obtain ⟨updated, hupdated, hstate⟩ := loadThenUpdate_eq_ok (by rw [harray]; rfl) hset
  rw [harray] at hupdated
  obtain rfl : updated = { fresh with storage := (Bytes.zeros 4).fill 4 1 1, hostDirty := true } :=
    Except.ok.inj hupdated.symm
  exact ⟨_, _, _, rfl, rfl, rfl, by decide +kernel, by decide +kernel, hstate⟩

/-! ### Generators -/

theorem numbered_of_coherent (h : engine.Coherent) : engine.Numbered :=
  fun buffer array hlookup ↦ Nat.lt_succ_of_le (h buffer array hlookup).le

theorem coherent_of_madeOf {α : Type} {m : Action α} (hm : MadeOf Primitive.Proper m)
    (hcoherent : engine.Coherent) (hfaithful : engine.FaithfulCaches) :
    (stateAfter m engine).Coherent ∧ (stateAfter m engine).FaithfulCaches := by
  obtain ⟨primitives, hproper, hstate⟩ := hm engine
  rw [hstate]
  exact coherent_afterAll hproper hcoherent hfaithful

/-- The streams as the host has them before any pass. -/
structure Uploaded (before engine : Engine) (state : Nat) (first : StreamState) (n : Nat) :
    Prop where
  coherent : engine.Coherent
  faithful : engine.FaithfulCaches
  width : engine.workgroupSize = before.workgroupSize
  groups : engine.maxWorkgroups = before.maxWorkgroups
  computing : engine.device.computing = before.device.computing
  generators : engine.generators = before.generators
  next : engine.nextBuffer = state + 1
  found : ∃ array, engine.arrays.lookup state = some array ∧ array.hostDirty = true ∧
    array.storage = Register.bytesOf ((streamsBelow first n 1).map .vector)

theorem uploaded_of_setElements {result : Unit} (hcoherent : engine.Coherent)
    (hfaithful : engine.FaithfulCaches) (hn : 1 ≤ n) (hsmall : n < 2 ^ 32)
    (hnew : outcomeOf (Action.newContiguous .u32 [(n : Int), 4]) engine = .ok state)
    (hset : outcomeOf (Action.setElements state
      (first.toList.map UInt32.toNat ++ List.replicate (4 * (n - 1)) 0))
      (stateAfter (Action.newContiguous .u32 [(n : Int), 4]) engine) = .ok result) :
    Uploaded engine (stateAfter (Action.setElements state
      (first.toList.map UInt32.toNat ++ List.replicate (4 * (n - 1)) 0))
      (stateAfter (Action.newContiguous .u32 [(n : Int), 4]) engine)) state first n := by
  have hnumbered := numbered_of_coherent hcoherent
  obtain ⟨hcoherent', hfaithful'⟩ :=
    coherent_of_madeOf (madeOf_newContiguous .u32 [(n : Int), 4]).proper hcoherent hfaithful
  obtain ⟨hcoherent', hfaithful'⟩ := coherent_of_madeOf (madeOf_setElements state
    (first.toList.map UInt32.toNat ++ List.replicate (4 * (n - 1)) 0)) hcoherent' hfaithful'
  obtain ⟨size, fresh, array, rfl, hdirty, hstorage, hstate⟩ :=
    upload_streams hnumbered hn hsmall hnew hset
  rw [hstate] at hcoherent' hfaithful' ⊢
  exact ⟨hcoherent', hfaithful', rfl, rfl, rfl, rfl, nextBuffer_allocated size fresh engine, array,
    lookup_setArray_self array hnumbered.lookup_allocated, hdirty, hstorage⟩

theorem deriving_of_setValue {before : Engine} {result : Unit} (hn : 1 ≤ n)
    (hwidth : 1 ≤ before.workgroupSize) (hgroups : 0 < before.maxWorkgroups)
    (huploaded : Uploaded before engine state first n)
    (hnew : outcomeOf (Action.newArray (.int 1) (.text ElementType.u32.name) .none) engine =
      .ok cursor)
    (hset : outcomeOf (Action.setValue cursor (.int 1) [])
      (stateAfter (Action.newArray (.int 1) (.text ElementType.u32.name) .none) engine) =
        .ok result) :
    cursor = state + 1 ∧
      (stateAfter (Action.setValue cursor (.int 1) []) (stateAfter
        (Action.newArray (.int 1) (.text ElementType.u32.name) .none) engine)).device.computing =
          before.device.computing ∧
      Deriving (stateAfter (Action.setValue cursor (.int 1) []) (stateAfter
        (Action.newArray (.int 1) (.text ElementType.u32.name) .none) engine))
          state cursor first n 0 := by
  have hnumbered := numbered_of_coherent huploaded.coherent
  obtain ⟨hcoherent, hfaithful⟩ := coherent_of_madeOf
    (madeOf_newArray (.int 1) (.text ElementType.u32.name) .none).proper huploaded.coherent
    huploaded.faithful
  obtain ⟨hcoherent, hfaithful⟩ :=
    coherent_of_madeOf (madeOf_setValue cursor (.int 1) []) hcoherent hfaithful
  obtain ⟨size, fresh, cell, rfl, -, hdirty, hwords, hsize, hstate⟩ :=
    upload_cursor hnumbered hnew hset
  obtain ⟨array, hfound, hdirty', hstorage⟩ := huploaded.found
  have hapart : state ≠ engine.nextBuffer := by
    rw [huploaded.next]
    exact Nat.ne_of_lt (Nat.lt_succ_self state)
  have hkept : (engine.allocated size fresh).arrays.lookup state = some array :=
    (List.prefix_append engine.arrays _).lookup_eq_some hfound
  rw [hstate] at hcoherent hfaithful ⊢
  have hstates : ((engine.allocated size fresh).setArray engine.nextBuffer cell).arrays.lookup
      state = some array := (lookup_setArray_of_ne cell hapart).trans hkept
  have hcell : ((engine.allocated size fresh).setArray engine.nextBuffer cell).arrays.lookup
      engine.nextBuffer = some cell := lookup_setArray_self cell hnumbered.lookup_allocated
  have hcursor : cursorAfter n 0 = 1 := by
    unfold cursorAfter chunk
    omega
  refine ⟨huploaded.next, huploaded.computing, hcoherent, hfaithful, huploaded.width ▸ hwidth,
    huploaded.groups ▸ hgroups, ⟨array, hstates⟩, ⟨cell, hcell⟩, hapart,
    fun h ↦ absurd h (Nat.lt_irrefl 0), ?_⟩
  rw [content_of_lookup hstates, content_of_lookup hcell, hdirty, hdirty', if_pos rfl, if_pos rfl,
    hstorage]
  refine ⟨?_, ?_, ?_, hsize⟩
  · rw [hcursor, Register.streams_bytesOf]
  · rw [Register.size_bytesOf_vectors, length_streamsBelow]
  · rw [hcursor, hwords]
    rfl

/-- Only the device has news of an array that kernels have written. -/
theorem content_of_deviceDirty {buffer : Nat} (hcoherent : engine.Coherent)
    (hdirty : (engine.array buffer).deviceDirty = true) :
    engine.content buffer = engine.device.bytesOf buffer := by
  have hfound := exists_lookup_of_deviceDirty hdirty
  have hclean : (engine.array buffer).hostDirty = false := by
    rw [← Bool.not_eq_true]
    exact fun hhost ↦ (hcoherent buffer _ hfound).exclusive ⟨hhost, hdirty⟩
  rw [content, hclean]
  rfl

theorem streamsBelow_self (first : StreamState) (n : Nat) :
    streamsBelow first n n = (List.range n).map fun i ↦ first.jumpTimes i := by
  refine List.map_congr_left fun i hi ↦ ?_
  rw [if_pos (List.mem_range.mp hi)]

/-- Deriving streams runs its submissions on an engine that holds the first stream and a cursor. -/
theorem submissions_of_deriveStreamsIn {before : Engine} {counts : List Nat} {result : Unit}
    (hn : 1 ≤ n) (hwidth : 1 ≤ before.workgroupSize) (hgroups : 0 < before.maxWorkgroups)
    (huploaded : Uploaded before engine state first n)
    (h : outcomeOf (Action.deriveStreamsIn counts state) engine = .ok result) :
    ∃ start, start.device.computing = before.device.computing ∧
      Deriving start state (state + 1) first n 0 ∧
      outcomeOf (submissions counts state (state + 1)) start = .ok ⟨⟩ ∧
      stateAfter (Action.deriveStreamsIn counts state) engine =
        (stateAfter (submissions counts state (state + 1)) start).release (state + 1) := by
  simp only [Action.deriveStreamsIn, outcomeOf_bind_eq_ok] at h
  obtain ⟨cursor, hcursor, _, hset, _, hsubmitted, -⟩ := h
  obtain ⟨rfl, hcomputing, hderiving⟩ :=
    deriving_of_setValue hn hwidth hgroups huploaded hcursor hset
  refine ⟨_, hcomputing, hderiving, hsubmitted, ?_⟩
  rw [Action.deriveStreamsIn, stateAfter_bind_of_ok hcursor, stateAfter_bind_of_ok hset,
    stateAfter_bind_of_ok hsubmitted]
  rfl

/-- All streams are derived on the device, and the cursor stands behind the last one. -/
theorem streams_of_deriveStreamsIn {before : Engine} {rounds : Nat} {counts : List Nat}
    {result : Unit} (hn : 1 < n) (hfits : n + chunk < 2 ^ 32) (hrounds : 32 < rounds)
    (hwidth : 1 ≤ before.workgroupSize) (hgroups : 0 < before.maxWorkgroups)
    (hcounts : ∀ count ∈ counts, 0 < count) (hsum : counts.sum = passesFor n)
    (huploaded : Uploaded before engine state first n)
    (hexecutes : (stateAfter (Action.deriveStreamsIn counts state) engine).device.Executes
      deriveKernel rounds)
    (h : outcomeOf (Action.deriveStreamsIn counts state) engine = .ok result) :
    let after := stateAfter (Action.deriveStreamsIn counts state) engine
    after.device.bytesOf state = after.content state ∧
      (after.content state).streams = (List.range n).map (fun i ↦ first.jumpTimes i) ∧
      (after.device.bytesOf (state + 1)).words = [.ofNat n] := by
  obtain ⟨start, -, hderiving, hsubmitted, hafter⟩ :=
    submissions_of_deriveStreamsIn (Nat.le_of_lt hn) hwidth hgroups huploaded h
  set derived := stateAfter (submissions counts state (state + 1)) start
  rw [hafter, device_release] at hexecutes
  rw [hafter]
  dsimp only
  rw [device_release]
  have hlast : Deriving derived state (state + 1) first n (0 + counts.sum) :=
    deriving_submissions (Nat.le_of_lt hn) hfits hrounds hcounts hexecutes hsubmitted hderiving
  rw [Nat.zero_add, hsum] at hlast
  have hpasses : 0 < passesFor n := by
    unfold passesFor chunk
    omega
  obtain ⟨hdirty, hdirty'⟩ := hlast.dirty hpasses
  have hstates := content_of_deviceDirty hlast.coherent hdirty
  have hcell := content_of_deviceDirty hlast.coherent hdirty'
  obtain ⟨array, hfound⟩ :=
    (sameFixture_release (state + 1) derived).exists_lookup hlast.stateFound
  have hreleased : (derived.release (state + 1)).content state = derived.content state :=
    ((@steady_release (fun _ ↦ False) (state + 1) derived hlast.coherent).2 state array hfound
      id).2
  refine ⟨by rw [hreleased, hstates], ?_, ?_⟩
  · rw [hreleased, hlast.holds.streams, cursorAfter_passesFor (Nat.le_of_lt hn),
      streamsBelow_self]
  · rw [← hcell, hlast.holds.cursor, cursorAfter_passesFor (Nat.le_of_lt hn)]

/-! ### Generators -/

/-- The number a generator is seeded with. -/
def seedOf (seed entropy : Value) : Except Failure Int :=
  match seed with
  | .none => entropy.toInt
  | seed => seed.toInt

/-- What a generator is once it has been made: its streams on the device, if there are several. -/
theorem newGeneratorBy_eq_ok {split : Nat → List Nat} {size seed entropy : Value}
    (hcoherent : engine.Coherent) (hfaithful : engine.FaithfulCaches)
    (hsize : size.toInt = .ok (n : Int)) (hn : 1 ≤ n) (hsmall : n < 2 ^ 32)
    (h : outcomeOf (Action.newGeneratorBy split size seed entropy) engine = .ok state) :
    ∃ number first uploaded, seedOf seed entropy = .ok number ∧
      seedState number = .ok first ∧ Uploaded engine uploaded state first n ∧
      (n = 1 → stateAfter (Action.newGeneratorBy split size seed entropy) engine =
        uploaded.addGenerator state ⟨n, number, none⟩) ∧
      (1 < n → ∃ result,
        outcomeOf (Action.deriveStreamsIn (split (passesFor n)) state) uploaded = .ok result ∧
        stateAfter (Action.newGeneratorBy split size seed entropy) engine =
          (stateAfter (Action.deriveStreamsIn (split (passesFor n)) state) uploaded).addGenerator
            state ⟨n, number, none⟩) := by
  simp only [Action.newGeneratorBy, outcomeOf_bind_eq_ok, outcomeOf_actionOfExcept,
    stateAfter_actionOfExcept, hsize, Except.ok.injEq, exists_eq_left'] at h
  obtain ⟨number, hnumber, found, hnew, _, hbytes, first, hfirst, _, hset, h⟩ := h
  have hstate : stateAfter (Action.newGeneratorBy split size seed entropy) engine = stateAfter
      (if 1 < (n : Int) then do
        Action.deriveStreamsIn (split (passesFor n)) found
        modify (addGenerator found ⟨n, number, none⟩)
        pure found
      else do
        modify (addGenerator found ⟨n, number, none⟩)
        pure found)
      (stateAfter (Action.setElements found
        (first.toList.map UInt32.toNat ++ List.replicate (4 * (n - 1)) 0))
        (stateAfter (Action.newContiguous .u32 [(n : Int), 4]) engine)) := by
    unfold Action.newGeneratorBy
    rw [stateAfter_bind_of_ok ((outcomeOf_actionOfExcept _ _).trans hsize),
      stateAfter_actionOfExcept,
      stateAfter_bind_of_ok ((outcomeOf_actionOfExcept _ _).trans hnumber),
      stateAfter_actionOfExcept, stateAfter_bind_of_ok hnew,
      stateAfter_bind_of_ok ((outcomeOf_actionOfExcept _ _).trans hbytes),
      stateAfter_actionOfExcept,
      stateAfter_bind_of_ok ((outcomeOf_actionOfExcept _ _).trans hfirst),
      stateAfter_actionOfExcept, stateAfter_bind_of_ok hset]
    rfl
  rw [Int.toNat_natCast] at hset h
  have huploaded := uploaded_of_setElements hcoherent hfaithful hn hsmall hnew hset
  rw [hstate]
  by_cases hseveral : 1 < (n : Int)
  · rw [if_pos hseveral] at h ⊢
    simp only [outcomeOf_bind_eq_ok] at h
    obtain ⟨result, hderived, _, _, hfound⟩ := h
    obtain rfl : found = state := Except.ok.inj hfound
    refine ⟨number, first, _, hnumber, hfirst, huploaded,
      fun hone ↦ by omega, fun _ ↦ ⟨result, hderived, ?_⟩⟩
    rw [stateAfter_bind_of_ok hderived]
    rfl
  · rw [if_neg hseveral] at h ⊢
    obtain rfl : found = state := Except.ok.inj h
    exact ⟨number, first, _, hnumber, hfirst, huploaded, fun _ ↦ rfl,
      fun hone ↦ by omega⟩

theorem made_of_newGeneratorBy {split : Nat → List Nat} {size seed entropy : Value}
    (hcoherent : engine.Coherent) (hfaithful : engine.FaithfulCaches)
    (hsize : size.toInt = .ok (n : Int)) (hn : 1 ≤ n) (hsmall : n < 2 ^ 32)
    (h : outcomeOf (Action.newGeneratorBy split size seed entropy) engine = .ok state) :
    ∃ number first uploaded generator, seedOf seed entropy = .ok number ∧
      seedState number = .ok first ∧ Uploaded engine uploaded state first n ∧
      (n = 1 → stateAfter (Action.newGeneratorBy split size seed entropy) engine =
        uploaded.addGenerator state generator) ∧
      (1 < n → ∃ result,
        outcomeOf (Action.deriveStreamsIn (split (passesFor n)) state) uploaded = .ok result ∧
        stateAfter (Action.newGeneratorBy split size seed entropy) engine =
          (stateAfter (Action.deriveStreamsIn (split (passesFor n)) state) uploaded).addGenerator
            state generator) := by
  obtain ⟨number, first, uploaded, hmade⟩ :=
    newGeneratorBy_eq_ok hcoherent hfaithful hsize hn hsmall h
  exact ⟨number, first, uploaded, ⟨n, number, none⟩, hmade⟩

/-- Making a generator leaves the way the device computes as it is. -/
theorem computing_of_newGeneratorBy {split : Nat → List Nat} {size seed entropy : Value}
    (hcoherent : engine.Coherent) (hfaithful : engine.FaithfulCaches)
    (hwidth : 1 ≤ engine.workgroupSize) (hgroups : 0 < engine.maxWorkgroups)
    (hsize : size.toInt = .ok (n : Int)) (hn : 1 ≤ n) (hsmall : n < 2 ^ 32)
    (h : outcomeOf (Action.newGeneratorBy split size seed entropy) engine = .ok state) :
    (stateAfter (Action.newGeneratorBy split size seed entropy) engine).device.computing =
      engine.device.computing := by
  obtain ⟨_, _, uploaded, generator, -, -, huploaded, hone, hseveral⟩ :=
    made_of_newGeneratorBy hcoherent hfaithful hsize hn hsmall h
  obtain hlast | hmore := Nat.eq_or_lt_of_le hn
  · rw [hone hlast.symm]
    exact huploaded.computing
  · obtain ⟨result, hderived, hstate⟩ := hseveral hmore
    obtain ⟨start, hcomputing, -, -, hafter⟩ :=
      submissions_of_deriveStreamsIn hn hwidth hgroups huploaded hderived
    rw [hstate, hafter]
    change ((stateAfter (submissions _ state (state + 1)) start).release
      (state + 1)).device.computing = _
    rw [device_release, (sameFixture_submissions _ _ _ start).computing, hcomputing]

/-- However the passes are cut into submissions, a new generator has in each row the stream of the
seed jumped as often as there are rows before it; the passes derive these streams in turn, each
taking up at the first row that none before it has filled and leaving all others as they are. -/
theorem streams_of_newGenerator :
    IsSplit passCounts ∧ Action.newGenerator = Action.newGeneratorBy passCounts ∧
    ∀ (split : Nat → List Nat) (engine : Engine) (size seed entropy : Value)
      (n state rounds : Nat),
      IsSplit split → engine.Coherent → engine.FaithfulCaches → 1 ≤ engine.workgroupSize →
      0 < engine.maxWorkgroups → size.toInt = .ok (n : Int) → 1 ≤ n → n + chunk < 2 ^ 32 →
      32 < rounds →
      outcomeOf (Action.newGeneratorBy split size seed entropy) engine = .ok state →
      (stateAfter (Action.newGeneratorBy split size seed entropy) engine).device.Executes
        deriveKernel rounds →
      let after := stateAfter (Action.newGeneratorBy split size seed entropy) engine
      ∃ number first, seedOf seed entropy = .ok number ∧ seedState number = .ok first ∧
        (after.content state).streams = (List.range n).map (fun i ↦ first.jumpTimes i) ∧
        (1 < n → after.device.bytesOf state = after.content state ∧
          (after.device.bytesOf (state + 1)).words = [.ofNat n]) ∧
        cursorAfter n 0 = 1 ∧ cursorAfter n (passesFor n) = n ∧
        ∀ passes < passesFor n,
          cursorAfter n passes < cursorAfter n (passes + 1) ∧
          deriveKernel.runSingle rounds (Stream.deriveMemory
              (streamsBelow first n (cursorAfter n passes)) (cursorAfter n passes)) =
            some (Stream.deriveMemory (streamsBelow first n (cursorAfter n (passes + 1)))
              (cursorAfter n (passes + 1))) := by
  refine ⟨isSplit_passCounts, Action.newGenerator_eq, ?_⟩
  intro split engine size seed entropy n state rounds hsplit hcoherent hfaithful hwidth hgroups
    hsize hn hfits hrounds h hexecutes
  dsimp only
  obtain ⟨hsum, hcounts⟩ := hsplit (passesFor n)
  have hsmall : n < 2 ^ 32 := Nat.lt_of_le_of_lt (Nat.le_add_right _ _) hfits
  obtain ⟨number, first, uploaded, generator, hnumber, hfirst, huploaded, hone, hseveral⟩ :=
    made_of_newGeneratorBy hcoherent hfaithful hsize hn hsmall h
  have hstart : cursorAfter n 0 = 1 := by
    unfold cursorAfter
    omega
  have hpasses : ∀ passes < passesFor n,
      cursorAfter n passes < cursorAfter n (passes + 1) ∧ _ := fun passes hlt ↦
    ⟨by unfold cursorAfter passesFor chunk at *; omega,
      runSingle_streamsBelow first hn hfits hrounds passes⟩
  refine ⟨number, first, hnumber, hfirst, ?_⟩
  obtain hlast | hmore := Nat.eq_or_lt_of_le hn
  · obtain ⟨array, hfound, hdirty, hstorage⟩ := huploaded.found
    have hcontent : (uploaded.addGenerator state generator).content state =
        Register.bytesOf ((streamsBelow first n 1).map .vector) := by
      change uploaded.content state = _
      rw [content_of_lookup hfound, if_pos hdirty, hstorage]
    have hrows : streamsBelow first n 1 = (List.range n).map fun i ↦ first.jumpTimes i := by
      rw [← streamsBelow_self, ← hlast]
    rw [hone hlast.symm, hcontent, Register.streams_bytesOf, hrows]
    exact ⟨rfl, fun hmore ↦ absurd hmore (by omega), hstart, cursorAfter_passesFor hn, hpasses⟩
  · obtain ⟨result, hderived, hstate⟩ := hseveral hmore
    rw [hstate] at hexecutes ⊢
    obtain ⟨hdevice, hstreams, hcursor⟩ := streams_of_deriveStreamsIn hmore hfits hrounds hwidth
      hgroups (fun count hmem ↦ (hcounts count hmem).1) hsum huploaded hexecutes hderived
    exact ⟨hstreams, fun _ ↦ ⟨hdevice, hcursor⟩, hstart, cursorAfter_passesFor hn, hpasses⟩

/-- An engine whose device runs a pass of a single invocation as one that derives streams. -/
def derivingEngine : Engine :=
  .create (.createWith
    (fun _ command held ↦ match command with
      | .dispatch _ _ _ (1, 1) => deriveKernel.process 33 held
      | _ => held)
    [] ⟨256, 256, 65535⟩ none) ⟨.highPerformance, .bool true, 64, .none⟩

/-- Eighteen streams take two passes: the first leaves the last stream to the second. -/
theorem streams_of_newGenerator_eighteen :
    (passesFor 18 = 2 ∧ cursorAfter 18 1 = 17) ∧
      outcomeOf (Action.newGeneratorBy passCounts (.int 18) (.int 7) .none) derivingEngine =
        .ok 1 ∧
      let after := stateAfter (Action.newGeneratorBy passCounts (.int 18) (.int 7) .none)
        derivingEngine
      ∃ number first, seedOf (.int 7) .none = .ok number ∧ seedState number = .ok first ∧
        (after.content 1).streams = (List.range 18).map (fun i ↦ first.jumpTimes i) ∧
        (1 < 18 → after.device.bytesOf 1 = after.content 1 ∧
          (after.device.bytesOf 2).words = [.ofNat 18]) ∧
        cursorAfter 18 0 = 1 ∧ cursorAfter 18 (passesFor 18) = 18 ∧
        ∀ passes < passesFor 18,
          cursorAfter 18 passes < cursorAfter 18 (passes + 1) ∧
          deriveKernel.runSingle 33 (Stream.deriveMemory
              (streamsBelow first 18 (cursorAfter 18 passes)) (cursorAfter 18 passes)) =
            some (Stream.deriveMemory (streamsBelow first 18 (cursorAfter 18 (passes + 1)))
              (cursorAfter 18 (passes + 1))) := by
  have hcoherent : derivingEngine.Coherent := coherent_create _ _
  have hfaithful : derivingEngine.FaithfulCaches := faithfulCaches_create _ _ _ _ _
  have hmade : outcomeOf (Action.newGeneratorBy passCounts (.int 18) (.int 7) .none)
      derivingEngine = .ok 1 := by
    rw [eq_ok_iff]
    decide +kernel
  refine ⟨by decide, hmade, ?_⟩
  refine streams_of_newGenerator.2.2 passCounts derivingEngine (.int 18) (.int 7) .none 18 1 33
    isSplit_passCounts hcoherent hfaithful (by decide) (by decide) rfl (by decide) (by decide)
    (by decide) hmade ?_
  intro count pipeline layout buffers parts held _ _
  rw [computing_of_newGeneratorBy hcoherent hfaithful (by decide) (by decide) rfl (by decide)
    (by decide) hmade]
  rfl

end Generator

end ComputeArray
