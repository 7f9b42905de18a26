import ComputeArray.Proofs.Kernel.Processing

/-!
# Workgroups on buffers of words

The invocations of a grid run one after the other, in any order, each on the memory the earlier ones
have left. Where each lane writes into the cells of its own number only, and what it writes there
depends on what was there before all of them, they leave the same memory in every order
(`invokeAll_of_perm`). `Kernel.processGrid` is what they make of the bytes of the buffers.
-/

set_option autoImplicit false

namespace ComputeArray.Kernel

open ComputeArray.Random

/-! ### Invocations -/

/-- The value of a constant of a kernel. -/
def Item.constant? (name : String) : Item → Option Register
  | .constant own _ (.literal text) =>
    if own = name then some (.numeral (.literal text)) else none
  | _ => none

end ComputeArray.Kernel

namespace ComputeArray.Kernel

/-- The frame in which an invocation of a grid starts. Of the third dimension and of the number of
rows the kernels make no use. -/
def entry (kernel : Kernel) (invocation : Invocation) (memory : Memory) : Frame where
  locals name :=
    if name = "id" then some (.vector ⟨.ofNat invocation.x, .ofNat invocation.y, 0, 0⟩)
    else if name = "groups" then some (.vector ⟨.ofNat invocation.groups, 0, 0, 0⟩)
    else kernel.items.findSome? (Item.constant? name)
  memory := memory
  result := none
  ended := false

/-- The memory an invocation of a grid leaves. -/
def invoke (kernel : Kernel) (rounds : Nat) (memory : Memory) (invocation : Invocation) :
    Option Memory := do
  let body ← kernel.items.findSome? Item.lanes?
  let functions := kernel.items.filterMap Item.function?
  let last ← Frame.runAll (callAt functions rounds functions.length) rounds body
    (kernel.entry invocation memory)
  some last.memory

/-- The memory invocations leave that run one after the other. -/
def invokeAll (kernel : Kernel) (rounds : Nat) :
    List Invocation → Memory → Option Memory
  | [], memory => some memory
  | invocation :: rest, memory => do
    kernel.invokeAll rounds rest (← kernel.invoke rounds memory invocation)

variable {kernel : Kernel} {calling : Calling} {rounds : Nat} {memory : Memory} {frame : Frame}
  {invocation : Invocation} {size : Int} {array : String} {cells : List Register} {i : UInt32}

open Kernel.Frame

/-- Invocations begin by computing the number of their lane. -/
theorem run_laneNumber_entry (calling : Calling) (rounds : Nat) (kernel : Kernel)
    (invocation : Invocation) (memory : Memory) (hsize : 0 ≤ size) (hword : size < 2 ^ 32) :
    run calling rounds (laneNumber size) (kernel.entry invocation memory) =
      some ((kernel.entry invocation memory).set "i"
        (.word (invocation.wordNumber size))) := by
  have hlanes : wordOf? size = some (.word (.ofNat size.toNat)) := if_pos ⟨hsize, hword⟩
  simp [laneNumber, run, eval, entry, Register.component, Register.combine, hlanes,
    Invocation.wordNumber]

theorem eval_beyond (calling : Calling) (hlane : frame.locals "i" = some (.word i))
    (hcells : frame.memory array = some cells) (hlength : cells.length < 2 ^ 32) :
    eval calling (beyond array) frame = some (.truth (cells.length ≤ i.toNat), frame) := by
  have hle : UInt32.ofNat cells.length ≤ i ↔ cells.length ≤ i.toNat := by
    rw [UInt32.le_iff_toNat_le, UInt32.toNat_ofNat_of_lt' hlength]
  simp [beyond, Expression.arrayLength, lane, eval, hlane, Memory.lengthOf, hcells,
    Register.combine, hle]

/-- Invocations whose lane lies beyond the arrays leave the memory as it is; the others go on. -/
theorem invoke_of_lanes {functions : List Function} {condition : Expression}
    {rest : List Statement} {ends : Bool} (rounds : Nat) (hsize : 0 ≤ size) (hword : size < 2 ^ 32)
    (hlanes : kernel.items.findSome? Item.lanes? =
      some (laneNumber size :: .stop condition :: .blank :: rest))
    (hfunctions : kernel.items.filterMap Item.function? = functions)
    (hcondition : eval (callAt functions rounds functions.length) condition
        ((kernel.entry invocation memory).set "i" (.word (invocation.wordNumber size))) =
      some (.truth ends,
        (kernel.entry invocation memory).set "i" (.word (invocation.wordNumber size)))) :
    kernel.invoke rounds memory invocation =
      if ends then some memory
      else (runAll (callAt functions rounds functions.length) rounds rest
        ((kernel.entry invocation memory).set "i" (.word (invocation.wordNumber size)))).map
          Frame.memory := by
  let calling := callAt functions rounds functions.length
  let start := kernel.entry invocation memory
  let numbered := start.set "i" (.word (invocation.wordNumber size))
  have hnumbered : run calling rounds (laneNumber size) start = some numbered :=
    run_laneNumber_entry calling rounds kernel invocation memory hsize hword
  have hstop : run calling rounds (.stop condition) numbered =
      some { numbered with ended := ends } := by
    rw [run, holds, hcondition]
    rfl
  have hbody : runAll calling rounds (laneNumber size :: .stop condition :: .blank :: rest) start =
      if ends then some { numbered with ended := true }
      else runAll calling rounds rest numbered := by
    rw [runAll_cons hnumbered rfl]
    cases ends with
    | true =>
      rw [runAll, hstop]
      rfl
    | false => exact (runAll_cons hstop rfl).trans (runAll_cons run_blank rfl)
  rw [invoke, hlanes, hfunctions]
  change (runAll calling rounds _ _).bind _ = _
  rw [hbody]
  cases ends with
  | true => rfl
  | false => exact (Option.map_eq_bind ..).symm

/-! ### Cells of lanes -/

/-- Cells with what the given lanes write into those of their numbers. -/
def writtenCells (result : Nat → Option Register) (lanes : List Nat) (cells : List Register) :
    List Register :=
  cells.mapIdx fun i cell ↦ if i ∈ lanes then (result i).getD cell else cell

theorem getElem?_writtenCells (result : Nat → Option Register) (lanes : List Nat)
    (cells : List Register) (k : Nat) :
    (writtenCells result lanes cells)[k]? =
      cells[k]?.map fun cell ↦ if k ∈ lanes then (result k).getD cell else cell :=
  List.getElem?_mapIdx

theorem length_writtenCells (result : Nat → Option Register) (lanes : List Nat)
    (cells : List Register) : (writtenCells result lanes cells).length = cells.length :=
  List.length_mapIdx

/-- One more lane writes its result, if it has one. -/
theorem writtenCells_cons (result : Nat → Option Register) (lanes : List Nat)
    (cells : List Register) (i : Nat) :
    (result i).elim (writtenCells result lanes cells) ((writtenCells result lanes cells).set i) =
      writtenCells result (i :: lanes) cells := by
  have hother {k : Nat} (hk : k ≠ i) : k ∈ i :: lanes ↔ k ∈ lanes := by simp [hk]
  refine List.ext_getElem? fun k ↦ ?_
  rw [getElem?_writtenCells]
  cases hresult : result i with
  | none =>
    rw [Option.elim_none, getElem?_writtenCells]
    by_cases hk : k = i
    · simp [hk, hresult]
    · simp only [hother hk]
  | some value =>
    rw [Option.elim_some]
    by_cases hk : k = i
    · subst hk
      rw [List.getElem?_set_self', getElem?_writtenCells]
      cases cells[k]? <;> simp [hresult]
    · rw [List.getElem?_set_ne (Ne.symm hk), getElem?_writtenCells]
      simp only [hother hk]

namespace Memory

/-- The memory with values in the cells of one lane. -/
def putAll (memory : Memory) (i : Nat) (values : List (String × Register)) : Memory :=
  values.foldl (fun memory entry ↦ memory.put entry.1 i entry.2) memory

/-- The memory with what the given lanes write into the cells of their numbers. -/
def written (memory : Memory) (result : String → Nat → Option Register) (lanes : List Nat) :
    Memory := fun array ↦
  (memory array).map (writtenCells (result array) lanes)

variable {result : String → Nat → Option Register} {lanes : List Nat}

theorem putAll_apply {values : List (String × Register)} (hkeys : (values.map Prod.fst).Nodup)
    (memory : Memory) (i : Nat) (array : String) :
    memory.putAll i values array =
      (memory array).map fun cells ↦ (values.lookup array).elim cells (cells.set i) := by
  induction values generalizing memory with
  | nil => simp [putAll]
  | cons entry rest ih =>
    obtain ⟨hfresh, hrest⟩ := List.nodup_cons.mp hkeys
    change (memory.put entry.1 i entry.2).putAll i rest array = _
    rw [ih hrest]
    by_cases hentry : array = entry.1
    · have hnone : rest.lookup array = none := by
        rw [List.lookup_eq_none_iff]
        intro other hmem
        rw [bne_iff_ne, hentry]
        exact fun heq ↦ hfresh (heq ▸ List.mem_map_of_mem hmem)
      subst hentry
      have hfound : (entry :: rest).lookup entry.1 = some entry.2 := List.lookup_cons_self
      simp [put, hnone, hfound, Function.comp_def]
    · have hskip : List.lookup array (entry :: rest) = rest.lookup array := by
        rw [List.lookup_cons, beq_eq_false_iff_ne.mpr hentry]
      rw [hskip, put, Function.update_of_ne hentry]

theorem written_nil (memory : Memory) (result : String → Nat → Option Register) :
    memory.written result [] = memory := by
  funext array
  have hnone : writtenCells (result array) [] = id := by
    funext cells
    refine List.ext_getElem? fun k ↦ ?_
    simp [getElem?_writtenCells]
  rw [written, hnone, Option.map_id]
  rfl

/-- One more lane writes its results. -/
theorem putAll_written {values : List (String × Register)} {i : Nat}
    (hkeys : (values.map Prod.fst).Nodup)
    (hresult : ∀ array, result array i = values.lookup array) :
    (memory.written result lanes).putAll i values = memory.written result (i :: lanes) := by
  funext array
  rw [putAll_apply hkeys, written, written, Option.map_map]
  refine congrFun (congrArg Option.map (funext fun cells ↦ ?_)) _
  rw [Function.comp_apply, ← hresult, writtenCells_cons]

end Memory

/-- Invocations that each write the results of their own lane. -/
theorem invokeAll_eq_written {result : String → Nat → Option Register} {order : List Invocation}
    (hnodup : (order.map (·.number size)).Nodup)
    (hstep : ∀ invocation ∈ order, ∀ lanes, invocation.number size ∉ lanes →
      kernel.invoke rounds (memory.written result lanes) invocation =
        some (memory.written result (invocation.number size :: lanes)))
    (lanes : List Nat) (hfresh : ∀ lane ∈ lanes, lane ∉ order.map (·.number size)) :
    kernel.invokeAll rounds order (memory.written result lanes) =
      some (memory.written result ((order.map (·.number size)).reverse ++ lanes)) := by
  induction order generalizing lanes with
  | nil => rfl
  | cons invocation rest ih =>
    rw [List.map_cons, List.nodup_cons] at hnodup
    have hnew : invocation.number size ∉ lanes := fun hmem ↦
      hfresh _ hmem (by simp)
    have hrest := ih hnodup.2 (fun later hmem ↦ hstep later (List.mem_cons_of_mem _ hmem))
      (invocation.number size :: lanes) fun lane hmem hlater ↦ by
        rcases List.mem_cons.mp hmem with rfl | hmem
        · exact hnodup.1 hlater
        · exact hfresh lane hmem (List.mem_cons_of_mem _ hlater)
    rw [invokeAll, hstep invocation List.mem_cons_self lanes hnew]
    refine hrest.trans ?_
    simp

/-- Whatever the order of the invocations of a grid, each lane's results end up in its cells. -/
theorem invokeAll_of_perm {result : String → Nat → Option Register} {order : List Invocation}
    {grid : Int × Int} (hperm : order.Perm (Invocation.all size grid))
    (hstep : ∀ invocation ∈ Invocation.all size grid, ∀ lanes, invocation.number size ∉ lanes →
      kernel.invoke rounds (memory.written result lanes) invocation =
        some (memory.written result (invocation.number size :: lanes)))
    (hresult : ∀ array i, result array i ≠ none →
      i < grid.1.toNat * grid.2.toNat * size.toNat) :
    kernel.invokeAll rounds order memory = some fun array ↦
      (memory array).map (·.mapIdx fun i cell ↦ (result array i).getD cell) := by
  have hnumbers : (order.map (·.number size)).Perm
      (List.range (grid.1.toNat * grid.2.toNat * size.toNat)) := by
    rw [← Invocation.map_number_grid]
    exact hperm.map _
  have hall := invokeAll_eq_written (hnumbers.nodup_iff.mpr List.nodup_range)
    (fun invocation hmem ↦ hstep invocation (hperm.mem_iff.mp hmem)) [] (by simp)
  rw [Memory.written_nil, List.append_nil] at hall
  rw [hall]
  congr 1
  funext array
  refine congrFun (congrArg Option.map (funext fun cells ↦ ?_)) _
  refine List.ext_getElem? fun k ↦ ?_
  rw [getElem?_writtenCells, List.getElem?_mapIdx]
  have hmem : k ∈ (order.map (·.number size)).reverse ↔
      k < grid.1.toNat * grid.2.toNat * size.toNat := by
    rw [List.mem_reverse, hnumbers.mem_iff, List.mem_range]
  by_cases hk : k < grid.1.toNat * grid.2.toNat * size.toNat
  · simp only [hmem, hk, if_true]
  · have hnone : result array k = none := by
      by_contra h
      exact hk (hresult array k h)
    simp only [hmem, hk, if_false, hnone, Option.getD_none]

/-! ### Bytes -/

/-- What a device makes of a float in the bits of an element type. -/
abbrev Rounding := ElementType → Numeral → Nat

namespace Register

/-- The bits a cell is stored as in an array of an element type. -/
def bits (rounding : Rounding) (element : ElementType) (cell : Register) : Nat :=
  (match cell with
    | .word x => x.toNat
    | .numeral (.held n) => n
    | .numeral x => rounding element x
    | _ => 0) % 256 ^ element.size

/-- The bytes of an array once cells have been stored in it. -/
def storedIn (rounding : Rounding) (elements : String) (bytes : Bytes) (cells : List Register) :
    Bytes :=
  match ElementType.ofName? elements with
  | some element => bytes.putElements element.size
      ((List.range cells.length).zip (cells.map (bits rounding element)))
  | none => bytesOf cells

end Register

/-- The name and the elements of the array an item binds to a slot. -/
def Item.boundTo? (slot : Int) : Item → Option (String × String)
  | .array (some own) _ name elements => if own = slot then some (name, elements) else none
  | _ => none

end ComputeArray.Kernel

namespace ComputeArray.Kernel

/-- What a memory leaves in the buffer of a slot: the array bound to it, if one is. -/
def leftIn (kernel : Kernel) (rounding : Rounding) (memory : Memory) (slot : Bytes × Nat) : Bytes :=
  match kernel.items.findSome? (Item.boundTo? slot.2) with
  | some (name, elements) => (memory name).elim slot.1 (Register.storedIn rounding elements slot.1)
  | none => slot.1

/-- What the invocations of a grid leave in the buffers of the slots, in the order in which they
run. -/
def processGrid (kernel : Kernel) (rounding : Rounding) (rounds : Nat) (order : List Invocation)
    (held : List Bytes) : List Bytes :=
  match kernel.invokeAll rounds order (kernel.memoryOf held) with
  | none => held
  | some memory => held.zipIdx.map (kernel.leftIn rounding memory)

theorem length_processGrid (kernel : Kernel) (rounding : Rounding) (rounds : Nat)
    (order : List Invocation) (held : List Bytes) :
    (kernel.processGrid rounding rounds order held).length = held.length := by
  unfold processGrid
  split
  · rfl
  · rw [List.length_map, List.length_zipIdx]

namespace Register

variable {rounding : Rounding} {element : ElementType} {bytes : Bytes} {cells : List Register}

theorem storedIn_name (rounding : Rounding) (element : ElementType) (bytes : Bytes)
    (cells : List Register) :
    storedIn rounding element.name bytes cells = bytes.putElements element.size
      ((List.range cells.length).zip (cells.map (bits rounding element))) := by
  cases element <;> rfl

theorem size_storedIn (rounding : Rounding) (element : ElementType) (bytes : Bytes)
    (cells : List Register) : (storedIn rounding element.name bytes cells).size = bytes.size := by
  rw [storedIn_name, Bytes.size_putElements]

/-- A cell is read back as the bits it has been stored as. -/
theorem element_storedIn {k : Nat} {cell : Register} (hcell : cells[k]? = some cell)
    (hsize : cells.length * element.size ≤ bytes.size) :
    (storedIn rounding element.name bytes cells).element element.size k =
      bits rounding element cell := by
  obtain ⟨hk, rfl⟩ := List.getElem?_eq_some_iff.mp hcell
  have hbound : ∀ word ∈ cells.map (bits rounding element), word < 256 ^ element.size := by
    intro word hmem
    obtain ⟨cell, -, rfl⟩ := List.mem_map.mp hmem
    exact Nat.mod_lt _ (Nat.pow_pos (by decide))
  have hread := @Bytes.element_putElements_range bytes element.size 0 _
    (by simpa using hsize) hbound k (by simpa using hk)
  simpa [storedIn_name, List.range_eq_range'] using hread

/-- The cells of an array of elements that kernels of words work on. -/
theorem exists_cellsOf? (helement : element ≠ .i32) (bytes : Bytes) :
    ∃ cells, cellsOf? element.name bytes = some cells ∧
      cells.length = bytes.size / element.size := by
  cases element with
  | i32 => exact absurd rfl helement
  | u32 => exact ⟨_, rfl, by simp [Bytes.words]; rfl⟩
  | f16 => exact ⟨_, rfl, by simp [Bytes.elements]; rfl⟩
  | f32 => exact ⟨_, rfl, by simp [Bytes.elements]; rfl⟩

end Register

end ComputeArray.Kernel
