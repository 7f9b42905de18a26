import ComputeArray.Operation
import ComputeArray.Proofs.Kernel.Walk

/-!
# Lanes of elementwise kernels

A lane of an elementwise kernel stores, at its own number, what the operation makes of the values of
its inputs, and changes nothing else. An input is read where its offset says, a scalar is a
constant.
-/

set_option autoImplicit false

namespace ComputeArray.Kernel

open Machine

variable {α : Type} {machine : Machine α} {rounds : Nat} {state : State α}

/-- The element an operand turns an element it reads into. -/
def Operand.converted (machine : Machine α) (operand : Operand) (element : α) : α :=
  if operand.conversion = "" then element
  else machine.function operand.conversion [.element element]

theorem eval_convert {conversion : String} {inner : Expression} {element : α}
    (hconversion : conversion ≠ "arrayLength")
    (h : machine.eval state inner = some (.element element)) :
    machine.eval state (.convert conversion inner) =
      some (.element (if conversion = "" then element
        else machine.function conversion [.element element])) := by
  unfold Expression.convert
  split
  · next hempty => rw [eval_group, h]
  · next hempty => exact eval_call hconversion (by rw [evalAll, h, evalAll]; rfl)

/-! ### The number of a lane -/

/-- The number of an invocation's lane, the workgroups having `size` lanes. -/
def Invocation.number (invocation : Invocation) (size : Int) : Nat :=
  invocation.x + invocation.y * invocation.groups * size.toNat

theorem run_laneNumber (hfaithful : machine.arithmetic.Faithful) {invocation : Invocation}
    {size : Int} (hsize : 0 < size) (hlt : size.toNat < wordCount)
    (hnumber : invocation.number size < wordCount)
    (hx : state.locals "id.x" = some (.word invocation.x))
    (hy : state.locals "id.y" = some (.word invocation.y))
    (hgroups : state.locals "groups.x" = some (.word invocation.groups)) :
    machine.run rounds (laneNumber size) state =
      some (state.set "i" (.word (invocation.number size))) := by
  unfold Invocation.number at *
  have hpos : 0 < size.toNat := by omega
  have hle : invocation.y * invocation.groups ≤
      invocation.y * invocation.groups * size.toNat := Nat.le_mul_of_pos_right _ hpos
  have hrow : machine.eval state
      (.binary "*" (.member (.name "id") "y") (.member (.name "groups") "x")) =
        some (.word (invocation.y * invocation.groups)) :=
    (eval_binary_words (by rw [eval]; exact hy) (by rw [eval]; exact hgroups)).trans
      (hfaithful.apply_mul (by omega))
  have hrows := (eval_binary_words hrow (eval_word (Int.le_of_lt hsize) hlt)).trans
    (hfaithful.apply_mul (by omega))
  exact run_define ((eval_binary_words (by rw [eval]; exact hx) hrows).trans
    (hfaithful.apply_add hnumber))

/-- A lane within the output goes on. -/
theorem run_stop_beyond {array : String} {cells : List (Datum α)} {i : Nat}
    (harray : state.arrays array = some cells) (hlane : state.locals "i" = some (.word i))
    (hi : i < cells.length) : machine.run rounds (.stop (beyond array)) state = some state := by
  refine run_stop_of_not ?_
  have hleft : machine.eval state lane = some (.word i) := by rw [lane, eval_name, hlane]
  rw [beyond, eval_binary_words hleft (eval_arrayLength harray)]
  simp [Arithmetic.apply, hi]

namespace Elementwise

/-! ### The values of the inputs -/

/-- What an input is read as: an element of an array, or a constant. -/
structure Reads (machine : Machine α) (state : State α) (position : String → Expression)
    (input : String × Operand) (element : α) : Prop where
  conversion : input.2.conversion ≠ "arrayLength"
  scalar : input.2.isScalar = true → state.locals input.1 = some (.element element)
  array : input.2.isScalar = false →
    machine.eval state (.index input.1 (position input.1)) = some (.element element)

theorem evalAll_values {position : String → Expression} {inputs : List (String × Operand)}
    {elements : List α}
    (h : List.Forall₂ (Reads machine state position) inputs elements) :
    machine.evalAll state
        (inputs.map fun (name, operand) ↦ operand.value name (position name)) =
      some ((List.zipWith (fun input element ↦ input.2.converted machine element) inputs
        elements).map .element) := by
  induction h with
  | nil => rw [List.map_nil, evalAll]; rfl
  | @cons input element inputs elements hinput _ ih =>
    obtain ⟨name, operand⟩ := input
    have hvalue : machine.eval state (operand.value name (position name)) =
        some (.element (operand.converted machine element)) := by
      unfold Operand.value
      refine eval_convert hinput.conversion ?_
      by_cases hscalar : operand.isScalar = true
      · rw [if_pos hscalar, eval_name]
        exact hinput.scalar hscalar
      · rw [if_neg hscalar]
        exact hinput.array (by simpa using hscalar)
    rw [List.map_cons, evalAll, hvalue, ih]
    rfl

/-! ### Whole lanes -/

/-- What the body of a kernel computes from the values of the inputs. -/
def Computes (machine : Machine α) (result : List Expression → Expression)
    (combine : List α → α) (count : Nat) : Prop :=
  ∀ (state : State α) (expressions : List Expression) (values : List α),
    values.length = count → machine.evalAll state expressions = some (values.map .element) →
      machine.eval state (result expressions) = some (.element (combine values))

/-- The element an input is read as, the arrays being read at the given offsets. -/
structure Source (state : State α) (offset : String → Nat) (input : String × Operand)
    (element : α) : Prop where
  conversion : input.2.conversion ≠ "arrayLength"
  scalar : input.2.isScalar = true → state.locals input.1 = some (.element element)
  array : input.2.isScalar = false →
    ∃ cells, state.arrays input.1 = some cells ∧ cells[offset input.1]? = some (.element element)

theorem Source.set {offset : String → Nat} {input : String × Operand} {element : α} {name : String}
    {value : Datum α} (h : Source state offset input element) (hne : input.1 ≠ name) :
    Source (state.set name value) offset input element :=
  ⟨h.conversion, fun hscalar ↦ (State.locals_set_of_ne hne).trans (h.scalar hscalar), h.array⟩

/-- The names of the arrays among the inputs. -/
def arrayNames (inputs : List (String × Operand)) : List String :=
  (arrayInputs inputs).map Prod.fst

theorem position_eq_name (strided : Bool) (name : String) :
    ∃ read, position strided name = .name read := by
  cases strided with
  | false => exact ⟨"i", rfl⟩
  | true => exact ⟨offsetName name, rfl⟩

theorem mem_arrayNames {inputs : List (String × Operand)} {input : String × Operand}
    (hmem : input ∈ inputs) (h : input.2.isScalar = false) : input.1 ∈ arrayNames inputs :=
  List.mem_map.mpr ⟨input, List.mem_filter.mpr ⟨hmem, by simp [h]⟩, rfl⟩

/-- Once the offsets are there, a state differs from an earlier one in names of the walk only. -/
structure Placed (inputs : List (String × Operand)) (strided : Bool) (offset : String → Nat)
    (before after : State α) (machine : Machine α) : Prop where
  active : after.active = true
  arrays : after.arrays = before.arrays
  position : ∀ name ∈ arrayNames inputs,
    machine.eval after (position strided name) = some (.word (offset name))
  others : ∀ other, other ∉ (arrayNames inputs).map offsetName → other ≠ "rest" →
    other ≠ "k0" → after.locals other = before.locals other

/-- No input is called like a variable of the walk. -/
structure Hygienic (inputs : List (String × Operand)) : Prop where
  apart : Apart (arrayNames inputs)
  walk : ∀ input ∈ inputs, input.1 ∉ walkNames
  offsets : ∀ input ∈ inputs, input.1 ∉ (arrayNames inputs).map offsetName

theorem Placed.locals_eq {inputs : List (String × Operand)} {strided : Bool}
    {offset : String → Nat} {before after : State α}
    (h : Placed inputs strided offset before after machine) {name : String}
    (hoffset : name ∉ (arrayNames inputs).map offsetName) (hwalk : name ∉ walkNames) :
    after.locals name = before.locals name := by
  simp only [walkNames, List.mem_cons, List.not_mem_nil, or_false, not_or] at hwalk
  exact h.others name hoffset hwalk.2.1 hwalk.2.2.2.2.2

/-- With the offsets in place, the inputs are read as their sources. -/
theorem Placed.reads {inputs : List (String × Operand)} {strided : Bool} {offset : String → Nat}
    {before after : State α} {elements : List α}
    (h : Placed inputs strided offset before after machine) (hhygienic : Hygienic inputs)
    (hsources :
      List.Forall₂ (fun input element ↦ input ∈ inputs ∧ Source before offset input element)
      inputs elements) :
    List.Forall₂ (Reads machine after (Elementwise.position strided)) inputs elements := by
  refine hsources.imp fun input element ⟨hmem, hsource⟩ ↦ ?_
  refine ⟨hsource.conversion, fun hscalar ↦ ?_, fun harray ↦ ?_⟩
  · rw [h.locals_eq (hhygienic.offsets input hmem) (hhygienic.walk input hmem),
      hsource.scalar hscalar]
  · obtain ⟨cells, hcells, helement⟩ := hsource.array harray
    have harrays : after.arrays input.1 = some cells := by rw [h.arrays, hcells]
    rw [eval_index harrays (h.position _ (mem_arrayNames hmem harray)), helement]

/-- A lane stores at its number what the body computes from its sources, each of which it has read
at its offset. -/
theorem runAll_body (hfaithful : machine.arithmetic.Faithful) {size : Int}
    {inputs : List (String × Operand)} {out : Operand} {result : List Expression → Expression}
    {combine : List α → α} {strided : Bool} {offset : String → Nat} {elements : List α}
    {cells : List (Datum α)} {invocation : Invocation} (hsize : 0 < size)
    (hwords : size.toNat < wordCount) (hnumber : invocation.number size < wordCount)
    (hactive : state.active = true)
    (hx : state.locals "id.x" = some (.word invocation.x))
    (hy : state.locals "id.y" = some (.word invocation.y))
    (hgroups : state.locals "groups.x" = some (.word invocation.groups))
    (hhygienic : Hygienic inputs) (hconversion : out.conversion ≠ "arrayLength")
    (hcomputes : Computes machine result combine inputs.length)
    (hout : state.arrays "out" = some cells) (hlane : invocation.number size < cells.length)
    (hplaced : ∃ after, machine.runAll rounds
        (if strided then walk (arrayNames inputs) else [.blank])
        (state.set "i" (.word (invocation.number size))) = some after ∧
      Placed inputs strided offset (state.set "i" (.word (invocation.number size))) after machine)
    (hsources : List.Forall₂ (Source state offset) inputs elements) :
    ∃ last, machine.runAll rounds (body size inputs out result strided) state = some last ∧
      (∀ name ∈ arrayNames inputs,
        machine.eval last (position strided name) = some (.word (offset name))) ∧
      last.arrays = Function.update state.arrays "out" (some (cells.set (invocation.number size)
        (.element (out.converted machine (combine (List.zipWith
          (fun input element ↦ input.2.converted machine element) inputs elements)))))) := by
  set i := invocation.number size
  set started := state.set "i" (.word i) with hstarted
  obtain ⟨after, hafter, hplaced⟩ := hplaced
  have hstartedLane : started.locals "i" = some (.word i) := State.locals_set_self
  have hopening : machine.runAll rounds [laneNumber size, .stop (beyond "out")] state =
      some started := by
    have hstop : machine.run rounds (.stop (beyond "out")) started = some started :=
      run_stop_beyond hout hstartedLane hlane
    rw [runAll_cons (run_laneNumber hfaithful hsize hwords hnumber hx hy hgroups) hactive,
      runAll_cons hstop hactive, runAll_nil]
  have hreads : List.Forall₂ (Reads machine after (position strided)) inputs elements := by
    refine hplaced.reads hhygienic <| ((List.forall₂_and_left inputs elements).mpr
      ⟨fun _ hmem ↦ hmem, hsources⟩).imp fun input element ⟨hmem, hsource⟩ ↦ ⟨hmem, ?_⟩
    exact hsource.set fun heq ↦ hhygienic.walk input hmem (heq ▸ by decide)
  have hlength : (List.zipWith (fun input element ↦ input.2.converted machine element) inputs
      elements).length = inputs.length := by
    rw [List.length_zipWith, hsources.length_eq, Nat.min_self]
  have hstored := eval_convert hconversion
    (hcomputes after _ _ hlength (evalAll_values hreads))
  have hposition : machine.eval after Kernel.lane = some (.word i) := by
    rw [Kernel.lane, eval_name, hplaced.others "i" (hhygienic.apart.walk "i" (by decide))
      (by decide) (by decide), hstartedLane]
  have harrays : after.arrays = state.arrays := hplaced.arrays
  obtain ⟨last, hassign, hlastActive, hvariables, hlast⟩ : ∃ last,
      machine.run rounds (.assign (.index "out" Kernel.lane) (.convert out.conversion
        (result (inputs.map fun (name, operand) ↦ operand.value name (position strided name)))))
        after = some last ∧ last.active = true ∧ last.locals = after.locals ∧
      last.arrays = Function.update after.arrays "out" (some (cells.set i
        (.element (out.converted machine (combine (List.zipWith
          (fun input element ↦ input.2.converted machine element) inputs elements)))))) :=
    ⟨_, run_assign_index (harrays ▸ hout) hlane hposition hstored, hplaced.active, rfl, rfl⟩
  have hpositions : ∀ name ∈ arrayNames inputs,
      machine.eval last (position strided name) = some (.word (offset name)) := by
    intro name hmem
    have hread := hplaced.position name hmem
    obtain ⟨read, hname⟩ := position_eq_name strided name
    rw [hname, eval_name] at hread ⊢
    rw [hvariables, hread]
  refine ⟨last, ?_, hpositions, by rw [hlast, harrays]⟩
  have hbefore : machine.runAll rounds ([laneNumber size, .stop (beyond "out")] ++
      (if strided then walk (arrayNames inputs) else [.blank])) state = some after := by
    rw [runAll_append hopening hactive, hafter]
  exact (runAll_append hbefore hplaced.active).trans
    ((runAll_cons hassign hlastActive).trans runAll_nil)

/-! ### Both forms -/

/-- The direct form reads every input at the number of the lane. -/
theorem placed_direct {inputs : List (String × Operand)} {i : Nat} (hactive : state.active = true)
    (hlane : state.locals "i" = some (.word i)) :
    ∃ after, machine.runAll rounds (if false then walk (arrayNames inputs) else [.blank]) state =
        some after ∧ Placed inputs false (fun _ ↦ i) state after machine := by
  refine ⟨state, ?_, hactive, rfl, fun name _ ↦ ?_, fun _ _ _ _ ↦ rfl⟩
  · exact (runAll_cons (by rw [run]) hactive).trans runAll_nil
  · rw [position, if_neg (by decide), lane, eval_name, hlane]

/-- The strided form reads every input where its strides lead at the index of the lane. -/
theorem placed_strided (hfaithful : machine.arithmetic.Faithful)
    {inputs : List (String × Operand)} {shape : List Nat} {strides : String → List Nat} {i : Nat}
    (hapart : Apart (arrayNames inputs))
    (hstrided : Strided (arrayNames inputs) shape strides state.arrays) (hnonempty : shape ≠ [])
    (hextents : ∀ extent ∈ shape, 0 < extent) (hi : i < Shape.volume shape) (hword : i < wordCount)
    (hrank : shape.length < wordCount)
    (hbound : ∀ name ∈ arrayNames inputs,
      Layout.offsetAt (strides name) (Shape.index shape i) < wordCount)
    (hrounds : shape.length ≤ rounds) (hactive : state.active = true)
    (hlane : state.locals "i" = some (.word i)) :
    ∃ after, machine.runAll rounds (if true then walk (arrayNames inputs) else [.blank]) state =
        some after ∧
      Placed inputs true (fun name ↦ Layout.offsetAt (strides name) (Shape.index shape i)) state
        after machine := by
  obtain ⟨after, hafter, hactive', harrays, hreached, hothers⟩ := runAll_walk hfaithful hapart
    hstrided hnonempty hextents hi hword hrank hbound hrounds hactive hlane
  refine ⟨after, hafter, hactive', harrays, fun name hmem ↦ ?_, hothers⟩
  rw [position, if_pos rfl, eval_name, hreached name hmem]

end Elementwise

end ComputeArray.Kernel
