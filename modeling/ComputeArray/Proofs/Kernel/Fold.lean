import ComputeArray.Proofs.Kernel.Bindings
import ComputeArray.Proofs.Kernel.Grid
import ComputeArray.Proofs.Reduction.Folding

/-!
# Lanes of folding kernels

A lane of a pass over `n` elements folds the elements it picks, from the left, and stores the fold
at its own number (`runLane_of_lt`). A lane beyond those of the pass stops at once and leaves the
arrays as they are (`runLane_of_ge`). So in whatever order the lanes of a workgroup run, they leave
the results of the pass, converted (`runLanes_kernel`). Nothing wraps around as long as `n` and the
number of lanes together are no more than there are words.
-/

set_option autoImplicit false

namespace ComputeArray.Kernel.Fold

open Machine Reduction

variable {α : Type} {machine : Machine α} {rounds : Nat} {op : α → α → α}
  {combine : Expression → Expression → Expression} {argument out : Operand}

/-! ### Combining -/

/-- Expressions for two elements are combined to one for what an operation makes of them. -/
def Combines (machine : Machine α) (combine : Expression → Expression → Expression)
    (op : α → α → α) : Prop :=
  ∀ (state : State α) (left right : Expression) (a b : α),
    machine.eval state left = some (.element a) → machine.eval state right = some (.element b) →
      machine.eval state (combine left right) = some (.element (op a b))

theorem combines_operator {symbol : String} (h : symbol ≠ "!=") :
    Combines machine (.binary symbol) (machine.operator symbol) := by
  intro state left right a b hleft hright
  rw [eval, hleft, hright]
  exact if_neg h

theorem combines_function {function : String} (h : function ≠ "arrayLength") :
    Combines machine (fun accumulated element ↦ .call function [accumulated, element])
      fun a b ↦ machine.function function [.element a, .element b] := by
  intro state left right a b hleft hright
  refine eval_call h ?_
  rw [evalAll, evalAll, evalAll, hleft, hright]
  rfl

/-! ### The loop -/

/-- The elements of a pass: the first `n` of an array, as the kernel converts them. -/
def values (machine : Machine α) (argument : Operand) (n : Nat) (xs : List α) : List α :=
  (xs.take n).map (argument.converted machine)

theorem length_values {n : Nat} {xs : List α} (h : n ≤ xs.length) :
    (values machine argument n xs).length = n := by
  rw [values, List.length_map, List.length_take, Nat.min_eq_left h]

/-- What a lane of a pass reads: the bounds of the pass and the array it folds. -/
structure Reads (state : State α) (n lanes : Nat) (xs : List α) : Prop where
  bound : state.locals "n" = some (.word n)
  lanes : state.locals "lanes" = some (.word lanes)
  array : state.arrays "arg" = some (xs.map .element)

/-- The element of a pass at a position. -/
def elementAt (argument : Operand) (position : Expression) : Expression :=
  .convert argument.conversion (.index "arg" position)

theorem eval_elementAt (hconversion : argument.conversion ≠ "arrayLength") {state : State α}
    {n lanes j : Nat} {xs : List α} {value : α} {position : Expression}
    (hreads : Reads state n lanes xs)
    (hposition : machine.eval state position = some (.word j))
    (hvalue : (values machine argument n xs)[j]? = some value) :
    machine.eval state (elementAt argument position) = some (.element value) := by
  rw [values, List.getElem?_map, Option.map_eq_some_iff] at hvalue
  obtain ⟨x, hx, rfl⟩ := hvalue
  refine eval_convert hconversion ?_
  have hcell : xs[j]? = some x := by
    have hj : j < n := by
      by_contra hge
      rw [List.getElem?_take_eq_none (Nat.le_of_not_lt hge)] at hx
      cases hx
    rwa [List.getElem?_take_of_lt hj] at hx
  rw [eval_index hreads.array hposition, List.getElem?_map, hcell]
  rfl

/-- A lane on its way: what it has folded so far, and the position of the element that is next. -/
structure Folding (base state : State α) (j : Nat) (folded : α) : Prop where
  active : state.active = true
  arrays : state.arrays = base.arrays
  counter : state.locals "j" = some (.word j)
  accumulator : state.locals "acc" = some (.element folded)
  others : ∀ other, other ≠ "j" → other ≠ "acc" → state.locals other = base.locals other

theorem Folding.reads {base state : State α} {j n lanes : Nat} {folded : α} {xs : List α}
    (h : Folding base state j folded) (hreads : Reads base n lanes xs) :
    Reads state n lanes xs where
  bound := (h.others "n" (by decide) (by decide)).trans hreads.bound
  lanes := (h.others "lanes" (by decide) (by decide)).trans hreads.lanes
  array := h.arrays ▸ hreads.array

/-- The body of the loop: the next element is combined with what has been folded. -/
def round (argument : Operand) (combine : Expression → Expression → Expression) :
    List Statement :=
  [.assign (.name "acc") (combine (.name "acc") (elementAt argument (.name "j")))]

/-- A round takes in the next element and goes on `lanes` further. -/
theorem folding_round (rounds : Nat) (hfaithful : machine.arithmetic.Faithful)
    (hcombines : Combines machine combine op) (hconversion : argument.conversion ≠ "arrayLength")
    {base state : State α} {n lanes j : Nat} {xs : List α} {folded value : α}
    (hreads : Reads base n lanes xs) (hfolding : Folding base state j folded)
    (hvalue : (values machine argument n xs)[j]? = some value) (hword : j + lanes < wordCount) :
    ∃ next, (do
        let inner ← machine.runAll rounds (round argument combine) state
        let inner := inner.leave state (declared (round argument combine))
        (machine.eval inner (.binary "+" (.name "j") (.name "lanes"))).map (inner.set "j")) =
          some next ∧
      Folding base next (j + lanes) (op folded value) := by
  have hcombined : machine.eval state
      (combine (.name "acc") (elementAt argument (.name "j"))) =
        some (.element (op folded value)) := by
    refine hcombines _ _ _ _ _ ?_ ?_
    · rw [eval_name, hfolding.accumulator]
    · refine eval_elementAt hconversion (hfolding.reads hreads) ?_ hvalue
      rw [eval_name, hfolding.counter]
  have hround : machine.runAll rounds (round argument combine) state =
      some (state.set "acc" (.element (op folded value))) := by
    have hassign : machine.run rounds
        (.assign (.name "acc") (combine (.name "acc") (elementAt argument (.name "j")))) state =
          some (state.set "acc" (.element (op folded value))) :=
      run_assign_name (by rw [hfolding.accumulator]; rfl) hcombined
    rw [round, runAll_cons hassign hfolding.active, runAll_nil]
  set inner := state.set "acc" (.element (op folded value)) with hinner
  have hkept : ∀ other, other ≠ "acc" → inner.locals other = state.locals other :=
    fun other hother ↦ State.locals_set_of_ne hother
  have hnext : machine.eval (inner.leave state []) (.binary "+" (.name "j") (.name "lanes")) =
      some (.word (j + lanes)) := by
    have hleft : machine.eval (inner.leave state []) (.name "j") = some (.word j) := by
      rw [eval_name, State.locals_leave_of_not_mem List.not_mem_nil, hkept "j" (by decide),
        hfolding.counter]
    have hright : machine.eval (inner.leave state []) (.name "lanes") = some (.word lanes) := by
      rw [eval_name, State.locals_leave_of_not_mem List.not_mem_nil, hkept "lanes" (by decide),
        (hfolding.reads hreads).lanes]
    exact (eval_binary_words hleft hright).trans (hfaithful.apply_add hword)
  refine ⟨(inner.leave state []).set "j" (.word (j + lanes)), ?_, hfolding.active,
    hfolding.arrays, State.locals_set_self, ?_, fun other hj hacc ↦ ?_⟩
  · rw [hround]
    change (machine.eval (inner.leave state []) _).map _ = _
    rw [hnext]
    rfl
  · rw [State.locals_set_of_ne (by decide), State.locals_leave_of_not_mem List.not_mem_nil,
      hinner, State.locals_set_self]
  · rw [State.locals_set_of_ne hj, State.locals_leave_of_not_mem List.not_mem_nil,
      hkept other hacc, hfolding.others other hj hacc]

/-- The loop folds the elements that remain for the lane, one in each round. -/
theorem iterate_fold (hfaithful : machine.arithmetic.Faithful)
    (hcombines : Combines machine combine op) (hconversion : argument.conversion ≠ "arrayLength")
    {base state : State α} {n lanes j count : Nat} {xs : List α} {folded : α}
    (hreads : Reads base n lanes xs) (hn : n ≤ xs.length) (hword : n + lanes ≤ wordCount)
    (hwithin : ∀ k < count, j + k * lanes < n) (hend : n ≤ j + count * lanes)
    (hrounds : count < rounds) (hfolding : Folding base state j folded) (depth : Nat) :
    ∃ last, iterate (fun state ↦ machine.holds state (.binary "<" (.name "j") (.name "n")))
        (fun state ↦ do
          let inner ← machine.runAll depth (round argument combine) state
          let inner := inner.leave state (declared (round argument combine))
          (machine.eval inner (.binary "+" (.name "j") (.name "lanes"))).map (inner.set "j"))
        rounds state = some last ∧
      Folding base last (j + count * lanes)
        (((List.range' j count lanes).filterMap ((values machine argument n xs)[·]?)).foldl op
          folded) := by
  have hcondition : ∀ {current : State α} {k : Nat} {a : α}, Folding base current k a →
      machine.holds current (.binary "<" (.name "j") (.name "n")) = some (decide (k < n)) := by
    intro current k a hcurrent
    refine holds_of_eval ((eval_binary_words (by rw [eval_name, hcurrent.counter])
      (by rw [eval_name, (hcurrent.reads hreads).bound])).trans ?_)
    simp [Arithmetic.apply]
  induction count generalizing state rounds j folded with
  | zero =>
    have hdone : decide (j < n) = false := decide_eq_false (by omega)
    refine ⟨state, iterate_of_not (by rw [hcondition hfolding, hdone]) hrounds, ?_⟩
    rw [Nat.zero_mul, Nat.add_zero]
    exact hfolding
  | succ count ih =>
    obtain ⟨rounds, rfl⟩ : ∃ fewer, rounds = fewer + 1 := ⟨rounds - 1, by omega⟩
    have hj : j < n := by
      have hfirst := hwithin 0 (Nat.succ_pos _)
      omega
    have hlt : j < (values machine argument n xs).length := by rwa [length_values hn]
    have hvalue := List.getElem?_eq_getElem hlt
    obtain ⟨next, hnext, hfolding'⟩ :=
      folding_round depth hfaithful hcombines hconversion hreads hfolding hvalue (by omega)
    have hgoes : machine.holds state (.binary "<" (.name "j") (.name "n")) = some true := by
      rw [hcondition hfolding, decide_eq_true hj]
    have hwithin' : ∀ k < count, j + lanes + k * lanes < n := by
      intro k hk
      have hlater := hwithin (k + 1) (by omega)
      rw [Nat.add_mul] at hlater
      omega
    have hend' : n ≤ j + lanes + count * lanes := by
      rw [Nat.add_mul] at hend
      omega
    obtain ⟨last, hlast, hfolded⟩ :=
      ih hwithin' hend' (Nat.lt_of_succ_lt_succ hrounds) hfolding'
    refine ⟨last, ?_, ?_⟩
    · rw [iterate_of_holds hgoes hnext, hlast]
    · have hposition : j + lanes + count * lanes = j + (count + 1) * lanes := by
        rw [Nat.add_mul]
        omega
      rw [hposition] at hfolded
      rw [List.range'_succ, List.filterMap_cons_some hvalue]
      exact hfolded

/-- The statements of a lane between its stop and its result. -/
def middle (argument : Operand) (combine : Expression → Expression → Expression) :
    List Statement :=
  [.blank, .declare "acc" none (elementAt argument lane),
    .loop "j" (.binary "+" lane (.name "lanes")) (.binary "<" (.name "j") (.name "n"))
      (.binary "+" (.name "j") (.name "lanes")) (round argument combine)]

/-- They fold the elements the lane picks, beginning with the one at its own number. -/
theorem runAll_middle (hfaithful : machine.arithmetic.Faithful)
    (hcombines : Combines machine combine op) (hconversion : argument.conversion ≠ "arrayLength")
    {state : State α} {n lanes i : Nat} {xs : List α} (hreads : Reads state n lanes xs)
    (hlane : state.locals "i" = some (.word i)) (hactive : state.active = true)
    (hi : i < lanes) (hle : lanes ≤ n) (hn : n ≤ xs.length) (hword : n + lanes ≤ wordCount)
    (hrounds : n ≤ rounds) {folded : α}
    (hfolded : foldOf op (picks (values machine argument n xs) lanes i) = some folded) :
    ∃ last, machine.runAll rounds (middle argument combine) state = some last ∧
      last.active = true ∧ last.arrays = state.arrays ∧
      last.locals "i" = some (.word i) ∧ last.locals "acc" = some (.element folded) := by
  have hlength : (values machine argument n xs).length = n := length_values hn
  have hfirst : i < (values machine argument n xs).length := by omega
  obtain ⟨count, hpicks, hwithin, hend⟩ := picks_cons (Nat.zero_lt_of_lt hi) hfirst
  rw [hlength] at hwithin hend
  rw [hpicks] at hfolded
  have hcount : count < n := by
    by_contra hge
    have hstep : count - 1 ≤ (count - 1) * lanes := Nat.le_mul_of_pos_right _ (by omega)
    have hlater := hwithin (count - 1) (by omega)
    omega
  set value := (values machine argument n xs)[i] with hvalue
  have hdeclare : machine.run rounds (.declare "acc" none (elementAt argument lane)) state =
      some (state.set "acc" (.element value)) := by
    refine run_declare (eval_elementAt hconversion hreads ?_ (List.getElem?_eq_getElem hfirst))
    rw [lane, eval_name, hlane]
  set begun := state.set "acc" (.element value) with hbegun
  have hkept : ∀ other, other ≠ "acc" → begun.locals other = state.locals other :=
    fun other hother ↦ State.locals_set_of_ne hother
  have hreads' : Reads begun n lanes xs :=
    ⟨(hkept "n" (by decide)).trans hreads.bound, (hkept "lanes" (by decide)).trans hreads.lanes,
      hreads.array⟩
  have hposition : machine.eval begun (.binary "+" lane (.name "lanes")) =
      some (.word (i + lanes)) := by
    refine (eval_binary_words ?_ (by rw [eval_name, hreads'.lanes])).trans
      (hfaithful.apply_add (by omega))
    rw [lane, eval_name, hkept "i" (by decide), hlane]
  have hfolding : Folding begun (begun.set "j" (.word (i + lanes))) (i + lanes) value := by
    refine ⟨hactive, rfl, State.locals_set_self, ?_,
      fun other hj _ ↦ State.locals_set_of_ne hj⟩
    rw [State.locals_set_of_ne (by decide), hbegun, State.locals_set_self]
  obtain ⟨done, hdone, hresult⟩ := iterate_fold hfaithful hcombines hconversion hreads' hn hword
    hwithin hend (Nat.lt_of_lt_of_le hcount hrounds) hfolding rounds
  have hloop : machine.run rounds (.loop "j" (.binary "+" lane (.name "lanes"))
      (.binary "<" (.name "j") (.name "n")) (.binary "+" (.name "j") (.name "lanes"))
      (round argument combine)) begun = some (done.leave begun ["j"]) := by
    rw [run, hposition]
    change (iterate _ _ rounds (begun.set "j" _)).bind _ = _
    rw [hdone]
    rfl
  refine ⟨done.leave begun ["j"], ?_, hresult.active, hresult.arrays, ?_, ?_⟩
  · rw [middle, runAll_cons (by rw [run]) hactive, runAll_cons hdeclare hactive,
      runAll_cons hloop hresult.active, runAll_nil]
  · rw [State.locals_leave_of_not_mem (by decide), hresult.others "i" (by decide) (by decide),
      hkept "i" (by decide), hlane]
  · rw [State.locals_leave_of_not_mem (by decide), hresult.accumulator]
    exact congrArg (Option.map Datum.element) hfolded

/-! ### Whole lanes -/

/-- What a lane does. -/
def body (size : Int) (argument out : Operand)
    (combine : Expression → Expression → Expression) : List Statement :=
  [laneNumber size, .stop (.binary ">=" lane (.name "lanes"))] ++ (middle argument combine ++
    [.assign (.index "out" lane) (.convert out.conversion (.name "acc"))])

theorem lanes?_kernel (size : Int) (argument out : Operand)
    (combine : Expression → Expression → Expression) :
    (kernel size argument out combine).items.findSome? Item.lanes? =
      some (body size argument out combine) := by
  simp only [kernel, List.findSome?_cons, lanes?_preamble, lanes?_item]
  rfl

/-- What a pass binds: its bounds, the array it folds and the cells it stores into. -/
structure Bound (constants : String → Option (Datum α)) (cells : Int → Option (List (Datum α)))
    (argument out : Operand) (n lanes : Nat) (xs : List α) (stored : List (Datum α)) : Prop where
  bound : constants "n" = some (.word n)
  lanes : constants "lanes" = some (.word lanes)
  argument : ∃ slot, argument.slot = some slot ∧ cells slot = some (xs.map .element)
  out : ∃ slot, out.slot = some slot ∧ cells slot = some stored

variable {constants : String → Option (Datum α)} {cells : Int → Option (List (Datum α))}
  {invocation : Invocation} {size : Int} {n lanes : Nat} {xs : List α} {stored : List (Datum α)}

theorem declared?_kernel (size : Int) {source target : Int} (hsource : argument.slot = some source)
    (htarget : out.slot = some target) (combine : Expression → Expression → Expression) :
    (kernel size argument out combine).items.filterMap Item.declared? = ["arg", "out"] := by
  have hargument : (argument.item "arg" .read).declared? = some "arg" :=
    declared?_item "arg" .read (by rw [Operand.isScalar, hsource]; rfl)
  have hout : (out.item "out" .readWrite).declared? = some "out" :=
    declared?_item "out" .readWrite (by rw [Operand.isScalar, htarget]; rfl)
  simp only [kernel]
  rw [List.filterMap_cons_none (declared?_preamble _), List.filterMap_cons_some hargument,
    List.filterMap_cons_some hout]
  rfl

/-- The lanes of a pass are lanes of one workgroup, each has an element
to begin with, and no position it comes to is beyond the words. -/
structure Fits (size : Int) (n lanes : Nat) : Prop where
  pos : 0 < lanes
  le : lanes ≤ n
  grouped : lanes ≤ size.toNat
  width : size.toNat < wordCount
  words : n + lanes ≤ wordCount

/-- A lane finds the bounds of its pass under their names, and both arrays. -/
theorem Bound.start (h : Bound constants cells argument out n lanes xs stored) (size : Int)
    (combine : Expression → Expression → Expression) (invocation : Invocation) :
    Reads ((kernel size argument out combine).start constants cells invocation) n lanes xs ∧
      ((kernel size argument out combine).start constants cells invocation).arrays "out" =
        some stored := by
  obtain ⟨source, hsource, hxs⟩ := h.argument
  obtain ⟨target, htarget, hstored⟩ := h.out
  have hnodup : ((kernel size argument out combine).items.filterMap Item.declared?).Nodup := by
    rw [declared?_kernel size hsource htarget]
    decide
  have hargument : Item.array (some source) .read "arg" argument.type ∈
      (kernel size argument out combine).items := by
    simp [kernel, Operand.item, hsource]
  have hout : Item.array (some target) .readWrite "out" out.type ∈
      (kernel size argument out combine).items := by
    simp [kernel, Operand.item, htarget]
  exact ⟨⟨h.bound, h.lanes, (arrays_start hnodup hargument).trans hxs⟩,
    (arrays_start hnodup hout).trans hstored⟩

/-- A lane knows its number, and whether it is one of those of the pass. -/
theorem run_stop_lanes {state : State α} {i : Nat} (hlane : state.locals "i" = some (.word i))
    (hlanes : state.locals "lanes" = some (.word lanes)) :
    machine.run rounds (.stop (.binary ">=" lane (.name "lanes"))) state =
      some (if lanes ≤ i then { state with active := false } else state) := by
  have hcondition : machine.eval state (.binary ">=" lane (.name "lanes")) =
      some (.truth (decide (lanes ≤ i))) := by
    refine (eval_binary_words (by rw [lane, eval_name, hlane])
      (by rw [eval_name, hlanes])).trans ?_
    simp [Arithmetic.apply]
  by_cases hle : lanes ≤ i
  · rw [if_pos hle]
    exact run_stop_of_holds (by rw [hcondition, decide_eq_true hle])
  · rw [if_neg hle]
    exact run_stop_of_not (by rw [hcondition, decide_eq_false hle])

/-- A lane beyond those of the pass leaves the arrays as they are. -/
theorem runLane_of_ge (hfaithful : machine.arithmetic.Faithful) (hsize : 0 < size)
    (hwords : size.toNat < wordCount) (hnumber : invocation.number size < wordCount)
    (hbound : Bound constants cells argument out n lanes xs stored)
    (hge : lanes ≤ invocation.number size) :
    ∃ last, (kernel size argument out combine).runLane machine rounds constants cells invocation =
        some last ∧
      last.arrays =
        ((kernel size argument out combine).start constants cells invocation).arrays := by
  obtain ⟨hreads, hout⟩ := hbound.start size combine invocation
  set start := (kernel size argument out combine).start constants cells invocation with hstart
  set first := start.set "i" (.word (invocation.number size)) with hfirst
  have hlane : machine.run rounds (laneNumber size) start = some first :=
    run_laneNumber hfaithful hsize hwords hnumber rfl rfl rfl
  have hstop : machine.run rounds (.stop (.binary ">=" lane (.name "lanes"))) first =
      some { first with active := false } := by
    rw [run_stop_lanes State.locals_set_self
      ((State.locals_set_of_ne (by decide)).trans hreads.lanes), if_pos hge]
  refine ⟨{ first with active := false }, ?_, rfl⟩
  rw [Kernel.runLane, lanes?_kernel]
  exact (runAll_cons hlane rfl).trans (runAll_cons_of_ended hstop rfl)

/-- A lane of the pass folds the elements it picks and stores the fold, converted, at its number. -/
theorem runLane_of_lt (hfaithful : machine.arithmetic.Faithful)
    (hcombines : Combines machine combine op) (hconversion : argument.conversion ≠ "arrayLength")
    (hconversion' : out.conversion ≠ "arrayLength") (hfits : Fits size n lanes)
    (hbound : Bound constants cells argument out n lanes xs stored)
    (hlt : invocation.number size < lanes) (hn : n ≤ xs.length) (hstored : lanes ≤ stored.length)
    (hrounds : n ≤ rounds) {folded : α}
    (hfolded : foldOf op (picks (values machine argument n xs) lanes (invocation.number size)) =
      some folded) :
    ∃ last, (kernel size argument out combine).runLane machine rounds constants cells invocation =
        some last ∧
      last.arrays = Function.update
        ((kernel size argument out combine).start constants cells invocation).arrays "out"
        (some (stored.set (invocation.number size)
          (.element (out.converted machine folded)))) := by
  have hpos := hfits.pos
  have hsize := hfits.grouped
  have hwidth := hfits.width
  set i := invocation.number size with hi
  obtain ⟨hreads, hout⟩ := hbound.start size combine invocation
  set start := (kernel size argument out combine).start constants cells invocation with hstart
  have hlane : machine.run rounds (laneNumber size) start = some (start.set "i" (.word i)) :=
    run_laneNumber hfaithful (by omega) hwidth (by omega) rfl rfl rfl
  set first := start.set "i" (.word i) with hfirst
  have hnumber : first.locals "i" = some (.word i) := State.locals_set_self
  have hreads' : Reads first n lanes xs :=
    ⟨(State.locals_set_of_ne (by decide)).trans hreads.bound,
      (State.locals_set_of_ne (by decide)).trans hreads.lanes, hreads.array⟩
  have hstop : machine.run rounds (.stop (.binary ">=" lane (.name "lanes"))) first =
      some first := by
    rw [run_stop_lanes hnumber hreads'.lanes, if_neg (Nat.not_le_of_lt hlt)]
  obtain ⟨second, hsecond, hactive, harrays, hnumber', haccumulator⟩ := runAll_middle hfaithful
    hcombines hconversion hreads' hnumber rfl hlt hfits.le hn hfits.words hrounds hfolded
  set last : State α := { second with
    arrays := Function.update second.arrays "out"
      (some (stored.set i (.element (out.converted machine folded)))) } with hlast
  have hstore : machine.run rounds
      (.assign (.index "out" lane) (.convert out.conversion (.name "acc"))) second = some last := by
    refine run_assign_index (harrays ▸ hout) (by omega) ?_ (eval_convert hconversion' ?_)
    · rw [lane, eval_name, hnumber']
    · rw [eval_name, haccumulator]
  refine ⟨last, ?_, by rw [hlast, harrays, hfirst, State.arrays_set]⟩
  rw [Kernel.runLane, lanes?_kernel, ← hstart]
  change machine.runAll rounds (body size argument out combine) start = _
  rw [body, List.cons_append, List.cons_append, List.nil_append, runAll_cons hlane rfl,
    runAll_cons hstop rfl, runAll_append hsecond hactive,
    runAll_cons hstore hactive, runAll_nil]

/-- The cells a pass leaves: the folds of what its lanes pick, converted. -/
def results (machine : Machine α) (op : α → α → α) (argument out : Operand) (n lanes : Nat)
    (xs : List α) : List (Datum α) :=
  (passResult op lanes (values machine argument n xs)).map
    fun folded ↦ .element (out.converted machine folded)

theorem length_results (hle : lanes ≤ n) (hn : n ≤ xs.length) :
    (results machine op argument out n lanes xs).length = lanes := by
  have hlength : lanes ≤ (values machine argument n xs).length := by rwa [length_values hn]
  rw [results, List.length_map]
  exact (passResult_spec op hlength).1

/-- A lane of the workgroup stores the result there is for its number, if any. -/
theorem runLane_storeAt (hfaithful : machine.arithmetic.Faithful)
    (hcombines : Combines machine combine op) (hconversion : argument.conversion ≠ "arrayLength")
    (hconversion' : out.conversion ≠ "arrayLength") (hfits : Fits size n lanes)
    (hbound : Bound constants cells argument out n lanes xs stored)
    (hnumber : invocation.number size < size.toNat) (hn : n ≤ xs.length)
    (hstored : lanes ≤ stored.length) (hrounds : n ≤ rounds) :
    ∃ last, (kernel size argument out combine).runLane machine rounds constants cells invocation =
        some last ∧
      last.arrays "arg" = some (xs.map .element) ∧
      last.arrays "out" = some (storeAt (results machine op argument out n lanes xs) stored
        (invocation.number size)) := by
  obtain ⟨hreads, hout⟩ := hbound.start size combine invocation
  have hcount : (results machine op argument out n lanes xs).length = lanes :=
    length_results hfits.le hn
  by_cases hlt : invocation.number size < lanes
  · have hlength : lanes ≤ (values machine argument n xs).length := by
      rw [length_values hn]
      exact hfits.le
    obtain ⟨hfolds, hresult⟩ := passResult_spec op hlength
    have hfold : invocation.number size < (passResult op lanes
        (values machine argument n xs)).length := by rwa [hfolds]
    obtain ⟨last, hlast, harrays⟩ := runLane_of_lt hfaithful hcombines hconversion hconversion'
      hfits hbound hlt hn hstored hrounds
      ((hresult _ hlt).symm.trans (List.getElem?_eq_getElem hfold))
    refine ⟨last, hlast, ?_, ?_⟩
    · rw [harrays, Function.update_of_ne (by decide), hreads.array]
    · rw [harrays, Function.update_self, storeAt, results, List.getElem?_map,
        List.getElem?_eq_getElem hfold]
      rfl
  · obtain ⟨last, hlast, harrays⟩ := runLane_of_ge hfaithful (by omega) hfits.width
      (Nat.lt_trans hnumber hfits.width) hbound (Nat.le_of_not_lt hlt)
    refine ⟨last, hlast, ?_, ?_⟩
    · rw [harrays, hreads.array]
    · rw [harrays, hout, storeAt, List.getElem?_eq_none (by rwa [hcount, ← Nat.not_lt])]

/-! ### Workgroups -/

/-- After an invocation the slots of both arrays have what it left under their names. -/
theorem cellsAfter_kernel {source target : Int} (hsource : argument.slot = some source)
    (htarget : out.slot = some target) (hne : source ≠ target) {last : State α}
    {xs left : List (Datum α)} (hcells : cells source = some xs)
    (hxs : last.arrays "arg" = some xs) (hleft : last.arrays "out" = some left) :
    (kernel size argument out combine).cellsAfter cells last =
      Function.update cells target (some left) := by
  funext slot
  have hpreamble : (preamble [argument, out]).nameAt? slot = none := by
    unfold preamble
    split <;> rfl
  have hnames : (kernel size argument out combine).items.findSome? (Item.nameAt? slot) =
      [Item.array (some source) .read "arg" argument.type,
        .array (some target) .readWrite "out" out.type].findSome? (Item.nameAt? slot) := by
    simp only [kernel, Operand.item, hsource, htarget]
    rw [List.findSome?_cons, hpreamble]
    rfl
  rw [cellsAfter, hnames]
  by_cases hslot : slot = target
  · subst hslot
    rw [Function.update_self, ← hleft]
    simp [Item.nameAt?, hne]
  · rw [Function.update_of_ne hslot]
    by_cases hslot' : slot = source
    · subst hslot'
      rw [hcells, ← hxs]
      simp [Item.nameAt?]
    · simp [Item.nameAt?, Ne.symm hslot, Ne.symm hslot']

/-- Whatever the order of its lanes, a workgroup leaves the results of
the pass in front of the cells that were there. -/
theorem runLanes_kernel (hfaithful : machine.arithmetic.Faithful)
    (hcombines : Combines machine combine op) (hconversion : argument.conversion ≠ "arrayLength")
    (hconversion' : out.conversion ≠ "arrayLength") (hfits : Fits size n lanes)
    (hbound : Bound constants cells argument out n lanes xs stored) {target : Int}
    (htarget : out.slot = some target) (hapart : argument.slot ≠ out.slot) (hn : n ≤ xs.length)
    (hstored : lanes ≤ stored.length) (hrounds : n ≤ rounds) {order : List Invocation}
    (horder : order.Perm (Invocation.all size (1, 1))) :
    (kernel size argument out combine).runLanes machine rounds constants order cells =
      some (Function.update cells target
        (some (results machine op argument out n lanes xs ++ stored.drop lanes))) := by
  obtain ⟨source, hsource, hxs⟩ := hbound.argument
  obtain ⟨slot, hslot, hcell⟩ := hbound.out
  rw [htarget] at hslot
  cases hslot
  have hne : source ≠ target := by
    intro h
    exact hapart (by rw [hsource, htarget, h])
  have hcount : (results machine op argument out n lanes xs).length = lanes :=
    length_results hfits.le hn
  have hnumbers : (order.map (·.number size)).Perm (List.range size.toNat) := by
    have hall := Invocation.map_number_grid size (1, 1)
    rw [Int.toNat_one, Nat.one_mul] at hall
    rw [← hall]
    exact horder.map _
  have hstep : ∀ current : List (Datum α), current.length = stored.length →
      ∀ invocation ∈ order, ∃ last,
        (kernel size argument out combine).runLane machine rounds constants
            (Function.update cells target (some current)) invocation = some last ∧
          (kernel size argument out combine).cellsAfter
              (Function.update cells target (some current)) last =
            Function.update cells target (some (storeAt
              (results machine op argument out n lanes xs) current (invocation.number size))) := by
    intro current hcurrent invocation hmem
    have hnumber : invocation.number size < size.toNat :=
      List.mem_range.mp (hnumbers.mem_iff.mp (List.mem_map_of_mem hmem))
    have hargument : Function.update cells target (some current) source =
        some (xs.map .element) := by
      rw [Function.update_of_ne hne, hxs]
    have hbound' : Bound constants (Function.update cells target (some current)) argument out n
        lanes xs current :=
      ⟨hbound.bound, hbound.lanes, ⟨source, hsource, hargument⟩,
        ⟨target, htarget, Function.update_self _ _ _⟩⟩
    obtain ⟨last, hlast, harg, hleft⟩ := runLane_storeAt hfaithful hcombines hconversion
      hconversion' hfits hbound' hnumber hn (by omega) hrounds
    refine ⟨last, hlast, ?_⟩
    rw [cellsAfter_kernel hsource htarget hne hargument harg hleft, Function.update_idem]
  have hkept : ∀ (current : List (Datum α)) (invocation : Invocation),
      current.length = stored.length →
      (storeAt (results machine op argument out n lanes xs) current
        (invocation.number size)).length = stored.length := by
    intro current invocation hcurrent
    rw [length_storeAt, hcurrent]
  have hrun := runLanes_eq_foldl hkept hstep rfl
  rw [← hcell, Function.update_eq_self] at hrun
  rw [hrun, ← List.foldl_map, foldl_storeAt hnumbers (by rw [hcount]; exact hfits.grouped)
    (by rwa [hcount]), hcount]

end ComputeArray.Kernel.Fold
