import ComputeArray.Proofs.Kernel.Machine

/-!
# Stepping through kernels

What single expressions and statements come to, and how statements follow each other.
-/

set_option autoImplicit false

namespace ComputeArray.Kernel

variable {α : Type}

namespace State

variable {state inner outer : State α} {name other : String} {value : Datum α}

@[simp] theorem locals_set_self : (state.set name value).locals name = some value :=
  Function.update_self _ _ _

@[simp] theorem locals_set_of_ne (h : other ≠ name) :
    (state.set name value).locals other = state.locals other :=
  Function.update_of_ne h _ _

@[simp] theorem arrays_set : (state.set name value).arrays = state.arrays := rfl

@[simp] theorem active_set : (state.set name value).active = state.active := rfl

@[simp] theorem arrays_leave (names : List String) :
    (inner.leave outer names).arrays = inner.arrays :=
  rfl

@[simp] theorem active_leave (names : List String) :
    (inner.leave outer names).active = inner.active :=
  rfl

theorem locals_leave_of_mem {names : List String} (h : name ∈ names) :
    (inner.leave outer names).locals name = outer.locals name :=
  if_pos h

theorem locals_leave_of_not_mem {names : List String} (h : name ∉ names) :
    (inner.leave outer names).locals name = inner.locals name :=
  if_neg h

theorem store_eq {array : String} {cells : List (Datum α)} {i : Nat}
    (harray : state.arrays array = some cells) (hi : i < cells.length) (value : Datum α) :
    state.store array i value =
      some { state with
        arrays := Function.update state.arrays array (some (cells.set i value)) } := by
  rw [store, harray]
  exact if_pos hi

end State

/-! ### Arithmetic -/

namespace Arithmetic.Faithful

variable {arithmetic : Arithmetic} {a b : Nat}

theorem apply_add (h : arithmetic.Faithful) (hlt : a + b < wordCount) :
    arithmetic.apply "+" a b = some (.word (a + b) : Datum α) := by
  simp [apply, h.add hlt]

theorem apply_sub (h : arithmetic.Faithful) (hlt : a < wordCount) (hle : b ≤ a) :
    arithmetic.apply "-" a b = some (.word (a - b) : Datum α) := by
  simp [apply, h.sub hlt hle]

theorem apply_mul (h : arithmetic.Faithful) (hlt : a * b < wordCount) :
    arithmetic.apply "*" a b = some (.word (a * b) : Datum α) := by
  simp [apply, h.mul hlt]

theorem apply_div (h : arithmetic.Faithful) (hlt : a < wordCount) (hpos : 0 < b) :
    arithmetic.apply "/" a b = some (.word (a / b) : Datum α) := by
  simp [apply, h.div hlt hpos]

theorem apply_rem (h : arithmetic.Faithful) (hlt : a < wordCount) (hpos : 0 < b) :
    arithmetic.apply "%" a b = some (.word (a % b) : Datum α) := by
  simp [apply, h.rem hlt hpos]

end Arithmetic.Faithful

namespace Machine

variable {machine : Machine α} {state next : State α} {rounds : Nat}

/-! ### Expressions -/

theorem eval_name (name : String) : machine.eval state (.name name) = state.locals name :=
  rfl

theorem eval_word {n : Int} (hpos : 0 ≤ n) (hlt : n.toNat < wordCount) :
    machine.eval state (.word n) = some (.word n.toNat) := by
  change (if 0 ≤ n then (word? n.toNat).map Datum.word else none) = _
  rw [if_pos hpos, word?_eq_some hlt]
  rfl

theorem eval_group (inner : Expression) :
    machine.eval state (.group inner) = machine.eval state inner :=
  rfl

theorem eval_binary_words {symbol : String} {left right : Expression} {a b : Nat}
    (hleft : machine.eval state left = some (.word a))
    (hright : machine.eval state right = some (.word b)) :
    machine.eval state (.binary symbol left right) = machine.arithmetic.apply symbol a b := by
  change ((machine.eval state left).bind fun a ↦
    (machine.eval state right).bind fun b ↦ machine.combine symbol a b) = _
  rw [hleft, hright]
  rfl

theorem eval_index {array : String} {position : Expression} {cells : List (Datum α)} {i : Nat}
    (harray : state.arrays array = some cells)
    (hposition : machine.eval state position = some (.word i)) :
    machine.eval state (.index array position) = cells[i]? := by
  change (machine.eval state position).bind (cell state array) = _
  rw [hposition, Option.bind_some, cell, harray]

theorem eval_arrayLength {array : String} {cells : List (Datum α)}
    (harray : state.arrays array = some cells) :
    machine.eval state (.arrayLength array) = some (.word cells.length) := by
  change state.lengthOf [.pointer array] = _
  rw [State.lengthOf, harray]
  rfl

/-- The value of a call is what the machine makes of the values of its arguments. -/
theorem eval_call {function : String} {arguments : List Expression} {values : List (Datum α)}
    (hfunction : function ≠ "arrayLength")
    (harguments : machine.evalAll state arguments = some values) :
    machine.eval state (.call function arguments) =
      some (.element (machine.function function values)) := by
  refine (if_neg hfunction).trans ?_
  rw [harguments]
  rfl

theorem holds_of_eval {condition : Expression} {b : Bool}
    (h : machine.eval state condition = some (.truth b)) :
    machine.holds state condition = some b := by
  rw [holds, h]

/-! ### Statements -/

theorem run_define {name : String} {type : Option String} {value : Expression} {result : Datum α}
    (h : machine.eval state value = some result) :
    machine.run rounds (.define name type value) state = some (state.set name result) :=
  congrArg (Option.map (state.set name)) h

theorem run_declare {name : String} {type : Option String} {value : Expression} {result : Datum α}
    (h : machine.eval state value = some result) :
    machine.run rounds (.declare name type value) state = some (state.set name result) :=
  congrArg (Option.map (state.set name)) h

theorem run_assign_name {name : String} {value : Expression} {result : Datum α}
    (hname : (state.locals name).isSome) (h : machine.eval state value = some result) :
    machine.run rounds (.assign (.name name) value) state = some (state.set name result) := by
  change (machine.eval state value).bind (machine.assign state (.name name)) = _
  rw [h]
  exact if_pos hname

theorem run_update_name {symbol name : String} {value : Expression} {result : Datum α}
    (hname : (state.locals name).isSome)
    (h : machine.eval state (.binary symbol (.name name) value) = some result) :
    machine.run rounds (.update symbol (.name name) value) state =
      some (state.set name result) := by
  change (machine.eval state (.binary symbol (.name name) value)).bind
    (machine.assign state (.name name)) = _
  rw [h]
  exact if_pos hname

/-- An invocation goes on if the condition for stopping does not hold. -/
theorem run_stop_of_not {condition : Expression}
    (h : machine.eval state condition = some (.truth false)) :
    machine.run rounds (.stop condition) state = some state :=
  congrArg (Option.map _) (holds_of_eval h)

/-- An invocation ends where the condition for stopping holds. -/
theorem run_stop_of_holds {condition : Expression}
    (h : machine.eval state condition = some (.truth true)) :
    machine.run rounds (.stop condition) state = some { state with active := false } :=
  congrArg (Option.map _) (holds_of_eval h)

theorem run_assign_index {array : String} {position value : Expression} {cells : List (Datum α)}
    {i : Nat} {result : Datum α} (harray : state.arrays array = some cells) (hi : i < cells.length)
    (hposition : machine.eval state position = some (.word i))
    (h : machine.eval state value = some result) :
    machine.run rounds (.assign (.index array position) value) state =
      some { state with
        arrays := Function.update state.arrays array (some (cells.set i result)) } := by
  change (machine.eval state value).bind (machine.assign state (.index array position)) = _
  rw [h, Option.bind_some, assign, hposition]
  exact State.store_eq harray hi result

/-! ### Sequences -/

theorem runAll_nil : machine.runAll rounds [] state = some state := rfl

theorem runAll_cons_eq (first : Statement) (rest : List Statement) :
    machine.runAll rounds (first :: rest) state = (machine.run rounds first state).bind fun next ↦
      if next.active then machine.runAll rounds rest next else some next :=
  rfl

theorem runAll_cons {first : Statement} {rest : List Statement}
    (h : machine.run rounds first state = some next) (hactive : next.active = true) :
    machine.runAll rounds (first :: rest) state = machine.runAll rounds rest next := by
  rw [runAll_cons_eq, h]
  exact if_pos hactive

theorem runAll_cons_of_ended {first : Statement} {rest : List Statement}
    (h : machine.run rounds first state = some next) (hended : next.active = false) :
    machine.runAll rounds (first :: rest) state = some next := by
  rw [runAll_cons_eq, h, Option.bind_some, hended]
  rfl

theorem runAll_append {before after : List Statement}
    (h : machine.runAll rounds before state = some next) (hactive : next.active = true) :
    machine.runAll rounds (before ++ after) state = machine.runAll rounds after next := by
  induction before generalizing state with
  | nil =>
    rw [runAll_nil] at h
    cases h
    rfl
  | cons first rest ih =>
    rw [runAll_cons_eq] at h
    obtain ⟨middle, hfirst, hrest⟩ := Option.bind_eq_some_iff.mp h
    by_cases hmiddle : middle.active = true
    · rw [if_pos hmiddle] at hrest
      rw [List.cons_append, runAll_cons hfirst hmiddle, ih hrest]
    · rw [if_neg hmiddle] at hrest
      cases hrest
      exact absurd hactive hmiddle

/-! ### Loops -/

theorem iterate_of_not {condition : State α → Option Bool} {body : State α → Option (State α)}
    (h : condition state = some false) (hrounds : 0 < rounds) :
    iterate condition body rounds state = some state := by
  obtain ⟨rounds, rfl⟩ := Nat.exists_eq_succ_of_ne_zero (Nat.ne_of_gt hrounds)
  rw [iterate, h]
  rfl

theorem iterate_of_holds {condition : State α → Option Bool} {body : State α → Option (State α)}
    (h : condition state = some true) (hbody : body state = some next) :
    iterate condition body (rounds + 1) state = iterate condition body rounds next := by
  rw [iterate, h]
  change (body state).bind _ = _
  rw [hbody]
  rfl

end Machine

end ComputeArray.Kernel
