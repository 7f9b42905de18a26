import ComputeArray.Kernel.Basic
import Mathlib.Algebra.Group.Nat.Defs
import Mathlib.Logic.Function.Basic

/-!
# Machines that run kernels

What one invocation of a kernel does to the arrays it is bound to. Words have 32 bits: on
`Arithmetic.wrapping` they wrap around as on a device, on `Arithmetic.checked` an operation fails
instead. Both are exact where nothing wraps (`Arithmetic.Faithful`). Elements are of any type, and
what operators and functions do to them is left to the machine. Only what elementwise and folding
kernels are made of is given a meaning.
-/

set_option autoImplicit false

namespace ComputeArray.Kernel

/-- The values of expressions. -/
inductive Datum (α : Type) where
  | word (n : Nat)
  | truth (b : Bool)
  | element (a : α)

/-- The number of words. -/
def wordCount : Nat := 2 ^ 32

def word? (n : Nat) : Option Nat := if n < wordCount then some n else none

theorem word?_eq_some {n : Nat} (h : n < wordCount) : word? n = some n := if_pos h

/-! ### Arithmetic of words -/

structure Arithmetic where
  add : Nat → Nat → Option Nat
  sub : Nat → Nat → Option Nat
  mul : Nat → Nat → Option Nat
  div : Nat → Nat → Option Nat
  rem : Nat → Nat → Option Nat

namespace Arithmetic

/-- Arithmetic that fails rather than wrap around or divide by zero. -/
def checked : Arithmetic where
  add a b := word? (a + b)
  sub a b := if b ≤ a then word? (a - b) else none
  mul a b := word? (a * b)
  div a b := if b = 0 then none else word? (a / b)
  rem a b := if b = 0 then none else word? (a % b)

/-- Arithmetic of devices, modulo the number of words. Dividing by zero leaves the dividend, with no
remainder. -/
def wrapping : Arithmetic where
  add a b := some ((a + b) % wordCount)
  sub a b := some ((a + wordCount - b) % wordCount)
  mul a b := some (a * b % wordCount)
  div a b := some (if b = 0 then a else a / b)
  rem a b := some (if b = 0 then 0 else a % b)

/-- The arithmetic is exact on words wherever the results are words. -/
structure Faithful (arithmetic : Arithmetic) : Prop where
  add : ∀ {a b : Nat}, a + b < wordCount → arithmetic.add a b = some (a + b)
  sub : ∀ {a b : Nat}, a < wordCount → b ≤ a → arithmetic.sub a b = some (a - b)
  mul : ∀ {a b : Nat}, a * b < wordCount → arithmetic.mul a b = some (a * b)
  div : ∀ {a b : Nat}, a < wordCount → 0 < b → arithmetic.div a b = some (a / b)
  rem : ∀ {a b : Nat}, a < wordCount → 0 < b → arithmetic.rem a b = some (a % b)

theorem faithful_checked : checked.Faithful where
  add h := word?_eq_some h
  sub ha hb := (if_pos hb).trans (word?_eq_some (Nat.lt_of_le_of_lt (Nat.sub_le _ _) ha))
  mul h := word?_eq_some h
  div ha hb := (if_neg (Nat.ne_of_gt hb)).trans
    (word?_eq_some (Nat.lt_of_le_of_lt (Nat.div_le_self _ _) ha))
  rem ha hb := (if_neg (Nat.ne_of_gt hb)).trans
    (word?_eq_some (Nat.lt_of_le_of_lt (Nat.mod_le _ _) ha))

theorem faithful_wrapping : wrapping.Faithful where
  add h := congrArg some (Nat.mod_eq_of_lt h)
  sub {a b} ha hb := by
    have hshift : a + wordCount - b = a - b + wordCount := by omega
    have hlt : a - b < wordCount := by omega
    simp only [wrapping, hshift, Nat.add_mod_right, Nat.mod_eq_of_lt hlt]
  mul h := congrArg some (Nat.mod_eq_of_lt h)
  div _ hb := congrArg some (if_neg (Nat.ne_of_gt hb))
  rem _ hb := congrArg some (if_neg (Nat.ne_of_gt hb))

/-- An operator between words. -/
def apply {α : Type} (arithmetic : Arithmetic) (symbol : String) (a b : Nat) : Option (Datum α) :=
  if symbol = "+" then (arithmetic.add a b).map .word
  else if symbol = "-" then (arithmetic.sub a b).map .word
  else if symbol = "*" then (arithmetic.mul a b).map .word
  else if symbol = "/" then (arithmetic.div a b).map .word
  else if symbol = "%" then (arithmetic.rem a b).map .word
  else if symbol = "<" then some (.truth (a < b))
  else if symbol = ">" then some (.truth (b < a))
  else if symbol = ">=" then some (.truth (b ≤ a))
  else none

end Arithmetic

/-- What a device does with words and with elements. -/
structure Machine (α : Type) where
  arithmetic : Arithmetic
  operator : String → α → α → α
  differs : α → α → Bool
  function : String → List (Datum α) → α

/-! ### States -/

/-- The variables and the arrays an invocation sees, and whether it is still running. -/
structure State (α : Type) where
  locals : String → Option (Datum α)
  arrays : String → Option (List (Datum α))
  active : Bool

namespace State

variable {α : Type}

def set (state : State α) (name : String) (value : Datum α) : State α :=
  { state with locals := Function.update state.locals name (some value) }

/-- Stores a value in a cell of an array, if there is such a cell. -/
def store (state : State α) (array : String) (i : Nat) (value : Datum α) : Option (State α) :=
  match state.arrays array with
  | some cells =>
    if i < cells.length then
      some { state with arrays := Function.update state.arrays array (some (cells.set i value)) }
    else none
  | none => none

/-- Leaves a block, in which some names had a meaning of their own. -/
def leave (inner outer : State α) (names : List String) : State α :=
  { inner with
    locals := fun name => if name ∈ names then outer.locals name else inner.locals name }

/-- The number of cells of the array pointed to. -/
def lengthOf (state : State α) : List Expression → Option (Datum α)
  | [.pointer array] => (state.arrays array).map fun cells => .word cells.length
  | _ => none

end State

namespace Machine

variable {α : Type}

/-- An operator between two values. -/
def combine (machine : Machine α) (symbol : String) : Datum α → Datum α → Option (Datum α)
  | .word a, .word b => machine.arithmetic.apply symbol a b
  | .element a, .element b =>
    if symbol = "!=" then some (.truth (machine.differs a b))
    else some (.element (machine.operator symbol a b))
  | _, _ => none

/-- The value in a cell. -/
def cell (state : State α) (array : String) : Datum α → Option (Datum α)
  | .word i =>
    match state.arrays array with
    | some cells => cells[i]?
    | none => none
  | _ => none

mutual

def eval (machine : Machine α) (state : State α) : Expression → Option (Datum α)
  | .name name => state.locals name
  | .word n => if 0 ≤ n then (word? n.toNat).map .word else none
  | .hexWord _ n => (word? n).map .word
  | .literal text => if text = "0" then some (.word 0) else none
  | .binary symbol left right => do
    let a ← eval machine state left
    let b ← eval machine state right
    machine.combine symbol a b
  | .group inner => eval machine state inner
  | .call function arguments =>
    if function = "arrayLength" then state.lengthOf arguments
    else (evalAll machine state arguments).map fun values =>
      .element (machine.function function values)
  | .index array position => do
    let i ← eval machine state position
    cell state array i
  | .member (.name whole) field => state.locals (whole ++ "." ++ field)
  | .member _ _ => none
  | .pointer _ => none

def evalAll (machine : Machine α) (state : State α) : List Expression → Option (List (Datum α))
  | [] => some []
  | first :: rest => do
    let value ← eval machine state first
    let values ← evalAll machine state rest
    some (value :: values)

end

/-- Whether a condition holds. -/
def holds (machine : Machine α) (state : State α) (condition : Expression) : Option Bool :=
  match machine.eval state condition with
  | some (.truth b) => some b
  | _ => none

def assign (machine : Machine α) (state : State α) (target : Expression) (value : Datum α) :
    Option (State α) :=
  match target with
  | .name name => if (state.locals name).isSome then some (state.set name value) else none
  | .index array position =>
    match machine.eval state position with
    | some (.word i) => state.store array i value
    | _ => none
  | _ => none

/-- Repeats a body while a condition holds, for less than `rounds` rounds. -/
def iterate (condition : State α → Option Bool) (body : State α → Option (State α)) :
    Nat → State α → Option (State α)
  | 0, _ => none
  | rounds + 1, state => do
    if ← condition state then iterate condition body rounds (← body state) else some state

/-- The names a block gives a meaning of their own. -/
def declared (body : List Statement) : List String :=
  body.filterMap fun
    | .define name _ _ => some name
    | .declare name _ _ => some name
    | _ => none

mutual

def run (machine : Machine α) (rounds : Nat) : Statement → State α → Option (State α)
  | .blank, state => some state
  | .define name _ value, state => (machine.eval state value).map (state.set name)
  | .declare name _ value, state => (machine.eval state value).map (state.set name)
  | .assign target value, state => do machine.assign state target (← machine.eval state value)
  | .update symbol target value, state => do
    machine.assign state target (← machine.eval state (.binary symbol target value))
  | .discard value, state => (machine.eval state value).map fun _ => state
  | .stop condition, state =>
    (machine.holds state condition).map fun ends =>
      if ends then { state with active := false } else state
  | .branch condition body, state => do
    if ← machine.holds state condition then
      (runAll machine rounds body state).map (·.leave state (declared body))
    else some state
  | .loop counter first condition next body, state => do
    let start ← machine.eval state first
    let last ← iterate (fun state => machine.holds state condition)
      (fun state => do
        let inner ← runAll machine rounds body state
        let inner := inner.leave state (declared body)
        (machine.eval inner next).map (inner.set counter))
      rounds (state.set counter start)
    some (last.leave state [counter])
  | .run _, _ => none
  | .result _, _ => none

def runAll (machine : Machine α) (rounds : Nat) : List Statement → State α → Option (State α)
  | [], state => some state
  | first :: rest, state => do
    let next ← run machine rounds first state
    if next.active then runAll machine rounds rest next else some next

end

end Machine

/-! ### Invocations -/

/-- The number of an invocation in both dimensions, and the number of workgroups in a row. -/
structure Invocation where
  x : Nat
  y : Nat
  groups : Nat

/-- The cells of the array an item declares under a name. -/
def Item.cells? {α : Type} (cells : Int → Option (List (Datum α))) (name : String) :
    Item → Option (List (Datum α))
  | .array (some slot) _ declared _ => if declared = name then cells slot else none
  | _ => none

/-- The body of the entry point for workgroups. -/
def Item.lanes? : Item → Option (List Statement)
  | .lanes _ body => some body
  | _ => none

end ComputeArray.Kernel

namespace ComputeArray.Kernel

variable {α : Type}

/-- The state in which an invocation starts, with the given override constants and with cells bound
to the slots. -/
def start (kernel : Kernel) (constants : String → Option (Datum α))
    (cells : Int → Option (List (Datum α))) (invocation : Invocation) : State α where
  locals name :=
    if name = "id.x" then some (.word invocation.x)
    else if name = "id.y" then some (.word invocation.y)
    else if name = "groups.x" then some (.word invocation.groups)
    else constants name
  arrays name := kernel.items.findSome? (Item.cells? cells name)
  active := true

/-- The state an invocation leaves behind. -/
def runLane (kernel : Kernel) (machine : Machine α) (rounds : Nat)
    (constants : String → Option (Datum α)) (cells : Int → Option (List (Datum α)))
    (invocation : Invocation) : Option (State α) :=
  match kernel.items.findSome? Item.lanes? with
  | some body => machine.runAll rounds body (kernel.start constants cells invocation)
  | none => none

end ComputeArray.Kernel
