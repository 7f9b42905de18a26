import ComputeArray.Kernel.Basic
import ComputeArray.Random.Seed
import Mathlib.Algebra.Group.Nat.Defs
import Mathlib.Algebra.Ring.Int.Defs

/-!
# Processors of words

What one invocation of a kernel of words does to the memory it is bound to. Words have 32 bits and
wrap around; vectors have four words. Floats are taken as they are made from words, and what they
are in bits is left to the device. Functions of the kernel are called with their arguments by value
and may change the memory. An index beyond the end of an array or a name without a meaning has no
result.
-/

set_option autoImplicit false

namespace ComputeArray.Kernel

/-- A float by the way it is made. -/
inductive Numeral where
  /-- Bits found in a cell. -/
  | held (bits : Nat)
  | literal (text : String)
  /-- A word taken for floats. -/
  | cast (function : String) (x : UInt32)
  | part (field : String) (whole : Numeral)
  | applied (function : String) (x : Numeral)
  | joined (symbol : String) (a b : Numeral)

/-- What a variable or a cell holds. -/
inductive Register where
  | word (x : UInt32)
  | vector (v : Random.StreamState)
  | truth (b : Bool)
  | numeral (x : Numeral)

/-- The cells of the arrays by name. -/
abbrev Memory := String → Option (List Register)

/-- The variables of a function on its way, and the memory it works on. -/
structure Frame where
  locals : String → Option Register
  memory : Memory
  result : Option Register
  /-- Whether the function has come to its end. -/
  ended : Bool

/-- What calling a function with some arguments gives, if anything, and the memory it leaves. -/
abbrev Calling := String → List Register → Memory → Option (Option Register × Memory)

namespace Register

/-- An operator between two registers. -/
def combine (symbol : String) : Register → Register → Option Register
  | .word a, .word b =>
    if symbol = "+" then some (.word (a + b))
    else if symbol = "-" then some (.word (a - b))
    else if symbol = "*" then some (.word (a * b))
    else if symbol = "^" then some (.word (a ^^^ b))
    else if symbol = "|" then some (.word (a ||| b))
    else if symbol = "&" then some (.word (a &&& b))
    else if symbol = "<<" then some (.word (a <<< b))
    else if symbol = ">>" then some (.word (a >>> b))
    else if symbol = "<" then some (.truth (a < b))
    else if symbol = ">=" then some (.truth (b ≤ a))
    else if symbol = "!=" then some (.truth (a != b))
    else none
  | .vector a, .vector b => if symbol = "^" then some (.vector (a.xor b)) else none
  | .truth a, .truth b => if symbol = "||" then some (.truth (a || b)) else none
  | .numeral a, .numeral b =>
    if symbol = "-" ∨ symbol = "*" then some (.numeral (.joined symbol a b)) else none
  | _, _ => none

/-- A word of a vector by its name, or one of several floats. -/
def component (field : String) : Register → Option Register
  | .vector v =>
    if field = "x" then some (.word v.x)
    else if field = "y" then some (.word v.y)
    else if field = "z" then some (.word v.z)
    else if field = "w" then some (.word v.w)
    else none
  | .numeral x => some (.numeral (.part field x))
  | _ => none

/-- A vector with another word in one of its places. -/
def replace (field : String) : Register → Register → Option Register
  | .vector v, .word n =>
    if field = "x" then some (.vector { v with x := n })
    else if field = "y" then some (.vector { v with y := n })
    else if field = "z" then some (.vector { v with z := n })
    else if field = "w" then some (.vector { v with w := n })
    else none
  | _, _ => none

/-- The word at a place of a vector. -/
def atPlace (i : UInt32) : Register → Option Register
  | .vector v => (v.toList[i.toNat]?).map .word
  | _ => none

/-- Functions that take a word for floats. -/
def casts : List String := ["bitcast<f32>", "bitcast<vec2<f16>>"]

/-- Functions of floats. -/
def floatFunctions : List String := ["sqrt", "log", "cos", "sin", "f32", "f16"]

/-- Functions that every kernel may call. -/
def builtin (function : String) : List Register → Option Register
  | [.word x] => if function ∈ casts then some (.numeral (.cast function x)) else none
  | [.numeral x] =>
    if function ∈ floatFunctions then some (.numeral (.applied function x)) else none
  | [.word a, .word b] => if function = "min" then some (.word (min a b)) else none
  | [.word x, .word y, .word z, .word w] =>
    if function = "vec4<u32>" then some (.vector ⟨x, y, z, w⟩) else none
  | _ => none

end Register

/-- The word a number stands for, if it is one. -/
def wordOf? (n : Int) : Option Register :=
  if 0 ≤ n ∧ n < 2 ^ 32 then some (.word (UInt32.ofNat n.toNat)) else none

namespace Memory

/-- The number of cells of the array pointed to. -/
def lengthOf (memory : Memory) : List Expression → Option Register
  | [.pointer array] => (memory array).map fun cells ↦ .word (UInt32.ofNat cells.length)
  | _ => none

/-- Stores a register in a cell of an array, if there is such a cell. -/
def store (memory : Memory) (array : String) (i : UInt32) (value : Register) : Option Memory :=
  match memory array with
  | some cells =>
    if i.toNat < cells.length then
      some (Function.update memory array (some (cells.set i.toNat value)))
    else none
  | none => none

/-- The memory with another value in one cell of an array. -/
def put (memory : Memory) (array : String) (i : Nat) (value : Register) : Memory :=
  Function.update memory array ((memory array).map (·.set i value))

theorem store_eq_put {memory : Memory} {array : String} {cells : List Register} {i : UInt32}
    {value : Register} (hcells : memory array = some cells) (hi : i.toNat < cells.length) :
    memory.store array i value = some (memory.put array i.toNat value) := by
  rw [store, put, hcells]
  exact if_pos hi

theorem put_of_ne {array other : String} (memory : Memory) (i : Nat) (value : Register)
    (h : other ≠ array) : memory.put array i value other = memory other :=
  Function.update_of_ne h ..

theorem put_self {memory : Memory} {array : String} {cells : List Register} (i : Nat)
    (value : Register) (hcells : memory array = some cells) :
    memory.put array i value array = some (cells.set i value) := by
  simp [put, hcells]

/-- Of two values put into one cell the second stays. -/
theorem put_put (memory : Memory) (array : String) (i : Nat) (first second : Register) :
    (memory.put array i first).put array i second = memory.put array i second := by
  simp [put, Function.comp_def]

end Memory

namespace Frame

def set (frame : Frame) (name : String) (value : Register) : Frame :=
  { frame with locals := Function.update frame.locals name (some value) }

/-- The register at a place of a local vector or of an array. -/
def cell (frame : Frame) (name : String) : Register → Option Register
  | .word i =>
    match frame.locals name with
    | some register => register.atPlace i
    | none =>
      match frame.memory name with
      | some cells => cells[i.toNat]?
      | none => none
  | _ => none

/-- Leaves a block, in which some names had a meaning of their own. -/
def leave (inner outer : Frame) (names : List String) : Frame :=
  { inner with
    locals := fun name ↦ if name ∈ names then outer.locals name else inner.locals name }

mutual

/-- The value of an expression, with the memory its calls leave. -/
def eval (calling : Calling) : Expression → Frame → Option (Register × Frame)
  | .name name, frame => (frame.locals name).map (·, frame)
  | .word n, frame => (wordOf? n).map (·, frame)
  | .hexWord _ n, frame => (wordOf? n).map (·, frame)
  | .literal text, frame => some (if text = "0" then .word 0 else .numeral (.literal text), frame)
  | .binary symbol left right, frame => do
    let (a, frame) ← eval calling left frame
    let (b, frame) ← eval calling right frame
    (a.combine symbol b).map (·, frame)
  | .group inner, frame => eval calling inner frame
  | .call function arguments, frame =>
    if function = "arrayLength" then (frame.memory.lengthOf arguments).map (·, frame)
    else do
      let (values, frame) ← evalAll calling arguments frame
      match Register.builtin function values with
      | some value => some (value, frame)
      | none =>
        let (value, memory) ← calling function values frame.memory
        value.map (·, { frame with memory })
  | .index array position, frame => do
    let (i, frame) ← eval calling position frame
    (frame.cell array i).map (·, frame)
  | .member whole field, frame => do
    let (value, frame) ← eval calling whole frame
    (value.component field).map (·, frame)
  | .pointer _, _ => none

def evalAll (calling : Calling) : List Expression → Frame → Option (List Register × Frame)
  | [], frame => some ([], frame)
  | first :: rest, frame => do
    let (value, frame) ← eval calling first frame
    let (values, frame) ← evalAll calling rest frame
    some (value :: values, frame)

end

/-- Whether a condition holds. -/
def holds (calling : Calling) (condition : Expression) (frame : Frame) : Option (Bool × Frame) :=
  match eval calling condition frame with
  | some (.truth b, frame) => some (b, frame)
  | _ => none

def assign (calling : Calling) (target : Expression) (value : Register) (frame : Frame) :
    Option Frame :=
  match target with
  | .name name => if (frame.locals name).isSome then some (frame.set name value) else none
  | .member (.name name) field => do
    let whole ← (← frame.locals name).replace field value
    some (frame.set name whole)
  | .index array position =>
    match eval calling position frame with
    | some (.word i, frame) =>
      (frame.memory.store array i value).map fun memory ↦ { frame with memory }
    | _ => none
  | _ => none

/-- Repeats a body while a condition holds, for less than `rounds` rounds. -/
def iterate (condition : Frame → Option (Bool × Frame)) (body : Frame → Option Frame) :
    Nat → Frame → Option Frame
  | 0, _ => none
  | rounds + 1, frame => do
    let (goes, frame) ← condition frame
    if goes then iterate condition body rounds (← body frame) else some frame

/-- The names a block gives a meaning of their own. -/
def declared (body : List Statement) : List String :=
  body.filterMap fun
    | .define name _ _ => some name
    | .declare name _ _ => some name
    | _ => none

mutual

def run (calling : Calling) (rounds : Nat) : Statement → Frame → Option Frame
  | .blank, frame => some frame
  | .define name _ value, frame => do
    let (value, frame) ← eval calling value frame
    some (frame.set name value)
  | .declare name _ value, frame => do
    let (value, frame) ← eval calling value frame
    some (frame.set name value)
  | .assign target value, frame => do
    let (value, frame) ← eval calling value frame
    assign calling target value frame
  | .update symbol target value, frame => do
    let (value, frame) ← eval calling (.binary symbol target value) frame
    assign calling target value frame
  | .discard value, frame => do
    let (_, frame) ← eval calling value frame
    some frame
  | .stop condition, frame => do
    let (ends, frame) ← holds calling condition frame
    some { frame with ended := ends }
  | .branch condition body, frame => do
    let (goes, frame) ← holds calling condition frame
    if goes then
      (runAll calling rounds body frame).map (·.leave frame (declared body))
    else some frame
  | .loop counter first condition next body, frame => do
    let (start, frame) ← eval calling first frame
    let last ← iterate (holds calling condition)
      (fun frame ↦ do
        let inner ← runAll calling rounds body frame
        if inner.ended then none else
        let (value, inner) ← eval calling next (inner.leave frame (declared body))
        some (inner.set counter value))
      rounds (frame.set counter start)
    some (last.leave frame [counter])
  | .run (.call function arguments), frame => do
    let (values, frame) ← evalAll calling arguments frame
    let (_, memory) ← calling function values frame.memory
    some { frame with memory }
  | .run _, _ => none
  | .result value, frame => do
    let (value, frame) ← eval calling value frame
    some { frame with result := some value, ended := true }

def runAll (calling : Calling) (rounds : Nat) : List Statement → Frame → Option Frame
  | [], frame => some frame
  | first :: rest, frame => do
    let next ← run calling rounds first frame
    if next.ended then some next else runAll calling rounds rest next

end

/-- The frame in which a body starts. -/
def start (parameters : List (String × String)) (arguments : List Register) (memory : Memory) :
    Frame where
  locals name := ((parameters.map Prod.fst).zip arguments).lookup name
  memory := memory
  result := none
  ended := false

end Frame

/-! ### Sequences and counting loops -/

namespace Frame

variable {calling : Calling} {rounds : Nat} {frame : Frame}

theorem set_locals_self (frame : Frame) (name : String) (value : Register) :
    (frame.set name value).locals name = some value :=
  Function.update_self ..

theorem set_locals_of_ne {name other : String} (frame : Frame) (value : Register)
    (h : other ≠ name) : (frame.set name value).locals other = frame.locals other :=
  Function.update_of_ne h ..

theorem leave_nil (inner outer : Frame) : inner.leave outer [] = inner := by
  simp [leave]

theorem leave_locals_of_not_mem {name : String} {names : List String} (inner outer : Frame)
    (h : name ∉ names) : (inner.leave outer names).locals name = inner.locals name := by
  simp [leave, h]

theorem eval_floatFunction {function : String} {argument : Expression} {x : Numeral} {next : Frame}
    (hfunction : function ∈ Register.floatFunctions)
    (hargument : eval calling argument frame = some (.numeral x, next)) :
    eval calling (.call function [argument]) frame =
      some (.numeral (.applied function x), next) := by
  have hlength : function ≠ "arrayLength" := by
    rintro rfl
    exact absurd hfunction (by decide)
  rw [eval, if_neg hlength]
  simp [evalAll, hargument, Register.builtin, hfunction]

theorem run_blank : run calling rounds .blank frame = some frame := by
  rw [run]

theorem runAll_cons {statement : Statement} {rest : List Statement} {next : Frame}
    (hrun : run calling rounds statement frame = some next) (hactive : next.ended = false) :
    runAll calling rounds (statement :: rest) frame = runAll calling rounds rest next := by
  simp [runAll, hrun, hactive]

theorem runAll_singleton {statement : Statement} {next : Frame}
    (hrun : run calling rounds statement frame = some next) (hactive : next.ended = false) :
    runAll calling rounds [statement] frame = some next := by
  rw [runAll_cons hrun hactive, runAll]

theorem runAll_append (first rest : List Statement) (hactive : frame.ended = false) :
    runAll calling rounds (first ++ rest) frame =
      (runAll calling rounds first frame).bind fun next ↦
        if next.ended then some next else runAll calling rounds rest next := by
  induction first generalizing frame with
  | nil => simp [runAll, hactive]
  | cons statement first ih =>
    simp only [List.cons_append, runAll]
    cases hrun : run calling rounds statement frame with
    | none => rfl
    | some next =>
      by_cases hended : next.ended = true
      · simp [hended]
      · simp [hended, ih (by simpa using hended)]

/-- A loop that keeps an invariant of its counter stops at the limit of the counter. -/
theorem iterate_count (condition : Frame → Option (Bool × Frame)) (body : Frame → Option Frame)
    (invariant : Nat → Frame → Prop) (limit : Nat)
    (hgoes : ∀ k frame, k < limit → invariant k frame →
      condition frame = some (true, frame) ∧
        ∃ next, body frame = some next ∧ invariant (k + 1) next)
    (hstops : ∀ frame, invariant limit frame → condition frame = some (false, frame)) :
    ∀ rounds k frame, limit - k < rounds → k ≤ limit → invariant k frame →
      ∃ last, iterate condition body rounds frame = some last ∧ invariant limit last
  | 0, _, _, hrounds, _, _ => absurd hrounds (Nat.not_lt_zero _)
  | rounds + 1, k, frame, hrounds, hk, hframe => by
    obtain hlast | hmore := Nat.eq_or_lt_of_le hk
    · subst hlast
      exact ⟨frame, by simp [iterate, hstops frame hframe], hframe⟩
    · obtain ⟨hcondition, next, hbody, hnext⟩ := hgoes k frame hmore hframe
      obtain ⟨last, hlast, hinvariant⟩ :=
        iterate_count condition body invariant limit hgoes hstops rounds (k + 1) next (by omega)
          hmore hnext
      exact ⟨last, by simp [iterate, hcondition, hbody, hlast], hinvariant⟩

/-- A statement that counts a word up from one number to another and declares nothing in its body
keeps an invariant that has nothing to do with the counter. -/
theorem run_count (calling : Calling) (counter : String) (first limit : Expression)
    (body : List Statement) (start stop : Nat) (invariant : Nat → Frame → Prop)
    (hstart : start ≤ stop)
    (hstop : stop < 2 ^ 32) (hrounds : stop - start < rounds) (hdeclared : declared body = [])
    (hfirst : eval calling first frame = some (.word (.ofNat start), frame))
    (hlimit : ∀ k frame, invariant k frame →
      eval calling limit frame = some (.word (.ofNat stop), frame))
    (hset : ∀ k frame value, invariant k frame → invariant k (frame.set counter value))
    (hstep : ∀ k frame, start ≤ k → k < stop → frame.locals counter = some (.word (.ofNat k)) →
      invariant k frame →
      ∃ next, runAll calling rounds body frame = some next ∧ next.ended = false ∧
        next.locals counter = some (.word (.ofNat k)) ∧ invariant (k + 1) next)
    (h : invariant start frame) :
    ∃ last, run calling rounds
        (.loop counter first (.binary "<" (.name counter) limit)
          (.binary "+" (.name counter) (.word 1)) body) frame =
          some (last.leave frame [counter]) ∧ invariant stop last := by
  have hcompare {k : Nat} {frame : Frame} (hk : k ≤ stop)
      (hcounter : frame.locals counter = some (.word (.ofNat k))) (hframe : invariant k frame) :
      holds calling (.binary "<" (.name counter) limit) frame =
        some (decide (k < stop), frame) := by
    have hlt : (UInt32.ofNat k < UInt32.ofNat stop) ↔ k < stop := by
      rw [UInt32.lt_iff_toNat_lt, UInt32.toNat_ofNat_of_lt' (by omega : k < 2 ^ 32),
        UInt32.toNat_ofNat_of_lt' hstop]
    simp [holds, eval, hcounter, hlimit k frame hframe, Register.combine, hlt]
  obtain ⟨last, hlast, hinvariant, -, -⟩ := iterate_count
    (holds calling (.binary "<" (.name counter) limit))
    (fun frame ↦ do
      let inner ← runAll calling rounds body frame
      if inner.ended then none else
      let (value, inner) ← eval calling (.binary "+" (.name counter) (.word 1))
        (inner.leave frame (declared body))
      some (inner.set counter value))
    (fun k frame ↦ invariant k frame ∧ start ≤ k ∧
      frame.locals counter = some (.word (.ofNat k)))
    stop
    (fun k frame hk ⟨hframe, hle, hcounter⟩ ↦ by
      refine ⟨by simpa [hk] using hcompare (Nat.le_of_lt hk) hcounter hframe, ?_⟩
      obtain ⟨next, hbody, hactive, hcounter, hnext⟩ := hstep k frame hle hk hcounter hframe
      refine ⟨next.set counter (.word (.ofNat (k + 1))), ?_, hset _ _ _ hnext, by omega,
        set_locals_self ..⟩
      simp [hbody, hactive, hdeclared, leave_nil, eval, hcounter, wordOf?, Register.combine,
        UInt32.ofNat_add])
    (fun frame ⟨hframe, _, hcounter⟩ ↦ by simpa using hcompare (Nat.le_refl _) hcounter hframe)
    rounds start (frame.set counter (.word (.ofNat start))) hrounds hstart
    ⟨hset _ _ _ h, (Nat.le_refl _), set_locals_self ..⟩
  refine ⟨last, ?_, hinvariant⟩
  rw [run, hfirst]
  exact congrArg (·.bind fun last ↦ some (last.leave frame [counter])) hlast

end Frame

/-- Calls of functions that call each other less than `depth` levels deep. -/
def callAt (functions : List Function) (rounds : Nat) : Nat → Calling
  | 0, _, _, _ => none
  | depth + 1, name, arguments, memory => do
    let function ← functions.find? (·.name = name)
    let last ← Frame.runAll (callAt functions rounds depth) rounds function.body
      (.start function.parameters arguments memory)
    some (last.result, last.memory)

def Item.function? : Item → Option Function
  | .function definition => some definition
  | _ => none

/-- The body of the entry point for a single invocation. -/
def Item.single? : Item → Option (List Statement)
  | .single body => some body
  | _ => none

end ComputeArray.Kernel

namespace ComputeArray.Kernel

/-- The memory a single invocation of a kernel leaves. As no function calls itself, the number of
functions bounds the depth of calls. -/
def runSingle (kernel : Kernel) (rounds : Nat) (memory : Memory) : Option Memory := do
  let body ← kernel.items.findSome? Item.single?
  let functions := kernel.items.filterMap Item.function?
  let last ← Frame.runAll (callAt functions rounds functions.length) rounds body
    (.start [] [] memory)
  some last.memory

end ComputeArray.Kernel
