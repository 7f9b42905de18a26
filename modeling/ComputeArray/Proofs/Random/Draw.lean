import ComputeArray.Engine.Generator
import ComputeArray.Proofs.Kernel.Workgroups
import ComputeArray.Proofs.Lookup
import ComputeArray.Proofs.Random.Advance
import Mathlib.Logic.Function.Iterate

/-!
# Draws on a device

What the passes of a generator do to the streams in memory. Each lane owns one stream: it advances
the stream by one step, or by two for a pair of normal samples, and stores what it makes of their
words at its own number. Lanes beyond the streams do nothing, also where an output is padded. So a
grid that has a lane for every stream advances each of them as often as any other, in whatever order
its invocations run (`invokeAll_pass`).
-/

set_option autoImplicit false

namespace ComputeArray

open Kernel ComputeArray.Random

namespace Kernel.Stream

open Kernel.Frame

variable {calling : Calling} {rounds depth : Nat} {memory : Memory} {cells : List Register}
  {frame : Frame} {i x : UInt32} {s : StreamState}

/-! ### Floats made of words -/

/-- The float in the unit interval made of a word. -/
def unit (x : UInt32) : Numeral :=
  .joined "-" (.cast "bitcast<f32>" ((x >>> 9) ||| 0x3f800000)) (.literal "1.0")

/-- The half precision float in the unit interval made of a word. -/
def halfUnit (x : UInt32) : Numeral :=
  .joined "-" (.part "x" (.cast "bitcast<vec2<f16>>" ((x >>> 22) ||| 0x3c00))) (.literal "1.0h")

/-- What a lane stores of a word. -/
def uniformCell (element : ElementType) (x : UInt32) : Register :=
  match element with
  | .f16 => .numeral (halfUnit x)
  | .f32 => .numeral (.applied "f32" (unit x))
  | _ => .word x

def radius (x : UInt32) : Numeral :=
  .applied "sqrt" (.joined "*" (.literal "-2.0")
    (.applied "log" (.joined "-" (.literal "1.0") (unit x))))

def angle (y : UInt32) : Numeral := .joined "*" (.literal "6.283185307179586") (unit y)

/-- The normal sample a lane stores of two words, the one of two that `turn` picks. -/
def normalCell (element : ElementType) (turn : String) (x y : UInt32) : Register :=
  .numeral (.applied element.name (.joined "*" (radius x) (.applied turn (angle y))))

theorem call_toFloat (more : List Function) :
    callAt (streamFunctions ++ more) rounds (depth + 1) "to_float" [.word x] memory =
      some (some (.numeral (unit x)), memory) :=
  rfl

theorem call_toHalf :
    callAt (streamFunctions ++ [toHalfFunction]) rounds (depth + 1) "to_half" [.word x] memory =
      some (some (.numeral (halfUnit x)), memory) :=
  rfl

/-- The float of the next word of the stream of a lane. -/
theorem eval_unit (more : List Function) (hlane : frame.locals "i" = some (.word i))
    (hcells : frame.memory "state" = some cells) (hs : cells[i.toNat]? = some (.vector s)) :
    eval (callAt (streamFunctions ++ more) rounds (depth + 2)) (.call "to_float" [advanced]) frame =
      some (.numeral (unit s.output),
        { frame with memory := frame.memory.put "state" i.toNat (.vector s.next) }) := by
  simp [eval, evalAll, eval_advanced more hlane hcells hs, Register.builtin, Register.casts,
    call_toFloat]

/-- What a uniform draw computes for the stream of a lane. -/
def uniformValue (element : ElementType) : Expression :=
  if element.name = "u32" then advanced
  else if element.name = "f16" then .call "to_half" [advanced]
  else .call element.name [.call "to_float" [advanced]]

/-- The function a draw of half precision has besides those all kernels of streams have. -/
def halfFunctions (element : ElementType) : List Function :=
  if element.name = "f16" then [toHalfFunction] else []

theorem eval_uniformValue {element : ElementType} (helement : element ≠ .i32)
    (hlane : frame.locals "i" = some (.word i)) (hcells : frame.memory "state" = some cells)
    (hs : cells[i.toNat]? = some (.vector s)) :
    eval (callAt (streamFunctions ++ halfFunctions element) rounds (depth + 2))
        (uniformValue element) frame =
      some (uniformCell element s.output,
        { frame with memory := frame.memory.put "state" i.toNat (.vector s.next) }) := by
  cases element with
  | i32 => exact absurd rfl helement
  | u32 => exact eval_advanced _ hlane hcells hs
  | f16 =>
    have hword := @eval_advanced rounds depth cells frame i s [toHalfFunction] hlane hcells hs
    change eval (callAt (streamFunctions ++ [toHalfFunction]) rounds (depth + 2))
      (.call "to_half" [advanced]) frame = _
    simp [eval, evalAll, hword, Register.builtin, Register.casts, call_toHalf, uniformCell]
  | f32 =>
    have hfloat := @eval_unit rounds depth cells frame i s [] hlane hcells hs
    change eval (callAt (streamFunctions ++ []) rounds (depth + 2))
      (.call "f32" [.call "to_float" [advanced]]) frame = _
    rw [eval, evalAll, hfloat]
    simp [evalAll, Register.builtin, Register.floatFunctions, uniformCell]

end Kernel.Stream

/-! ### Passes -/

namespace Generator

/-- The passes over the streams of a generator. -/
inductive Pass where
  /-- One step, and what is made of its words if an element type is given. -/
  | uniform (element : Option ElementType)
  /-- Two steps, and the two normal samples made of their words. -/
  | pair (element : ElementType)
  deriving DecidableEq

namespace Pass

def kernel (width : Int) : Pass → Kernel
  | uniform element => Stream.draw width stateOperand (element.map (outOperand 1))
  | pair element =>
    Stream.normalPair width stateOperand (outOperand 1 element) (outOperand 2 element)

/-- The steps of each stream. -/
def steps : Pass → Nat
  | uniform _ => 1
  | pair _ => 2

/-- The arrays written besides the streams, with what a lane stores there for its stream. -/
def outputs : Pass → List (String × ElementType × (StreamState → Register))
  | uniform none => []
  | uniform (some element) => [("out", element, fun s ↦ Stream.uniformCell element s.output)]
  | pair element =>
    [("out0", element, fun s ↦ Stream.normalCell element "cos" s.output s.next.output),
      ("out1", element, fun s ↦ Stream.normalCell element "sin" s.output s.next.output)]

/-- Passes for element types there are draws of. -/
inductive Drawable : Pass → Prop
  | skip : Drawable (uniform none)
  | uniform {element : ElementType} (h : element ≠ .i32) : Drawable (uniform (some element))
  | pair {element : ElementType} (h : element.isFloat = true) : Drawable (pair element)

/-- What a lane stores, by array. -/
def values (pass : Pass) (s : StreamState) : List (String × Register) :=
  ("state", .vector (StreamState.next^[pass.steps] s)) ::
    pass.outputs.map fun output ↦ (output.1, output.2.2 s)

/-- The arrays of a pass as they lie in a memory, with a cell of each output for every stream. -/
structure Bound (pass : Pass) (n : Nat) (memory : Memory) : Prop where
  state : ∃ cells, memory "state" = some cells ∧ cells.length = n
  outputs : ∀ output ∈ pass.outputs, ∃ cells, memory output.1 = some cells ∧ n ≤ cells.length ∧
    cells.length < 2 ^ 32

/-- The functions of the kernel besides those all kernels of streams have. -/
def functions : Pass → List Function
  | uniform (some element) => Stream.halfFunctions element
  | _ => []

/-- The condition on which a lane has nothing to do. -/
def guard : Pass → Expression
  | uniform none => beyond "state"
  | uniform (some _) => .binary "||" (beyond "state") (beyond "out")
  | pair _ => .binary "||" (beyond "state") (beyond "out0")

/-- The normal sample computed by a function of the angle. -/
def sample (element : ElementType) (turn : String) : Expression :=
  .call element.name [.binary "*" (.name "r") (.call turn [.name "theta"])]

/-- What a lane does that has a stream. -/
def body : Pass → List Statement
  | uniform none => [.discard Stream.advanced]
  | uniform (some element) => [.assign (.index "out" lane) (Stream.uniformValue element)]
  | pair element =>
    [.define "u1" (some "f32") (.call "to_float" [Stream.advanced]),
      .define "u2" (some "f32") (.call "to_float" [Stream.advanced]),
      .define "r" (some "f32") (.call "sqrt" [.binary "*" (.literal "-2.0")
        (.call "log" [.binary "-" (.literal "1.0") (.name "u1")])]),
      .define "theta" (some "f32") (.binary "*" (.name "TAU") (.name "u2")),
      .blank,
      .assign (.index "out0" lane) (sample element "cos"),
      .assign (.index "out1" lane) (sample element "sin")]

variable {pass : Pass} {width : Int} {rounds : Nat} {memory : Memory} {cells : List Register}
  {invocation : Invocation} {s : StreamState}

theorem lanes?_kernel (width : Int) (hpass : pass.Drawable) :
    (pass.kernel width).items.findSome? Item.lanes? =
      some (laneNumber width :: .stop pass.guard :: .blank :: pass.body) := by
  cases hpass with
  | skip => rfl
  | @uniform element h => cases element <;> rfl
  | @pair element h => cases element <;> rfl

theorem function?_kernel (width : Int) (hpass : pass.Drawable) :
    (pass.kernel width).items.filterMap Item.function? =
      Stream.streamFunctions ++ pass.functions := by
  cases hpass with
  | skip => rfl
  | @uniform element h => cases element <;> rfl
  | @pair element h => cases element <;> rfl

/-! ### Lanes -/

open Kernel.Frame Stream

/-- The calls a lane makes. -/
def calling (pass : Pass) (rounds : Nat) : Calling :=
  callAt (streamFunctions ++ pass.functions) rounds (pass.functions.length + 1 + 2)

/-- The frame of a lane that knows its number. -/
def numbered (pass : Pass) (width : Int) (invocation : Invocation) (memory : Memory) : Frame :=
  ((pass.kernel width).entry invocation memory).set "i" (.word (invocation.wordNumber width))

theorem eval_guard (hbound : pass.Bound cells.length memory) (hcells : memory "state" = some cells)
    (hcount : cells.length < 2 ^ 32) :
    eval (pass.calling rounds) pass.guard (pass.numbered width invocation memory) =
      some (.truth (cells.length ≤ (invocation.wordNumber width).toNat),
        pass.numbered width invocation memory) := by
  have hlane : (pass.numbered width invocation memory).locals "i" =
      some (.word (invocation.wordNumber width)) := set_locals_self _ _ _
  have hstate := eval_beyond (pass.calling rounds) hlane hcells hcount
  -- an output has at least as many cells as there are streams
  have hshort {name : String} {outs : List Register} (houts : memory name = some outs)
      (hle : cells.length ≤ outs.length) (hwords : outs.length < 2 ^ 32) :
      eval (pass.calling rounds) (.binary "||" (beyond "state") (beyond name))
          (pass.numbered width invocation memory) =
        some (.truth (cells.length ≤ (invocation.wordNumber width).toNat),
          pass.numbered width invocation memory) := by
    have hout := eval_beyond (pass.calling rounds) hlane houts hwords
    have himplied : outs.length ≤ (invocation.wordNumber width).toNat →
        cells.length ≤ (invocation.wordNumber width).toNat := hle.trans
    simp [eval, hstate, hout, Register.combine, ← Bool.decide_or, or_iff_left_of_imp himplied]
  cases pass with
  | uniform written =>
    cases written with
    | none => exact hstate
    | some element =>
      obtain ⟨outs, houts, hle, hwords⟩ := hbound.outputs _ List.mem_cons_self
      exact hshort houts hle hwords
  | pair element =>
    obtain ⟨outs, houts, hle, hwords⟩ := hbound.outputs _ List.mem_cons_self
    exact hshort houts hle hwords

/-- A step stored in the streams, and a value stored in the output after it. -/
theorem run_store {calling : Calling} {frame : Frame} {name : String} {outs : List Register}
    {value : Expression} {cell : Register} {memory : Memory} {i : UInt32}
    (hlane : frame.locals "i" = some (.word i))
    (hvalue : eval calling value frame = some (cell, { frame with memory }))
    (houts : memory name = some outs) (hi : i.toNat < outs.length) :
    run calling rounds (.assign (.index name lane) value) frame =
      some { frame with memory := memory.put name i.toNat cell } := by
  have hposition : eval calling lane { frame with memory } =
      some (.word i, { frame with memory }) := eval_lane hlane
  simp [run, hvalue, assign, hposition, Memory.store_eq_put houts hi]

theorem runAll_uniform {element : ElementType} {outs : List Register} {frame : Frame} {i : UInt32}
    (helement : element ≠ .i32) (hactive : frame.ended = false)
    (hlane : frame.locals "i" = some (.word i)) (hcells : frame.memory "state" = some cells)
    (houts : frame.memory "out" = some outs) (hle : cells.length ≤ outs.length)
    (hs : cells[i.toNat]? = some (.vector s)) :
    (runAll ((uniform (some element)).calling rounds) rounds (uniform (some element)).body
        frame).map Frame.memory =
      some (frame.memory.putAll i.toNat ((uniform (some element)).values s)) := by
  have hi := Nat.lt_of_lt_of_le (List.getElem?_eq_some_iff.mp hs).1 hle
  have hvalue := @eval_uniformValue rounds ((halfFunctions element).length + 1) cells frame i s
    element helement hlane hcells hs
  have hstore := @run_store rounds _ frame "out" outs _ _ _ i hlane hvalue
    ((Memory.put_of_ne _ _ _ (by decide)).trans houts) hi
  exact congrArg (Option.map Frame.memory) (runAll_singleton hstore hactive)

/-- The words of two steps, and the floats made of them. -/
theorem runAll_samples {element : ElementType} {frame : Frame} {i : UInt32}
    (hactive : frame.ended = false) (hlane : frame.locals "i" = some (.word i))
    (hcells : frame.memory "state" = some cells) (hs : cells[i.toNat]? = some (.vector s))
    (hturn : frame.locals "TAU" = some (.numeral (.literal "6.283185307179586"))) :
    ∃ last, runAll ((pair element).calling rounds) rounds ((pair element).body.take 5) frame =
        some last ∧ last.ended = false ∧ last.locals "i" = some (.word i) ∧
      last.locals "r" = some (.numeral (radius s.output)) ∧
      last.locals "theta" = some (.numeral (angle s.next.output)) ∧
      last.memory = frame.memory.put "state" i.toNat (.vector s.next.next) := by
  have hi := (List.getElem?_eq_some_iff.mp hs).1
  let calling := (pair element).calling rounds
  let first : Frame := { frame with
    memory := frame.memory.put "state" i.toNat (.vector s.next) }.set "u1"
      (.numeral (unit s.output))
  let second : Frame := { first with
    memory := frame.memory.put "state" i.toNat (.vector s.next.next) }.set "u2"
      (.numeral (unit s.next.output))
  have hfirst : run calling rounds
      (.define "u1" (some "f32") (.call "to_float" [advanced])) frame = some first := by
    have hunit : eval calling _ frame = _ := @eval_unit rounds 1 cells frame i s [] hlane hcells hs
    rw [run, hunit]
    rfl
  have hsecond : run calling rounds
      (.define "u2" (some "f32") (.call "to_float" [advanced])) first = some second := by
    have hunit : eval calling _ first = _ := @eval_unit rounds 1
      (cells.set i.toNat (.vector s.next)) first i s.next [] hlane
      (Memory.put_self _ _ hcells) (by simp [hi])
    rw [run, hunit]
    change some (Frame.set { first with
      memory := (frame.memory.put "state" i.toNat (.vector s.next)).put "state" i.toNat
        (.vector s.next.next) } "u2" _) = _
    rw [Memory.put_put]
  let third := second.set "r" (.numeral (radius s.output))
  have hthird : run calling rounds (.define "r" (some "f32") (.call "sqrt" [.binary "*"
      (.literal "-2.0") (.call "log" [.binary "-" (.literal "1.0") (.name "u1")])])) second =
        some third := rfl
  have hfourth : run calling rounds (.define "theta" (some "f32")
      (.binary "*" (.name "TAU") (.name "u2"))) third =
        some (third.set "theta" (.numeral (angle s.next.output))) := by
    have hturn' : third.locals "TAU" = some (.numeral (.literal "6.283185307179586")) := hturn
    have huniform : third.locals "u2" = some (.numeral (unit s.next.output)) := rfl
    simp [run, eval, hturn', huniform, Register.combine, angle]
  refine ⟨third.set "theta" (.numeral (angle s.next.output)), ?_, hactive, hlane, rfl, rfl, rfl⟩
  change runAll calling rounds [_, _, _, _, .blank] frame = _
  rw [runAll_cons hfirst hactive, runAll_cons hsecond hactive, runAll_cons hthird hactive,
    runAll_cons hfourth hactive]
  exact runAll_singleton run_blank hactive

theorem runAll_pair {element : ElementType} {outs outs' : List Register} {frame : Frame}
    {i : UInt32} (helement : element.isFloat = true) (hactive : frame.ended = false)
    (hlane : frame.locals "i" = some (.word i)) (hcells : frame.memory "state" = some cells)
    (houts : frame.memory "out0" = some outs) (hle : cells.length ≤ outs.length)
    (houts' : frame.memory "out1" = some outs') (hle' : cells.length ≤ outs'.length)
    (hs : cells[i.toNat]? = some (.vector s))
    (hturn : frame.locals "TAU" = some (.numeral (.literal "6.283185307179586"))) :
    (runAll ((pair element).calling rounds) rounds (pair element).body frame).map Frame.memory =
      some (frame.memory.putAll i.toNat ((pair element).values s)) := by
  have hi := (List.getElem?_eq_some_iff.mp hs).1
  let calling := (pair element).calling rounds
  obtain ⟨last, hsamples, hended, hlane', hradius, hangle, hmemory⟩ :=
    @runAll_samples rounds cells s element frame i hactive hlane hcells hs hturn
  have hsample {turn : String} (hturn : turn ∈ Register.floatFunctions) {frame : Frame}
      (hradius : frame.locals "r" = some (.numeral (radius s.output)))
      (hangle : frame.locals "theta" = some (.numeral (angle s.next.output))) :
      eval calling (sample element turn) frame =
        some (normalCell element turn s.output s.next.output, frame) := by
    have htheta : eval calling (.name "theta") frame =
        some (.numeral (angle s.next.output), frame) := by
      simp [eval, hangle]
    have hproduct : eval calling (.binary "*" (.name "r") (.call turn [.name "theta"])) frame =
        some (.numeral (.joined "*" (radius s.output) (.applied turn (angle s.next.output))),
          frame) := by
      have hr : eval calling (.name "r") frame = some (.numeral (radius s.output), frame) := by
        simp [eval, hradius]
      rw [eval, hr]
      simp [eval_floatFunction hturn htheta, Register.combine]
    refine eval_floatFunction ?_ hproduct
    cases element with
    | i32 => cases helement
    | u32 => cases helement
    | f16 => decide
    | f32 => decide
  let stored : Frame := { last with
    memory := last.memory.put "out0" i.toNat (normalCell element "cos" s.output s.next.output) }
  have hfirst : run calling rounds (.assign (.index "out0" lane) (sample element "cos")) last =
      some stored := by
    refine run_store hlane' (hsample (by decide) hradius hangle) ?_ (Nat.lt_of_lt_of_le hi hle)
    rw [hmemory, Memory.put_of_ne _ _ _ (by decide), houts]
  let final : Frame := { stored with
    memory := stored.memory.put "out1" i.toNat (normalCell element "sin" s.output s.next.output) }
  have hsecond : run calling rounds (.assign (.index "out1" lane) (sample element "sin")) stored =
      some final := by
    have hkept : stored.memory "out1" = last.memory "out1" := rfl
    refine run_store hlane' (hsample (by decide) hradius hangle) ?_ (Nat.lt_of_lt_of_le hi hle')
    rw [hkept, hmemory, Memory.put_of_ne _ _ _ (by decide), houts']
  have hrun : runAll calling rounds ((pair element).body.take 5 ++
      [.assign (.index "out0" lane) (sample element "cos"),
        .assign (.index "out1" lane) (sample element "sin")]) frame = some final := by
    rw [runAll_append _ _ hactive, hsamples]
    simp only [Option.bind_some, hended, Bool.false_eq_true, if_false]
    exact (runAll_cons hfirst hended).trans (runAll_singleton hsecond hended)
  refine (congrArg (Option.map Frame.memory) hrun).trans ?_
  change some ((last.memory.put "out0" _ _).put "out1" _ _) = _
  rw [hmemory]
  rfl

/-- What a lane leaves in memory: beyond the streams nothing changes, and else what its own stream
gives is in its cells. -/
theorem invoke_pass (hpass : pass.Drawable) (hwidth : 0 ≤ width) (hword : width < 2 ^ 32)
    (hbound : pass.Bound cells.length memory) (hcells : memory "state" = some cells)
    (hcount : cells.length < 2 ^ 32) :
    (cells.length ≤ (invocation.wordNumber width).toNat →
      (pass.kernel width).invoke rounds memory invocation = some memory) ∧
    ∀ s, cells[(invocation.wordNumber width).toNat]? = some (.vector s) →
      (pass.kernel width).invoke rounds memory invocation =
        some (memory.putAll (invocation.wordNumber width).toNat (pass.values s)) := by
  have hinvoke := @invoke_of_lanes (pass.kernel width) memory invocation width
    (streamFunctions ++ pass.functions) _ _ _ rounds hwidth hword (lanes?_kernel width hpass)
    (function?_kernel width hpass) (eval_guard hbound hcells hcount)
  refine ⟨fun hle ↦ ?_, fun s hs ↦ ?_⟩
  · rw [hinvoke, if_pos (by simpa using hle)]
  have hlt : ¬ cells.length ≤ (invocation.wordNumber width).toNat :=
    Nat.not_le.mpr (List.getElem?_eq_some_iff.mp hs).1
  have hlane : (pass.numbered width invocation memory).locals "i" =
      some (.word (invocation.wordNumber width)) := set_locals_self _ _ _
  rw [hinvoke, if_neg (by simpa using hlt)]
  cases hpass with
  | skip =>
    let numbered := (uniform none).numbered width invocation memory
    let stepped : Frame := { numbered with
      memory := memory.put "state" (invocation.wordNumber width).toNat (.vector s.next) }
    have hadvanced : eval ((uniform none).calling rounds) advanced numbered =
        some (.word s.output, stepped) :=
      @eval_advanced rounds 1 cells numbered _ s [] hlane hcells hs
    have hdiscard : run ((uniform none).calling rounds) rounds (.discard advanced) numbered =
        some stepped := by
      rw [run, hadvanced]
      rfl
    exact congrArg (Option.map Frame.memory) (runAll_singleton hdiscard rfl)
  | uniform helement =>
    obtain ⟨outs, houts, hle, -⟩ := hbound.outputs _ List.mem_cons_self
    exact runAll_uniform helement rfl hlane hcells houts hle hs
  | @pair element helement =>
    obtain ⟨outs, houts, hle, -⟩ := hbound.outputs _ List.mem_cons_self
    obtain ⟨outs', houts', hle', -⟩ := hbound.outputs _ (List.mem_cons_of_mem _ List.mem_cons_self)
    refine runAll_pair helement rfl hlane hcells houts hle houts' hle' hs ?_
    cases element <;> rfl

/-! ### Grids -/

/-- What the lane of a stream stores in an array. -/
def result (pass : Pass) (rows : List StreamState) (array : String) (i : Nat) : Option Register :=
  rows[i]?.bind fun s ↦ (pass.values s).lookup array

/-- The memory once every lane has stored its results. -/
def memoryAfter (pass : Pass) (rows : List StreamState) (memory : Memory) : Memory := fun array ↦
  (memory array).map (·.mapIdx fun i cell ↦ (pass.result rows array i).getD cell)

theorem nodup_values (pass : Pass) (s : StreamState) : ((pass.values s).map Prod.fst).Nodup := by
  match pass with
  | uniform none => exact List.nodup_singleton _
  | uniform (some element) => simp [values, outputs]
  | pair element => simp [values, outputs]

/-- However the invocations of a grid follow each other, each stream is advanced by the lane of its
number and by no other. -/
theorem invokeAll_pass {rows : List StreamState} {grid : Int × Int} {order : List Invocation}
    (rounds : Nat) (hpass : pass.Drawable) (hwidth : 0 ≤ width) (hword : width < 2 ^ 32)
    (hbound : pass.Bound rows.length memory)
    (hstate : memory "state" = some (rows.map .vector)) (hcount : rows.length < 2 ^ 32)
    (hperm : order.Perm (Invocation.all width grid))
    (hcovered : rows.length ≤ grid.1.toNat * grid.2.toNat * width.toNat)
    (hfits : grid.1.toNat * grid.2.toNat * width.toNat ≤ 2 ^ 32) :
    (pass.kernel width).invokeAll rounds order memory = some (pass.memoryAfter rows memory) := by
  refine invokeAll_of_perm hperm (fun invocation hmem lanes hfresh ↦ ?_) fun array i hresult ↦ ?_
  · set number := invocation.number width
    have hnumber : (invocation.wordNumber width).toNat = number :=
      Invocation.toNat_wordNumber (Nat.lt_of_lt_of_le (Invocation.number_lt_of_mem hmem) hfits)
    set cells := writtenCells (pass.result rows "state") lanes (rows.map .vector) with hcells
    have hlength : cells.length = rows.length := by
      rw [hcells, length_writtenCells, List.length_map]
    have hwritten : memory.written (pass.result rows) lanes "state" = some cells := by
      rw [Memory.written, hstate]
      rfl
    have hlanes : pass.Bound cells.length (memory.written (pass.result rows) lanes) := by
      rw [hlength]
      refine ⟨⟨cells, hwritten, hlength⟩, fun output hmem ↦ ?_⟩
      obtain ⟨outs, houts, hle, hwords⟩ := hbound.outputs output hmem
      refine ⟨_, by rw [Memory.written, houts]; rfl, ?_, ?_⟩ <;> rwa [length_writtenCells]
    obtain ⟨hbeyond, hwithin⟩ := @invoke_pass pass width rounds _ cells invocation hpass hwidth
      hword hlanes hwritten (by rwa [hlength])
    rw [hnumber] at hbeyond hwithin
    cases hrow : rows[number]? with
    | none =>
      have hnone : ∀ array, pass.result rows array number = List.lookup array [] := fun array ↦ by
        rw [result, hrow]
        rfl
      rw [hbeyond (by rw [hlength]; exact List.getElem?_eq_none_iff.mp hrow),
        ← @Memory.putAll_written _ _ _ [] number List.nodup_nil hnone]
      rfl
    | some s =>
      have hs : cells[number]? = some (.vector s) := by
        rw [hcells, getElem?_writtenCells, List.getElem?_map, hrow]
        simp [hfresh]
      have hresult : ∀ array, pass.result rows array number = (pass.values s).lookup array :=
        fun array ↦ by
          rw [result, hrow]
          rfl
      rw [hwithin s hs, Memory.putAll_written (nodup_values pass s) hresult]
  · refine Nat.lt_of_lt_of_le ?_ hcovered
    by_contra hle
    rw [result, List.getElem?_eq_none (Nat.not_lt.mp hle)] at hresult
    exact hresult rfl

theorem lookup_values {output : String × ElementType × (StreamState → Register)}
    (hmem : output ∈ pass.outputs) (s : StreamState) :
    (pass.values s).lookup output.1 = some (output.2.2 s) :=
  lookup_of_mem (nodup_values pass s)
    (List.mem_cons_of_mem _ (List.mem_map_of_mem hmem))

/-! ### Bytes -/

/-- The bytes of an output hold what each lane stores for its stream. -/
def Stored (rounding : Rounding) (rows : List StreamState)
    (output : String × ElementType × (StreamState → Register)) (bytes : Bytes) : Prop :=
  ∀ (i : Nat) s, rows[i]? = some s →
    bytes.element output.2.1.size i = Register.bits rounding output.2.1 (output.2.2 s)

/-- The bytes have room for an element of each stream, and their number is a word. -/
structure Roomy (n : Nat) (output : String × ElementType × (StreamState → Register))
    (bytes : Bytes) : Prop where
  room : n ≤ bytes.size / output.2.1.size
  words : bytes.size / output.2.1.size < 2 ^ 32

theorem memoryAfter_state {rows : List StreamState}
    (hstate : memory "state" = some (rows.map .vector)) :
    pass.memoryAfter rows memory "state" =
      some ((rows.map StreamState.next^[pass.steps]).map .vector) := by
  rw [memoryAfter, hstate, Option.map_some]
  refine congrArg some (List.ext_getElem? fun i ↦ ?_)
  have hresult : pass.result rows "state" i =
      rows[i]?.map fun s ↦ .vector (StreamState.next^[pass.steps] s) := by
    rw [result]
    cases rows[i]? <;> rfl
  rw [List.getElem?_mapIdx, hresult]
  cases hrow : rows[i]? with
  | none => simp [hrow]
  | some s => simp [hrow]

variable {output : String × ElementType × (StreamState → Register)} {k : Nat} {states bytes : Bytes}
  {outs : List Bytes}

theorem boundTo?_state (width : Int) (hpass : pass.Drawable) :
    (pass.kernel width).items.findSome? (Item.boundTo? ((0 : Nat) : Int)) =
      some ("state", "vec4<u32>") := by
  cases hpass with
  | skip => rfl
  | @uniform element helement => cases element <;> rfl
  | @pair element helement => cases element <;> rfl

theorem memoryOf_state (width : Int) (hpass : pass.Drawable) :
    (pass.kernel width).memoryOf (states :: outs) "state" = some (states.streams.map .vector) := by
  cases hpass with
  | skip => rfl
  | @uniform element helement => cases element <;> rfl
  | @pair element helement => cases element <;> rfl

/-- The outputs lie in the slots behind that of the streams. -/
theorem boundTo?_kernel (width : Int) (hpass : pass.Drawable)
    (houtput : pass.outputs[k]? = some output) :
    (pass.kernel width).items.findSome? (Item.boundTo? ((k + 1 : Nat) : Int)) =
      some (output.1, output.2.1.name) := by
  cases hpass with
  | skip => cases houtput
  | @uniform element helement =>
    match k, houtput with
    | 0, houtput =>
      cases houtput
      cases element <;> rfl
  | @pair element helement =>
    match k, houtput with
    | 0, houtput =>
      cases houtput
      cases element <;> rfl
    | 1, houtput =>
      cases houtput
      cases element <;> rfl

theorem memoryOf_output (width : Int) (hpass : pass.Drawable)
    (houtput : pass.outputs[k]? = some output) (hbytes : outs[k]? = some bytes) :
    (pass.kernel width).memoryOf (states :: outs) output.1 =
      Register.cellsOf? output.2.1.name bytes := by
  cases hpass with
  | skip => cases houtput
  | @uniform element helement =>
    match k, outs, houtput, hbytes with
    | 0, _ :: _, houtput, hbytes =>
      cases houtput
      cases hbytes
      cases element with
      | i32 => exact absurd rfl helement
      | _ => rfl
  | @pair element helement =>
    match k, outs, houtput, hbytes with
    | 0, _ :: _, houtput, hbytes =>
      cases houtput
      cases hbytes
      cases element with
      | f16 => rfl
      | f32 => rfl
      | _ => cases helement
    | 1, _ :: _ :: _, houtput, hbytes =>
      cases houtput
      cases hbytes
      cases element with
      | f16 => rfl
      | f32 => rfl
      | _ => cases helement

theorem Drawable.element_ne (hpass : pass.Drawable) (hmem : output ∈ pass.outputs) :
    output.2.1 ≠ .i32 := by
  cases hpass with
  | skip => cases hmem
  | uniform helement =>
    obtain rfl := List.mem_singleton.mp hmem
    exact helement
  | @pair element helement =>
    have hfloat : element ≠ .i32 := by
      rintro rfl
      cases helement
    simp only [outputs, List.mem_cons, List.not_mem_nil, or_false] at hmem
    rcases hmem with rfl | rfl <;> exact hfloat

/-- The cells of an output as it is bound. -/
theorem exists_memoryOf_output (width : Int) (hpass : pass.Drawable)
    (houtput : pass.outputs[k]? = some output) (hbytes : outs[k]? = some bytes) :
    ∃ cells, (pass.kernel width).memoryOf (states :: outs) output.1 = some cells ∧
      cells.length = bytes.size / output.2.1.size := by
  obtain ⟨cells, hcells, hsize⟩ :=
    Register.exists_cellsOf? (hpass.element_ne (List.mem_of_getElem? houtput)) bytes
  exact ⟨cells, (memoryOf_output width hpass houtput hbytes).trans hcells, hsize⟩

theorem leftIn_state {rows : List StreamState} (width : Int) (rounding : Rounding)
    (hpass : pass.Drawable) (hstate : memory "state" = some (rows.map .vector)) :
    (pass.kernel width).leftIn rounding (pass.memoryAfter rows memory) (states, 0) =
      Register.bytesOf ((rows.map StreamState.next^[pass.steps]).map .vector) := by
  rw [leftIn]
  simp only [boundTo?_state width hpass, memoryAfter_state hstate]
  rfl

theorem leftIn_output (width : Int) (rounding : Rounding) (rows : List StreamState)
    (hpass : pass.Drawable) (houtput : pass.outputs[k]? = some output)
    (hmemory : memory output.1 = some cells) :
    (pass.kernel width).leftIn rounding (pass.memoryAfter rows memory) (bytes, k + 1) =
      Register.storedIn rounding output.2.1.name bytes
        (cells.mapIdx fun i cell ↦ (pass.result rows output.1 i).getD cell) := by
  rw [leftIn]
  simp only [boundTo?_kernel width hpass houtput, memoryAfter, hmemory, Option.elim_some,
    Option.map_some]

/-- What a pass leaves in the buffers of its slots: every stream is advanced, and what its steps
give is stored at its place in each output. -/
theorem processGrid_pass {rows : List StreamState} {grid : Int × Int} {order : List Invocation}
    (rounding : Rounding) (rounds : Nat) (hpass : pass.Drawable) (hwidth : 0 ≤ width)
    (hword : width < 2 ^ 32) (hrows : states.streams = rows) (hcount : rows.length < 2 ^ 32)
    (hlength : outs.length = pass.outputs.length)
    (hroomy : ∀ (k : Nat) output (bytes : Bytes), pass.outputs[k]? = some output →
      outs[k]? = some bytes → Roomy rows.length output bytes)
    (hperm : order.Perm (Invocation.all width grid))
    (hcovered : rows.length ≤ grid.1.toNat * grid.2.toNat * width.toNat)
    (hfits : grid.1.toNat * grid.2.toNat * width.toNat ≤ 2 ^ 32) :
    ∃ states' outs',
      (pass.kernel width).processGrid rounding rounds order (states :: outs) = states' :: outs' ∧
      states'.streams = rows.map StreamState.next^[pass.steps] ∧ states'.size = 16 * rows.length ∧
      outs'.map Bytes.size = outs.map Bytes.size ∧
      ∀ (k : Nat) output (bytes : Bytes), pass.outputs[k]? = some output →
        outs'[k]? = some bytes → Stored rounding rows output bytes := by
  set memory := (pass.kernel width).memoryOf (states :: outs)
  have hstate : memory "state" = some (rows.map .vector) := hrows ▸ memoryOf_state width hpass
  have hbound : pass.Bound rows.length memory := by
    refine ⟨⟨_, hstate, List.length_map _⟩, fun output hmem ↦ ?_⟩
    obtain ⟨k, hk, rfl⟩ := List.getElem_of_mem hmem
    have houtput : pass.outputs[k]? = some pass.outputs[k] := List.getElem?_eq_getElem hk
    have hbytes : outs[k]? = some outs[k] := List.getElem?_eq_getElem (hlength ▸ hk)
    obtain ⟨cells, hmemory, hsize⟩ := exists_memoryOf_output width hpass houtput hbytes
    obtain ⟨hroom, hwords⟩ := hroomy k _ _ houtput hbytes
    exact ⟨cells, hmemory, hsize ▸ hroom, hsize ▸ hwords⟩
  have hrun := invokeAll_pass rounds hpass hwidth hword hbound hstate hcount hperm hcovered hfits
  set after := pass.memoryAfter rows memory with hafter
  have hplace (k : Nat) : ((outs.zipIdx 1).map ((pass.kernel width).leftIn rounding after))[k]? =
      outs[k]?.map fun bytes ↦ (pass.kernel width).leftIn rounding after (bytes, k + 1) := by
    rw [List.getElem?_map, List.getElem?_zipIdx, Option.map_map, Nat.add_comm 1]
    rfl
  rw [processGrid, hrun]
  dsimp only
  rw [List.zipIdx_cons, List.map_cons, Nat.zero_add, hafter,
    leftIn_state width rounding hpass hstate, ← hafter]
  refine ⟨_, _, rfl, Register.streams_bytesOf _, ?_, ?_, fun k output bytes' houtput hbytes' ↦ ?_⟩
  · exact (Register.size_bytesOf_vectors _).trans (by rw [List.length_map])
  · refine List.ext_getElem? fun k ↦ ?_
    rw [List.getElem?_map, hplace, List.getElem?_map]
    cases hbytes : outs[k]? with
    | none => rfl
    | some bytes =>
      have hk : k < pass.outputs.length := hlength ▸ (List.getElem?_eq_some_iff.mp hbytes).1
      have houtput := List.getElem?_eq_getElem hk
      obtain ⟨cells, hmemory, -⟩ := exists_memoryOf_output width hpass houtput hbytes
      rw [Option.map_some, Option.map_some, Option.map_some,
        leftIn_output width rounding rows hpass houtput hmemory, Register.size_storedIn]
  · rw [hplace] at hbytes'
    obtain ⟨bytes, hbytes, rfl⟩ := Option.map_eq_some_iff.mp hbytes'
    obtain ⟨cells, hmemory, hsize⟩ := exists_memoryOf_output width hpass houtput hbytes
    intro i s hs
    have hi : i < cells.length := hsize ▸ Nat.lt_of_lt_of_le (List.getElem?_eq_some_iff.mp hs).1
      (hroomy k _ _ houtput hbytes).room
    have hresult : pass.result rows output.1 i = some (output.2.2 s) := by
      rw [result, hs, Option.bind_some, lookup_values (List.mem_of_getElem? houtput)]
    rw [leftIn_output width rounding rows hpass houtput hmemory]
    refine Register.element_storedIn ?_ ?_
    · rw [List.getElem?_mapIdx, List.getElem?_eq_getElem hi, hresult]
      rfl
    · rw [List.length_mapIdx, hsize]
      exact Nat.div_mul_le_self _ _

end Pass

end Generator

end ComputeArray
