import ComputeArray.Proofs.Kernel.Processor
import ComputeArray.Random.Stream

/-!
# Steps of streams in memory

All kernels of streams have the function `advance`, which takes the stream in one cell of the memory
a step further and gives the word of the step, whatever else the kernel and its memory consist of
(`call_advance`).
-/

set_option autoImplicit false

namespace ComputeArray.Kernel

open ComputeArray.Random

variable {calling : Calling} {rounds depth : Nat} {memory : Memory} {cells : List Register}
  {frame : Frame} {position : Expression} {i : UInt32} {s : StreamState}

namespace Stream

open Kernel.Frame

theorem eval_lane (hlane : frame.locals "i" = some (.word i)) :
    eval calling lane frame = some (.word i, frame) := by
  simp [lane, eval, hlane]

theorem eval_stateAt (calling : Calling) (position : Expression)
    (hstate : frame.locals "state" = none) (hcells : frame.memory "state" = some cells)
    (hposition : eval calling position frame = some (.word i, frame))
    (hs : cells[i.toNat]? = some (.vector s)) :
    eval calling (stateAt position) frame = some (.vector s, frame) := by
  simp [stateAt, eval, hposition, cell, hstate, hcells, hs]

theorem assign_stateAt (calling : Calling) (s : StreamState)
    (hcells : frame.memory "state" = some cells)
    (hposition : eval calling position frame = some (.word i, frame))
    (hi : i.toNat < cells.length) :
    assign calling (stateAt position) (.vector s) frame =
      some { frame with memory := frame.memory.put "state" i.toNat (.vector s) } := by
  simp [stateAt, assign, hposition, Memory.store_eq_put hcells hi]

/-- The functions that all kernels of streams have. -/
def streamFunctions : List Function := [rotateFunction, toFloatFunction, advanceFunction]

/-- The statements of `advance` between reading the stream and storing it. -/
def advanceSteps : List Statement := (advanceFunction.body.drop 1).take 11

/-- The statements work on the variables alone: the stream becomes the next one. -/
theorem runAll_advanceSteps (more : List Function) (rounds depth : Nat) (s : StreamState)
    (frame : Frame) (hactive : frame.ended = false) (hs : frame.locals "s" = some (.vector s)) :
    ∃ last, runAll (callAt (streamFunctions ++ more) rounds (depth + 1)) rounds advanceSteps frame =
        some last ∧
      last.locals "s" = some (.vector s.next) ∧ last.locals "result" = some (.word s.output) ∧
      last.locals "i" = frame.locals "i" ∧ last.memory = frame.memory ∧ last.ended = false := by
  obtain ⟨locals, memory, result, ended⟩ := frame
  obtain rfl : ended = false := hactive
  -- with `s` on top of the variables the statements can be run
  have hlocals : locals = Function.update locals "s" (some (.vector s)) := by
    rw [← show locals "s" = _ from hs, Function.update_eq_self]
  rw [hlocals]
  exact ⟨_, rfl, rfl, rfl, rfl, rfl, rfl⟩

theorem call_advance (more : List Function) (hcells : memory "state" = some cells)
    (hs : cells[i.toNat]? = some (.vector s)) :
    callAt (streamFunctions ++ more) rounds (depth + 2) "advance" [.word i] memory =
      some (some (.word s.output), memory.put "state" i.toNat (.vector s.next)) := by
  let calling := callAt (streamFunctions ++ more) rounds (depth + 1)
  let start : Frame := .start advanceFunction.parameters [.word i] memory
  have hread : run calling rounds (.declare "s" (some "vec4<u32>") (stateAt lane)) start =
      some (start.set "s" (.vector s)) := by
    rw [run, eval_stateAt calling lane rfl hcells (eval_lane rfl) hs]
    rfl
  obtain ⟨last, hsteps, hlast, hresult, hlane, hmemory, hactive⟩ :=
    runAll_advanceSteps more rounds depth s (start.set "s" (.vector s)) rfl rfl
  have hstore := assign_stateAt calling s.next ((congrFun hmemory "state").trans hcells)
    (eval_lane (hlane.trans rfl)) (List.getElem?_eq_some_iff.mp hs).1
  rw [hmemory] at hstore
  have hend : runAll calling rounds [.assign (stateAt lane) (.name "s"), .result (.name "result")]
      last = some { last with
        memory := memory.put "state" i.toNat (.vector s.next)
        result := some (.word s.output)
        ended := true } := by
    simp [runAll, run, eval, hlast, hstore, hactive, hresult, start, Frame.start, Frame.set]
  have hbody : runAll calling rounds advanceFunction.body start = some { last with
      memory := memory.put "state" i.toNat (.vector s.next)
      result := some (.word s.output)
      ended := true } := by
    refine (runAll_cons hread rfl).trans ?_
    change runAll calling rounds (advanceSteps ++ _) _ = _
    rw [runAll_append _ _ rfl, hsteps, ← hend]
    simp [hactive]
  exact congrArg (·.bind fun last ↦ some (last.result, last.memory)) hbody

/-- The call of `advance` for the stream of a lane. -/
theorem eval_advanced (more : List Function) (hlane : frame.locals "i" = some (.word i))
    (hcells : frame.memory "state" = some cells) (hs : cells[i.toNat]? = some (.vector s)) :
    eval (callAt (streamFunctions ++ more) rounds (depth + 2)) advanced frame =
      some (.word s.output,
        { frame with memory := frame.memory.put "state" i.toNat (.vector s.next) }) := by
  simp [advanced, eval, evalAll, eval_lane hlane, Register.builtin, Register.casts,
    call_advance more hcells hs]

end Stream

end ComputeArray.Kernel
