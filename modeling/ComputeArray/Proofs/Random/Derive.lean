import ComputeArray.Proofs.Kernel.Processing
import ComputeArray.Proofs.Random.Advance
import Mathlib.Logic.Function.Iterate

/-!
# Deriving streams on a device

What the kernel that derives streams does to the streams in memory, its functions read over words of
32 bits. Calling `jump` replaces a stream by its jump, and one invocation fills the rows from the
cursor on, each with the jump of the row before it, and leaves the cursor at the first row it has
not filled.
-/

set_option autoImplicit false

namespace ComputeArray.Kernel

open ComputeArray.Random

variable {calling : Calling} {rounds depth : Nat} {memory : Memory} {rows : List StreamState}
  {frame : Frame} {position : Expression} {i : UInt32} {s : StreamState}

/-- The memory with the given streams in the array of states. -/
def Memory.withStreams (memory : Memory) (rows : List StreamState) : Memory :=
  Function.update memory "state" (some (rows.map .vector))

theorem Memory.put_withStreams (memory : Memory) (rows : List StreamState) (k : Nat)
    (s : StreamState) :
    (memory.withStreams rows).put "state" k (.vector s) = memory.withStreams (rows.set k s) := by
  simp [put, withStreams, List.map_set]

namespace Stream

open Kernel.Frame

theorem eval_stateAt_of_streams (calling : Calling) (position : Expression)
    (hstate : frame.locals "state" = none) (hmemory : frame.memory = memory.withStreams rows)
    (hposition : eval calling position frame = some (.word i, frame))
    (hs : rows[i.toNat]? = some s) :
    eval calling (stateAt position) frame = some (.vector s, frame) :=
  eval_stateAt calling position hstate (congrFun hmemory "state") hposition (by simp [hs])

theorem assign_stateAt_of_streams (calling : Calling) (s : StreamState)
    (hmemory : frame.memory = memory.withStreams rows)
    (hposition : eval calling position frame = some (.word i, frame))
    (hi : i.toNat < rows.length) :
    assign calling (stateAt position) (.vector s) frame =
      some { frame with memory := memory.withStreams (rows.set i.toNat s) } := by
  rw [assign_stateAt calling s (congrFun hmemory "state") hposition (by simpa using hi), hmemory,
    Memory.put_withStreams]

/-- The functions of the kernel that derives streams. -/
def deriveFunctions : List Function := streamFunctions ++ [jumpFunction]

theorem eval_advanced_of_streams (hlane : frame.locals "i" = some (.word i))
    (hmemory : frame.memory = memory.withStreams rows) (hs : rows[i.toNat]? = some s) :
    eval (callAt deriveFunctions rounds (depth + 2)) advanced frame =
      some (.word s.output,
        { frame with memory := memory.withStreams (rows.set i.toNat s.next) }) := by
  have hrow : (rows.map Register.vector)[i.toNat]? = some (.vector s) := by simp [hs]
  rw [deriveFunctions, eval_advanced [jumpFunction] hlane (congrFun hmemory "state") hrow, hmemory,
    Memory.put_withStreams]

/-! ### One jump -/

/-- The words of the jump polynomial as a vector. -/
def jumpVector : StreamState := ⟨0x8764000b, 0xf542d2d3, 0x6fa035c3, 0x77f2db5b⟩

/-- The `k`th bit of the jump polynomial. -/
theorem jumpBits_getElem : ∀ w < 4, ∀ b < 32,
    ∃ word, jumpVector.toList[w]? = some word ∧
      StreamState.jumpBits[32 * w + b]? =
        some (word &&& (1 <<< UInt32.ofNat b) != 0) := by
  decide

theorem sumAlong_append (bits rest : List Bool) (s sum : StreamState) :
    StreamState.sumAlong (bits ++ rest) s sum =
      StreamState.sumAlong rest (StreamState.next^[bits.length] s)
        (StreamState.sumAlong bits s sum) := by
  induction bits generalizing s sum with
  | nil => rfl
  | cons bit bits ih => rw [List.cons_append, StreamState.sumAlong, ih]; rfl

/-- Stream `i` on its way to its jump, with `k` bits of the polynomial gone through. -/
structure Jumping (memory : Memory) (rows : List StreamState) (i : UInt32) (s : StreamState)
    (k : Nat) (frame : Frame) : Prop where
  active : frame.ended = false
  result : frame.result = none
  lane : frame.locals "i" = some (.word i)
  polynomial : frame.locals "poly" = some (.vector jumpVector)
  sum : frame.locals "acc" =
    some (.vector (StreamState.sumAlong (StreamState.jumpBits.take k) s .zero))
  state : frame.locals "state" = none
  memory : frame.memory = memory.withStreams (rows.set i.toNat (StreamState.next^[k] s))

theorem sumAlong_take_succ {k : Nat} {bit : Bool} (s : StreamState)
    (hbit : StreamState.jumpBits[k]? = some bit) :
    StreamState.sumAlong (StreamState.jumpBits.take (k + 1)) s .zero =
      if bit then (StreamState.sumAlong (StreamState.jumpBits.take k) s .zero).xor
        (StreamState.next^[k] s)
      else StreamState.sumAlong (StreamState.jumpBits.take k) s .zero := by
  obtain ⟨hk, hbit⟩ := List.getElem?_eq_some_iff.mp hbit
  rw [List.take_succ_eq_append_getElem hk, sumAlong_append, hbit, List.length_take,
    Nat.min_eq_left (Nat.le_of_lt hk)]
  rfl

/-- The statements gone through for each bit of the polynomial. -/
def jumpRound : List Statement :=
  [.branch (.binary "!=" (.group (.binary "&" (.index "poly" (.name "w"))
      (.group (.binary "<<" (.word 1) (.name "b"))))) (.word 0))
    [.update "^" (.name "acc") (stateAt lane)],
    .discard advanced]

variable {w b : Nat}

theorem holds_jumpBit (calling : Calling) {bit : Bool} {k : Nat}
    (h : Jumping memory rows i s k frame)
    (hw : w < 4) (hb : b < 32) (hwLocal : frame.locals "w" = some (.word (.ofNat w)))
    (hbLocal : frame.locals "b" = some (.word (.ofNat b)))
    (hbit : StreamState.jumpBits[32 * w + b]? = some bit) :
    holds calling (.binary "!=" (.group (.binary "&" (.index "poly" (.name "w"))
      (.group (.binary "<<" (.word 1) (.name "b"))))) (.word 0)) frame = some (bit, frame) := by
  obtain ⟨word, hword, hbit'⟩ := jumpBits_getElem w hw b hb
  rw [hbit, Option.some_inj] at hbit'
  have hplace : (UInt32.ofNat w).toNat = w :=
    UInt32.toNat_ofNat_of_lt' (Nat.lt_trans hw (by decide))
  simp [holds, eval, hwLocal, hbLocal, cell, h.polynomial, Register.atPlace, hplace, hword,
    wordOf?, Register.combine, hbit']

theorem runAll_jumpRound (hi : i.toNat < rows.length) (hw : w < 4) (hb : b < 32)
    (hwLocal : frame.locals "w" = some (.word (.ofNat w)))
    (hbLocal : frame.locals "b" = some (.word (.ofNat b)))
    (h : Jumping memory rows i s (32 * w + b) frame) :
    ∃ next, runAll (callAt deriveFunctions rounds (depth + 2)) rounds jumpRound frame =
        some next ∧
      Jumping memory rows i s (32 * w + b + 1) next ∧
      next.locals "w" = frame.locals "w" ∧ next.locals "b" = frame.locals "b" := by
  obtain ⟨word, -, hbit⟩ := jumpBits_getElem w hw b hb
  generalize (word &&& (1 <<< UInt32.ofNat b) != 0) = bit at hbit
  let calling := callAt deriveFunctions rounds (depth + 2)
  have hrow : (rows.set i.toNat (StreamState.next^[32 * w + b] s))[i.toNat]? =
      some (StreamState.next^[32 * w + b] s) := by
    simp [hi]
  have hholds := holds_jumpBit calling h hw hb hwLocal hbLocal hbit
  -- the frame after the branch: the sum has changed if the bit is set
  let summed : Frame := frame.set "acc" (.vector
    (StreamState.sumAlong (StreamState.jumpBits.take (32 * w + b + 1)) s .zero))
  have hsummed : run calling rounds jumpRound[0] frame = some summed := by
    have hread := eval_stateAt_of_streams calling lane h.state h.memory (eval_lane h.lane) hrow
    have hself : frame.set "acc" (.vector
        (StreamState.sumAlong (StreamState.jumpBits.take (32 * w + b)) s .zero)) = frame := by
      rw [Frame.set, ← h.sum, Function.update_eq_self]
    rw [show jumpRound[0] = .branch _ _ from rfl, run, hholds]
    cases bit with
    | true =>
      simp [summed, sumAlong_take_succ s hbit, runAll, run, eval, h.sum, hread, assign,
        Register.combine, declared, leave_nil]
    | false => simp [summed, sumAlong_take_succ s hbit, hself]
  have hdiscard : run calling rounds (.discard advanced) summed = some { summed with
      memory := memory.withStreams
        (rows.set i.toNat (StreamState.next^[32 * w + b + 1] s)) } := by
    have hadvance : eval calling advanced summed = _ :=
      eval_advanced_of_streams h.lane h.memory hrow
    rw [run, hadvance, List.set_set, Function.iterate_succ_apply']
    rfl
  refine ⟨_, (runAll_cons hsummed h.active).trans (runAll_cons hdiscard h.active),
    ⟨h.active, h.result, h.lane, h.polynomial, rfl, h.state, rfl⟩, rfl, rfl⟩

namespace Jumping

variable {k : Nat} {name : String}

/-- The variables a jump depends on. -/
def names : List String := ["i", "poly", "acc", "state"]

theorem of_locals {last : Frame} (h : Jumping memory rows i s k frame)
    (hlocals : ∀ name ∈ names, last.locals name = frame.locals name)
    (hmemory : last.memory = frame.memory) (hresult : last.result = frame.result)
    (hended : last.ended = frame.ended) : Jumping memory rows i s k last where
  active := hended.trans h.active
  result := hresult.trans h.result
  lane := (hlocals _ (by decide)).trans h.lane
  polynomial := (hlocals _ (by decide)).trans h.polynomial
  sum := (hlocals _ (by decide)).trans h.sum
  state := (hlocals _ (by decide)).trans h.state
  memory := hmemory.trans h.memory

theorem set (value : Register) (hname : name ∉ names) (h : Jumping memory rows i s k frame) :
    Jumping memory rows i s k (frame.set name value) :=
  h.of_locals (fun _ hin ↦ set_locals_of_ne _ _ fun heq ↦ hname (heq ▸ hin)) rfl rfl rfl

theorem leave (outer : Frame) (hname : name ∉ names) (h : Jumping memory rows i s k frame) :
    Jumping memory rows i s k (frame.leave outer [name]) :=
  h.of_locals (fun _ hin ↦ leave_locals_of_not_mem _ _ fun heq ↦
    hname (List.mem_singleton.mp heq ▸ hin)) rfl rfl rfl

end Jumping

/-- The rounds for the bits of one word. -/
theorem run_jumpWord (hrounds : 32 < rounds) (hi : i.toNat < rows.length) (hw : w < 4)
    (hwLocal : frame.locals "w" = some (.word (.ofNat w)))
    (h : Jumping memory rows i s (32 * w) frame) :
    ∃ last, run (callAt deriveFunctions rounds (depth + 2)) rounds (countUp "b" 32 jumpRound)
        frame = some last ∧
      Jumping memory rows i s (32 * (w + 1)) last ∧
      last.locals "w" = some (.word (.ofNat w)) := by
  obtain ⟨last, hlast, hjumping, hlocal⟩ := run_count
    (callAt deriveFunctions rounds (depth + 2)) "b" (.word 0) (.word 32) jumpRound 0 32
    (fun b frame ↦ Jumping memory rows i s (32 * w + b) frame ∧
      frame.locals "w" = some (.word (.ofNat w)))
    (Nat.zero_le _) (by decide) hrounds rfl rfl (fun _ _ _ ↦ rfl)
    (fun _ _ value h ↦ ⟨h.1.set value (by decide), h.2⟩)
    (fun b frame _ hb hbLocal ⟨hframe, hwLocal⟩ ↦ by
      obtain ⟨next, hnext, hjumping, hw', hb'⟩ := runAll_jumpRound hi hw hb hwLocal hbLocal hframe
      exact ⟨next, hnext, hjumping.active, hb'.trans hbLocal, hjumping, hw'.trans hwLocal⟩)
    ⟨h, hwLocal⟩
  exact ⟨_, hlast, hjumping.leave _ (by decide), hlocal⟩

/-- A round for every bit of the polynomial, word by word. -/
theorem run_jumpRounds (depth : Nat) (hrounds : 32 < rounds) (hi : i.toNat < rows.length)
    (h : Jumping memory rows i s 0 frame) :
    ∃ last, run (callAt deriveFunctions rounds (depth + 2)) rounds
        (countUp "w" 4 [countUp "b" 32 jumpRound]) frame = some last ∧
      Jumping memory rows i s 128 last := by
  obtain ⟨last, hlast, hjumping⟩ := run_count
    (callAt deriveFunctions rounds (depth + 2)) "w" (.word 0) (.word 4)
    [countUp "b" 32 jumpRound] 0 4 (fun w frame ↦ Jumping memory rows i s (32 * w) frame)
    (Nat.zero_le _) (by decide) (Nat.lt_trans (by decide) hrounds) rfl rfl (fun _ _ _ ↦ rfl)
    (fun _ _ value h ↦ h.set value (by decide))
    (fun w frame _ hw hwLocal hframe ↦ by
      obtain ⟨next, hnext, hjumping, hlocal⟩ := run_jumpWord hrounds hi hw hwLocal hframe
      exact ⟨next, runAll_cons hnext hjumping.active, hjumping.active, hlocal, hjumping⟩)
    h
  exact ⟨_, hlast, hjumping.leave _ (by decide)⟩

theorem call_jump (hrounds : 32 < rounds) (hs : rows[i.toNat]? = some s) :
    callAt deriveFunctions rounds (depth + 3) "jump" [.word i] (memory.withStreams rows) =
      some (none, memory.withStreams (rows.set i.toNat s.jump)) := by
  let calling := callAt deriveFunctions rounds (depth + 2)
  obtain ⟨hi, hrow⟩ := List.getElem?_eq_some_iff.mp hs
  let start : Frame := .start jumpFunction.parameters [.word i] (memory.withStreams rows)
  let first : Frame := (start.set "poly" (.vector jumpVector)).set "acc" (.vector .zero)
  have hfirst : Jumping memory rows i s 0 first :=
    ⟨rfl, rfl, rfl, rfl, rfl, rfl,
      by rw [Function.iterate_zero, id, ← hrow, List.set_getElem_self]; rfl⟩
  obtain ⟨last, hlast, hjumping⟩ := run_jumpRounds depth hrounds hi hfirst
  have hsum : last.locals "acc" = some (.vector s.jump) := hjumping.sum
  have hstore : run calling rounds (.assign (stateAt lane) (.name "acc")) last =
      some { last with memory := memory.withStreams (rows.set i.toNat s.jump) } := by
    have hassign := assign_stateAt_of_streams calling s.jump hjumping.memory
      (eval_lane hjumping.lane) (by simpa using hi)
    rw [List.set_set] at hassign
    simp [run, eval, hsum, hassign]
  have hbody : runAll calling rounds jumpFunction.body start =
      some { last with memory := memory.withStreams (rows.set i.toNat s.jump) } :=
    calc runAll calling rounds jumpFunction.body start
      _ = runAll calling rounds (jumpFunction.body.drop 2) first := rfl
      _ = runAll calling rounds [.assign (stateAt lane) (.name "acc")] last :=
        runAll_cons hlast hjumping.active
      _ = _ := runAll_cons hstore hjumping.active
  refine (congrArg (·.bind fun last ↦ some (last.result, last.memory)) hbody).trans ?_
  rw [← hjumping.result]
  rfl

theorem run_jump (depth : Nat) (hrounds : 32 < rounds) (hlane : frame.locals "i" = some (.word i))
    (hmemory : frame.memory = memory.withStreams rows) (hs : rows[i.toNat]? = some s) :
    run (callAt deriveFunctions rounds (depth + 3)) rounds (.run (.call "jump" [lane])) frame =
      some { frame with memory := memory.withStreams (rows.set i.toNat s.jump) } := by
  simp [run, evalAll, eval_lane hlane, hmemory, call_jump hrounds hs]

/-! ### One pass -/

/-- The streams with the `count` rows from `first` on filled, each with the jump of the row before
it. -/
def jumpedRows (rows : List StreamState) (first : Nat) : Nat → List StreamState
  | 0 => rows
  | count + 1 =>
    let done := jumpedRows rows first count
    done.set (first + count) (done.getD (first + count - 1) .zero).jump

theorem length_jumpedRows (rows : List StreamState) (first count : Nat) :
    (jumpedRows rows first count).length = rows.length := by
  induction count with
  | zero => rfl
  | succ count ih => rw [jumpedRows, List.length_set, ih]

/-- The memory of the kernel: streams and the cursor. -/
def deriveMemory (rows : List StreamState) (cursor : Nat) : Memory :=
  Memory.withStreams
    (Function.update (fun _ ↦ none) "cursor" (some [.word (.ofNat cursor)])) rows

theorem deriveMemory_state (rows : List StreamState) (cursor : Nat) :
    deriveMemory rows cursor "state" = some (rows.map .vector) := rfl

theorem deriveMemory_cursor (rows : List StreamState) (cursor : Nat) :
    deriveMemory rows cursor "cursor" = some [.word (.ofNat cursor)] := rfl

theorem store_cursor (rows : List StreamState) (cursor cursor' : Nat) :
    (deriveMemory rows cursor).store "cursor" 0 (.word (.ofNat cursor')) =
      some (deriveMemory rows cursor') := by
  have hne : "state" ≠ "cursor" := by decide
  simp [Memory.store, deriveMemory, Memory.withStreams, Function.update_comm hne]

/-- The rows from `first` on are filled up to row `k`, and `last` is the row to stop at. -/
structure Filling (rows : List StreamState) (first last k : Nat) (frame : Frame) : Prop where
  active : frame.ended = false
  limit : frame.locals "last" = some (.word (.ofNat last))
  state : frame.locals "state" = none
  cursor : frame.locals "cursor" = none
  memory : frame.memory = deriveMemory (jumpedRows rows first (k - first)) first

variable {first last k : Nat}

/-- The statements that fill one row. -/
def fillRow : List Statement :=
  [.assign (stateAt lane) (stateAt (.binary "-" lane (.word 1))), .run (.call "jump" [lane])]

theorem runAll_fillRow (hrounds : 32 < rounds) (hpos : 1 ≤ first) (hfirst : first ≤ k)
    (hk : k < rows.length) (hfits : rows.length < 2 ^ 32)
    (hlane : frame.locals "i" = some (.word (.ofNat k))) (h : Filling rows first last k frame) :
    ∃ next, runAll (callAt deriveFunctions rounds (depth + 3)) rounds fillRow frame = some next ∧
      Filling rows first last (k + 1) next ∧ next.locals "i" = frame.locals "i" := by
  let calling := callAt deriveFunctions rounds (depth + 3)
  let filled := jumpedRows rows first (k - first)
  let row := filled.getD (k - 1) .zero
  have hlength : filled.length = rows.length := length_jumpedRows ..
  have hplace : (UInt32.ofNat k).toNat = k :=
    UInt32.toNat_ofNat_of_lt' (Nat.lt_trans hk hfits)
  have hbefore : (UInt32.ofNat k - 1).toNat = k - 1 := by
    rw [UInt32.toNat_sub_of_le _ _ (by rw [UInt32.le_iff_toNat_le, hplace]; simp; omega), hplace]
    rfl
  have hrow : filled[(UInt32.ofNat k - 1).toNat]? = some row := by
    simp [row, hbefore, List.getElem?_eq_getElem (show k - 1 < filled.length by omega)]
  have hcopy : run calling rounds fillRow[0] frame = some { frame with
      memory := deriveMemory (filled.set k row) first } := by
    have hread := eval_stateAt_of_streams calling (.binary "-" lane (.word 1))
      h.state h.memory (by simp [eval, eval_lane hlane, wordOf?, Register.combine]) hrow
    have hassign := assign_stateAt_of_streams calling row h.memory (eval_lane hlane)
      (by rw [hplace, length_jumpedRows]; exact hk)
    rw [hplace] at hassign
    simp [fillRow, run, hread, hassign, filled, deriveMemory]
  have hjump : run calling rounds fillRow[1] { frame with
      memory := deriveMemory (filled.set k row) first } = some { frame with
        memory := deriveMemory (filled.set k row.jump) first } := by
    have hset : (filled.set k row)[(UInt32.ofNat k).toNat]? = some row := by
      rw [hplace]
      exact List.getElem?_set_self (by omega)
    have hrun : run calling rounds fillRow[1] { frame with
        memory := deriveMemory (filled.set k row) first } = _ :=
      run_jump depth hrounds hlane rfl hset
    rw [hplace, List.set_set] at hrun
    exact hrun
  have hnext : jumpedRows rows first (k + 1 - first) = filled.set k row.jump := by
    rw [show k + 1 - first = k - first + 1 by omega, jumpedRows,
      show first + (k - first) = k by omega]
  exact ⟨_, (runAll_cons hcopy h.active).trans (runAll_cons hjump h.active),
    ⟨h.active, h.limit, h.state, h.cursor, by rw [hnext]⟩, rfl⟩

theorem run_fillRows (depth : Nat) (frame : Frame) (hrounds : 32 < rounds)
    (hcount : last - first < rounds) (hpos : 1 ≤ first) (hfirst : first ≤ last)
    (hlast : last ≤ rows.length) (hfits : rows.length < 2 ^ 32)
    (hstart : frame.locals "first" = some (.word (.ofNat first)))
    (h : Filling rows first last first frame) :
    ∃ filled, run (callAt deriveFunctions rounds (depth + 3)) rounds
        (.loop "i" (.name "first") (.binary "<" lane (.name "last"))
          (.binary "+" lane (.word 1)) fillRow) frame = some filled ∧
      Filling rows first last last filled := by
  have hkept {k : Nat} {frame next : Frame} (h : Filling rows first last k frame)
      (hlocals : ∀ name, name ≠ "i" → next.locals name = frame.locals name)
      (hmemory : next.memory = frame.memory) (hended : next.ended = frame.ended) :
      Filling rows first last k next :=
    ⟨hended.trans h.active, (hlocals _ (by decide)).trans h.limit,
      (hlocals _ (by decide)).trans h.state, (hlocals _ (by decide)).trans h.cursor,
      hmemory.trans h.memory⟩
  obtain ⟨inner, hinner, hfilled⟩ := run_count
    (callAt deriveFunctions rounds (depth + 3)) "i" (.name "first") (.name "last") fillRow
    first last (Filling rows first last) hfirst (Nat.lt_of_le_of_lt hlast hfits) hcount rfl
    (by simp [eval, hstart]) (fun _ _ h ↦ by simp [eval, h.limit])
    (fun _ _ _ h ↦ hkept h (fun _ hne ↦ set_locals_of_ne _ _ hne) rfl rfl)
    (fun k frame hle hk hlane hframe ↦ by
      obtain ⟨next, hnext, hfilling, hi⟩ := runAll_fillRow hrounds hpos hle
        (Nat.lt_of_lt_of_le hk hlast) hfits hlane hframe
      exact ⟨next, hnext, hfilling.active, hi.trans hlane, hfilling⟩)
    h
  exact ⟨_, hinner, hkept hfilled
    (fun _ hne ↦ leave_locals_of_not_mem _ _ (by simpa using hne)) rfl rfl⟩

theorem min_ofNat {a b : Nat} (ha : a < 2 ^ 32) (hb : b < 2 ^ 32) :
    min (UInt32.ofNat a) (UInt32.ofNat b) = UInt32.ofNat (min a b) := by
  have hle : UInt32.ofNat a ≤ UInt32.ofNat b ↔ a ≤ b := by
    rw [UInt32.le_iff_toNat_le, UInt32.toNat_ofNat_of_lt' ha, UInt32.toNat_ofNat_of_lt' hb]
  change (if UInt32.ofNat a ≤ UInt32.ofNat b then _ else _) = _
  by_cases h : a ≤ b
  · rw [if_pos (hle.mpr h), Nat.min_eq_left h]
  · rw [if_neg (mt hle.mp h), Nat.min_eq_right (Nat.le_of_not_le h)]

/-- The row to stop at does not overflow. -/
theorem run_limit (chunk n : Nat) (hfirst : frame.locals "first" = some (.word (.ofNat first)))
    (hn : frame.locals "n" = some (.word (.ofNat n))) (hlimit : first + chunk < 2 ^ 32)
    (hfits : n < 2 ^ 32) :
    run calling rounds (.define "last" (some "u32")
        (.call "min" [.binary "+" (.name "first") (.word chunk), .name "n"])) frame =
      some (frame.set "last" (.word (.ofNat (min (first + chunk) n)))) := by
  have hword : wordOf? chunk = some (.word (.ofNat chunk)) := by
    rw [wordOf?, if_pos ⟨Int.natCast_nonneg _, by omega⟩, Int.toNat_natCast]
  simp [run, eval, evalAll, hfirst, hn, hword, Register.combine, Register.builtin,
    ← UInt32.ofNat_add, min_ofNat hlimit hfits]

/-- The statements of the single invocation. -/
def deriveBody (chunk : Int) : List Statement :=
  [.define "n" (some "u32") (.arrayLength "state"),
    .define "first" (some "u32") (.index "cursor" (.literal "0")),
    .define "last" (some "u32")
      (.call "min" [.binary "+" (.name "first") (.word chunk), .name "n"]),
    .loop "i" (.name "first") (.binary "<" lane (.name "last")) (.binary "+" lane (.word 1))
      fillRow,
    .assign (.index "cursor" (.literal "0")) (.name "last")]

theorem runSingle_derive_eq (state cursor : Operand) (chunk : Int) (memory : Memory) :
    runSingle (derive state cursor chunk) rounds memory =
      (runAll (callAt deriveFunctions rounds 4) rounds (deriveBody chunk)
        (.start [] [] memory)).bind fun last ↦ some last.memory := by
  have hbody : (derive state cursor chunk).items.findSome? Item.single? =
      some (deriveBody chunk) := rfl
  have hfunctions : (derive state cursor chunk).items.filterMap Item.function? =
      deriveFunctions := rfl
  rw [runSingle, hbody, hfunctions]
  rfl

/-- One invocation fills the rows from the cursor on, at most `chunk` of them, and moves the cursor
behind them. -/
theorem runSingle_derive {state cursor : Operand} {chunk : Nat} (hrounds : 32 < rounds)
    (hcount : chunk < rounds) (hpos : 1 ≤ first) (hfirst : first ≤ rows.length)
    (hfits : rows.length + chunk < 2 ^ 32) :
    runSingle (derive state cursor chunk) rounds (deriveMemory rows first) =
      some (deriveMemory (jumpedRows rows first (min (first + chunk) rows.length - first))
        (min (first + chunk) rows.length)) := by
  let calling := callAt deriveFunctions rounds 4
  let last := min (first + chunk) rows.length
  let start : Frame := .start [] [] (deriveMemory rows first)
  let known := (start.set "n" (.word (.ofNat rows.length))).set "first" (.word (.ofNat first))
  let limited := known.set "last" (.word (.ofNat last))
  have hn : run calling rounds (.define "n" (some "u32") (.arrayLength "state")) start =
      some (start.set "n" (.word (.ofNat rows.length))) := by
    have hlength : start.memory.lengthOf [.pointer "state"] =
        some (.word (.ofNat rows.length)) := by
      simp [start, Frame.start, Memory.lengthOf, deriveMemory, Memory.withStreams]
    simp [run, eval, Expression.arrayLength, hlength]
  have hknown : run calling rounds (.define "first" (some "u32") (.index "cursor" (.literal "0")))
      (start.set "n" (.word (.ofNat rows.length))) = some known := rfl
  have hlimited : run calling rounds _ known = some limited :=
    run_limit chunk rows.length rfl rfl (by omega) (by omega)
  obtain ⟨filled, hfilled, hfilling⟩ := run_fillRows 1 limited hrounds
    (show last - first < rounds by omega) hpos (by omega) (Nat.min_le_right ..) (by omega) rfl
    ⟨rfl, rfl, rfl, rfl, by rw [Nat.sub_self]; rfl⟩
  have hstore : run calling rounds (.assign (.index "cursor" (.literal "0")) (.name "last"))
      filled =
        some { filled with
          memory := deriveMemory (jumpedRows rows first (last - first)) last } := by
    simp [run, eval, assign, hfilling.limit, hfilling.memory, store_cursor]
  have hbody : runAll calling rounds (deriveBody chunk) start = _ :=
    (runAll_cons hn rfl).trans ((runAll_cons hknown rfl).trans ((runAll_cons hlimited rfl).trans
      ((runAll_cons hfilled hfilling.active).trans (runAll_cons hstore hfilling.active))))
  rw [runSingle_derive_eq, hbody]
  rfl

/-- One invocation on buffers that hold streams and the cursor. -/
theorem process_derive {chunk : Nat} {type conversion type' conversion' : String}
    {states cell : Bytes} (hrounds : 32 < rounds) (hcount : chunk < rounds) (hpos : 1 ≤ first)
    (hfirst : first ≤ rows.length) (hfits : rows.length + chunk < 2 ^ 32)
    (hrows : states.streams = rows) (hcell : cell.words = [.ofNat first]) :
    (derive ⟨some 0, type, conversion⟩ ⟨some 1, type', conversion'⟩ chunk).process rounds
        [states, cell] =
      [Register.bytesOf ((jumpedRows rows first
          (min (first + chunk) rows.length - first)).map .vector),
        Register.bytesOf [.word (.ofNat (min (first + chunk) rows.length))]] := by
  let kernel := derive ⟨some 0, type, conversion⟩ ⟨some 1, type', conversion'⟩ chunk
  have hmemory : kernel.memoryOf [states, cell] = deriveMemory rows first := by
    funext name
    by_cases hstate : name = "state"
    · rw [hstate, ← hrows]
      rfl
    by_cases hcursor : name = "cursor"
    · rw [hcursor]
      exact congrArg (fun words : List UInt32 ↦ some (words.map Register.word)) hcell
    · simp [kernel, memoryOf, derive, stateItem, functions, deriveMemory, Memory.withStreams,
        Ne.symm hstate, Ne.symm hcursor, hstate, hcursor]
  have hrun : kernel.runSingle rounds (kernel.memoryOf [states, cell]) = _ :=
    hmemory ▸ runSingle_derive hrounds hcount hpos hfirst hfits
  have hfirstSlot : kernel.items.findSome? (Item.nameAt? (0 : Nat)) = some "state" := rfl
  have hsecondSlot : kernel.items.findSome? (Item.nameAt? (1 : Nat)) =
      some "cursor" := rfl
  change kernel.process rounds [states, cell] = _
  rw [process, hrun]
  simp only [List.zipIdx_cons, List.zipIdx_nil, List.map_cons, List.map_nil, hfirstSlot,
    hsecondSlot, Nat.zero_add, Option.bind_some, deriveMemory_state, deriveMemory_cursor,
    Option.elim_some]

end Stream

end ComputeArray.Kernel
