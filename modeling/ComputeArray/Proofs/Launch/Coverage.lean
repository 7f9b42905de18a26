import ComputeArray.Engine.Submit
import ComputeArray.Kernel.Stream
import ComputeArray.Proofs.Kernel.Fold
import ComputeArray.Proofs.Run.Elementary
import Mathlib.Data.Rat.Floor

/-!
# Coverage of lanes

A grid has as many workgroups in a row as the lanes need and the device allows, and no more rows
than it takes to reach every lane (`Covers`). Each kernel made for workgroups begins by numbering
its lane (`Gridded`), and the numbers of a grid's invocations are the numbers below the size of the
grid, each once. While they fit in a word the device computes them without wrapping around.
-/

set_option autoImplicit false

namespace ComputeArray

open Kernel

/-! ### Quotients rounded up -/

theorem ceilingDiv_eq_ceil (n : Int) {d : Int} (hd : 0 ≤ d) :
    ceilingDiv n d = ⌈(n / d : ℚ)⌉ := by
  obtain ⟨k, rfl⟩ := Int.eq_ofNat_of_zero_le hd
  rw [ceilingDiv, Int.fdiv_eq_ediv_of_nonneg _ hd, Int.cast_natCast, Rat.ceil_intCast_div_natCast]

/-- A quotient rounded up is a bound exactly if its multiple is. -/
theorem ceilingDiv_le_iff {n d bound : Int} (hd : 0 < d) :
    ceilingDiv n d ≤ bound ↔ n ≤ bound * d := by
  rw [ceilingDiv, Int.fdiv_eq_ediv_of_nonneg _ hd.le, neg_le, Int.le_ediv_iff_mul_le hd, neg_mul,
    neg_le_neg_iff]

theorem le_ceilingDiv_mul (n : Int) {d : Int} (hd : 0 < d) : n ≤ ceilingDiv n d * d :=
  (ceilingDiv_le_iff hd).mp le_rfl

/-- With one part less, not all is covered. -/
theorem pred_ceilingDiv_mul_lt (n : Int) {d : Int} (hd : 0 < d) : (ceilingDiv n d - 1) * d < n := by
  by_contra h
  have := (ceilingDiv_le_iff hd).mpr (not_lt.mp h)
  omega

namespace Kernel

/-! ### What kernels for workgroups begin with -/

/-- The kernels made for workgroups of a size. -/
inductive Gridded (size : Int) : Kernel → Prop
  | elementwise {inputs : List (String × Operand)} {out : Operand}
      {result : List Expression → Expression} {strides : Option Elementwise.StrideSlots}
      {kernel : Kernel} (h : Elementwise.kernel size inputs out result strides = .ok kernel) :
      Gridded size kernel
  | fold (argument out : Operand) (combine : Expression → Expression → Expression) :
      Gridded size (Fold.kernel size argument out combine)
  | draw (state : Operand) (out : Option Operand) : Gridded size (Stream.draw size state out)
  | normalPair (state first second : Operand) :
      Gridded size (Stream.normalPair size state first second)

/-- The lanes of a kernel for workgroups begin by computing their number. -/
theorem Gridded.exists_lanes {size : Int} {kernel : Kernel} (h : Gridded size kernel) :
    ∃ rest, kernel.items.findSome? Item.lanes? = some (laneNumber size :: rest) := by
  cases h with
  | elementwise h => exact ⟨_, Elementwise.lanes?_kernel h⟩
  | fold argument out combine => exact ⟨_, Fold.lanes?_kernel size argument out combine⟩
  | draw state out =>
    -- The function for half precision stands before the lanes of some draws only.
    have hhalf : (if out.any (·.type = "f16") then [.function Stream.toHalfFunction, .blank]
        else []).findSome? Item.lanes? = none := by
      split <;> rfl
    cases out with
    | none => exact ⟨_, rfl⟩
    | some out =>
      refine ⟨[.stop (.binary "||" (beyond "state") (beyond "out")), .blank,
        Stream.drawStatement (some out)], ?_⟩
      simp only [Stream.draw, List.findSome?_append, hhalf, List.findSome?_cons, lanes?_preamble,
        Option.elim, lanes?_item]
      rfl
  | normalPair state first second =>
    simp only [Stream.normalPair, List.cons_append, List.findSome?_cons, lanes?_preamble,
      lanes?_item]
    exact ⟨_, rfl⟩

section Machine

variable {α : Type} {machine : Machine α} {state : State α} {a b : Nat}

open Machine

theorem eval_add_wrapping (hmachine : machine.arithmetic = .wrapping) {left right : Expression}
    (hleft : machine.eval state left = some (.word a))
    (hright : machine.eval state right = some (.word b)) :
    machine.eval state (.binary "+" left right) = some (.word ((a + b) % wordCount)) := by
  rw [eval_binary_words hleft hright, hmachine]
  rfl

theorem eval_mul_wrapping (hmachine : machine.arithmetic = .wrapping) {left right : Expression}
    (hleft : machine.eval state left = some (.word a))
    (hright : machine.eval state right = some (.word b)) :
    machine.eval state (.binary "*" left right) = some (.word (a * b % wordCount)) := by
  rw [eval_binary_words hleft hright, hmachine]
  rfl

/-- A device with arithmetic of words numbers its lanes as `Invocation.wordNumber` does. -/
theorem run_laneNumber_start (hmachine : machine.arithmetic = .wrapping) (rounds : Nat)
    {size : Int} (hsize : 0 ≤ size) (hword : size < 2 ^ 32) (kernel : Kernel)
    (constants : String → Option (Datum α)) (cells : Int → Option (List (Datum α)))
    (invocation : Invocation) :
    machine.run rounds (laneNumber size) (kernel.start constants cells invocation) =
      some ((kernel.start constants cells invocation).set "i"
        (.word (invocation.wordNumber size).toNat)) := by
  set state := kernel.start constants cells invocation
  have hx : machine.eval state (.member (.name "id") "x") = some (.word invocation.x) := by
    rw [eval]
    rfl
  have hy : machine.eval state (.member (.name "id") "y") = some (.word invocation.y) := by
    rw [eval]
    rfl
  have hgroups : machine.eval state (.member (.name "groups") "x") =
      some (.word invocation.groups) := by
    rw [eval]
    rfl
  have hlanes : machine.eval state (.word size) = some (.word size.toNat) :=
    eval_word hsize (show size.toNat < wordCount by unfold wordCount; omega)
  have hrows := eval_mul_wrapping hmachine (eval_mul_wrapping hmachine hy hgroups) hlanes
  have hnumber := eval_add_wrapping hmachine hx hrows
  rw [laneNumber, run_define hnumber, Invocation.wordNumber_eq, UInt32.toNat_ofNat']
  simp only [Invocation.number, wordCount, Nat.add_mod_mod, Nat.mod_mul_mod]

end Machine

end Kernel

/-! ### Grids that cover their lanes -/

/-- A grid on a device whose workgroups have `size` lanes and whose grids have at most `limit`
workgroups in a row covers a number of lanes. -/
structure Covers (size limit lanes : Int) (grid : Int × Int) : Prop where
  columns : 1 ≤ grid.1 ∧ grid.1 ≤ limit
  covered : lanes ≤ grid.1 * grid.2 * size
  least : 1 ≤ grid.2 ∧ (grid.2 = 1 ∨ grid.1 * (grid.2 - 1) * size < lanes)
  rows : ⌈(lanes / size : ℚ)⌉ ≤ limit * limit → grid.2 ≤ limit
  numbers : (Invocation.all size grid).map (·.number size) =
    List.range (grid.1 * grid.2 * size).toNat
  once : grid.1 * grid.2 * size ≤ 2 ^ 32 → ∀ lane : Nat, lane < lanes →
    ∃! invocation, invocation ∈ Invocation.all size grid ∧
      (invocation.wordNumber size).toNat = lane

/-- The workgroups in a row and the rows, without the numbers they give their lanes. -/
theorem gridFor_spec {size limit : Int} (lanes : Int) (hsize : 1 ≤ size) (hlimit : 1 ≤ limit) :
    let grid := gridFor size limit lanes
    (1 ≤ grid.1 ∧ grid.1 ≤ limit) ∧ lanes ≤ grid.1 * grid.2 * size ∧
      (1 ≤ grid.2 ∧ (grid.2 = 1 ∨ grid.1 * (grid.2 - 1) * size < lanes)) ∧
      (ceilingDiv lanes size ≤ limit * limit → grid.2 ≤ limit) := by
  have hcover := le_ceilingDiv_mul lanes (d := size) (by omega)
  have hleast := pred_ceilingDiv_mul_lt lanes (d := size) (by omega)
  rw [gridFor]
  set groups := max 1 (ceilingDiv lanes size) with hgroups
  have hone : 1 ≤ groups := le_max_left _ _
  have hlanes : lanes ≤ groups * size :=
    hcover.trans (mul_le_mul_of_nonneg_right (le_max_right _ _) (by omega))
  by_cases hrow : groups ≤ limit
  · rw [if_pos hrow]
    exact ⟨⟨hone, hrow⟩, by rwa [mul_one], ⟨le_rfl, .inl rfl⟩, fun _ ↦ hlimit⟩
  · -- Beyond one row the quotient is not raised to one, so a row less would miss a lane.
    have hquotient : ceilingDiv lanes size = groups := by omega
    rw [hquotient] at hleast
    simp only [if_neg hrow, hquotient]
    set rows := ceilingDiv groups limit
    have hrows : groups ≤ rows * limit := le_ceilingDiv_mul groups (by omega)
    have hfewer : (rows - 1) * limit ≤ groups - 1 :=
      Int.le_sub_one_of_lt (pred_ceilingDiv_mul_lt groups (by omega))
    have hpositive : 0 < rows := pos_of_mul_pos_left (by omega : 0 < rows * limit) (by omega)
    refine ⟨⟨hlimit, le_rfl⟩, ?_, ⟨hpositive, .inr ?_⟩, (ceilingDiv_le_iff (by omega)).mpr⟩
    · calc lanes ≤ groups * size := hlanes
        _ ≤ rows * limit * size := mul_le_mul_of_nonneg_right hrows (by omega)
        _ = limit * rows * size := by rw [mul_comm rows limit]
    · calc limit * (rows - 1) * size = (rows - 1) * limit * size := by rw [mul_comm limit]
        _ ≤ (groups - 1) * size := mul_le_mul_of_nonneg_right hfewer (by omega)
        _ < lanes := hleast

theorem covers_gridFor {size limit : Int} (lanes : Int) (hsize : 1 ≤ size) (hlimit : 1 ≤ limit) :
    Covers size limit lanes (gridFor size limit lanes) := by
  obtain ⟨hcolumns, hcovered, hleast, hrows⟩ := gridFor_spec lanes hsize hlimit
  set grid := gridFor size limit lanes
  have hcount : (grid.1 * grid.2 * size).toNat = grid.1.toNat * grid.2.toNat * size.toNat := by
    rw [Int.toNat_mul (mul_nonneg (by omega) (by omega)) (by omega),
      Int.toNat_mul (by omega) (by omega)]
  refine ⟨hcolumns, hcovered, hleast, ?_, ?_, fun hfits lane hlane ↦ ?_⟩
  · rwa [← ceilingDiv_eq_ceil lanes (by omega)]
  · rw [hcount]
    exact Invocation.map_number_grid size grid
  · obtain ⟨invocation, ⟨hmem, hnumber⟩, hunique⟩ :=
      Invocation.existsUnique_number (show lane < grid.1.toNat * grid.2.toNat * size.toNat by omega)
    have hexact : ∀ other ∈ Invocation.all size grid,
        (other.wordNumber size).toNat = other.number size := by
      intro other hother
      have := Invocation.number_lt_of_mem hother
      exact Invocation.toNat_wordNumber (by omega)
    refine ⟨invocation, ⟨hmem, (hexact invocation hmem).trans hnumber⟩, fun other hother ↦ ?_⟩
    exact hunique other ⟨hother.1, (hexact other hother.1).symm.trans hother.2⟩

namespace Engine

/-- However many lanes a pass has, its grid covers them on a device that can run workgroups at all,
and each kernel for workgroups numbers its lanes as the grid is covered. -/
theorem grid_covers {engine : Engine} (lanes : Int) (hsize : 1 ≤ engine.workgroupSize)
    (hlimit : 1 ≤ engine.maxWorkgroups) :
    (∃ grid, outcomeOf (Action.grid lanes) engine = .ok grid ∧
      Covers engine.workgroupSize engine.maxWorkgroups lanes grid) ∧
    ∀ kernel : Kernel, Gridded engine.workgroupSize kernel →
      (∃ rest, kernel.items.findSome? Item.lanes? =
        some (laneNumber engine.workgroupSize :: rest)) ∧
      (engine.workgroupSize < 2 ^ 32 → ∀ (α : Type) (machine : Machine α) (rounds : Nat)
        (constants : String → Option (Datum α)) (cells : Int → Option (List (Datum α)))
        (invocation : Invocation), machine.arithmetic = .wrapping →
          machine.run rounds (laneNumber engine.workgroupSize)
              (kernel.start constants cells invocation) =
            some ((kernel.start constants cells invocation).set "i"
              (.word (invocation.wordNumber engine.workgroupSize).toNat))) := by
  refine ⟨⟨_, ?_, covers_gridFor lanes hsize hlimit⟩, fun kernel hkernel ↦
    ⟨hkernel.exists_lanes, fun hword α machine rounds constants cells invocation hmachine ↦
      run_laneNumber_start hmachine rounds (by omega) hword kernel constants cells invocation⟩⟩
  have hnone : ¬ (engine.workgroupSize = 0 ∨ engine.maxWorkgroups = 0) := by omega
  simp only [Action.grid, outcomeOf_bind, outcomeOf_get, stateAfter_get, if_neg hnone]
  rfl

/-- Thirteen lanes on a device with rows of at most three workgroups of two lanes each need a third
row. -/
theorem grid_covers_beyond_row :
    let engine :=
      create (Device.create [] ⟨2, 2, 3⟩ none) ⟨.highPerformance, .bool true, 256, .none⟩
    (1 ≤ engine.workgroupSize ∧ 1 ≤ engine.maxWorkgroups) ∧
      outcomeOf (Action.grid 13) engine = .ok (3, 3) ∧ Covers 2 3 13 (3, 3) := by
  intro engine
  have hsize : 1 ≤ engine.workgroupSize := by decide
  have hlimit : 1 ≤ engine.maxWorkgroups := by decide
  have hgrid : outcomeOf (Action.grid 13) engine = .ok (3, 3) := rfl
  obtain ⟨⟨grid, hfound, hcovers⟩, -⟩ := grid_covers 13 hsize hlimit
  obtain rfl : grid = (3, 3) := Except.ok.inj (hfound.symm.trans hgrid)
  exact ⟨⟨hsize, hlimit⟩, hgrid, hcovers⟩

end Engine

end ComputeArray
