import ComputeArray.Proofs.Kernel.Elementwise
import Mathlib.Data.List.Nodup
import Mathlib.Tactic.Ring

/-!
# Grids of invocations

The invocations of a grid run one after the other, in any order, each on the cells the earlier ones
have left. Where each invocation does to the cells what a step does to a state, so do all of them
(`runLanes_eq_foldl`). Their numbers are the numbers below the size of the grid, each once
(`Invocation.map_number_grid`). Lanes that store at their own numbers leave the same cells in every
order (`foldl_storeAt`).
-/

set_option autoImplicit false

namespace ComputeArray.Kernel

variable {α : Type} {kernel : Kernel} {machine : Machine α} {rounds : Nat}
  {constants : String → Option (Datum α)}

/-! ### Runs of invocations -/

/-- The name under which an item declares the array bound to a slot. -/
def Item.nameAt? (slot : Int) : Item → Option String
  | .array (some own) _ name _ => if own = slot then some name else none
  | _ => none

/-- The cells behind a slot once an invocation is over. -/
def cellsAfter (kernel : Kernel) (cells : Int → Option (List (Datum α))) (last : State α)
    (slot : Int) : Option (List (Datum α)) :=
  match kernel.items.findSome? (Item.nameAt? slot) with
  | some name => last.arrays name
  | none => cells slot

/-- Runs invocations one after the other. -/
def runLanes (kernel : Kernel) (machine : Machine α) (rounds : Nat)
    (constants : String → Option (Datum α)) :
    List Invocation → (Int → Option (List (Datum α))) → Option (Int → Option (List (Datum α)))
  | [], cells => some cells
  | invocation :: rest, cells => do
    let last ← kernel.runLane machine rounds constants cells invocation
    runLanes kernel machine rounds constants rest (kernel.cellsAfter cells last)

/-- Invocations that each do to the cells what a step does to a state they show. -/
theorem runLanes_eq_foldl {σ : Type} {shown : σ → Int → Option (List (Datum α))}
    {step : σ → Invocation → σ} {Valid : σ → Prop} {order : List Invocation}
    (hvalid : ∀ state invocation, Valid state → Valid (step state invocation))
    (hstep : ∀ state, Valid state → ∀ invocation ∈ order, ∃ last,
      kernel.runLane machine rounds constants (shown state) invocation = some last ∧
        kernel.cellsAfter (shown state) last = shown (step state invocation))
    {state : σ} (hstate : Valid state) :
    kernel.runLanes machine rounds constants order (shown state) =
      some (shown (order.foldl step state)) := by
  induction order generalizing state with
  | nil => rfl
  | cons invocation rest ih =>
    obtain ⟨last, hlast, hcells⟩ := hstep state hstate invocation List.mem_cons_self
    have hrest := ih (fun state hstate later hmem ↦
      hstep state hstate later (List.mem_cons_of_mem invocation hmem)) (hvalid _ invocation hstate)
    rw [runLanes, hlast, List.foldl_cons, ← hrest, ← hcells]
    rfl

/-! ### Grids -/

/-- The invocations of a grid whose workgroups have `size` lanes in a row. -/
def Invocation.all (size : Int) (grid : Int × Int) : List Invocation :=
  (List.range grid.2.toNat).flatMap fun y ↦
    (List.range (grid.1.toNat * size.toNat)).map fun x ↦ ⟨x, y, grid.1.toNat⟩

/-- The invocations of a grid, row after row, have the numbers below its size. -/
theorem Invocation.map_number_grid (size : Int) (grid : Int × Int) :
    (Invocation.all size grid).map (·.number size) =
      List.range (grid.1.toNat * grid.2.toNat * size.toNat) := by
  obtain ⟨columns, height⟩ := grid
  unfold Invocation.all
  dsimp only
  generalize height.toNat = rows
  induction rows with
  | zero => simp
  | succ rows ih =>
    have hrow : ((List.range (columns.toNat * size.toNat)).map fun x ↦
        Invocation.mk x rows columns.toNat).map (·.number size) =
          (List.range (columns.toNat * size.toNat)).map
            (columns.toNat * rows * size.toNat + ·) := by
      rw [List.map_map]
      refine List.map_congr_left fun x _ ↦ ?_
      simp only [Function.comp_apply, Invocation.number]
      ring
    have hsize : columns.toNat * (rows + 1) * size.toNat =
        columns.toNat * rows * size.toNat + columns.toNat * size.toNat := by ring
    rw [List.range_succ, List.flatMap_append, List.map_append, ih, List.flatMap_singleton, hrow,
      hsize, List.range_add]

theorem Invocation.number_lt_of_mem {size : Int} {grid : Int × Int} {invocation : Invocation}
    (hmem : invocation ∈ Invocation.all size grid) :
    invocation.number size < grid.1.toNat * grid.2.toNat * size.toNat := by
  have := List.mem_map_of_mem (f := (·.number size)) hmem
  rw [map_number_grid] at this
  exact List.mem_range.mp this

/-- Each number below the size of a grid is that of one invocation only. -/
theorem Invocation.existsUnique_number {size : Int} {grid : Int × Int} {lane : Nat}
    (h : lane < grid.1.toNat * grid.2.toNat * size.toNat) :
    ∃! invocation, invocation ∈ Invocation.all size grid ∧ invocation.number size = lane := by
  have hnodup : ((Invocation.all size grid).map (·.number size)).Nodup := by
    rw [map_number_grid]
    exact List.nodup_range
  have hmem : lane ∈ (Invocation.all size grid).map (·.number size) := by
    rw [map_number_grid]
    exact List.mem_range.mpr h
  obtain ⟨invocation, hinvocation, hnumber⟩ := List.mem_map.mp hmem
  refine ⟨invocation, ⟨hinvocation, hnumber⟩, fun other hother ↦ ?_⟩
  exact List.inj_on_of_nodup_map hnodup hother.1 hinvocation (hother.2.trans hnumber.symm)

/-! ### Numbers in words -/

/-- The number of an invocation's lane as the device computes it, in words. -/
def Invocation.wordNumber (invocation : Invocation) (size : Int) : UInt32 :=
  .ofNat invocation.x + .ofNat invocation.y * .ofNat invocation.groups * .ofNat size.toNat

theorem Invocation.wordNumber_eq (invocation : Invocation) (size : Int) :
    invocation.wordNumber size = .ofNat (invocation.number size) := by
  rw [wordNumber, number, UInt32.ofNat_add, UInt32.ofNat_mul, UInt32.ofNat_mul]

/-- A number that is a word is computed exactly. -/
theorem Invocation.toNat_wordNumber {invocation : Invocation} {size : Int}
    (h : invocation.number size < 2 ^ 32) :
    (invocation.wordNumber size).toNat = invocation.number size := by
  rw [wordNumber_eq, UInt32.toNat_ofNat', Nat.mod_eq_of_lt h]

/-! ### Results stored at the numbers of lanes -/

section Stored

variable {γ : Type}

/-- Stores the result there is for a number, if any. -/
def storeAt (results : List γ) (stored : List γ) (i : Nat) : List γ :=
  match results[i]? with
  | some result => stored.set i result
  | none => stored

theorem length_storeAt (results stored : List γ) (i : Nat) :
    (storeAt results stored i).length = stored.length := by
  unfold storeAt
  split
  · exact List.length_set
  · rfl

theorem getElem?_storeAt {results stored : List γ} (hle : results.length ≤ stored.length)
    (i k : Nat) :
    (storeAt results stored i)[k]? =
      if k = i ∧ k < results.length then results[k]? else stored[k]? := by
  by_cases hi : i < results.length
  · have hstore : storeAt results stored i = stored.set i results[i] := by
      rw [storeAt, List.getElem?_eq_getElem hi]
    rw [hstore]
    by_cases hk : k = i
    · subst hk
      rw [if_pos ⟨rfl, hi⟩, List.getElem?_set_self (by omega), List.getElem?_eq_getElem hi]
    · rw [if_neg fun h ↦ hk h.1, List.getElem?_set_ne (Ne.symm hk)]
  · have hstore : storeAt results stored i = stored := by
      rw [storeAt, List.getElem?_eq_none (Nat.le_of_not_lt hi)]
    rw [hstore, if_neg fun h : k = i ∧ k < results.length ↦ hi (h.1 ▸ h.2)]

theorem getElem?_foldl_storeAt {results : List γ} (numbers : List Nat) {stored : List γ}
    (hle : results.length ≤ stored.length) (k : Nat) :
    (numbers.foldl (storeAt results) stored)[k]? =
      if k ∈ numbers ∧ k < results.length then results[k]? else stored[k]? := by
  induction numbers generalizing stored with
  | nil => rw [if_neg fun h ↦ List.not_mem_nil h.1]; rfl
  | cons i rest ih =>
    rw [List.foldl_cons, ih (by rwa [length_storeAt]), getElem?_storeAt hle]
    by_cases hk : k < results.length
    · by_cases hrest : k ∈ rest
      · rw [if_pos ⟨hrest, hk⟩, if_pos ⟨List.mem_cons_of_mem i hrest, hk⟩]
      · rw [if_neg fun h ↦ hrest h.1]
        by_cases hi : k = i
        · rw [if_pos ⟨hi, hk⟩, if_pos ⟨List.mem_cons.mpr (.inl hi), hk⟩]
        · rw [if_neg fun h ↦ hi h.1,
            if_neg fun h ↦ (List.mem_cons.mp h.1).elim hi hrest]
    · rw [if_neg fun h ↦ hk h.2, if_neg fun h ↦ hk h.2, if_neg fun h ↦ hk h.2]

/-- Whatever the order, what lanes leave that each store the result for their number are the results
and behind them what was there before. -/
theorem foldl_storeAt {results stored : List γ} {numbers : List Nat} {size : Nat}
    (hperm : numbers.Perm (List.range size)) (hsize : results.length ≤ size)
    (hle : results.length ≤ stored.length) :
    numbers.foldl (storeAt results) stored = results ++ stored.drop results.length := by
  apply List.ext_getElem?
  intro k
  rw [getElem?_foldl_storeAt numbers hle]
  by_cases hk : k < results.length
  · have hmem : k ∈ numbers := hperm.mem_iff.mpr (List.mem_range.mpr (by omega))
    rw [if_pos ⟨hmem, hk⟩, List.getElem?_append_left hk]
  · rw [if_neg fun h ↦ hk h.2, List.getElem?_append_right (by omega), List.getElem?_drop]
    congr 1
    omega

end Stored

end ComputeArray.Kernel
