import ComputeArray.Engine.Reduce
import ComputeArray.Proofs.Launch.Lanes
import ComputeArray.Proofs.Reduction.Folding
import ComputeArray.Proofs.Run.Allocation
import ComputeArray.Proofs.Run.Decomposition
import Mathlib.Data.Nat.Log

/-!
# Passes of a reduction

The passes planned for an array form a chain: each reads the array the pass before it has written,
with as many elements as that pass had lanes, and the last one writes the target
(`chained_of_foldDispatches`). Each pass has at least one lane and no more than there are elements
or lanes in a workgroup, and planning ends after logarithmically many passes (`length_passes_le`).
-/

set_option autoImplicit false

namespace ComputeArray

namespace Reduction

/-! ### Planning -/

theorem lanes_bounds {width n : Int} (hwidth : 1 ≤ width) (hn : 1 ≤ n) :
    1 ≤ lanes width n ∧ lanes width n ≤ width ∧ lanes width n ≤ n := by
  unfold lanes
  omega

/-- Each pass but the last one at least halves the number of partial results. -/
theorem lanes_le_half {width n : Int} (h : 1 < lanes width n) : lanes width n ≤ n / 2 := by
  unfold lanes at *
  omega

theorem length_passes_le (width : Int) (n : Nat) :
    (passes width n).length ≤ Nat.log 2 n + 1 := by
  induction n using Nat.strong_induction_on with
  | _ n ih =>
    rw [passes]
    split
    · next hseveral =>
      have hhalf := lanes_le_half hseveral
      obtain ⟨next, hnext⟩ : ∃ next : Nat, lanes width n = next :=
        ⟨(lanes width n).toNat, by omega⟩
      rw [hnext] at hseveral hhalf ⊢
      have hlog : Nat.log 2 n = Nat.log 2 (n / 2) + 1 :=
        Nat.log_of_one_lt_of_le (by decide) (by omega)
      have hmono : Nat.log 2 next ≤ Nat.log 2 (n / 2) := Nat.log_mono_right (by omega)
      have hrest := ih next (by omega)
      rw [List.length_cons]
      omega
    · exact Nat.le_add_left _ _

end Reduction

/-! ### Chains -/

/-- A pass of a reduction with its kernel. -/
def foldPass (engine : Engine) (operation : Operation) (element : ElementType)
    (source destination n lanes : Nat) : Dispatch × Kernel :=
  (Action.foldDispatch engine operation element source destination n lanes,
    operation.foldKernel engine.workgroupSize ⟨some 0, (engine.array source).element.name, ""⟩
      (outOperand engine element 1 destination))

/-- A pass folds as many elements in as many lanes as were planned, and its kernel is told so. -/
structure FollowsPlan (planned : Int × Int) (entry : Dispatch × Kernel) : Prop where
  lanes : entry.1.lanes = planned.2
  constants : entry.1.constants = [("n", .int planned.1), ("lanes", .int planned.2)]

theorem followsPlan_foldPass (engine : Engine) (operation : Operation) (element : ElementType)
    (source destination n lanes : Nat) :
    FollowsPlan (n, lanes) (foldPass engine operation element source destination n lanes) :=
  ⟨rfl, rfl⟩

/-- The passes from an array of `n` elements to the target: each folds the elements of one array
into an array with an element for each of its lanes, which the next one reads, up to the pass with
a single lane, which writes the target. -/
inductive FoldChain (engine : Engine) (operation : Operation) (element : ElementType)
    (target : Nat) : Nat → Nat → List (Dispatch × Kernel) → Prop where
  | last {source n : Nat} (pos : 1 ≤ n) (apart : source ≠ target)
      (length : (engine.array target).length = .ok 1) :
      FoldChain engine operation element target source n
        [foldPass engine operation element source target n 1]
  | step {source destination n lanes : Nat} {rest : List (Dispatch × Kernel)}
      (several : 1 < lanes) (le : lanes ≤ n) (width : (lanes : Int) ≤ engine.workgroupSize)
      (apart : source ≠ destination) (length : (engine.array destination).length = .ok lanes)
      (type : (engine.array destination).element = element)
      (chain : FoldChain engine operation element target destination lanes rest) :
      FoldChain engine operation element target source n
        (foldPass engine operation element source destination n lanes :: rest)

variable {engine : Engine} {operation : Operation} {element : ElementType} {source target n : Nat}

/-- A new row is allocated at the next buffer. -/
theorem newContiguous_row_eq {n buffer : Nat} (hpos : 0 < n) (hlt : n < 2 ^ 63)
    (h : outcomeOf (Action.newContiguous element [(n : Int)]) engine = .ok buffer) :
    ∃ size, storageBytes element n = .ok size ∧ engine.lost = none ∧ buffer = engine.nextBuffer ∧
      Layout.contiguousCount ([n].map Int.ofNat) = .ok n ∧
      stateAfter (Action.newContiguous element [(n : Int)]) engine =
        engine.allocated size (.fresh element [n]
          ((Layout.contiguous ([n].map Int.ofNat)).map Int.toNat) false n size) := by
  obtain ⟨extents, count, size, hextents, hcount, hsize, hlost, hbuffer, hafter⟩ :=
    newContiguous_eq_ok h
  have hrow : Shape.ofValue (.list ([(n : Int)].map .int)) = .ok [n] :=
    @ofValue_extents [n] (List.cons_ne_nil _ _) (by simpa using hpos)
  rw [hrow] at hextents
  cases hextents
  have hvolume : Shape.volume [n] = n := Nat.mul_one n
  have hlength : Layout.contiguousCount ([n].map Int.ofNat) = .ok n := by
    rw [Layout.contiguousCount_eq (by simpa using hpos) (by rwa [hvolume]), hvolume]
  obtain rfl : (n : Int) = count := Except.ok.inj (hlength.symm.trans hcount)
  exact ⟨size, hsize, hlost, hbuffer, hlength, hafter⟩

/-- The array between two passes: a fresh one, with an element for each lane. -/
theorem newContiguous_row {lanes buffer : Nat} (hnumbered : engine.Numbered) (hpos : 0 < lanes)
    (hlt : lanes < 2 ^ 63)
    (h : outcomeOf (Action.newContiguous element [(lanes : Int)]) engine = .ok buffer) :
    ∃ array,
      buffer = engine.nextBuffer ∧
      (stateAfter (Action.newContiguous element [(lanes : Int)]) engine).Numbered ∧
      Engine.Keeps engine (stateAfter (Action.newContiguous element [(lanes : Int)]) engine) ∧
      (stateAfter (Action.newContiguous element [(lanes : Int)]) engine).arrays.lookup buffer =
        some array ∧
      array.element = element ∧ array.length = .ok lanes := by
  obtain ⟨size, -, -, rfl, hlength, hafter⟩ := newContiguous_row_eq hpos hlt h
  rw [hafter]
  exact ⟨_, rfl, hnumbered.allocated, Engine.keeps_allocated _ _ _,
    hnumbered.lookup_allocated, rfl, hlength⟩

theorem Engine.Keeps.foldDispatch_eq {before after : Engine} {source destination : Nat}
    {n lanes : Int} (h : Engine.Keeps before after)
    (hsource : ∃ array, before.arrays.lookup source = some array)
    (hdestination : ∃ array, before.arrays.lookup destination = some array) :
    Action.foldDispatch after operation element source destination n lanes =
      Action.foldDispatch before operation element source destination n lanes := by
  simp only [Action.foldDispatch, h.array_eq hsource, h.array_eq hdestination, h.width]

/-- A pass is described by the types of the arrays it reads and writes, and by the width of a
workgroup. -/
theorem foldPass_congr {before after : Engine} {source destination lanes : Nat}
    (hsource : (after.array source).element = (before.array source).element)
    (hdestination : (after.array destination).element = (before.array destination).element)
    (hwidth : after.workgroupSize = before.workgroupSize) :
    foldPass after operation element source destination n lanes =
      foldPass before operation element source destination n lanes := by
  simp only [foldPass, Action.foldDispatch, outOperand, hsource, hdestination, hwidth]

/-- A pass is described the same later on. -/
theorem Engine.Keeps.foldPass_eq {before after : Engine} {source destination lanes : Nat}
    (h : Engine.Keeps before after)
    (hsource : ∃ array, before.arrays.lookup source = some array)
    (hdestination : ∃ array, before.arrays.lookup destination = some array) :
    foldPass after operation element source destination n lanes =
      foldPass before operation element source destination n lanes :=
  foldPass_congr (congrArg _ (h.array_eq hsource)) (congrArg _ (h.array_eq hdestination)) h.width

/-- The passes form the same chain while arrays keep their layouts. -/
theorem FoldChain.later {before after : Engine} {passes : List (Dispatch × Kernel)}
    (hsame : Engine.SameFixture before after)
    (h : FoldChain before operation element target source n passes) :
    FoldChain after operation element target source n passes := by
  have hpass (source destination n lanes : Nat) :
      foldPass after operation element source destination n lanes =
        foldPass before operation element source destination n lanes :=
    foldPass_congr (hsame.element source) (hsame.element destination) hsame.workgroupSize
  induction h with
  | last pos apart length =>
    rw [← hpass]
    exact .last pos apart (by rw [hsame.length, length])
  | step several le width apart length type _ ih =>
    rw [← hpass]
    exact .step several le (by rw [hsame.workgroupSize]; exact width) apart
      (by rw [hsame.length, length]) (by rw [hsame.element, type]) ih

theorem pos_of_ofValue {n : Int} {extents : List Nat}
    (h : Shape.ofValue (.list [.int n]) = .ok extents) : 0 < n := by
  by_contra hn
  have hints : (Value.list [.int n]).toIntList = .ok [n] := rfl
  unfold Shape.ofValue at h
  dsimp only at h
  rw [hints] at h
  simp [bind, Except.bind, throw, throwThe, MonadExceptOf.throw, not_lt.mp hn] at h

/-- A pass with a single lane writes the target, and one with more a fresh array. -/
theorem foldDestination_eq_ok {destination : Nat} {lanes : Int}
    (h : outcomeOf (Action.foldDestination element target lanes) engine = .ok destination) :
    (lanes = 1 ∧ destination = target ∧
      stateAfter (Action.foldDestination element target lanes) engine = engine) ∨
    (1 < lanes ∧ outcomeOf (Action.newContiguous element [lanes]) engine = .ok destination ∧
      stateAfter (Action.foldDestination element target lanes) engine =
        stateAfter (Action.newContiguous element [lanes]) engine) := by
  unfold Action.foldDestination at h ⊢
  by_cases hone : lanes = 1
  · rw [if_pos hone] at h ⊢
    cases h
    exact .inl ⟨hone, rfl, rfl⟩
  · rw [if_neg hone] at h ⊢
    obtain ⟨extents, -, -, hextents, -⟩ := newContiguous_eq_ok h
    have hpos := pos_of_ofValue hextents
    exact .inr ⟨by omega, h, rfl⟩

/-- The dispatches of the planned passes form a chain that follows the plan. -/
theorem chained_of_foldDispatches {dispatches : List Dispatch} {between : List Nat}
    {array : ArrayState} (hnumbered : engine.Numbered) (hwidth : 1 ≤ engine.workgroupSize)
    (hn : 1 ≤ n) (hlt : n < 2 ^ 63) (hsource : ∃ array, engine.arrays.lookup source = some array)
    (htarget : engine.arrays.lookup target = some array) (hlength : array.length = .ok 1)
    (hapart : source ≠ target)
    (h : outcomeOf (Action.foldDispatches operation element target source
      (Reduction.passes engine.workgroupSize n)) engine = .ok (dispatches, between)) :
    ∃ passes, passes.map Prod.fst = dispatches ∧
      List.Forall₂ FollowsPlan (Reduction.passes engine.workgroupSize n) passes ∧
      Engine.Keeps engine (stateAfter (Action.foldDispatches operation element target source
        (Reduction.passes engine.workgroupSize n)) engine) ∧
      FoldChain (stateAfter (Action.foldDispatches operation element target source
        (Reduction.passes engine.workgroupSize n)) engine) operation element target source n
          passes := by
  induction n using Nat.strong_induction_on generalizing engine source dispatches between with
  | _ n ih =>
    obtain ⟨hpos, hgrouped, hle⟩ := Reduction.lanes_bounds hwidth (Int.ofNat_le.mpr hn)
    obtain ⟨lanes, hlanes⟩ : ∃ lanes : Nat, Reduction.lanes engine.workgroupSize n = lanes :=
      ⟨(Reduction.lanes engine.workgroupSize n).toNat, by omega⟩
    rw [Reduction.passes, hlanes] at h ⊢
    rw [hlanes] at hpos hgrouped hle
    by_cases hseveral : 1 < (lanes : Int)
    · -- A pass into a fresh array, from which the rest goes on.
      rw [dif_pos hseveral] at h ⊢
      obtain ⟨destination, later, between', hdestination, hlater, rfl, -, hafter⟩ :=
        foldDispatches_cons_eq_ok h
      rw [hafter]
      rcases foldDestination_eq_ok hdestination with ⟨hone, -⟩ | ⟨-, hmade, hstate⟩
      · omega
      rw [hstate] at hlater ⊢
      obtain ⟨fresh, hfresh, hnumbered', hkeeps, hlookup, htype, hcount⟩ :=
        newContiguous_row hnumbered (by omega) (by omega) hmade
      set made := stateAfter (Action.newContiguous element [(lanes : Int)]) engine
      rw [← hkeeps.width] at hlater hwidth hgrouped ⊢
      have hless : lanes < n := by
        have hhalf := Reduction.lanes_le_half (hlanes ▸ hseveral)
        omega
      have hother : destination ≠ target := by
        have hold := hnumbered _ _ htarget
        omega
      obtain ⟨passes, hpasses, hplanned, hkeeps', hchain⟩ := ih lanes hless hnumbered' hwidth
        (by omega) (by omega) ⟨fresh, hlookup⟩ (hkeeps.arrays target array htarget) hother hlater
      obtain ⟨array', hsource⟩ := hsource
      have hsource' : ∃ array, made.arrays.lookup source = some array :=
        ⟨array', hkeeps.arrays source array' hsource⟩
      have hfound := hkeeps'.arrays destination fresh hlookup
      refine ⟨_, ?_, .cons (followsPlan_foldPass _ _ _ _ _ _ _) hplanned,
        IsTrans.trans _ _ _ hkeeps hkeeps', .step (by omega) (by omega) ?_ ?_ ?_ ?_ hchain⟩
      · rw [List.map_cons, hpasses, hkeeps'.foldPass_eq hsource' ⟨fresh, hlookup⟩]
        rfl
      · rw [hkeeps'.width]
        exact hgrouped
      · have hold := hnumbered _ _ hsource
        omega
      · rw [Engine.array, hfound]
        exact hcount
      · rw [Engine.array, hfound]
        exact htype
    · -- A single lane writes the target.
      have hone : (lanes : Int) = 1 := by omega
      rw [dif_neg hseveral] at h ⊢
      obtain ⟨destination, later, between', hdestination, hlater, rfl, -, hafter⟩ :=
        foldDispatches_cons_eq_ok h
      cases hlater
      rw [hafter]
      rcases foldDestination_eq_ok hdestination with ⟨-, rfl, hsame⟩ | ⟨hmore, -⟩
      · rw [Action.foldDispatches, stateAfter_pure, hsame, hone]
        refine ⟨_, rfl, .cons (followsPlan_foldPass _ _ _ _ _ _ _) .nil, Std.Refl.refl _,
          .last hn hapart ?_⟩
        rw [Engine.array, htarget]
        exact hlength
      · exact absurd hmore hseveral

end ComputeArray
