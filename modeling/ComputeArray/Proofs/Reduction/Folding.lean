import Mathlib.Data.List.Nodup

/-!
# Folding in lanes

`foldOf` combines the elements of a list from the left. For an operation that is associative and
commutative, folding what each lane picks and then folding the lanes' results folds every element
exactly once (`foldOf_passResult`): the positions the lanes read are those of the list, each read by
one lane (`positions_perm`).
-/

set_option autoImplicit false

namespace ComputeArray.Reduction

variable {α : Type} (op : α → α → α)

/-! ### Folds -/

/-- The elements of a list combined from the left; an empty list has no fold. -/
def foldOf : List α → Option α
  | [] => none
  | first :: rest => some (rest.foldl op first)

section Associative

variable [Std.Associative op]

theorem foldl_op (a b : α) (rest : List α) : rest.foldl op (op a b) = op a (rest.foldl op b) := by
  induction rest generalizing b with
  | nil => rfl
  | cons c rest ih =>
    have hassoc : op (op a b) c = op a (op b c) := Std.Associative.assoc a b c
    rw [List.foldl_cons, List.foldl_cons, hassoc, ih]

theorem foldOf_cons (a : α) (rest : List α) :
    foldOf op (a :: rest) = Option.merge op (some a) (foldOf op rest) := by
  cases rest with
  | nil => rfl
  | cons b rest => exact congrArg some (foldl_op op a b rest)

theorem foldOf_append (first last : List α) :
    foldOf op (first ++ last) = Option.merge op (foldOf op first) (foldOf op last) := by
  induction first with
  | nil => exact Option.merge_none_left.symm
  | cons a rest ih =>
    rw [List.cons_append, foldOf_cons, ih, foldOf_cons, (Option.associative_merge op).assoc]

/-- Folding the folds of lists folds all their elements. -/
theorem foldOf_filterMap_foldOf (lists : List (List α)) :
    foldOf op (lists.filterMap (foldOf op)) = foldOf op lists.flatten := by
  induction lists with
  | nil => rfl
  | cons xs rest ih =>
    rw [List.flatten_cons, foldOf_append, ← ih]
    cases hfold : foldOf op xs with
    | none =>
      rw [List.filterMap_cons_none hfold]
      exact Option.merge_none_left.symm
    | some a => rw [List.filterMap_cons_some hfold, foldOf_cons]

/-- The order of the elements does not count. -/
theorem foldOf_perm [Std.Commutative op] {xs ys : List α} (h : xs.Perm ys) :
    foldOf op xs = foldOf op ys := by
  induction h with
  | nil => rfl
  | cons a _ ih => rw [foldOf_cons, foldOf_cons, ih]
  | swap a b rest =>
    have hassoc := (Option.associative_merge op).assoc
    have hcomm := (Option.commutative_merge op).comm (some b) (some a)
    rw [foldOf_cons, foldOf_cons, foldOf_cons, foldOf_cons, ← hassoc, ← hassoc, hcomm]
  | trans _ _ hfirst hlast => exact hfirst.trans hlast

end Associative

/-! ### What the lanes pick -/

/-- The positions a lane reads of the `n` ones there are: every `lanes`-th from its own on. -/
def positions (n lanes i : Nat) : List Nat := List.range' i ((n - i + lanes - 1) / lanes) lanes

theorem mem_positions {n lanes i p : Nat} (hlanes : 0 < lanes) (hi : i < lanes) :
    p ∈ positions n lanes i ↔ p < n ∧ p % lanes = i := by
  rw [positions, List.mem_range']
  constructor
  · rintro ⟨k, hk, rfl⟩
    have hsteps : (k + 1) * lanes ≤ n - i + lanes - 1 := (Nat.le_div_iff_mul_le hlanes).mp hk
    rw [Nat.add_mul, Nat.one_mul, Nat.mul_comm] at hsteps
    refine ⟨by omega, ?_⟩
    rw [Nat.add_mul_mod_self_left, Nat.mod_eq_of_lt hi]
  · rintro ⟨hp, rfl⟩
    have hsplit : p % lanes + lanes * (p / lanes) = p := Nat.mod_add_div p lanes
    refine ⟨p / lanes, (Nat.le_div_iff_mul_le hlanes).mpr ?_, hsplit.symm⟩
    rw [Nat.succ_mul, Nat.mul_comm]
    omega

/-- A lane starts at its own number and goes on from `lanes` further until it leaves the `n`. -/
theorem positions_cons {n lanes i : Nat} (hlanes : 0 < lanes) (hi : i < n) :
    ∃ count, positions n lanes i = i :: List.range' (i + lanes) count lanes ∧
      (∀ k < count, i + lanes + k * lanes < n) ∧ n ≤ i + lanes + count * lanes := by
  set total := (n - i + lanes - 1) / lanes with htotal
  have hpos : 0 < total := Nat.div_pos (by omega) hlanes
  have hle : total * lanes ≤ n - i + lanes - 1 := Nat.div_mul_le_self _ _
  have hlt : n - i + lanes - 1 < (total + 1) * lanes :=
    Nat.lt_mul_of_div_lt (Nat.lt_succ_self _) hlanes
  obtain ⟨count, hcount⟩ : ∃ count, total = count + 1 := ⟨total - 1, by omega⟩
  rw [hcount, Nat.succ_mul] at hle
  rw [hcount, Nat.succ_mul, Nat.succ_mul] at hlt
  refine ⟨count, ?_, fun k hk ↦ ?_, by omega⟩
  · rw [positions, ← htotal, hcount, List.range'_succ]
  · have hmul : k * lanes ≤ count * lanes - lanes := by
      rw [← Nat.pred_mul]
      exact Nat.mul_le_mul_right lanes (by simp; omega)
    have hstep : lanes ≤ count * lanes := Nat.le_mul_of_pos_left lanes (by omega)
    omega

theorem nodup_positions {n lanes i : Nat} (hlanes : 0 < lanes) : (positions n lanes i).Nodup :=
  List.nodup_range' lanes hlanes

/-- Each position is read by exactly one lane. -/
theorem positions_perm {n lanes : Nat} (hlanes : 0 < lanes) :
    ((List.range lanes).flatMap (positions n lanes)).Perm (List.range n) := by
  have hnodup : ((List.range lanes).flatMap (positions n lanes)).Nodup := by
    refine List.nodup_flatMap.mpr ⟨fun i _ ↦ nodup_positions hlanes, ?_⟩
    refine (List.nodup_range).imp_of_mem fun {i j} hi hj hne ↦ ?_
    intro p hp hp'
    rw [mem_positions hlanes (List.mem_range.mp hi)] at hp
    rw [mem_positions hlanes (List.mem_range.mp hj)] at hp'
    exact hne (hp.2.symm.trans hp'.2)
  refine (List.perm_ext_iff_of_nodup hnodup List.nodup_range).mpr fun p ↦ ?_
  rw [List.mem_flatMap, List.mem_range]
  constructor
  · rintro ⟨i, hi, hp⟩
    exact ((mem_positions hlanes (List.mem_range.mp hi)).mp hp).1
  · intro hp
    have hlt := Nat.mod_lt p hlanes
    exact ⟨p % lanes, List.mem_range.mpr hlt, (mem_positions hlanes hlt).mpr ⟨hp, rfl⟩⟩

/-- The elements a lane reads. -/
def picks (xs : List α) (lanes i : Nat) : List α := (positions xs.length lanes i).filterMap (xs[·]?)

/-- What a pass leaves: the folds of what its lanes pick. -/
def passResult (lanes : Nat) (xs : List α) : List α :=
  (List.range lanes).filterMap fun i ↦ foldOf op (picks xs lanes i)

/-- What a lane picks starts with the element at its own number. -/
theorem picks_cons {xs : List α} {lanes i : Nat} (hlanes : 0 < lanes) (hi : i < xs.length) :
    ∃ count,
      picks xs lanes i = xs[i] :: (List.range' (i + lanes) count lanes).filterMap (xs[·]?) ∧
      (∀ k < count, i + lanes + k * lanes < xs.length) ∧
      xs.length ≤ i + lanes + count * lanes := by
  obtain ⟨count, hpositions, hwithin, hend⟩ := positions_cons hlanes hi
  refine ⟨count, ?_, hwithin, hend⟩
  rw [picks, hpositions, List.filterMap_cons_some (List.getElem?_eq_getElem hi)]

theorem foldOf_picks_isSome {xs : List α} {lanes i : Nat} (hlanes : 0 < lanes)
    (hi : i < xs.length) : (foldOf op (picks xs lanes i)).isSome := by
  obtain ⟨count, hpicks, -⟩ := picks_cons hlanes hi
  rw [hpicks]
  rfl

/-- Every element is picked by exactly one lane. -/
theorem picks_perm {xs : List α} {lanes : Nat} (hlanes : 0 < lanes) :
    ((List.range lanes).map (picks xs lanes)).flatten.Perm xs := by
  have hpicks : ((List.range lanes).map (picks xs lanes)).flatten =
      ((List.range lanes).flatMap (positions xs.length lanes)).filterMap (xs[·]?) := by
    rw [List.filterMap_flatMap]
    rfl
  have hall : (List.range xs.length).filterMap (xs[·]?) = xs := by
    clear hpicks
    induction xs with
    | nil => rfl
    | cons x rest ih =>
      have hfirst : (x :: rest)[0]? = some x := rfl
      rw [List.length_cons, List.range_succ_eq_map, List.filterMap_cons_some hfirst,
        List.filterMap_map]
      exact congrArg (List.cons x) ih
  rw [hpicks]
  exact ((positions_perm hlanes).filterMap _).trans (List.Perm.of_eq hall)

theorem filterMap_range {n : Nat} {f : Nat → Option α} (h : ∀ i < n, (f i).isSome) :
    ((List.range n).filterMap f).length = n ∧
      ∀ i < n, ((List.range n).filterMap f)[i]? = f i := by
  induction n with
  | zero => exact ⟨rfl, fun i hi ↦ absurd hi (Nat.not_lt_zero i)⟩
  | succ n ih =>
    obtain ⟨hlength, hget⟩ := ih fun i hi ↦ h i (by omega)
    obtain ⟨a, ha⟩ := Option.isSome_iff_exists.mp (h n (Nat.lt_succ_self n))
    have hlast : (List.range (n + 1)).filterMap f = (List.range n).filterMap f ++ [a] := by
      rw [List.range_succ, List.filterMap_append, List.filterMap_cons_some ha, List.filterMap_nil]
    rw [hlast]
    refine ⟨by rw [List.length_append, hlength]; rfl, fun i hi ↦ ?_⟩
    by_cases hin : i < n
    · rw [List.getElem?_append_left (by omega), hget i hin]
    · have hsame : i = n := by omega
      rw [List.getElem?_append_right (by omega), hlength, hsame, Nat.sub_self, ha]
      rfl

/-- A pass leaves one result for each lane. -/
theorem passResult_spec {xs : List α} {lanes : Nat} (hle : lanes ≤ xs.length) :
    (passResult op lanes xs).length = lanes ∧
      ∀ i < lanes, (passResult op lanes xs)[i]? = foldOf op (picks xs lanes i) :=
  filterMap_range fun i hi ↦ foldOf_picks_isSome op (by omega) (by omega)

/-- A pass does not change the fold. -/
theorem foldOf_passResult [Std.Associative op] [Std.Commutative op] {xs : List α} {lanes : Nat}
    (hlanes : 0 < lanes) : foldOf op (passResult op lanes xs) = foldOf op xs := by
  have hresult : passResult op lanes xs =
      ((List.range lanes).map (picks xs lanes)).filterMap (foldOf op) := by
    rw [List.filterMap_map]
    rfl
  rw [hresult, foldOf_filterMap_foldOf]
  exact foldOf_perm op (picks_perm hlanes)

end ComputeArray.Reduction
