import ComputeArray.Proofs.Layout.Index
import Mathlib.Data.List.Forall2
import Mathlib.Data.List.GetD

/-!
# Broadcasting

Where shapes have a common shape, each of them stretches to it (`stretches_of_broadcast`). Then its
strides broadcast, and the broadcast strides reach at an index what the array's own strides reach at
the index of the source: the later components, with zero on axes of extent 1
(`offsetAt_boundStrides`).
-/

set_option autoImplicit false

namespace ComputeArray

namespace Shape

/-- A shape with leading axes of extent 1 up to the number of axes of another one. -/
def padded (shape target : List Nat) : List Nat :=
  List.replicate (target.length - shape.length) 1 ++ shape

/-- Each axis has the extent of the target or stretches to it. -/
def Stretches (shape target : List Nat) : Prop :=
  List.Forall₂ (fun extent wanted ↦ extent = 1 ∨ extent = wanted) (padded shape target) target

variable {shape target : List Nat}

theorem Stretches.length_le (h : Stretches shape target) : shape.length ≤ target.length := by
  have hlength := h.length_eq
  simp only [padded, List.length_append, List.length_replicate] at hlength
  omega

theorem Stretches.refl (shape : List Nat) : Stretches shape shape := by
  unfold Stretches padded
  rw [Nat.sub_self]
  exact List.forall₂_same.mpr fun _ _ ↦ .inr rfl

/-! ### Volumes -/

theorem volume_append (first second : List Nat) :
    volume (first ++ second) = volume first * volume second := by
  induction first with
  | nil => simp
  | cons extent rest ih => rw [List.cons_append, volume_cons, volume_cons, ih, Nat.mul_assoc]

theorem volume_replicate_one (count : Nat) : volume (List.replicate count 1) = 1 := by
  induction count with
  | zero => rfl
  | succ count ih => rw [List.replicate_succ, volume_cons, ih]

/-- Stretching does not make an array smaller. -/
theorem volume_le_of_stretches (h : Stretches shape target)
    (hpos : ∀ wanted ∈ target, 0 < wanted) : volume shape ≤ volume target := by
  have hvolume : volume shape = volume (padded shape target) := by
    rw [padded, volume_append, volume_replicate_one, Nat.one_mul]
  rw [hvolume]
  clear hvolume
  unfold Stretches at h
  generalize padded shape target = source at h
  induction h with
  | nil => exact Nat.le_refl _
  | @cons extent wanted extents rest hextent _ ih =>
    have hwanted : 0 < wanted := hpos wanted (by simp)
    have hle : extent ≤ wanted := by
      rcases hextent with rfl | rfl
      · exact hwanted
      · exact Nat.le_refl _
    exact Nat.mul_le_mul hle (ih fun other hmem ↦ hpos other (List.mem_cons_of_mem wanted hmem))

/-! ### The common shape -/

/-- An axis has the common extent or stretches to it, and the common extent is positive if all
extents are. -/
theorem axisExtent?_spec {extents : List Int} {common : Int}
    (h : axisExtent? extents = some common) :
    (∀ extent ∈ extents, extent = 1 ∨ extent = common) ∧ (common = 1 ∨ common ∈ extents) := by
  unfold axisExtent? at h
  split at h
  · next hfilter =>
    rw [List.filter_eq_nil_iff] at hfilter
    cases h
    refine ⟨fun extent hmem ↦ .inl ?_, .inl rfl⟩
    simpa using hfilter extent hmem
  · next first rest hfilter =>
    split at h
    · next hall =>
      cases h
      have hmem : ∀ extent, extent ∈ common :: rest ↔ extent ∈ extents ∧ extent ≠ 1 := by
        intro extent
        rw [← hfilter, List.mem_filter, decide_eq_true_eq]
      refine ⟨fun extent hextent ↦ ?_, .inr ((hmem common).mp (by simp)).1⟩
      by_cases hone : extent = 1
      · exact .inl hone
      · rcases List.mem_cons.mp ((hmem extent).mpr ⟨hextent, hone⟩) with rfl | hrest
        · exact .inr rfl
        · exact .inr (by simpa using List.all_eq_true.mp hall extent hrest)
    · cases h

theorem forall₂_of_mapM {α β : Type} {f : α → Option β} {items : List α} {results : List β}
    (h : items.mapM f = some results) :
    List.Forall₂ (fun item result ↦ f item = some result) items results := by
  induction items generalizing results with
  | nil =>
    cases h
    exact .nil
  | cons first rest ih =>
    rw [List.mapM_cons] at h
    obtain ⟨result, hfirst, h⟩ := Option.bind_eq_some_iff.mp h
    obtain ⟨later, hlater, h⟩ := Option.bind_eq_some_iff.mp h
    cases h
    exact .cons hfirst (ih hlater)

theorem le_foldl_max (lengths : List Nat) (start : Nat) :
    start ≤ lengths.foldl max start ∧ ∀ length ∈ lengths, length ≤ lengths.foldl max start := by
  induction lengths generalizing start with
  | nil => exact ⟨Nat.le_refl _, fun _ h ↦ by cases h⟩
  | cons first rest ih =>
    obtain ⟨hstart, hrest⟩ := ih (max start first)
    refine ⟨Nat.le_trans (Nat.le_max_left _ _) hstart, fun length hmem ↦ ?_⟩
    rcases List.mem_cons.mp hmem with rfl | hmem
    · exact Nat.le_trans (Nat.le_max_right _ _) hstart
    · exact hrest length hmem

/-- The common shape has, on each axis, the extent common to the entries there. -/
theorem broadcast_spec {shapes : List (List Nat)} {result : List Int}
    (h : broadcast (shapes.map (·.map Int.ofNat)) = .ok result) :
    (∀ shape ∈ shapes, shape.length ≤ result.length) ∧
      ∀ (axis : Nat) (haxis : axis < result.length),
        axisExtent? (shapes.map fun shape ↦
          (pad result.length (shape.map Int.ofNat)).getD axis 1) = some result[axis] := by
  unfold broadcast at h
  split at h
  · cases h
  · dsimp only at h
    split at h
    · next common hcommon =>
      cases h
      have hcolumns := forall₂_of_mapM hcommon
      have hlength := hcolumns.length_eq
      rw [List.length_range] at hlength
      rw [hlength] at hcolumns
      refine ⟨fun shape hmem ↦ ?_, fun axis haxis ↦ ?_⟩
      · have hle := (le_foldl_max (((shapes.map (·.map Int.ofNat))).map List.length) 0).2
          shape.length (by simpa using ⟨shape, hmem, rfl⟩)
        omega
      · have hcolumn := hcolumns.get (by simpa using haxis) haxis
        simpa [List.map_map, Function.comp_def] using hcolumn
    · cases h

/-- Each shape stretches to the common shape of all. -/
theorem stretches_of_broadcast {shapes : List (List Nat)} {common : List Nat}
    (h : broadcast (shapes.map (·.map Int.ofNat)) = .ok (common.map Int.ofNat))
    (hmem : shape ∈ shapes) : Stretches shape common := by
  obtain ⟨hlengths, hextents⟩ := broadcast_spec h
  have hle := hlengths shape hmem
  rw [List.length_map] at hle
  have hlength : (padded shape common).length = common.length := by
    simp only [padded, List.length_append, List.length_replicate]
    omega
  refine List.forall₂_iff_get.mpr ⟨hlength, fun axis haxis haxis' ↦ ?_⟩
  have hspec := axisExtent?_spec (hextents axis (by simpa using haxis'))
  have hextent := hspec.1 _ (List.mem_map.mpr ⟨shape, hmem, rfl⟩)
  have hpad : pad (common.map Int.ofNat).length (shape.map Int.ofNat) =
      (padded shape common).map Int.ofNat := by
    simp [pad, padded]
  rw [hpad, List.getD_eq_getElem _ _ (by simpa using haxis)] at hextent
  simp only [List.getElem_map] at hextent
  rcases hextent with hone | hcommon
  · exact .inl (Int.ofNat_inj.mp hone)
  · exact .inr (Int.ofNat_inj.mp hcommon)

/-- The common shape of positive shapes is positive. -/
theorem exists_common_of_broadcast {shapes : List (List Nat)} {result : List Int}
    (h : broadcast (shapes.map (·.map Int.ofNat)) = .ok result)
    (hpos : ∀ shape ∈ shapes, ∀ extent ∈ shape, 0 < extent) :
    ∃ common : List Nat, result = common.map Int.ofNat ∧ ∀ extent ∈ common, 0 < extent := by
  have hresult : ∀ extent ∈ result, 0 < extent := by
    intro extent hmem
    obtain ⟨axis, haxis, rfl⟩ := List.getElem_of_mem hmem
    rcases (axisExtent?_spec ((broadcast_spec h).2 axis haxis)).2 with hone | hfound
    · rw [hone]
      exact Int.one_pos
    · obtain ⟨shape, hshape, hextent⟩ := List.mem_map.mp hfound
      rw [← hextent]
      by_cases hin : axis < (pad result.length (shape.map Int.ofNat)).length
      · rw [List.getD_eq_getElem _ _ hin]
        have hentry := List.getElem_mem hin
        rcases List.mem_append.mp hentry with hpadding | hown
        · rw [List.eq_of_mem_replicate hpadding]
          exact Int.one_pos
        · obtain ⟨own, hown, heq⟩ := List.mem_map.mp hown
          rw [← heq]
          exact Int.natCast_pos.mpr (hpos shape hshape own hown)
      · rw [List.getD_eq_default _ _ (by omega)]
        exact Int.one_pos
  refine ⟨result.map Int.toNat, ?_, fun extent hmem ↦ ?_⟩
  · rw [List.map_map]
    refine (List.map_id' result).symm.trans (List.map_congr_left fun extent hmem ↦ ?_)
    exact (Int.toNat_of_nonneg (Int.le_of_lt (hresult extent hmem))).symm
  · obtain ⟨old, hold, rfl⟩ := List.mem_map.mp hmem
    have := hresult old hold
    omega

end Shape

namespace Layout

open Shape

variable {shape target strides index : List Nat}

/-- The index of the element an array is read at: its own axes are the later ones, and an axis of
extent 1 has one position only. -/
def sourceIndex (shape index : List Nat) : List Nat :=
  List.zipWith (fun extent m ↦ if extent = 1 then 0 else m) shape
    (index.drop (index.length - shape.length))

/-- The offset of the element an array with the given strides is read at. -/
def sourceOffset (shape strides index : List Nat) : Nat :=
  offsetAt strides (sourceIndex shape index)

/-- The strides of an array as it is read with a larger shape. -/
def stretched : List Nat → List Nat → List Nat → List Nat
  | extent :: extents, wanted :: rest, stride :: strides =>
    (if extent = wanted then stride else 0) :: stretched extents rest strides
  | _, _, _ => []

theorem stretch_eq (source goal : List Int) (axis : Nat)
    (h : List.Forall₂ (fun extent wanted ↦ extent = 1 ∨ extent = wanted) shape target)
    (hstrides : strides.length = shape.length) :
    stretch source goal axis (shape.map Int.ofNat) (target.map Int.ofNat)
      (strides.map Int.ofNat) = .ok ((stretched shape target strides).map Int.ofNat) := by
  induction h generalizing axis strides with
  | nil =>
    rw [List.length_nil, List.length_eq_zero_iff] at hstrides
    subst hstrides
    rfl
  | @cons extent wanted extents rest hextent _ ih =>
    cases strides with
    | nil => cases hstrides
    | cons stride strides =>
      have hrest := ih (axis + 1) (Nat.succ.inj hstrides)
      simp only [List.map_cons, stretch, hrest, stretched, bind, Except.bind, pure, Except.pure]
      by_cases hsame : extent = wanted
      · subst hsame
        simp
      · have hone : extent = 1 := hextent.resolve_right hsame
        subst hone
        have hne : ¬ (1 : Int) = (wanted : Int) := by omega
        simp [hsame, hne]

/-- At an index within the target, broadcast strides reach what the own strides reach at the source
index. -/
theorem offsetAt_stretched
    (h : List.Forall₂ (fun extent wanted ↦ extent = 1 ∨ extent = wanted) shape target)
    (hstrides : strides.length = shape.length) (hindex : List.Forall₂ (· < ·) index target) :
    offsetAt (stretched shape target strides) index =
      offsetAt strides (List.zipWith (fun extent m ↦ if extent = 1 then 0 else m) shape index) := by
  induction h generalizing strides index with
  | nil =>
    rw [List.length_nil, List.length_eq_zero_iff] at hstrides
    subst hstrides
    rfl
  | @cons extent wanted extents rest hextent _ ih =>
    cases hindex with
    | @cons m _ index _ hm hrest =>
      cases strides with
      | nil => cases hstrides
      | cons stride strides =>
        rw [stretched, List.zipWith_cons_cons, offsetAt_cons, offsetAt_cons,
          ih (Nat.succ.inj hstrides) hrest]
        congr 1
        by_cases hone : extent = 1
        · subst hone
          rw [if_pos rfl, Nat.mul_zero]
          by_cases hwanted : 1 = wanted
          · have hzero : m = 0 := by omega
            rw [hzero, Nat.mul_zero]
          · rw [if_neg hwanted, Nat.zero_mul]
        · rw [if_neg hone, if_pos (hextent.resolve_left hone)]

theorem length_stretched
    (h : List.Forall₂ (fun extent wanted ↦ extent = 1 ∨ extent = wanted) shape target)
    (hstrides : strides.length = shape.length) :
    (stretched shape target strides).length = target.length := by
  induction h generalizing strides with
  | nil => rfl
  | cons _ _ ih =>
    cases strides with
    | nil => cases hstrides
    | cons stride strides =>
      rw [stretched, List.length_cons, List.length_cons, ih (Nat.succ.inj hstrides)]

theorem offsetAt_replicate_zero (count : Nat) (strides first second : List Nat)
    (h : first.length = count) :
    offsetAt (List.replicate count 0 ++ strides) (first ++ second) = offsetAt strides second := by
  induction first generalizing count with
  | nil =>
    subst h
    rfl
  | cons m first ih =>
    subst h
    rw [List.length_cons, List.replicate_succ, List.cons_append, List.cons_append, offsetAt_cons,
      ih _ rfl, Nat.zero_mul, Nat.zero_add]

/-- The strides with which an array is read with a larger shape, the missing leading axes taking no
steps. -/
def boundStrides (shape strides target : List Nat) : List Nat :=
  stretched (padded shape target) target
    (List.replicate (target.length - shape.length) 0 ++ strides)

theorem length_padded_strides (h : Stretches shape target)
    (hstrides : strides.length = shape.length) :
    (List.replicate (target.length - shape.length) 0 ++ strides).length =
      (padded shape target).length := by
  have hle := h.length_le
  simp only [padded, List.length_append, List.length_replicate, hstrides]

theorem length_boundStrides (h : Stretches shape target)
    (hstrides : strides.length = shape.length) :
    (boundStrides shape strides target).length = target.length :=
  length_stretched h (length_padded_strides h hstrides)

/-- Strides broadcast to every shape the array stretches to. -/
theorem broadcast_eq (h : Stretches shape target) (hstrides : strides.length = shape.length) :
    broadcast (shape.map Int.ofNat) (strides.map Int.ofNat) (target.map Int.ofNat) =
      .ok ((boundStrides shape strides target).map Int.ofNat) := by
  have hle := h.length_le
  have hstretch := stretch_eq ((padded shape target).map Int.ofNat) (target.map Int.ofNat) 0 h
    (length_padded_strides h hstrides)
  unfold broadcast
  rw [List.length_map, List.length_map, if_neg (by omega)]
  simp only [padded, List.map_append, List.map_replicate] at hstretch
  exact hstretch

/-- At an index, the bound strides reach the offset of the source. -/
theorem offsetAt_boundStrides (h : Stretches shape target)
    (hstrides : strides.length = shape.length) (hindex : List.Forall₂ (· < ·) index target) :
    offsetAt (boundStrides shape strides target) index = sourceOffset shape strides index := by
  have hle := h.length_le
  have hcount : index.length = target.length := hindex.length_eq
  rw [boundStrides, offsetAt_stretched h (length_padded_strides h hstrides) hindex, sourceOffset,
    sourceIndex, hcount]
  set missing := target.length - shape.length with hmissing
  have hsplit : index = index.take missing ++ index.drop missing :=
    (List.take_append_drop missing index).symm
  have htake : (index.take missing).length = missing := by
    rw [List.length_take]
    omega
  have hzip : List.zipWith (fun extent m ↦ if extent = 1 then 0 else m) (padded shape target)
      index = List.zipWith (fun extent m ↦ if extent = 1 then 0 else m)
        (List.replicate missing 1) (index.take missing) ++
      List.zipWith (fun extent m ↦ if extent = 1 then 0 else m) shape (index.drop missing) := by
    rw [padded, ← hmissing]
    conv_lhs => rw [hsplit]
    exact List.zipWith_append (by rw [List.length_replicate, htake])
  rw [hzip]
  refine offsetAt_replicate_zero missing strides _ _ ?_
  rw [List.length_zipWith, List.length_replicate, htake, Nat.min_self]

end Layout

end ComputeArray
