import ComputeArray.Proofs.Layout.Broadcast

/-!
# Least common shapes

Shapes are ordered by what an array can be stretched to, and the common shape of several is the
least one that all of them can be stretched to (`broadcast_eq_ok_iff`). So it depends neither on
their order nor on repetitions, and some of them may be broadcast first. There is none if and only
if two of the shapes have different extents on an axis, neither of them 1 (`leastCommon`).
-/

set_option autoImplicit false

namespace ComputeArray

namespace Shape

variable {shape target common first second : List Int} {shapes others : List (List Int)}

/-! ### Axes from the last one on -/

/-- The extent of an axis, the last one being axis 0. Missing leading axes have extent 1. -/
def fromLast (shape : List Int) (axis : Nat) : Int := shape.reverse.getD axis 1

theorem fromLast_of_length_le {axis : Nat} (h : shape.length ≤ axis) : fromLast shape axis = 1 :=
  List.getD_eq_default _ _ (by rwa [List.length_reverse])

theorem getD_eq_fromLast {position : Nat} (h : position < shape.length) :
    shape.getD position 1 = fromLast shape (shape.length - 1 - position) := by
  have hback : shape.length - 1 - (shape.length - 1 - position) = position := by omega
  rw [fromLast, List.getD_eq_getElem _ _ h,
    List.getD_eq_getElem _ _ (by rw [List.length_reverse]; omega), List.getElem_reverse]
  simp only [hback]

theorem getD_replicate_one (count axis : Nat) :
    (List.replicate count (1 : Int)).getD axis 1 = 1 := by
  rw [List.getD_eq_getElem?_getD, List.getElem?_replicate]
  split <;> rfl

theorem fromLast_pad (axes : Nat) (shape : List Int) (axis : Nat) :
    fromLast (pad axes shape) axis = fromLast shape axis := by
  rw [fromLast, pad, List.reverse_append, List.reverse_replicate, fromLast]
  by_cases hown : axis < shape.reverse.length
  · rw [List.getD_append _ _ _ _ hown]
  · rw [List.getD_append_right _ _ _ _ (Nat.le_of_not_lt hown), getD_replicate_one,
      List.getD_eq_default _ _ (Nat.le_of_not_lt hown)]

theorem length_pad {axes : Nat} (h : shape.length ≤ axes) : (pad axes shape).length = axes := by
  rw [pad, List.length_append, List.length_replicate]
  omega

theorem getD_pad {axes position : Nat} (hle : shape.length ≤ axes) (h : position < axes) :
    (pad axes shape).getD position 1 = fromLast shape (axes - 1 - position) := by
  have hlength := length_pad hle
  rw [getD_eq_fromLast (by rwa [hlength]), hlength, fromLast_pad]

/-- Shapes with equally many axes are the same if their extents are. -/
theorem eq_of_fromLast (hlength : first.length = second.length)
    (h : ∀ axis, fromLast first axis = fromLast second axis) : first = second := by
  refine List.ext_getElem hlength fun position hfirst hsecond ↦ ?_
  rw [← List.getD_eq_getElem _ 1 hfirst, ← List.getD_eq_getElem _ 1 hsecond,
    getD_eq_fromLast hfirst, getD_eq_fromLast hsecond, hlength, h]

/-! ### The order of stretching -/

/-- The target has all axes of the shape, and those of extent 1 may be longer in it. -/
structure Widens (shape target : List Int) : Prop where
  length_le : shape.length ≤ target.length
  extents : ∀ axis, fromLast shape axis = 1 ∨ fromLast shape axis = fromLast target axis

theorem Widens.refl (shape : List Int) : Widens shape shape :=
  ⟨Nat.le_refl _, fun _ ↦ .inr rfl⟩

theorem Widens.trans (hfirst : Widens first second) (hsecond : Widens second target) :
    Widens first target := by
  refine ⟨Nat.le_trans hfirst.length_le hsecond.length_le, fun axis ↦ ?_⟩
  rcases hfirst.extents axis with hone | hsame
  · exact .inl hone
  · rw [hsame]
    exact hsecond.extents axis

theorem Widens.antisymm (hfirst : Widens first second) (hsecond : Widens second first) :
    first = second := by
  refine eq_of_fromLast (Nat.le_antisymm hfirst.length_le hsecond.length_le) fun axis ↦ ?_
  rcases hfirst.extents axis with hone | hsame
  · rcases hsecond.extents axis with hone' | hsame
    · rw [hone, hone']
    · exact hsame.symm
  · exact hsame

/-- All shapes can be stretched to the target. -/
def Above (shapes : List (List Int)) (target : List Int) : Prop :=
  ∀ shape ∈ shapes, Widens shape target

/-- Two of the shapes have different extents on an axis, and neither of them is 1. -/
def Clash (shapes : List (List Int)) : Prop :=
  ∃ first ∈ shapes, ∃ second ∈ shapes, ∃ axis, fromLast first axis ≠ 1 ∧
    fromLast second axis ≠ 1 ∧ fromLast first axis ≠ fromLast second axis

theorem Clash.not_above (h : Clash shapes) : ¬ Above shapes target := by
  intro habove
  obtain ⟨first, hfirst, second, hsecond, axis, hone, hone', hne⟩ := h
  have hsame := ((habove first hfirst).extents axis).resolve_left hone
  have hsame' := ((habove second hsecond).extents axis).resolve_left hone'
  exact hne (hsame.trans hsame'.symm)

/-! ### One axis -/

/-- The extent common to an axis is that of all entries but ones, and it is one of them. -/
theorem axisExtent?_eq_some_iff {extents : List Int} {extent : Int} :
    axisExtent? extents = some extent ↔
      (∀ entry ∈ extents, entry = 1 ∨ entry = extent) ∧ (extent = 1 ∨ extent ∈ extents) := by
  refine ⟨axisExtent?_spec, fun ⟨hall, hsome⟩ ↦ ?_⟩
  unfold axisExtent?
  split
  · next hfilter =>
    have hones := List.filter_eq_nil_iff.mp hfilter
    rcases hsome with rfl | hmem
    · rfl
    · have hone : extent = 1 := by simpa using hones extent hmem
      rw [hone]
  · next first rest hfilter =>
    have hothers : ∀ entry ∈ first :: rest, entry = extent := by
      intro entry hmem
      rw [← hfilter, List.mem_filter, decide_eq_true_eq] at hmem
      exact (hall entry hmem.1).resolve_left hmem.2
    have hrest : (rest.all fun entry ↦ decide (entry = first)) = true := by
      rw [List.all_eq_true]
      intro entry hmem
      rw [decide_eq_true_eq, hothers entry (List.mem_cons_of_mem first hmem),
        hothers first List.mem_cons_self]
    rw [if_pos hrest, hothers first List.mem_cons_self]

/-- An axis has no common extent if two entries differ that are not 1. -/
theorem exists_ne_of_axisExtent? {extents : List Int} (h : axisExtent? extents = none) :
    ∃ first ∈ extents, ∃ second ∈ extents, first ≠ 1 ∧ second ≠ 1 ∧ first ≠ second := by
  unfold axisExtent? at h
  split at h
  · cases h
  · next first rest hfilter =>
    have hmem : ∀ entry ∈ first :: rest, entry ∈ extents ∧ entry ≠ 1 := by
      intro entry hentry
      rwa [← hfilter, List.mem_filter, decide_eq_true_eq] at hentry
    split at h
    · cases h
    · next hdiffer =>
      rw [Bool.not_eq_true, List.all_eq_false] at hdiffer
      obtain ⟨second, hsecond, hne⟩ := hdiffer
      obtain ⟨hin, hone⟩ := hmem first List.mem_cons_self
      obtain ⟨hin', hone'⟩ := hmem second (List.mem_cons_of_mem first hsecond)
      refine ⟨first, hin, second, hin', hone, hone', fun heq ↦ hne ?_⟩
      rw [heq, decide_eq_true rfl]

/-! ### The common shape -/

theorem exists_of_mapM_eq_none {α β : Type} {f : α → Option β} {items : List α}
    (h : items.mapM f = none) : ∃ item ∈ items, f item = none := by
  induction items with
  | nil => cases h
  | cons item rest ih =>
    cases hitem : f item with
    | none => exact ⟨item, List.mem_cons_self, hitem⟩
    | some result =>
      cases hrest : rest.mapM f with
      | none =>
        obtain ⟨other, hmem, hother⟩ := ih hrest
        exact ⟨other, List.mem_cons_of_mem item hmem, hother⟩
      | some results =>
        rw [List.mapM_cons, hitem, hrest] at h
        cases h

theorem foldl_max_le {lengths : List Nat} {start bound : Nat} (hstart : start ≤ bound)
    (h : ∀ length ∈ lengths, length ≤ bound) : lengths.foldl max start ≤ bound := by
  induction lengths generalizing start with
  | nil => exact hstart
  | cons length rest ih =>
    exact ih (Nat.max_le.mpr ⟨hstart, h length List.mem_cons_self⟩)
      fun other hmem ↦ h other (List.mem_cons_of_mem length hmem)

/-- The axes of the longest shape. -/
def mostAxes (shapes : List (List Int)) : Nat := (shapes.map List.length).foldl max 0

theorem length_le_mostAxes (hmem : shape ∈ shapes) : shape.length ≤ mostAxes shapes :=
  (le_foldl_max (shapes.map List.length) 0).2 _ (List.mem_map_of_mem hmem)

theorem mostAxes_le {bound : Nat} (h : ∀ shape ∈ shapes, shape.length ≤ bound) :
    mostAxes shapes ≤ bound := by
  refine foldl_max_le (Nat.zero_le _) fun length hmem ↦ ?_
  obtain ⟨shape, hshape, rfl⟩ := List.mem_map.mp hmem
  exact h shape hshape

/-- Broadcasting goes through the positions of the longest shape, which are its axes from the last
one on. -/
theorem column_eq {position : Nat} (h : position < mostAxes shapes) :
    ((shapes.map (pad (mostAxes shapes))).map fun shape ↦ shape.getD position 1) =
      shapes.map fun shape ↦ fromLast shape (mostAxes shapes - 1 - position) := by
  rw [List.map_map]
  exact List.map_congr_left fun shape hmem ↦ getD_pad (length_le_mostAxes hmem) h

/-- The common shape has the common extent on every axis. Without it, some axis has none. -/
theorem broadcast_cases (hne : shapes ≠ []) :
    (∃ common, broadcast shapes = .ok common ∧ common.length = mostAxes shapes ∧
      ∀ axis, axisExtent? (shapes.map (fromLast · axis)) = some (fromLast common axis)) ∨
    (broadcast shapes = .error (.incompatibleShapes shapes) ∧
      ∃ axis, axisExtent? (shapes.map (fromLast · axis)) = none) := by
  unfold broadcast
  split
  · exact absurd rfl hne
  · dsimp only
    rw [← mostAxes]
    split
    · next common hcommon =>
      have hextents := forall₂_of_mapM hcommon
      have hlength : common.length = mostAxes shapes := by
        rw [← hextents.length_eq, List.length_range]
      refine .inl ⟨common, rfl, hlength, fun axis ↦ ?_⟩
      by_cases haxis : axis < mostAxes shapes
      · have hposition : mostAxes shapes - 1 - axis < mostAxes shapes := by omega
        have hback : mostAxes shapes - 1 - (mostAxes shapes - 1 - axis) = axis := by omega
        have hposition' : mostAxes shapes - 1 - axis < common.length := by rwa [hlength]
        have hextent := hextents.get (by rwa [List.length_range]) hposition'
        rw [List.get_eq_getElem, List.get_eq_getElem, List.getElem_range] at hextent
        change axisExtent? _ = _ at hextent
        rwa [column_eq hposition, hback, ← List.getD_eq_getElem _ 1 hposition',
          getD_eq_fromLast hposition', hlength, hback] at hextent
      · have hle := Nat.le_of_not_lt haxis
        rw [fromLast_of_length_le (hlength ▸ hle), axisExtent?_eq_some_iff]
        refine ⟨fun entry hmem ↦ .inl ?_, .inl rfl⟩
        obtain ⟨shape, hshape, rfl⟩ := List.mem_map.mp hmem
        exact fromLast_of_length_le (Nat.le_trans (length_le_mostAxes hshape) hle)
    · next hnone =>
      obtain ⟨position, hposition, hcolumn⟩ := exists_of_mapM_eq_none hnone
      refine .inr ⟨rfl, mostAxes shapes - 1 - position, ?_⟩
      rw [← column_eq (List.mem_range.mp hposition)]
      exact hcolumn

/-- The common shape is above all shapes and below every shape that is. -/
theorem above_of_broadcast (h : broadcast shapes = .ok common) :
    Above shapes common ∧ ∀ target, Above shapes target → Widens common target := by
  have hne : shapes ≠ [] := by
    rintro rfl
    cases h
  rcases broadcast_cases hne with ⟨_, hcommon, hlength, hextents⟩ | ⟨herror, -⟩
  · obtain rfl : _ = common := Except.ok.inj (hcommon.symm.trans h)
    refine ⟨fun shape hmem ↦ ⟨?_, fun axis ↦ ?_⟩, fun target habove ↦ ⟨?_, fun axis ↦ ?_⟩⟩
    · rw [hlength]
      exact length_le_mostAxes hmem
    · exact (axisExtent?_spec (hextents axis)).1 _ (List.mem_map.mpr ⟨shape, hmem, rfl⟩)
    · rw [hlength]
      exact mostAxes_le fun shape hmem ↦ (habove shape hmem).length_le
    · rcases (axisExtent?_spec (hextents axis)).2 with hone | hmem
      · exact .inl hone
      · obtain ⟨shape, hshape, hextent⟩ := List.mem_map.mp hmem
        rw [← hextent]
        exact (habove shape hshape).extents axis
  · rw [herror] at h
    cases h

/-- Broadcasting fails only if shapes clash, and then names them all. -/
theorem clash_of_broadcast {failure : Failure} (hne : shapes ≠ [])
    (h : broadcast shapes = .error failure) :
    failure = .incompatibleShapes shapes ∧ Clash shapes := by
  rcases broadcast_cases hne with ⟨_, hcommon, -⟩ | ⟨herror, axis, hnone⟩
  · rw [hcommon] at h
    cases h
  · obtain ⟨_, hmem, _, hmem', hones⟩ := exists_ne_of_axisExtent? hnone
    obtain ⟨first, hfirst, rfl⟩ := List.mem_map.mp hmem
    obtain ⟨second, hsecond, rfl⟩ := List.mem_map.mp hmem'
    exact ⟨Except.error.inj (h.symm.trans herror), first, hfirst, second, hsecond, axis, hones⟩

/-- The common shape of some shapes is the least one above them. -/
theorem broadcast_eq_ok_iff (hne : shapes ≠ []) :
    broadcast shapes = .ok common ↔
      Above shapes common ∧ ∀ target, Above shapes target → Widens common target := by
  refine ⟨above_of_broadcast, fun ⟨habove, hleast⟩ ↦ ?_⟩
  cases h : broadcast shapes with
  | ok found =>
    obtain ⟨habove', hleast'⟩ := above_of_broadcast h
    rw [(hleast' common habove).antisymm (hleast found habove')]
  | error failure => exact absurd habove (clash_of_broadcast hne h).2.not_above

/-- The common shape depends on nothing but which shapes there are. -/
theorem broadcast_eq_ok_of_mem_iff (hmem : ∀ shape, shape ∈ shapes ↔ shape ∈ others)
    (h : broadcast shapes = .ok common) : broadcast others = .ok common := by
  obtain ⟨habove, hleast⟩ := above_of_broadcast h
  refine (broadcast_eq_ok_iff ?_).mpr ⟨fun shape hshape ↦ habove shape ((hmem shape).mpr hshape),
    fun target htarget ↦ hleast target fun shape hshape ↦ htarget shape ((hmem shape).mp hshape)⟩
  rintro rfl
  obtain rfl : shapes = [] :=
    List.eq_nil_iff_forall_not_mem.mpr fun shape hshape ↦
      List.not_mem_nil ((hmem shape).mp hshape)
  cases h

/-! ### Answers for different lists -/

/-- The same shape, or both times a clash of shapes. -/
inductive SameAnswer : Except Failure (List Int) → Except Failure (List Int) → Prop where
  | common (shape : List Int) : SameAnswer (.ok shape) (.ok shape)
  | clash (first second : List (List Int)) :
    SameAnswer (.error (.incompatibleShapes first)) (.error (.incompatibleShapes second))

/-- The answer depends on nothing but the shapes above. -/
theorem sameAnswer_of_above (hne : shapes ≠ []) (hne' : others ≠ [])
    (h : ∀ target, Above shapes target ↔ Above others target) :
    SameAnswer (broadcast shapes) (broadcast others) := by
  cases hfirst : broadcast shapes with
  | ok common =>
    obtain ⟨habove, hleast⟩ := above_of_broadcast hfirst
    have hsecond : broadcast others = .ok common := (broadcast_eq_ok_iff hne').mpr
      ⟨(h common).mp habove, fun target htarget ↦ hleast target ((h target).mpr htarget)⟩
    rw [hsecond]
    exact .common common
  | error failure =>
    obtain ⟨rfl, hclash⟩ := clash_of_broadcast hne hfirst
    cases hsecond : broadcast others with
    | ok common => exact absurd ((h common).mpr (above_of_broadcast hsecond).1) hclash.not_above
    | error failure =>
      obtain ⟨rfl, -⟩ := clash_of_broadcast hne' hsecond
      exact .clash _ _

/-- Two of the shapes may be broadcast first. -/
theorem sameAnswer_of_grouped {rest : List (List Int)}
    (hperm : shapes.Perm (first :: second :: rest)) :
    SameAnswer (do broadcast ((← broadcast [first, second]) :: rest)) (broadcast shapes) := by
  have hne : shapes ≠ [] := by
    rintro rfl
    exact absurd hperm.length_eq (by simp)
  have hsplit : ∀ target, Above shapes target ↔
      Above [first, second] target ∧ Above rest target := by
    intro target
    simp only [Above, hperm.mem_iff, List.mem_cons, List.not_mem_nil, or_false, forall_eq_or_imp,
      forall_eq]
    exact and_assoc.symm
  cases hpair : broadcast [first, second] with
  | ok middle =>
    obtain ⟨habove, hleast⟩ := above_of_broadcast hpair
    refine sameAnswer_of_above (List.cons_ne_nil _ _) hne fun target ↦ ?_
    rw [hsplit]
    constructor
    · intro h
      refine ⟨fun shape hmem ↦ (habove shape hmem).trans (h middle List.mem_cons_self),
        fun shape hmem ↦ h shape (List.mem_cons_of_mem middle hmem)⟩
    · rintro ⟨hfirst, hrest⟩ shape hmem
      rcases List.mem_cons.mp hmem with rfl | hmem
      · exact hleast target hfirst
      · exact hrest shape hmem
  | error failure =>
    obtain ⟨rfl, hclash⟩ := clash_of_broadcast (List.cons_ne_nil _ _) hpair
    cases hall : broadcast shapes with
    | ok common =>
      exact absurd ((hsplit common).mp (above_of_broadcast hall).1).1 hclash.not_above
    | error failure =>
      obtain ⟨rfl, -⟩ := clash_of_broadcast hne hall
      exact .clash _ _

end Shape

namespace Layout

open Shape

/-- Arrays of the shape can be read as if they had the target's, whatever their strides are. -/
def CanStretch (shape target : List Int) : Prop :=
  ∀ strides : List Int, strides.length = shape.length →
    ∃ bound, broadcast shape strides target = .ok bound

/-- An axis stretches if its extent is 1 or the wanted one; it takes no steps if it is stretched. -/
theorem stretch_cons (source goal extents rest strides : List Int) (extent wanted stride : Int)
    (axis : Nat) :
    stretch source goal axis (extent :: extents) (wanted :: rest) (stride :: strides) =
      if extent = 1 ∨ extent = wanted then
        (stretch source goal (axis + 1) extents rest strides).map
          ((if extent = wanted then stride else 0) :: ·)
      else .error (.cannotBroadcastAt source goal axis) := by
  rw [stretch]
  by_cases hsame : extent = wanted
  · rw [if_pos hsame, if_pos (.inr hsame), if_pos hsame]
    cases stretch source goal (axis + 1) extents rest strides <;> rfl
  · by_cases hone : extent = 1
    · rw [if_neg hsame, if_neg (not_not.mpr hone), if_pos (.inl hone), if_neg hsame]
      cases stretch source goal (axis + 1) extents rest strides <;> rfl
    · rw [if_neg hsame, if_pos hone, if_neg (not_or.mpr ⟨hone, hsame⟩)]
      rfl

/-- Strides of equally many axes stretch if and only if all axes do. -/
theorem exists_stretch_iff {source goal shape target strides : List Int} {axis : Nat}
    (hlength : shape.length = target.length) (hstrides : strides.length = shape.length) :
    (∃ bound, stretch source goal axis shape target strides = .ok bound) ↔
      List.Forall₂ (fun extent wanted ↦ extent = 1 ∨ extent = wanted) shape target := by
  induction shape generalizing target strides axis with
  | nil =>
    obtain rfl : target = [] := List.length_eq_zero_iff.mp hlength.symm
    exact ⟨fun _ ↦ .nil, fun _ ↦ ⟨strides, rfl⟩⟩
  | cons extent extents ih =>
    cases target with
    | nil => cases hlength
    | cons wanted rest =>
      cases strides with
      | nil => cases hstrides
      | cons stride strides =>
        have hrest := @ih rest strides (axis + 1) (Nat.succ.inj hlength) (Nat.succ.inj hstrides)
        rw [stretch_cons, List.forall₂_cons, ← hrest]
        by_cases haxis : extent = 1 ∨ extent = wanted
        · rw [if_pos haxis]
          cases stretch source goal (axis + 1) extents rest strides <;>
            simp [haxis, Except.map]
        · rw [if_neg haxis]
          simp [haxis]

theorem forall₂_pad_iff {shape target : List Int} (hle : shape.length ≤ target.length) :
    List.Forall₂ (fun extent wanted ↦ extent = 1 ∨ extent = wanted) (pad target.length shape)
      target ↔ ∀ axis, fromLast shape axis = 1 ∨ fromLast shape axis = fromLast target axis := by
  have hlength := length_pad hle
  rw [List.forall₂_iff_get]
  constructor
  · rintro ⟨-, h⟩ axis
    by_cases haxis : axis < target.length
    · have hposition : target.length - 1 - axis < target.length := by omega
      have hback : target.length - 1 - (target.length - 1 - axis) = axis := by omega
      have hextent := h _ (hlength.symm ▸ hposition) hposition
      rwa [List.get_eq_getElem, List.get_eq_getElem, ← List.getD_eq_getElem _ 1,
        ← List.getD_eq_getElem _ 1, getD_pad hle hposition, getD_eq_fromLast hposition, hback]
        at hextent
    · exact .inl (fromLast_of_length_le (Nat.le_trans hle (Nat.le_of_not_lt haxis)))
  · refine fun h ↦ ⟨hlength, fun position _ hposition ↦ ?_⟩
    rw [List.get_eq_getElem, List.get_eq_getElem, ← List.getD_eq_getElem _ 1,
      ← List.getD_eq_getElem _ 1, getD_pad hle hposition, getD_eq_fromLast hposition]
    exact h _

theorem canStretch_iff {shape target : List Int} :
    CanStretch shape target ↔ Widens shape target := by
  by_cases hle : shape.length ≤ target.length
  · have hbroadcast (strides : List Int) : broadcast shape strides target =
        stretch (pad target.length shape) target 0 (pad target.length shape) target
          (List.replicate (target.length - shape.length) 0 ++ strides) :=
      if_neg (Nat.not_lt.mpr hle)
    have haccepts (strides : List Int) (hstrides : strides.length = shape.length) :
        (∃ bound, broadcast shape strides target = .ok bound) ↔ Widens shape target := by
      rw [hbroadcast, exists_stretch_iff (length_pad hle) (by simp [pad, hstrides]),
        forall₂_pad_iff hle]
      exact ⟨fun h ↦ ⟨hle, h⟩, Widens.extents⟩
    exact ⟨fun h ↦ (haccepts shape rfl).mp (h shape rfl),
      fun h strides hstrides ↦ (haccepts strides hstrides).mpr h⟩
  · refine ⟨fun h ↦ ?_, fun h ↦ absurd h.length_le hle⟩
    obtain ⟨bound, hbound⟩ := h shape rfl
    rw [broadcast, if_pos (Nat.lt_of_not_le hle)] at hbound
    cases hbound

end Layout

namespace Shape

/-- What broadcasting makes of shapes: the least shape all of them can be stretched to. -/
structure LeastCommon (shapes : List (List Int)) : Prop where
  clashes : broadcast shapes = .error (.incompatibleShapes shapes) ↔ Clash shapes
  answers : Clash shapes ∨ ∃ common, broadcast shapes = .ok common
  /-- Neither order nor repetitions matter. -/
  members : ∀ others, (∀ shape, shape ∈ others ↔ shape ∈ shapes) →
    SameAnswer (broadcast others) (broadcast shapes)
  grouped : ∀ first second rest, shapes.Perm (first :: second :: rest) →
    SameAnswer (do broadcast ((← broadcast [first, second]) :: rest)) (broadcast shapes)
  stretches : ∀ common, broadcast shapes = .ok common →
    ∀ shape ∈ shapes, Layout.CanStretch shape common
  least : ∀ common target, broadcast shapes = .ok common →
    (∀ shape ∈ shapes, Layout.CanStretch shape target) → Layout.CanStretch common target

/-- Shapes have a least common shape unless two of them clash. -/
theorem leastCommon (shape : List Int) (rest : List (List Int)) : LeastCommon (shape :: rest) where
  clashes := by
    refine ⟨fun h ↦ (clash_of_broadcast (List.cons_ne_nil _ _) h).2, fun hclash ↦ ?_⟩
    cases h : broadcast (shape :: rest) with
    | ok common => exact absurd (above_of_broadcast h).1 hclash.not_above
    | error failure => rw [(clash_of_broadcast (List.cons_ne_nil _ _) h).1]
  answers := by
    cases h : broadcast (shape :: rest) with
    | ok common => exact .inr ⟨common, rfl⟩
    | error failure => exact .inl (clash_of_broadcast (List.cons_ne_nil _ _) h).2
  members others hmembers := by
    refine sameAnswer_of_above ?_ (List.cons_ne_nil _ _) fun target ↦ ?_
    · exact List.ne_nil_of_mem ((hmembers shape).mpr List.mem_cons_self)
    · exact forall_congr' fun other ↦ by rw [hmembers]
  grouped _ _ _ := sameAnswer_of_grouped
  stretches common h shape hmem := Layout.canStretch_iff.mpr ((above_of_broadcast h).1 shape hmem)
  least common target h htarget := Layout.canStretch_iff.mpr ((above_of_broadcast h).2 target
    fun shape hmem ↦ Layout.canStretch_iff.mp (htarget shape hmem))

end Shape

end ComputeArray
