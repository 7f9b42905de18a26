import ComputeArray.Proofs.Layout.Placing
import ComputeArray.Proofs.Loading.Observed
import Mathlib.Order.Interval.Set.Defs

/-!
# Elements of an array in a run

Whatever has happened since an array was made, its elements lie where the dot products of its
strides with the places lead, and all three ways of writing them go by these offsets
(`laysOut_of_made`). Where several places lead to one element, the last of them in the order of the
strides decides, which need not be the last row by row (`elements_out_of_order`).
-/

set_option autoImplicit false

namespace ComputeArray

open Engine Layout Shape
open ArrayState (axesOf)

variable {engine before after : Engine} {buffer : Nat} {array updated : ArrayState}
  {index other : List Value} {value : Value} {places others shape : List Nat}

/-! ### Row-major numbers -/

namespace Layout

/-- Row-major numbers are in the order of the places. -/
theorem offsetAt_steps_lt_iff (hplaces : List.Forall₂ (· < ·) places shape)
    (hothers : List.Forall₂ (· < ·) others shape) :
    offsetAt (steps shape) places < offsetAt (steps shape) others ↔ places < others := by
  have hascending := List.pairwise_map.mp (pairwise_indices shape)
  have hlt {first second : List Nat} (hfirst : List.Forall₂ (· < ·) first shape)
      (hsecond : List.Forall₂ (· < ·) second shape)
      (hless : offsetAt (steps shape) first < offsetAt (steps shape) second) : first < second := by
    have hindex := List.pairwise_iff_getElem.mp hascending _ _
      (by rw [List.length_range]; exact offsetAt_steps_lt hfirst)
      (by rw [List.length_range]; exact offsetAt_steps_lt hsecond) hless
    rwa [List.getElem_range, List.getElem_range, index_offsetAt hfirst, index_offsetAt hsecond]
      at hindex
  refine ⟨hlt hplaces hothers, fun hless ↦ ?_⟩
  rcases Nat.lt_trichotomy (offsetAt (steps shape) places) (offsetAt (steps shape) others) with
    hbefore | hsame | hafter
  · exact hbefore
  · have heq : places = others := by rw [← index_offsetAt hplaces, hsame, index_offsetAt hothers]
    exact absurd (heq ▸ hless) (List.lt_irrefl _)
  · exact absurd hless (List.lt_asymm (hlt hothers hplaces hafter))

end Layout

namespace ArrayState

/-- The elements of a contiguous array are numbered row by row. -/
theorem WellLaid.bijOn_offsetAt (h : array.WellLaid) (hplain : array.customStrides = false)
    (hvolume : volume array.shape < 2 ^ 63) :
    Set.BijOn (offsetAt array.strides) {places | List.Forall₂ (· < ·) places array.shape}
      (Set.Iio array.size) := by
  rw [h.strides hplain, (h.size_eq_iff hplain).mpr hvolume]
  refine ⟨fun places hplaces ↦ offsetAt_steps_lt hplaces,
    fun places hplaces others hothers hsame ↦ ?_,
    fun k hk ↦ ⟨Shape.index array.shape k, index_lt h.positive hk,
      offsetAt_steps_index h.positive hk⟩⟩
  rw [← index_offsetAt hplaces, hsame, index_offsetAt hothers]

/-! ### Requests to store -/

/-- New bytes, as many as before, leave the array in good order. -/
theorem Sound.of_storage {storage : Bytes} (h : array.Sound)
    (hsize : storage.size = array.storage.size) :
    ({ array with storage, hostDirty := true } : ArrayState).Sound := by
  have hdescends : array.Descends { array with storage, hostDirty := true } := .of_layout rfl
  exact ⟨hdescends.laid h.laid, by rw [hsize]; exact h.stored⟩

theorem elementAt_of_offset {position : Nat} (h : array.offset index = .ok position) :
    array.elementAt index = .ok (array.element.load (array.bits position)) := by
  rw [elementAt, h]
  rfl

/-- There are three ways to store a value: at an index, in all elements, and element by element. -/
theorem Sound.setValue_eq_ok_iff (h : array.Sound) (hvolume : volume array.shape < 2 ^ 63) :
    array.setValue index value = .ok updated ↔
      (∃ places bits, Locates index array.shape places ∧ array.element.store value = .ok bits ∧
        updated = array.store [(offsetAt array.strides places, bits)]) ∨
      (index = [] ∧ axesOf value = .ok 0 ∧ ∃ bits, array.element.store value = .ok bits ∧
        updated = { array with
          storage := array.storage.fill array.element.size bits array.size
          hostDirty := true }) ∨
      (index = [] ∧ (∃ n, axesOf value = .ok (n + 1)) ∧
        ∃ values, array.element.storeAll value = .ok values ∧ values.length = volume array.shape ∧
          array.Tabular ∧ updated = array.store (array.placed values)) := by
  cases index with
  | cons component rest =>
    have hset : array.setValue (component :: rest) value =
        array.setAt (component :: rest) value := rfl
    rw [hset, h.setAt_eq_ok_iff hvolume]
    refine ⟨.inl, ?_⟩
    rintro (hset | ⟨hnil, -⟩ | ⟨hnil, -⟩)
    · exact hset
    · cases hnil
    · cases hnil
  | nil =>
    have hset : array.setValue [] value = (do
        if (← axesOf value) = 0 then array.fill value
        else array.setAll (← array.element.storeAll value)) := rfl
    rw [hset, bind_eq_ok]
    constructor
    · rintro ⟨axes, haxes, hupdate⟩
      cases axes with
      | zero =>
        obtain ⟨bits, hbits, hupdate⟩ := bind_eq_ok.mp hupdate
        exact .inr (.inl ⟨rfl, haxes, bits, hbits, (Except.ok.inj hupdate).symm⟩)
      | succ n =>
        obtain ⟨values, hvalues, hupdate⟩ := bind_eq_ok.mp hupdate
        obtain ⟨hcount, htabular, hupdated⟩ := (h.laid.setAll_eq_ok_iff hvolume).mp hupdate
        exact .inr (.inr ⟨rfl, ⟨n, haxes⟩, values, hvalues, hcount, htabular, hupdated⟩)
    · rintro (⟨places, -, hlocates, -⟩ | ⟨-, haxes, bits, hbits, rfl⟩ |
        ⟨-, ⟨n, haxes⟩, values, hvalues, hcount, htabular, hupdated⟩)
      · exact absurd (List.length_eq_zero_iff.mp hlocates.length_eq.symm) h.laid.nonempty
      · exact ⟨0, haxes, bind_eq_ok.mpr ⟨bits, hbits, rfl⟩⟩
      · exact ⟨n + 1, haxes, bind_eq_ok.mpr ⟨values, hvalues,
          (h.laid.setAll_eq_ok_iff hvolume).mpr ⟨hcount, htabular, hupdated⟩⟩⟩

end ArrayState

/-! ### Requests of an engine -/

namespace Engine

/-- A request that ends well and changes nothing but the host copy of an array, which then is as
described, with news for the device. -/
def Rewrites (engine : Engine) (buffer : Nat) (request : Action Unit)
    (written : ArrayState → Prop) : Prop :=
  outcomeOf request engine = .ok ⟨⟩ ∧ ∃ storage,
    let updated := { engine.array buffer with storage, hostDirty := true }
    written updated ∧ stateAfter request engine = engine.setArray buffer updated

section Requests

variable (hfound : engine.arrays.lookup buffer = some array) (hclean : array.deviceDirty = false)
include hfound

theorem hostElement_eq (index : List Value) :
    outcomeOf (Action.hostElement buffer index) engine = array.elementAt index := by
  simp only [Action.hostElement, outcomeOf_bind, outcomeOf_array, stateAfter_array,
    outcomeOf_actionOfExcept, array_of_lookup hfound]

include hclean

theorem getElement_of_clean (hidle : array.loading = .idle) (index : List Value) :
    outcomeOf (Action.getElement buffer index) engine = array.elementAt index ∧
      stateAfter (Action.getElement buffer index) engine = engine := by
  have harray := array_of_lookup hfound
  obtain ⟨houtcome, hstate⟩ := load_of_clean (harray ▸ hclean) (harray ▸ hidle)
  have hhost : stateAfter (Action.hostElement buffer index) engine = engine := by
    simp only [Action.hostElement, stateAfter_bind, outcomeOf_array, stateAfter_array,
      stateAfter_actionOfExcept]
  simp only [Action.getElement, outcomeOf_bind, stateAfter_bind, houtcome, hstate,
    hostElement_eq hfound, hhost, and_self]

theorem readElements_of_clean :
    outcomeOf (Action.readElements buffer) engine = array.viewElements := by
  have harray := array_of_lookup hfound
  obtain ⟨houtcome, hstate⟩ := loadBlocking_of_clean (harray ▸ hclean)
  simp only [Action.readElements, outcomeOf_bind, houtcome, hstate, outcomeOf_array,
    stateAfter_array, outcomeOf_actionOfExcept, harray]

/-- Without news on the device, a value is stored at once, or nothing happens. -/
theorem setValue_cases (value : Value) (index : List Value) :
    (∃ failure, array.setValue index value = .error failure ∧
      outcomeOf (Action.setValue buffer value index) engine = .error failure ∧
      stateAfter (Action.setValue buffer value index) engine = engine) ∨
    (∃ updated, array.setValue index value = .ok updated ∧
      outcomeOf (Action.setValue buffer value index) engine = .ok ⟨⟩ ∧
      stateAfter (Action.setValue buffer value index) engine = engine.setArray buffer updated) := by
  have harray := array_of_lookup hfound
  simp only [Action.setValue, outcomeOf_bind, stateAfter_bind, outcomeOf_array, stateAfter_array,
    harray, hclean]
  exact harray ▸ updateArray_cases engine buffer (·.setValue index value)

theorem setValue_of_ok (h : array.setValue index value = .ok updated) :
    outcomeOf (Action.setValue buffer value index) engine = .ok ⟨⟩ ∧
      stateAfter (Action.setValue buffer value index) engine = engine.setArray buffer updated := by
  rcases setValue_cases hfound hclean value index with
    ⟨failure, hfails, -⟩ | ⟨stored, hstored, houtcome, hstate⟩
  · cases hfails.symm.trans h
  · rw [Except.ok.inj (h.symm.trans hstored)]
    exact ⟨houtcome, hstate⟩

theorem rewrites_of_ok {storage : Bytes} {written : ArrayState → Prop}
    (h : array.setValue index value = .ok { array with storage, hostDirty := true })
    (hwritten : written { array with storage, hostDirty := true }) :
    engine.Rewrites buffer (Action.setValue buffer value index) written := by
  obtain ⟨houtcome, hstate⟩ := setValue_of_ok hfound hclean h
  refine ⟨houtcome, storage, ?_⟩
  rw [array_of_lookup hfound]
  exact ⟨hwritten, hstate⟩

end Requests

/-- How the elements of an array are laid out, got and set. -/
structure LaysOut (engine : Engine) (buffer : Nat) (array : ArrayState) : Prop where
  /-- A full index is accepted if its components lie within the extents, counted from either end. -/
  accepts_iff : ∀ index, (∃ value, outcomeOf (Action.hostElement buffer index) engine = .ok value) ↔
    List.Forall₂ (fun (component : Value) (extent : Nat) ↦
      ∃ i, component.toIndex = .ok i ∧ -(extent : Int) ≤ i ∧ i < extent) index array.shape
  /-- It leads to the host element at the dot product of the strides and its places. -/
  located : ∀ index places, Locates index array.shape places →
    array.offset index = .ok (offsetAt array.strides places) ∧
      offsetAt array.strides places < array.size ∧
      outcomeOf (Action.hostElement buffer index) engine =
        .ok (array.element.load (array.bits (offsetAt array.strides places)))
  reaches : ∃ places, List.Forall₂ (· < ·) places array.shape ∧
    offsetAt array.strides places + 1 = array.size
  /-- The elements of a contiguous array are numbered row by row. -/
  numbered : array.customStrides = false →
    Set.BijOn (offsetAt array.strides) {places | List.Forall₂ (· < ·) places array.shape}
      (Set.Iio array.size) ∧
    ∀ places others, List.Forall₂ (· < ·) places array.shape →
      List.Forall₂ (· < ·) others array.shape →
        (offsetAt array.strides places < offsetAt array.strides others ↔ places < others)
  /-- Getting an element loads nothing. -/
  got : array.loading = .idle → ∀ index,
    outcomeOf (Action.getElement buffer index) engine =
        outcomeOf (Action.hostElement buffer index) engine ∧
      stateAfter (Action.getElement buffer index) engine = engine
  /-- A value is stored at an index that is accepted, in all elements, or element by element. -/
  sets_iff : ∀ index value, outcomeOf (Action.setValue buffer value index) engine = .ok ⟨⟩ ↔
    ((∃ places, Locates index array.shape places) ∧ ∃ bits, array.element.store value = .ok bits) ∨
    (index = [] ∧ axesOf value = .ok 0 ∧
      ∃ bits, array.element.store value = .ok bits) ∨
    (index = [] ∧ (∃ n, axesOf value = .ok (n + 1)) ∧
      ∃ values, array.element.storeAll value = .ok values ∧
        values.length = volume array.shape ∧ array.Tabular)
  /-- The element at an index is replaced, and all other host elements stay. -/
  setElement : ∀ index places value bits, Locates index array.shape places →
    array.element.store value = .ok bits →
    engine.Rewrites buffer (Action.setValue buffer value index) fun updated ↦
      updated.bits (offsetAt array.strides places) = bits ∧
      ∀ position, position ≠ offsetAt array.strides places →
        updated.bits position = array.bits position
  /-- It is found at all indices that lead there. -/
  foundAgain : ∀ index places value bits, Locates index array.shape places →
    array.element.store value = .ok bits →
    ∀ other others, Locates other array.shape others →
      offsetAt array.strides others = offsetAt array.strides places →
      let after := stateAfter (Action.setValue buffer value index) engine
      outcomeOf (Action.hostElement buffer other) after = .ok (array.element.load bits) ∧
        (array.loading = .idle →
          outcomeOf (Action.getElement buffer other) after = .ok (array.element.load bits))
  /-- One value fills all host elements. -/
  setAlike : ∀ value bits, axesOf value = .ok 0 → array.element.store value = .ok bits →
    engine.Rewrites buffer (Action.setValue buffer value []) fun updated ↦
      ∀ position, position < array.size → updated.bits position = bits
  /-- Values replace all logical elements: of those that lead to one host element the last stays,
  and host elements no index leads to stay as they are. -/
  setAll : ∀ value n values, axesOf value = .ok (n + 1) →
    array.element.storeAll value = .ok values → values.length = volume array.shape →
    array.Tabular →
    engine.Rewrites buffer (Action.setValue buffer value []) fun updated ↦
      (∀ places, array.Last places → values[offsetAt (steps array.shape) places]? =
        some (updated.bits (offsetAt array.strides places))) ∧
      ∀ position, (∀ places, List.Forall₂ (· < ·) places array.shape →
          offsetAt array.strides places ≠ position) →
        updated.bits position = array.bits position
  /-- Of the places that lead to an element, some are last. -/
  last : ∀ places, List.Forall₂ (· < ·) places array.shape →
    ∃ last, array.Last last ∧ offsetAt array.strides last = offsetAt array.strides places
  /-- Where no two indices lead to the same element, the values are read back. -/
  readBack : ∀ value n values, axesOf value = .ok (n + 1) →
    array.element.storeAll value = .ok values → values.length = volume array.shape →
    array.Tabular → array.Injective →
      outcomeOf (Action.readElements buffer)
        (stateAfter (Action.setValue buffer value []) engine) = .ok values
  /-- A request that is refused changes nothing. -/
  refused : ∀ index value failure,
    outcomeOf (Action.setValue buffer value index) engine = .error failure →
      stateAfter (Action.setValue buffer value index) engine = engine

end Engine

section Sound

variable (hfound : engine.arrays.lookup buffer = some array) (hsound : array.Sound)
  (hvolume : volume array.shape < 2 ^ 63)
include hfound hsound hvolume

theorem hostElement_of_locates (hlocates : Locates index array.shape places) :
    outcomeOf (Action.hostElement buffer index) engine =
      .ok (array.element.load (array.bits (offsetAt array.strides places))) :=
  (hostElement_eq hfound index).trans (ArrayState.elementAt_of_offset
    (hsound.offset_of_locates hlocates (hsound.laid.offsetAt_lt hvolume hlocates.within)))

theorem exists_hostElement_iff :
    (∃ value, outcomeOf (Action.hostElement buffer index) engine = .ok value) ↔
      ∃ places, Locates index array.shape places := by
  refine ⟨fun ⟨value, hvalue⟩ ↦ ?_, fun ⟨places, hlocates⟩ ↦
    ⟨_, hostElement_of_locates hfound hsound hvolume hlocates⟩⟩
  rw [hostElement_eq hfound] at hvalue
  obtain ⟨position, hoffset, -⟩ := bind_eq_ok.mp hvalue
  obtain ⟨places, hlocates, -⟩ := hsound.laid.exists_locates hoffset
  exact ⟨places, hlocates⟩

variable (hclean : array.deviceDirty = false)
include hclean

theorem setValue_eq_ok_iff :
    outcomeOf (Action.setValue buffer value index) engine = .ok ⟨⟩ ↔
      ((∃ places, Locates index array.shape places) ∧
        ∃ bits, array.element.store value = .ok bits) ∨
      (index = [] ∧ axesOf value = .ok 0 ∧ ∃ bits, array.element.store value = .ok bits) ∨
      (index = [] ∧ (∃ n, axesOf value = .ok (n + 1)) ∧
        ∃ values, array.element.storeAll value = .ok values ∧
          values.length = volume array.shape ∧ array.Tabular) := by
  have hupdates : outcomeOf (Action.setValue buffer value index) engine = .ok ⟨⟩ ↔
      ∃ updated, array.setValue index value = .ok updated := by
    rcases setValue_cases hfound hclean value index with
      ⟨failure, hfails, houtcome, -⟩ | ⟨updated, hupdated, houtcome, -⟩
    · rw [hfails, houtcome]
      exact ⟨nofun, nofun⟩
    · exact ⟨fun _ ↦ ⟨updated, hupdated⟩, fun _ ↦ houtcome⟩
  rw [hupdates]
  simp only [hsound.setValue_eq_ok_iff hvolume, exists_or]
  constructor
  · rintro (⟨-, places, bits, hlocates, hbits, -⟩ | ⟨-, hnil, haxes, bits, hbits, -⟩ |
      ⟨-, hnil, haxes, values, hvalues, hcount, htabular, -⟩)
    · exact .inl ⟨⟨places, hlocates⟩, bits, hbits⟩
    · exact .inr (.inl ⟨hnil, haxes, bits, hbits⟩)
    · exact .inr (.inr ⟨hnil, haxes, values, hvalues, hcount, htabular⟩)
  · rintro (⟨⟨places, hlocates⟩, bits, hbits⟩ | ⟨hnil, haxes, bits, hbits⟩ |
      ⟨hnil, haxes, values, hvalues, hcount, htabular⟩)
    · exact .inl ⟨_, places, bits, hlocates, hbits, rfl⟩
    · exact .inr (.inl ⟨_, hnil, haxes, bits, hbits, rfl⟩)
    · exact .inr (.inr ⟨_, hnil, haxes, values, hvalues, hcount, htabular, rfl⟩)

/-- What has been stored at an index is found at all indices that lead there. -/
theorem hostElement_of_setValue {bits : Nat} (hlocates : Locates index array.shape places)
    (hbits : array.element.store value = .ok bits) (hothers : Locates other array.shape others)
    (hsame : offsetAt array.strides others = offsetAt array.strides places) :
    let after := stateAfter (Action.setValue buffer value index) engine
    outcomeOf (Action.hostElement buffer other) after = .ok (array.element.load bits) ∧
      (array.loading = .idle →
        outcomeOf (Action.getElement buffer other) after = .ok (array.element.load bits)) := by
  set stored := array.store [(offsetAt array.strides places, bits)] with hstored
  obtain ⟨-, hstate⟩ := setValue_of_ok hfound hclean
    ((hsound.setValue_eq_ok_iff hvolume).mpr (.inl ⟨places, bits, hlocates, hbits, hstored⟩))
  have hagain := lookup_setArray_self stored hfound
  have hother : outcomeOf (Action.hostElement buffer other) (engine.setArray buffer stored) =
      .ok (array.element.load bits) := by
    have hin := hsound.laid.offsetAt_lt hvolume hlocates.within
    rw [hostElement_of_locates hagain (hsound.of_storage (Bytes.size_putElements _ _ _)) hvolume
      hothers]
    refine congrArg (fun bits ↦ Except.ok (array.element.load bits)) ?_
    rw [← (hsound.bits_store hbits hin).1]
    exact congrArg stored.bits hsame
  dsimp only
  rw [hstate]
  refine ⟨hother, fun hidle ↦ ?_⟩
  rw [(getElement_of_clean hagain hclean hidle other).1, ← hostElement_eq hagain, hother]

/-- Arrays in good order are laid out like this. -/
theorem laysOut_of_sound : engine.LaysOut buffer array := by
  have hlaid := hsound.laid
  have hin {index : List Value} {places : List Nat} (hlocates : Locates index array.shape places) :
      offsetAt array.strides places < array.size := hlaid.offsetAt_lt hvolume hlocates.within
  refine
    { accepts_iff := fun index ↦ by
        rw [exists_hostElement_iff hfound hsound hvolume, Locates.exists_iff]
      located := fun index places hlocates ↦
        ⟨hsound.offset_of_locates hlocates (hin hlocates), hin hlocates,
          hostElement_of_locates hfound hsound hvolume hlocates⟩
      reaches := ⟨_, hlaid.last_within, (hlaid.size_eq hvolume).symm⟩
      numbered := fun hplain ↦
        ⟨hlaid.bijOn_offsetAt hplain hvolume, fun places others hplaces hothers ↦ by
          rw [hlaid.strides hplain]
          exact offsetAt_steps_lt_iff hplaces hothers⟩
      got := fun hidle index ↦ by
        rw [hostElement_eq hfound]
        exact getElement_of_clean hfound hclean hidle index
      sets_iff := fun index value ↦ setValue_eq_ok_iff hfound hsound hvolume hclean
      setElement := fun index places value bits hlocates hbits ↦ ?_
      foundAgain := fun index places value bits hlocates hbits other others hothers hsame ↦
        hostElement_of_setValue hfound hsound hvolume hclean hlocates hbits hothers hsame
      setAlike := fun value bits haxes hbits ↦ ?_
      setAll := fun value n values haxes hvalues hcount htabular ↦ ?_
      last := fun places hplaces ↦ hlaid.exists_last hplaces
      readBack := fun value n values haxes hvalues hcount htabular hinjective ↦ ?_
      refused := fun index value failure hfails ↦ ?_ }
  · exact rewrites_of_ok hfound hclean
      ((hsound.setValue_eq_ok_iff hvolume).mpr (.inl ⟨places, bits, hlocates, hbits, rfl⟩))
      (hsound.bits_store hbits (hin hlocates))
  · exact rewrites_of_ok hfound hclean
      ((hsound.setValue_eq_ok_iff hvolume).mpr (.inr (.inl ⟨rfl, haxes, bits, hbits, rfl⟩)))
      fun position hposition ↦ hsound.bits_fill hbits hposition
  · exact rewrites_of_ok hfound hclean
      ((hsound.setValue_eq_ok_iff hvolume).mpr
        (.inr (.inr ⟨rfl, ⟨n, haxes⟩, values, hvalues, hcount, htabular, rfl⟩)))
      ⟨fun places hlast ↦ hlaid.bits_of_last hlast hcount (ElementType.storeAll_lt hvalues)
        (hsound.le_storage (hlaid.offsetAt_lt hvolume hlast.within)),
        fun position hnone ↦ hlaid.bits_of_unreached hnone⟩
  · obtain ⟨-, hstate⟩ := setValue_of_ok hfound hclean
      ((hsound.setValue_eq_ok_iff hvolume).mpr
        (.inr (.inr ⟨rfl, ⟨n, haxes⟩, values, hvalues, hcount, htabular, rfl⟩)))
    have hagain := lookup_setArray_self (array.store (array.placed values)) hfound
    rw [hstate, readElements_of_clean hagain hclean]
    exact hsound.viewElements_placed hvolume htabular hinjective hcount
      (ElementType.storeAll_lt hvalues)
  · rcases setValue_cases hfound hclean value index with ⟨-, -, -, hstate⟩ | ⟨-, -, houtcome, -⟩
    · exact hstate
    · cases houtcome.symm.trans hfails

end Sound

/-- Whatever has happened since an array was made, with any strides or none, its elements are laid
out like this while the device has no news of them. -/
theorem laysOut_of_made {shape name strides : Value} (hreachable : before.Reachable)
    (hmade : outcomeOf (Action.newArray shape name strides) before = .ok buffer)
    (hleads : Leads Primitive.Any (stateAfter (Action.newArray shape name strides) before) after)
    (hfound : after.arrays.lookup buffer = some array) (hvolume : volume array.shape < 2 ^ 63)
    (hclean : array.deviceDirty = false) : after.LaysOut buffer array :=
  laysOut_of_sound hfound (sound_of_made hreachable hmade hleads hfound).1 hvolume hclean

/-- A new array of integers. -/
def newIntegers (shape strides : Value) : Engine :=
  stateAfter (Action.newArray shape (.text "i32") strides) idleCourse.workspace.engine

/-- A table of three rows with two columns, in which the rows overlap. -/
def overlappingRows : Engine := newIntegers (.list [.int 3, .int 2]) (.list [.int 1, .int 2])

theorem made_overlappingRows :
    outcomeOf (Action.newArray (.list [.int 3, .int 2]) (.text "i32") (.list [.int 1, .int 2]))
      idleCourse.workspace.engine = .ok 1 :=
  eq_ok_iff.mpr (by decide +kernel)

theorem reachable_idleCourse : idleCourse.workspace.engine.Reachable :=
  ⟨_, _, _, _, _, [], fun _ _ ↦ trivial, rfl⟩

/-- The last row of the table starts with the third element, and so does the column beside the
first. -/
theorem laysOut_of_made_overlapping :
    let after := overlappingRows.afterAll [.setValue 1 (.int 7) [.int (-1), .int 0]]
    (after.array 1).hostElements = [0, 0, 7, 0, 0] ∧
      ∃ array, after.arrays.lookup 1 = some array ∧ volume array.shape < 2 ^ 63 ∧
        array.deviceDirty = false ∧ after.LaysOut 1 array := by
  intro after
  obtain ⟨array, hfound⟩ := Option.isSome_iff_exists.mp
    (show (after.arrays.lookup 1).isSome = true by decide +kernel)
  have harray := array_of_lookup hfound
  have hvolume : volume array.shape < 2 ^ 63 := harray ▸ (by decide +kernel)
  have hclean : array.deviceDirty = false := harray ▸ (by decide +kernel)
  exact ⟨by decide +kernel, array, hfound, hvolume, hclean,
    laysOut_of_made reachable_idleCourse made_overlappingRows ⟨_, fun _ _ ↦ trivial, rfl⟩ hfound
      hvolume hclean⟩

/-- An element is set when one load has ended and an earlier one is still under way. -/
def storedMeanwhile : Engine :=
  countingEngine.afterAll [.submit [countingPass] [] [], .requestLoad 1, .startLoad 1,
    .loadBlocking 1, .setValue 1 (.int 7) [.int 0]]

theorem within_rows_iff : List.Forall₂ (· < ·) places [3, 2] ↔ places ∈ indices [3, 2] :=
  (mem_indices (by decide)).symm

/-- Columns have the larger stride, so the second column is stored after the first. -/
theorem last_of_overlapping (hshape : array.shape = [3, 2]) (hstrides : array.strides = [1, 2]) :
    array.Last [0, 1] := by
  have horder : axisOrder [1, 2] = [1, 0] := by
    simp [axisOrder, List.mergeSort, List.range, List.range.loop]
  refine ⟨by rw [hshape]; decide, ?_⟩
  rw [hshape, hstrides, horder]
  simp only [within_rows_iff]
  decide

/-- Of six values for the overlapping rows the fifth is the last, row by row, that leads to the
third element, where the second stays. A value is refused where the elements make no table, for the
number of the axes or the width of the strides. What has been set while a load is under way is not
what is got once the load has ended. -/
theorem elements_out_of_order :
    (let six := Value.list [.int 1, .int 2, .int 3, .int 4, .int 5, .int 6]
      let after := stateAfter (Action.setValue 1 six []) overlappingRows
      outcomeOf (Action.setValue 1 six []) overlappingRows = .ok ⟨⟩ ∧
        (∀ places, List.Forall₂ (· < ·) places [3, 2] →
          offsetAt [1, 2] places = offsetAt [1, 2] [2, 0] →
            offsetAt (steps [3, 2]) places ≤ offsetAt (steps [3, 2]) [2, 0]) ∧
        [1, 2, 3, 4, 5, 6][offsetAt (steps [3, 2]) [2, 0]]? = some 5 ∧
        (after.array 1).bits (offsetAt [1, 2] [2, 0]) = 2) ∧
    (let many := newIntegers (.list (List.replicate 65 (.int 1))) .none;
      (many.array 1).shape = List.replicate 65 1 ∧
        (outcomeOf (Action.setValue 1 (.list [.int 7]) []) many).toOption = none) ∧
    (let wide := newIntegers (.int 1) (.list [.int 4611686018427387904]);
      (wide.array 1).shape = [1] ∧ (wide.array 1).strides = [4611686018427387904] ∧
        (outcomeOf (Action.setValue 1 (.list [.int 7]) []) wide).toOption = none) ∧
    (storedMeanwhile.array 1).deviceDirty = false ∧
      (storedMeanwhile.array 1).hostElements = [7] ∧
      ((outcomeOf (Action.getElement 1 [.int 0]) storedMeanwhile).bind Value.toIndex).toOption =
        some 1 := by
  refine ⟨?_, by decide +kernel, by decide +kernel, by decide +kernel, by decide +kernel,
    by decide +kernel⟩
  intro six after
  obtain ⟨array, hfound⟩ := Option.isSome_iff_exists.mp
    (show (overlappingRows.arrays.lookup 1).isSome = true by decide +kernel)
  have harray := array_of_lookup hfound
  have hsound := (sound_of_made reachable_idleCourse made_overlappingRows (.refl _) hfound).1
  have hshape : array.shape = [3, 2] := harray ▸ (by decide +kernel)
  have hstrides : array.strides = [1, 2] := harray ▸ (by decide +kernel)
  have helement : array.element = .i32 := harray ▸ (by decide +kernel)
  have hclean : array.deviceDirty = false := harray ▸ (by decide +kernel)
  have hvolume : volume array.shape < 2 ^ 63 := hshape ▸ (by decide)
  have htabular : array.Tabular := ⟨by rw [hshape]; decide, by rw [hshape, helement]; decide,
    by rw [hstrides, helement]; decide⟩
  obtain ⟨houtcome, storage, ⟨hlasts, -⟩, hstate⟩ :=
    (laysOut_of_sound hfound hsound hvolume hclean).setAll six 0 [1, 2, 3, 4, 5, 6] rfl
      (by rw [helement]; rfl) (by rw [hshape]; rfl) htabular
  have hbits := hlasts [0, 1] (last_of_overlapping hshape hstrides)
  rw [hshape, hstrides] at hbits
  have hsame : offsetAt [1, 2] [2, 0] = offsetAt [1, 2] [0, 1] := rfl
  refine ⟨houtcome, ?_, rfl, ?_⟩
  · simp only [within_rows_iff]
    decide
  · rw [show after = _ from hstate, array_setArray_self _ hfound, hsame]
    exact (Option.some.inj hbits).symm

end ComputeArray
