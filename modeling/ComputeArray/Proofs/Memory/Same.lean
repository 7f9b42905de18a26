import ComputeArray.Engine.Access

/-!
# Vectors of the same bytes

Two vectors hold the same bytes if they have the same size and no position tells them apart; how
much of them is kept in memory does not count. Whatever reads elements finds the same in both, and
storing the same elements in both leaves the same bytes (`setValue_congr`).
-/

set_option autoImplicit false

namespace ComputeArray

namespace Bytes

/-- Vectors of equal size with the same bytes. -/
def Same (a b : Bytes) : Prop := a.size = b.size ∧ ∀ i, a.get i = b.get i

theorem Same.refl (bytes : Bytes) : Same bytes bytes := ⟨rfl, fun _ ↦ rfl⟩

/-! ### Storing -/

@[simp] theorem size_set (bytes : Bytes) (i : Nat) (byte : UInt8) :
    (bytes.set i byte).size = bytes.size := by
  obtain ⟨size, written⟩ := bytes
  simp only [set]
  split
  · rfl
  · split <;> rfl

theorem get_set (bytes : Bytes) (i j : Nat) (byte : UInt8) :
    (bytes.set i byte).get j = if i = j ∧ i < bytes.size then byte else bytes.get j := by
  obtain ⟨size, written⟩ := bytes
  by_cases hsize : size ≤ i
  · simp only [set, if_pos hsize]
    rw [if_neg (by omega)]
  · by_cases hwritten : i < written.size
    · simp only [set, if_neg hsize, if_pos hwritten, get, Array.getD_eq_getD_getElem?,
        Array.getElem?_setIfInBounds]
      by_cases hij : i = j
      · subst hij
        simp [show i < size by omega]
      · simp [hij]
    · have hpadding : (written ++ Array.replicate (i - written.size) 0).size = i := by
        simp
        omega
      have hpadded : ((written ++ Array.replicate (i - written.size) 0).push byte)[j]?.getD 0 =
          if i = j then byte else written[j]?.getD 0 := by
        rw [Array.getElem?_push, hpadding]
        by_cases hij : i = j
        · simp [hij]
        · rw [if_neg (Ne.symm hij), if_neg hij, Array.getElem?_append, Array.getElem?_replicate]
          by_cases hj : j < written.size
          · rw [if_pos hj]
          · rw [if_neg hj, Array.getElem?_eq_none (by omega)]
            split <;> rfl
      simp only [set, if_neg hsize, if_neg hwritten, get, Array.getD_eq_getD_getElem?, hpadded]
      by_cases hij : i = j
      · subst hij
        simp [show i < size by omega]
      · simp [hij]

theorem Same.set {a b : Bytes} (h : Same a b) (i : Nat) (byte : UInt8) :
    Same (a.set i byte) (b.set i byte) := by
  refine ⟨by simp [h.1], fun j ↦ ?_⟩
  rw [get_set, get_set, h.1, h.2 j]

@[simp] theorem size_putNumber (bytes : Bytes) (start n width : Nat) :
    (bytes.putNumber start n width).size = bytes.size := by
  induction width generalizing bytes start n with
  | zero => rfl
  | succ width ih => rw [putNumber, ih, size_set]

theorem Same.putNumber {a b : Bytes} (h : Same a b) (start n width : Nat) :
    Same (a.putNumber start n width) (b.putNumber start n width) := by
  induction width generalizing a b start n with
  | zero => exact h
  | succ width ih => exact ih (h.set _ _) _ _

@[simp] theorem size_putElements (bytes : Bytes) (width : Nat) (cells : List (Nat × Nat)) :
    (bytes.putElements width cells).size = bytes.size := by
  induction cells generalizing bytes with
  | nil => rfl
  | cons cell rest ih =>
    obtain ⟨position, n⟩ := cell
    rw [putElements, ih, putElement, size_putNumber]

theorem Same.putElements {a b : Bytes} (h : Same a b) (width : Nat) (cells : List (Nat × Nat)) :
    Same (a.putElements width cells) (b.putElements width cells) := by
  induction cells generalizing a b with
  | nil => exact h
  | cons cell rest ih =>
    obtain ⟨position, n⟩ := cell
    exact ih (h.putNumber _ _ _)

@[simp] theorem size_fill (bytes : Bytes) (width n count : Nat) :
    (bytes.fill width n count).size = bytes.size := by
  unfold fill
  induction count with
  | zero => rfl
  | succ count ih => rw [Nat.fold_succ, putElement, size_putNumber, ih]

theorem Same.fill {a b : Bytes} (h : Same a b) (width n count : Nat) :
    Same (a.fill width n count) (b.fill width n count) := by
  unfold Bytes.fill
  induction count with
  | zero => exact h
  | succ count ih =>
    rw [Nat.fold_succ, Nat.fold_succ]
    exact ih.putNumber _ _ _

@[simp] theorem size_overwrite (bytes : Bytes) (start : Nat) (patch : Bytes) :
    (bytes.overwrite start patch).size = bytes.size := by
  unfold overwrite
  split
  · next h => exact h.2
  · have hfold (count : Nat) : (count.fold (fun i _ bytes ↦ bytes.set (start + i) (patch.get i))
        bytes).size = bytes.size := by
      induction count with
      | zero => rfl
      | succ count ih => rw [Nat.fold_succ, size_set, ih]
    exact hfold patch.size

/-- A patch of the whole size replaces everything. -/
theorem overwrite_of_size_eq {bytes patch : Bytes} (h : patch.size = bytes.size) :
    bytes.overwrite 0 patch = patch := by
  rw [overwrite, if_pos ⟨rfl, h⟩]

/-- All of a vector is taken if as many bytes are asked for. -/
theorem same_take (bytes : Bytes) : Same (bytes.take bytes.size) bytes := by
  refine ⟨Nat.min_self _, fun i ↦ ?_⟩
  simp only [take, get, Nat.min_self, Array.getD_eq_getD_getElem?]
  by_cases hi : i < bytes.size
  · have hend : i < bytes.written.size ∨ bytes.written[i]? = none := by
      rcases Nat.lt_or_ge i bytes.written.size with h | h
      · exact .inl h
      · exact .inr (Array.getElem?_eq_none h)
    rcases hend with hend | hend
    · simp [hi, hend, Nat.lt_min.mpr ⟨hi, hend⟩]
    · simp [Array.getElem?_extract, hend]
  · simp [hi]

/-! ### Reading -/

theorem Same.number {a b : Bytes} (h : Same a b) (start width : Nat) :
    a.number start width = b.number start width := by
  induction width generalizing start with
  | zero => rfl
  | succ width ih => rw [Bytes.number, Bytes.number, h.2, ih]

theorem Same.element {a b : Bytes} (h : Same a b) : a.element = b.element := by
  funext width position
  exact h.number _ _

end Bytes

namespace ArrayState

/-- Arrays that differ at most in how their host copies are kept. -/
def Alike (array other : ArrayState) : Prop :=
  ∃ storage, other = { array with storage } ∧ storage.Same array.storage

theorem Alike.viewElements {array other : ArrayState} (h : array.Alike other) :
    other.viewElements = array.viewElements := by
  obtain ⟨storage, rfl, hsame⟩ := h
  unfold ArrayState.viewElements
  simp only [hsame.element]
  rfl

theorem Alike.elementAt {array other : ArrayState} (h : array.Alike other) (index : List Value) :
    other.elementAt index = array.elementAt index := by
  obtain ⟨storage, rfl, hsame⟩ := h
  unfold ArrayState.elementAt
  simp only [hsame.element]
  rfl

/-- The update fails whatever the host copy holds, or stores in any host copy in a way that keeps
its size and cannot tell vectors of the same bytes apart. -/
def StoresBy (array : ArrayState) (update : ArrayState → Except Failure ArrayState) : Prop :=
  (∃ failure, ∀ storage, update { array with storage } = .error failure) ∨
    ∃ change : Bytes → Bytes, (∀ bytes, (change bytes).size = bytes.size) ∧
      (∀ a b : Bytes, a.Same b → (change a).Same (change b)) ∧
      ∀ storage, update { array with storage } =
        .ok { array with storage := change storage, hostDirty := true }

theorem storesBy_setAt (array : ArrayState) (index : List Value) (value : Value) :
    array.StoresBy (·.setAt index value) := by
  cases hoffset : array.offset index with
  | error failure =>
    refine .inl ⟨failure, fun storage ↦ ?_⟩
    change (array.offset index >>= fun _ ↦ _) = _
    rw [hoffset]
    rfl
  | ok offset =>
    cases hbits : array.element.store value with
    | error failure =>
      refine .inl ⟨failure, fun storage ↦ ?_⟩
      change (array.offset index >>= fun _ ↦ array.element.store value >>= fun _ ↦ _) = _
      rw [hoffset, hbits]
      rfl
    | ok bits =>
      refine .inr ⟨fun bytes ↦ bytes.putElements array.element.size [(offset, bits)],
        fun bytes ↦ by simp, fun a b h ↦ h.putElements _ _, fun storage ↦ ?_⟩
      change (array.offset index >>= fun _ ↦ array.element.store value >>= fun _ ↦ _) = _
      rw [hoffset, hbits]
      rfl

theorem storesBy_fill (array : ArrayState) (value : Value) :
    array.StoresBy (·.fill value) := by
  cases hbits : array.element.store value with
  | error failure =>
    refine .inl ⟨failure, fun storage ↦ ?_⟩
    change (array.element.store value >>= fun _ ↦ _) = _
    rw [hbits]
    rfl
  | ok bits =>
    refine .inr ⟨fun bytes ↦ bytes.fill array.element.size bits array.size,
      fun bytes ↦ by simp, fun a b h ↦ h.fill _ _ _, fun storage ↦ ?_⟩
    change (array.element.store value >>= fun _ ↦ _) = _
    rw [hbits]
    rfl

theorem storesBy_setAll (array : ArrayState) (values : List Nat) :
    array.StoresBy (·.setAll values) := by
  cases hchecks : array.checkValues values with
  | error failure =>
    refine .inl ⟨failure, fun storage ↦ ?_⟩
    change (array.checkValues values >>= fun _ ↦ _) = _
    rw [hchecks]
    rfl
  | ok checked =>
    refine .inr ⟨fun bytes ↦ bytes.putElements array.element.size (array.placed values),
      fun bytes ↦ by simp, fun a b h ↦ h.putElements _ _, fun storage ↦ ?_⟩
    change (array.checkValues values >>= fun _ ↦ _) = _
    rw [hchecks]
    rfl

theorem storesBy_setValue (array : ArrayState) (index : List Value) (value : Value) :
    array.StoresBy (·.setValue index value) := by
  by_cases hindex : index.isEmpty = true
  · cases haxes : axesOf value with
    | error failure =>
      refine .inl ⟨failure, fun storage ↦ ?_⟩
      simp only [setValue, hindex, haxes]
      rfl
    | ok axes =>
      by_cases hzero : axes = 0
      · have hfill (storage : Bytes) : ({ array with storage } : ArrayState).setValue index value =
            ({ array with storage } : ArrayState).fill value := by
          simp only [setValue, hindex, haxes, hzero]
          rfl
        simpa only [StoresBy, hfill] using storesBy_fill array value
      · cases hvalues : array.element.storeAll value with
        | error failure =>
          refine .inl ⟨failure, fun storage ↦ ?_⟩
          simp only [setValue, hindex, haxes]
          change (if axes = 0 then _ else (array.element.storeAll value >>= fun _ ↦ _)) = _
          rw [if_neg hzero, hvalues]
          rfl
        | ok values =>
          have hall (storage : Bytes) :
              ({ array with storage } : ArrayState).setValue index value =
                ({ array with storage } : ArrayState).setAll values := by
            simp only [setValue, hindex, haxes]
            change (if axes = 0 then _ else (array.element.storeAll value >>= fun _ ↦ _)) = _
            rw [if_neg hzero, hvalues]
            rfl
          simpa only [StoresBy, hall] using storesBy_setAll array values
  · have hat (storage : Bytes) : ({ array with storage } : ArrayState).setValue index value =
        ({ array with storage } : ArrayState).setAt index value := by
      simp only [setValue, hindex]
      rfl
    simpa only [StoresBy, hat] using storesBy_setAt array index value

end ArrayState

end ComputeArray
