import ComputeArray.Proofs.Layout.Offset

/-!
# Reshaping

Elements are counted in machine words. A contiguous array has exactly as many elements as its shape
as long as these are less than 2^63, and then it takes exactly the shapes with as many elements;
products beyond wrap around (`reshapes_of_made`), so that other shapes are taken as well
(`reshape_beyond_words`). Whatever shape is taken, the elements stay where they are and keep their
row-major numbers.
-/

set_option autoImplicit false

namespace ComputeArray

open Engine

namespace Layout

open Shape

variable {shape : List Nat}

/-! ### Counting in words -/

theorem wrapWord_lt (n : Int) : -2 ^ 63 ≤ wrapWord n ∧ wrapWord n < 2 ^ 63 :=
  ⟨Int.le_bmod (by decide), Int.bmod_lt (by decide)⟩

/-- Words are wrapped once and for all. -/
theorem foldl_wrapWord_eq (words : List Int) (start : Int) :
    (words.map wrapWord).foldl (fun product word ↦ wrapWord (product * word)) (wrapWord start) =
      wrapWord (words.foldl (· * ·) start) := by
  induction words generalizing start with
  | nil => rfl
  | cons word rest ih =>
    have hstep : wrapWord (wrapWord start * wrapWord word) = wrapWord (start * word) :=
      (Int.mul_bmod start word (twoTo 64)).symm
    rw [List.map_cons, List.foldl_cons, List.foldl_cons, hstep, ih]

theorem foldl_mul_eq (shape : List Nat) (start : Nat) :
    (shape.map Int.ofNat).foldl (· * ·) (start : Int) = ((start * volume shape : Nat) : Int) := by
  induction shape generalizing start with
  | nil => simp
  | cons extent rest ih =>
    have hstep : (start : Int) * Int.ofNat extent = ((start * extent : Nat) : Int) :=
      (Int.natCast_mul start extent).symm
    rw [List.map_cons, List.foldl_cons, hstep, ih, volume_cons, Nat.mul_assoc]

/-- The product of extents below 2^63, wrapped around. -/
theorem contiguousCount_of_words (hwords : ∀ extent ∈ shape, extent < 2 ^ 63) :
    contiguousCount (shape.map Int.ofNat) = .ok (wrapWord (volume shape)) := by
  have hnone {p : Int → Bool} (h : ∀ extent : Nat, extent < 2 ^ 63 → p extent = false) :
      (shape.map Int.ofNat).any p = false := by
    rw [List.any_eq_false]
    intro extent hmem
    obtain ⟨n, hn, rfl⟩ := List.mem_map.mp hmem
    rw [Int.ofNat_eq_natCast, h n (hwords n hn)]
    exact Bool.false_ne_true
  have hfits : ((shape.map Int.ofNat).any fun extent ↦
      !Word.holdsSigned 64 extent && !Word.holdsUnsigned 64 extent) = false :=
    hnone fun extent hlt ↦ by rw [holdsSigned_iff.mpr hlt]; rfl
  have hlarge : ((shape.map Int.ofNat).any fun extent ↦ !Word.holdsSigned 64 extent) = false :=
    hnone fun extent hlt ↦ by rw [holdsSigned_iff.mpr hlt]; rfl
  have hextents : extentWords (shape.map Int.ofNat) =
      .ok ((shape.map Int.ofNat).map wrapWord) := by
    simp only [extentWords, hfits, hlarge, Bool.false_eq_true, false_and, if_false, bind,
      Except.bind, pure, Except.pure]
  have hone : wrapWord 1 = 1 := rfl
  have hfold := foldl_wrapWord_eq (shape.map Int.ofNat) 1
  rw [hone] at hfold
  have hproduct := foldl_mul_eq shape 1
  rw [Nat.one_mul] at hproduct
  rw [contiguousCount, hextents]
  change Except.ok _ = _
  rw [hfold, ← hproduct]
  rfl

/-- Counts are machine words. -/
theorem contiguousCount_lt {count : Int} (h : contiguousCount (shape.map Int.ofNat) = .ok count) :
    -2 ^ 63 ≤ count ∧ count < 2 ^ 63 := by
  obtain ⟨words, -, h⟩ := bind_eq_ok.mp h
  cases h
  rcases List.eq_nil_or_concat words with rfl | ⟨before, last, rfl⟩
  · decide
  · rw [List.concat_eq_append, List.foldl_append]
    exact wrapWord_lt _

/-- A word is congruent to what it has been wrapped from, and no other word is. -/
theorem wrapWord_eq_iff {n word : Int} (hword : -2 ^ 63 ≤ word ∧ word < 2 ^ 63) :
    wrapWord n = word ↔ n % 2 ^ 64 = word % 2 ^ 64 := by
  have hemod : wrapWord n % 2 ^ 64 = n % 2 ^ 64 := Int.bmod_emod
  have hbounds := wrapWord_lt n
  omega

end Layout

namespace Shape

/-- The shape a caller means by the arguments of a reshape: a single list stands for its items. -/
def given (extents : List Value) : Value :=
  match extents with
  | [.list items] => .list items
  | extents => .list extents

end Shape

namespace ArrayState

open Layout Shape

variable {array : ArrayState} {shape : List Nat}

/-- The array with its elements in another shape, row by row. -/
def reshaped (array : ArrayState) (shape : List Nat) : ArrayState :=
  { array with shape, strides := steps shape }

/-- The element with a number in row-major order. -/
def elementNumbered (array : ArrayState) (k : Nat) : Except Failure Value :=
  array.elementAt ((Shape.index array.shape k).map fun place : Nat ↦ Value.int place)

/-- A contiguous array takes a shape if the machine counts as many elements for it. -/
theorem WellLaid.reshape_iff (h : array.WellLaid) (hplain : array.customStrides = false)
    {value : Value} {updated : ArrayState} :
    array.reshape value = .ok updated ↔ ∃ shape, ofValue value = .ok shape ∧
      contiguousCount (shape.map Int.ofNat) = .ok array.count ∧ updated = array.reshaped shape := by
  rw [ArrayState.reshape_iff]
  constructor
  · rintro ⟨-, shape, length, hshape, hcount, hlength, rfl⟩
    obtain rfl := Except.ok.inj (hlength.symm.trans (h.length hplain))
    refine ⟨shape, hshape, hcount, ?_⟩
    rw [contiguous_toNat]
    rfl
  · rintro ⟨shape, hshape, hcount, rfl⟩
    refine ⟨hplain, shape, _, hshape, hcount, h.length hplain, ?_⟩
    rw [contiguous_toNat]
    rfl

/-- The machine's count is exact if and only if the product is less than 2^63. -/
theorem WellLaid.size_eq_iff (h : array.WellLaid) (hplain : array.customStrides = false) :
    array.size = volume array.shape ↔ volume array.shape < 2 ^ 63 := by
  have hlength := h.length hplain
  have hpos := volume_pos h.positive
  constructor
  · intro hsize
    have hlt := (contiguousCount_lt hlength).2
    unfold size at hsize
    omega
  · intro hlt
    have hcount := Except.ok.inj ((contiguousCount_eq h.positive hlt).symm.trans hlength)
    rw [size, ← hcount, Int.toNat_natCast]

/-- Elements are numbered as they are stored. -/
theorem Sound.elementNumbered_eq (h : array.Sound) (hplain : array.customStrides = false) {k : Nat}
    (hk : k < array.size) (hvolume : k < volume array.shape) :
    array.elementNumbered k =
      .ok (array.element.load (array.storage.element array.element.size k)) := by
  have hplace : offsetAt array.strides (Shape.index array.shape k) = k := by
    rw [h.laid.strides hplain, offsetAt_steps_index h.laid.positive hvolume]
  have hoffset := h.offset_of_locates (.of_within (index_lt h.laid.positive hvolume))
    (by rwa [hplace])
  rw [hplace] at hoffset
  rw [elementNumbered, elementAt, hoffset]
  rfl

theorem Sound.of_reshape {value : Value} {updated : ArrayState} (h : array.Sound)
    (hreshape : array.reshape value = .ok updated) : updated.Sound where
  laid := (descends_of_reshape hreshape).laid h.laid
  stored := by
    obtain ⟨_, _, rfl⟩ := reshape_eq_ok hreshape
    exact h.stored

/-- The logical elements of a contiguous array are all host elements in turn. -/
theorem WellLaid.viewElements_eq (h : array.WellLaid) (hplain : array.customStrides = false)
    (hvolume : volume array.shape < 2 ^ 63) {elements : List Nat}
    (hview : array.viewElements = .ok elements) : elements = array.hostElements := by
  obtain ⟨_, -, hview⟩ := bind_eq_ok.mp hview
  obtain ⟨_, -, hview⟩ := bind_eq_ok.mp hview
  cases hview
  rw [h.strides hplain, offsets_steps h.positive, ← (h.size_eq_iff hplain).mpr hvolume]
  rfl

end ArrayState

/-! ### Reshapes in a run -/

open Layout Shape

/-- How a contiguous array of an engine is counted, numbered and reshaped. -/
structure Engine.Reshapes (engine : Engine) (buffer : Nat) (array : ArrayState) : Prop where
  /-- There are as many elements as the shape has, unless no machine word counts these. -/
  size_eq_iff : array.size = volume array.shape ↔ volume array.shape < 2 ^ 63
  /-- A shape is taken if the machine counts as many elements for it as there are. -/
  takes_iff : ∀ extents, outcomeOf (Action.reshape buffer extents) engine = .ok ⟨⟩ ↔
    ∃ shape, ofValue (given extents) = .ok shape ∧
      contiguousCount (shape.map Int.ofNat) = .ok array.count
  /-- Among the shapes machine words count, these are those with as many elements. -/
  takes_iff_size : ∀ extents shape, ofValue (given extents) = .ok shape →
    volume shape < 2 ^ 63 → volume array.shape < 2 ^ 63 →
      (outcomeOf (Action.reshape buffer extents) engine = .ok ⟨⟩ ↔ volume shape = array.size)
  /-- Products of words are told apart modulo 2^64 only. -/
  takes_iff_emod : ∀ extents shape, ofValue (given extents) = .ok shape →
    (∀ extent ∈ shape, extent < 2 ^ 63) →
      (outcomeOf (Action.reshape buffer extents) engine = .ok ⟨⟩ ↔
        (volume shape : Int) % 2 ^ 64 = array.count % 2 ^ 64)
  /-- A shape that is taken replaces the shape and the strides, and nothing else. The elements keep
  their numbers. -/
  reshaped : ∀ extents, outcomeOf (Action.reshape buffer extents) engine = .ok ⟨⟩ →
    ∃ shape, ofValue (given extents) = .ok shape ∧
      stateAfter (Action.reshape buffer extents) engine =
        engine.setArray buffer (array.reshaped shape) ∧
      ∀ k, k < array.size → k < volume array.shape → k < volume shape →
        (array.reshaped shape).elementNumbered k = array.elementNumbered k
  refused : ∀ extents failure, outcomeOf (Action.reshape buffer extents) engine = .error failure →
    stateAfter (Action.reshape buffer extents) engine = engine
  /-- In whatever shape, elements are numbered as they are stored. -/
  numbered : ∀ k, k < array.size → k < volume array.shape →
    array.elementNumbered k =
      .ok (array.element.load (array.storage.element array.element.size k))
  viewed : volume array.shape < 2 ^ 63 → ∀ elements, array.viewElements = .ok elements →
    elements = array.hostElements

variable {before after : Engine} {buffer : Nat} {array : ArrayState}

/-- A shape is taken that is counted like the array, and any other request changes nothing. -/
theorem reshape_cases {engine : Engine} (hfound : engine.arrays.lookup buffer = some array)
    (hlaid : array.WellLaid) (hplain : array.customStrides = false) (extents : List Value) :
    (∃ shape, ofValue (given extents) = .ok shape ∧
      contiguousCount (shape.map Int.ofNat) = .ok array.count ∧
      outcomeOf (Action.reshape buffer extents) engine = .ok ⟨⟩ ∧
      stateAfter (Action.reshape buffer extents) engine =
        engine.setArray buffer (array.reshaped shape)) ∨
    (¬ (∃ shape, ofValue (given extents) = .ok shape ∧
        contiguousCount (shape.map Int.ofNat) = .ok array.count) ∧
      (∃ failure, outcomeOf (Action.reshape buffer extents) engine = .error failure) ∧
      stateAfter (Action.reshape buffer extents) engine = engine) := by
  have hreshape : Action.reshape buffer extents =
      Action.updateArray buffer (·.reshape (given extents)) := rfl
  rw [hreshape]
  rcases updateArray_cases engine buffer (·.reshape (given extents)) with
    ⟨failure, hfails, houtcome, hstate⟩ | ⟨updated, hupdated, houtcome, hstate⟩
  · refine .inr ⟨?_, ⟨failure, houtcome⟩, hstate⟩
    rintro ⟨shape, hshape, hcount⟩
    rw [array_of_lookup hfound] at hfails
    cases hfails.symm.trans ((hlaid.reshape_iff hplain).mpr ⟨shape, hshape, hcount, rfl⟩)
  · rw [array_of_lookup hfound] at hupdated
    obtain ⟨shape, hshape, hcount, rfl⟩ := (hlaid.reshape_iff hplain).mp hupdated
    exact .inl ⟨shape, hshape, hcount, houtcome, hstate⟩

/-- Contiguous arrays in good order are reshaped like this. -/
theorem reshapes_of_sound {engine : Engine} (hfound : engine.arrays.lookup buffer = some array)
    (hsound : array.Sound) (hplain : array.customStrides = false) :
    engine.Reshapes buffer array := by
  have hlaid := hsound.laid
  have htakes (extents : List Value) :
      outcomeOf (Action.reshape buffer extents) engine = .ok ⟨⟩ ↔
        ∃ shape, ofValue (given extents) = .ok shape ∧
          contiguousCount (shape.map Int.ofNat) = .ok array.count := by
    rcases reshape_cases hfound hlaid hplain extents with
      ⟨shape, hshape, hcount, houtcome, -⟩ | ⟨hnone, ⟨failure, houtcome⟩, -⟩
    · exact ⟨fun _ ↦ ⟨shape, hshape, hcount⟩, fun _ ↦ houtcome⟩
    · rw [houtcome]
      exact ⟨nofun, fun hsome ↦ absurd hsome hnone⟩
  -- Once the shape is known, only the counts are compared.
  have hcounts {extents : List Value} {shape : List Nat} {count : Int}
      (hshape : ofValue (given extents) = .ok shape)
      (hcount : contiguousCount (shape.map Int.ofNat) = .ok count) :
      outcomeOf (Action.reshape buffer extents) engine = .ok ⟨⟩ ↔ count = array.count := by
    rw [htakes]
    constructor
    · rintro ⟨other, hother, hsame⟩
      obtain rfl := Except.ok.inj (hshape.symm.trans hother)
      exact Except.ok.inj (hcount.symm.trans hsame)
    · rintro rfl
      exact ⟨shape, hshape, hcount⟩
  refine ⟨hlaid.size_eq_iff hplain, htakes, fun extents shape hshape hvolume hvolume' ↦ ?_,
    fun extents shape hshape hwords ↦ ?_, fun extents houtcome ↦ ?_,
    fun extents failure houtcome ↦ ?_, fun k ↦ hsound.elementNumbered_eq hplain,
    fun hvolume _ ↦ hlaid.viewElements_eq hplain hvolume⟩
  · obtain ⟨-, hpos⟩ := ofValue_spec hshape
    have hpos' := volume_pos hlaid.positive
    have hsize := (hlaid.size_eq_iff hplain).mpr hvolume'
    rw [hcounts hshape (contiguousCount_eq hpos hvolume), hsize]
    unfold ArrayState.size at hsize
    omega
  · have hcount := contiguousCount_lt (hlaid.length hplain)
    rw [hcounts hshape (contiguousCount_of_words hwords), wrapWord_eq_iff hcount]
  · rcases reshape_cases hfound hlaid hplain extents with
      ⟨shape, hshape, hcount, -, hstate⟩ | ⟨-, ⟨failure, hfails⟩, -⟩
    · refine ⟨shape, hshape, hstate, fun k hk hold hnew ↦ ?_⟩
      have hreshaped := hsound.of_reshape
        ((hlaid.reshape_iff hplain).mpr ⟨shape, hshape, hcount, rfl⟩)
      exact (hreshaped.elementNumbered_eq hplain hk hnew).trans
        (hsound.elementNumbered_eq hplain hk hold).symm
    · cases hfails.symm.trans houtcome
  · rcases reshape_cases hfound hlaid hplain extents with
      ⟨-, -, -, hok, -⟩ | ⟨-, -, hstate⟩
    · cases hok.symm.trans houtcome
    · exact hstate

/-- Whatever has happened since an array without strides was made, its elements are counted in
machine words, and it takes the shapes that are counted the same. -/
theorem reshapes_of_made {shape name : Value} (hreachable : before.Reachable)
    (hmade : outcomeOf (Action.newArray shape name .none) before = .ok buffer)
    (hleads : Leads Primitive.Any (stateAfter (Action.newArray shape name .none) before) after)
    (hfound : after.arrays.lookup buffer = some array) : after.Reshapes buffer array := by
  obtain ⟨hsound, hplain⟩ := sound_of_made hreachable hmade hleads hfound
  exact reshapes_of_sound hfound hsound (hplain.mpr rfl)

/-- A table of six elements, once it has been turned. -/
theorem reshapes_of_made_turned :
    let engine := idleCourse.workspace.engine
    let make := Action.newArray (.list [.int 2, .int 3]) (.text "i32") .none
    let turned := (stateAfter make engine).afterAll [.reshape 1 [.int 3, .int 2]]
    outcomeOf make engine = .ok 1 ∧ (turned.array 1).shape = [3, 2] ∧
      ∃ array, turned.arrays.lookup 1 = some array ∧ turned.Reshapes 1 array := by
  intro engine make turned
  have hmade : outcomeOf make engine = .ok 1 := eq_ok_iff.mpr (by decide +kernel)
  have hreachable : engine.Reachable := ⟨_, _, _, _, _, [], fun _ _ ↦ trivial, rfl⟩
  obtain ⟨array, hfound⟩ := Option.isSome_iff_exists.mp
    (show (turned.arrays.lookup 1).isSome = true by decide +kernel)
  exact ⟨hmade, by decide +kernel, array, hfound,
    reshapes_of_made hreachable hmade ⟨_, fun _ _ ↦ trivial, rfl⟩ hfound⟩

/-- Four elements are taken for those of a shape that has 2^64 more. -/
theorem reshape_beyond_words :
    let engine :=
      stateAfter (Action.newArray (.int 4) (.text "i32") .none) idleCourse.workspace.engine
    let reshape := Action.reshape 1 [.int 4611686018427387905, .int 4]
    let after := stateAfter reshape engine
    outcomeOf (Action.newArray (.int 4) (.text "i32") .none) idleCourse.workspace.engine = .ok 1 ∧
      outcomeOf reshape engine = .ok ⟨⟩ ∧ (after.array 1).size = 4 ∧
        volume (after.array 1).shape = 18446744073709551620 := by
  refine ⟨eq_ok_iff.mpr (by decide +kernel), eq_ok_iff.mpr (by decide +kernel), ?_, ?_⟩ <;>
    decide +kernel

end ComputeArray
