import ComputeArray.Engine.Construct
import ComputeArray.Engine.Generator
import ComputeArray.Proofs.Lifetime.Queue

/-!
# Operations on live arrays

Operations, reductions, constructors and draws keep an engine orderly if the arrays they are given
are live. What they give is live as well, so that its number can be handed to a further operation.
-/

set_option autoImplicit false

namespace ComputeArray

open Engine

/-! ### Arrays among values -/

namespace Value

variable {values others : List Value} {inputs : List Nat}

theorem mem_arrays_iff {buffer : Nat} :
    buffer ∈ arrays values ↔ ∃ described, .array buffer described ∈ values := by
  rw [arrays, List.mem_filterMap]
  constructor
  · rintro ⟨value, hmem, hvalue⟩
    cases value with
    | array found described =>
      cases hvalue
      exact ⟨described, hmem⟩
    | _ => cases hvalue
  · rintro ⟨described, hmem⟩
    exact ⟨_, hmem, rfl⟩

theorem arrays_mono (h : values ⊆ others) : arrays values ⊆ arrays others := by
  intro buffer hmem
  obtain ⟨described, hvalue⟩ := mem_arrays_iff.mp hmem
  exact mem_arrays_iff.mpr ⟨described, h hvalue⟩

theorem arrays_singleton_subset {value : Value} (hmem : value ∈ .none :: values)
    (h : arrays values ⊆ inputs) : arrays [value] ⊆ inputs :=
  List.Subset.trans (arrays_mono (show [value] ⊆ .none :: values by simpa using hmem)) h

/-- The arrays among values, tables without axes standing for what they hold. -/
def heldArrays (values : List Value) : List Nat := arrays (values.map Action.unboxed)

theorem arrays_subset_heldArrays (values : List Value) : arrays values ⊆ heldArrays values := by
  intro buffer hmem
  obtain ⟨described, hvalue⟩ := mem_arrays_iff.mp hmem
  exact mem_arrays_iff.mpr ⟨described, List.mem_map.mpr ⟨_, hvalue, rfl⟩⟩

theorem heldArrays_append (values others : List Value) :
    heldArrays (values ++ others) = heldArrays values ++ heldArrays others := by
  rw [heldArrays, List.map_append, arrays, List.filterMap_append]
  rfl

theorem heldArrays_subset_iff :
    heldArrays values ⊆ inputs ↔ ∀ value ∈ values, heldArrays [value] ⊆ inputs := by
  induction values with
  | nil => simp [heldArrays, arrays]
  | cons value rest ih =>
    rw [← List.singleton_append, heldArrays_append, List.append_subset, ih]
    simp

theorem arrays_ordered (commutative : Bool) (operands : List Value) :
    arrays (Launch.ordered commutative operands) ⊆ arrays operands := by
  refine arrays_mono fun value hmem ↦ ?_
  unfold Launch.ordered at hmem
  split at hmem
  · exact hmem
  · exact List.mem_reverse.mp hmem
  · exact hmem

end Value

/-- The values of parameters are arguments, defaults or nothing. -/
theorem Signature.subset_of_bind {signature : Signature} {arguments values : List Value}
    {named : List (String × Value)} (h : signature.bind arguments named = .ok values) :
    values ⊆ .none :: (arguments ++ named.map Prod.snd ++ signature.optional.map Prod.snd) := by
  unfold Signature.bind at h
  dsimp only at h
  split at h
  · split at h <;> cases h
  · split at h
    · cases h
    · split at h
      · cases h
      · cases h
        set given := (signature.names.take arguments.length).zip arguments ++ named
        have hgiven {name : String} {value : Value} (hfound : given.lookup name = some value) :
            value ∈ arguments ++ named.map Prod.snd := by
          rcases List.mem_append.mp (mem_of_lookup hfound) with hmem | hmem
          · exact List.mem_append_left _ (List.of_mem_zip hmem).2
          · exact List.mem_append_right _ (List.mem_map.mpr ⟨_, hmem, rfl⟩)
        intro value hmem
        rw [List.mem_cons, List.mem_append]
        rcases List.mem_append.mp hmem with hmem | hmem
        · obtain ⟨name, -, rfl⟩ := List.mem_map.mp hmem
          cases hfound : given.lookup name with
          | none => exact .inl rfl
          | some value => exact .inr (.inl (hgiven hfound))
        · obtain ⟨⟨name, default⟩, hdefault, rfl⟩ := List.mem_map.mp hmem
          cases hfound : given.lookup name with
          | none => exact .inr (.inr (List.mem_map.mpr ⟨_, hdefault, rfl⟩))
          | some value => exact .inr (.inl (hgiven hfound))

/-- The arrays the values of parameters hold are among those of the arguments. -/
theorem Signature.heldArrays_of_bind {signature : Signature} {arguments values : List Value}
    {named : List (String × Value)} {inputs : List Nat}
    (hdefaults : Value.heldArrays (signature.optional.map Prod.snd) = [])
    (h : Value.heldArrays (arguments ++ named.map Prod.snd) ⊆ inputs)
    (hbind : signature.bind arguments named = .ok values) : Value.heldArrays values ⊆ inputs := by
  have hall : Value.heldArrays
      (.none :: (arguments ++ named.map Prod.snd ++ signature.optional.map Prod.snd)) ⊆ inputs := by
    rw [← List.singleton_append, Value.heldArrays_append, Value.heldArrays_append, hdefaults,
      List.append_nil]
    exact List.append_subset.mpr ⟨List.nil_subset _, h⟩
  exact Value.heldArrays_subset_iff.mpr fun value hmem ↦
    Value.heldArrays_subset_iff.mp hall value (subset_of_bind hbind hmem)

namespace KeepsOrder

variable {α : Type} {buffers inputs : List Nat} {buffer target : Nat}

theorem getD_mem_cons (items : List α) (i : Nat) (a : α) : items.getD i a ∈ a :: items := by
  rw [List.getD_eq_getElem?_getD]
  cases hitem : items[i]? with
  | none => exact List.mem_cons_self
  | some item => exact List.mem_cons_of_mem a (List.mem_of_getElem? hitem)

theorem map_snd_namedOutput (out : Option Value) :
    (Action.namedOutput out).map Prod.snd = out.toList := by
  rw [Action.namedOutput, List.map_map, Function.comp_def, List.map_id']

/-- The arrays among the values of an operation's parameters are among those it is called with. -/
theorem arrays_of_bind {signature : Signature} {arguments values : List Value}
    {out : Option Value}
    (hbind : signature.bind arguments (Action.namedOutput out) = .ok values)
    (hdefaults : Value.heldArrays (signature.optional.map Prod.snd) = [])
    (h : Value.heldArrays (arguments ++ out.toList) ⊆ inputs) : Value.arrays values ⊆ inputs := by
  refine List.Subset.trans (Value.arrays_subset_heldArrays _)
    (signature.heldArrays_of_bind hdefaults ?_ hbind)
  rwa [map_snd_namedOutput]

/-! ### New arrays -/

/-- A new array is live and none of the others. -/
def Made (buffers : List Nat) (made : Nat) : Assertion :=
  fun history engine ↦ made ∉ buffers ∧ AllLive (made :: buffers) history engine

theorem allocate (element : ElementType) (shape strides : List Nat) (customStrides : Bool)
    (count : Int) : KeepsOrder (AllLive buffers)
      (Action.allocate element shape strides customStrides count) (Made buffers) := by
  refine of_calm (calm_allocate _ _ _ _ _) fun history engine later made horderly hlive
    hundisturbed hok ↦ ?_
  obtain ⟨size, -, -, rfl, hstate⟩ := allocate_eq_ok hok
  refine ⟨fun hmem ↦ ?_, fun other hmem ↦ ?_⟩
  · exact Nat.not_succ_le_self _ (horderly.le_of_live (hlive _ hmem))
  · rcases List.mem_cons.mp hmem with rfl | hmem
    · rw [hstate, Live, tenure_of_lookup horderly.numbered_arrays.lookup_allocated]
      rfl
    · exact hundisturbed.calm.live (hlive other hmem)

theorem newArray (shape elementName strides : Value) : KeepsOrder (AllLive buffers)
    (Action.newArray shape elementName strides) (Made buffers) := by
  refine assertActive.bind fun _ ↦ (ofExcept _).bind fun element ↦
    (of_moves_eq (Moves.checkElement element)).bind fun _ ↦ (ofExcept _).bind fun extents ↦ ?_
  dsimp only
  split
  · exact (ofExcept _).bind fun count ↦ allocate _ _ _ _ _
  · exact (ofExcept _).bind fun given ↦ allocate _ _ _ _ _

theorem newContiguous (element : ElementType) (shape : List Int) : KeepsOrder (AllLive buffers)
    (Action.newContiguous element shape) (Made buffers) :=
  newArray _ _ _

/-! ### Outputs -/

/-- The array a kernel writes is live. If it is copied into a given one, it is a new one. -/
def Destined (buffers : List Nat) (destination : Nat × Option Nat) : Assertion :=
  fun history engine ↦
    (∀ given, destination.2 = some given → destination.1 ∉ buffers ∧ given ∈ buffers) ∧
      AllLive (destination.1 :: buffers) history engine

theorem output {out : Value} (shape : List Int) (element : ElementType) (inputs : List Nat)
    (hout : Value.arrays [out] ⊆ buffers) :
    KeepsOrder (AllLive buffers) (Action.output out shape element inputs) (Destined buffers) := by
  unfold Action.output
  split
  · refine (newContiguous _ _).bind fun made ↦ pure fun _ _ _ h ↦ ⟨?_, h.2⟩
    rintro _ ⟨⟩
  · next given described =>
    have hgiven : given ∈ buffers := hout (by simp [Value.arrays])
    refine (array _).bind fun array ↦ guard _ (guard _ ?_)
    refine ite (fun _ ↦ ?_) fun _ ↦ pure fun _ _ _ h ↦ ⟨?_, ?_⟩
    · refine (newContiguous _ _).bind fun made ↦ pure fun _ _ _ h ↦ ⟨?_, h.2⟩
      rintro _ ⟨⟩
      exact ⟨h.1, hgiven⟩
    · rintro _ ⟨⟩
    · exact List.forall_mem_cons.mpr ⟨h given hgiven, h⟩
  · exact throw _

theorem settleOutput (destination : Nat × Option Nat) : KeepsOrder (Destined buffers destination)
    (Action.settleOutput destination.1 destination.2) fun made ↦ AllLive (made :: buffers) := by
  obtain ⟨target, given⟩ := destination
  cases given with
  | none => exact pure fun _ _ _ h ↦ h.2
  | some out =>
    refine of_fact fun hapart ↦ ?_
    obtain ⟨hnew, hout⟩ := hapart out rfl
    refine ((release hnew).pre fun history engine horderly h ↦ ?_).bind fun _ ↦
      pure fun _ _ _ h ↦ List.forall_mem_cons.mpr ⟨h out hout, h⟩
    exact ⟨horderly.le_of_live (h target List.mem_cons_self),
      fun other hmem ↦ h other (List.mem_cons_of_mem target hmem)⟩

/-! ### Elementwise operations -/

theorem stridesBuffer {P : Assertion} (strides : List Int) (hP : Stable P) :
    KeepsOrder P (Action.stridesBuffer strides)
      fun fresh history engine ↦ P history engine ∧ engine.Spare history fresh := by
  refine (ofExcept _).bind fun words ↦ assertActive.bind fun _ ↦ ?_
  exact (created (calm_createFilledBuffer _ _) (fun _ ↦ rfl) (fun _ ↦ Array.size_push _) hP).post
    fun _ _ _ _ h ↦ ⟨h.2, h.1 _ List.mem_cons_self⟩

theorem stridesBuffersIf {P : Assertion} (strided : Bool) (names : List String)
    (operands : List Value) (shape : List Int) (hP : Stable P) :
    KeepsOrder P (Action.stridesBuffersIf strided names operands shape)
      fun helpers history engine ↦ AllSpare (helpers.map Prod.snd) history engine ∧
        P history engine := by
  have hspare (named : String × Nat) : Stable fun history engine ↦ engine.Spare history named.2 :=
    fun _ _ _ _ hundisturbed h ↦ hundisturbed.spare h
  have hinput (engine : Engine) (P : Assertion) (hP : Stable P) (named : String × Value) :
      KeepsOrder P (Action.operandStrides engine shape named) fun found history engine ↦
        P history engine ∧ ∀ helper ∈ found, engine.Spare history helper.2 := by
    obtain ⟨name, value⟩ := named
    cases value with
    | array buffer described =>
      refine (ofExcept _).bind fun strides ↦ (stridesBuffer strides hP).bind fun fresh ↦
        pure fun _ _ _ h ↦ ⟨h.1, ?_⟩
      rintro _ ⟨⟩
      exact h.2
    | _ => exact pure fun _ _ _ h ↦ ⟨h, nofun⟩
  refine ite (fun _ ↦ ?_) fun _ ↦ pure fun _ _ _ h ↦ ⟨nofun, h⟩
  refine get.bind fun engine ↦ (filterMapM _ hspare (hinput engine) hP).bind fun inputs ↦ ?_
  refine (stridesBuffer _ ?_).bind fun fresh ↦ pure fun history engine _ h ↦ ⟨?_, h.1.1⟩
  · exact hP.and fun _ _ _ _ hundisturbed h helper hmem ↦
      hspare helper _ _ _ _ hundisturbed (h helper hmem)
  · intro helper hmem
    obtain ⟨named, hnamed, rfl⟩ := List.mem_map.mp hmem
    rcases List.mem_append.mp hnamed with hnamed | hnamed
    · exact h.1.2 named hnamed
    · obtain rfl := List.mem_singleton.mp hnamed
      exact h.2

/-- A pass binds live arrays and spare helpers. -/
theorem elementwisePass (operation : Operation) {operands : List Value}
    (targets : List ElementType) (result : ElementType) (shape : List Int) (strided : Bool)
    {copies : List (Nat × Nat)} (hoperands : Value.arrays operands ⊆ buffers)
    (hcopies : ∀ copy ∈ copies, copy.1 ∈ target :: buffers ∧ copy.2 ∈ target :: buffers) :
    KeepsOrder (AllLive (target :: buffers))
      (Action.elementwisePass operation operands targets result shape strided target)
      fun made history engine ↦ AllUsable (usedBy [made.1] copies) history engine ∧
        AllSpare made.2 history engine ∧ AllLive (target :: buffers) history engine := by
  have hcreated : KeepsOrder (AllLive (target :: buffers))
      (Action.elementwisePass operation operands targets result shape strided target)
      fun made history engine ↦ AllSpare made.2 history engine ∧
        AllLive (target :: buffers) history engine :=
    get.bind fun engine ↦ (ofExcept _).bind fun plan ↦ (array _).bind fun array ↦
      (stridesBuffersIf _ _ _ _ (stable_allLive _)).bind fun helpers ↦ (ofExcept _).bind fun _ ↦
        (ofExcept _).bind fun _ ↦ pure fun _ _ _ h ↦ h
  refine (hcreated.and_fact fun _ _ ↦ bindings_of_elementwisePass).post
    fun made history engine horderly h ↦ ⟨fun buffer hmem ↦ ?_, h.2⟩
  obtain ⟨hbindings, hspare, hlive⟩ := h
  have husable {buffer : Nat} (hmem : buffer ∈ target :: buffers) :
      engine.Usable history buffer := horderly.usable_of_live (hlive buffer hmem)
  rw [usedBy, List.flatMap_singleton, List.mem_append] at hmem
  rcases hmem with hmem | hmem
  · obtain ⟨binding, hbinding, rfl⟩ := List.mem_map.mp hmem
    rcases hbindings binding hbinding with ⟨input, hinput, rfl⟩ | rfl | ⟨helper, hhelper, rfl⟩
    · exact husable (List.mem_cons_of_mem target (hoperands hinput))
    · exact husable List.mem_cons_self
    · exact (hspare helper hhelper).toUsable
  · obtain ⟨copy, hcopy, hmem⟩ := List.mem_flatMap.mp hmem
    simp only [List.mem_cons, List.not_mem_nil, or_false] at hmem
    rcases hmem with rfl | rfl
    · exact husable (hcopies copy hcopy).1
    · exact husable (hcopies copy hcopy).2

theorem mem_of_given {given : Option Nat} {copy : Nat × Nat}
    (hgiven : ∀ out, given = some out → target ∉ buffers ∧ out ∈ buffers)
    (hmem : copy ∈ given.toList.map fun out ↦ (target, out)) :
    copy.1 ∈ target :: buffers ∧ copy.2 ∈ target :: buffers := by
  obtain ⟨out, hout, rfl⟩ := List.mem_map.mp hmem
  exact ⟨List.mem_cons_self,
    List.mem_cons_of_mem target (hgiven out (Option.mem_toList.mp hout)).2⟩

theorem launch (operation : Operation) {operands : List Value} (targets : List ElementType)
    (result : ElementType) {out : Value} (hoperands : Value.arrays operands ⊆ buffers)
    (hout : Value.arrays [out] ⊆ buffers) :
    KeepsOrder (AllLive buffers) (Action.launch operation operands targets result out)
      fun made ↦ AllLive (made :: buffers) := by
  refine get.bind fun engine ↦ (ofExcept _).bind fun shape ↦
    (output _ _ _ hout).bind fun destination ↦ of_fact fun hapart ↦ ?_
  obtain ⟨target, given⟩ := destination
  refine (elementwisePass operation targets result shape _ hoperands
    fun copy ↦ mem_of_given hapart).bind fun made ↦ ?_
  exact (submit made.2).bind fun _ ↦
    (settleOutput (target, given)).pre fun _ _ _ h ↦ ⟨hapart, h⟩

theorem commonType (operands : List Value) :
    KeepsOrder (AllLive buffers) (Action.commonType operands) fun _ ↦ AllLive buffers :=
  of_moves_eq (Moves.commonType operands)

theorem elementwise (tag : String) {operands : List Value} {out : Value}
    (hoperands : Value.arrays operands ⊆ buffers) (hout : Value.arrays [out] ⊆ buffers) :
    KeepsOrder (AllLive buffers) (Action.elementwise tag operands out)
      fun made ↦ AllLive (made :: buffers) := by
  unfold Action.elementwise
  split
  · exact throw _
  · next operation _ =>
    have hordered :=
      List.Subset.trans (Value.arrays_ordered operation.commutative operands) hoperands
    exact guard _ (guard _ ((commonType _).bind fun common ↦ launch _ _ _ hordered hout))

theorem choose {condition yes no out : Value}
    (hoperands : Value.arrays [condition, yes, no] ⊆ buffers)
    (hout : Value.arrays [out] ⊆ buffers) :
    KeepsOrder (AllLive buffers) (Action.choose condition yes no out)
      fun made ↦ AllLive (made :: buffers) := by
  unfold Action.choose
  split
  · exact (commonType _).bind fun element ↦ (array _).bind fun _ ↦ launch _ _ _ hoperands hout
  · exact throw _

/-! ### Reductions -/

/-- The destination of a pass is the target or a new array. -/
theorem foldDestination (element : ElementType) (lanes : Int) :
    KeepsOrder (AllLive (target :: buffers)) (Action.foldDestination element target lanes)
      fun destination history engine ↦
        (lanes = 1 ∧ destination = target ∨ lanes ≠ 1 ∧ destination ∉ target :: buffers) ∧
          AllLive (destination :: target :: buffers) history engine := by
  refine ite (fun hone ↦ ?_) fun hne ↦ (newContiguous _ _).post fun _ _ _ _ h ↦
    ⟨.inr ⟨hne, h.1⟩, h.2⟩
  refine pure fun _ _ _ h ↦ ⟨.inl ⟨hone, rfl⟩, ?_⟩
  exact List.forall_mem_cons.mpr ⟨h target List.mem_cons_self, h⟩

/-- The passes of a reduction bind its source, its target and the arrays in between, which are new
and live. -/
theorem foldDispatches (operation : Operation) (element : ElementType)
    (passes : List (Int × Int)) {source : Nat} (hsource : source ∈ target :: buffers) :
    KeepsOrder (AllLive (target :: buffers))
      (Action.foldDispatches operation element target source passes)
      fun made history engine ↦ (∀ other ∈ made.2, other ∉ target :: buffers) ∧
        (usedBy made.1 [] ⊆ made.2 ++ target :: buffers) ∧
          AllLive (made.2 ++ target :: buffers) history engine := by
  induction passes generalizing source buffers with
  | nil => exact pure fun _ _ _ h ↦ ⟨nofun, List.nil_subset _, h⟩
  | cons pass rest ih =>
    obtain ⟨n, lanes⟩ := pass
    refine (foldDestination _ _).bind fun destination ↦ get.bind fun engine ↦ of_fact fun hnew ↦ ?_
    rcases hnew with ⟨hone, rfl⟩ | ⟨hne, hnew⟩
    · refine ((ih List.mem_cons_self).pre fun _ _ _ h ↦ (List.forall_mem_cons.mp h).2).bind
        fun made ↦ pure fun _ _ _ h ↦ ?_
      obtain ⟨hapart, hused, hlive⟩ := h
      rw [if_pos hone, List.nil_append, usedBy_cons]
      refine ⟨hapart, List.append_subset.mpr ⟨?_, hused⟩, hlive⟩
      intro buffer hmem
      simp only [Action.foldDispatch, List.map_cons, List.map_nil, Resource.buffer] at hmem
      grind
    · have hnext : destination ∈ target :: destination :: buffers := by simp
      refine ((ih hnext).pre fun _ _ _ h ↦ ?_).bind fun made ↦ pure fun _ _ _ h ↦ ?_
      · exact fun other hmem ↦ h other (by grind)
      · obtain ⟨hapart, hused, hlive⟩ := h
        rw [if_neg hne, usedBy_cons]
        refine ⟨by grind, ?_, fun other hmem ↦ hlive other (by grind)⟩
        intro buffer hmem
        simp only [Action.foldDispatch, List.map_cons, List.map_nil, Resource.buffer] at hmem
        grind

theorem usedBy_subset_of_given {dispatches : List Dispatch} {between : List Nat}
    {given : Option Nat} (hused : usedBy dispatches [] ⊆ between ++ target :: buffers)
    (hgiven : ∀ out, given = some out → target ∉ buffers ∧ out ∈ buffers) :
    usedBy dispatches (given.toList.map fun out ↦ (target, out)) ⊆
      between ++ target :: buffers := by
  rw [usedBy, List.flatMap_nil, List.append_nil] at hused
  refine List.append_subset.mpr ⟨hused, fun buffer hmem ↦ ?_⟩
  obtain ⟨copy, hcopy, hmem⟩ := List.mem_flatMap.mp hmem
  simp only [List.mem_cons, List.not_mem_nil, or_false] at hmem
  refine List.mem_append_right between ?_
  rcases hmem with rfl | rfl
  · exact (mem_of_given hgiven hcopy).1
  · exact (mem_of_given hgiven hcopy).2

theorem reduce (tag : String) {argument out : Value} (hargument : Value.arrays [argument] ⊆ buffers)
    (hout : Value.arrays [out] ⊆ buffers) :
    KeepsOrder (AllLive buffers) (Action.reduce tag argument out)
      fun made ↦ AllLive (made :: buffers) := by
  have hshape : KeepsOrder (AllLive buffers) (Action.foldShape out) fun _ ↦ AllLive buffers := by
    unfold Action.foldShape
    split
    · exact done _
    · exact (array _).bind fun _ ↦ done _
    · exact throw _
  unfold Action.reduce
  split
  · exact throw _
  · refine guard _ ?_
    split
    · next operation _ _ source described =>
      have hsource : source ∈ buffers := hargument (by simp [Value.arrays])
      refine (array _).bind fun array ↦ guard _ (hshape.bind fun shape ↦
        (output _ _ _ hout).bind fun destination ↦ of_fact fun hapart ↦ ?_)
      obtain ⟨target, given⟩ := destination
      refine (KeepsOrder.array _).bind fun targetArray ↦ (ofExcept _).bind fun length ↦
        guard _ ((ofExcept _).bind fun n ↦ get.bind fun engine ↦
          (foldDispatches operation array.element (Reduction.passes engine.workgroupSize n)
            (List.mem_cons_of_mem target hsource)).bind fun made ↦ of_fact fun hnew ↦
              of_fact fun hused ↦ ?_)
      refine (submit_of_live (usedBy_subset_of_given hused hapart)).bind fun _ ↦
        (releaseAll hnew).bind fun _ ↦ (settleOutput (target, given)).pre fun _ _ _ h ↦ ⟨hapart, h⟩
    · exact throw _

/-! ### Operations by name -/

theorem call (name : String) {arguments : List Value} {out : Option Value}
    (h : Value.heldArrays (arguments ++ out.toList) ⊆ buffers) :
    KeepsOrder (AllLive buffers) (Action.call name arguments out)
      fun made ↦ AllLive (made :: buffers) := by
  unfold Action.call
  split
  · exact throw _
  · next operation _ =>
    refine (ofExcept_eq _).bind fun values ↦ of_fact fun hbind ↦ ?_
    have hvalues := arrays_of_bind hbind rfl h
    have hoperands := List.Subset.trans (Value.arrays_mono (List.dropLast_subset values)) hvalues
    have hout : Value.arrays [values.getLastD .none] ⊆ buffers :=
      Value.arrays_singleton_subset List.getLastD_mem_cons hvalues
    dsimp only
    split
    · next condition yes no _ heq => exact choose (heq ▸ hoperands) hout
    · refine ite (fun _ ↦ reduce _ (Value.arrays_singleton_subset ?_ hoperands) hout) fun _ ↦
        elementwise _ hoperands hout
      rw [List.headD_eq_head?_getD, List.head?_eq_getElem?, ← List.getD_eq_getElem?_getD]
      exact getD_mem_cons _ _ _

theorem callReduce (tag : String) {arguments : List Value} {out : Option Value}
    (h : Value.heldArrays (arguments ++ out.toList) ⊆ buffers) :
    KeepsOrder (AllLive buffers) (Action.callReduce tag arguments out)
      fun made ↦ AllLive (made :: buffers) := by
  refine (ofExcept_eq _).bind fun values ↦ of_fact fun hbind ↦ ?_
  have hvalues := arrays_of_bind hbind rfl h
  exact reduce _ (Value.arrays_singleton_subset (getD_mem_cons _ _ _) hvalues)
    (Value.arrays_singleton_subset (getD_mem_cons _ _ _) hvalues)

theorem arithmetic (symbol : String) {left right : Value}
    (h : Value.heldArrays [left, right] ⊆ buffers) :
    KeepsOrder (AllLive buffers) (Action.arithmetic symbol left right)
      fun made ↦ AllLive (made :: buffers) := by
  unfold Action.arithmetic
  split
  · refine elementwise _ (fun buffer hmem ↦ h ?_) (List.nil_subset _)
    obtain ⟨described, hvalue⟩ := Value.mem_arrays_iff.mp hmem
    refine Value.mem_arrays_iff.mpr ⟨described, ?_⟩
    -- An array on the right is its own content.
    simp only [List.mem_cons, List.not_mem_nil, or_false, List.map_cons, List.map_nil] at hvalue ⊢
    exact hvalue.imp_right fun (hright : Value.array buffer described = right) ↦ hright ▸ rfl
  · exact throw _

/-! ### Constructors -/

theorem full (value shape elementName : Value) :
    KeepsOrder (AllLive buffers) (Action.full value shape elementName)
      fun made ↦ AllLive (made :: buffers) :=
  (newArray _ _ _).bind fun _ ↦ ((setValue _ _).pre fun _ _ _ h ↦ h.2).bind fun _ ↦
    pure fun _ _ _ ↦ id

/-- The arithmetic of ranges with arrays for ends only serves to fail. -/
theorem rangeElements (element : ElementType) {start stop step : Value}
    (h : Value.heldArrays [start, stop, step] ⊆ buffers) :
    KeepsOrder (AllLive buffers) (Action.rangeElements element start stop step)
      fun _ ↦ AllLive buffers := by
  have hall := Value.heldArrays_subset_iff.mp h
  have hstep : Value.heldArrays [Range.stepOf step] ⊆ buffers := by
    unfold Range.stepOf
    split
    · exact List.nil_subset _
    · exact hall step (by simp)
  have hpair {left right : Value} {inputs : List Nat} (hleft : Value.heldArrays [left] ⊆ inputs)
      (hright : Value.heldArrays [right] ⊆ inputs) : Value.heldArrays [left, right] ⊆ inputs :=
    Value.heldArrays_subset_iff.mpr (by simp [hleft, hright])
  have hquotient {distance : Value} {inputs : List Nat} {Q : List Nat → Assertion}
      (hdistance : Value.heldArrays [distance] ⊆ inputs) (hwithin : buffers ⊆ inputs) :
      KeepsOrder (AllLive inputs) (do
        let _ ← tryCatch (Action.arithmetic "/" distance (Range.stepOf step))
          fun failure ↦ MonadExcept.throw (Range.failureOf failure)
        MonadExcept.throw (.notReal (Value.array 0 "").typeName)) Q :=
    ((arithmetic "/" (hpair hdistance (List.Subset.trans hstep hwithin))).renamed _).bind
      fun _ ↦ throw _
  unfold Action.rangeElements
  dsimp only
  split
  · refine ((arithmetic "-" (hpair (hall stop (by simp)) (hall start (by simp)))).renamed _).bind
      fun made ↦ ?_
    have hdescribed : KeepsOrder (AllLive (made :: buffers))
        (do return Value.array made (← Action.array made).shown) fun described history engine ↦
          Value.heldArrays [described] ⊆ made :: buffers ∧
            AllLive (made :: buffers) history engine :=
      (array made).bind fun _ ↦ pure fun _ _ _ h ↦
        ⟨List.cons_subset_cons made (List.nil_subset _), h⟩
    exact hdescribed.bind fun described ↦ of_fact fun hheld ↦
      hquotient hheld (List.subset_cons_self _ _)
  · split
    · refine (ofExcept _).bind fun distance ↦ hquotient ?_ (List.Subset.refl _)
      cases distance.scalar <;> exact List.nil_subset _
    · exact ofExcept _

theorem range {arguments : List Value} {named : List (String × Value)}
    (h : Value.heldArrays (arguments ++ named.map Prod.snd) ⊆ buffers) :
    KeepsOrder (AllLive buffers) (Action.range arguments named)
      fun made ↦ AllLive (made :: buffers) := by
  refine (ofExcept_eq _).bind fun values ↦ of_fact fun hbind ↦ ?_
  have hvalues := Value.heldArrays_subset_iff.mp (Signature.heldArrays_of_bind rfl h hbind)
  have hheld (position : Nat) : Value.heldArrays [values.getD position .none] ⊆ buffers := by
    rcases List.mem_cons.mp (getD_mem_cons values position .none) with hnone | hmem
    · rw [hnone]
      exact List.nil_subset _
    · exact hvalues _ hmem
  have hends {start stop : Value} (hstart : Value.heldArrays [start] ⊆ buffers)
      (hstop : Value.heldArrays [stop] ⊆ buffers) :
      Value.heldArrays [start, stop, values.getD 2 .none] ⊆ buffers :=
    Value.heldArrays_subset_iff.mpr (by simpa [hstart, hstop] using hheld 2)
  dsimp only
  split <;> refine (ofExcept _).bind fun element ↦ (rangeElements element (hends ?_ ?_)).bind
    fun elements ↦ guard _ ((newArray _ _ _).bind fun made ↦ (array _).bind fun _ ↦
      (ofExcept _).bind fun _ ↦ guard _ (((setElements _).pre fun _ _ _ h ↦ h.2).bind
        fun _ ↦ pure fun _ _ _ ↦ id))
  · exact List.nil_subset _
  · exact hheld 0
  · exact hheld 0
  · exact hheld 1

theorem ofTable (value : Value) : KeepsOrder (AllLive buffers) (Action.ofTable value)
    fun made ↦ AllLive (made :: buffers) := by
  refine (ofExcept _).bind fun table ↦ (newArray _ _ _).bind fun made ↦ ?_
  exact (array _).bind fun array ↦ (ofExcept _).bind fun elements ↦
    ((setElements _).pre fun _ _ _ h ↦ h.2).bind fun _ ↦ pure fun _ _ _ ↦ id

theorem construct {name : String} {arguments : List Value} {named : List (String × Value)}
    {action : Action Nat} (h : Value.heldArrays (arguments ++ named.map Prod.snd) ⊆ buffers)
    (hconstruct : Action.construct? name arguments named = some action) :
    KeepsOrder (AllLive buffers) action fun made ↦ AllLive (made :: buffers) := by
  have hnew (shape elementName strides : Value) : KeepsOrder (AllLive buffers)
      (Action.newArray shape elementName strides) fun made ↦ AllLive (made :: buffers) :=
    (newArray _ _ _).post fun _ _ _ _ h ↦ h.2
  unfold Action.construct? at hconstruct
  dsimp only at hconstruct
  split at hconstruct <;> cases hconstruct
  · exact (ofExcept _).bind fun _ ↦ hnew _ _ _
  · exact (ofExcept _).bind fun _ ↦ hnew _ _ _
  · exact (ofExcept _).bind fun _ ↦ full _ _ _
  · exact (ofExcept _).bind fun _ ↦ full _ _ _
  · exact range h
  · exact (ofExcept _).bind fun _ ↦ ofTable _

theorem callByName (name : String) {arguments : List Value} {out : Option Value}
    (h : Value.heldArrays (arguments ++ out.toList) ⊆ buffers) :
    KeepsOrder (AllLive buffers) (Action.callByName name arguments out)
      fun made ↦ AllLive (made :: buffers) := by
  unfold Action.callByName
  cases hconstruct : Action.construct? name arguments (Action.namedOutput out) with
  | none => exact call name h
  | some action =>
    refine construct ?_ hconstruct
    rwa [map_snd_namedOutput]

/-! ### Generators -/

/-- A pass of a generator over live arrays. -/
theorem draw (generator : Generator) (state : Nat) (kernel : Kernel) (outputs : List Nat)
    (h : state :: outputs ⊆ buffers) :
    KeepsOrder (AllLive buffers)
      (Action.submit [generator.dispatch state kernel outputs] [] []) fun _ ↦ AllLive buffers := by
  refine submit_of_live (List.Subset.trans ?_ h)
  simp [usedBy, Generator.dispatch, Resource.buffer, Function.comp_def]

theorem deriveStreams (size : Nat) {state : Nat} :
    KeepsOrder (AllLive (state :: buffers)) (Action.deriveStreams size state)
      fun _ ↦ AllLive (state :: buffers) := by
  refine (newArray _ _ _).bind fun cursor ↦ of_fact fun hnew ↦ (setValue _ _).bind fun _ ↦ ?_
  refine (forM _ fun count _ ↦ (submit_of_live fun buffer hmem ↦ ?_).bind fun _ ↦ done _).bind
    fun _ ↦ (release hnew).pre fun _ _ horderly h ↦ ?_
  · simp only [usedBy, List.flatMap_nil, List.append_nil, List.mem_flatMap] at hmem
    obtain ⟨dispatch, hdispatch, hmem⟩ := hmem
    obtain rfl := List.eq_of_mem_replicate hdispatch
    simp only [List.map_cons, List.map_nil, Resource.buffer, List.mem_cons, List.not_mem_nil,
      or_false] at hmem
    grind
  · exact ⟨horderly.le_of_live (h cursor List.mem_cons_self), (List.forall_mem_cons.mp h).2⟩

theorem newGenerator (size seed entropy : Value) :
    KeepsOrder (AllLive buffers) (Action.newGenerator size seed entropy)
      fun made ↦ AllLive (made :: buffers) := by
  have hadd (state size : Nat) (seed : Int) : KeepsOrder (AllLive (state :: buffers))
      (do
        modify (Engine.addGenerator state ⟨size, seed, none⟩)
        return state : Action Nat) fun made ↦ AllLive (made :: buffers) :=
    (addGenerator state rfl).bind fun _ ↦ pure fun _ _ _ ↦ id
  refine (ofExcept _).bind fun size ↦ (ofExcept _).bind fun seed ↦ (newContiguous _ _).bind
    fun state ↦ (ofExcept _).bind fun _ ↦ (ofExcept _).bind fun first ↦
      ((setElements _).pre fun _ _ _ h ↦ h.2).bind fun _ ↦ ?_
  dsimp only
  split
  · exact (deriveStreams _).bind fun _ ↦ hadd _ _ _
  · exact hadd _ _ _

theorem drawUniform {state : Nat} (elementName : Value) :
    KeepsOrder (AllLive (state :: buffers)) (Action.drawUniform state elementName)
      fun made ↦ AllLive (made :: state :: buffers) := by
  refine ((generator state).post fun _ _ _ _ h ↦ h.2).bind fun generator ↦
    (ofExcept _).bind fun element ↦ guard _ ((newContiguous _ _).bind fun made ↦
      get.bind fun engine ↦ ?_)
  exact ((draw _ _ _ _ (by simp)).pre fun _ _ _ h ↦ h.2).bind fun _ ↦ pure fun _ _ _ ↦ id

theorem skipDraw {state : Nat} : KeepsOrder (AllLive (state :: buffers)) (Action.skipDraw state)
    fun _ ↦ AllLive (state :: buffers) :=
  ((generator state).post fun _ _ _ _ h ↦ h.2).bind fun _ ↦ get.bind fun _ ↦
    (draw _ _ _ _ (by simp)).bind fun _ ↦ done _

theorem drawNormalPair {state : Nat} (element : ElementType) :
    KeepsOrder (AllLive (state :: buffers)) (Action.drawNormalPair state element)
      fun made ↦ AllLive (made :: state :: buffers) := by
  refine ((generator state).post fun _ _ _ _ h ↦ h.2).bind fun generator ↦
    (newContiguous _ _).bind fun first ↦ ((newContiguous _ _).pre fun _ _ _ h ↦ h.2).bind
      fun second ↦ of_fact fun hnew ↦ get.bind fun engine ↦ (draw _ _ _ _ (by simp)).bind
        fun _ ↦ ((setGenerator _ _).pre fun _ _ horderly h ↦ ⟨?_, fun other hmem ↦ ?_⟩).bind
          fun _ ↦ pure fun _ _ _ ↦ id
  · rintro _ ⟨⟩
    refine ⟨fun heq ↦ hnew ?_, horderly.le_of_live (h second List.mem_cons_self)⟩
    subst heq
    simp
  · exact h other (List.mem_cons_of_mem second hmem)

/-- A normal draw gives an array that exists; kept samples of another element type are released,
but never the streams. -/
theorem drawNormal {state : Nat} (elementName : Value) :
    KeepsOrder (AllLive [state]) (Action.drawNormal state elementName)
      fun made history engine ↦ made ≤ engine.device.buffers.size ∧
        AllLive [state] history engine := by
  have hpair (element : ElementType) : KeepsOrder (AllLive [state])
      (Action.drawNormalPair state element) fun made history engine ↦
        made ≤ engine.device.buffers.size ∧ AllLive [state] history engine :=
    (drawNormalPair element).post fun made _ _ horderly h ↦
      ⟨horderly.le_of_live (h made List.mem_cons_self), (List.forall_mem_cons.mp h).2⟩
  refine (ofExcept _).bind fun element ↦ guard _ ((takeKept state).bind fun kept ↦
    of_fact fun hapart ↦ ?_)
  split
  · next kept samples =>
    refine ite (fun _ ↦ pure fun _ _ _ h ↦ ⟨h.1 _ rfl, h.2⟩) fun _ ↦ ?_
    refine ((release ?_).pre fun _ _ _ h ↦ ⟨h.1 _ rfl, h.2⟩).bind fun _ ↦ hpair element
    exact fun hmem ↦ hapart _ rfl (List.mem_singleton.mp hmem)
  · exact (hpair element).pre fun _ _ _ h ↦ h.2

/-! ### Elements -/

theorem getElement (index : List Value) :
    KeepsOrder (AllLive (buffer :: buffers)) (Action.getElement buffer index)
      fun _ ↦ AllLive (buffer :: buffers) :=
  load.bind fun _ ↦ (array _).bind fun _ ↦ ofExcept _

theorem readElements : KeepsOrder (AllLive (buffer :: buffers)) (Action.readElements buffer)
    fun _ ↦ AllLive (buffer :: buffers) :=
  loadBlocking.bind fun _ ↦ (array _).bind fun _ ↦ ofExcept _

end KeepsOrder

end ComputeArray
