import ComputeArray.Proofs.Calls.Plan
import ComputeArray.Proofs.Custody.Transfer

/-!
# Actions that keep account

`KeepsCustody` follows the buffers that are loose while a call is carried out: those the action
takes over and those it leaves. A call that fails may leave stride buffers of its own loose, and no
others. The rules follow the way actions are written.
-/

set_option autoImplicit false

namespace ComputeArray

open Engine

/-- Before a call the `earlier` buffers were loose, and there were `start` buffers. Since then
`spare` ones have come loose, all of them made to hold strides. The arrays `found` exist. -/
structure Engine.Holding (earlier : List Nat) (start : Nat) (spare found : List Nat)
    (engine : Engine) : Prop where
  custody : engine.Custody (spare ++ earlier)
  made : ∀ buffer ∈ spare, start < buffer ∧ buffer ∈ engine.device.strides
  count : start ≤ engine.device.buffers.size
  found : found ⊆ engine.arrays.map Prod.fst

theorem Engine.Custody.holding {earlier found : List Nat} {engine : Engine}
    (h : engine.Custody earlier) (hfound : found ⊆ engine.arrays.map Prod.fst) :
    engine.Holding earlier engine.device.buffers.size [] found :=
  ⟨h, nofun, Nat.le_refl _, hfound⟩

namespace Engine.Holding

variable {earlier spare left found fewer : List Nat} {start : Nat} {before after : Engine}

theorem weaken (h : before.Holding earlier start spare found) (hfewer : fewer ⊆ found) :
    before.Holding earlier start spare fewer :=
  ⟨h.custody, h.made, h.count, List.Subset.trans hfewer h.found⟩

/-- Spare buffers may be taken to their places. -/
theorem exchange (h : before.Holding earlier start spare found)
    (hexchanges : Exchanges spare left before after) (hleft : left ⊆ spare) :
    after.Holding earlier start left found where
  custody := hexchanges.custody earlier h.custody
  made buffer hmem := by
    obtain ⟨hnew, hstrides⟩ := h.made buffer (hleft hmem)
    exact ⟨hnew, hexchanges.strides hstrides⟩
  count := Nat.le_trans h.count hexchanges.count
  found := List.Subset.trans h.found hexchanges.keys

theorem preserve (h : before.Holding earlier start spare found)
    (hpreserves : Preserves before after) :
    after.Holding earlier start spare found :=
  h.exchange (hpreserves.exchanges spare) (List.Subset.refl _)

theorem perm (h : before.Holding earlier start spare found) (hperm : spare.Perm left) :
    before.Holding earlier start left found :=
  ⟨h.custody.perm (hperm.append_right _), fun buffer hmem ↦ h.made buffer (hperm.mem_iff.mpr hmem),
    h.count, h.found⟩

theorem add (h : before.Holding earlier start spare found) {more : List Nat}
    (hmore : more ⊆ before.arrays.map Prod.fst) :
    before.Holding earlier start spare (more ++ found) :=
  ⟨h.custody, h.made, h.count, List.append_subset.mpr ⟨hmore, h.found⟩⟩

end Engine.Holding

variable {α β : Type}

/-- The action takes over the spare buffers and leaves others, and more arrays exist after it. If it
fails, what is left was made to hold strides. -/
def KeepsCustody (spare found : List Nat) (m : Action α) (left more : α → List Nat) : Prop :=
  ∀ earlier start engine, engine.Holding earlier start spare found →
    match outcomeOf m engine with
    | .ok a => (stateAfter m engine).Holding earlier start (left a) (more a ++ found)
    | .error _ => ∃ stray, (stateAfter m engine).Holding earlier start stray found

/-- The action leaves no buffer loose unless it fails. -/
abbrev Tidy (found : List Nat) (m : Action α) (more : α → List Nat) : Prop :=
  KeepsCustody [] found m (fun _ ↦ []) more

namespace KeepsCustody

variable {spare found inputs : List Nat} {m : Action α} {f : α → Action β}
  {left more : α → List Nat}
  {left' more' : β → List Nat} {buffer : Nat}

theorem post (h : KeepsCustody spare found m left more) {fewer : α → List Nat}
    (hfewer : ∀ a, fewer a ⊆ more a ++ found) : KeepsCustody spare found m left fewer := by
  intro earlier start engine hholding
  have hm := h earlier start engine hholding
  cases houtcome : outcomeOf m engine with
  | error failure => simpa only [houtcome] using hm
  | ok a =>
    rw [houtcome] at hm
    exact hm.weaken (List.append_subset.mpr ⟨hfewer a, List.subset_append_right _ _⟩)

theorem bindOk (hm : KeepsCustody spare found m left more)
    (hf : ∀ a engine, outcomeOf m engine = .ok a →
      KeepsCustody (left a) (more a ++ found) (f a) left' more') :
    KeepsCustody spare found (m >>= f) left' more' := by
  intro earlier start engine hholding
  have hfirst := hm earlier start engine hholding
  rw [outcomeOf_bind, stateAfter_bind]
  cases houtcome : outcomeOf m engine with
  | error failure => simpa only [houtcome] using hfirst
  | ok a =>
    rw [houtcome] at hfirst
    have hlast := hf a engine houtcome earlier start _ hfirst
    dsimp only
    cases houtcome' : outcomeOf (f a) (stateAfter m engine) with
    | error failure =>
      rw [houtcome'] at hlast
      obtain ⟨stray, hstray⟩ := hlast
      exact ⟨stray, hstray.weaken (List.subset_append_right _ _)⟩
    | ok b =>
      rw [houtcome'] at hlast
      refine hlast.weaken (List.append_subset.mpr ⟨List.subset_append_left _ _, ?_⟩)
      exact List.Subset.trans (List.subset_append_right _ _) (List.subset_append_right _ _)

theorem bind (hm : KeepsCustody spare found m left more)
    (hf : ∀ a, KeepsCustody (left a) (more a ++ found) (f a) left' more') :
    KeepsCustody spare found (m >>= f) left' more' :=
  hm.bindOk fun a _ _ ↦ hf a

/-- An action that leaves all buffers in their places leaves the spare ones to the next. -/
theorem of_moves (h : Moves Preserves m) :
    KeepsCustody spare found m (fun _ ↦ spare) fun _ ↦ [] := by
  intro earlier start engine hholding
  have hafter := hholding.preserve (h engine)
  cases outcomeOf m engine with
  | error failure => exact ⟨spare, hafter⟩
  | ok a => exact hafter

theorem of_moves_eq (h : Moves Eq m) : KeepsCustody spare found m (fun _ ↦ spare) fun _ ↦ [] :=
  of_moves (h.mono fun _ _ heq ↦ heq ▸ .refl [] _)

/-- What comes after an action that leaves all buffers in their places. -/
theorem after (hm : Moves Preserves m) (hf : ∀ a, KeepsCustody spare found (f a) left' more') :
    KeepsCustody spare found (m >>= f) left' more' :=
  (of_moves hm).bind hf

theorem pure {a : α} {more : α → List Nat} (h : more a ⊆ found) :
    KeepsCustody spare found (Pure.pure a) (fun _ ↦ spare) more :=
  fun _ _ _ hholding ↦ hholding.weaken (List.append_subset.mpr ⟨h, List.Subset.refl _⟩)

theorem done (a : α) : KeepsCustody spare found (Pure.pure a) (fun _ ↦ spare) fun _ ↦ [] :=
  pure (List.nil_subset _)

theorem throw (failure : Failure) :
    KeepsCustody spare found (MonadExcept.throw failure) left more :=
  fun _ _ _ hholding ↦ ⟨spare, hholding⟩

theorem ite {condition : Prop} [Decidable condition] {yes no : Action α}
    (hyes : condition → KeepsCustody spare found yes left more)
    (hno : ¬ condition → KeepsCustody spare found no left more) :
    KeepsCustody spare found (if condition then yes else no) left more := by
  split
  · next h => exact hyes h
  · next h => exact hno h

/-- An action behind a check that may fail. -/
theorem guard {condition : Prop} [Decidable condition] (failure : Failure)
    (h : KeepsCustody spare found m left more) :
    KeepsCustody spare found (if condition then (do MonadExcept.throw failure; m) else m) left
      more :=
  ite (fun _ ↦ after (.throw failure) fun _ ↦ h) fun _ ↦ h

/-- A failure may be told in another way. -/
theorem renamed (h : KeepsCustody spare found m left more) (rename : Failure → Failure) :
    KeepsCustody spare found (tryCatch m fun failure ↦ MonadExcept.throw (rename failure)) left
      more := by
  intro earlier start engine hholding
  have hm := h earlier start engine hholding
  rw [stateAfter_tryCatch, outcomeOf_tryCatch]
  cases houtcome : outcomeOf m engine with
  | ok a => simpa only [houtcome] using hm
  | error failure =>
    rw [houtcome] at hm
    exact hm

/-! ### New arrays -/

theorem allocate (element : ElementType) (shape strides : List Nat) (customStrides : Bool)
    (count : Int) (hcount : customStrides = false →
      Layout.contiguousCount (shape.map Int.ofNat) = .ok count) : KeepsCustody spare found
      (Action.allocate element shape strides customStrides count) (fun _ ↦ spare)
      fun made ↦ [made] := by
  intro earlier start engine hholding
  have hafter := hholding.preserve
    (preserves_allocate element shape strides customStrides count hcount engine)
  cases houtcome : outcomeOf (Action.allocate element shape strides customStrides count) engine with
  | error failure => exact ⟨spare, hafter⟩
  | ok made =>
    obtain ⟨size, -, -, rfl, hstate⟩ := allocate_eq_ok houtcome
    refine hafter.add (List.cons_subset.mpr ⟨?_, List.nil_subset _⟩)
    rw [hstate]
    exact List.mem_map.mpr ⟨_, List.mem_append_right _ List.mem_cons_self, rfl⟩

theorem newArray (shape elementName strides : Value) : KeepsCustody spare found
    (Action.newArray shape elementName strides) (fun _ ↦ spare) fun made ↦ [made] := by
  refine after .assertActive fun _ ↦ after (.ofExcept _) fun element ↦
    after (.checkElement element) fun _ ↦ after (.ofExcept _) fun extents ↦ ?_
  dsimp only
  split
  · refine (of_moves (.ofExcept _)).bindOk fun count engine hcount ↦ allocate _ _ _ _ _ fun _ ↦ ?_
    rwa [outcomeOf_ofExcept] at hcount
  · exact after (.ofExcept _) fun given ↦ allocate _ _ _ _ _ nofun

theorem newContiguous (element : ElementType) (shape : List Int) : KeepsCustody spare found
    (Action.newContiguous element shape) (fun _ ↦ spare) fun made ↦ [made] :=
  newArray _ _ _

/-! ### Releases and submissions -/

theorem release (hfound : buffer ∈ found) : KeepsCustody spare found
    (modify (Engine.release buffer)) (fun _ ↦ spare) fun _ ↦ [] :=
  fun _ _ _ hholding ↦ hholding.preserve (preserves_release (hholding.found hfound))

theorem releaseAll {between : List Nat} (hfound : between ⊆ found) : KeepsCustody spare found
    (modify fun engine ↦ between.foldl (fun engine buffer ↦ engine.release buffer) engine)
    (fun _ ↦ spare) fun _ ↦ [] :=
  fun _ _ _ hholding ↦ hholding.preserve
    (preserves_foldl_release fun _ hmem ↦ hholding.found (hfound hmem))

/-- A submission that succeeds takes its helpers over. -/
theorem submit (dispatches : List Dispatch) (helpers : List Nat) (copies : List (Nat × Nat)) :
    KeepsCustody helpers found (Action.submit dispatches helpers copies) (fun _ ↦ [])
      fun _ ↦ [] := by
  have hsettle (serial : Nat) : KeepsCustody helpers found (Action.settle serial helpers)
      (fun _ ↦ []) fun _ ↦ [] := by
    intro earlier start engine hholding
    have hafter := hholding.exchange (exchanges_settle serial helpers engine) (List.nil_subset _)
    cases outcomeOf (Action.settle serial helpers) engine with
    | error failure => exact ⟨[], hafter⟩
    | ok done => exact hafter
  exact after .assertActive fun _ ↦ after (preserves_prepare _ _) fun commands ↦
    after (preserves_handOver _ _ _) fun serial ↦ (hsettle serial).bind fun _ ↦ done serial

/-! ### Calls -/

/-- The array a kernel writes exists, and so does the given one it is copied into. -/
theorem output {out : Value} (shape : List Int) (element : ElementType) (inputs : List Nat)
    (hout : Value.arrays [out] ⊆ found) : KeepsCustody spare found
      (Action.output out shape element inputs) (fun _ ↦ spare)
      fun destination ↦ destination.1 :: destination.2.toList := by
  unfold Action.output
  split
  · exact (newContiguous _ _).bind fun made ↦ pure (List.subset_append_left _ _)
  · next given described =>
    have hgiven : [given] ⊆ found := hout
    refine after (.array _) fun array ↦ guard _ (guard _ ?_)
    refine ite (fun _ ↦ ?_) fun _ ↦ pure hgiven
    exact (newContiguous _ _).bind fun made ↦ pure (List.cons_subset_cons made hgiven)
  · exact throw _

theorem stridesBuffer (strides : List Int) : KeepsCustody spare found
    (Action.stridesBuffer strides) (fun fresh ↦ fresh :: spare) fun _ ↦ [] := by
  refine after (.ofExcept _) fun words ↦ after .assertActive fun _ ↦ ?_
  intro earlier start engine hholding
  set device := (engine.device.createFilledBuffer (.ofWords words) Device.stridesUsage).2
  have hcreated : Exchanges [] [engine.nextBuffer] engine { engine with device } :=
    exchanges_of_created engine rfl nofun (.of_push rfl) (Array.size_push _)
  have hstrides : engine.nextBuffer ∈ device.strides := by
    have hcalls : device.calls.toList = engine.device.calls.toList ++
        [.createFilledBuffer engine.nextBuffer (.ofWords words) Device.stridesUsage] :=
      Array.toList_push
    unfold Device.strides
    rw [hcalls, List.filterMap_append]
    exact List.mem_append_right _ List.mem_cons_self
  refine ⟨hcreated.custody _ hholding.custody, ?_, Nat.le_trans hholding.count hcreated.count,
    List.Subset.trans hholding.found hcreated.keys⟩
  rintro buffer (_ | ⟨_, hmem⟩)
  · exact ⟨Nat.lt_succ_of_le hholding.count, hstrides⟩
  · obtain ⟨hnew, hmade⟩ := hholding.made buffer hmem
    exact ⟨hnew, hcreated.strides hmade⟩

/-- The helpers of several operands add up. -/
theorem filterMapM {g : α → Action (Option (String × Nat))} (items : List α)
    (h : ∀ item, ∀ spare, KeepsCustody spare found (g item)
      (fun helper ↦ (helper.map Prod.snd).toList ++ spare) fun _ ↦ []) :
    KeepsCustody spare found (items.filterMapM g)
      (fun helpers ↦ (helpers.map Prod.snd).reverse ++ spare) fun _ ↦ [] := by
  induction items generalizing spare with
  | nil => exact done _
  | cons first rest ih =>
    rw [List.filterMapM_cons]
    refine (h first spare).bind fun helper ↦ ?_
    cases helper with
    | none => exact ih
    | some helper =>
      refine ih.bind fun helpers ↦ fun earlier start engine hholding ↦ ?_
      refine (hholding.perm (.of_eq ?_)).weaken (List.Subset.refl _)
      simp

theorem stridesBuffersIf (strided : Bool) (names : List String) (operands : List Value)
    (shape : List Int) : KeepsCustody [] found
      (Action.stridesBuffersIf strided names operands shape)
      (fun helpers ↦ helpers.map Prod.snd) fun _ ↦ [] := by
  have hoperand (engine : Engine) (named : String × Value) (spare : List Nat) :
      KeepsCustody spare found (Action.operandStrides engine shape named)
        (fun helper ↦ (helper.map Prod.snd).toList ++ spare) fun _ ↦ [] := by
    obtain ⟨name, value⟩ := named
    cases value with
    | array buffer described =>
      exact after (.ofExcept _) fun strides ↦ (stridesBuffer strides).bind fun fresh ↦ done _
    | _ => exact done _
  refine ite (fun _ ↦ ?_) fun _ ↦ done _
  refine after .get fun engine ↦ (filterMapM _ (hoperand engine)).bind fun inputs ↦
    (stridesBuffer _).bind fun fresh ↦ fun earlier start engine hholding ↦ ?_
  refine (hholding.perm ?_).weaken (List.Subset.refl _)
  rw [List.append_nil, List.map_append]
  exact (@List.perm_append_comm _ [fresh] _).trans ((List.reverse_perm _).append_right _)

/-- A pass leaves its stride buffers to the submission. -/
theorem elementwisePass (operation : Operation) (operands : List Value) (targets : List ElementType)
    (result : ElementType) (shape : List Int) (strided : Bool) (target : Nat) :
    KeepsCustody [] found
      (Action.elementwisePass operation operands targets result shape strided target)
      (fun made ↦ made.2) fun _ ↦ [] :=
  after .get fun _ ↦ after (.ofExcept _) fun _ ↦ after (.array _) fun _ ↦
    (stridesBuffersIf _ _ _ _).bind fun _ ↦ after (.ofExcept _) fun _ ↦
      after (.ofExcept _) fun _ ↦ done _

/-- The arrays in between exist. -/
theorem foldDispatches (operation : Operation) (element : ElementType) (target source : Nat)
    (passes : List (Int × Int)) : KeepsCustody spare found
      (Action.foldDispatches operation element target source passes) (fun _ ↦ spare)
      fun made ↦ made.2 := by
  induction passes generalizing source found with
  | nil => exact done _
  | cons pass rest ih =>
    obtain ⟨n, lanes⟩ := pass
    have hdestination : KeepsCustody spare found (Action.foldDestination element target lanes)
        (fun _ ↦ spare) fun destination ↦ if lanes = 1 then [] else [destination] := by
      unfold Action.foldDestination
      split
      · exact done _
      · exact newContiguous _ _
    refine hdestination.bind fun destination ↦ after .get fun _ ↦ (ih destination).bind fun made ↦
      pure (List.append_subset.mpr ⟨?_, List.subset_append_left _ _⟩)
    exact List.Subset.trans (List.subset_append_left _ _) (List.subset_append_right _ _)

end KeepsCustody

end ComputeArray
