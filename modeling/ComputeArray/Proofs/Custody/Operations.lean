import ComputeArray.Proofs.Custody.Keeping
import ComputeArray.Proofs.Lifetime.Operations

/-!
# Operations that keep account

Calls, constructors and generators leave every buffer in its place if they succeed. Only calls that
make stride buffers may lose some of these when they fail: the buffers are taken over at the end of
a submission, and what goes wrong before leaves them loose.
-/

set_option autoImplicit false

namespace ComputeArray

open Engine

/-- The output a call is given. -/
def EngineCall.out : EngineCall → Value
  | elementwise _ _ out => out
  | choose _ _ _ out => out
  | reduce _ _ out => out

namespace CallPlan

/-- The arrays a plan gives up or hands on. -/
def arrays (plan : CallPlan) : List Nat := plan.target :: plan.given.toList ++ plan.between

end CallPlan

namespace KeepsCustody

variable {found : List Nat} {out : Value}

/-! ### Calls -/

theorem planLaunch (operation : Operation) (operands : List Value) (targets : List ElementType)
    (result : ElementType) (hout : Value.arrays [out] ⊆ found) : KeepsCustody [] found
      (EngineCall.planLaunch operation operands targets result out) CallPlan.helpers
      CallPlan.arrays := by
  refine after .get fun engine ↦ after (.ofExcept _) fun shape ↦ (output _ _ _ hout).bind
    fun destination ↦ (elementwisePass _ _ _ _ _ _ _).bind fun made ↦ pure ?_
  rw [CallPlan.arrays, List.append_nil]
  exact List.subset_append_left _ _

theorem planReduce (tag : String) (argument : Value) (hout : Value.arrays [out] ⊆ found) :
    KeepsCustody [] found (EngineCall.planReduce tag argument out) CallPlan.helpers
      CallPlan.arrays := by
  unfold EngineCall.planReduce
  split
  · exact throw _
  · refine guard _ ?_
    split
    · refine after (.array _) fun array ↦ guard _ (after (.foldShape _) fun shape ↦
        (output _ _ _ hout).bind fun destination ↦ after (.array _) fun targetArray ↦
          after (.ofExcept _) fun length ↦ guard _ (after (.ofExcept _) fun n ↦
            after .get fun engine ↦ (foldDispatches _ _ _ _ _).bind fun made ↦ pure ?_))
      rw [CallPlan.arrays]
      exact List.append_subset.mpr ⟨List.Subset.trans (List.subset_append_left _ _)
        (List.subset_append_right _ _), List.subset_append_left _ _⟩
    · exact throw _

/-- A plan leaves its stride buffers to be taken over with its submission. -/
theorem plan (call : EngineCall) (hout : Value.arrays [call.out] ⊆ found) :
    KeepsCustody [] found call.plan CallPlan.helpers CallPlan.arrays := by
  cases call with
  | elementwise tag operands out =>
    unfold EngineCall.plan EngineCall.planElementwise
    dsimp only
    split
    · exact throw _
    · exact guard _ (guard _ (after (.commonType _) fun _ ↦ planLaunch _ _ _ _ hout))
  | choose condition yes no out =>
    unfold EngineCall.plan EngineCall.planChoose
    dsimp only
    split
    · exact after (.commonType _) fun _ ↦ after (.array _) fun _ ↦ planLaunch _ _ _ _ hout
    · exact throw _
  | reduce tag argument out => exact planReduce tag argument hout

/-- Once a plan is carried out, nothing of it is loose. -/
theorem carryOut (plan : CallPlan) (hfound : plan.arrays ⊆ found) :
    KeepsCustody plan.helpers found plan.carryOut (fun _ ↦ []) fun made ↦ [made] := by
  obtain ⟨dispatches, helpers, between, target, given⟩ := plan
  obtain ⟨houtput, hbetween⟩ := List.append_subset.mp hfound
  obtain ⟨htarget, hgiven⟩ := List.cons_subset.mp houtput
  refine (submit _ _ _).bind fun _ ↦ (releaseAll hbetween).bind fun _ ↦ ?_
  cases given with
  | none => exact pure (List.cons_subset.mpr ⟨htarget, List.nil_subset _⟩)
  | some out => exact (release htarget).bind fun _ ↦ pure hgiven

theorem action (call : EngineCall) (hout : Value.arrays [call.out] ⊆ found) :
    Tidy found call.action fun made ↦ [made] := by
  rw [call.action_eq]
  exact (plan call hout).bind fun plan ↦
    (carryOut plan (List.subset_append_left _ _)).post fun made ↦ List.subset_append_left _ _

/-! ### Operations by name -/

theorem call (name : String) {arguments : List Value} {given : Option Value}
    (h : Value.heldArrays (arguments ++ given.toList) ⊆ found) :
    Tidy found (Action.call name arguments given) fun made ↦ [made] := by
  unfold Action.call
  split
  · exact throw _
  · next operation _ =>
    refine (of_moves (.ofExcept _)).bindOk fun values engine hbind ↦ ?_
    rw [outcomeOf_ofExcept] at hbind
    have hvalues := KeepsOrder.arrays_of_bind hbind rfl h
    have hout : Value.arrays [values.getLastD .none] ⊆ found :=
      Value.arrays_singleton_subset List.getLastD_mem_cons hvalues
    dsimp only
    split
    · exact action (.choose _ _ _ _) hout
    · exact ite (fun _ ↦ action (.reduce _ _ _) hout) fun _ ↦ action (.elementwise _ _ _) hout

theorem callReduce (tag : String) {arguments : List Value} {given : Option Value}
    (h : Value.heldArrays (arguments ++ given.toList) ⊆ found) :
    Tidy found (Action.callReduce tag arguments given) fun made ↦ [made] := by
  refine (of_moves (.ofExcept _)).bindOk fun values engine hbind ↦ ?_
  rw [outcomeOf_ofExcept] at hbind
  have hvalues := KeepsOrder.arrays_of_bind hbind rfl h
  exact action (.reduce _ _ _)
    (Value.arrays_singleton_subset (KeepsOrder.getD_mem_cons _ _ _) hvalues)

theorem arithmetic (symbol : String) (left right : Value) :
    Tidy found (Action.arithmetic symbol left right) fun made ↦ [made] := by
  unfold Action.arithmetic
  split
  · exact action (.elementwise _ _ .none) (List.nil_subset _)
  · exact throw _

/-! ### Constructors -/

theorem full (value shape elementName : Value) :
    Tidy found (Action.full value shape elementName) fun made ↦ [made] :=
  (newArray _ _ _).bind fun made ↦ after (preserves_setValue made value []) fun _ ↦
    pure (List.subset_append_left _ _)

/-- Arrays made of the ends of a range are of no use. -/
theorem rangeElements (element : ElementType) (start stop step : Value) :
    Tidy found (Action.rangeElements element start stop step) fun _ ↦ [] := by
  unfold Action.rangeElements
  dsimp only
  split
  · exact ((arithmetic _ _ _).renamed _).bind fun made ↦
      (after (.array _) fun _ ↦ done _).bind fun described ↦
        ((arithmetic _ _ _).renamed _).bind fun _ ↦ throw _
  · split
    · exact after (.ofExcept _) fun distance ↦
        ((arithmetic _ _ _).renamed _).bind fun _ ↦ throw _
    · exact of_moves (.ofExcept _)

theorem range (arguments : List Value) (named : List (String × Value)) :
    Tidy found (Action.range arguments named) fun made ↦ [made] := by
  refine after (.ofExcept _) fun values ↦ ?_
  dsimp only
  refine after (.ofExcept _) fun element ↦ (rangeElements _ _ _ _).bind fun elements ↦
    guard _ ((newArray _ _ _).bind fun made ↦ after (.array _) fun _ ↦ after (.ofExcept _) fun _ ↦
      guard _ (after (preserves_setElements made elements) fun _ ↦ pure ?_))
  exact List.subset_append_left _ _

theorem ofTable (value : Value) : Tidy found (Action.ofTable value) fun made ↦ [made] :=
  after (.ofExcept _) fun _ ↦ (newArray _ _ _).bind fun made ↦ after (.array _) fun _ ↦
    after (.ofExcept _) fun elements ↦ after (preserves_setElements made elements) fun _ ↦
      pure (List.subset_append_left _ _)

theorem construct {name : String} {arguments : List Value} {named : List (String × Value)}
    {action : Action Nat} (h : Action.construct? name arguments named = some action) :
    Tidy found action fun made ↦ [made] := by
  unfold Action.construct? at h
  dsimp only at h
  split at h <;> cases h
  · exact after (.ofExcept _) fun _ ↦ newArray _ _ _
  · exact after (.ofExcept _) fun _ ↦ newArray _ _ _
  · exact after (.ofExcept _) fun _ ↦ full _ _ _
  · exact after (.ofExcept _) fun _ ↦ full _ _ _
  · exact range _ _
  · exact after (.ofExcept _) fun _ ↦ ofTable _

theorem callByName (name : String) {arguments : List Value} {given : Option Value}
    (h : Value.heldArrays (arguments ++ given.toList) ⊆ found) :
    Tidy found (Action.callByName name arguments given) fun made ↦ [made] := by
  unfold Action.callByName
  cases hconstruct : Action.construct? name arguments (Action.namedOutput given) with
  | none => exact call name h
  | some action => exact construct hconstruct

/-! ### Generators -/

variable {state : Nat}

theorem deriveStreams (size state : Nat) :
    Tidy found (Action.deriveStreams size state) fun _ ↦ [] := by
  refine (newArray _ _ _).bind fun cursor ↦ after (preserves_setValue cursor _ _) fun _ ↦
    after (.forM _ fun count _ ↦ .bind (preserves_submit _ _) fun _ ↦ .pure _) fun _ ↦
      release (List.mem_append_left _ List.mem_cons_self)

theorem newGenerator (size seed entropy : Value) :
    Tidy found (Action.newGenerator size seed entropy) fun made ↦ [made] := by
  have hadd (inputs : List Nat) (state size : Nat) (seed : Int) (hstate : state ∈ inputs) :
      Tidy inputs (do
        modify (Engine.addGenerator state ⟨size, seed, none⟩)
        return state : Action Nat) fun made ↦ [made] :=
    after (.update fun _ ↦ preserves_addGenerator rfl) fun _ ↦
      pure (List.cons_subset.mpr ⟨hstate, List.nil_subset _⟩)
  refine after (.ofExcept _) fun size ↦ after (.ofExcept _) fun seed ↦ (newContiguous _ _).bind
    fun state ↦ ?_
  -- What the host grants does not matter, and must not be computed.
  generalize ElementType.u32.hostBytes [size.toNat, 4] = granted
  refine after (.ofExcept granted) fun _ ↦ after (.ofExcept _) fun first ↦
    after (preserves_setElements _ _) fun _ ↦ ?_
  have hstate : state ∈ [state] ++ found := List.mem_append_left _ List.mem_cons_self
  dsimp only
  split
  · exact (deriveStreams _ _).bind fun _ ↦ hadd _ _ _ _ (List.mem_append_right _ hstate)
  · exact hadd _ _ _ _ hstate

theorem drawUniform (state : Nat) (elementName : Value) :
    Tidy found (Action.drawUniform state elementName) fun made ↦ [made] :=
  after (.bind .get fun _ ↦ .pure _) fun _ ↦ after (.ofExcept _) fun _ ↦
    guard _ ((newContiguous _ _).bind fun _ ↦ after .get fun _ ↦
      after (preserves_submit _ _) fun _ ↦ pure (List.subset_append_left _ _))

theorem preserves_skipDraw (state : Nat) : Moves Preserves (Action.skipDraw state) :=
  .bind (.bind .get fun _ ↦ .pure _) fun _ ↦ .bind .get fun _ ↦ .bind (preserves_submit _ _)
    fun _ ↦ .pure _

theorem setGenerator {generator : Generator}
    (hkept : ∀ samples, generator.kept = some samples → samples.2 ∈ found) :
    Tidy found (modify (Engine.setGenerator state generator)) fun _ ↦ [] :=
  fun _ _ _ hholding ↦ hholding.preserve
    (preserves_setGenerator fun samples h ↦ hholding.found (hkept samples h))

/-- The generator keeps the second samples of a pair, which are an array. -/
theorem drawNormalPair (state : Nat) (element : ElementType) :
    Tidy found (Action.drawNormalPair state element) fun made ↦ [made] := by
  refine after (.bind .get fun _ ↦ .pure _) fun generator ↦ (newContiguous _ _).bind fun first ↦
    (newContiguous _ _).bind fun second ↦ after .get fun _ ↦ after (preserves_submit _ _) fun _ ↦
      (setGenerator ?_).bind fun _ ↦ pure ?_
  · rintro _ ⟨⟩
    exact List.mem_cons_self
  · exact List.cons_subset.mpr ⟨List.mem_cons_of_mem _ List.mem_cons_self, List.nil_subset _⟩

/-- Samples a generator has kept are an array. -/
theorem takeKept (state : Nat) : Tidy found (Action.takeKept state)
    fun kept ↦ (kept.map Prod.snd).toList := by
  intro earlier start engine hholding
  have hkept : ((engine.generator state).kept.map Prod.snd).toList ⊆
      engine.arrays.map Prod.fst := by
    intro buffer hmem
    rw [Option.mem_toList, Option.map_eq_some_iff] at hmem
    obtain ⟨samples, hsamples, rfl⟩ := hmem
    rw [Engine.generator] at hsamples
    cases hlookup : engine.generators.lookup state with
    | none =>
      rw [hlookup] at hsamples
      cases hsamples
    | some generator =>
      rw [hlookup] at hsamples
      exact hholding.custody.kept _ (mem_of_lookup hlookup) samples hsamples
  exact (hholding.add hkept).preserve
    (preserves_setGenerator fun _ h ↦ absurd h.symm (Option.some_ne_none _))

theorem drawNormal (state : Nat) (elementName : Value) :
    Tidy found (Action.drawNormal state elementName) fun made ↦ [made] := by
  refine after (.ofExcept _) fun element ↦ guard _ ((takeKept state).bind fun kept ↦ ?_)
  split
  · next kept samples =>
    have hsamples : samples ∈ [samples] ++ found := List.mem_cons_self
    refine ite (fun _ ↦ pure (List.subset_append_left _ _)) fun _ ↦ ?_
    exact (release hsamples).bind fun _ ↦ drawNormalPair state element
  · exact drawNormalPair state element

/-! ### Elements -/

theorem preserves_getElement (buffer : Nat) (index : List Value) :
    Moves Preserves (Action.getElement buffer index) :=
  .bind (preserves_load buffer) fun _ ↦ .bind (.array _) fun _ ↦ .ofExcept _

theorem preserves_readElements (buffer : Nat) : Moves Preserves (Action.readElements buffer) :=
  .bind (preserves_loadBlocking buffer) fun _ ↦ .bind (.array _) fun _ ↦ .ofExcept _

end KeepsCustody

end ComputeArray
