import ComputeArray.Proofs.Aliasing.Passes
import ComputeArray.Proofs.Aliasing.Submission
import ComputeArray.Proofs.Custody.Course
import ComputeArray.Proofs.Loss.Terminal

/-!
# Outputs that are inputs

Whatever array a call is given for its output, no pass reads and writes one buffer, the call makes
one submission, and it answers that array (`completes_of_call`). If the array is also an input, the
submission ends in a copy of a temporary one, which is released with it. No other array changes, but
that news on the host of the inputs are sent.
-/

set_option autoImplicit false

namespace ComputeArray

open Engine

variable {engine : Engine} {buffer result : Nat} {plan : CallPlan}

/-! ### Releases -/

namespace Engine

variable {array : ArrayState} {other : Nat}

theorem lookup_release_of_ne (hother : other ≠ buffer) (engine : Engine) :
    (engine.release buffer).arrays.lookup other = engine.arrays.lookup other := by
  obtain ⟨-, h⟩ | ⟨-, _, h, -⟩ := release_cases buffer engine
  · rw [h]
  · rw [h]
    exact lookup_setArray_of_ne _ hother

theorem lookup_foldl_release {buffers : List Nat} (hother : other ∉ buffers) (engine : Engine) :
    (buffers.foldl (fun engine buffer ↦ engine.release buffer) engine).arrays.lookup other =
      engine.arrays.lookup other := by
  induction buffers generalizing engine with
  | nil => rfl
  | cons buffer rest ih =>
    rw [List.mem_cons, not_or] at hother
    exact (ih hother.2 _).trans (lookup_release_of_ne hother.1 engine)

/-- On an active device an array that has not been released joins the end of the queue. -/
theorem pending_release (hlookup : engine.arrays.lookup buffer = some array)
    (hunreleased : array.released = false) (hactive : engine.lost = none) :
    (engine.release buffer).pending = engine.pending ++ [(engine.serial, buffer)] := by
  obtain ⟨hreleased, -⟩ | ⟨-, pending, h, hpending⟩ := release_cases buffer engine
  · rw [array_of_lookup hlookup, hunreleased] at hreleased
    cases hreleased
  · obtain ⟨hlost, -⟩ | ⟨-, rfl⟩ := hpending
    · exact absurd hactive hlost
    · rw [h]

end Engine

/-! ### Plans that are carried out -/

namespace CallPlan

/-- The arrays a plan gives up when it has been submitted. -/
def spent (plan : CallPlan) : List Nat :=
  plan.between ++ (plan.given.map fun _ ↦ plan.target).toList

theorem carryOut_eq_ok (h : outcomeOf plan.carryOut engine = .ok result) :
    (∃ serial, outcomeOf (Action.submit plan.dispatches plan.helpers plan.copies) engine =
        .ok serial) ∧
      result = plan.given.getD plan.target ∧
      stateAfter plan.carryOut engine =
        plan.spent.foldl (fun engine buffer ↦ engine.release buffer)
          (stateAfter (Action.submit plan.dispatches plan.helpers plan.copies) engine) := by
  obtain ⟨dispatches, helpers, between, target, given⟩ := plan
  unfold carryOut at h ⊢
  obtain ⟨serial, hsubmit, h⟩ := outcomeOf_bind_eq_ok.mp h
  rw [stateAfter_bind_of_ok hsubmit]
  refine ⟨⟨serial, hsubmit⟩, ?_⟩
  rw [spent, List.foldl_append]
  cases given with
  | none =>
    cases h
    exact ⟨rfl, rfl⟩
  | some out =>
    cases h
    exact ⟨rfl, rfl⟩

theorem sameFixture_carryOut (plan : CallPlan) : Moves SameFixture plan.carryOut :=
  .bind (sameFixture_submit _ _ _) fun _ ↦ .bind (.releaseAll sameFixture_release _) fun _ ↦
    .settleOutput sameFixture_release _ _

/-- A buffer that a plan neither reads nor writes has the same bytes
when it has been carried out. -/
theorem bytesOf_carryOut (hfitting : engine.Fitting) (hfaithful : engine.FaithfulCaches)
    (hplain : ∀ dispatch ∈ plan.dispatches, dispatch.ReadsPlain)
    (hread : buffer ∉ readBy plan.dispatches)
    (hwritten : buffer ∉ writtenBy plan.dispatches plan.copies)
    (h : outcomeOf plan.carryOut engine = .ok result) :
    (stateAfter plan.carryOut engine).device.bytesOf buffer = engine.device.bytesOf buffer := by
  obtain ⟨⟨serial, hsubmit⟩, -, hafter⟩ := carryOut_eq_ok h
  obtain ⟨passes, moves, hsubmits⟩ := submits_of_submit hfitting hfaithful hplain hsubmit
  rw [hafter, device_foldl_release]
  exact (hsubmits.untouched buffer hread hwritten).2

end CallPlan

/-! ### What a call has done -/

namespace Engine

/-- An array has been released once: its buffer waits in the queue for the last submission, and is
in no other place. -/
structure ReleasedOnce (engine : Engine) (buffer : Nat) : Prop where
  pending : engine.pending.filter (fun entry ↦ entry.2 = buffer) = [(engine.serial, buffer)]
  owned : buffer ∉ engine.owned
  destroyed : buffer ∉ engine.device.destroyed

theorem releasedOnce_of_pending {loose : List Nat} {earlier : List (Nat × Nat)}
    (hcustody : engine.Custody loose) (hactive : engine.lost = none)
    (hpending : engine.pending = earlier ++ [(engine.serial, buffer)]) :
    engine.ReleasedOnce buffer := by
  have hplaces := accounts_iff.mp (hcustody.accounts hactive) buffer
  have honce : (List.range' 1 engine.device.buffers.size).count buffer ≤ 1 :=
    List.nodup_iff_count_le_one.mp List.nodup_range' buffer
  have hqueued : engine.queued.count buffer = (earlier.map Prod.snd).count buffer + 1 := by
    rw [queued, hpending, List.map_append, List.count_append, List.map_singleton,
      List.count_singleton_self]
  rw [places, hqueued] at hplaces
  refine ⟨?_, List.count_eq_zero.mp (by omega), List.count_eq_zero.mp (by omega)⟩
  have hnone : buffer ∉ earlier.map Prod.snd := List.count_eq_zero.mp (by omega)
  have hearlier : earlier.filter (fun entry ↦ entry.2 = buffer) = [] := by
    refine List.filter_eq_nil_iff.mpr fun entry hmem heq ↦ hnone ?_
    exact of_decide_eq_true heq ▸ List.mem_map_of_mem hmem
  rw [hpending, List.filter_append, hearlier]
  simp

end Engine

/-- What a call answers whose last pass is `last`, and the copies it submits after its passes.
Without an output that is a fresh array. An output that is no input is written by the last pass. One
that is also an input takes over a temporary array of its size, which the last pass writes. -/
inductive Answers (engine after : Engine) (inputs : List Nat) (last : Dispatch) :
    Value → Nat → List Command → Prop where
  | fresh {target : Nat} (new : engine.nextBuffer ≤ target) (written : last.WritesOnly target) :
      Answers engine after inputs last .none target []
  | direct {out : Nat} {described : String} (apart : out ∉ inputs) (written : last.WritesOnly out) :
      Answers engine after inputs last (.array out described) out []
  | shared {out temporary : Nat} {described : String} (shared : out ∈ inputs)
      (new : engine.nextBuffer ≤ temporary) (written : last.WritesOnly temporary)
      (size : after.device.sizeOf temporary = after.device.sizeOf out)
      (copied : (after.device.bytesOf out).Same (after.device.bytesOf temporary))
      (released : after.ReleasedOnce temporary) :
      Answers engine after inputs last (.array out described) out
        [.copy temporary out (after.device.sizeOf out)]

/-- What a call has done that has succeeded: no pass reads and writes one buffer, all passes and the
copies after them are one submission, and of the arrays there are the output is newer on the device
and the others have at most been sent as inputs. -/
structure EngineCall.Completes (call : EngineCall) (engine after : Engine) (result : Nat)
    (dispatches : List Dispatch) (passes moves : List Command) : Prop where
  separates : ∀ dispatch ∈ dispatches, dispatch.Separates
  encodes : List.Forall₂ (fun dispatch pass ↦ after.device.Encodes dispatch
    (gridFor after.workgroupSize after.maxWorkgroups dispatch.lanes) pass) dispatches passes
  serial : after.serial = engine.serial + 1
  submissions : after.device.submissions = engine.device.submissions ++ [passes ++ moves]
  answers : ∃ last, dispatches.getLast? = some last ∧
    Answers engine after call.inputs last call.out result moves
  output : ∀ buffer described, call.out = .array buffer described →
    ∀ old, engine.arrays.lookup buffer = some old →
      ∃ new, after.arrays.lookup buffer = some new ∧ Marked old new
  others : ∀ buffer, (∀ described, call.out ≠ .array buffer described) →
    ∀ old, engine.arrays.lookup buffer = some old →
      SentAmong call.inputs engine after buffer old

/-! ### What plans lead to -/

section Arrays

variable {call : EngineCall} {engine planned submitted after : Engine} {loose : List Nat}
  {passes moves : List Command} {old : ArrayState}

namespace CallPlan.Apart

theorem target_mem_writtenBy (h : plan.Apart call engine planned) :
    plan.target ∈ writtenBy plan.dispatches plan.copies := by
  have hpasses := h.binds.written
  rw [writtenBy, List.map_nil, List.append_nil] at hpasses
  exact List.mem_append_left _ hpasses

/-- Of the arrays there were, the passes and copies of a plan write the given output only. -/
theorem mem_writtenBy_iff (h : plan.Apart call engine planned) (hlt : buffer < engine.nextBuffer) :
    buffer ∈ writtenBy plan.dispatches plan.copies ↔
      ∃ described, call.out = .array buffer described := by
  have hpasses : buffer ∈ writtenBy plan.dispatches [] ↔ buffer = plan.target :=
    ⟨fun hmem ↦ (h.binds.writes buffer hmem).resolve_right (Nat.not_le_of_lt hlt),
      fun heq ↦ heq ▸ h.binds.written⟩
  have hcopies : buffer ∈ plan.copies.map Prod.snd ↔ plan.given = some buffer := by
    simp [copies]
  rw [← h.resolves.out_iff hlt, ← hpasses, ← hcopies, ← List.mem_append, writtenBy, writtenBy,
    List.map_nil, List.append_nil]

/-- Of the arrays there were, the passes of a plan read the operands only. -/
theorem mem_readBy_iff (h : plan.Apart call engine planned) (hlt : buffer < engine.nextBuffer) :
    buffer ∈ readBy plan.dispatches ↔ buffer ∈ call.inputs :=
  ⟨fun hmem ↦ (h.binds.reads buffer hmem).resolve_right (Nat.not_le_of_lt hlt),
    fun hmem ↦ h.binds.read hmem⟩

/-- An array that was there is newer on the device if it is the given output. -/
theorem exists_marked {described : String} (h : plan.Apart call engine planned)
    (hsubmits : Submits plan.dispatches plan.copies passes moves planned submitted)
    (hlt : buffer < engine.nextBuffer) (hold : engine.arrays.lookup buffer = some old)
    (hout : call.out = .array buffer described) :
    ∃ new, submitted.arrays.lookup buffer = some new ∧ Marked old new :=
  hsubmits.written buffer ((h.mem_writtenBy_iff hlt).mpr ⟨described, hout⟩) old
    (h.enlarges.arrays buffer old hold)

/-- An array that was there is at most sent if it is not the given output. -/
theorem sentAmong (h : plan.Apart call engine planned)
    (hsubmits : Submits plan.dispatches plan.copies passes moves planned submitted)
    (hlt : buffer < engine.nextBuffer) (hold : engine.arrays.lookup buffer = some old)
    (hout : ∀ described, call.out ≠ .array buffer described) :
    SentAmong call.inputs engine submitted buffer old := by
  have hbytes := h.enlarges.bytes buffer hlt
  have hplanned := h.enlarges.arrays buffer old hold
  have hcontent : planned.content buffer = engine.content buffer := by
    rw [content_of_lookup hold, content_of_lookup hplanned, hbytes]
  have hunwritten : buffer ∉ writtenBy plan.dispatches plan.copies := fun hmem ↦ by
    obtain ⟨described, heq⟩ := (h.mem_writtenBy_iff hlt).mp hmem
    exact hout described heq
  have hsent := hsubmits.others buffer hunwritten old hplanned
  unfold SentAmong at hsent ⊢
  simp only [h.mem_readBy_iff hlt, hbytes, hcontent] at hsent
  exact hsent

/-- What comes after the submission of a plan changes its own arrays only, and not the device. -/
theorem after_submission (h : plan.Apart call engine planned) (submitted : Engine) :
    let after := plan.spent.foldl (fun engine buffer ↦ engine.release buffer) submitted
    after.device = submitted.device ∧ after.serial = submitted.serial ∧
      ∀ buffer, buffer < engine.nextBuffer →
        after.arrays.lookup buffer = submitted.arrays.lookup buffer := by
  obtain ⟨_, hjoined, -⟩ := joined_foldl_release plan.spent submitted
  refine ⟨device_foldl_release _ _, hjoined.serial, fun buffer hlt ↦ lookup_foldl_release ?_ _⟩
  intro hmem
  rcases List.mem_append.mp hmem with hbetween | htarget
  · exact Nat.not_le_of_lt hlt (h.between buffer hbetween).1
  · obtain ⟨out, hout, rfl⟩ := Option.map_eq_some_iff.mp (Option.mem_toList.mp htarget)
    exact Nat.not_le_of_lt hlt (hout ▸ h.resolves).of_given.2.1

/-- An output that is also an input is the same as the temporary array after the submission. -/
theorem same {serial out : Nat} (h : plan.Apart call engine planned) (hfitting : planned.Fitting)
    (hfaithful : planned.FaithfulCaches) (hgiven : plan.given = some out)
    (hlt : out < engine.nextBuffer) (hold : engine.arrays.lookup out = some old)
    (hsubmit : outcomeOf (Action.submit plan.dispatches plan.helpers plan.copies) planned =
      .ok serial) :
    let submitted :=
      stateAfter (Action.submit plan.dispatches plan.helpers plan.copies) planned
    (submitted.device.bytesOf out).Same (submitted.device.bytesOf plan.target) := by
  have hcopies : plan.copies = [(plan.target, out)] := by
    rw [copies, hgiven]
    rfl
  obtain ⟨-, hnew, -, ⟨array, hlookup, -⟩, hsize⟩ := (hgiven ▸ h.resolves).of_given
  rw [hcopies] at hsubmit ⊢
  refine same_of_submit hfitting hfaithful h.binds.readsPlain
    (Nat.ne_of_gt (Nat.lt_of_lt_of_le hlt hnew)) ?_ hlookup (h.enlarges.arrays out old hold) ?_
    hsubmit
  · rw [hsize, Device.sizeOf, Device.sizeOf, h.enlarges.bytes out hlt]
  · exact hcopies ▸ h.target_mem_writtenBy

/-- The temporary array of a plan is released once, when the plan has been carried out. -/
theorem releasedOnce {out : Nat} (h : plan.Apart call engine planned)
    (hgiven : plan.given = some out)
    (hsubmits : Submits plan.dispatches plan.copies passes moves planned submitted)
    (hactive : submitted.lost = none)
    (hafter : after = plan.spent.foldl (fun engine buffer ↦ engine.release buffer) submitted)
    (hcustody : after.Custody loose) : after.ReleasedOnce plan.target := by
  set before := plan.between.foldl (fun engine buffer ↦ engine.release buffer) submitted
  obtain rfl : after = before.release plan.target := by
    rw [hafter, spent, List.foldl_append, hgiven]
    rfl
  have hlost : before.lost = none := (lost_foldl_release plan.between submitted).1.trans hactive
  have hbetween : plan.target ∉ plan.between := fun hmem ↦ (h.between _ hmem).2 rfl
  obtain ⟨-, -, -, ⟨array, hmade, hunreleased⟩, -⟩ := (hgiven ▸ h.resolves).of_given
  obtain ⟨new, hnew, hmarked⟩ := hsubmits.written plan.target h.target_mem_writtenBy array hmade
  have hpending := pending_release ((lookup_foldl_release hbetween submitted).trans hnew)
    (hmarked.released.trans hunreleased) hlost
  obtain ⟨_, hjoined, -⟩ := joined_release plan.target before
  rw [← hjoined.serial] at hpending
  exact releasedOnce_of_pending hcustody ((lost_release plan.target before).1.trans hlost) hpending

/-- What a call answers, after the submission of its plan and the releases that follow it. -/
theorem answers {last : Dispatch} (h : plan.Apart call engine planned)
    (hout : ∀ buffer described, call.out = .array buffer described → buffer < engine.nextBuffer)
    (hlast : last.WritesOnly plan.target)
    (hsubmits : Submits plan.dispatches plan.copies passes moves planned submitted)
    (hdevice : after.device = submitted.device)
    (hcopied : ∀ out, plan.given = some out →
      (submitted.device.bytesOf out).Same (submitted.device.bytesOf plan.target))
    (hreleased : ∀ out, plan.given = some out → after.ReleasedOnce plan.target) :
    Answers engine after call.inputs last call.out (plan.given.getD plan.target) moves := by
  obtain ⟨dispatches, helpers, between, target, given⟩ := plan
  have hresolves := h.resolves
  have hmoves := hsubmits.moves
  dsimp only at hlast hcopied hreleased hresolves ⊢
  generalize call.out = value at hresolves hout ⊢
  cases hresolves with
  | fresh new =>
    obtain rfl := List.forall₂_nil_left_iff.mp hmoves
    exact .fresh new hlast
  | direct apart =>
    obtain rfl := List.forall₂_nil_left_iff.mp hmoves
    exact .direct apart hlast
  | @shared out _ described shared new made size =>
    obtain ⟨move, rest, rfl, hnil, rfl⟩ := List.forall₂_cons_left_iff.mp hmoves
    obtain rfl := List.forall₂_nil_left_iff.mp hnil
    have hsame : after.device.sizeOf target = after.device.sizeOf out := by
      rw [hdevice, hsubmits.sizes, hsubmits.sizes, size, Device.sizeOf, Device.sizeOf,
        h.enlarges.bytes out (hout out described rfl)]
    rw [Option.getD_some, ← hdevice]
    exact .shared shared new hlast hsame (hdevice ▸ hcopied out rfl) (hreleased out rfl)

end CallPlan.Apart

/-- A call that succeeds leaves no buffer loose. -/
theorem custody_of_action (hcustody : engine.Custody loose)
    (hadmits : Value.arrays call.values ⊆ engine.arrays.map Prod.fst)
    (h : outcomeOf call.action engine = .ok result) :
    (stateAfter call.action engine).Custody loose := by
  have hout : Value.arrays [call.out] ⊆ Value.arrays call.values := Value.arrays_singleton_subset
    (List.mem_cons_of_mem _ (EngineCall.mem_values.mpr (.inl rfl))) (List.Subset.refl _)
  have hkept := KeepsCustody.action call hout loose _ engine (hcustody.holding hadmits)
  rw [h] at hkept
  exact hkept.custody

/-- A plan is settled in a state that is as sound. -/
theorem sound_of_plan (hfitting : engine.Fitting) (hfaithful : engine.FaithfulCaches)
    (call : EngineCall) :
    (stateAfter call.plan engine).Fitting ∧ (stateAfter call.plan engine).FaithfulCaches := by
  obtain ⟨hfitting', -⟩ :=
    Moves.plan (.newArray harmless_allocate) harmless_stridesBuffer call engine hfitting
  obtain ⟨hfaithful', -⟩ :=
    Moves.plan (.newArray caching_allocate) caching_stridesBuffer call engine hfaithful
  exact ⟨hfitting', hfaithful'⟩

/-- Whatever a call on arrays that exist is given, if its plan is carried out it completes. -/
theorem completes_of_plan (hfitting : engine.Fitting) (hfaithful : engine.FaithfulCaches)
    (hcustody : engine.Custody loose)
    (hadmits : Value.arrays call.values ⊆ engine.arrays.map Prod.fst)
    (hplan : outcomeOf call.plan engine = .ok plan)
    (hcarried : outcomeOf plan.carryOut (stateAfter call.plan engine) = .ok result) :
    ∃ passes moves, call.Completes engine (stateAfter plan.carryOut (stateAfter call.plan engine))
      result plan.dispatches passes moves := by
  have hout (buffer : Nat) (described : String) (hout : call.out = .array buffer described) :
      ∃ array, engine.arrays.lookup buffer = some array :=
    exists_lookup_of_mem (hadmits (EngineCall.mem_arrays_of_out hout))
  have hnumbered := hcustody.numbered_arrays
  have hkept : (stateAfter plan.carryOut (stateAfter call.plan engine)).Custody loose := by
    have haction : outcomeOf call.action engine = .ok result :=
      call.action_eq ▸ outcomeOf_bind_eq_ok.mpr ⟨plan, hplan, hcarried⟩
    rw [← stateAfter_bind_of_ok hplan, ← call.action_eq]
    exact custody_of_action hcustody hadmits haction
  have hapart :=
    apart_of_plan hcustody (fun buffer hmem ↦ exists_lookup_of_mem (hadmits hmem)) hplan
  obtain ⟨hfitting', hfaithful'⟩ := sound_of_plan hfitting hfaithful call
  set planned := stateAfter call.plan engine
  obtain ⟨⟨serial, hsubmit⟩, rfl, hafter⟩ := CallPlan.carryOut_eq_ok hcarried
  obtain ⟨passes, moves, hsubmits⟩ :=
    submits_of_submit hfitting' hfaithful' hapart.binds.readsPlain hsubmit
  set submitted := stateAfter (Action.submit plan.dispatches plan.helpers plan.copies) planned
  set after := stateAfter plan.carryOut planned
  have hfixture : SameFixture planned after := CallPlan.sameFixture_carryOut plan planned
  obtain ⟨hdevice, hserial, hlookup⟩ := hapart.after_submission submitted
  rw [← hafter] at hdevice hserial hlookup
  refine ⟨passes, moves, ?_⟩
  constructor
  case separates => exact hapart.binds.separates
  case encodes =>
    rw [hfixture.workgroupSize, hfixture.maxWorkgroups, hdevice]
    exact hsubmits.encodes
  case serial => rw [hserial, hsubmits.serial, hapart.enlarges.serial]
  case submissions =>
    rw [hdevice, hsubmits.submissions, Device.submissions_of_quietUntil hapart.enlarges.quiet]
  case answers =>
    obtain ⟨last, hlast, hwrites⟩ := hapart.binds.last
    obtain ⟨_, _, hactive, -⟩ := submit_eq_ok hsubmit
    replace hactive : submitted.lost = none :=
      (sameLoss_submit plan.dispatches plan.helpers plan.copies planned).trans hactive
    refine ⟨last, hlast, hapart.answers (fun buffer described h ↦ ?_) hwrites hsubmits hdevice
      (fun out hgiven ↦ ?_) fun out hgiven ↦
        hapart.releasedOnce hgiven hsubmits hactive hafter hkept⟩
    · obtain ⟨old, hold⟩ := hout buffer described h
      exact hnumbered buffer old hold
    · obtain ⟨-, -, ⟨described, h⟩, -⟩ := (hgiven ▸ hapart.resolves).of_given
      obtain ⟨old, hold⟩ := hout out described h
      exact hapart.same hfitting' hfaithful' hgiven (hnumbered out old hold) hold hsubmit
  case output =>
    intro buffer described h old hold
    have hlt := hnumbered buffer old hold
    rw [hlookup buffer hlt]
    exact hapart.exists_marked hsubmits hlt hold h
  case others =>
    intro buffer h old hold
    have hlt := hnumbered buffer old hold
    exact (hapart.sentAmong hsubmits hlt hold h).trans_sameAt
      ⟨hlookup buffer hlt, congrArg (Device.bytesOf · buffer) hdevice⟩

/-- Whatever a call on arrays that exist is given, if it succeeds it completes. -/
theorem completes_of_action (hfitting : engine.Fitting) (hfaithful : engine.FaithfulCaches)
    (hcustody : engine.Custody loose)
    (hadmits : Value.arrays call.values ⊆ engine.arrays.map Prod.fst)
    (h : outcomeOf call.action engine = .ok result) :
    ∃ dispatches passes moves, call.Completes engine (stateAfter call.action engine) result
      dispatches passes moves := by
  obtain ⟨plan, hplan, hcarried, hafter⟩ := EngineCall.action_eq_ok h
  rw [hafter]
  exact ⟨plan.dispatches, completes_of_plan hfitting hfaithful hcustody hadmits hplan hcarried⟩

end Arrays

/-! ### Calls on courses -/

/-- Whatever has happened before, with whichever arrays as operands and output, a call that succeeds
makes one submission, in which no pass reads and writes one buffer. It answers the output that it is
given, by way of a temporary array if that is an operand too, and nothing else is written. -/
theorem completes_of_call (computing : Computing) (features : List String) (limits : Limits)
    (destroyFailure : Option String) (options : Options) (happenings : List Happening)
    (hgrounded : (Course.start (.createWith computing features limits destroyFailure)
      options).GroundedAll happenings) (call : EngineCall) {result : Nat} :
    let engine := ((Course.start (.createWith computing features limits destroyFailure)
      options).afterAll happenings).workspace.engine
    Value.arrays call.values ⊆ engine.arrays.map Prod.fst →
    outcomeOf call.action engine = .ok result →
      ∃ dispatches passes moves, call.Completes engine (stateAfter call.action engine) result
        dispatches passes moves := by
  intro engine hadmits h
  have hreachable := reachable_of_course computing features limits destroyFailure options happenings
  obtain ⟨_, hcustody⟩ :=
    exists_custody_of_groundedAll computing features limits destroyFailure options hgrounded
  exact completes_of_action hreachable.fitting hreachable.faithfulCaches hcustody hadmits h

/-- Two arrays, the second one with ones the device has not seen. -/
def unsentOnes : List Happening :=
  [.step (.make (.layout (.value (.int 2)) (.value (.text "f32")) (.value .none)) (some "a")),
    .step (.make (.layout (.value (.int 2)) (.value (.text "f32")) (.value .none)) (some "b")),
    .step (.set "b" (.value (.int 1)) [])]

/-- The sum of both arrays, stored in the first one. -/
def addition : EngineCall := .elementwise "add" [.array 1 "", .array 2 ""] (.array 1 "")

/-- The sum goes through a third array, which waits in the queue afterwards. -/
theorem completes_of_call_shared :
    let engine := (idleCourse.afterAll unsentOnes).workspace.engine
    idleCourse.GroundedAll unsentOnes ∧ (engine.array 2).hostDirty = true ∧
      outcomeOf addition.action engine = .ok 1 ∧
      (stateAfter addition.action engine).pending = [(1, 3)] ∧
      ∃ dispatches passes moves, addition.Completes engine (stateAfter addition.action engine) 1
        dispatches passes moves := by
  have hgrounded : idleCourse.GroundedAll unsentOnes := by decide +kernel
  have hadmits : Value.arrays addition.values ⊆
      (idleCourse.afterAll unsentOnes).workspace.engine.arrays.map Prod.fst := by decide +kernel
  have houtcome : outcomeOf addition.action (idleCourse.afterAll unsentOnes).workspace.engine =
      .ok 1 := eq_ok_iff.mpr (by decide +kernel)
  refine ⟨hgrounded, by decide +kernel, houtcome, by decide +kernel, ?_⟩
  unfold idleCourse at hgrounded hadmits houtcome ⊢
  exact completes_of_call _ _ _ _ _ unsentOnes hgrounded addition hadmits houtcome

end ComputeArray
