import ComputeArray.Proofs.Loading.Turn
import ComputeArray.Proofs.Loss.Terminal

/-!
# Coroutines that load an array

Any number of coroutines load one array, or get elements of it. The first that finds news on the
device creates a read-back and records it as pending. Those that arrive while it is recorded await
the same one. A read-back clears the record when it ends, whether it succeeds or raises. A `Loop`
has the callers and the read-backs of one array beside the engine, whose actions they take, and
`Loop.Advances` lists all that one event does (`advances_of_after`). At any time at most one
read-back is outstanding, and it is the one recorded as pending: the load the engine has under way
is as far as this one has come. Every event keeps that (`sound_of_advances`).
-/

set_option autoImplicit false

namespace ComputeArray

open Engine

/-- How far a read-back has come. -/
inductive Progress where
  | created
  | copying
  | finished
  /-- The copy could not be mapped. -/
  | failed (failure : Failure)
  /-- The device was lost before it could copy. -/
  | refused (failure : Failure)

namespace Progress

def isOutstanding : Progress → Bool
  | created => true
  | copying => true
  | _ => false

def hasCopied : Progress → Bool
  | created => false
  | refused _ => false
  | _ => true

/-- What the end of a read-back tells those who await it. -/
def outcome? : Progress → Option (Except Failure Unit)
  | finished => some (.ok ⟨⟩)
  | failed failure => some (.error failure)
  | refused failure => some (.error failure)
  | _ => none

end Progress

/-- A coroutine that loads, or that gets the element at an index. -/
inductive Caller where
  | waiting (index : Option (List Value)) (task : Nat)
  | returned (outcome : Except Failure Value)

/-- What a caller returns once there is nothing left to wait for. -/
def Action.answer (buffer : Nat) : Option (List Value) → Action Value
  | none => return .none
  | some index => hostElement buffer index

/-- The coroutines of one array. -/
structure Loop where
  engine : Engine
  /-- All read-backs there have been, in the order of their creation. -/
  readBacks : List Progress
  /-- The read-back that is recorded as pending. -/
  pending : Option Nat
  callers : List Caller

namespace Loop

inductive Event where
  | call (index : Option (List Value))
  | start (task : Nat)
  | complete (task : Nat)
  | fail (task : Nat) (failure : Failure)
  | resume (caller : Nat)
  /-- What else happens to the engine. -/
  | work (primitive : Primitive)

section Events

variable (buffer : Nat)

def call (index : Option (List Value)) (loop : Loop) : Loop :=
  match loop.pending with
  | some task => { loop with callers := loop.callers ++ [.waiting index task] }
  | none =>
    if (loop.engine.array buffer).deviceDirty then
      { engine := stateAfter (Action.requestLoad buffer) loop.engine
        readBacks := loop.readBacks ++ [.created]
        pending := some loop.readBacks.length
        callers := loop.callers ++ [.waiting index loop.readBacks.length] }
    else
      { loop with callers :=
          loop.callers ++ [.returned (outcomeOf (Action.answer buffer index) loop.engine)] }

/-- A read-back runs up to the map of its copy. -/
def start (task : Nat) (loop : Loop) : Loop :=
  match loop.readBacks[task]? with
  | some .created =>
    let started := { loop with engine := stateAfter (Action.startLoad buffer) loop.engine }
    match outcomeOf (Action.startLoad buffer) loop.engine with
    | .ok _ => { started with readBacks := loop.readBacks.set task .copying }
    | .error failure =>
      { started with readBacks := loop.readBacks.set task (.refused failure), pending := none }
  | _ => loop

/-- The copy of a read-back is mapped. -/
def complete (task : Nat) (loop : Loop) : Loop :=
  match loop.readBacks[task]? with
  | some .copying =>
    { loop with
      engine := stateAfter (Action.finishLoad buffer) loop.engine
      readBacks := loop.readBacks.set task .finished
      pending := none }
  | _ => loop

/-- The map of a copy raises. -/
def fail (task : Nat) (failure : Failure) (loop : Loop) : Loop :=
  match loop.readBacks[task]? with
  | some .copying =>
    { loop with
      engine := stateAfter (Action.setLoading buffer .idle) loop.engine
      readBacks := loop.readBacks.set task (.failed failure)
      pending := none }
  | _ => loop

/-- A caller goes on after the read-back it awaits has ended, however long after. -/
def resume (caller : Nat) (loop : Loop) : Loop :=
  match loop.callers[caller]? with
  | some (.waiting index task) =>
    match loop.readBacks[task]?.bind Progress.outcome? with
    | some ending =>
      let outcome := ending.bind fun _ => outcomeOf (Action.answer buffer index) loop.engine
      { loop with callers := loop.callers.set caller (.returned outcome) }
    | none => loop
  | _ => loop

/-- The state after an event. What cannot happen changes nothing. -/
def after (loop : Loop) : Event → Loop
  | .call index => loop.call buffer index
  | .start task => loop.start buffer task
  | .complete task => loop.complete buffer task
  | .fail task failure => loop.fail buffer task failure
  | .resume caller => loop.resume buffer caller
  | .work primitive => { loop with engine := loop.engine.after primitive }

def afterAll (loop : Loop) (events : List Event) : Loop := events.foldl (Loop.after buffer) loop

end Events

def Outstanding (loop : Loop) (task : Nat) : Prop :=
  ∃ progress, loop.readBacks[task]? = some progress ∧ progress.isOutstanding = true

variable {buffer task other : Nat} {loop next : Loop} {event : Event} {new : ArrayState}
  {progress : Progress}

/-- What else happens does so beside the loads of the array. -/
def Event.Beside (buffer : Nat) : Event → Prop
  | .work primitive => primitive.Beside buffer
  | _ => True

/-- The pending read-back, and the load the engine has under way. -/
inductive Phase (buffer : Nat) (loop : Loop) : Prop
  | idle (pending : loop.pending = none) (loading : (loop.engine.array buffer).loading = .idle)
  | scheduled {task : Nat} (pending : loop.pending = some task)
      (progress : loop.readBacks[task]? = some .created)
      (loading : (loop.engine.array buffer).loading = .scheduled)
      (news : (loop.engine.array buffer).deviceDirty = true)
  | copying {task : Nat} {readBack : ReadBack} (pending : loop.pending = some task)
      (progress : loop.readBacks[task]? = some .copying)
      (loading : (loop.engine.array buffer).loading = .copying readBack)
      (news : (loop.engine.array buffer).deviceDirty = true)
      (version : readBack.version ≤ (loop.engine.array buffer).version)

structure Sound (buffer : Nat) (loop : Loop) : Prop where
  phase : Phase buffer loop
  outstanding : ∀ task, loop.Outstanding task → loop.pending = some task
  /-- Nobody awaits a read-back that does not exist. -/
  waiting : ∀ index task, Caller.waiting index task ∈ loop.callers → task < loop.readBacks.length

/-- All that an event does. -/
inductive Advances (buffer : Nat) (loop next : Loop) : Event → Prop
  | stayed {event : Event} (made : next = loop) : Advances buffer loop next event
  | answered {index : Option (List Value)} {outcome : Except Failure Value}
      (idle : loop.pending = none)
      (made : next = { loop with callers := loop.callers ++ [.returned outcome] }) :
      Advances buffer loop next (.call index)
  | joined {index : Option (List Value)} {task : Nat} (pending : loop.pending = some task)
      (made : next = { loop with callers := loop.callers ++ [.waiting index task] }) :
      Advances buffer loop next (.call index)
  | created {index : Option (List Value)} {engine : Engine} (idle : loop.pending = none)
      (news : (loop.engine.array buffer).deviceDirty = true)
      (array : engine.array buffer = { loop.engine.array buffer with loading := .scheduled })
      (submissions : engine.device.submissions = loop.engine.device.submissions)
      (made : next = {
        engine
        readBacks := loop.readBacks ++ [.created]
        pending := some loop.readBacks.length
        callers := loop.callers ++ [.waiting index loop.readBacks.length] }) :
      Advances buffer loop next (.call index)
  | started {task : Nat} {engine : Engine} {readBack : ReadBack}
      (pending : loop.pending = some task) (progress : loop.readBacks[task]? = some .created)
      (loading : (loop.engine.array buffer).loading = .scheduled)
      (active : loop.engine.lost = none)
      (news : (loop.engine.array buffer).deviceDirty = true)
      (version : readBack.version = (loop.engine.array buffer).version)
      (array : engine.array buffer =
        { loop.engine.array buffer with loading := .copying readBack })
      (submissions : engine.device.submissions = loop.engine.device.submissions ++
        [[.copy buffer readBack.staging (loop.engine.device.sizeOf buffer)]])
      (made : next = { loop with engine, readBacks := loop.readBacks.set task .copying }) :
      Advances buffer loop next (.start task)
  | refused {task : Nat} {engine : Engine} {notice : LossNotice}
      (pending : loop.pending = some task) (progress : loop.readBacks[task]? = some .created)
      (loading : (loop.engine.array buffer).loading = .scheduled)
      (lost : loop.engine.lost = some notice)
      (news : (loop.engine.array buffer).deviceDirty = true)
      (array : engine.array buffer = { loop.engine.array buffer with loading := .idle })
      (submissions : engine.device.submissions = loop.engine.device.submissions)
      (made : next = { loop with
        engine, readBacks := loop.readBacks.set task (.refused notice.failure), pending := none }) :
      Advances buffer loop next (.start task)
  | completed {task : Nat} {engine : Engine} {readBack : ReadBack} {bytes : Bytes}
      (pending : loop.pending = some task) (progress : loop.readBacks[task]? = some .copying)
      (loading : (loop.engine.array buffer).loading = .copying readBack)
      (news : (loop.engine.array buffer).deviceDirty = true)
      (array : engine.array buffer =
        { (loop.engine.array buffer).readBack readBack bytes with loading := .idle })
      (submissions : engine.device.submissions = loop.engine.device.submissions)
      (made : next = { loop with
        engine, readBacks := loop.readBacks.set task .finished, pending := none }) :
      Advances buffer loop next (.complete task)
  | failed {task : Nat} {engine : Engine} {failure : Failure}
      (pending : loop.pending = some task) (progress : loop.readBacks[task]? = some .copying)
      (news : (loop.engine.array buffer).deviceDirty = true)
      (array : engine.array buffer = { loop.engine.array buffer with loading := .idle })
      (submissions : engine.device.submissions = loop.engine.device.submissions)
      (made : next = { loop with
        engine, readBacks := loop.readBacks.set task (.failed failure), pending := none }) :
      Advances buffer loop next (.fail task failure)
  | resumed {caller : Nat} {outcome : Except Failure Value}
      (made : next = { loop with callers := loop.callers.set caller (.returned outcome) }) :
      Advances buffer loop next (.resume caller)
  | worked {primitive : Primitive}
      (outlives : Outlives (loop.engine.array buffer)
        ((loop.engine.after primitive).array buffer))
      (made : next = { loop with engine := loop.engine.after primitive }) :
      Advances buffer loop next (.work primitive)

/-! ### Events -/

theorem outstanding_of_progress (h : loop.readBacks[task]? = some progress)
    (hprogress : progress.isOutstanding = true) : loop.Outstanding task := ⟨progress, h, hprogress⟩

theorem loading_of_idle (h : loop.Sound buffer) (hidle : loop.pending = none) :
    (loop.engine.array buffer).loading = .idle := by
  cases h.phase with
  | idle pending loading => exact loading
  | scheduled pending => cases hidle.symm.trans pending
  | copying pending => cases hidle.symm.trans pending

/-- A caller that arrives while a read-back is pending awaits it, and nothing else happens. -/
theorem call_of_pending (hpending : loop.pending = some task) (index : Option (List Value)) :
    loop.call buffer index = { loop with callers := loop.callers ++ [.waiting index task] } := by
  unfold call
  split
  · next found hfound =>
    cases hfound.symm.trans hpending
    rfl
  · next hnone => cases hnone.symm.trans hpending

/-- A caller that finds news and no pending read-back creates one. -/
theorem call_of_news (h : loop.Sound buffer) (hidle : loop.pending = none)
    (hnews : (loop.engine.array buffer).deviceDirty = true) (index : Option (List Value)) :
    loop.call buffer index = {
      engine := loop.engine.setArray buffer { loop.engine.array buffer with loading := .scheduled }
      readBacks := loop.readBacks ++ [.created]
      pending := some loop.readBacks.length
      callers := loop.callers ++ [.waiting index loop.readBacks.length] } := by
  rw [call, hidle, if_pos hnews, requestLoad_of_news (loading_of_idle h hidle) hnews]

theorem advances_call (h : loop.Sound buffer) (index : Option (List Value)) :
    Advances buffer loop (loop.call buffer index) (.call index) := by
  cases hpending : loop.pending with
  | some task => exact .joined hpending (call_of_pending hpending index)
  | none =>
    by_cases hnews : (loop.engine.array buffer).deviceDirty = true
    · exact .created hpending hnews (array_setArray_self _ (exists_lookup_of_deviceDirty hnews)) rfl
        (call_of_news h hpending hnews index)
    · exact .answered hpending (by rw [call, hpending, if_neg hnews])

/-- A read-back that has not started is the one the engine has scheduled. -/
theorem scheduled_of_progress (h : loop.Sound buffer)
    (hprogress : loop.readBacks[task]? = some .created) :
    loop.pending = some task ∧ (loop.engine.array buffer).deviceDirty = true ∧
      (loop.engine.array buffer).loading = .scheduled := by
  have hpending := h.outstanding task (outstanding_of_progress hprogress rfl)
  cases h.phase with
  | idle pending => cases pending.symm.trans hpending
  | scheduled pending progress loading news => exact ⟨hpending, news, loading⟩
  | copying pending progress =>
    cases pending.symm.trans hpending
    cases progress.symm.trans hprogress

/-- A read-back starts unless the device is lost. -/
theorem start_of_created (h : loop.Sound buffer)
    (hprogress : loop.readBacks[task]? = some .created) :
    (loop.engine.lost = none → (loop.start buffer task).readBacks[task]? = some .copying) ∧
      ∀ notice, loop.engine.lost = some notice →
        (loop.start buffer task).readBacks[task]? = some (.refused notice.failure) := by
  obtain ⟨-, -, hloading⟩ := scheduled_of_progress h hprogress
  have hlt := (List.getElem?_eq_some_iff.mp hprogress).1
  refine ⟨fun hactive ↦ ?_, fun notice hlost ↦ ?_⟩
  · obtain ⟨readBack, -, houtcome, -⟩ := startLoad_of_active hloading hactive
    rw [start, hprogress, houtcome]
    exact List.getElem?_set_self hlt
  · rw [start, hprogress, (startLoad_of_lost hlost hloading).1]
    exact List.getElem?_set_self hlt

theorem advances_start (h : loop.Sound buffer) (task : Nat) :
    Advances buffer loop (loop.start buffer task) (.start task) := by
  unfold start
  split
  · next hprogress =>
    obtain ⟨hpending, hnews, hloading⟩ := scheduled_of_progress h hprogress
    cases hlost : loop.engine.lost with
    | none =>
      obtain ⟨readBack, hversion, houtcome, harray, hsubmissions⟩ :=
        startLoad_of_active hloading hlost
      rw [houtcome]
      exact .started hpending hprogress hloading hlost hnews hversion harray hsubmissions rfl
    | some notice =>
      obtain ⟨houtcome, hstate⟩ := startLoad_of_lost hlost hloading
      rw [houtcome, hstate]
      exact .refused hpending hprogress hloading hlost hnews
        (array_setArray_self _ (exists_lookup_of_deviceDirty hnews)) rfl rfl
  · exact .stayed rfl

/-- A read-back that has copied is the one the engine has under way. -/
theorem copying_of_progress (h : loop.Sound buffer)
    (hprogress : loop.readBacks[task]? = some .copying) :
    loop.pending = some task ∧ (loop.engine.array buffer).deviceDirty = true ∧
      ∃ readBack, (loop.engine.array buffer).loading = .copying readBack ∧
        readBack.version ≤ (loop.engine.array buffer).version := by
  have hpending := h.outstanding task (outstanding_of_progress hprogress rfl)
  cases h.phase with
  | idle pending => cases pending.symm.trans hpending
  | scheduled pending progress =>
    cases pending.symm.trans hpending
    cases progress.symm.trans hprogress
  | copying pending progress loading news version => exact ⟨hpending, news, _, loading, version⟩

theorem advances_complete (h : loop.Sound buffer) (task : Nat) :
    Advances buffer loop (loop.complete buffer task) (.complete task) := by
  unfold complete
  split
  · next hprogress =>
    obtain ⟨hpending, hnews, readBack, hloading, -⟩ := copying_of_progress h hprogress
    exact .completed hpending hprogress hloading hnews (array_finishLoad hloading)
      (submissions_finishLoad _ _) rfl
  · exact .stayed rfl

theorem advances_fail (h : loop.Sound buffer) (task : Nat) (failure : Failure) :
    Advances buffer loop (loop.fail buffer task failure) (.fail task failure) := by
  unfold fail
  split
  · next hprogress =>
    obtain ⟨hpending, hnews, -⟩ := copying_of_progress h hprogress
    exact .failed hpending hprogress hnews
      (array_setArray_self _ (exists_lookup_of_deviceDirty hnews)) rfl rfl
  · exact .stayed rfl

theorem advances_resume (loop : Loop) (caller : Nat) :
    Advances buffer loop (loop.resume buffer caller) (.resume caller) := by
  unfold resume
  split
  · split
    · exact .resumed rfl
    · exact .stayed rfl
  · exact .stayed rfl

theorem advances_of_after (h : loop.Sound buffer) (hfollows : loop.engine.Follows buffer)
    (hbeside : event.Beside buffer)
    (hnew : (loop.after buffer event).engine.arrays.lookup buffer = some new) :
    Advances buffer loop (loop.after buffer event) event := by
  cases event with
  | call index => exact advances_call h index
  | start task => exact advances_start h task
  | complete task => exact advances_complete h task
  | fail task failure => exact advances_fail h task failure
  | resume caller => exact advances_resume loop caller
  | work primitive =>
    change (loop.engine.after primitive).arrays.lookup buffer = some new at hnew
    obtain ⟨old, hold, houtlives⟩ := outlives_of_after hfollows hbeside hnew
    refine .worked ?_ rfl
    rwa [array_of_lookup hold, array_of_lookup hnew]

/-! ### What every event keeps -/

theorem Outstanding.cases_of_set (hmade : next.readBacks = loop.readBacks.set task progress)
    (h : next.Outstanding other) :
    (other = task ∧ progress.isOutstanding = true) ∨ (other ≠ task ∧ loop.Outstanding other) := by
  obtain ⟨found, hfound, houtstanding⟩ := h
  rw [hmade] at hfound
  by_cases hother : other = task
  · subst hother
    rw [List.getElem?_set_self'] at hfound
    obtain ⟨_, -, rfl⟩ := Option.map_eq_some_iff.mp hfound
    exact .inl ⟨rfl, houtstanding⟩
  · rw [List.getElem?_set_ne (Ne.symm hother)] at hfound
    exact .inr ⟨hother, found, hfound, houtstanding⟩

/-- When the pending read-back ends, the record is cleared and none is outstanding. -/
theorem sound_of_ended {engine : Engine} (h : loop.Sound buffer)
    (hpending : loop.pending = some task) (hover : progress.isOutstanding = false)
    (hidle : (engine.array buffer).loading = .idle) :
    Sound buffer { loop with
      engine, readBacks := loop.readBacks.set task progress, pending := none } where
  phase := .idle rfl hidle
  outstanding other hother := by
    rcases Outstanding.cases_of_set rfl hother with ⟨-, houtstanding⟩ | ⟨hne, hother⟩
    · rw [hover] at houtstanding
      cases houtstanding
    · have hsame := hpending.symm.trans (h.outstanding other hother)
      exact absurd (Option.some.inj hsame).symm hne
  waiting index other hmem := by
    rw [List.length_set]
    exact h.waiting index other hmem

theorem lt_of_pending (h : loop.Sound buffer) (hpending : loop.pending = some task) :
    task < loop.readBacks.length := by
  cases h.phase with
  | idle pending => cases pending.symm.trans hpending
  | scheduled pending progress =>
    cases pending.symm.trans hpending
    exact (List.getElem?_eq_some_iff.mp progress).1
  | copying pending progress =>
    cases pending.symm.trans hpending
    exact (List.getElem?_eq_some_iff.mp progress).1

/-- Callers that come and go are no concern of the read-backs. -/
theorem sound_of_callers {callers : List Caller} (h : loop.Sound buffer)
    (hwaiting : ∀ index task, Caller.waiting index task ∈ callers →
      task < loop.readBacks.length) : Sound buffer { loop with callers } where
  phase := by
    cases h.phase with
    | idle pending loading => exact .idle pending loading
    | scheduled pending progress loading news => exact .scheduled pending progress loading news
    | copying pending progress loading news version =>
      exact .copying pending progress loading news version
  outstanding := h.outstanding
  waiting := hwaiting

theorem sound_of_created {index : Option (List Value)} {engine : Engine} (h : loop.Sound buffer)
    (hidle : loop.pending = none) (hnews : (loop.engine.array buffer).deviceDirty = true)
    (harray : engine.array buffer = { loop.engine.array buffer with loading := .scheduled }) :
    Sound buffer {
      engine
      readBacks := loop.readBacks ++ [.created]
      pending := some loop.readBacks.length
      callers := loop.callers ++ [.waiting index loop.readBacks.length] } where
  phase := by
    refine .scheduled rfl List.getElem?_concat_length ?_ ?_
    · rw [harray]
    · rw [harray]
      exact hnews
  outstanding other hother := by
    obtain ⟨found, hfound, houtstanding⟩ := hother
    rcases Nat.lt_or_ge other loop.readBacks.length with hlt | hge
    · rw [List.getElem?_append_left hlt] at hfound
      have hbefore := h.outstanding other ⟨found, hfound, houtstanding⟩
      rw [hidle] at hbefore
      cases hbefore
    · have hbound := (List.getElem?_eq_some_iff.mp hfound).1
      rw [List.length_append, List.length_singleton] at hbound
      exact congrArg some (by omega)
  waiting index other hmem := by
    rw [List.length_append, List.length_singleton]
    rcases List.mem_append.mp hmem with hmem | hmem
    · exact Nat.lt_succ_of_lt (h.waiting index other hmem)
    · cases List.mem_singleton.mp hmem
      exact Nat.lt_succ_self _

theorem sound_of_started {engine : Engine} {readBack : ReadBack} (h : loop.Sound buffer)
    (hpending : loop.pending = some task) (hprogress : loop.readBacks[task]? = some .created)
    (hnews : (loop.engine.array buffer).deviceDirty = true)
    (hversion : readBack.version = (loop.engine.array buffer).version)
    (harray : engine.array buffer =
      { loop.engine.array buffer with loading := .copying readBack }) :
    Sound buffer { loop with engine, readBacks := loop.readBacks.set task .copying } where
  phase := by
    have hlt := (List.getElem?_eq_some_iff.mp hprogress).1
    have hloading : (engine.array buffer).loading = .copying readBack := by rw [harray]
    refine .copying hpending (List.getElem?_set_self hlt) hloading ?_ ?_
    · rw [harray]
      exact hnews
    · rw [harray]
      exact Nat.le_of_eq hversion
  outstanding other hother := by
    rcases Outstanding.cases_of_set rfl hother with ⟨rfl, -⟩ | ⟨-, hother⟩
    · exact hpending
    · exact h.outstanding other hother
  waiting index other hmem := by
    rw [List.length_set]
    exact h.waiting index other hmem

theorem sound_of_worked {engine : Engine} (h : loop.Sound buffer)
    (houtlives : Outlives (loop.engine.array buffer) (engine.array buffer)) :
    Sound buffer { loop with engine } where
  phase := by
    cases h.phase with
    | idle pending loading => exact .idle pending (houtlives.loading.trans loading)
    | scheduled pending progress loading news =>
      exact .scheduled pending progress (houtlives.loading.trans loading)
        (houtlives.deviceDirty news)
    | copying pending progress loading news version =>
      exact .copying pending progress (houtlives.loading.trans loading)
        (houtlives.deviceDirty news) (Nat.le_trans version houtlives.version)
  outstanding := h.outstanding
  waiting := h.waiting

theorem sound_of_advances (h : loop.Sound buffer) (hadvances : Advances buffer loop next event) :
    next.Sound buffer := by
  cases hadvances with
  | stayed made => exact made ▸ h
  | answered idle made =>
    rw [made]
    refine sound_of_callers h fun index task hmem ↦ ?_
    rcases List.mem_append.mp hmem with hmem | hmem
    · exact h.waiting index task hmem
    · cases List.mem_singleton.mp hmem
  | joined pending made =>
    rw [made]
    refine sound_of_callers h fun index task hmem ↦ ?_
    rcases List.mem_append.mp hmem with hmem | hmem
    · exact h.waiting index task hmem
    · cases List.mem_singleton.mp hmem
      exact lt_of_pending h pending
  | created idle news array submissions made =>
    rw [made]
    exact sound_of_created h idle news array
  | started pending progress loading active news version array submissions made =>
    rw [made]
    exact sound_of_started h pending progress news version array
  | refused pending progress loading lost news array submissions made =>
    rw [made]
    exact sound_of_ended h pending rfl (by rw [array])
  | completed pending progress loading news array submissions made =>
    rw [made]
    exact sound_of_ended h pending rfl (by rw [array])
  | failed pending progress news array submissions made =>
    rw [made]
    exact sound_of_ended h pending rfl (by rw [array])
  | resumed made =>
    rw [made]
    refine sound_of_callers h fun index task hmem ↦ ?_
    rcases List.mem_or_eq_of_mem_set hmem with hmem | heq
    · exact h.waiting index task hmem
    · cases heq
  | worked outlives made =>
    rw [made]
    exact sound_of_worked h outlives

/-! ### Ends of read-backs -/

theorem outstanding_of_pending (h : loop.Sound buffer) (hpending : loop.pending = some task) :
    loop.Outstanding task := by
  cases h.phase with
  | idle pending => cases pending.symm.trans hpending
  | scheduled pending progress =>
    cases pending.symm.trans hpending
    exact ⟨_, progress, rfl⟩
  | copying pending progress =>
    cases pending.symm.trans hpending
    exact ⟨_, progress, rfl⟩

/-- A read-back is added, or one that is outstanding goes on, and the others stay as they are. -/
theorem readBacks_of_advances (hadvances : Advances buffer loop next event) :
    next.readBacks = loop.readBacks ∨ next.readBacks = loop.readBacks ++ [.created] ∨
      ∃ acting progress, loop.Outstanding acting ∧
        next.readBacks = loop.readBacks.set acting progress := by
  cases hadvances with
  | stayed made => exact .inl (by rw [made])
  | answered idle made => exact .inl (by rw [made])
  | joined pending made => exact .inl (by rw [made])
  | resumed made => exact .inl (by rw [made])
  | worked outlives made => exact .inl (by rw [made])
  | created idle news array same made => exact .inr (.inl (by rw [made]))
  | started pending progress loading active news version array copied made =>
    exact .inr (.inr ⟨_, _, ⟨_, progress, rfl⟩, by rw [made]⟩)
  | refused pending progress loading lost news array same made =>
    exact .inr (.inr ⟨_, _, ⟨_, progress, rfl⟩, by rw [made]⟩)
  | completed pending progress loading news array same made =>
    exact .inr (.inr ⟨_, _, ⟨_, progress, rfl⟩, by rw [made]⟩)
  | failed pending progress news array same made =>
    exact .inr (.inr ⟨_, _, ⟨_, progress, rfl⟩, by rw [made]⟩)

theorem length_le_of_advances (hadvances : Advances buffer loop next event) :
    loop.readBacks.length ≤ next.readBacks.length := by
  rcases readBacks_of_advances hadvances with hsame | hadded | ⟨acting, progress, -, hset⟩
  · rw [hsame]
  · rw [hadded, List.length_append]
    exact Nat.le_add_right _ _
  · rw [hset, List.length_set]

/-- A read-back that has ended stays so. -/
theorem outstanding_of_advances (hadvances : Advances buffer loop next event)
    (hlt : task < loop.readBacks.length) (h : next.Outstanding task) : loop.Outstanding task := by
  rcases readBacks_of_advances hadvances with hsame | hadded | ⟨acting, progress, hacting, hset⟩
  · rwa [Outstanding, ← hsame]
  · obtain ⟨progress, hprogress, houtstanding⟩ := h
    rw [hadded, List.getElem?_append_left hlt] at hprogress
    exact ⟨progress, hprogress, houtstanding⟩
  · rcases h.cases_of_set hset with ⟨rfl, -⟩ | ⟨-, hbefore⟩
    · exact hacting
    · exact hbefore

/-! ### Kernels after the copy -/

/-- A kernel has written the array since it was copied. -/
def Overtaken (buffer : Nat) (loop : Loop) : Prop :=
  ∃ readBack, (loop.engine.array buffer).loading = .copying readBack ∧
    readBack.version < (loop.engine.array buffer).version

theorem overtaken_of_advances (hadvances : Advances buffer loop next event)
    (hpending : loop.pending = some task) (houtstanding : next.Outstanding task)
    (h : loop.Overtaken buffer) : next.Overtaken buffer := by
  obtain ⟨readBack, hcopying, hversion⟩ := h
  have hover {acting : Nat} {progress : Progress} (hacting : loop.pending = some acting)
      (hended : progress.isOutstanding = false)
      (hmade : next.readBacks = loop.readBacks.set acting progress) : False := by
    cases hacting.symm.trans hpending
    rcases houtstanding.cases_of_set hmade with ⟨-, hprogress⟩ | ⟨hne, -⟩
    · cases hended.symm.trans hprogress
    · exact hne rfl
  cases hadvances with
  | stayed made => exact made ▸ ⟨readBack, hcopying, hversion⟩
  | answered idle made => exact made ▸ ⟨readBack, hcopying, hversion⟩
  | joined pending made => exact made ▸ ⟨readBack, hcopying, hversion⟩
  | resumed made => exact made ▸ ⟨readBack, hcopying, hversion⟩
  | created idle => cases idle.symm.trans hpending
  | started pending progress loading => cases loading.symm.trans hcopying
  | refused pending progress loading => cases loading.symm.trans hcopying
  | completed pending progress loading news array same made =>
    exact (hover pending rfl (by rw [made])).elim
  | failed pending progress news array same made =>
    exact (hover pending rfl (by rw [made])).elim
  | worked outlives made =>
    rw [made]
    exact ⟨readBack, outlives.loading.trans hcopying, Nat.lt_of_lt_of_le hversion outlives.version⟩

/-- When the pending read-back ends, the record is cleared. The news stay on the device unless the
read-back has finished and no kernel has written the array since it was copied. -/
theorem cleared_of_advances (h : loop.Sound buffer) (hadvances : Advances buffer loop next event)
    (hpending : loop.pending = some task) (hover : ¬ next.Outstanding task) :
    next.pending = none ∧
      ((next.engine.array buffer).deviceDirty = true ∨
        next.readBacks[task]? = some .finished ∧ ¬ loop.Overtaken buffer) := by
  have houtstanding := outstanding_of_pending h hpending
  cases hadvances with
  | stayed made => exact absurd (made ▸ houtstanding) hover
  | answered idle made => exact absurd (made ▸ houtstanding) hover
  | joined pending made => exact absurd (made ▸ houtstanding) hover
  | resumed made => exact absurd (made ▸ houtstanding) hover
  | worked outlives made => exact absurd (made ▸ houtstanding) hover
  | created idle => cases idle.symm.trans hpending
  | started pending progress loading active news version array copied made =>
    cases pending.symm.trans hpending
    have hlt := (List.getElem?_eq_some_iff.mp progress).1
    refine absurd ⟨.copying, ?_, rfl⟩ hover
    rw [made]
    exact List.getElem?_set_self hlt
  | refused pending progress loading lost news array same made =>
    rw [made]
    exact ⟨rfl, .inl (by rw [array]; exact news)⟩
  | completed pending progress loading news array same made =>
    cases pending.symm.trans hpending
    have hlt := (List.getElem?_eq_some_iff.mp progress).1
    rw [made]
    refine ⟨rfl, ?_⟩
    by_cases hovertaken : loop.Overtaken buffer
    · obtain ⟨readBack, hcopying, hversion⟩ := hovertaken
      cases loading.symm.trans hcopying
      refine .inl ?_
      rw [array]
      exact (if_neg hversion.ne').trans news
    · exact .inr ⟨List.getElem?_set_self hlt, hovertaken⟩
  | failed pending progress news array same made =>
    rw [made]
    exact ⟨rfl, .inl (by rw [array]; exact news)⟩

end Loop

end ComputeArray
