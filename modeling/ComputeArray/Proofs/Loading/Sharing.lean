import ComputeArray.Proofs.Loading.Coroutines
import ComputeArray.Proofs.Loading.Observed
import Mathlib.Data.List.Induction

/-!
# Shared read-backs

Coroutines that load an array share its read-backs, in whichever order they arrive, go on and are
interleaved with kernels, the ends of maps and the loss of the device (`shares_of_runs`). One
read-back at most is outstanding, and it submits one copy; callers submit nothing. Whether it
finishes or raises, its end clears the record, so the next caller that finds news creates another
one. A kernel that writes the array after the copy leaves the device with news.
-/

set_option autoImplicit false

namespace ComputeArray.Loop

open Engine

variable {buffer task : Nat} {loop next : Loop} {event : Event} {start : Engine}
  {events past rest : List Event} {old new : ArrayState}

/-! ### Those who act -/

/-- Who takes a step. -/
inductive Actor where
  | caller
  | readBack (task : Nat)
  | other
  deriving DecidableEq

def Event.actor : Event → Actor
  | .call _ => .caller
  | .resume _ => .caller
  | .start task => .readBack task
  | .complete task => .readBack task
  | .fail task _ => .readBack task
  | .work _ => .other

/-- The submissions an event makes, if it is a step of the actor. -/
def submittedBy (actor : Actor) (event : Event) (before after : Engine) : List (List Command) :=
  if event.actor = actor then after.device.submissions.drop before.device.submissions.length else []

/-- The submissions an actor makes in a run. -/
def submissionsBy (buffer : Nat) (actor : Actor) : Loop → List Event → List (List Command)
  | _, [] => []
  | loop, event :: rest =>
    submittedBy actor event loop.engine (loop.after buffer event).engine ++
      submissionsBy buffer actor (loop.after buffer event) rest

theorem submissionsBy_snoc (actor : Actor) (loop : Loop) (past : List Event) (event : Event) :
    submissionsBy buffer actor loop (past ++ [event]) = submissionsBy buffer actor loop past ++
      submittedBy actor event (loop.afterAll buffer past).engine
        ((loop.afterAll buffer past).after buffer event).engine := by
  induction past generalizing loop with
  | nil => exact List.append_nil _
  | cons first rest ih =>
    rw [List.cons_append, submissionsBy, submissionsBy, ih, List.append_assoc]
    rfl

section Submissions

variable {actor : Actor} {before after : Engine} {submissions made : List (List Command)}

theorem submittedBy_of_ne (h : event.actor ≠ actor) : submittedBy actor event before after = [] :=
  if_neg h

theorem submittedBy_of_append (hactor : event.actor = actor)
    (h : after.device.submissions = before.device.submissions ++ made) :
    submittedBy actor event before after = made := by
  rw [submittedBy, if_pos hactor, h, List.drop_left]

theorem submittedBy_of_eq (h : after.device.submissions = before.device.submissions) :
    submittedBy actor event before after = [] := by
  rw [submittedBy, h, List.drop_length, ite_self]

/-- A read-back that has copied has submitted this one copy. -/
def Submitted (buffer : Nat) : Option Progress → List (List Command) → Prop
  | none, submissions => submissions = []
  | some progress, submissions =>
    if progress.hasCopied then ∃ staging size, submissions = [[.copy buffer staging size]]
    else submissions = []

/-- A step of a read-back only concerns this one. -/
theorem submitted_of_set {acting : Nat} {progress later : Progress}
    (hactor : event.actor = .readBack acting) (hprogress : loop.readBacks[acting]? = some progress)
    (hmade : after.device.submissions = before.device.submissions ++ made)
    (hlater : ∀ submissions, Submitted buffer (some progress) submissions →
      Submitted buffer (some later) (submissions ++ made))
    (h : Submitted buffer loop.readBacks[task]? submissions) :
    Submitted buffer (loop.readBacks.set acting later)[task]?
      (submissions ++ submittedBy (.readBack task) event before after) := by
  by_cases hsame : task = acting
  · subst hsame
    have hlt := (List.getElem?_eq_some_iff.mp hprogress).1
    rw [List.getElem?_set_self hlt, submittedBy_of_append hactor hmade]
    rw [hprogress] at h
    exact hlater submissions h
  · have hother : event.actor ≠ .readBack task := by
      rw [hactor]
      exact fun heq ↦ hsame (Actor.readBack.inj heq).symm
    rwa [List.getElem?_set_ne (Ne.symm hsame), submittedBy_of_ne hother, List.append_nil]

theorem submitted_of_advances (hadvances : Advances buffer loop next event)
    (h : Submitted buffer loop.readBacks[task]? submissions) :
    Submitted buffer next.readBacks[task]?
      (submissions ++ submittedBy (.readBack task) event loop.engine next.engine) := by
  have hquiet (hsubmitted : submittedBy (.readBack task) event loop.engine next.engine = [])
      (hreadBacks : next.readBacks = loop.readBacks) :
      Submitted buffer next.readBacks[task]?
        (submissions ++ submittedBy (.readBack task) event loop.engine next.engine) := by
    rwa [hsubmitted, List.append_nil, hreadBacks]
  cases hadvances with
  | stayed made => exact hquiet (submittedBy_of_eq (by rw [made])) (by rw [made])
  | answered idle made => exact hquiet (submittedBy_of_ne (by nofun)) (by rw [made])
  | joined pending made => exact hquiet (submittedBy_of_ne (by nofun)) (by rw [made])
  | resumed made => exact hquiet (submittedBy_of_ne (by nofun)) (by rw [made])
  | worked outlives made => exact hquiet (submittedBy_of_ne (by nofun)) (by rw [made])
  | created idle news array same made =>
    rw [submittedBy_of_ne (by nofun), List.append_nil, made]
    rcases Nat.lt_trichotomy task loop.readBacks.length with hlt | rfl | hgt
    · rwa [List.getElem?_append_left hlt]
    · rw [List.getElem?_eq_none (Nat.le_refl _)] at h
      rw [List.getElem?_concat_length]
      exact h
    · rw [List.getElem?_eq_none (Nat.le_of_lt hgt)] at h
      rwa [List.getElem?_eq_none (by rw [List.length_append]; exact hgt)]
  | started pending progress loading active news version array copied made =>
    rw [made]
    refine submitted_of_set rfl progress copied (fun submissions hnone ↦ ?_) h
    have hempty : submissions = [] := hnone
    rw [hempty]
    exact ⟨_, _, rfl⟩
  | refused pending progress loading lost news array same made =>
    rw [made]
    refine submitted_of_set rfl progress (same.trans (List.append_nil _).symm) ?_ h
    exact fun submissions hnone ↦ (List.append_nil submissions).trans hnone
  | completed pending progress loading news array same made =>
    rw [made]
    refine submitted_of_set rfl progress (same.trans (List.append_nil _).symm) ?_ h
    exact fun submissions hcopied ↦ (List.append_nil submissions).symm ▸ hcopied
  | failed pending progress news array same made =>
    rw [made]
    refine submitted_of_set rfl progress (same.trans (List.append_nil _).symm) ?_ h
    exact fun submissions hcopied ↦ (List.append_nil submissions).symm ▸ hcopied

/-- Callers submit nothing, whether they find a read-back pending or not. -/
theorem submittedBy_caller (hadvances : Advances buffer loop next event) :
    submittedBy .caller event loop.engine next.engine = [] := by
  cases hadvances with
  | stayed made => exact submittedBy_of_eq (by rw [made])
  | answered idle made => exact submittedBy_of_eq (by rw [made])
  | joined pending made => exact submittedBy_of_eq (by rw [made])
  | resumed made => exact submittedBy_of_eq (by rw [made])
  | created idle news array same made => exact submittedBy_of_eq (by rw [made]; exact same)
  | _ => exact submittedBy_of_ne (by nofun)

end Submissions

/-! ### Runs -/

/-- An engine before any coroutine loads the array. -/
def on (engine : Engine) : Loop := ⟨engine, [], none, []⟩

def run (buffer : Nat) (start : Engine) (events : List Event) : Loop :=
  (on start).afterAll buffer events

theorem run_snoc (past : List Event) (event : Event) :
    run buffer start (past ++ [event]) = (run buffer start past).after buffer event :=
  List.foldl_concat ..

/-- Coroutines load an array that is there, and things happen beside that. No load of the array has
been under way before. -/
structure Runs (buffer : Nat) (start : Engine) (events : List Event) : Prop where
  reachable : start.Reachable
  idle : ∃ array, start.arrays.lookup buffer = some array ∧ array.loading = .idle
  beside : ∀ event ∈ events, event.Beside buffer
  present : ∃ array, (run buffer start events).engine.arrays.lookup buffer = some array

/-- What an event does to the engine: nothing, a part of a load, the end of a load that fails, or
the work it stands for. -/
theorem engine_after_cases (buffer : Nat) (loop : Loop) (event : Event) :
    (loop.after buffer event).engine = loop.engine ∨
    (loop.after buffer event).engine =
      stateAfter (Action.setLoading buffer .idle) loop.engine ∨
    ∃ primitive, (loop.after buffer event).engine = loop.engine.after primitive ∧
      (event = .work primitive ∨ primitive = .requestLoad buffer ∨
        primitive = .startLoad buffer ∨ primitive = .finishLoad buffer) := by
  cases event with
  | call index =>
    rw [after, call]
    split
    · exact .inl rfl
    · split
      · exact .inr (.inr ⟨_, rfl, .inr (.inl rfl)⟩)
      · exact .inl rfl
  | start task =>
    have hstarted := after_startLoad loop.engine buffer
    rw [after, start]
    split
    · dsimp only
      split
      · exact .inr (.inr ⟨_, hstarted.symm, .inr (.inr (.inl rfl))⟩)
      · exact .inr (.inr ⟨_, hstarted.symm, .inr (.inr (.inl rfl))⟩)
    · exact .inl rfl
  | complete task =>
    rw [after, complete]
    split
    · exact .inr (.inr ⟨_, rfl, .inr (.inr (.inr rfl))⟩)
    · exact .inl rfl
  | fail task failure =>
    rw [after, fail]
    split
    · exact .inr (.inl rfl)
    · exact .inl rfl
  | resume caller =>
    rw [after, resume]
    split
    · split
      · exact .inl rfl
      · exact .inl rfl
    · exact .inl rfl
  | work primitive => exact .inr (.inr ⟨primitive, rfl, .inl rfl⟩)

theorem follows_after (h : loop.engine.Follows buffer) (event : Event) :
    (loop.after buffer event).engine.Follows buffer := by
  rcases engine_after_cases buffer loop event with hengine | hengine | ⟨primitive, hengine, -⟩
  · rwa [hengine]
  · rw [hengine]
    exact h.setLoading
  · rw [hengine]
    exact h.after primitive

/-- An array that is there after an event was there before. -/
theorem exists_lookup_of_after (h : loop.engine.Follows buffer) (hbeside : event.Beside buffer)
    (hnew : (loop.after buffer event).engine.arrays.lookup buffer = some new) :
    ∃ old, loop.engine.arrays.lookup buffer = some old := by
  rcases engine_after_cases buffer loop event with
    hengine | hengine | ⟨primitive, hengine, hprimitive⟩
  · exact ⟨new, hengine ▸ hnew⟩
  · rw [hengine] at hnew
    change (loop.engine.setArray buffer _).arrays.lookup buffer = some new at hnew
    rw [lookup_setArray] at hnew
    obtain ⟨old, hold, -⟩ := Option.map_eq_some_iff.mp hnew
    exact ⟨old, hold⟩
  · rw [hengine] at hnew
    rcases hprimitive with rfl | rfl | rfl | rfl
    · obtain ⟨old, hold, -⟩ := outlives_of_after h hbeside hnew
      exact ⟨old, hold⟩
    · obtain ⟨old, hold, -⟩ := turn_of_requestLoad hnew
      exact ⟨old, hold⟩
    · obtain ⟨old, hold, -⟩ := turn_of_startLoad h.fitting hnew
      exact ⟨old, hold⟩
    · obtain ⟨old, hold, -⟩ := turn_of_finishLoad hnew
      exact ⟨old, hold⟩

namespace Runs

theorem follows (hreachable : start.Reachable) (hold : start.arrays.lookup buffer = some old)
    (events : List Event) : (run buffer start events).engine.Follows buffer := by
  induction events using List.reverseRecOn with
  | nil =>
    exact ⟨hreachable.fitting, hreachable.faithfulCaches, (hreachable.fitting buffer old hold).le⟩
  | append_singleton past event ih =>
    rw [run_snoc]
    exact follows_after ih event

theorem of_snoc (h : Runs buffer start (past ++ [event])) : Runs buffer start past := by
  obtain ⟨old, hold, hidle⟩ := h.idle
  obtain ⟨new, hnew⟩ := h.present
  rw [run_snoc] at hnew
  refine ⟨h.reachable, h.idle, fun other hmem ↦ h.beside other (List.mem_append_left _ hmem), ?_⟩
  exact exists_lookup_of_after (follows h.reachable hold past)
    (h.beside event (List.mem_append_right _ List.mem_cons_self)) hnew

theorem of_append (h : Runs buffer start (past ++ rest)) : Runs buffer start past := by
  induction rest using List.reverseRecOn with
  | nil => rwa [List.append_nil] at h
  | append_singleton rest event ih =>
    rw [← List.append_assoc] at h
    exact ih h.of_snoc

/-- What is known of the coroutines before an event tells what the event does. -/
theorem advances_of_sound (h : Runs buffer start (past ++ [event]))
    (hsound : (run buffer start past).Sound buffer) :
    Advances buffer (run buffer start past) (run buffer start (past ++ [event])) event := by
  obtain ⟨old, hold, -⟩ := h.idle
  obtain ⟨new, hnew⟩ := h.present
  rw [run_snoc] at hnew ⊢
  exact advances_of_after hsound (follows h.reachable hold past)
    (h.beside event (List.mem_append_right _ List.mem_cons_self)) hnew

theorem sound (h : Runs buffer start events) : (run buffer start events).Sound buffer := by
  induction events using List.reverseRecOn with
  | nil =>
    obtain ⟨array, harray, hidle⟩ := h.idle
    refine ⟨.idle rfl ?_, fun task houtstanding ↦ ?_, fun index task hmem ↦ ?_⟩
    · exact (congrArg ArrayState.loading (array_of_lookup harray)).trans hidle
    · obtain ⟨progress, hprogress, -⟩ := houtstanding
      cases hprogress
    · cases hmem
  | append_singleton past event ih =>
    have hsound := ih h.of_snoc
    exact sound_of_advances hsound (h.advances_of_sound hsound)

theorem advances (h : Runs buffer start (past ++ [event])) :
    Advances buffer (run buffer start past) (run buffer start (past ++ [event])) event :=
  h.advances_of_sound h.of_snoc.sound

theorem submitted (h : Runs buffer start events) (task : Nat) :
    Submitted buffer (run buffer start events).readBacks[task]?
      (submissionsBy buffer (.readBack task) (on start) events) := by
  induction events using List.reverseRecOn with
  | nil => rfl
  | append_singleton past event ih =>
    rw [submissionsBy_snoc]
    have hlater := submitted_of_advances h.advances (ih h.of_snoc)
    rwa [run_snoc] at hlater ⊢

theorem submissionsBy_caller (h : Runs buffer start events) :
    submissionsBy buffer .caller (on start) events = [] := by
  induction events using List.reverseRecOn with
  | nil => rfl
  | append_singleton past event ih =>
    have hquiet := submittedBy_caller h.advances
    rw [run_snoc] at hquiet
    rw [submissionsBy_snoc, ih h.of_snoc]
    exact hquiet

end Runs

/-! ### Kernels between the copy and the end -/

/-- The event is a submission that goes out and whose kernels or copies write the array. -/
def Event.Writes (buffer : Nat) (engine : Engine) : Event → Prop
  | .work (.submit dispatches helpers copies) =>
    buffer ∈ writtenBy dispatches copies ∧
      ∃ serial, outcomeOf (Action.submit dispatches helpers copies) engine = .ok serial
  | _ => False

theorem overtaken_of_writes (hsound : loop.Sound buffer) (hfitting : loop.engine.Fitting)
    (hprogress : loop.readBacks[task]? = some .copying) (h : event.Writes buffer loop.engine) :
    (loop.after buffer event).Overtaken buffer := by
  obtain ⟨-, hnews, readBack, hcopying, hversion⟩ := copying_of_progress hsound hprogress
  cases event with
  | work primitive =>
    cases primitive with
    | submit dispatches helpers copies =>
      obtain ⟨hwritten, serial, hserial⟩ := h
      obtain ⟨new, hnew, hrewritten⟩ :=
        rewritten_of_submit hfitting hwritten hserial (exists_lookup_of_deviceDirty hnews)
      refine ⟨readBack, ?_, ?_⟩
      · change ((loop.engine.after _).array buffer).loading = _
        rw [array_of_lookup hnew, hrewritten.loading, hcopying]
      · change _ < ((loop.engine.after _).array buffer).version
        rw [array_of_lookup hnew]
        exact Nat.lt_of_le_of_lt hversion hrewritten.version
    | _ => exact h.elim
  | _ => exact h.elim

/-- A read-back that a kernel has overtaken stays so until it ends. -/
theorem Runs.overtaken {write : Event} {during : List Event}
    (h : Runs buffer start (past ++ write :: during))
    (hprogress : (run buffer start past).readBacks[task]? = some .copying)
    (hwrites : write.Writes buffer (run buffer start past).engine) :
    task < (run buffer start (past ++ write :: during)).readBacks.length ∧
      ((run buffer start (past ++ write :: during)).Outstanding task →
        (run buffer start (past ++ write :: during)).Overtaken buffer) := by
  induction during using List.reverseRecOn with
  | nil =>
    have hbefore := h.of_append
    obtain ⟨old, hold, -⟩ := h.idle
    have hfollows := follows hbefore.reachable hold past
    have hlt := (List.getElem?_eq_some_iff.mp hprogress).1
    have hlater := length_le_of_advances h.advances
    refine ⟨Nat.lt_of_lt_of_le hlt hlater, fun _ ↦ ?_⟩
    rw [run_snoc]
    exact overtaken_of_writes hbefore.sound hfollows.fitting hprogress hwrites
  | append_singleton during event ih =>
    have hsplit : past ++ write :: (during ++ [event]) = (past ++ write :: during) ++ [event] := by
      rw [List.append_assoc, List.cons_append]
    rw [hsplit] at h ⊢
    obtain ⟨hlt, hovertaken⟩ := ih h.of_snoc
    refine ⟨Nat.lt_of_lt_of_le hlt (length_le_of_advances h.advances), fun houtstanding ↦ ?_⟩
    have hbefore := outstanding_of_advances h.advances hlt houtstanding
    exact overtaken_of_advances h.advances (h.of_snoc.sound.outstanding task hbefore) houtstanding
      (hovertaken hbefore)

/-! ### Sharing -/

theorem exists_outcome_of_over {progress : Progress} (h : progress.isOutstanding = false) :
    ∃ outcome, progress.outcome? = some outcome := by
  cases progress with
  | created => cases h
  | copying => cases h
  | finished => exact ⟨_, rfl⟩
  | failed failure => exact ⟨_, rfl⟩
  | refused failure => exact ⟨_, rfl⟩

/-- How the coroutines of an array have shared read-backs in a run. -/
structure Shares (buffer : Nat) (start : Engine) (events : List Event) : Prop where
  /-- The pending read-back is the only one that is outstanding. -/
  outstanding : ∀ task, (run buffer start events).Outstanding task ↔
    (run buffer start events).pending = some task
  underWay : ((run buffer start events).engine.array buffer).loading.isUnderWay =
    (run buffer start events).pending.isSome
  /-- A read-back that has started has submitted one copy, and nothing else. -/
  copied : ∀ task progress, (run buffer start events).readBacks[task]? = some progress →
    progress.hasCopied = true → ∃ staging size,
      submissionsBy buffer (.readBack task) (on start) events = [[.copy buffer staging size]]
  uncopied : ∀ task progress, (run buffer start events).readBacks[task]? = some progress →
    progress.hasCopied = false → submissionsBy buffer (.readBack task) (on start) events = []
  /-- A read-back starts unless the device is lost. -/
  starts : ∀ task, (run buffer start events).readBacks[task]? = some .created →
    ((run buffer start events).engine.lost = none →
      ((run buffer start events).start buffer task).readBacks[task]? = some .copying) ∧
    ∀ notice, (run buffer start events).engine.lost = some notice →
      ((run buffer start events).start buffer task).readBacks[task]? =
        some (.refused notice.failure)
  callers : submissionsBy buffer .caller (on start) events = []
  /-- A caller that arrives while a read-back is pending awaits it, and nothing else happens. -/
  joins : ∀ index task, (run buffer start events).pending = some task →
    (run buffer start events).call buffer index = { run buffer start events with
      callers := (run buffer start events).callers ++ [.waiting index task] }
  /-- Nobody awaits a read-back that neither is pending nor has an outcome. -/
  awaited : ∀ index task, Caller.waiting index task ∈ (run buffer start events).callers →
    (run buffer start events).pending = some task ∨
      ∃ progress outcome, (run buffer start events).readBacks[task]? = some progress ∧
        progress.outcome? = some outcome
  /-- Whichever way a read-back ends, none is pending, and if it has not finished, the device still
  has its news. -/
  clears : ∀ past event task, events = past ++ [event] →
    (run buffer start past).pending = some task → ¬ (run buffer start events).Outstanding task →
      (run buffer start events).pending = none ∧
        ((run buffer start events).readBacks[task]? = some .finished ∨
          ((run buffer start events).engine.array buffer).deviceDirty = true)
  /-- If none is pending, the next caller that finds news on the device creates one. -/
  renews : ∀ index, (run buffer start events).pending = none →
    ((run buffer start events).engine.array buffer).deviceDirty = true →
      let next := (run buffer start events).call buffer index
      next.readBacks = (run buffer start events).readBacks ++ [.created] ∧
        next.pending = some (run buffer start events).readBacks.length ∧
          (next.engine.array buffer).loading = .scheduled
  /-- If a kernel writes the array after a read-back has copied it, the device still has news when
  this one ends. -/
  keepsNews : ∀ past write during event task, events = past ++ write :: (during ++ [event]) →
    (run buffer start past).readBacks[task]? = some .copying →
      write.Writes buffer (run buffer start past).engine →
        (run buffer start (past ++ write :: during)).Outstanding task →
          ¬ (run buffer start events).Outstanding task →
            ((run buffer start events).engine.array buffer).deviceDirty = true

theorem shares_of_runs (h : Runs buffer start events) : Shares buffer start events := by
  have hsound := h.sound
  constructor
  case outstanding =>
    exact fun task ↦ ⟨hsound.outstanding task, outstanding_of_pending hsound⟩
  case underWay =>
    cases hsound.phase with
    | idle pending loading => rw [pending, loading]; rfl
    | scheduled pending progress loading => rw [pending, loading]; rfl
    | copying pending progress loading => rw [pending, loading]; rfl
  case copied =>
    intro task progress hprogress hcopied
    have hsubmitted := h.submitted task
    rw [hprogress, Submitted, if_pos hcopied] at hsubmitted
    exact hsubmitted
  case uncopied =>
    intro task progress hprogress hcopied
    have hsubmitted := h.submitted task
    rw [hprogress, Submitted, if_neg (by rw [hcopied]; nofun)] at hsubmitted
    exact hsubmitted
  case starts => exact fun task ↦ start_of_created hsound
  case callers => exact h.submissionsBy_caller
  case joins => exact fun index task hpending ↦ call_of_pending hpending index
  case awaited =>
    intro index task hmem
    have hlt := hsound.waiting index task hmem
    cases hover : ((run buffer start events).readBacks[task]).isOutstanding with
    | true => exact .inl (hsound.outstanding task ⟨_, List.getElem?_eq_getElem hlt, hover⟩)
    | false =>
      obtain ⟨outcome, houtcome⟩ := exists_outcome_of_over hover
      exact .inr ⟨_, outcome, List.getElem?_eq_getElem hlt, houtcome⟩
  case clears =>
    rintro past event task rfl hpending hover
    obtain ⟨hnone, hnews⟩ := cleared_of_advances h.of_snoc.sound h.advances hpending hover
    exact ⟨hnone, hnews.symm.imp And.left id⟩
  case renews =>
    intro index hnone hnews
    have hlookup := exists_lookup_of_deviceDirty hnews
    rw [call_of_news hsound hnone hnews index]
    exact ⟨rfl, rfl, congrArg ArrayState.loading (array_setArray_self _ hlookup)⟩
  case keepsNews =>
    rintro past write during event task rfl hprogress hwrites houtstanding hover
    have hsplit : past ++ write :: (during ++ [event]) = (past ++ write :: during) ++ [event] := by
      rw [List.append_assoc, List.cons_append]
    rw [hsplit] at h hover ⊢
    have hbefore := h.of_snoc
    have hovertaken := (hbefore.overtaken hprogress hwrites).2 houtstanding
    have hpending := hbefore.sound.outstanding task houtstanding
    rcases (cleared_of_advances hbefore.sound h.advances hpending hover).2 with hnews | ⟨-, hnot⟩
    · exact hnews
    · exact absurd hovertaken hnot

/-- Three read-backs. The first is shared by three callers and overtaken by a pass, the copy of the
second cannot be mapped, and the third finds the device lost. -/
def sharingEvents : List Event :=
  [.work (.submit [countingPass] [] []), .call none, .call (some [.int 0]), .start 0,
    .work (.submit [countingPass] [] []), .call none, .complete 0, .resume 1, .call none, .start 1,
    .fail 1 (.device "unmappable"), .resume 3, .call none, .work (.markLost [.text "unknown"]),
    .start 2, .resume 4]

theorem runs_sharingEvents : Runs 1 countingEngine sharingEvents where
  reachable := reachable_countingEngine
  idle := by
    have hthere : (countingEngine.arrays.lookup 1).isSome = true := by decide +kernel
    have hidle : (countingEngine.array 1).loading.isUnderWay = false := by decide +kernel
    obtain ⟨array, harray⟩ := Option.isSome_iff_exists.mp hthere
    rw [array_of_lookup harray] at hidle
    refine ⟨array, harray, ?_⟩
    cases hloading : array.loading with
    | idle => rfl
    | _ =>
      rw [hloading] at hidle
      cases hidle
  beside := by
    intro event hmem
    simp only [sharingEvents, List.mem_cons, List.not_mem_nil, or_false] at hmem
    rcases hmem with rfl | rfl | rfl | rfl | rfl | rfl | rfl | rfl | rfl | rfl | rfl | rfl | rfl |
      rfl | rfl | rfl <;> trivial
  present := Option.isSome_iff_exists.mp (by decide +kernel)

/-- All three read-backs end, two have copied, and the device still has its news. -/
theorem shares_of_runs_failing :
    Shares 1 countingEngine sharingEvents ∧
      (run 1 countingEngine sharingEvents).readBacks.map Progress.hasCopied =
        [true, true, false] ∧
      (run 1 countingEngine sharingEvents).readBacks.map Progress.isOutstanding =
        [false, false, false] ∧
      ((run 1 countingEngine sharingEvents).engine.array 1).deviceDirty = true :=
  ⟨shares_of_runs runs_sharingEvents, by decide +kernel, by decide +kernel, by decide +kernel⟩

end ComputeArray.Loop
