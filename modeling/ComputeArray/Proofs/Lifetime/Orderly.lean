import ComputeArray.Proofs.Lifetime.Tenure
import ComputeArray.Proofs.Run.Fixture
import Mathlib.Data.List.TakeWhile

/-!
# Orderly engines

The invariant behind the safety of destructions ties the queue of an engine to the history of its
device: every pending buffer waits for the last submission that uses it, and no array that may still
be used is pending or destroyed (`Engine.Orderly`). Each change of the queue keeps it: a submission,
a release, a read-back, and the destructions after a wait.
-/

set_option autoImplicit false

namespace ComputeArray

namespace Engine

/-- The buffer waits for its destruction or is destroyed. -/
def Spent (history : History) (engine : Engine) (buffer : Nat) : Prop :=
  (∃ needed, (needed, buffer) ∈ engine.pending) ∨ buffer ∈ history.destroyed

/-- The staging buffer of a read-back is no array, and is used by no submission after the one that
was the last when its mapping was asked for. -/
structure UnderWay (history : History) (engine : Engine) (readBack : ReadBack) : Prop where
  le : readBack.staging ≤ engine.device.buffers.size
  apart : engine.tenure readBack.staging = none
  mapped : history.mappedAfter readBack.staging = readBack.serial
  uses : ∀ serial ∈ history.usesOf readBack.staging, serial ≤ readBack.serial

structure Orderly (history : History) (engine : Engine) : Prop where
  safe : history.Safe
  serial : engine.serial = history.submissions
  numbered : ∀ buffer, engine.tenure buffer ≠ none → buffer ≤ engine.device.buffers.size
  pending : ∀ entry ∈ engine.pending, ∀ serial ∈ history.usesOf entry.2, serial ≤ entry.1
  spent : ∀ buffer, engine.Spent history buffer →
    buffer ≤ engine.device.buffers.size ∧ ¬ engine.Live buffer
  underWay : ∀ buffer released readBack, engine.tenure buffer = some (released, some readBack) →
    engine.UnderWay history readBack
  kept : ∀ entry ∈ engine.generators, ∀ samples, entry.2.kept = some samples →
    samples.2 ≠ entry.1 ∧ samples.2 ≤ engine.device.buffers.size

/-- A submission may use the buffer: it exists, is not spent, and no read-back is made into it. -/
structure Usable (history : History) (engine : Engine) (buffer : Nat) : Prop where
  le : buffer ≤ engine.device.buffers.size
  unspent : ¬ engine.Spent history buffer
  free : ∀ other released readBack, engine.tenure other = some (released, some readBack) →
    readBack.staging ≠ buffer

/-- A usable buffer that is no array. -/
structure Spare (history : History) (engine : Engine) (buffer : Nat) : Prop extends
    Usable history engine buffer where
  apart : engine.tenure buffer = none

theorem not_live_of_tenure_eq_none {engine : Engine} {buffer : Nat}
    (h : engine.tenure buffer = none) : ¬ engine.Live buffer := by
  unfold Live
  rw [h]
  exact nofun

variable {history later : History} {engine before after : Engine} {buffer : Nat}

theorem Live.tenure_ne_none (h : engine.Live buffer) : engine.tenure buffer ≠ none :=
  fun hnone ↦ not_live_of_tenure_eq_none hnone h

namespace Orderly

theorem le_of_live (h : engine.Orderly history) (hlive : engine.Live buffer) :
    buffer ≤ engine.device.buffers.size :=
  h.numbered buffer hlive.tenure_ne_none

theorem usable_of_live (h : engine.Orderly history) (hlive : engine.Live buffer) :
    engine.Usable history buffer where
  le := h.le_of_live hlive
  unspent hspent := (h.spent buffer hspent).2 hlive
  free other released readBack htenure heq :=
    not_live_of_tenure_eq_none (heq ▸ (h.underWay other released readBack htenure).apart) hlive

theorem tenure_of_lt (h : engine.Orderly history) (hlt : engine.device.buffers.size < buffer) :
    engine.tenure buffer = none := by
  by_contra hsome
  exact absurd (h.numbered buffer hsome) (Nat.not_le.mpr hlt)

theorem numbered_arrays (h : engine.Orderly history) : engine.Numbered := fun buffer array hlookup ↦
  Nat.lt_succ_of_le (h.numbered buffer (by rw [tenure_of_lookup hlookup]; exact nofun))

end Orderly

theorem Orderly.underWay_of_copying {readBack : ReadBack} (h : engine.Orderly history)
    (hloading : (engine.array buffer).loading = .copying readBack) :
    engine.UnderWay history readBack := by
  cases hlookup : engine.arrays.lookup buffer with
  | none =>
    rw [Engine.array, hlookup] at hloading
    cases hloading
  | some array =>
    rw [array_of_lookup hlookup] at hloading
    refine h.underWay buffer array.released readBack ?_
    rw [tenure_of_lookup hlookup, hloading]
    rfl

theorem Orderly.le_of_mem_keys (h : engine.Orderly history)
    (hmem : buffer ∈ engine.arrays.map Prod.fst) : buffer ≤ engine.device.buffers.size := by
  obtain ⟨array, hlookup⟩ := exists_lookup_of_mem hmem
  refine h.numbered buffer fun hnone ↦ ?_
  rw [Option.map_eq_none_iff.mp hnone] at hlookup
  cases hlookup

/-! ### Calm changes -/

/-- Nothing has happened but calm changes, and the history has come to nothing more. -/
structure Undisturbed (history : History) (before : Engine) (later : History) (after : Engine) :
    Prop where
  calm : Calm before after
  ledger : later.ledger = history.ledger

namespace Undisturbed

variable (h : Undisturbed history before later after)
include h

theorem submissions : later.submissions = history.submissions := congrArg Prod.fst h.ledger

theorem usesOf (buffer : Nat) : later.usesOf buffer = history.usesOf buffer :=
  congrFun (congrArg (·.2.1) h.ledger) buffer

theorem mappedAfter (buffer : Nat) : later.mappedAfter buffer = history.mappedAfter buffer :=
  congrFun (congrArg (·.2.2.1) h.ledger) buffer

theorem destroyed : later.destroyed = history.destroyed := congrArg (·.2.2.2.2) h.ledger

theorem spent_iff : after.Spent later buffer ↔ before.Spent history buffer := by
  rw [Spent, Spent, h.calm.pending, h.destroyed]

/-- Read-backs under way were under way before. -/
theorem tenure_of_readBack {released : Bool} {readBack : ReadBack}
    (htenure : after.tenure buffer = some (released, some readBack)) :
    before.tenure buffer = some (released, some readBack) := by
  rcases h.calm.tenure buffer with hsame | ⟨-, -, hfresh⟩
  · rw [← hsame, htenure]
  · rw [hfresh] at htenure
    cases htenure

theorem underWay {readBack : ReadBack} (hunderWay : before.UnderWay history readBack) :
    after.UnderWay later readBack where
  le := Nat.le_trans hunderWay.le h.calm.count
  apart := (h.calm.tenure_of_le hunderWay.le).trans hunderWay.apart
  mapped := (h.mappedAfter _).trans hunderWay.mapped
  uses := by rw [h.usesOf]; exact hunderWay.uses

theorem usable (husable : before.Usable history buffer) : after.Usable later buffer where
  le := Nat.le_trans husable.le h.calm.count
  unspent := by rw [h.spent_iff]; exact husable.unspent
  free other released readBack htenure :=
    husable.free other released readBack (h.tenure_of_readBack htenure)

theorem spare (hspare : before.Spare history buffer) : after.Spare later buffer where
  toUsable := h.usable hspare.toUsable
  apart := (h.calm.tenure_of_le hspare.le).trans hspare.apart

theorem orderly (horderly : before.Orderly history) (hsafe : later.Safe) :
    after.Orderly later where
  safe := hsafe
  serial := by rw [h.calm.serial, h.submissions, horderly.serial]
  numbered buffer hsome := by
    rcases h.calm.tenure buffer with hsame | ⟨-, hle, -⟩
    · exact Nat.le_trans (horderly.numbered buffer (hsame ▸ hsome)) h.calm.count
    · exact hle
  pending entry hmem := by
    rw [h.usesOf]
    exact horderly.pending entry (h.calm.pending ▸ hmem)
  spent buffer hspent := by
    obtain ⟨hle, hdead⟩ := horderly.spent buffer (h.spent_iff.mp hspent)
    refine ⟨Nat.le_trans hle h.calm.count, fun hlive ↦ hdead ?_⟩
    rwa [Live, h.calm.tenure_of_le hle] at hlive
  underWay buffer released readBack htenure :=
    h.underWay (horderly.underWay buffer released readBack (h.tenure_of_readBack htenure))
  kept entry hmem samples hkept := by
    obtain ⟨hne, hle⟩ := horderly.kept entry (h.calm.generators ▸ hmem) samples hkept
    exact ⟨hne, Nat.le_trans hle h.calm.count⟩

end Undisturbed

/-- A calm change extends the history by quiet calls and keeps the engine orderly. -/
theorem Orderly.calm (h : before.Orderly history) (hcalm : Calm before after) :
    ∃ calls : List Call, after.device.calls.toList = before.device.calls.toList ++ calls ∧
      Undisturbed history before (history.extend calls) after ∧
      after.Orderly (history.extend calls) := by
  obtain ⟨calls, hcalls, hquiet⟩ := hcalm.quiet
  have hundisturbed : Undisturbed history before (history.extend calls) after :=
    ⟨hcalm, history.ledger_extend_of_isQuiet hquiet⟩
  exact ⟨calls, hcalls, hundisturbed,
    hundisturbed.orderly h (h.safe.extend_of_isQuiet hquiet)⟩

/-- A fresh buffer is spare. -/
theorem Orderly.spare_of_calm (h : before.Orderly history)
    (hundisturbed : Undisturbed history before later after)
    (hlt : before.device.buffers.size < buffer) (hle : buffer ≤ after.device.buffers.size)
    (hapart : after.tenure buffer = none) : after.Spare later buffer where
  le := hle
  unspent hspent := by
    have := (h.spent buffer (hundisturbed.spent_iff.mp hspent)).1
    omega
  free other released readBack htenure heq := by
    have hunderWay := h.underWay other released readBack (hundisturbed.tenure_of_readBack htenure)
    have := hunderWay.le
    omega
  apart := hapart

/-! ### Waits and mappings -/

/-- The end of a wait changes only what is known to be done. -/
theorem Orderly.wait {event : Event} {device : Device} (h : engine.Orderly history)
    (hevent : event.IsWait) (hcount : device.buffers.size = engine.device.buffers.size) :
    Orderly (event :: history) { engine with device } := by
  obtain ⟨hsubmissions, huses, hmapped, hdestroyed⟩ := History.same_of_isWait history hevent
  refine ⟨h.safe.cons ?_ ?_, h.serial.trans hsubmissions.symm, ?_, ?_, ?_, ?_, ?_⟩
  · rintro _ rfl
    exact hevent.elim
  · rintro _ rfl
    exact hevent.elim
  · exact fun buffer hsome ↦ hcount ▸ h.numbered buffer hsome
  · intro entry hmem
    rw [huses]
    exact h.pending entry hmem
  · intro buffer hspent
    rw [Spent, hdestroyed] at hspent
    exact hcount ▸ h.spent buffer hspent
  · intro buffer released readBack htenure
    have hunderWay := h.underWay buffer released readBack htenure
    exact ⟨hcount ▸ hunderWay.le, hunderWay.apart, (hmapped _).trans hunderWay.mapped,
      huses _ ▸ hunderWay.uses⟩
  · exact fun entry hmem samples hkept ↦ hcount ▸ h.kept entry hmem samples hkept

/-- Once a spare buffer has been asked to be mapped, a read-back of all submissions so far is under
way in it. -/
theorem Orderly.map {device : Device} (size version : Nat) (blocking : Bool)
    (h : engine.Orderly history) (hspare : engine.Spare history buffer)
    (hcount : device.buffers.size = engine.device.buffers.size) :
    Orderly (.call (.map buffer size blocking) :: history) { engine with device } ∧
      UnderWay (.call (.map buffer size blocking) :: history) { engine with device }
        ⟨buffer, history.submissions, version⟩ := by
  have hother {other : Nat} (hne : buffer ≠ other) :
      History.mappedAfter other (.call (.map buffer size blocking) :: history) =
        history.mappedAfter other := if_neg hne
  refine ⟨⟨h.safe.cons nofun nofun, h.serial, ?_, h.pending, ?_, ?_, ?_⟩, ?_⟩
  · exact fun buffer hsome ↦ hcount ▸ h.numbered buffer hsome
  · exact fun buffer hspent ↦ hcount ▸ h.spent buffer hspent
  · intro other released readBack htenure
    have hunderWay := h.underWay other released readBack htenure
    exact ⟨hcount ▸ hunderWay.le, hunderWay.apart,
      (hother (Ne.symm (hspare.free other released readBack htenure))).trans hunderWay.mapped,
      hunderWay.uses⟩
  · exact fun entry hmem samples hkept ↦ hcount ▸ h.kept entry hmem samples hkept
  · exact ⟨hcount ▸ hspare.le, hspare.apart, if_pos rfl,
      fun serial hserial ↦ History.le_submissions_of_mem_usesOf hserial⟩

/-! ### Submissions -/

/-- A submission of commands that use usable buffers only. -/
theorem Orderly.submit {commands : List Command} (h : engine.Orderly history)
    (hused : ∀ command ∈ commands, ∀ buffer ∈ command.buffers, engine.Usable history buffer) :
    Orderly (.call (.submit commands) :: history)
      { engine with
        device := engine.device.submit commands
        serial := engine.serial + 1 } := by
  have hcount : (engine.device.submit commands).buffers.size = engine.device.buffers.size :=
    (Device.sameOutside_submit commands engine.device).count
  have hsame {buffer : Nat} (hbuffer : ¬ engine.Usable history buffer) :
      History.usesOf buffer (.call (.submit commands) :: history) = history.usesOf buffer :=
    History.usesOf_submit history fun command hmem hin ↦ hbuffer (hused command hmem buffer hin)
  refine ⟨h.safe.cons nofun ?_, congrArg (· + 1) h.serial, ?_, ?_, ?_, ?_, ?_⟩
  · rintro _ ⟨⟩ command hmem buffer hin hdestroyed
    exact (hused command hmem buffer hin).unspent (.inr hdestroyed)
  · intro buffer hsome
    rw [hcount]
    exact h.numbered buffer hsome
  · intro entry hmem
    rw [hsame fun husable ↦ husable.unspent (.inl ⟨entry.1, hmem⟩)]
    exact h.pending entry hmem
  · intro buffer hspent
    rw [hcount]
    exact h.spent buffer hspent
  · intro buffer released readBack htenure
    obtain ⟨hle, hapart, hmapped, huses⟩ := h.underWay buffer released readBack htenure
    refine ⟨hcount ▸ hle, hapart, hmapped, ?_⟩
    rw [hsame fun husable ↦ husable.free buffer released readBack htenure rfl]
    exact huses
  · intro entry hmem samples hkept
    rw [hcount]
    exact h.kept entry hmem samples hkept

/-- Buffers that are no live arrays may be queued for destruction after all work submitted so
far. -/
theorem Orderly.queue (buffers : List Nat) (h : engine.Orderly history)
    (hdead : ∀ buffer ∈ buffers, buffer ≤ engine.device.buffers.size ∧ ¬ engine.Live buffer) :
    Orderly history { engine with
      pending := engine.pending ++ buffers.map fun buffer ↦ (engine.serial, buffer) } := by
  refine ⟨h.safe, h.serial, h.numbered, ?_, ?_, ?_, h.kept⟩
  · intro entry hmem serial hserial
    rcases List.mem_append.mp hmem with hmem | hmem
    · exact h.pending entry hmem serial hserial
    · obtain ⟨buffer, -, rfl⟩ := List.mem_map.mp hmem
      rw [h.serial]
      exact History.le_submissions_of_mem_usesOf hserial
  · rintro buffer (⟨needed, hmem⟩ | hdestroyed)
    · rcases List.mem_append.mp hmem with hmem | hmem
      · exact h.spent buffer (.inl ⟨needed, hmem⟩)
      · obtain ⟨other, hother, heq⟩ := List.mem_map.mp hmem
        cases heq
        exact hdead buffer hother
    · exact h.spent buffer (.inr hdestroyed)
  · intro buffer released readBack htenure
    obtain ⟨hle, hapart, hmapped, huses⟩ := h.underWay buffer released readBack htenure
    exact ⟨hle, hapart, hmapped, huses⟩

/-! ### Destructions -/

/-- A buffer that is no live array may be destroyed when its submissions are known to be done. -/
theorem Orderly.destroyBuffer {device : Device} (h : engine.Orderly history)
    (hle : buffer ≤ engine.device.buffers.size) (hdead : ¬ engine.Live buffer)
    (hdone : ∀ serial ∈ history.usesOf buffer, serial ≤ history.observed)
    (hcount : device.buffers.size = engine.device.buffers.size) :
    Orderly (.call (.destroyBuffer buffer) :: history) { engine with device } := by
  refine ⟨h.safe.cons ?_ nofun, h.serial, ?_, h.pending, ?_, ?_, ?_⟩
  · rintro _ ⟨⟩
    exact hdone
  · exact fun buffer hsome ↦ hcount ▸ h.numbered buffer hsome
  · rintro other (hpending | hdestroyed)
    · exact hcount ▸ h.spent other (.inl hpending)
    · rcases List.mem_cons.mp hdestroyed with rfl | hdestroyed
      · exact ⟨hcount ▸ hle, hdead⟩
      · exact hcount ▸ h.spent other (.inr hdestroyed)
  · intro other released readBack htenure
    have hunderWay := h.underWay other released readBack htenure
    exact ⟨hcount ▸ hunderWay.le, hunderWay.apart, hunderWay.mapped, hunderWay.uses⟩
  · exact fun entry hmem samples hkept ↦ hcount ▸ h.kept entry hmem samples hkept

/-- The buffers a retirement destroys. -/
def dueBuffers (serial : Int) (engine : Engine) : List Nat :=
  (engine.pending.takeWhile fun entry ↦ entry.1 ≤ serial).map Prod.snd

theorem device_retire (serial : Int) (engine : Engine) :
    (engine.retire serial).device = (engine.dueBuffers serial).foldl
      (fun device buffer ↦ device.record (.destroyBuffer buffer)) engine.device := by
  rw [dueBuffers, List.foldl_map]
  rfl

theorem foldl_destroyBuffer (buffers : List Nat) (device : Device) :
    buffers.foldl (fun device buffer ↦ device.record (.destroyBuffer buffer)) device =
      { device with calls := device.calls ++ buffers.map Call.destroyBuffer } := by
  induction buffers generalizing device with
  | nil => simp
  | cons buffer rest ih =>
    rw [List.foldl_cons, ih]
    simp [Device.record]

/-- A retirement up to a serial that is known to be done. -/
theorem Orderly.retire {serial : Int} (h : engine.Orderly history)
    (hdone : serial ≤ history.observed) :
    (engine.retire serial).device.calls.toList =
        engine.device.calls.toList ++ (engine.dueBuffers serial).map Call.destroyBuffer ∧
      Orderly (history.extend ((engine.dueBuffers serial).map .destroyBuffer))
        (engine.retire serial) := by
  have hdevice := device_retire serial engine
  rw [foldl_destroyBuffer] at hdevice
  have hcount : (engine.retire serial).device.buffers.size = engine.device.buffers.size := by
    rw [hdevice]
  have hdue : ∀ buffer ∈ engine.dueBuffers serial, ∃ needed, (needed, buffer) ∈ engine.pending ∧
      (needed : Int) ≤ serial := by
    intro buffer hmem
    obtain ⟨⟨needed, _⟩, hentry, rfl⟩ := List.mem_map.mp hmem
    exact ⟨needed, (List.takeWhile_prefix _).subset hentry,
      by simpa using List.mem_takeWhile_imp hentry⟩
  obtain ⟨hsafe, hledger⟩ := h.safe.extend_destroyBuffer (engine.dueBuffers serial) (by
    intro buffer hmem used hused
    obtain ⟨needed, hentry, hneeded⟩ := hdue buffer hmem
    have := h.pending _ hentry used hused
    omega)
  simp only [History.ledger, Prod.mk.injEq, funext_iff] at hledger
  obtain ⟨hsubmissions, huses, hmapped, -, hdestroyed⟩ := hledger
  have hpending : ∀ entry ∈ (engine.retire serial).pending, entry ∈ engine.pending :=
    fun entry hmem ↦ (List.dropWhile_suffix _).subset hmem
  refine ⟨by rw [hdevice]; simp, hsafe, h.serial.trans hsubmissions.symm, ?_, ?_, ?_, ?_, ?_⟩
  · intro buffer hsome
    rw [hcount]
    exact h.numbered buffer hsome
  · intro entry hmem
    rw [huses]
    exact h.pending entry (hpending entry hmem)
  · intro buffer hspent
    rw [hcount]
    refine h.spent buffer ?_
    rcases hspent with ⟨needed, hmem⟩ | hmem
    · exact .inl ⟨needed, hpending _ hmem⟩
    · rw [hdestroyed, List.mem_append, List.mem_reverse] at hmem
      rcases hmem with hmem | hmem
      · obtain ⟨needed, hentry, -⟩ := hdue buffer hmem
        exact .inl ⟨needed, hentry⟩
      · exact .inr hmem
  · intro buffer released readBack htenure
    obtain ⟨hle, hapart, hreadBack, hlast⟩ := h.underWay buffer released readBack htenure
    exact ⟨hcount ▸ hle, hapart, (hmapped _).trans hreadBack, by rw [huses]; exact hlast⟩
  · intro entry hmem samples hkept
    rw [hcount]
    exact h.kept entry hmem samples hkept

/-! ### Arrays -/

theorem tenure_setArray_eq_none {array : ArrayState} {other : Nat} :
    (engine.setArray buffer array).tenure other = none ↔ engine.tenure other = none := by
  rw [tenure_setArray]
  split
  · next hother => rw [hother, Option.map_eq_none_iff]
  · rfl

theorem live_iff : engine.Live buffer ↔
    engine.tenure buffer ≠ none ∧ (engine.array buffer).released = false := by
  rw [Live, tenure, Engine.array]
  cases engine.arrays.lookup buffer <;> simp

theorem live_setArray {array : ArrayState} {other : Nat} :
    (engine.setArray buffer array).Live other ↔
      engine.tenure other ≠ none ∧ ((if other = buffer then array.released
        else (engine.array other).released) = false) := by
  rw [Live, tenure_setArray, tenure, tenure, Engine.array]
  split
  · next hother =>
    subst hother
    cases engine.arrays.lookup other <;> simp
  · cases engine.arrays.lookup other <;> simp

/-- A change of an array that revives no released array and begins no read-back but one under
way. -/
theorem Orderly.setArray {array : ArrayState} (h : engine.Orderly history)
    (hreleased : array.released = false → (engine.array buffer).released = false)
    (hreadBack : ∀ readBack, array.loading.readBack? = some readBack →
      engine.UnderWay history readBack) :
    Orderly history (engine.setArray buffer array) := by
  have hlive (other : Nat) (hlive : (engine.setArray buffer array).Live other) :
      engine.Live other := by
    rw [live_setArray] at hlive
    refine live_iff.mpr ⟨hlive.1, ?_⟩
    by_cases hother : other = buffer
    · subst hother
      exact hreleased (by simpa using hlive.2)
    · simpa [hother] using hlive.2
  have hunderWay {readBack : ReadBack} (hbefore : engine.UnderWay history readBack) :
      (engine.setArray buffer array).UnderWay history readBack :=
    ⟨hbefore.le, tenure_setArray_eq_none.mpr hbefore.apart, hbefore.mapped, hbefore.uses⟩
  refine ⟨h.safe, h.serial, ?_, h.pending, ?_, ?_, h.kept⟩
  · exact fun other hsome ↦ h.numbered other (mt tenure_setArray_eq_none.mpr hsome)
  · exact fun other hspent ↦ ⟨(h.spent other hspent).1,
      fun hafter ↦ (h.spent other hspent).2 (hlive other hafter)⟩
  · intro other released readBack htenure
    rw [tenure_setArray] at htenure
    split at htenure
    · obtain ⟨_, -, heq⟩ := Option.map_eq_some_iff.mp htenure
      exact hunderWay (hreadBack readBack (Prod.mk.inj heq).2)
    · exact hunderWay (h.underWay other released readBack htenure)

/-- A release hands the buffer over for destruction after all work submitted so far. -/
theorem Orderly.release (h : engine.Orderly history) (hle : buffer ≤ engine.device.buffers.size) :
    Orderly history (engine.release buffer) := by
  obtain ⟨-, hsame⟩ | ⟨-, pending, hmarked, hpending⟩ := release_cases buffer engine
  · rwa [hsame]
  · rw [hmarked]
    set array := { engine.array buffer with released := true } with harray
    have hset : Orderly history (engine.setArray buffer array) := by
      refine h.setArray nofun fun readBack hreadBack ↦ ?_
      exact h.underWay_of_copying (Loading.eq_copying_of_readBack? hreadBack)
    have hdead : ¬ (engine.setArray buffer array).Live buffer := by
      rw [live_setArray, if_pos rfl]
      exact fun h ↦ Bool.noConfusion h.2
    obtain ⟨-, rfl⟩ | ⟨-, rfl⟩ := hpending
    · exact hset
    · refine hset.queue [buffer] fun other hmem ↦ ?_
      obtain rfl := List.mem_singleton.mp hmem
      exact ⟨hle, hdead⟩

theorem live_release {other : Nat} (hne : other ≠ buffer) :
    (engine.release buffer).Live other ↔ engine.Live other := by
  have hset : (engine.setArray buffer { engine.array buffer with released := true }).Live other ↔
      engine.Live other := by
    rw [live_setArray, if_neg hne, live_iff]
  obtain ⟨-, h⟩ | ⟨-, _, h, -⟩ := release_cases buffer engine
  · rw [h]
  · rw [h]
    exact hset

theorem live_foldl_release {buffers : List Nat} {other : Nat} (hother : other ∉ buffers) :
    (buffers.foldl (fun engine buffer ↦ engine.release buffer) engine).Live other ↔
      engine.Live other := by
  induction buffers generalizing engine with
  | nil => rfl
  | cons buffer rest ih =>
    rw [List.mem_cons, not_or] at hother
    exact (ih hother.2).trans (live_release hother.1)

/-- Arrays that are forgotten take nothing with them. -/
theorem Orderly.filter (h : engine.Orderly history) (keep : Nat → Bool) :
    Orderly history
      { engine with arrays := engine.arrays.filter fun entry ↦ keep entry.1 } := by
  set kept : Engine := { engine with arrays := engine.arrays.filter fun entry ↦ keep entry.1 }
  have htenure {buffer : Nat} {value : Bool × Option ReadBack}
      (hkept : kept.tenure buffer = some value) : engine.tenure buffer = some value := by
    obtain ⟨array, hlookup, hvalue⟩ := Option.map_eq_some_iff.mp hkept
    rw [tenure_of_lookup (lookup_of_lookup_filter hlookup), ← hvalue]
  have hnone {buffer : Nat} (hbefore : engine.tenure buffer = none) :
      kept.tenure buffer = none := by
    by_contra hsome
    obtain ⟨value, hvalue⟩ := Option.ne_none_iff_exists'.mp hsome
    rw [htenure hvalue] at hbefore
    cases hbefore
  refine ⟨h.safe, h.serial, ?_, h.pending, ?_, ?_, h.kept⟩
  · exact fun buffer hsome ↦ h.numbered buffer (mt hnone hsome)
  · intro buffer hspent
    refine ⟨(h.spent buffer hspent).1, fun hlive ↦ (h.spent buffer hspent).2 ?_⟩
    obtain ⟨value, hvalue, hreleased⟩ := Option.map_eq_some_iff.mp hlive
    rw [Live, htenure hvalue, ← hreleased]
    rfl
  · intro buffer released readBack hkept
    have hunderWay := h.underWay buffer released readBack (htenure hkept)
    exact ⟨hunderWay.le, hnone hunderWay.apart, hunderWay.mapped, hunderWay.uses⟩

theorem Orderly.foldl_release {buffers : List Nat} (h : engine.Orderly history)
    (hle : ∀ buffer ∈ buffers, buffer ≤ engine.device.buffers.size) :
    Orderly history (buffers.foldl (fun engine buffer ↦ engine.release buffer) engine) := by
  induction buffers generalizing engine with
  | nil => exact h
  | cons buffer rest ih =>
    refine ih (h.release (hle buffer List.mem_cons_self)) fun other hmem ↦ ?_
    rw [device_release]
    exact hle other (List.mem_cons_of_mem buffer hmem)

/-! ### Losses -/

/-- Once the device is lost nothing waits for its destruction any more. -/
theorem Orderly.abandon (lost : Option LossNotice) (log : Array (Severity × String))
    (h : engine.Orderly history) : Orderly history { engine with lost, log, pending := [] } := by
  refine ⟨h.safe, h.serial, h.numbered, nofun, ?_, ?_, h.kept⟩
  · rintro buffer (⟨_, hmem⟩ | hdestroyed)
    · cases hmem
    · exact h.spent buffer (.inr hdestroyed)
  · intro buffer released readBack htenure
    have hunderWay := h.underWay buffer released readBack htenure
    exact ⟨hunderWay.le, hunderWay.apart, hunderWay.mapped, hunderWay.uses⟩

/-! ### Generators -/

/-- A change of generators that all keep samples apart from their streams. -/
theorem Orderly.setGenerators {generators : List (Nat × Generator)} (h : engine.Orderly history)
    (hkept : ∀ entry ∈ generators, ∀ samples, entry.2.kept = some samples →
      samples.2 ≠ entry.1 ∧ samples.2 ≤ engine.device.buffers.size) :
    Orderly history { engine with generators } := by
  refine ⟨h.safe, h.serial, h.numbered, h.pending, h.spent, ?_, hkept⟩
  intro buffer released readBack htenure
  have hunderWay := h.underWay buffer released readBack htenure
  exact ⟨hunderWay.le, hunderWay.apart, hunderWay.mapped, hunderWay.uses⟩

end Engine

end ComputeArray
