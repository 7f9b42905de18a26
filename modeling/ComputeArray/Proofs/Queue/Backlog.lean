import ComputeArray.Proofs.Queue.Draining
import ComputeArray.Proofs.Run.Reachable
import ComputeArray.Proofs.Run.Throwing

/-!
# The backlog of an engine

The serials in the queue of pending buffers do not decrease, so a retirement, which stops at the
first buffer that waits for more, destroys exactly what is due (`Queued.retire_eq`). A submission
that returns leaves a bounded queue, and in between it grows by the releases only.
-/

set_option autoImplicit false

namespace ComputeArray

open Engine

/-! ### Sorted queues -/

/-- If a condition cannot come back once it has failed, the entries up to the first failure are all
the entries that meet it. -/
theorem takeWhile_and_dropWhile_of_pairwise {α : Type} {condition : α → Bool} {entries : List α}
    (h : entries.Pairwise fun first second ↦ condition second = true → condition first = true) :
    entries.takeWhile condition = entries.filter condition ∧
      entries.dropWhile condition = entries.filter fun entry ↦ !condition entry := by
  induction entries with
  | nil => exact ⟨rfl, rfl⟩
  | cons entry rest ih =>
    obtain ⟨hfirst, hrest⟩ := List.pairwise_cons.mp h
    by_cases hentry : condition entry = true
    · simp [hentry, ih hrest]
    · have hnone : ∀ later ∈ rest, ¬ condition later = true :=
        fun later hmem hlater ↦ hentry (hfirst later hmem hlater)
      have hall : rest.filter (fun later ↦ !condition later) = rest :=
        List.filter_eq_self.mpr fun later hmem ↦ by simp [hnone later hmem]
      constructor
      · simp [hentry, List.filter_eq_nil_iff.mpr hnone]
      · simp [hentry, hall]

namespace Engine

/-- The serials in the queue do not decrease, and none is beyond the current serial. -/
structure Queued (engine : Engine) : Prop where
  sorted : engine.pending.Pairwise fun first second ↦ first.1 ≤ second.1
  le : ∀ entry ∈ engine.pending, entry.1 ≤ engine.serial

variable {engine first last : Engine}

theorem queued_create (device : Device) (options : Options) : (create device options).Queued where
  sorted := List.Pairwise.nil
  le := nofun

theorem Queued.of_drains (h : first.Queued) (hdrains : Drains first last) : last.Queued where
  sorted := h.sorted.sublist hdrains.pending.sublist
  le entry hmem := Nat.le_trans (h.le entry (hdrains.pending.subset hmem)) hdrains.serial

/-- The calls that destroy what is due at a serial, the first in the queue first. -/
def destructions (engine : Engine) (serial : Int) : List Call :=
  (engine.pending.filter fun entry ↦ entry.1 ≤ serial).map fun entry ↦ .destroyBuffer entry.2

/-- What waits for more than a serial. -/
def waiting (engine : Engine) (serial : Int) : List (Nat × Nat) :=
  engine.pending.filter fun entry ↦ serial < entry.1

/-- A retirement destroys all that is due, each entry once, and keeps the rest as it is. -/
theorem Queued.retire_eq (h : engine.Queued) (serial : Int) :
    engine.retire serial =
      { engine with
        device :=
          { engine.device with calls := engine.device.calls ++ engine.destructions serial }
        pending := engine.waiting serial } := by
  have hsorted : engine.pending.Pairwise fun first second ↦
      decide ((second.1 : Int) ≤ serial) = true → decide ((first.1 : Int) ≤ serial) = true := by
    refine h.sorted.imp fun hle hsecond ↦ ?_
    rw [decide_eq_true_eq] at hsecond ⊢
    omega
  obtain ⟨htake, hdrop⟩ := takeWhile_and_dropWhile_of_pairwise hsorted
  have hdevice := device_retire serial engine
  rw [dueBuffers, htake, foldl_destroyBuffer, List.map_map] at hdevice
  have hpending : (engine.retire serial).pending = engine.waiting serial := by
    change engine.pending.dropWhile _ = _
    rw [hdrop, waiting]
    exact List.filter_congr fun entry _ ↦ Bool.eq_iff_iff.mpr (by simp)
  calc engine.retire serial
      = { engine with
          device := (engine.retire serial).device
          pending := (engine.retire serial).pending } := rfl
    _ = _ := by
      rw [hdevice, hpending]
      rfl

/-- A retirement up to the current serial leaves nothing. -/
theorem Queued.pending_retire (h : engine.Queued) {serial : Nat}
    (hserial : engine.serial ≤ serial) :
    (engine.retire serial).pending = [] := by
  rw [h.retire_eq]
  refine List.filter_eq_nil_iff.mpr fun entry hmem ↦ ?_
  have := h.le entry hmem
  simp only [decide_eq_true_eq]
  omega

/-! ### What joins the queue -/

/-- Buffers have joined the queue at its end, under the current serial. -/
structure Joined (buffers : List Nat) (before after : Engine) : Prop where
  serial : after.serial = before.serial
  pending : after.pending = before.pending ++ buffers.map fun buffer ↦ (before.serial, buffer)

theorem Joined.trans {middle : Engine} {buffers later : List Nat}
    (hfirst : Joined buffers first middle)
    (hlast : Joined later middle last) : Joined (buffers ++ later) first last where
  serial := hlast.serial.trans hfirst.serial
  pending := by
    rw [hlast.pending, hfirst.pending, hfirst.serial, List.map_append, List.append_assoc]

theorem Queued.of_joined {buffers : List Nat} (h : first.Queued)
    (hjoined : Joined buffers first last) :
    last.Queued := by
  constructor
  · rw [hjoined.pending]
    refine List.pairwise_append.mpr ⟨h.sorted, ?_, fun entry hmem later hlater ↦ ?_⟩
    · exact List.pairwise_map.mpr (List.pairwise_of_forall fun _ _ ↦ Nat.le_refl _)
    · obtain ⟨buffer, -, rfl⟩ := List.mem_map.mp hlater
      exact h.le entry hmem
  · intro entry hmem
    rw [hjoined.pending] at hmem
    rw [hjoined.serial]
    rcases List.mem_append.mp hmem with hmem | hmem
    · exact h.le entry hmem
    · obtain ⟨buffer, -, rfl⟩ := List.mem_map.mp hmem
      exact Nat.le_refl _

theorem Joined.length {buffers : List Nat} (h : Joined buffers first last) :
    last.pending.length = first.pending.length + buffers.length := by
  rw [h.pending, List.length_append, List.length_map]

/-- The arrays among the given ones that have not been released yet. -/
def unreleased (engine : Engine) (buffers : List Nat) : List Nat :=
  buffers.filter fun buffer ↦ !(engine.array buffer).released

theorem released_release {buffer other : Nat} (h : (engine.array other).released = true) :
    ((engine.release buffer).array other).released = true := by
  have hset : ((engine.setArray buffer { engine.array buffer with released := true }).array
      other).released = true := by
    unfold Engine.array at h ⊢
    rw [lookup_setArray]
    cases hlookup : engine.arrays.lookup other with
    | none => rwa [hlookup] at h
    | some array =>
      rw [hlookup] at h
      rw [Option.map_some, Option.getD_some]
      split
      · rfl
      · exact h
  obtain ⟨-, hsame⟩ | ⟨-, _, hmarked, -⟩ := release_cases buffer engine
  · rwa [hsame]
  · rw [hmarked]
    exact hset

/-- An array released for the first time joins the queue, unless the device is lost. -/
theorem joined_release (buffer : Nat) (engine : Engine) :
    ∃ buffers, Joined buffers engine (engine.release buffer) ∧
      buffers.length ≤ (engine.unreleased [buffer]).length := by
  obtain ⟨-, h⟩ | ⟨hreleased, pending, h, hpending⟩ := release_cases buffer engine
  · rw [h]
    exact ⟨[], ⟨rfl, by simp⟩, Nat.zero_le _⟩
  · rw [h]
    obtain ⟨-, rfl⟩ | ⟨-, rfl⟩ := hpending
    · exact ⟨[], ⟨rfl, by simp⟩, Nat.zero_le _⟩
    · exact ⟨[buffer], ⟨rfl, rfl⟩, by simp [unreleased, hreleased]⟩

theorem joined_foldl_release (buffers : List Nat) (engine : Engine) :
    ∃ joined, Joined joined engine
        (buffers.foldl (fun engine buffer ↦ engine.release buffer) engine) ∧
      joined.length ≤ (engine.unreleased buffers).length := by
  induction buffers generalizing engine with
  | nil => exact ⟨[], ⟨rfl, by simp⟩, Nat.zero_le _⟩
  | cons buffer rest ih =>
    obtain ⟨one, hone, hlength⟩ := joined_release buffer engine
    obtain ⟨others, hothers, hlength'⟩ := ih (engine.release buffer)
    refine ⟨one ++ others, hone.trans hothers, ?_⟩
    -- Releasing one array makes no other unreleased.
    have hfewer : ((engine.release buffer).unreleased rest).length ≤
        (engine.unreleased rest).length := by
      refine (List.monotone_filter_right rest fun other hother ↦ ?_).length_le
      rw [Bool.not_eq_true'] at hother ⊢
      by_contra hreleased
      rw [released_release (Bool.not_eq_false _ ▸ hreleased)] at hother
      cases hother
    have hsplit : engine.unreleased (buffer :: rest) =
        engine.unreleased [buffer] ++ engine.unreleased rest := by
      rw [unreleased, ← List.singleton_append, List.filter_append]
      rfl
    rw [hsplit, List.length_append, List.length_append]
    omega

/-- The arrays a collection forgets. -/
def lapsed (arrays generators : List Nat) (engine : Engine) : List Nat :=
  (engine.arrays.map Prod.fst).filter fun buffer ↦
    !((engine.collect arrays generators).arrays.map Prod.fst).contains buffer

theorem keys_release (buffer : Nat) (engine : Engine) :
    (engine.release buffer).arrays.map Prod.fst = engine.arrays.map Prod.fst := by
  have hset (array : ArrayState) :
      (engine.setArray buffer array).arrays.map Prod.fst = engine.arrays.map Prod.fst := by
    rw [setArray, List.map_map]
    rfl
  obtain ⟨-, h⟩ | ⟨-, _, h, -⟩ := release_cases buffer engine
  · rw [h]
  · rw [h]
    exact hset _

theorem keys_foldl_release (buffers : List Nat) (engine : Engine) :
    (buffers.foldl (fun engine buffer ↦ engine.release buffer) engine).arrays.map Prod.fst =
      engine.arrays.map Prod.fst :=
  foldl_release_eq (f := fun engine ↦ engine.arrays.map Prod.fst) keys_release buffers engine

/-- The arrays a collection keeps. -/
def keptThrough (arrays generators : List Nat) (engine : Engine) : List Nat :=
  arrays ++ ((engine.keepGenerators generators).generators.flatMap
    fun entry ↦ keptBy entry.1 entry.2) ++ (engine.keepGenerators generators).outstanding

theorem keys_collect (arrays generators : List Nat) (engine : Engine) :
    (engine.collect arrays generators).arrays.map Prod.fst =
      (engine.arrays.map Prod.fst).filter (engine.keptThrough arrays generators).contains := by
  set forgotten := (engine.arrays.map Prod.fst).filter fun buffer ↦
    !(engine.keptThrough arrays generators).contains buffer
  have hfold := keys_foldl_release forgotten (engine.keepGenerators generators)
  exact List.filter_map.symm.trans
    (congrArg (List.filter (engine.keptThrough arrays generators).contains) hfold)

/-- What a collection forgets joins the queue, unless it has been released before. -/
theorem joined_collect (arrays generators : List Nat) (engine : Engine) :
    ∃ buffers, Joined buffers engine (engine.collect arrays generators) ∧
      buffers.length ≤ (engine.unreleased (engine.lapsed arrays generators)).length := by
  set forgotten := (engine.arrays.map Prod.fst).filter fun buffer ↦
    !(engine.keptThrough arrays generators).contains buffer
  have hlapsed : engine.lapsed arrays generators = forgotten := by
    refine List.filter_congr fun buffer hmem ↦ ?_
    rw [keys_collect]
    by_cases hkept : buffer ∈ engine.keptThrough arrays generators
    · simp [hkept, hmem]
    · simp [hkept]
  obtain ⟨buffers, hjoined, hlength⟩ :=
    joined_foldl_release forgotten (engine.keepGenerators generators)
  exact ⟨buffers, ⟨hjoined.serial, hjoined.pending⟩, by rw [hlapsed]; exact hlength⟩

end Engine

/-! ### Submissions -/

/-- The helpers of a submission join the queue under its serial, so if it has grown too long it is
drained to the end. -/
theorem queued_settle {engine : Engine} {serial : Nat} (h : engine.Queued)
    (hserial : engine.serial = serial) (helpers : List Nat) :
    (stateAfter (Action.settle serial helpers) engine).Queued ∧
      (stateAfter (Action.settle serial helpers) engine).pending.length ≤ pendingLimit := by
  set joined : Engine := { engine with
    pending := engine.pending ++ helpers.map fun buffer ↦ (serial, buffer) }
  have hjoins : Joined helpers engine joined := ⟨rfl, by rw [hserial]⟩
  have hjoined : joined.Queued := h.of_joined hjoins
  unfold Action.settle
  simp only [stateAfter_bind, outcomeOf_modify, stateAfter_modify, outcomeOf_get, stateAfter_get]
  by_cases hlong : pendingLimit < joined.pending.length
  · rw [if_pos hlong]
    have hwaited :
        Drains joined { joined with device := joined.device.record (.awaitQueue true) } :=
      drains_changeDevice _ joined
    have hdrained := (hjoined.of_drains hwaited).pending_retire (Nat.le_of_eq hserial)
    refine ⟨(hjoined.of_drains hwaited).of_drains (drains_retire serial _), ?_⟩
    show (Engine.retire serial _).pending.length ≤ _
    rw [hdrained]
    exact Nat.zero_le _
  · rw [if_neg hlong]
    exact ⟨hjoined, Nat.not_lt.mp hlong⟩

theorem serial_of_handOver {dispatches : List Dispatch} {copies : List (Nat × Nat)}
    {commands : List Command} {engine : Engine} {serial : Nat}
    (h : outcomeOf (Action.handOver dispatches copies commands) engine = .ok serial) :
    (stateAfter (Action.handOver dispatches copies commands) engine).serial = serial := by
  rw [handOver_eq] at h ⊢
  obtain ⟨marked, hmarked, hsubmitted⟩ := outcomeOf_bind_eq_ok.mp h
  rw [stateAfter_bind_of_ok hmarked]
  exact Except.ok.inj hsubmitted

/-- A submission that fails has put nothing into the queue, and one that returns leaves a bounded
one. -/
theorem queued_submit {engine : Engine} (h : engine.Queued) (dispatches : List Dispatch)
    (helpers : List Nat) (copies : List (Nat × Nat)) :
    (stateAfter (Action.submit dispatches helpers copies) engine).Queued ∧
      (stateAfter (Action.submit dispatches helpers copies) engine).pending.length ≤
        match outcomeOf (Action.submit dispatches helpers copies) engine with
        | .ok _ => pendingLimit
        | .error _ => engine.pending.length := by
  unfold Action.submit
  simp only [outcomeOf_bind, stateAfter_bind, stateAfter_assertActive]
  cases outcomeOf Action.assertActive engine with
  | error failure => exact ⟨h, Nat.le_refl _⟩
  | ok active =>
    have hprepared := drains_prepare dispatches copies engine
    dsimp only
    cases outcomeOf (Action.prepare dispatches copies) engine with
    | error failure => exact ⟨h.of_drains hprepared, hprepared.length_le⟩
    | ok commands =>
      set prepared := stateAfter (Action.prepare dispatches copies) engine
      have hhanded := hprepared.trans (drains_handOver dispatches copies commands prepared)
      dsimp only
      cases hserial : outcomeOf (Action.handOver dispatches copies commands) prepared with
      | error failure => exact ⟨h.of_drains hhanded, hhanded.length_le⟩
      | ok serial =>
        set handed := stateAfter (Action.handOver dispatches copies commands) prepared
        have hsettled := queued_settle (h.of_drains hhanded) (serial_of_handOver hserial) helpers
        have hnever : Throws (fun _ ↦ False) (Action.settle serial helpers) :=
          throws_settle serial helpers
        dsimp only
        cases hdone : outcomeOf (Action.settle serial helpers) handed with
        | error failure => exact (hnever handed failure hdone).elim
        | ok done => exact hsettled

/-! ### Waits -/

/-- After a wait for all submitted work nothing is pending. -/
theorem pending_synchronize {engine : Engine} (h : engine.Queued) {blocking : Bool} {done : PUnit}
    (hdone : outcomeOf (Action.synchronize blocking) engine = .ok done) :
    (stateAfter (Action.synchronize blocking) engine).pending = [] := by
  obtain ⟨active, hactive, -⟩ := outcomeOf_bind_eq_ok.mp hdone
  have hwaited := h.of_drains
    (drains_changeDevice (Device.record (.awaitQueue blocking)) engine)
  rw [Action.synchronize, stateAfter_bind_of_ok hactive, stateAfter_assertActive]
  exact hwaited.pending_retire (Nat.le_refl _)

/-! ### Runs -/

namespace Primitive

/-- The arrays a primitive releases for the first time. -/
def releases (engine : Engine) : Primitive → List Nat
  | release buffer => engine.unreleased [buffer]
  | collect arrays generators => engine.unreleased (engine.lapsed arrays generators)
  | _ => []

/-- The releases since the last submission that returned, if there were so many before the
primitive. -/
def releasesAfter (engine : Engine) (count : Nat) : Primitive → Nat
  | submit dispatches helpers copies =>
    match outcomeOf (Action.submit dispatches helpers copies) engine with
    | .ok _ => 0
    | .error _ => count
  | primitive => count + (primitive.releases engine).length

end Primitive

namespace Engine

/-- The releases since the last submission of a run that returned, or since before the run if none
did. -/
def releasesSince (engine : Engine) (count : Nat) : List Primitive → Nat
  | [] => count
  | primitive :: rest =>
    (engine.after primitive).releasesSince (primitive.releasesAfter engine count) rest

/-- The queue is in order, and no longer than a submission leaves it and the releases since make
it. -/
structure Backlog (engine : Engine) (releases : Nat) : Prop where
  queued : engine.Queued
  length : engine.pending.length ≤ pendingLimit + releases

variable {engine last : Engine} {count : Nat}

theorem Backlog.of_joined {buffers : List Nat} (h : engine.Backlog count)
    (hjoined : Joined buffers engine last) {more : Nat} (hmore : buffers.length ≤ more) :
    last.Backlog (count + more) where
  queued := h.queued.of_joined hjoined
  length := by
    have := h.length
    rw [hjoined.length]
    omega

/-- What one primitive does to the queue. -/
theorem backlog_after (h : engine.Backlog count) (primitive : Primitive) :
    (engine.after primitive).Backlog (primitive.releasesAfter engine count) := by
  have hdrained (hdrains : Drains engine (engine.after primitive)) :
      (engine.after primitive).Backlog count :=
    ⟨h.queued.of_drains hdrains, Nat.le_trans hdrains.length_le h.length⟩
  cases primitive with
  | submit dispatches helpers copies =>
    have hlength := h.length
    obtain ⟨hqueued, hsubmitted⟩ := queued_submit h.queued dispatches helpers copies
    have hstate := after_submit engine dispatches helpers copies
    rw [hstate, Primitive.releasesAfter]
    refine ⟨hqueued, ?_⟩
    cases houtcome : outcomeOf (Action.submit dispatches helpers copies) engine with
    | error failure =>
      rw [houtcome] at hsubmitted
      exact Nat.le_trans hsubmitted hlength
    | ok serial =>
      rw [houtcome] at hsubmitted
      exact hsubmitted
  | release buffer =>
    obtain ⟨buffers, hjoined, hmore⟩ := joined_release buffer engine
    exact h.of_joined hjoined hmore
  | collect arrays generators =>
    obtain ⟨buffers, hjoined, hmore⟩ := joined_collect arrays generators engine
    exact h.of_joined hjoined hmore
  | _ => exact hdrained (drains_after id engine)

theorem backlog_afterAll (h : engine.Backlog count) (primitives : List Primitive) :
    (engine.afterAll primitives).Backlog (engine.releasesSince count primitives) := by
  induction primitives generalizing engine count with
  | nil => exact h
  | cons primitive rest ih => exact ih (backlog_after h primitive)

end Engine

/-- Whatever is asked of an engine: the queue is in order, so a retirement destroys exactly what is
due and keeps the rest; a submission that returns leaves at most `pendingLimit` buffers in it, to
which only releases add before the next; and a wait for all submitted work empties it. -/
theorem backlog_of_run (computing : Computing) (features : List String) (limits : Limits)
    (destroyFailure : Option String) (options : Options) (primitives : List Primitive) :
    let start := Engine.create (.createWith computing features limits destroyFailure) options
    let engine := start.afterAll primitives
    engine.Queued ∧
    (∀ serial : Int, engine.retire serial =
      { engine with
        device :=
          { engine.device with calls := engine.device.calls ++ engine.destructions serial }
        pending := engine.waiting serial }) ∧
    (∀ dispatches helpers copies serial,
      outcomeOf (Action.submit dispatches helpers copies) engine = .ok serial →
        (stateAfter (Action.submit dispatches helpers copies) engine).pending.length ≤
          pendingLimit) ∧
    engine.pending.length ≤ pendingLimit + start.releasesSince 0 primitives ∧
    ∀ done, outcomeOf (Action.synchronize true) engine = .ok done →
      (stateAfter (Action.synchronize true) engine).pending = [] := by
  intro start engine
  obtain ⟨hqueued, hlength⟩ : engine.Backlog (start.releasesSince 0 primitives) :=
    backlog_afterAll ⟨queued_create _ _, Nat.zero_le _⟩ primitives
  refine ⟨hqueued, hqueued.retire_eq, ?_, hlength, fun done ↦ pending_synchronize hqueued⟩
  intro dispatches helpers copies serial hsubmitted
  have hbounded := (queued_submit hqueued dispatches helpers copies).2
  rwa [hsubmitted] at hbounded

/-- A released array waits for no submission, and goes with the next wait. -/
theorem backlog_of_run_released :
    let engine := (Engine.create (.createWith (fun _ _ held ↦ held) [] ⟨256, 256, 65535⟩ none)
      ⟨.highPerformance, .bool true, 256, .none⟩).afterAll
        [.allocate .f32 [1] [1] false 1, .release 1]
    engine.pending = [(0, 1)] ∧
      outcomeOf (Action.submit [] [] []) engine = .ok 1 ∧
      (stateAfter (Action.submit [] [] []) engine).pending.length ≤ pendingLimit ∧
      outcomeOf (Action.synchronize true) engine = .ok ⟨⟩ ∧
      (stateAfter (Action.synchronize true) engine).pending = [] := by
  intro engine
  have hrun := backlog_of_run (fun _ _ held ↦ held) [] ⟨256, 256, 65535⟩ none
    ⟨.highPerformance, .bool true, 256, .none⟩ [.allocate .f32 [1] [1] false 1, .release 1]
  have hsubmitted : outcomeOf (Action.submit [] [] []) engine = .ok 1 :=
    eq_ok_iff.mpr (by decide +kernel)
  have hwaited : outcomeOf (Action.synchronize true) engine = .ok ⟨⟩ :=
    eq_ok_iff.mpr (by decide +kernel)
  exact ⟨by decide +kernel, hsubmitted, hrun.2.2.1 [] [] [] 1 hsubmitted, hwaited,
    hrun.2.2.2.2 ⟨⟩ hwaited⟩

end ComputeArray
