import ComputeArray.Device.Basic

/-!
# Histories of a device

A history lists the calls to a device and the waits that are over. From it alone an observer tells
which submissions are known to be done: those made before the last wait that is over was asked for.
`History.Safe` says that no buffer is destroyed before the last submission that uses it is known to
be done.
-/

set_option autoImplicit false

namespace ComputeArray

/-- The buffers a command binds or copies. -/
def Command.buffers : Command → List Nat
  | .dispatch _ _ buffers _ => buffers.map Prod.fst
  | .copy source target _ => [source, target]

inductive Event where
  | call (call : Call)
  /-- The end of a wait for the queue that was asked for when so many submissions had been made. -/
  | completed (submissions : Nat)

/-- Events, the latest first. -/
abbrev History := List Event

namespace History

def submissions : History → Nat
  | [] => 0
  | .call (.submit _) :: earlier => submissions earlier + 1
  | _ :: earlier => submissions earlier

/-- The serials of the submissions that bind or copy a buffer. -/
def usesOf (buffer : Nat) : History → List Nat
  | [] => []
  | .call (.submit commands) :: earlier =>
    if commands.any fun command => command.buffers.contains buffer then
      (submissions earlier + 1) :: usesOf buffer earlier
    else usesOf buffer earlier
  | _ :: earlier => usesOf buffer earlier

/-- The number of submissions made before a buffer was last asked to be mapped. -/
def mappedAfter (buffer : Nat) : History → Nat
  | [] => 0
  | .call (.map other _ _) :: earlier =>
    if other = buffer then submissions earlier else mappedAfter buffer earlier
  | _ :: earlier => mappedAfter buffer earlier

/-- The number of submissions known to be done since the last wait was over: those made before that
wait was asked for. A blocking wait for the queue is over at once, and a mapping is over when the
buffer is unmapped. -/
def observed : History → Nat
  | [] => 0
  | .completed made :: _ => made
  | .call (.awaitQueue true) :: earlier => submissions earlier
  | .call (.unmap buffer) :: earlier => mappedAfter buffer earlier
  | _ :: earlier => observed earlier

def destroyed : History → List Nat
  | [] => []
  | .call (.destroyBuffer buffer) :: earlier => buffer :: destroyed earlier
  | _ :: earlier => destroyed earlier

/-- When a buffer is destroyed, all submissions that ever use it are known to be done. -/
def Safe (history : History) : Prop :=
  ∀ later buffer earlier, history = later ++ .call (.destroyBuffer buffer) :: earlier →
    ∀ serial ∈ history.usesOf buffer, serial ≤ observed earlier

/-- The history after further calls. -/
def extend (history : History) (calls : List Call) : History :=
  calls.foldl (fun earlier call ↦ .call call :: earlier) history

/-- The calls of a history in their order. -/
def calls (history : History) : List Call :=
  (history.filterMap fun
    | .call call => some call
    | .completed _ => none).reverse

end History

namespace Call

/-- Calls that neither make work for the queue nor wait for it nor give buffers back. -/
def IsQuiet : Call → Prop
  | submit _ => False
  | map .. => False
  | unmap _ => False
  | destroyBuffer _ => False
  | awaitQueue blocking => blocking = false
  | _ => True

end Call

namespace Event

/-- Events after which some wait is over, or that ask for one. -/
def IsWait : Event → Prop
  | completed _ => True
  | call (.awaitQueue _) => True
  | call (.unmap _) => True
  | _ => False

end Event

namespace History

variable {history : History} {buffer : Nat}

@[simp] theorem extend_nil (history : History) : history.extend [] = history := rfl

@[simp] theorem extend_cons (history : History) (call : Call) (calls : List Call) :
    history.extend (call :: calls) = extend (.call call :: history) calls :=
  rfl

theorem extend_append (history : History) (first second : List Call) :
    history.extend (first ++ second) = (history.extend first).extend second :=
  List.foldl_append

theorem calls_extend (history : History) (new : List Call) :
    (history.extend new).calls = history.calls ++ new := by
  induction new generalizing history with
  | nil => rw [extend_nil, List.append_nil]
  | cons call rest ih => rw [extend_cons, ih, calls, calls]; simp

section Submit

variable {event : Event} (hother : ∀ commands, event ≠ .call (.submit commands))
include hother

theorem submissions_cons (history : History) :
    submissions (event :: history) = submissions history := by
  rw [submissions]
  exact hother

theorem usesOf_cons (history : History) :
    usesOf buffer (event :: history) = usesOf buffer history := by
  rw [usesOf]
  exact hother

end Submit

theorem usesOf_submit {commands : List Command} (history : History)
    (h : ∀ command ∈ commands, buffer ∉ command.buffers) :
    usesOf buffer (.call (.submit commands) :: history) = usesOf buffer history := by
  rw [usesOf, if_neg]
  rw [List.any_eq_true]
  rintro ⟨command, hmem, hused⟩
  exact h command hmem (List.contains_iff_mem.mp hused)

/-- No submission has a serial beyond the number of submissions. -/
theorem le_submissions_of_mem_usesOf {serial : Nat} (h : serial ∈ history.usesOf buffer) :
    serial ≤ history.submissions := by
  induction history with
  | nil => cases h
  | cons event earlier ih =>
    by_cases hsubmit : ∃ commands, event = .call (.submit commands)
    · obtain ⟨commands, rfl⟩ := hsubmit
      rw [submissions]
      rw [usesOf] at h
      split at h
      · rcases List.mem_cons.mp h with rfl | h
        · exact Nat.le_refl _
        · exact Nat.le_succ_of_le (ih h)
      · exact Nat.le_succ_of_le (ih h)
    · have hother : ∀ commands, event ≠ .call (.submit commands) :=
        fun commands heq ↦ hsubmit ⟨commands, heq⟩
      rw [usesOf_cons hother] at h
      rw [submissions_cons hother]
      exact ih h

theorem mem_destroyed : buffer ∈ history.destroyed ↔ .call (.destroyBuffer buffer) ∈ history := by
  induction history with
  | nil => simp [destroyed]
  | cons event earlier ih =>
    unfold destroyed
    split
    · next heq => cases heq
    · next heq => cases heq; rw [List.mem_cons, ih, List.mem_cons]; simp
    · next hother heq =>
      cases heq
      rw [ih, List.mem_cons]
      refine ⟨.inr, fun h ↦ h.resolve_left fun heq ↦ ?_⟩
      exact hother _ heq.symm

/-- Histories stay safe if no submission uses a buffer that was destroyed before, and no buffer is
destroyed before its submissions are known to be done. -/
theorem Safe.cons {event : Event} (h : history.Safe)
    (hdestroy : ∀ buffer, event = .call (.destroyBuffer buffer) →
      ∀ serial ∈ history.usesOf buffer, serial ≤ history.observed)
    (hsubmit : ∀ commands, event = .call (.submit commands) →
      ∀ command ∈ commands, ∀ buffer ∈ command.buffers, buffer ∉ history.destroyed) :
    Safe (event :: history) := by
  intro later buffer earlier hsplit serial hserial
  rcases List.cons_eq_append_iff.mp hsplit with ⟨rfl, hhead⟩ | ⟨later, rfl, rfl⟩
  · obtain ⟨rfl, rfl⟩ := List.cons.inj hhead
    rw [usesOf_cons fun _ h ↦ by cases h] at hserial
    exact hdestroy buffer rfl serial hserial
  · refine h later buffer earlier rfl serial ?_
    by_cases hsubmitted : ∃ commands, event = .call (.submit commands)
    · obtain ⟨commands, rfl⟩ := hsubmitted
      rwa [usesOf_submit] at hserial
      intro command hmem hused
      exact hsubmit commands rfl command hmem buffer hused
        (mem_destroyed.mpr (List.mem_append_right _ List.mem_cons_self))
    · rwa [usesOf_cons fun commands heq ↦ hsubmitted ⟨commands, heq⟩] at hserial

/-- Waits change only what is known to be done. -/
theorem same_of_isWait {event : Event} (history : History) (h : event.IsWait) :
    submissions (event :: history) = submissions history ∧
      (∀ buffer, usesOf buffer (event :: history) = usesOf buffer history) ∧
      (∀ buffer, mappedAfter buffer (event :: history) = mappedAfter buffer history) ∧
      destroyed (event :: history) = destroyed history := by
  cases event with
  | completed made => exact ⟨rfl, fun _ ↦ rfl, fun _ ↦ rfl, rfl⟩
  | call call =>
    cases call with
    | awaitQueue blocking => exact ⟨rfl, fun _ ↦ rfl, fun _ ↦ rfl, rfl⟩
    | unmap other => exact ⟨rfl, fun _ ↦ rfl, fun _ ↦ rfl, rfl⟩
    | _ => exact h.elim

/-- What the events of a history come to. -/
def ledger (history : History) :=
  (history.submissions, (fun buffer ↦ history.usesOf buffer),
    (fun buffer ↦ history.mappedAfter buffer), history.observed, history.destroyed)

theorem ledger_cons_of_isQuiet {call : Call} (history : History) (h : call.IsQuiet) :
    ledger (.call call :: history) = ledger history := by
  cases call with
  | submit commands => exact h.elim
  | map other size blocking => exact h.elim
  | unmap other => exact h.elim
  | destroyBuffer other => exact h.elim
  | awaitQueue blocking => cases h; rfl
  | _ => rfl

theorem ledger_extend_of_isQuiet {calls : List Call} (history : History)
    (h : ∀ call ∈ calls, call.IsQuiet) : (history.extend calls).ledger = history.ledger := by
  induction calls generalizing history with
  | nil => rfl
  | cons call rest ih =>
    rw [extend_cons, ih _ fun later hmem ↦ h later (List.mem_cons_of_mem call hmem),
      ledger_cons_of_isQuiet history (h call List.mem_cons_self)]

theorem Safe.extend_of_isQuiet {calls : List Call} (hsafe : history.Safe)
    (h : ∀ call ∈ calls, call.IsQuiet) : (history.extend calls).Safe := by
  induction calls generalizing history with
  | nil => exact hsafe
  | cons call rest ih =>
    have hcall := h call List.mem_cons_self
    refine ih (hsafe.cons ?_ ?_) fun later hmem ↦ h later (List.mem_cons_of_mem call hmem)
    · rintro buffer ⟨⟩
      exact hcall.elim
    · rintro commands ⟨⟩
      exact hcall.elim

/-- Destructions of buffers whose submissions are known to be done change what is known of no
submission. -/
theorem Safe.extend_destroyBuffer (buffers : List Nat) (hsafe : history.Safe)
    (h : ∀ buffer ∈ buffers, ∀ serial ∈ history.usesOf buffer, serial ≤ history.observed) :
    (history.extend (buffers.map .destroyBuffer)).Safe ∧
      (history.extend (buffers.map .destroyBuffer)).ledger =
        (history.submissions, (fun buffer ↦ history.usesOf buffer),
          (fun buffer ↦ history.mappedAfter buffer), history.observed,
          buffers.reverse ++ history.destroyed) := by
  induction buffers generalizing history with
  | nil => exact ⟨hsafe, rfl⟩
  | cons buffer rest ih =>
    have hfirst : Safe (.call (.destroyBuffer buffer) :: history) := by
      refine hsafe.cons ?_ ?_
      · rintro _ ⟨⟩
        exact h buffer List.mem_cons_self
      · rintro commands ⟨⟩
    obtain ⟨hrest, hledger⟩ := ih hfirst fun other hmem ↦ h other (List.mem_cons_of_mem buffer hmem)
    refine ⟨hrest, hledger.trans ?_⟩
    rw [destroyed, List.reverse_cons, List.append_assoc]
    rfl

end History

namespace Device

/-- Between the states only quiet calls were made. -/
def QuietUntil (before after : Device) : Prop :=
  ∃ calls : List Call, after.calls.toList = before.calls.toList ++ calls ∧
    ∀ call ∈ calls, call.IsQuiet

namespace QuietUntil

variable {first middle last : Device}

theorem of_eq (h : last.calls = first.calls) : QuietUntil first last :=
  ⟨[], by rw [h, List.append_nil], by simp⟩

theorem trans (hfirst : QuietUntil first middle) (hlast : QuietUntil middle last) :
    QuietUntil first last := by
  obtain ⟨before, hbefore, hquiet⟩ := hfirst
  obtain ⟨after, hafter, hquiet'⟩ := hlast
  refine ⟨before ++ after, by rw [hafter, hbefore, List.append_assoc], fun call hmem ↦ ?_⟩
  exact (List.mem_append.mp hmem).elim (hquiet call) (hquiet' call)

theorem of_push {call : Call} (hcalls : last.calls = first.calls.push call) (h : call.IsQuiet) :
    QuietUntil first last :=
  ⟨[call], by rw [hcalls, Array.toList_push], by simpa using h⟩

/-- What is read off calls that are not quiet stays the same. -/
theorem filterMap_eq {α : Type} {f : Call → Option α} (h : QuietUntil first last)
    (hf : ∀ call : Call, call.IsQuiet → f call = none) :
    last.calls.toList.filterMap f = first.calls.toList.filterMap f := by
  obtain ⟨calls, hcalls, hquiet⟩ := h
  have hnone : calls.filterMap f = [] :=
    List.filterMap_eq_nil_iff.mpr fun call hmem ↦ hf call (hquiet call hmem)
  rw [hcalls, List.filterMap_append, hnone, List.append_nil]

end QuietUntil

end Device

end ComputeArray
