import ComputeArray.Proofs.Random.Draw
import Mathlib.Data.List.Perm.Basic

/-!
# Accounts of draws

A ledger has an entry for each request to a generator: the pass that was run for it, the arrays it
made and the one it answered. Second samples are kept until the next normal draw, which answers them
or gives them up. Every array that was made is answered, kept or given up, and only one of these
(`Balanced.snoc`).
-/

set_option autoImplicit false

namespace ComputeArray

namespace Generator

/-- A request for a draw. -/
inductive DrawRequest where
  | next (elementName : Value)
  | skip
  | normal (elementName : Value)

/-- What has been done about a request. -/
inductive Entry where
  | drawn (element : ElementType) (out : Nat)
  | skipped
  /-- A pair of normal samples was drawn, of which the first was answered. -/
  | launched (element : ElementType) (first second : Nat)
  /-- Samples that had been kept were answered. -/
  | recalled (element : ElementType) (samples : Nat)

namespace DrawRequest

def isNext : DrawRequest → Bool
  | next _ => true
  | _ => false

def isSkip : DrawRequest → Bool
  | skip => true
  | _ => false

def isNormal : DrawRequest → Bool
  | normal _ => true
  | _ => false

end DrawRequest

namespace Entry

/-- The pass that was run, if any. -/
def pass? : Entry → Option Pass
  | drawn element _ => some (.uniform (some element))
  | skipped => some (.uniform none)
  | launched element _ _ => some (.pair element)
  | recalled _ _ => none

/-- The steps that each stream was advanced. -/
def steps (entry : Entry) : Nat := entry.pass?.elim 0 Pass.steps

/-- The arrays that were made, in the order of the outputs of the pass. -/
def made : Entry → List Nat
  | drawn _ out => [out]
  | launched _ first second => [first, second]
  | _ => []

def answer : Entry → Option Nat
  | drawn _ out => some out
  | skipped => none
  | launched _ first _ => some first
  | recalled _ samples => some samples

/-- The element type of the normal samples that were asked for. -/
def normal? : Entry → Option ElementType
  | launched element _ _ => some element
  | recalled element _ => some element
  | _ => none

def isLaunch : Entry → Bool
  | launched _ _ _ => true
  | _ => false

/-- The entry is one for the request. -/
inductive Answers : DrawRequest → Entry → Prop where
  | next {name : Value} {element : ElementType} (out : Nat)
      (hname : ElementType.ofValue name = .ok element) : Answers (.next name) (drawn element out)
  | skip : Answers .skip skipped
  | launch {name : Value} {element : ElementType} (first second : Nat)
      (hname : ElementType.ofValue name = .ok element) :
      Answers (.normal name) (launched element first second)
  | reuse {name : Value} {element : ElementType} (samples : Nat)
      (hname : ElementType.ofValue name = .ok element) :
      Answers (.normal name) (recalled element samples)

theorem Answers.isNormal {request : DrawRequest} {entry : Entry} (h : Answers request entry) :
    entry.normal?.isSome = request.isNormal := by
  cases h <;> rfl

theorem Answers.steps {request : DrawRequest} {entry : Entry} (h : Answers request entry) :
    entry.steps = (if request.isNext then 1 else 0) + (if request.isSkip then 1 else 0) +
      2 * (if entry.isLaunch then 1 else 0) := by
  cases h <;> rfl

end Entry

/-- The steps each stream was advanced for some entries. -/
def stepsOf (entries : List Entry) : Nat := (entries.map Entry.steps).sum

theorem stepsOf_eq {requests : List DrawRequest} {entries : List Entry}
    (h : List.Forall₂ Entry.Answers requests entries) :
    stepsOf entries = requests.countP DrawRequest.isNext + requests.countP DrawRequest.isSkip +
      2 * entries.countP Entry.isLaunch := by
  induction h with
  | nil => rfl
  | cons hfirst _ ih =>
    rw [stepsOf] at ih ⊢
    rw [List.map_cons, List.sum_cons, ih, hfirst.steps, List.countP_cons, List.countP_cons,
      List.countP_cons]
    omega

/-! ### Samples that are kept -/

/-- The second samples a generator keeps, and those it has given up. -/
structure Ledger where
  kept : Option (ElementType × Nat)
  givenUp : List Nat

namespace Ledger

def enter (ledger : Ledger) : Entry → Ledger
  | .launched element _ second =>
    ⟨some (element, second), ledger.givenUp ++ (ledger.kept.map Prod.snd).toList⟩
  | .recalled _ _ => { ledger with kept := none }
  | _ => ledger

/-- The ledger of entries that start with a new generator. -/
def of (entries : List Entry) : Ledger := entries.foldl enter ⟨none, []⟩

theorem of_snoc (past : List Entry) (entry : Entry) :
    of (past ++ [entry]) = (of past).enter entry :=
  List.foldl_append

end Ledger

variable {past entries : List Entry} {entry : Entry} {requests : List DrawRequest} {i j : Nat}
  {element : ElementType} {samples : Nat}

/-- Samples are recalled if and only if ones of the element type asked for are kept. -/
def Follows (past : List Entry) : Entry → Prop
  | .launched element _ _ => ∀ samples, (Ledger.of past).kept ≠ some (element, samples)
  | .recalled element samples => (Ledger.of past).kept = some (element, samples)
  | _ => True

/-- Every array that was made has been answered, is kept or has been given up. -/
def Balanced (entries : List Entry) : Prop :=
  (entries.filterMap Entry.answer ++ ((Ledger.of entries).kept.map Prod.snd).toList ++
    (Ledger.of entries).givenUp).Perm (entries.flatMap Entry.made)

theorem balanced_nil : Balanced [] := .refl _

/-- An entry leaves every array in one place. -/
theorem Balanced.snoc (h : Balanced past) (hfollows : Follows past entry) :
    Balanced (past ++ [entry]) := by
  unfold Balanced at h ⊢
  rw [List.perm_iff_count] at h ⊢
  intro buffer
  have hbuffer := h buffer
  have hanswer : [entry].filterMap Entry.answer = entry.answer.toList := by
    cases entry <;> rfl
  rw [Ledger.of_snoc, List.filterMap_append, hanswer, List.flatMap_append, List.flatMap_singleton]
  simp only [List.count_append] at hbuffer ⊢
  cases entry with
  | drawn element out =>
    simp only [Ledger.enter, Entry.answer, Entry.made, Option.toList_some]
    omega
  | skipped =>
    simp only [Ledger.enter, Entry.answer, Entry.made, Option.toList_none]
    omega
  | launched element first second =>
    simp only [Ledger.enter, Entry.answer, Entry.made, Option.map_some, Option.toList_some,
      List.count_append, List.count_cons, List.count_nil]
    omega
  | recalled element samples =>
    rw [show (Ledger.of past).kept = _ from hfollows] at hbuffer
    simp only [Ledger.enter, Entry.answer, Entry.made, Option.map_some, Option.map_none,
      Option.toList_some, Option.toList_none, List.count_nil] at hbuffer ⊢
    omega

/-! ### Samples by the requests they come from -/

/-- The second samples of the latest launch before a request, no normal
samples having been asked for in between. -/
def CachedAt (entries : List Entry) (j : Nat) (element : ElementType) (samples : Nat) : Prop :=
  ∃ i first, i < j ∧ entries[i]? = some (.launched element first samples) ∧
    ∀ (k : Nat) later, i < k → k < j → entries[k]? = some later → later.normal? = none

/-- A request for normal samples changes what is cached, and no other request does. -/
theorem cachedAt_succ : CachedAt entries (j + 1) element samples ↔
    (∃ first, entries[j]? = some (.launched element first samples)) ∨
      CachedAt entries j element samples ∧
        ∀ entry, entries[j]? = some entry → entry.normal? = none := by
  constructor
  · rintro ⟨i, first, hi, hlaunch, hbetween⟩
    rcases Nat.lt_succ_iff_lt_or_eq.mp hi with hlt | rfl
    · exact .inr ⟨⟨i, first, hlt, hlaunch, fun k later hik hkj ↦
        hbetween k later hik (Nat.lt_succ_of_lt hkj)⟩,
        fun entry ↦ hbetween j entry hlt (Nat.lt_succ_self j)⟩
    · exact .inl ⟨first, hlaunch⟩
  · rintro (⟨first, hlaunch⟩ | ⟨⟨i, first, hi, hlaunch, hbetween⟩, hlast⟩)
    · exact ⟨j, first, Nat.lt_succ_self j, hlaunch, fun k _ hjk hkj ↦ by omega⟩
    · refine ⟨i, first, Nat.lt_succ_of_lt hi, hlaunch, fun k later hik hkj hlater ↦ ?_⟩
      rcases Nat.lt_succ_iff_lt_or_eq.mp hkj with hlt | rfl
      · exact hbetween k later hik hlt hlater
      · exact hlast later hlater

theorem kept_take_iff : (Ledger.of (entries.take j)).kept = some (element, samples) ↔
    CachedAt entries j element samples := by
  induction j generalizing element samples with
  | zero => exact ⟨nofun, fun ⟨_, _, hlt, _⟩ ↦ absurd hlt (Nat.not_lt_zero _)⟩
  | succ j ih =>
    rw [cachedAt_succ, ← ih]
    cases hentry : entries[j]? with
    | none =>
      have hle : entries.length ≤ j := List.getElem?_eq_none_iff.mp hentry
      rw [List.take_of_length_le hle, List.take_of_length_le (Nat.le_succ_of_le hle)]
      simp
    | some entry =>
      rw [List.take_add_one, hentry, Option.toList_some, Ledger.of_snoc]
      cases entry with
      | launched other first second => simp [Ledger.enter, Entry.normal?]
      | recalled other second => simp [Ledger.enter, Entry.normal?]
      | _ => simp [Ledger.enter, Entry.normal?]

/-- What is given up was cached when samples of another type were launched. -/
theorem mem_givenUp_take_iff {m buffer : Nat} :
    buffer ∈ (Ledger.of (entries.take m)).givenUp ↔
      ∃ j < m, (∃ element first second, entries[j]? = some (.launched element first second)) ∧
        ∃ element, CachedAt entries j element buffer := by
  induction m with
  | zero => exact ⟨nofun, fun ⟨_, hlt, _⟩ ↦ absurd hlt (Nat.not_lt_zero _)⟩
  | succ m ih =>
    have hsplit (P : Nat → Prop) : (∃ j < m + 1, P j) ↔ (∃ j < m, P j) ∨ P m := by
      simp only [Nat.lt_succ_iff_lt_or_eq, or_and_right, exists_or, exists_eq_left]
    rw [hsplit, ← ih]
    cases hentry : entries[m]? with
    | none =>
      have hle : entries.length ≤ m := List.getElem?_eq_none_iff.mp hentry
      rw [List.take_of_length_le hle, List.take_of_length_le (Nat.le_succ_of_le hle)]
      simp
    | some entry =>
      rw [List.take_add_one, hentry, Option.toList_some, Ledger.of_snoc]
      cases entry with
      | launched other first second =>
        simp [Ledger.enter, ← kept_take_iff, Option.mem_toList]
      | _ => simp [Ledger.enter]

/-! ### Requests in a row -/

variable {name : Value} {other : ElementType} {first second : Nat}

/-- The request is the next one for normal samples. -/
structure NextNormal (requests : List DrawRequest) (i j : Nat) (name : Value) : Prop where
  lt : i < j
  normal : requests[j]? = some (.normal name)
  between : ∀ (k : Nat) later, i < k → k < j → requests[k]? = some later → later.isNormal = false

/-- Entries answer requests, each as the ones before it ask for. -/
structure Answering (requests : List DrawRequest) (entries : List Entry) : Prop where
  answers : List.Forall₂ Entry.Answers requests entries
  follows : ∀ (j : Nat) entry, entries[j]? = some entry → Follows (entries.take j) entry
  nodup : (entries.flatMap Entry.made).Nodup
  balanced : Balanced entries

namespace Answering

variable (h : Answering requests entries)
include h

theorem exists_entry {request : DrawRequest} (hrequest : requests[j]? = some request) :
    ∃ entry, entries[j]? = some entry ∧ Entry.Answers request entry := by
  obtain ⟨hj, rfl⟩ := List.getElem?_eq_some_iff.mp hrequest
  have hj' : j < entries.length := h.answers.length_eq ▸ hj
  exact ⟨entries[j], List.getElem?_eq_getElem hj', h.answers.get hj hj'⟩

theorem exists_request (hentry : entries[j]? = some entry) :
    ∃ request, requests[j]? = some request ∧ Entry.Answers request entry := by
  obtain ⟨hj', rfl⟩ := List.getElem?_eq_some_iff.mp hentry
  have hj : j < requests.length := h.answers.length_eq ▸ hj'
  exact ⟨requests[j], List.getElem?_eq_getElem hj, h.answers.get hj hj'⟩

/-- A request for normal samples is answered by a launch exactly when no second samples of their
type are cached. -/
theorem launched_iff (hrequest : requests[j]? = some (.normal name))
    (hname : ElementType.ofValue name = .ok element) :
    (∃ first second, entries[j]? = some (.launched element first second)) ↔
      ∀ samples, ¬ CachedAt entries j element samples := by
  obtain ⟨entry, hentry, hanswers⟩ := h.exists_entry hrequest
  have hfollows := h.follows j entry hentry
  cases hanswers with
  | @launch _ found first second hfound =>
    obtain rfl : found = element := Except.ok.inj (hfound.symm.trans hname)
    refine ⟨fun _ samples hcached ↦ hfollows samples (kept_take_iff.mpr hcached),
      fun _ ↦ ⟨first, second, hentry⟩⟩
  | @reuse _ found samples hfound =>
    obtain rfl : found = element := Except.ok.inj (hfound.symm.trans hname)
    refine ⟨?_, fun hnone ↦ absurd (kept_take_iff.mp hfollows) (hnone samples)⟩
    rintro ⟨first, second, hlaunch⟩
    rw [hentry] at hlaunch
    cases hlaunch

/-- Second samples are cached up to the next request for normal samples. -/
theorem cachedAt_of_next (hlaunch : entries[i]? = some (.launched element first second))
    (hnext : NextNormal requests i j name) : CachedAt entries j element second := by
  refine ⟨i, first, hnext.lt, hlaunch, fun k later hik hkj hlater ↦ ?_⟩
  obtain ⟨request, hrequest, hanswers⟩ := h.exists_request hlater
  rw [← Option.isNone_iff_eq_none, ← Option.not_isSome, hanswers.isNormal,
    hnext.between k request hik hkj hrequest]
  rfl

/-- The next request for normal samples is answered by second samples of its type. -/
theorem recalled_of_next (hlaunch : entries[i]? = some (.launched element first second))
    (hnext : NextNormal requests i j name) (hname : ElementType.ofValue name = .ok element) :
    entries[j]? = some (.recalled element second) := by
  have hkept := kept_take_iff.mpr (h.cachedAt_of_next hlaunch hnext)
  obtain ⟨entry, hentry, hanswers⟩ := h.exists_entry hnext.normal
  have hfollows := h.follows j entry hentry
  cases hanswers with
  | launch first second hfound =>
    obtain rfl := Except.ok.inj (hfound.symm.trans hname)
    exact absurd hkept (hfollows _)
  | reuse samples hfound =>
    obtain rfl := Except.ok.inj (hfound.symm.trans hname)
    obtain ⟨-, rfl⟩ := Prod.mk.inj (Option.some.inj (hkept.symm.trans hfollows))
    exact hentry

theorem launched_of_next (hlaunch : entries[i]? = some (.launched element first second))
    (hnext : NextNormal requests i j name) (hname : ElementType.ofValue name = .ok other)
    (hother : other ≠ element) :
    ∃ first second, entries[j]? = some (.launched other first second) := by
  have hkept := kept_take_iff.mpr (h.cachedAt_of_next hlaunch hnext)
  refine (h.launched_iff hnext.normal hname).mpr fun samples hcached ↦ hother ?_
  exact congrArg Prod.fst (Option.some.inj ((kept_take_iff.mpr hcached).symm.trans hkept))

/-- An array was made for one request only. -/
theorem eq_of_made {buffer : Nat} {entry' : Entry} (hentry : entries[i]? = some entry)
    (hmade : buffer ∈ entry.made) (hentry' : entries[j]? = some entry')
    (hmade' : buffer ∈ entry'.made) : i = j := by
  obtain ⟨hi, rfl⟩ := List.getElem?_eq_some_iff.mp hentry
  obtain ⟨hj, rfl⟩ := List.getElem?_eq_some_iff.mp hentry'
  have hapart := List.pairwise_iff_getElem.mp (List.nodup_flatMap.mp h.nodup).2
  rcases Nat.lt_trichotomy i j with hlt | rfl | hlt
  · exact absurd hmade' (hapart i j hi hj hlt hmade)
  · rfl
  · exact absurd hmade (hapart j i hj hi hlt hmade')

/-- Second samples are given up with the next request for normal samples, if that is for ones of
another type. -/
theorem mem_givenUp_iff_of_next {k : Nat}
    (hlaunch : entries[i]? = some (.launched element first second))
    (hnext : NextNormal requests i j name) (hname : ElementType.ofValue name = .ok other)
    (hother : other ≠ element) : second ∈ (Ledger.of (entries.take k)).givenUp ↔ j < k := by
  obtain ⟨first', second', hlaunch'⟩ := h.launched_of_next hlaunch hnext hname hother
  rw [mem_givenUp_take_iff]
  refine ⟨?_, fun hjk ↦ ⟨j, hjk, ⟨other, first', second', hlaunch'⟩, element,
    h.cachedAt_of_next hlaunch hnext⟩⟩
  rintro ⟨j', hj', ⟨last, first'', second'', hlast⟩, found, i', initial, hlt, hfound, hbetween⟩
  have hmade {samples : Nat} : second ∈ (Entry.launched found samples second).made :=
    List.mem_cons_of_mem _ List.mem_cons_self
  obtain rfl : i = i' :=
    h.eq_of_made hlaunch (List.mem_cons_of_mem _ List.mem_cons_self) hfound hmade
  -- a request for normal samples between the two would be the next one itself
  have hle : j ≤ j' := by
    by_contra hgt
    obtain ⟨request, hrequest, hanswers⟩ := h.exists_request hlast
    have hnormal := hnext.between j' request hlt (Nat.not_le.mp hgt) hrequest
    rw [← hanswers.isNormal] at hnormal
    cases hnormal
  exact Nat.lt_of_le_of_lt hle hj'

/-- What is given up is never answered. -/
theorem not_mem_of_givenUp {buffer : Nat} (hmem : buffer ∈ (Ledger.of entries).givenUp) :
    some buffer ∉ entries.map Entry.answer := by
  intro hanswer
  have hnodup := h.balanced.nodup_iff.mpr h.nodup
  rw [List.append_assoc, List.nodup_append] at hnodup
  obtain ⟨entry, hentry, hsome⟩ := List.mem_map.mp hanswer
  exact hnodup.2.2 buffer (List.mem_filterMap.mpr ⟨entry, hentry, hsome⟩) buffer
    (List.mem_append_right _ hmem) rfl

theorem nodup_answers : (entries.filterMap Entry.answer).Nodup := by
  have hnodup := h.balanced.nodup_iff.mpr h.nodup
  rw [List.append_assoc, List.nodup_append] at hnodup
  exact hnodup.1

end Answering

end Generator

end ComputeArray
