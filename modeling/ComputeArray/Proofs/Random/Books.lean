import ComputeArray.Proofs.Custody.Account
import ComputeArray.Proofs.Random.Requests

/-!
# Books of a generator

The ledger of a generator tells what its engine is like (`Books`): how far the streams have been
advanced, what the arrays hold that were answered, which samples are kept and which arrays have been
released. The books stay right when samples are put aside, taken out or given up, and when a pass is
run and entered (`Books.drawPass`).
-/

set_option autoImplicit false

namespace ComputeArray

open Engine Kernel ComputeArray.Random

/-! ### Releases -/

namespace Engine

/-- How often a buffer has been handed over for destruction. -/
def releases (engine : Engine) (buffer : Nat) : Nat :=
  engine.queued.count buffer + engine.device.destroyed.count buffer

variable {engine : Engine} {loose : List Nat} {buffer : Nat} {array : ArrayState}

theorem count_owned (hkeys : (engine.arrays.map Prod.fst).Nodup)
    (hlookup : engine.arrays.lookup buffer = some array) :
    engine.owned.count buffer = if array.released = true then 0 else 1 := by
  have hnodup : engine.owned.Nodup := hkeys.sublist (List.filter_sublist.map Prod.fst)
  have hmem : buffer ∈ engine.owned ↔ array.released = false := by
    simp only [owned, List.mem_map, List.mem_filter, Bool.not_eq_true']
    constructor
    · rintro ⟨⟨key, found⟩, ⟨hentry, hreleased⟩, rfl⟩
      have hfound := lookup_of_mem hkeys hentry
      rw [hlookup] at hfound
      cases hfound
      exact hreleased
    · exact fun hreleased ↦ ⟨(buffer, array), ⟨mem_of_lookup hlookup, hreleased⟩, rfl⟩
  split
  · next hreleased => exact List.count_eq_zero.mpr (by simp [hmem, hreleased])
  · next hreleased => exact List.count_eq_one_of_mem hnodup (hmem.mpr (by simpa using hreleased))

theorem staging_of_coherent (hkeys : (engine.arrays.map Prod.fst).Nodup)
    (hcoherent : engine.Coherent) : engine.staging = [] := by
  refine List.filterMap_eq_nil_iff.mpr fun entry hmem ↦ ?_
  rw [(hcoherent entry.1 entry.2 (lookup_of_mem hkeys hmem)).idle]
  rfl

/-- An array has been handed over for destruction once if it was released, and else never. -/
theorem releases_eq (hcustody : engine.Custody loose) (hactive : engine.lost = none)
    (hcoherent : engine.Coherent) (hlookup : engine.arrays.lookup buffer = some array)
    (hloose : buffer ∉ loose) :
    engine.releases buffer = if array.released = true then 1 else 0 := by
  have hplaces := accounts_iff.mp (hcustody.accounts hactive) buffer
  have hfits := hcoherent buffer array hlookup
  have honce : (List.range' 1 engine.device.buffers.size).count buffer = 1 :=
    List.count_eq_one_of_mem List.nodup_range'
      (List.mem_range'_1.mpr ⟨hfits.pos, Nat.lt_one_add_iff.mpr hfits.le⟩)
  rw [honce, places, staging_of_coherent hcustody.keys hcoherent, List.count_nil,
    count_owned hcustody.keys hlookup, List.count_eq_zero.mpr hloose] at hplaces
  unfold releases
  by_cases hreleased : array.released = true
  · rw [if_pos hreleased] at hplaces ⊢
    omega
  · rw [if_neg hreleased] at hplaces ⊢
    omega

end Engine

theorem lookup_release {engine : Engine} {buffer : Nat} {array : ArrayState}
    (hlookup : engine.arrays.lookup buffer = some array) :
    ∃ new, (engine.release buffer).arrays.lookup buffer = some new ∧ new.released = true := by
  obtain ⟨hreleased, h⟩ | ⟨-, _, h, -⟩ := release_cases buffer engine
  · rw [array_of_lookup hlookup] at hreleased
    rw [h]
    exact ⟨array, hlookup, hreleased⟩
  · rw [h]
    exact ⟨_, lookup_setArray_self _ hlookup, rfl⟩

/-! ### Books -/

namespace Generator

/-- The streams of a generator after a number of steps. -/
def advanced (rows : List StreamState) (steps : Nat) : List StreamState :=
  rows.map StreamState.next^[steps]

theorem advanced_add (rows : List StreamState) (first second : Nat) :
    (advanced rows first).map StreamState.next^[second] = advanced rows (first + second) := by
  rw [advanced, advanced, List.map_map, ← Function.iterate_add, Nat.add_comm]

theorem length_advanced (rows : List StreamState) (steps : Nat) :
    (advanced rows steps).length = rows.length :=
  List.length_map _

variable {generator : Generator} {state : Nat} {rows : List StreamState} {rounding : Rounding}
  {loose outs : List Nat} {past : List Entry} {ledger : Ledger} {engine after : Engine}
  {pass : Pass} {entry : Entry}

/-- What an engine is like after the requests with the entries, the ledger telling what the
generator keeps and has given up. -/
structure Books (generator : Generator) (state : Nat) (rows : List StreamState)
    (rounding : Rounding) (loose : List Nat) (past : List Entry) (ledger : Ledger)
    (engine : Engine) : Prop where
  coherent : engine.Coherent
  faithful : engine.FaithfulCaches
  active : past ≠ [] → engine.lost = none
  fits : Fits engine rows.length
  record : engine.generators.lookup state = some { generator with kept := ledger.kept }
  streams : HoldsStreams engine state (advanced rows (stepsOf past))
  nodup : (past.flatMap Entry.made).Nodup
  apart : ∀ out ∈ past.flatMap Entry.made, out ≠ state ∧ out ∉ loose
  released : ∀ out ∈ past.flatMap Entry.made, ∃ array, engine.arrays.lookup out = some array ∧
    (array.released = true ↔ out ∈ ledger.givenUp)
  stored : ∀ (j : Nat) entry pass, past[j]? = some entry → entry.pass? = some pass →
    ∀ (k : Nat) output (out : Nat), pass.outputs[k]? = some output → entry.made[k]? = some out →
      Pass.Stored rounding (advanced rows (stepsOf (past.take j))) output (engine.content out)

namespace Books

theorem generator_eq (h : Books generator state rows rounding loose past ledger engine) :
    engine.generator state = { generator with kept := ledger.kept } := by
  rw [Engine.generator, h.record]
  rfl

/-- Samples are put among those that are kept, or taken out. -/
theorem setKept (h : Books generator state rows rounding loose past ledger engine)
    (kept : Option (ElementType × Nat)) :
    Books generator state rows rounding loose past { ledger with kept }
      (engine.setGenerator state { generator with kept }) where
  coherent := h.coherent
  faithful := by
    have hcaches : SameCaches engine (engine.setGenerator state { generator with kept }) := rfl
    exact (Caching.of_caches_eq hcaches h.faithful).1
  active := h.active
  fits := @Fits.of_eq engine _ _ rfl rfl h.fits
  record := by
    change (engine.generators.map _).lookup state = _
    rw [lookup_map_replace, h.record]
    simp
  streams := ⟨h.streams.found, h.streams.streams, h.streams.size⟩
  nodup := h.nodup
  apart := h.apart
  released := h.released
  stored := h.stored

theorem content_release {array : ArrayState} {buffer : Nat} (hcoherent : engine.Coherent)
    (hlookup : engine.arrays.lookup buffer = some array) (samples : Nat) :
    (engine.release samples).content buffer = engine.content buffer := by
  obtain ⟨_, hnew⟩ := (sameFixture_release samples engine).exists_lookup ⟨array, hlookup⟩
  have hsteady : Steady (fun _ ↦ False) engine (engine.release samples) :=
    steady_release samples engine
  exact ((hsteady hcoherent).2 buffer _ hnew id).2

/-- Samples are given up. -/
theorem giveUp {samples : Nat} (h : Books generator state rows rounding loose past ledger engine)
    (hmade : samples ∈ past.flatMap Entry.made) :
    Books generator state rows rounding loose past
      { ledger with givenUp := ledger.givenUp ++ [samples] } (engine.release samples) where
  coherent := (@steady_release (fun _ ↦ False) samples engine h.coherent).1
  faithful := (Caching.of_caches_eq (caches_release samples engine) h.faithful).1
  active hne := (lost_release samples engine).1.trans (h.active hne)
  fits := h.fits.of_eq (sameFixture_release samples engine).workgroupSize
    (sameFixture_release samples engine).maxWorkgroups
  record := by
    have hsame : (engine.release samples).generators = engine.generators :=
      generators_foldl_release [samples] engine
    rw [hsame, h.record]
  streams := by
    obtain ⟨array, hlookup⟩ := h.streams.found
    have hcontent := content_release h.coherent hlookup samples
    exact ⟨(sameFixture_release samples engine).exists_lookup ⟨array, hlookup⟩,
      hcontent ▸ h.streams.streams, hcontent ▸ h.streams.size⟩
  nodup := h.nodup
  apart := h.apart
  released out hmem := by
    obtain ⟨array, hlookup, hreleased⟩ := h.released out hmem
    by_cases hout : out = samples
    · subst hout
      obtain ⟨new, hnew, hdone⟩ := lookup_release hlookup
      exact ⟨new, hnew, by simp [hdone]⟩
    · refine ⟨array, (lookup_release_of_ne hout engine).trans hlookup, ?_⟩
      rw [hreleased, List.mem_append, List.mem_singleton, or_iff_left hout]
  stored j entry pass hentry hpass k output out houtput hout := by
    have hmem : out ∈ past.flatMap Entry.made := List.mem_flatMap.mpr
      ⟨entry, List.mem_of_getElem? hentry, List.mem_of_getElem? hout⟩
    obtain ⟨array, hlookup, -⟩ := h.released out hmem
    rw [content_release h.coherent hlookup]
    exact h.stored j entry pass hentry hpass k output out houtput hout

theorem lt_nextBuffer {out : Nat}
    (h : Books generator state rows rounding loose past ledger engine)
    (hmem : out ∈ past.flatMap Entry.made) : out < engine.nextBuffer := by
  obtain ⟨array, hlookup, -⟩ := h.released out hmem
  exact numbered_of_coherent h.coherent out array hlookup

/-- A pass is entered with the arrays that were made for it. -/
theorem draw (h : Books generator state rows rounding loose past ledger engine)
    (hpass : entry.pass? = some pass) (hmade : entry.made = outs)
    (hloose : ∀ buffer ∈ loose, buffer < engine.nextBuffer)
    (hgivenUp : ledger.givenUp ⊆ past.flatMap Entry.made)
    (hdraws : Draws { generator with kept := ledger.kept } state (advanced rows (stepsOf past))
      pass rounding outs engine after) :
    Books generator state rows rounding loose (past ++ [entry]) ledger after := by
  have hnew {out : Nat} (hout : out ∈ outs) : engine.nextBuffer ≤ out := by
    rw [hdraws.numbers, List.mem_range'_1] at hout
    exact hout.1
  have hmadeAll : (past ++ [entry]).flatMap Entry.made = past.flatMap Entry.made ++ outs := by
    rw [List.flatMap_append, List.flatMap_singleton, hmade]
  have hsteps : stepsOf (past ++ [entry]) = stepsOf past + pass.steps := by
    simp [stepsOf, Entry.steps, hpass]
  obtain ⟨stateArray, hstate⟩ := h.streams.found
  have hstateOld : state < engine.nextBuffer := numbered_of_coherent h.coherent state _ hstate
  constructor
  case coherent => exact hdraws.coherent
  case faithful => exact hdraws.faithful
  case active => exact fun _ ↦ hdraws.active.2
  case fits => exact hdraws.fits _ h.fits
  case record => rw [hdraws.generators, h.record]
  case streams =>
    have hstreams := hdraws.streams
    rwa [advanced_add, ← hsteps] at hstreams
  case nodup =>
    rw [hmadeAll, List.nodup_append]
    refine ⟨h.nodup, hdraws.numbers ▸ List.nodup_range', fun out hout new hmem ↦ ?_⟩
    exact Nat.ne_of_lt (Nat.lt_of_lt_of_le (h.lt_nextBuffer hout) (hnew hmem))
  case apart =>
    intro out hmem
    rw [hmadeAll, List.mem_append] at hmem
    rcases hmem with hold | hout
    · exact h.apart out hold
    · have hle := hnew hout
      exact ⟨by omega, fun hin ↦ absurd (hloose out hin) (Nat.not_lt.mpr hle)⟩
  case released =>
    intro out hmem
    rw [hmadeAll, List.mem_append] at hmem
    rcases hmem with hold | hout
    · obtain ⟨array, hlookup, hreleased⟩ := h.released out hold
      obtain ⟨⟨new, hafter, hsame⟩, -⟩ := hdraws.kept out array hlookup
      exact ⟨new, hafter, hsame ▸ hreleased⟩
    · obtain ⟨array, hlookup, hunreleased⟩ := hdraws.made out hout
      refine ⟨array, hlookup, ?_⟩
      rw [hunreleased, Bool.false_eq_true, false_iff]
      exact fun hin ↦ absurd (h.lt_nextBuffer (hgivenUp hin)) (Nat.not_lt.mpr (hnew hout))
  case stored =>
    intro j found foundPass hfound hfoundPass k output out houtput hout
    rw [List.getElem?_append] at hfound
    split at hfound
    · next hj =>
      have hmem : out ∈ past.flatMap Entry.made := List.mem_flatMap.mpr
        ⟨found, List.mem_of_getElem? hfound, List.mem_of_getElem? hout⟩
      obtain ⟨array, hlookup, -⟩ := h.released out hmem
      rw [List.take_append_of_le_length (Nat.le_of_lt hj),
        (hdraws.kept out array hlookup).2 (h.apart out hmem).1]
      exact h.stored j found foundPass hfound hfoundPass k output out houtput hout
    · next hj =>
      obtain ⟨hlast, rfl⟩ : j - past.length = 0 ∧ entry = found := by
        cases hplace : j - past.length with
        | zero =>
          rw [hplace] at hfound
          exact ⟨rfl, Option.some.inj hfound⟩
        | succ i =>
          rw [hplace] at hfound
          cases hfound
      obtain rfl : pass = foundPass := Option.some.inj (hpass.symm.trans hfoundPass)
      have hlength : j = past.length := by omega
      rw [hlength, List.take_left]
      exact hdraws.stored k output out houtput (hmade ▸ hout)

/-- A pass is run, and entered. -/
theorem drawPass (h : Books generator state rows rounding loose past ledger engine)
    (hsize : generator.size = rows.length) (hpos : 1 ≤ rows.length) (hdrawable : pass.Drawable)
    (hloose : engine.lost = none → ∀ buffer ∈ loose, buffer < engine.nextBuffer)
    (hgivenUp : ledger.givenUp ⊆ past.flatMap Entry.made) (hpass : entry.pass? = some pass)
    (hmade : outs.length = pass.outputs.length → entry.made = outs)
    (hruns : (stateAfter (Action.drawPass (engine.generator state) state pass) engine).device.Runs
      (pass.kernel engine.workgroupSize) engine.workgroupSize rounding)
    (houtcome : outcomeOf (Action.drawPass (engine.generator state) state pass) engine =
      .ok outs) :
    Books generator state rows rounding loose (past ++ [entry]) ledger
        (stateAfter (Action.drawPass (engine.generator state) state pass) engine) ∧
      Launches generator state pass entry.made engine
        (stateAfter (Action.drawPass (engine.generator state) state pass) engine) := by
  rw [h.generator_eq] at hruns houtcome ⊢
  have hsize' : ({ generator with kept := ledger.kept } : Generator).size = rows.length := hsize
  have hdraws := draws_of_drawPass h.coherent h.faithful h.fits hpos hdrawable hsize'
    (length_advanced _ _) h.streams hruns houtcome
  have hmade' := hmade (by rw [hdraws.numbers, List.length_range'])
  exact ⟨h.draw hpass hmade' (hloose hdraws.active.1) hgivenUp hdraws,
    hmade' ▸ hdraws.launches⟩

/-- A pair of normal samples is drawn while none are kept. The second samples are kept. -/
theorem drawNormalPair {givenUp : List Nat} {element : ElementType} {first : Nat}
    (h : Books generator state rows rounding loose past ⟨none, givenUp⟩ engine)
    (hsize : generator.size = rows.length) (hpos : 1 ≤ rows.length)
    (hfloat : element.isFloat = true)
    (hloose : engine.lost = none → ∀ buffer ∈ loose, buffer < engine.nextBuffer)
    (hgivenUp : givenUp ⊆ past.flatMap Entry.made)
    (hruns : (stateAfter (Action.drawNormalPair state element) engine).device.Runs
      ((Pass.pair element).kernel engine.workgroupSize) engine.workgroupSize rounding)
    (houtcome : outcomeOf (Action.drawNormalPair state element) engine = .ok first) :
    ∃ second, Books generator state rows rounding loose (past ++ [.launched element first second])
        ⟨some (element, second), givenUp⟩
        (stateAfter (Action.drawNormalPair state element) engine) ∧
      Launches generator state (.pair element) [first, second] engine
        (stateAfter (Action.drawNormalPair state element) engine) := by
  obtain ⟨outs, hpassed, rfl, hafter⟩ := Action.drawNormalPair_eq_ok houtcome
  rw [hafter] at hruns ⊢
  have hpass : (Entry.launched element (outs.headD 0) (outs.getD 1 0)).pass? =
      some (.pair element) := rfl
  obtain ⟨hbooks, hlaunches⟩ := h.drawPass hsize hpos (.pair hfloat) hloose hgivenUp hpass
    (fun hlength ↦ by
      obtain ⟨first, second, rfl⟩ := List.length_eq_two.mp hlength
      rfl) hruns hpassed
  rw [h.generator_eq] at hbooks hlaunches ⊢
  exact ⟨outs.getD 1 0, hbooks.setKept (some (element, outs.getD 1 0)), hlaunches⟩

/-- Samples that were kept are answered, and nothing is run. -/
theorem reuse {element : ElementType} {samples : Nat}
    (h : Books generator state rows rounding loose past ledger engine) (hpast : past ≠ []) :
    Books generator state rows rounding loose (past ++ [.recalled element samples]) ledger
      engine := by
  have hmade : (past ++ [Entry.recalled element samples]).flatMap Entry.made =
      past.flatMap Entry.made := by
    simp [Entry.made]
  have hsteps : stepsOf (past ++ [.recalled element samples]) = stepsOf past := by
    simp [stepsOf, Entry.steps, Entry.pass?]
  refine ⟨h.coherent, h.faithful, fun _ ↦ h.active hpast, h.fits, h.record, hsteps ▸ h.streams,
    hmade ▸ h.nodup, hmade ▸ h.apart, hmade ▸ h.released, ?_⟩
  intro j entry pass hentry hpass k output out houtput hout
  rw [List.getElem?_append] at hentry
  split at hentry
  · next hj =>
    rw [List.take_append_of_le_length (Nat.le_of_lt hj)]
    exact h.stored j entry pass hentry hpass k output out houtput hout
  · obtain rfl := List.mem_singleton.mp (List.mem_of_getElem? hentry)
    cases hpass

end Books

end Generator

end ComputeArray
