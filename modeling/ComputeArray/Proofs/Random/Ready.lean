import ComputeArray.Proofs.Custody.Operations
import ComputeArray.Proofs.Random.Requests

/-!
# Generators that are ready

A new generator keeps no samples and has a row of four words for each of its streams, whatever its
kernels have made of them (`ready_of_newGenerator`).
-/

set_option autoImplicit false

namespace ComputeArray

open Engine Kernel ComputeArray.Random

namespace Moves

variable {R : Engine → Engine → Prop} [Std.Refl R] [IsTrans Engine R]

/-- Deriving streams makes a cursor, hands passes over and gives the cursor up. -/
theorem deriveStreamsIn
    (hallocate : ∀ element shape strides customStrides count,
      Moves R (Action.allocate element shape strides customStrides count))
    (hstore : ∀ buffer value index, Moves R (Action.setValue buffer value index))
    (hsubmit : ∀ dispatches helpers copies, Moves R (Action.submit dispatches helpers copies))
    (hrelease : ∀ buffer engine, R engine (Engine.release buffer engine)) (counts : List Nat)
    (state : Nat) : Moves R (Action.deriveStreamsIn counts state) :=
  .bind (.newArray hallocate _ _ _) fun _ ↦ .bind (hstore _ _ _) fun _ ↦
    .bind (.forM _ fun _ _ ↦ .bind (hsubmit _ _ _) fun _ ↦ .pure _) fun _ ↦
      .update (hrelease _)

end Moves

namespace Generator

variable {engine : Engine} {generator : Generator} {state n : Nat} {loose : List Nat}

/-- A generator that keeps no samples, with a row of four words for each of its streams. -/
structure Ready (generator : Generator) (state : Nat) (loose : List Nat) (engine : Engine) :
    Prop where
  coherent : engine.Coherent
  faithful : engine.FaithfulCaches
  custody : engine.Custody loose
  record : engine.generators.lookup state = some generator
  kept : generator.kept = none
  pos : 1 ≤ generator.size
  fits : Fits engine generator.size
  found : ∃ array, engine.arrays.lookup state = some array
  size : (engine.content state).size = 16 * generator.size

theorem Ready.length_streams (h : Ready generator state loose engine) :
    (engine.content state).streams.length = generator.size := by
  rw [Bytes.streams, List.length_map, List.length_range, h.size]
  omega

theorem size_content {buffer : Nat} {array : ArrayState} (hcoherent : engine.Coherent)
    (hlookup : engine.arrays.lookup buffer = some array) :
    (engine.content buffer).size = engine.device.sizeOf buffer := by
  rw [content_of_lookup hlookup]
  split
  · exact (hcoherent buffer array hlookup).size
  · rfl

theorem sameGenerators_deriveStreamsIn (counts : List Nat) (state : Nat) :
    Moves SameGenerators (Action.deriveStreamsIn counts state) :=
  .deriveStreamsIn (fun _ _ _ _ _ ↦ (calm_allocate _ _ _ _ _).mono fun _ _ h ↦ h.generators)
    (fun buffer _ _ ↦ .loadThenUpdate (fun _ _ _ ↦ rfl) (fun _ _ _ ↦ rfl)
      sameGenerators_createEncoder (fun _ _ ↦ rfl) (fun _ _ ↦ rfl) (fun _ _ ↦ rfl) buffer _)
    sameGenerators_submit (fun buffer engine ↦ generators_foldl_release [buffer] engine) counts
      state

theorem sameSetup_deriveStreamsIn (counts : List Nat) (state : Nat) :
    Moves SameSetup (Action.deriveStreamsIn counts state) :=
  .deriveStreamsIn sameSetup_allocate (fun buffer _ _ ↦ sameSetup_loadThenUpdate buffer _)
    sameSetup_submit sameSetup_release counts state

/-- The rows of the streams are there while streams are derived. -/
theorem rows_of_deriveStreamsIn {before : Engine} {first : StreamState} {counts : List Nat}
    {result : Unit} (hn : 1 ≤ n) (hwidth : 1 ≤ before.workgroupSize)
    (hgroups : 0 < before.maxWorkgroups) (huploaded : Uploaded before engine state first n)
    (h : outcomeOf (Action.deriveStreamsIn counts state) engine = .ok result) :
    let after := stateAfter (Action.deriveStreamsIn counts state) engine
    (∃ array, after.arrays.lookup state = some array) ∧ after.device.sizeOf state = 16 * n := by
  obtain ⟨start, -, hderiving, -, hafter⟩ :=
    submissions_of_deriveStreamsIn hn hwidth hgroups huploaded h
  rw [hafter]
  dsimp only
  have hsizes : Moves SameSizes (submissions counts state (state + 1)) :=
    .forM _ fun _ _ ↦ .bind (sameSizes_submit _ _ _) fun _ ↦ .pure _
  have hkept := sameFixture_submissions counts state (state + 1) start
  refine ⟨(sameFixture_release _ _).exists_lookup (hkept.exists_lookup hderiving.stateFound), ?_⟩
  obtain ⟨array, hlookup⟩ := hderiving.stateFound
  rw [device_release, hsizes start, ← size_content hderiving.coherent hlookup]
  exact hderiving.holds.size

theorem ready_of_newGenerator {size seed entropy : Value} (hcoherent : engine.Coherent)
    (hfaithful : engine.FaithfulCaches) (hcustody : engine.Custody loose) (hfits : Fits engine n)
    (hsize : size.toInt = .ok (n : Int)) (hn : 1 ≤ n)
    (hnew : engine.generators.lookup state = none)
    (h : outcomeOf (Action.newGenerator size seed entropy) engine = .ok state) :
    ∃ number, seedOf seed entropy = .ok number ∧ Ready ⟨n, number, none⟩ state loose
      (stateAfter (Action.newGenerator size seed entropy) engine) := by
  obtain ⟨hcoherent', hfaithful'⟩ :=
    coherent_of_madeOf (madeOf_newGenerator size seed entropy) hcoherent hfaithful
  have hcustody' : (stateAfter (Action.newGenerator size seed entropy) engine).Custody loose := by
    have hholding := KeepsCustody.newGenerator size seed entropy loose _ engine
      (hcustody.holding (List.nil_subset _))
    rw [h] at hholding
    exact hholding.custody
  have hwidth := hfits.width
  have hgroups : 0 < engine.maxWorkgroups := hfits.groups
  have hsmall : n < 2 ^ 32 := Nat.lt_of_le_of_lt (Nat.le_add_right _ _) hfits.elements
  rw [Action.newGenerator_eq] at h hcoherent' hfaithful' hcustody' ⊢
  obtain ⟨number, first, uploaded, hnumber, -, huploaded, hone, hseveral⟩ :=
    newGeneratorBy_eq_ok hcoherent hfaithful hsize hn hsmall h
  refine ⟨number, hnumber, ?_⟩
  -- what is left to do is the same whether streams have been derived or not
  obtain ⟨made, hafter, hgenerators, hfits', hfound, hrows⟩ :
      ∃ made : Engine, stateAfter (Action.newGeneratorBy passCounts size seed entropy) engine =
          made.addGenerator state ⟨n, number, none⟩ ∧ made.generators = engine.generators ∧
        Fits made n ∧ (∃ array, made.arrays.lookup state = some array) ∧
        made.device.sizeOf state = 16 * n := by
    have hfits'' : Fits uploaded n := hfits.of_eq huploaded.width huploaded.groups
    obtain hlast | hmore := Nat.eq_or_lt_of_le hn
    · obtain ⟨array, hlookup, hdirty, hstorage⟩ := huploaded.found
      refine ⟨uploaded, hone hlast.symm, huploaded.generators, hfits'', ⟨array, hlookup⟩, ?_⟩
      rw [← size_content huploaded.coherent hlookup, content_of_lookup hlookup, if_pos hdirty,
        hstorage, Register.size_bytesOf_vectors, length_streamsBelow]
    · obtain ⟨result, hderived, hstate⟩ := hseveral hmore
      have hsetup := sameSetup_deriveStreamsIn (passCounts (passesFor n)) state uploaded
      obtain ⟨hfound, hrows⟩ := rows_of_deriveStreamsIn hn hwidth hgroups huploaded hderived
      exact ⟨_, hstate, (sameGenerators_deriveStreamsIn _ _ uploaded).trans huploaded.generators,
        hfits''.of_eq hsetup.workgroupSize hsetup.maxWorkgroups, hfound, hrows⟩
  rw [hafter] at hcoherent' hfaithful' hcustody' ⊢
  obtain ⟨array, hlookup⟩ := hfound
  refine ⟨hcoherent', hfaithful', hcustody', ?_, rfl, hn,
    @Fits.of_eq made _ n rfl rfl hfits', ⟨array, hlookup⟩, ?_⟩
  · rw [addGenerator, hgenerators, List.lookup_append, hnew]
    simp
  · exact (size_content hcoherent' hlookup).trans hrows

end Generator

end ComputeArray
