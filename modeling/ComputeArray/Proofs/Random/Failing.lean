import ComputeArray.Proofs.Calls.Failing
import ComputeArray.Proofs.Random.Draws

/-!
# Failing requests

A pass over the streams of a generator that fails is `Sparing`: it has submitted nothing, arrays
have their contents, and no generator has changed. So a request that fails leaves its generator as
it was (`leaves_of_failing`), but for one kind: a normal draw first gives up samples of the other
float type, and they are gone even if the draw then fails (`DrawRequest.Discards`,
`discards_halfUnavailable`).
-/

set_option autoImplicit false

namespace ComputeArray

open Engine Kernel ComputeArray.Random

/-! ### What failures leave -/

/-- If the action fails, the state it leaves is related to the one it started in. -/
def MovesFailing {α : Type} (R : Engine → Engine → Prop) (m : Action α) : Prop :=
  ∀ engine failure, outcomeOf m engine = .error failure → R engine (stateAfter m engine)

namespace MovesFailing

variable {α β : Type} {R : Engine → Engine → Prop} {m : Action α} {f : α → Action β}

/-- A first part that may as well succeed, and then one that fails. -/
theorem bind [IsTrans Engine R] (hm : Moves R m) (hf : ∀ a, MovesFailing R (f a)) :
    MovesFailing R (m >>= f) := by
  intro engine failure h
  refine Moves.bindAt (hm engine) fun a ha ↦ hf a _ failure ?_
  rwa [outcomeOf_bind, ha] at h

/-- Only the first part can fail. -/
theorem first (hm : MovesFailing R m) (hf : ∀ a, Throws (fun _ ↦ False) (f a)) :
    MovesFailing R (m >>= f) := by
  intro engine failure h
  rw [outcomeOf_bind] at h
  rw [stateAfter_bind]
  cases houtcome : outcomeOf m engine with
  | error found =>
    exact hm engine found houtcome
  | ok a =>
    rw [houtcome] at h
    exact (hf a _ failure h).elim

theorem guard [Std.Refl R] {condition : Prop} [Decidable condition] {failure : Failure}
    {next : Action α} (hnext : MovesFailing R next) :
    MovesFailing R (if condition then (do MonadExcept.throw failure; next) else next) := by
  split
  · exact fun engine _ _ ↦ refl_of R engine
  · exact hnext

end MovesFailing

namespace Engine

/-- Nothing is lost of arrays, and generators are what they were. -/
def Sparing (before after : Engine) : Prop :=
  Harmless before after ∧ ∀ state, after.generator state = before.generator state

instance : Std.Refl Sparing := ⟨fun engine ↦ ⟨refl_of Harmless engine, fun _ ↦ rfl⟩⟩

instance : IsTrans Engine Sparing := ⟨fun _ _ _ hfirst hlast ↦
  ⟨trans_of Harmless hfirst.1 hlast.1, fun state ↦ (hlast.2 state).trans (hfirst.2 state)⟩⟩

variable {engine before after : Engine} {buffer state : Nat} {old : ArrayState}

theorem Sparing.of_generators (hharmless : Harmless before after)
    (hgenerators : after.generators = before.generators) : Sparing before after :=
  ⟨hharmless, fun state ↦ by rw [generator, generator, hgenerators]⟩

/-- An array that has been kept or sent is released if it was. -/
theorem KeptOrSent.released (h : KeptOrSent before after buffer old) :
    ∃ new, after.arrays.lookup buffer = some new ∧ new.released = old.released := by
  rcases h with ⟨hlookup, -⟩ | ⟨-, hlookup, -⟩
  · exact ⟨old, hlookup, rfl⟩
  · exact ⟨_, hlookup, rfl⟩

/-- A release does not touch what an array holds. -/
theorem content_released (samples : Nat) (hlookup : engine.arrays.lookup buffer = some old) :
    (engine.release samples).content buffer = engine.content buffer := by
  obtain ⟨-, h⟩ | ⟨-, pending, h, -⟩ := release_cases samples engine
  · rw [h]
  · rw [h, content_of_lookup hlookup]
    change (engine.setArray samples { engine.array samples with released := true }).content buffer =
      _
    by_cases hsame : buffer = samples
    · subst hsame
      rw [content_of_lookup (lookup_setArray_self _ hlookup), array_of_lookup hlookup]
      rfl
    · rw [content_of_lookup ((lookup_setArray_of_ne _ hsame).trans hlookup)]
      rfl

theorem generator_setGenerator_of_ne {wanted : Nat} (generator : Generator)
    (hne : wanted ≠ state) :
    (engine.setGenerator state generator).generator wanted = engine.generator wanted := by
  have hlookup : (engine.setGenerator state generator).generators.lookup wanted =
      engine.generators.lookup wanted := by
    refine (lookup_map_replace engine.generators state wanted generator).trans ?_
    simp [hne]
  rw [Engine.generator, Engine.generator, hlookup]

/-- A generator that keeps samples is there, so it can be replaced. -/
theorem generator_setGenerator_of_kept {samples : ElementType × Nat} (generator : Generator)
    (hkept : (engine.generator state).kept = some samples) :
    (engine.setGenerator state generator).generator state = generator := by
  have hlookup : (engine.setGenerator state generator).generators.lookup state = _ :=
    lookup_map_replace engine.generators state state generator
  rw [Engine.generator, hlookup]
  cases hfound : engine.generators.lookup state with
  | none =>
    rw [Engine.generator, hfound] at hkept
    cases hkept
  | some found => simp

theorem generator_setGenerator_same (state wanted : Nat) :
    (engine.setGenerator state (engine.generator state)).generator wanted =
      engine.generator wanted := by
  by_cases hne : wanted = state
  · subst hne
    have hlookup : (engine.setGenerator wanted (engine.generator wanted)).generators.lookup
        wanted = _ := lookup_map_replace engine.generators wanted wanted _
    rw [Engine.generator, hlookup, Engine.generator]
    cases engine.generators.lookup wanted <;> simp
  · exact generator_setGenerator_of_ne _ hne

theorem sparing_setGenerator_same (state : Nat) (engine : Engine) :
    Sparing engine (engine.setGenerator state (engine.generator state)) :=
  ⟨fun hfitting ↦ ⟨hfitting, rfl, .of_eq rfl, fun _ _ hold ↦ .inl ⟨hold, rfl⟩⟩,
    generator_setGenerator_same state⟩

end Engine

/-! ### Passes -/

theorem sparing_newContiguous (element : ElementType) (shape : List Int) :
    Moves Sparing (Action.newContiguous element shape) :=
  .newContiguous (fun element shape strides customStrides count engine ↦
    .of_generators (harmless_allocate element shape strides customStrides count engine)
      (calm_allocate element shape strides customStrides count engine).generators) _ _

theorem sparing_of_submit (dispatches : List Dispatch) (helpers : List Nat)
    (copies : List (Nat × Nat)) :
    MovesFailing Sparing (Action.submit dispatches helpers copies) := fun engine _ h ↦
  .of_generators (harmless_of_submit h)
    (Generator.sameGenerators_submit dispatches helpers copies engine)

namespace Generator

theorem sparing_of_drawPass (generator : Generator) (state : Nat) (pass : Pass) :
    MovesFailing Sparing (Action.drawPass generator state pass) :=
  .bind (.mapM _ fun _ _ ↦ sparing_newContiguous _ _) fun _ ↦ .bind .get fun _ ↦
    .first (sparing_of_submit _ _ _) fun _ ↦ .pure _

theorem sparing_of_drawNormalPair (state : Nat) (element : ElementType) :
    MovesFailing Sparing (Action.drawNormalPair state element) := by
  rw [Action.drawNormalPair_eq]
  exact .bind (fun engine ↦ refl_of Sparing engine) fun _ ↦ .first (sparing_of_drawPass _ _ _)
    fun _ ↦ .bind (.update _) fun _ ↦ .pure _

theorem sparing_of_drawUniform (state : Nat) (name : Value) :
    MovesFailing Sparing (Action.drawUniform state name) := by
  rw [Action.drawUniform_eq]
  exact .bind (fun engine ↦ refl_of Sparing engine) fun _ ↦ .bind (.ofExcept _) fun _ ↦
    .guard (.first (sparing_of_drawPass _ _ _) fun _ ↦ .pure _)

theorem sparing_of_skipDraw (state : Nat) : MovesFailing Sparing (Action.skipDraw state) := by
  rw [Action.skipDraw_eq]
  exact .bind (fun engine ↦ refl_of Sparing engine) fun _ ↦
    .first (sparing_of_drawPass _ _ _) fun _ ↦ .pure _

/-! ### Normal draws -/

variable {engine after : Engine} {generator : Generator} {state samples : Nat}
  {element : ElementType} {name : Value} {failure : Failure}

/-- A normal draw of another float type than that of the kept samples gives these up before anything
else. -/
def DrawRequest.Discards (generator : Generator) : DrawRequest → Prop
  | .normal name => ∃ element other samples, ElementType.ofValue name = .ok element ∧
      element.isFloat = true ∧ generator.kept = some (other, samples) ∧ other ≠ element
  | _ => False

/-- The engine after the samples a generator keeps have been taken out and released. -/
def discarded (engine : Engine) (state samples : Nat) : Engine :=
  (engine.setGenerator state { engine.generator state with kept := none }).release samples

/-- The next draw of the type of kept samples answers them. -/
theorem outcomeOf_normal_of_kept (hkept : (engine.generator state).kept = some (element, samples))
    (hname : ElementType.ofValue name = .ok element) (hfloat : element.isFloat = true) :
    outcomeOf (Action.request state (.normal name)) engine = .ok (some samples) := by
  refine outcomeOf_bind_eq_ok.mpr ⟨samples, ?_, rfl⟩
  refine outcomeOf_bind_eq_ok.mpr ⟨element, (outcomeOf_actionOfExcept _ _).trans hname, ?_⟩
  rw [stateAfter_actionOfExcept]
  simp only [hfloat, Bool.not_true, Bool.false_eq_true, if_false]
  refine outcomeOf_bind_eq_ok.mpr ⟨_, Action.outcomeOf_takeKept state engine, ?_⟩
  rw [hkept]
  dsimp only
  rw [if_pos rfl]
  rfl

/-- A normal draw that fails has done no more than try to draw; or it has first given up samples of
another type. -/
theorem sparing_of_drawNormal
    (h : outcomeOf (Action.drawNormal state name) engine = .error failure) :
    (¬ DrawRequest.Discards (engine.generator state) (.normal name) ∧
        Sparing engine (stateAfter (Action.drawNormal state name) engine)) ∨
      ∃ other samples, (engine.generator state).kept = some (other, samples) ∧
        DrawRequest.Discards (engine.generator state) (.normal name) ∧
        Sparing (discarded engine state samples)
          (stateAfter (Action.drawNormal state name) engine) := by
  unfold Action.drawNormal at h ⊢
  rw [outcomeOf_bind] at h
  rw [stateAfter_bind]
  rw [outcomeOf_actionOfExcept, stateAfter_actionOfExcept] at h ⊢
  cases helement : ElementType.ofValue name with
  | error found =>
    refine .inl ⟨?_, refl_of Sparing engine⟩
    rintro ⟨element, -, -, hname, -⟩
    rw [helement] at hname
    cases hname
  | ok element =>
    rw [helement] at h
    dsimp only at h ⊢
    cases hfloat : element.isFloat with
    | false =>
      simp only [Bool.not_false, if_true]
      refine .inl ⟨?_, ?_⟩
      · rintro ⟨element', -, -, hname, hfloat', -⟩
        cases helement.symm.trans hname
        rw [hfloat] at hfloat'
        cases hfloat'
      · rw [stateAfter_bind, outcomeOf_throw, stateAfter_throw]
        exact refl_of Sparing engine
    | true =>
      simp only [hfloat, Bool.not_true, Bool.false_eq_true, if_false] at h ⊢
      rw [outcomeOf_bind, Action.outcomeOf_takeKept, Action.stateAfter_takeKept] at h
      rw [stateAfter_bind_of_ok (Action.outcomeOf_takeKept state engine),
        Action.stateAfter_takeKept]
      cases hkept : (engine.generator state).kept with
      | none =>
        rw [hkept] at h
        refine .inl ⟨?_, ?_⟩
        · rintro ⟨_, _, _, -, -, hsome, -⟩
          rw [hkept] at hsome
          cases hsome
        · have hsame : { engine.generator state with kept := none } = engine.generator state := by
            rw [← hkept]
          rw [hsame] at h ⊢
          exact trans_of Sparing (sparing_setGenerator_same state engine)
            (sparing_of_drawNormalPair state element _ _ h)
      | some found =>
        obtain ⟨other, samples⟩ := found
        rw [hkept] at h
        dsimp only at h ⊢
        by_cases hother : other = element
        · rw [if_pos hother] at h
          cases h
        · rw [if_neg hother] at h ⊢
          rw [outcomeOf_bind, outcomeOf_modify, stateAfter_modify] at h
          rw [stateAfter_bind_of_ok (outcomeOf_modify _ _), stateAfter_modify]
          exact .inr ⟨other, samples, rfl,
            ⟨element, other, samples, helement, hfloat, hkept, hother⟩,
            sparing_of_drawNormalPair state element _ _ h⟩

/-- A request that fails has done no more than try to draw; or it has first given up samples of
another type. -/
theorem sparing_of_request {request : DrawRequest}
    (h : outcomeOf (Action.request state request) engine = .error failure) :
    (¬ request.Discards (engine.generator state) ∧
        Sparing engine (stateAfter (Action.request state request) engine)) ∨
      ∃ other samples, (engine.generator state).kept = some (other, samples) ∧
        request.Discards (engine.generator state) ∧
        Sparing (discarded engine state samples)
          (stateAfter (Action.request state request) engine) := by
  cases request with
  | next name =>
    exact .inl ⟨id, MovesFailing.first (sparing_of_drawUniform state name) (fun _ ↦ .pure _) _ _ h⟩
  | skip => exact .inl ⟨id, MovesFailing.first (sparing_of_skipDraw state) (fun _ ↦ .pure _) _ _ h⟩
  | normal name =>
    -- The answer is put together after the draw, which is what has failed.
    have hdraw : outcomeOf (Action.drawNormal state name) engine = .error failure ∧
        stateAfter (Action.request state (.normal name)) engine =
          stateAfter (Action.drawNormal state name) engine := by
      unfold Action.request at h ⊢
      rw [outcomeOf_bind] at h
      rw [stateAfter_bind]
      cases hdrawn : outcomeOf (Action.drawNormal state name) engine with
      | ok out =>
        rw [hdrawn] at h
        cases h
      | error found =>
        rw [hdrawn] at h
        exact ⟨congrArg Except.error (Except.error.inj h), rfl⟩
    rw [hdraw.2]
    exact sparing_of_drawNormal hdraw.1

/-! ### Requests -/

/-- What a failing request leaves of its engine. -/
structure Leaves (request : DrawRequest) (state : Nat) (before after : Engine) : Prop where
  contents : ∀ buffer old, before.arrays.lookup buffer = some old →
    after.content buffer = before.content buffer
  others : ∀ other, other ≠ state → after.generator other = before.generator other
  /-- The generator is what it was, and kept samples are released if they were. -/
  keeps : ¬ request.Discards (before.generator state) → Unharmed before after ∧
    after.generator state = before.generator state ∧
    ∀ element samples, (before.generator state).kept = some (element, samples) →
      ∀ old, before.arrays.lookup samples = some old →
        ∃ new, after.arrays.lookup samples = some new ∧ new.released = old.released
  /-- The next normal draw of their type answers the kept samples. -/
  recalls : ¬ request.Discards (before.generator state) →
    ∀ element samples, (before.generator state).kept = some (element, samples) →
      ∀ name, ElementType.ofValue name = .ok element → element.isFloat = true →
        outcomeOf (Action.request state (.normal name)) after = .ok (some samples)
  /-- Samples of another type are no longer kept, but released. -/
  discards : request.Discards (before.generator state) →
    after.generator state = { before.generator state with kept := none } ∧
    ∀ element samples, (before.generator state).kept = some (element, samples) →
      ∀ old, before.arrays.lookup samples = some old →
        ∃ new, after.arrays.lookup samples = some new ∧ new.released = true

/-- **A request that fails leaves its generator as it was**, with the samples it keeps, unless it is
a normal draw of another float type than theirs. All arrays have their contents in any case, the
state of the generator among them. -/
theorem leaves_of_failing (hreachable : engine.Reachable) {request : DrawRequest}
    (h : outcomeOf (Action.request state request) engine = .error failure) :
    Leaves request state engine (stateAfter (Action.request state request) engine) := by
  generalize hafter : stateAfter (Action.request state request) engine = after
  rcases sparing_of_request h with ⟨hkeeps, hharmless, hgenerators⟩ |
    ⟨other, samples, hkept, hdiscards, hharmless, hgenerators⟩
  · rw [hafter] at hharmless hgenerators
    obtain ⟨-, hunharmed⟩ := hharmless hreachable.fitting
    refine ⟨fun buffer old hold ↦ (hunharmed.arrays buffer old hold).content hold,
      fun other _ ↦ hgenerators other, fun _ ↦ ⟨hunharmed, hgenerators state, ?_⟩, ?_,
      fun hdiscards ↦ absurd hdiscards hkeeps⟩
    · intro element samples _ old hold
      exact (hunharmed.arrays samples old hold).released
    · intro _ element samples hkept name hname hfloat
      exact outcomeOf_normal_of_kept ((congrArg Generator.kept (hgenerators state)).trans hkept)
        hname hfloat
  · rw [hafter] at hharmless hgenerators
    have hfitting : (discarded engine state samples).Fitting :=
      (hreachable.afterAll [.setGenerator state { engine.generator state with kept := none },
        .release samples]).fitting
    obtain ⟨-, hunharmed⟩ := hharmless hfitting
    let taken := engine.setGenerator state { engine.generator state with kept := none }
    have hreleased (wanted : Nat) :
        (discarded engine state samples).generator wanted = taken.generator wanted := by
      have hsame : (discarded engine state samples).generators = taken.generators :=
        generators_foldl_release [samples] _
      rw [Engine.generator, Engine.generator, hsame]
    refine ⟨?contents, ?others, fun hkeeps ↦ absurd hdiscards hkeeps,
      fun hkeeps ↦ absurd hdiscards hkeeps, fun _ ↦ ⟨?generator, ?samples⟩⟩
    case contents =>
      intro buffer old hold
      have hcontent : (taken.release samples).content buffer = taken.content buffer :=
        content_released samples hold
      obtain ⟨new, hnew⟩ := (sameFixture_release samples taken).exists_lookup ⟨old, hold⟩
      exact ((hunharmed.arrays buffer new hnew).content hnew).trans hcontent
    case others =>
      intro wanted hne
      rw [hgenerators, hreleased, generator_setGenerator_of_ne _ hne]
    case generator =>
      rw [hgenerators, hreleased, generator_setGenerator_of_kept _ hkept]
    case samples =>
      intro element kept hkept' old hold
      cases hkept.symm.trans hkept'
      have hlookup : taken.arrays.lookup samples = some old := hold
      obtain ⟨new, hnew, hdone⟩ := lookup_release hlookup
      obtain ⟨last, hlast, hsame⟩ := (hunharmed.arrays samples new hnew).released
      exact ⟨last, hlast, hsame.trans hdone⟩

/-- An engine without half precision. -/
def halflessEngine : Engine :=
  .create (.createWith (fun _ _ held ↦ held) [] ⟨256, 256, 65535⟩ none)
    ⟨.highPerformance, .bool true, 256, .none⟩

/-- The engine once a generator of one stream has drawn a pair and keeps the second of it. -/
def keepingEngine : Engine :=
  stateAfter (Action.request 1 (.normal (.text "f32")))
    (stateAfter (Action.newGenerator (.int 1) (.int 7) .none) halflessEngine)

theorem reachable_keepingEngine : keepingEngine.Reachable := by
  have hmade : Leads Primitive.Any halflessEngine
      (stateAfter (Action.newGenerator (.int 1) (.int 7) .none) halflessEngine) :=
    (madeOf_newGenerator (.int 1) (.int 7) .none halflessEngine).mono fun _ _ ↦ trivial
  have hdrawn : Leads Primitive.Any _ keepingEngine :=
    (madeOf_request 1 (.normal (.text "f32")) _).mono fun _ _ ↦ trivial
  exact ⟨_, _, _, _, _, hmade.trans hdrawn⟩

/-- A draw of half precision that fails for want of it keeps the samples if it is uniform. -/
theorem leaves_of_failing_uniform :
    (keepingEngine.generator 1).kept = some (.f32, 3) ∧
      ∃ failure, outcomeOf (Action.request 1 (.next (.text "f16"))) keepingEngine =
          .error failure ∧
        Leaves (.next (.text "f16")) 1 keepingEngine
          (stateAfter (Action.request 1 (.next (.text "f16"))) keepingEngine) := by
  have hkept : (keepingEngine.generator 1).kept = some (.f32, 3) := by
    rw [keepingEngine, Action.newGenerator_eq]
    decide +kernel
  have hfails : (outcomeOf (Action.request 1 (.next (.text "f16"))) keepingEngine).toOption =
      none := by
    rw [keepingEngine, Action.newGenerator_eq]
    decide +kernel
  cases h : outcomeOf (Action.request 1 (.next (.text "f16"))) keepingEngine with
  | ok out =>
    rw [h] at hfails
    cases hfails
  | error failure => exact ⟨hkept, failure, rfl, leaves_of_failing reachable_keepingEngine h⟩

/-- A normal draw of half precision that fails for want of it has given the samples up, and the next
draw of their type answers others. -/
theorem discards_halfUnavailable :
    (keepingEngine.generator 1).kept = some (.f32, 3) ∧ (keepingEngine.array 3).released = false ∧
      let after := stateAfter (Action.request 1 (.normal (.text "f16"))) keepingEngine
      (outcomeOf (Action.request 1 (.normal (.text "f16"))) keepingEngine).mapError Failure.kind =
          .error .unsupported ∧
        (after.generator 1).kept = none ∧ (after.array 3).released = true ∧
        outcomeOf (Action.request 1 (.normal (.text "f32"))) after = .ok (some 4) := by
  simp only [eq_ok_iff]
  rw [keepingEngine, Action.newGenerator_eq]
  decide +kernel

end Generator

end ComputeArray
