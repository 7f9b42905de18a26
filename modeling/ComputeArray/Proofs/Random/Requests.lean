import ComputeArray.Proofs.Random.Launch
import ComputeArray.Proofs.Random.Ledger
import ComputeArray.Proofs.Run.Setup

/-!
# Requests to a generator

What requests are made of: a draw runs a pass and answers its output; a normal draw first takes out
the samples that are kept (`drawNormal_eq_ok`).
-/

set_option autoImplicit false

namespace ComputeArray

open Engine Kernel ComputeArray.Random

/-! ### Requests -/

namespace Action

open Generator

variable {engine : Engine} {state : Nat} {name : Value} {element : ElementType}

/-- Carries a request out. -/
def request (state : Nat) : DrawRequest → Action (Option Nat)
  | .next elementName => do return some (← drawUniform state elementName)
  | .skip => do
    skipDraw state
    return none
  | .normal elementName => do return some (← drawNormal state elementName)

/-- Carries requests out one after the other. -/
def requests (state : Nat) (requests : List DrawRequest) : Action (List (Option Nat)) :=
  requests.mapM (request state)

theorem outcomeOf_generator (state : Nat) (engine : Engine) :
    outcomeOf (generator state) engine = .ok (engine.generator state) :=
  rfl

theorem stateAfter_generator (state : Nat) (engine : Engine) :
    stateAfter (generator state) engine = engine :=
  rfl

theorem outcomeOf_takeKept (state : Nat) (engine : Engine) :
    outcomeOf (takeKept state) engine = .ok (engine.generator state).kept :=
  rfl

theorem stateAfter_takeKept (state : Nat) (engine : Engine) :
    stateAfter (takeKept state) engine =
      engine.setGenerator state { engine.generator state with kept := none } :=
  rfl

theorem drawUniform_eq_ok {out : Nat} (h : outcomeOf (drawUniform state name) engine = .ok out) :
    ∃ element outs, ElementType.ofValue name = .ok element ∧ element ≠ .i32 ∧
      outcomeOf (drawPass (engine.generator state) state (.uniform (some element))) engine =
        .ok outs ∧
      out = outs.headD 0 ∧ stateAfter (drawUniform state name) engine =
        stateAfter (drawPass (engine.generator state) state (.uniform (some element))) engine := by
  rw [drawUniform_eq] at h ⊢
  obtain ⟨found, hfound, h⟩ := outcomeOf_bind_eq_ok.mp h
  cases hfound
  rw [stateAfter_generator] at h
  obtain ⟨element, helement, h⟩ := outcomeOf_bind_eq_ok.mp h
  rw [stateAfter_actionOfExcept] at h
  rw [stateAfter_bind_of_ok (outcomeOf_generator state engine), stateAfter_generator,
    stateAfter_bind_of_ok helement, stateAfter_actionOfExcept]
  rw [outcomeOf_actionOfExcept] at helement
  by_cases hdrawn : element = .i32
  · rw [if_pos hdrawn] at h
    obtain ⟨_, hthrown, -⟩ := outcomeOf_bind_eq_ok.mp h
    cases hthrown
  · rw [if_neg hdrawn] at h ⊢
    obtain ⟨outs, houts, hpure⟩ := outcomeOf_bind_eq_ok.mp h
    cases hpure
    refine ⟨element, outs, helement, hdrawn, houts, rfl, ?_⟩
    rw [stateAfter_bind_of_ok houts, stateAfter_pure]

theorem skipDraw_eq_ok {result : Unit} (h : outcomeOf (skipDraw state) engine = .ok result) :
    ∃ outs, outcomeOf (drawPass (engine.generator state) state (.uniform none)) engine = .ok outs ∧
      stateAfter (skipDraw state) engine =
        stateAfter (drawPass (engine.generator state) state (.uniform none)) engine := by
  rw [skipDraw_eq] at h ⊢
  obtain ⟨found, hfound, h⟩ := outcomeOf_bind_eq_ok.mp h
  cases hfound
  rw [stateAfter_generator] at h
  obtain ⟨outs, houts, -⟩ := outcomeOf_bind_eq_ok.mp h
  refine ⟨outs, houts, ?_⟩
  rw [stateAfter_bind_of_ok (outcomeOf_generator state engine), stateAfter_generator,
    stateAfter_bind_of_ok houts, stateAfter_pure]

theorem drawNormalPair_eq_ok {out : Nat}
    (h : outcomeOf (drawNormalPair state element) engine = .ok out) :
    ∃ outs, outcomeOf (drawPass (engine.generator state) state (.pair element)) engine =
        .ok outs ∧
      out = outs.headD 0 ∧ stateAfter (drawNormalPair state element) engine =
        (stateAfter (drawPass (engine.generator state) state (.pair element)) engine).setGenerator
          state { engine.generator state with kept := some (element, outs.getD 1 0) } := by
  rw [drawNormalPair_eq] at h ⊢
  obtain ⟨found, hfound, h⟩ := outcomeOf_bind_eq_ok.mp h
  cases hfound
  rw [stateAfter_generator] at h
  obtain ⟨outs, houts, h⟩ := outcomeOf_bind_eq_ok.mp h
  obtain ⟨_, -, hpure⟩ := outcomeOf_bind_eq_ok.mp h
  cases hpure
  refine ⟨outs, houts, rfl, ?_⟩
  rw [stateAfter_bind_of_ok (outcomeOf_generator state engine), stateAfter_generator,
    stateAfter_bind_of_ok houts, stateAfter_bind_of_ok (outcomeOf_modify _ _), stateAfter_modify,
    stateAfter_pure]

/-- A normal draw takes out the samples that are kept. It answers them if they have the type asked
for; else it gives them up and draws a pair. -/
theorem drawNormal_eq_ok {out : Nat} (h : outcomeOf (drawNormal state name) engine = .ok out) :
    ∃ element, ElementType.ofValue name = .ok element ∧ element.isFloat = true ∧
      let taken := engine.setGenerator state { engine.generator state with kept := none }
      ((engine.generator state).kept = some (element, out) ∧
          stateAfter (drawNormal state name) engine = taken) ∨
        ∃ start, ((engine.generator state).kept = none ∧ start = taken ∨
            ∃ other samples, (engine.generator state).kept = some (other, samples) ∧
              other ≠ element ∧ start = taken.release samples) ∧
          outcomeOf (drawNormalPair state element) start = .ok out ∧
          stateAfter (drawNormal state name) engine =
            stateAfter (drawNormalPair state element) start := by
  unfold drawNormal at h ⊢
  obtain ⟨element, helement, h⟩ := outcomeOf_bind_eq_ok.mp h
  rw [stateAfter_actionOfExcept] at h
  rw [stateAfter_bind_of_ok helement, stateAfter_actionOfExcept]
  rw [outcomeOf_actionOfExcept] at helement
  refine ⟨element, helement, ?_⟩
  cases hfloat : element.isFloat with
  | false =>
    simp only [hfloat, Bool.not_false, if_true] at h
    obtain ⟨_, hthrown, -⟩ := outcomeOf_bind_eq_ok.mp h
    cases hthrown
  | true =>
    refine ⟨rfl, ?_⟩
    simp only [hfloat, Bool.not_true, Bool.false_eq_true, if_false] at h ⊢
    obtain ⟨found, hfound, h⟩ := outcomeOf_bind_eq_ok.mp h
    cases hfound
    rw [stateAfter_takeKept] at h
    rw [stateAfter_bind_of_ok (outcomeOf_takeKept state engine), stateAfter_takeKept]
    cases hkept : (engine.generator state).kept with
    | none =>
      rw [hkept] at h
      exact .inr ⟨_, .inl ⟨rfl, rfl⟩, h, rfl⟩
    | some kept =>
      obtain ⟨other, samples⟩ := kept
      rw [hkept] at h
      dsimp only at h ⊢
      by_cases hsame : other = element
      · rw [if_pos hsame] at h ⊢
        rw [outcomeOf_pure, Except.ok.injEq] at h
        exact .inl ⟨by rw [hsame, h], stateAfter_pure _ _⟩
      · rw [if_neg hsame] at h ⊢
        obtain ⟨done, -, h⟩ := outcomeOf_bind_eq_ok.mp h
        rw [stateAfter_modify] at h
        rw [stateAfter_bind_of_ok (outcomeOf_modify _ _), stateAfter_modify]
        exact .inr ⟨_, .inr ⟨other, samples, rfl, hsame, rfl⟩, h, rfl⟩

end Action

/-! ### Setups -/

namespace Moves

theorem drawPass (generator : Generator) (state : Nat) (pass : Generator.Pass) :
    Moves SameSetup (Action.drawPass generator state pass) :=
  .bind (.mapM _ fun _ _ ↦ .newContiguous sameSetup_allocate _ _) fun _ ↦ .bind .get fun _ ↦
    .bind (sameSetup_submit _ _ _) fun _ ↦ .pure _

theorem drawNormalPair (state : Nat) (element : ElementType) :
    Moves SameSetup (Action.drawNormalPair state element) := by
  rw [Action.drawNormalPair_eq]
  exact .bind (fun _ ↦ rfl) fun _ ↦ .bind (drawPass _ _ _) fun _ ↦
    .bind (.update fun _ ↦ rfl) fun _ ↦ .pure _

/-- Requests leave the setup of an engine as it is. -/
theorem request (state : Nat) (request : Generator.DrawRequest) :
    Moves SameSetup (Action.request state request) := by
  cases request with
  | next name =>
    refine .bind ?_ fun _ ↦ .pure _
    rw [Action.drawUniform_eq]
    exact .bind (fun _ ↦ rfl) fun _ ↦ .bind (.ofExcept _) fun _ ↦
      .guard _ (.bind (drawPass _ _ _) fun _ ↦ .pure _)
  | skip =>
    refine .bind ?_ fun _ ↦ .pure _
    rw [Action.skipDraw_eq]
    exact .bind (fun _ ↦ rfl) fun _ ↦ .bind (drawPass _ _ _) fun _ ↦ .pure _
  | normal name =>
    refine .bind (.bind (.ofExcept _) fun element ↦ .guard _ (.bind (fun _ ↦ rfl) fun kept ↦ ?_))
      fun _ ↦ .pure _
    split
    · split
      · exact .pure _
      · exact .bind (.update fun _ ↦ sameSetup_release _ _) fun _ ↦ drawNormalPair _ _
    · exact drawNormalPair _ _

end Moves

theorem madeOf_request (state : Nat) (request : Generator.DrawRequest) :
    MadeOf Primitive.Computes (Action.request state request) := by
  cases request with
  | next name => exact .bind (madeOf_drawUniform _ _) fun _ ↦ .pure _
  | skip => exact .bind (madeOf_skipDraw _) fun _ ↦ .pure _
  | normal name => exact .bind (madeOf_drawNormal _ _) fun _ ↦ .pure _

end ComputeArray
