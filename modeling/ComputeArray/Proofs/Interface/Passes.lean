import ComputeArray.Proofs.Interface.Slot
import ComputeArray.Proofs.Interface.Typing
import ComputeArray.Proofs.Random.Passes
import ComputeArray.Proofs.Reduction.Passes

/-!
# Interfaces of reductions and generators

The passes of a reduction hand arrays on: each shows the array it reads and the array it writes, of
which the next one reads (`foldedPasses_of_foldDispatches`). The passes of a generator show its
streams in the first slot and what they draw behind it.
-/

set_option autoImplicit false

namespace ComputeArray

open Kernel

variable {engine : Engine} {operation : Operation} {element : ElementType}
  {source destination target : Nat} {kernel : Kernel} {arrays : Nat → ArrayState}

/-! ### Reductions -/

/-- What a reduction makes of two values, as it is written. -/
def Operation.folding (operation : Operation) (accumulated next : Expression) : Expression :=
  match operation.template with
  | .foldOperator => .binary operation.symbol accumulated next
  | _ => .call operation.symbol [accumulated, next]

theorem foldKernel_eq_folding (operation : Operation) (size : Int) (argument out : Operand) :
    operation.foldKernel size argument out =
      Fold.kernel size argument out operation.folding := by
  unfold Operation.foldKernel Operation.folding
  cases operation.template <;> rfl

/-- Each lane gives a name the value, round by round. -/
def Kernel.Accumulates (kernel : Kernel) (name : String) (value : Expression) : Prop :=
  ∃ size body counter first condition next inner,
    Item.lanes size body ∈ kernel.items ∧
    Statement.loop counter first condition next inner ∈ body ∧
    .assign (.name name) value ∈ inner

/-- What a pass of a reduction shows of itself. Its slots are the arrays it reads and writes; its
constants are the numbers of elements and of lanes. What it accumulates and each element are of the
type that is folded, and what is stored is of the type of the output. -/
structure FoldedPass (arrays : Nat → ArrayState) (operation : Operation) (element : ElementType)
    (source destination : Nat) (pass : Dispatch) (kernel : Kernel) : Prop where
  presents : pass.Presents kernel
    [.ofArray arrays "arg" source .read, .ofArray arrays "out" destination .write]
  overrides : kernel.overrides = [("n", "u32"), ("lanes", "u32")]
  accumulated : kernel.HasType (.name "acc") element
  accumulates : ∃ next, kernel.HasType next element ∧
    kernel.Accumulates "acc" (operation.folding (.name "acc") next) ∧
    kernel.HasType (operation.folding (.name "acc") next) element
  stores : kernel.Stores "out"
    (.convert (OperandPlan.conversion element (arrays destination).element) (.name "acc"))
  stored : kernel.HasType
    (.convert (OperandPlan.conversion element (arrays destination).element) (.name "acc"))
    (arrays destination).element

/-- The passes of a reduction, each of which reads the array the one before it has written, and the
last of which writes the target. -/
inductive FoldedPasses (arrays : Nat → ArrayState) (operation : Operation) (element : ElementType)
    (target : Nat) : Nat → List Dispatch → Prop where
  | last {source : Nat} {pass : Dispatch} {kernel : Kernel}
      (folded : FoldedPass arrays operation element source target pass kernel) :
      FoldedPasses arrays operation element target source [pass]
  | step {source destination : Nat} {pass : Dispatch} {kernel : Kernel} {rest : List Dispatch}
      (folded : FoldedPass arrays operation element source destination pass kernel)
      (later : FoldedPasses arrays operation element target destination rest) :
      FoldedPasses arrays operation element target source (pass :: rest)

theorem table_folds : ∀ entry ∈ Operation.table,
    entry.2.template.isFold = true → entry.2.floatOnly = false ∧ entry.2.template ≠ .operator := by
  decide

theorem Kernel.HasType.folding {tag : String} {first second : Expression}
    (hfind : Operation.find? tag = some operation) (hfold : operation.template.isFold = true)
    (hfirst : kernel.HasType first element) (hsecond : kernel.HasType second element) :
    kernel.HasType (operation.folding first second) element := by
  obtain ⟨hfloat, hoperator⟩ := table_folds _ (mem_of_lookup hfind) hfold
  unfold Operation.folding
  split
  · next heq => exact .operator hfind (.inr heq) hfirst hsecond
  · next hne =>
    refine .function hfind ⟨hoperator, hne⟩ (fun h ↦ by rw [hfloat] at h; cases h) ?_
    intro argument hmem
    simp only [List.mem_cons, List.not_mem_nil, or_false] at hmem
    rcases hmem with rfl | rfl
    · exact hfirst
    · exact hsecond

/-- What the lanes of a folding kernel do with the elements. -/
theorem mem_foldKernel (size : Int) (argument out : Operand)
    (combine : Expression → Expression → Expression) :
    ∃ body, Item.lanes size body ∈ (Fold.kernel size argument out combine).items ∧
      .declare "acc" none (.convert argument.conversion (.index "arg" lane)) ∈ body ∧
      .loop "j" (.binary "+" lane (.name "lanes")) (.binary "<" (.name "j") (.name "n"))
        (.binary "+" (.name "j") (.name "lanes"))
        [.assign (.name "acc") (combine (.name "acc")
          (.convert argument.conversion (.index "arg" (.name "j"))))] ∈ body ∧
      .assign (.index "out" lane) (.convert out.conversion (.name "acc")) ∈ body := by
  refine ⟨_, @List.mem_of_getElem? _ _ 7 _ rfl, ?_, ?_, ?_⟩
  · exact @List.mem_of_getElem? _ _ 3 _ rfl
  · exact @List.mem_of_getElem? _ _ 4 _ rfl
  · exact @List.mem_of_getElem? _ _ 5 _ rfl

/-- A pass of a reduction shows the arrays it reads and writes. -/
theorem foldedPass_foldDispatch {tag : String} (hfind : Operation.find? tag = some operation)
    (hfold : operation.template.isFold = true) (hsource : (engine.array source).element = element)
    (n lanes : Int) :
    ∃ kernel, FoldedPass engine.array operation element source destination
      (Action.foldDispatch engine operation element source destination n lanes) kernel := by
  set stored := (engine.array destination).element with hstored
  set kernel := Fold.kernel engine.workgroupSize ⟨some 0, element.name, ""⟩
    ⟨some 1, stored.name, OperandPlan.conversion element stored⟩ operation.folding with hkernel
  obtain ⟨body, hentry, hdeclare, hloop, hstore⟩ := mem_foldKernel engine.workgroupSize
    ⟨some 0, element.name, ""⟩ ⟨some 1, stored.name, OperandPlan.conversion element stored⟩
      operation.folding
  have hplain (position : Expression) :
      kernel.HasType (.convert "" (.index "arg" position)) element :=
    .group (.element (@List.mem_of_getElem? _ _ 1 _ rfl))
  have haccumulated : kernel.HasType (.name "acc") element :=
    .variable hentry hdeclare (hplain lane)
  have hoverrides : kernel.overrides = [("n", "u32"), ("lanes", "u32")] := by
    rw [Kernel.overrides, hkernel, Fold.kernel, List.filterMap_cons_none (override?_preamble _)]
    rfl
  refine ⟨kernel, .of_declarations ?_ rfl ?_ (by rw [hoverrides]; rfl), hoverrides, haccumulated,
    ⟨_, hplain (.name "j"), ⟨_, _, _, _, _, _, _, hentry, hloop, List.mem_singleton_self _⟩,
      .folding hfind hfold haccumulated (hplain _)⟩, ⟨_, _, hentry, hstore⟩,
    haccumulated.convert _⟩
  · rw [hkernel, ← foldKernel_eq_folding, Action.foldDispatch, hsource]
  · rw [Kernel.declarations, hkernel, Fold.kernel,
      List.filterMap_cons_none (declaration?_preamble _), Slot.ofArray, Slot.ofArray, hsource]
    rfl

/-- The passes planned for a reduction show the arrays they hand on. -/
theorem foldedPasses_of_foldDispatches {tag : String} {width n : Int} {dispatches : List Dispatch}
    {between : List Nat} (hfind : Operation.find? tag = some operation)
    (hfold : operation.template.isFold = true) (hnumbered : engine.Numbered)
    (hsource : ∃ array, engine.arrays.lookup source = some array)
    (helement : (engine.array source).element = element)
    (htarget : ∃ array, engine.arrays.lookup target = some array)
    (h : outcomeOf (Action.foldDispatches operation element target source
      (Reduction.passes width n)) engine = .ok (dispatches, between)) :
    Engine.Keeps engine (stateAfter (Action.foldDispatches operation element target source
        (Reduction.passes width n)) engine) ∧
      FoldedPasses (stateAfter (Action.foldDispatches operation element target source
        (Reduction.passes width n)) engine).array operation element target source dispatches := by
  induction n using Reduction.passes.induct width generalizing engine source dispatches between with
  | case1 n hseveral ih =>
    -- A pass into a fresh array, from which the rest goes on.
    rw [Reduction.passes, dif_pos hseveral] at h ⊢
    obtain ⟨destination, later, between', hdestination, hlater, rfl, -, hafter⟩ :=
      foldDispatches_cons_eq_ok h
    rcases foldDestination_eq_ok hdestination with ⟨hone, -⟩ | ⟨-, hmade, hstate⟩
    · omega
    · obtain ⟨array, htype, hnumbered', hkeeps, hlookup⟩ := newContiguous_fresh hnumbered hmade
      rw [← hstate] at hnumbered' hkeeps hlookup
      have hfresh : ∃ array, (stateAfter (Action.foldDestination element target
          (Reduction.lanes width n)) engine).arrays.lookup destination = some array :=
        ⟨array, hlookup⟩
      have hcarried : ((stateAfter (Action.foldDestination element target
          (Reduction.lanes width n)) engine).array destination).element = element := by
        rw [Engine.array, hlookup]
        exact htype
      obtain ⟨hkeeps', hpasses⟩ :=
        ih hnumbered' hfresh hcarried (hkeeps.exists_lookup htarget) hlater
      have hwhole := trans_of Engine.Keeps hkeeps hkeeps'
      rw [hafter, ← hkeeps'.foldDispatch_eq (hkeeps.exists_lookup hsource) hfresh]
      have hread := helement
      rw [← hwhole.array_eq hsource] at hread
      obtain ⟨kernel, hfolded⟩ := @foldedPass_foldDispatch _ operation element source destination _
        hfind hfold hread n (Reduction.lanes width n)
      exact ⟨hwhole, .step hfolded hpasses⟩
  | case2 n hseveral =>
    -- A single lane writes the target.
    rw [Reduction.passes, dif_neg hseveral] at h ⊢
    obtain ⟨destination, later, between', hdestination, hlater, rfl, -, hafter⟩ :=
      foldDispatches_cons_eq_ok h
    cases hlater
    rw [hafter]
    rcases foldDestination_eq_ok hdestination with ⟨-, rfl, hsame⟩ | ⟨hmore, -⟩
    · rw [Action.foldDispatches, stateAfter_pure, hsame]
      obtain ⟨kernel, hfolded⟩ := @foldedPass_foldDispatch engine operation element source
        destination _ hfind hfold helement n (Reduction.lanes width n)
      exact ⟨Std.Refl.refl _, .last hfolded⟩
    · exact absurd hmore hseveral

/-! ### Generators -/

/-- What a pass of a generator shows of itself: its streams, and behind them the arrays it draws
into, each of which it gives values of the array's type. -/
structure DrawnPass (arrays : Nat → ArrayState) (state : Nat) (outputs : List (String × Nat))
    (pass : Dispatch) (kernel : Kernel) : Prop where
  presents : pass.Presents kernel
    (.ofStreams state :: outputs.map fun (name, buffer) ↦ .ofArray arrays name buffer .write)
  stored : ∀ output ∈ outputs, ∃ value,
    kernel.Stores output.1 value ∧ kernel.HasType value (arrays output.2).element

section Draws

variable {size : Int} {body : List Statement} {generator : Generator} {state out : Nat}

theorem hasType_advanced (hentry : .lanes size body ∈ kernel.items)
    (hlane : laneNumber size ∈ body) (hknown : .function Stream.advanceFunction ∈ kernel.items) :
    kernel.HasType Stream.advanced .u32 :=
  @HasType.called kernel Stream.advanceFunction "i" lane .u32 .u32 hknown rfl rfl
    (.defined hentry hlane)

theorem hasType_toFloat (hentry : .lanes size body ∈ kernel.items)
    (hlane : laneNumber size ∈ body) (hknown : ∀ item ∈ Stream.functions, item ∈ kernel.items) :
    kernel.HasType (.call "to_float" [Stream.advanced]) .f32 :=
  @HasType.called kernel Stream.toFloatFunction "x" Stream.advanced .u32 .f32
    (hknown _ (by simp [Stream.functions])) rfl rfl
    (hasType_advanced hentry hlane (hknown _ (by simp [Stream.functions])))

theorem drawnPass_skip (arrays : Nat → ArrayState) (generator : Generator) (state : Nat)
    (size : Int) :
    DrawnPass arrays state []
      (generator.dispatch state (Stream.draw size Generator.stateOperand none) [])
      (Stream.draw size Generator.stateOperand none) where
  presents := .of_declarations rfl rfl rfl rfl
  stored := nofun

theorem drawnPass_draw (hinteger : element ≠ .i32) (hout : (arrays out).element = element) :
    DrawnPass arrays state [("out", out)]
      (generator.dispatch state
        (Stream.draw size Generator.stateOperand (some (Generator.outOperand 1 element))) [out])
      (Stream.draw size Generator.stateOperand (some (Generator.outOperand 1 element))) where
  presents := by
    refine .of_declarations rfl rfl ?_ ?_
    · simp only [List.map_cons, List.map_nil, Slot.ofArray, hout]
      cases element <;> rfl
    · cases element <;> rfl
  stored := by
    set kernel := Stream.draw size Generator.stateOperand (some (Generator.outOperand 1 element))
      with hkernel
    have hentry : .lanes size
        [laneNumber size, .stop (.binary "||" (beyond "state") (beyond "out")), .blank,
          Stream.drawStatement (some (Generator.outOperand 1 element))] ∈ kernel.items := by
      rw [hkernel]
      simp [Stream.draw]
    have hknown : ∀ item ∈ Stream.functions, item ∈ kernel.items := by
      rw [hkernel]
      intro item hmem
      simp [Stream.draw, hmem]
    have hword := hasType_advanced hentry (by simp) (hknown _ (by simp [Stream.functions]))
    have hfloat := hasType_toFloat hentry (by simp) hknown
    intro output hmem
    obtain rfl := List.mem_singleton.mp hmem
    rw [hout]
    cases element with
    | i32 => exact absurd rfl hinteger
    | u32 =>
      exact ⟨Stream.advanced, ⟨size, _, hentry, by simp [Stream.drawStatement,
        Generator.outOperand, ElementType.name]⟩, hword⟩
    | f16 =>
      have hhalf : .function Stream.toHalfFunction ∈ kernel.items := by
        rw [hkernel]
        simp [Stream.draw, Generator.outOperand, ElementType.name]
      exact ⟨.call "to_half" [Stream.advanced], ⟨size, _, hentry, by simp [Stream.drawStatement,
        Generator.outOperand, ElementType.name]⟩,
        @HasType.called kernel Stream.toHalfFunction "x" _ .u32 .f16 hhalf rfl rfl hword⟩
    | f32 =>
      exact ⟨.call "f32" [.call "to_float" [Stream.advanced]], ⟨size, _, hentry,
        by simp [Stream.drawStatement, Generator.outOperand, ElementType.name]⟩,
        @HasType.converted kernel _ .f32 .f32 hfloat⟩

/-- A sample is the radius by a function of the angle, which are both in single precision. -/
theorem hasType_sample (turn : String) {operation : Operation} {radius angle : Expression}
    (hturn : Operation.find? turn = some operation) (hsymbol : operation.symbol = turn)
    (hform : operation.template = .unary) (hentry : .lanes size body ∈ kernel.items)
    (hradius : .define "r" (some ElementType.f32.name) radius ∈ body)
    (hangle : .define "theta" (some ElementType.f32.name) angle ∈ body) :
    kernel.HasType (.call element.name
      [.binary "*" (.name "r") (.call turn [.name "theta"])]) element := by
  have hturned : kernel.HasType (.call operation.symbol [.name "theta"]) .f32 := by
    refine .function hturn (by rw [hform]; decide) (fun _ ↦ rfl) fun argument hmem ↦ ?_
    obtain rfl := List.mem_singleton.mp hmem
    exact .defined hentry hangle
  rw [hsymbol] at hturned
  exact .converted (@HasType.operator kernel "mul" (.operator "*" true) _ _ .f32 rfl (.inl rfl)
    (.defined hentry hradius) hturned)

theorem drawnPass_normalPair {first second : Nat} (hfirst : (arrays first).element = element)
    (hsecond : (arrays second).element = element) :
    DrawnPass arrays state [("out0", first), ("out1", second)]
      (generator.dispatch state (Stream.normalPair size Generator.stateOperand
        (Generator.outOperand 1 element) (Generator.outOperand 2 element)) [first, second])
      (Stream.normalPair size Generator.stateOperand (Generator.outOperand 1 element)
        (Generator.outOperand 2 element)) where
  presents := by
    refine .of_declarations rfl rfl ?_ ?_
    · simp only [List.map_cons, List.map_nil, Slot.ofArray, hfirst, hsecond]
      cases element <;> rfl
    · cases element <;> rfl
  stored := by
    set kernel := Stream.normalPair size Generator.stateOperand (Generator.outOperand 1 element)
      (Generator.outOperand 2 element)
    obtain ⟨body, hentry, hradius, hangle, hout0, hout1⟩ : ∃ body, .lanes size body ∈ kernel.items ∧
        body[5]? = some (.define "r" (some ElementType.f32.name) (.call "sqrt" [.binary "*"
          (.literal "-2.0") (.call "log" [.binary "-" (.literal "1.0") (.name "u1")])])) ∧
        body[6]? = some (.define "theta" (some ElementType.f32.name)
          (.binary "*" (.name "TAU") (.name "u2"))) ∧
        body[8]? = some (.assign (.index "out0" lane) (.call element.name
          [.binary "*" (.name "r") (.call "cos" [.name "theta"])])) ∧
        body[9]? = some (.assign (.index "out1" lane) (.call element.name
          [.binary "*" (.name "r") (.call "sin" [.name "theta"])])) :=
      ⟨_, @List.mem_of_getElem? _ _ 13 _ rfl, rfl, rfl, rfl, rfl⟩
    have hradius := List.mem_of_getElem? hradius
    have hangle := List.mem_of_getElem? hangle
    intro output hmem
    simp only [List.mem_cons, List.not_mem_nil, or_false] at hmem
    rcases hmem with rfl | rfl
    · rw [hfirst]
      exact ⟨_, ⟨size, body, hentry, List.mem_of_getElem? hout0⟩,
        hasType_sample "cos" rfl rfl rfl hentry hradius hangle⟩
    · rw [hsecond]
      exact ⟨_, ⟨size, body, hentry, List.mem_of_getElem? hout1⟩,
        hasType_sample "sin" rfl rfl rfl hentry hradius hangle⟩

/-- A pass that derives streams shows the streams and the cursor. -/
theorem presents_derive {cursor : Nat} (hcursor : (arrays cursor).element = .u32) :
    (Generator.derivePass state cursor).Presents Generator.deriveKernel
      [.ofStreams state, .ofArray arrays "cursor" cursor .readWrite] := by
  refine .of_declarations rfl rfl ?_ rfl
  rw [Slot.ofArray, hcursor]
  rfl

end Draws

end ComputeArray
