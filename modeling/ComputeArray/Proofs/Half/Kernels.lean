import ComputeArray.Kernel.Stream
import ComputeArray.Proofs.Half.Text
import ComputeArray.Proofs.Kernel.Bindings

/-!
# Kernels that declare half precision

A source is `Gated` if it declares half precision exactly when it uses it, and mentions it only
where it is available. Every kernel begins with the line that admits half precision if an array of
it is bound, so it is gated if its words mention half precision for the sake of such an array only
(`gated_of_items`). The kernels of the engine are of this kind: elementwise ones, passes of
reductions, and those of random streams.
-/

set_option autoImplicit false

namespace ComputeArray.Kernel

/-! ### Sources -/

/-- The text occurs in the source. -/
def Mentions (source text : String) : Prop := text.toList <:+: source.toList

instance (source text : String) : Decidable (Mentions source text) :=
  inferInstanceAs (Decidable (_ <:+: _))

/-- The line that admits half precision. -/
def directive : String := "enable f16;"

/-- Uses of half precision: arrays of it, conversions and bitcasts to it, and its literals, which
end in an `h`. -/
inductive UsesHalf (source : String) : Prop
  | array (found : Mentions source "array<f16>")
  | conversion (found : Mentions source "f16(")
  | bitcast (found : Mentions source "bitcast<f16>")
  | bitcasts (found : Mentions source "bitcast<vec2<f16>>")
  | literal {mark : Char} (ends : mark.isDigit = true ∨ mark = '.')
      (found : [mark, 'h'] <:+: source.toList)

/-- The source declares half precision if and only if it uses it, and mentions it only where it is
available. -/
structure Gated (half : Bool) (source : String) : Prop where
  declares : UsesHalf source → directive.toList <+: source.toList
  uses : Mentions source directive → UsesHalf source
  absent : half = false → ¬ Mentions source "f16"

variable {source text : String} {half : Bool} {kernel : Kernel}

theorem Mentions.trans {part : String} (h : Mentions source text) (hpart : Mentions text part) :
    Mentions source part :=
  List.IsInfix.trans hpart h

theorem mentions_middle (before text after : String) : Mentions (before ++ text ++ after) text :=
  ⟨before.toList, after.toList, by rw [String.toList_append, String.toList_append]⟩

theorem Halfless.of_mentions (h : Halfless source) (hfound : Mentions source text) :
    Halfless text :=
  List.IsChain.infix h hfound

theorem Halfless.not_mentions (h : Halfless source) : ¬ Mentions source "f16" := fun hfound ↦
  absurd (h.of_mentions hfound) (by decide)

theorem Halfless.not_usesHalf (h : Halfless source) : ¬ UsesHalf source := by
  intro huses
  cases huses with
  | array found => exact h.not_mentions (found.trans (by decide +kernel))
  | conversion found => exact h.not_mentions (found.trans (by decide +kernel))
  | bitcast found => exact h.not_mentions (found.trans (by decide +kernel))
  | bitcasts found => exact h.not_mentions (found.trans (by decide +kernel))
  | literal ends found =>
    have hpair := List.IsChain.infix h found
    exact (List.isChain_pair.mp hpair).2 ⟨ends, rfl⟩

theorem Halfless.gated (h : Halfless source) : Gated half source where
  declares := fun huses ↦ absurd huses h.not_usesHalf
  uses := fun hdeclares ↦ absurd (hdeclares.trans (by decide +kernel)) h.not_mentions
  absent := fun _ ↦ h.not_mentions

/-! ### Kernels -/

theorem mentions_of_mem {item : Item} {line : String} (hitem : item ∈ kernel.items)
    (hline : line ∈ item.lines) : Mentions kernel.source line := by
  obtain ⟨before, after, hsplit⟩ := List.append_of_mem (List.mem_flatMap.mpr ⟨item, hitem, hline⟩)
  have hsource : kernel.source = String.join (before.map (· ++ "\n")) ++ line ++
      ("\n" ++ String.join (after.map (· ++ "\n"))) := by
    unfold source
    rw [hsplit, List.map_append, List.map_cons, String.join_append, String.join_cons]
    simp only [String.append_assoc]
  rw [hsource]
  exact mentions_middle _ _ _

theorem mentions_array {slot : Option Int} {access : Access} {name : String}
    (h : .array slot access name "f16" ∈ kernel.items) :
    Mentions kernel.source "array<f16>" := by
  refine (mentions_of_mem h (List.mem_cons_of_mem _ (List.mem_singleton_self _))).trans ?_
  have hline : "var<storage, " ++ access.text ++ "> " ++ name ++ ": array<" ++ "f16" ++ ">;" =
      "var<storage, " ++ access.text ++ "> " ++ name ++ ": " ++ "array<f16>" ++ ";" := by
    have hstart : ": array<" = ": " ++ "array<" := by decide
    have hend : "array<f16>" = "array<" ++ ("f16" ++ ">") := by decide
    have hpoint : ">;" = ">" ++ ";" := by decide
    rw [hstart, hend, hpoint]
    simp only [String.append_assoc]
  rw [hline]
  exact mentions_middle _ _ _

/-- A kernel is gated if it begins with the preamble of arrays it binds, these have half precision
only where it is available, and none of its words mention it unless one of the arrays has it. -/
theorem gated_of_items {operands : List Operand} {rest : List Item}
    (hitems : kernel.items = preamble operands :: rest)
    (hbound : ∀ operand ∈ operands, ∃ slot access name, .array slot access name operand.type ∈ rest)
    (hhalf : ∀ operand ∈ operands, operand.type = "f16" → half = true)
    (hplain : (∀ operand ∈ operands, operand.type ≠ "f16") → ∀ item ∈ rest, item.Plain) :
    Gated half kernel.source := by
  by_cases hany : ∃ operand ∈ operands, operand.type = "f16"
  · obtain ⟨operand, hmem, htype⟩ := hany
    obtain ⟨slot, access, name, harray⟩ := hbound operand hmem
    rw [htype] at harray
    have hfirst : preamble operands = .halfPrecision :=
      if_pos (List.any_eq_true.mpr ⟨operand, hmem, decide_eq_true htype⟩)
    refine ⟨fun _ ↦ ?_, fun _ ↦ .array (mentions_array (hitems ▸ List.mem_cons_of_mem _ harray)),
      fun hnone ↦ absurd (hhalf operand hmem htype) (by rw [hnone]; decide)⟩
    have hsource : kernel.source = directive ++
        ("\n" ++ String.join ((rest.flatMap Item.lines).map (· ++ "\n"))) := by
      have hone : Item.halfPrecision.lines.map (· ++ "\n") = [directive ++ "\n"] := rfl
      unfold source
      rw [hitems, hfirst, List.flatMap_cons, List.map_append, String.join_append, hone,
        String.join_cons, String.join_nil, String.append_empty, String.append_assoc]
    rw [hsource, String.toList_append]
    exact List.prefix_append _ _
  · have hnone : ∀ operand ∈ operands, operand.type ≠ "f16" :=
      fun operand hmem htype ↦ hany ⟨operand, hmem, htype⟩
    have hfirst : preamble operands = .blank :=
      if_neg fun h ↦ by
        obtain ⟨operand, hmem, htype⟩ := List.any_eq_true.mp h
        exact hnone operand hmem (of_decide_eq_true htype)
    refine (halfless_source fun item hmem ↦ ?_).gated
    rw [hitems, hfirst] at hmem
    rcases List.mem_cons.mp hmem with rfl | hmem
    · exact trivial
    · exact hplain hnone item hmem

/-! ### Operands -/

/-- Half precision is neither the type of the operand nor that it is converted to. -/
structure Operand.Plain (operand : Operand) : Prop where
  type : Halfless operand.type
  conversion : Halfless operand.conversion

variable {operand out : Operand} {name : String} {size : Int}

theorem plain_convert {conversion : String} {inner : Expression}
    (hconversion : Halfless conversion) (hinner : inner.Plain) :
    (Expression.convert conversion inner).Plain := by
  unfold Expression.convert
  split
  · exact hinner
  · exact ⟨hconversion, hinner, trivial⟩

theorem plain_item (hname : Halfless name) (htype : Halfless operand.type) (access : Access) :
    (operand.item name access).Plain := by
  unfold Operand.item
  split <;> exact ⟨hname, htype⟩

theorem plain_value {position : Expression} (h : operand.Plain) (hname : Halfless name)
    (hposition : position.Plain) : (operand.value name position).Plain := by
  refine plain_convert h.conversion ?_
  split
  · exact hname
  · exact ⟨hname, hposition⟩

theorem plain_laneNumber (size : Int) : (laneNumber size).Plain := by
  simp only [laneNumber, Statement.Plain, Expression.Plain, Option.mem_some_iff, forall_eq']
  decide

theorem plain_beyond (hname : Halfless name) : (beyond name).Plain := by
  simp only [beyond, lane, Expression.arrayLength, Expression.Plain, Expression.AllPlain]
  exact ⟨by decide, by decide, by decide, hname, trivial⟩

/-- An operand with a slot is declared as an array. -/
theorem exists_item_eq (hslot : operand.isScalar = false) (name : String) (access : Access) :
    ∃ slot, operand.item name access = .array slot access name operand.type := by
  unfold Operand.isScalar at hslot
  unfold Operand.item
  cases hfound : operand.slot with
  | none =>
    rw [hfound] at hslot
    cases hslot
  | some slot => exact ⟨some slot, rfl⟩

/-! ### Elementwise kernels -/

namespace Elementwise

variable {inputs : List (String × Operand)} {result : List Expression → Expression}
  {strides : Option StrideSlots}

theorem plain_forEach {names : List String} {statement : String → Statement}
    (h : ∀ name ∈ names, (statement name).Plain) :
    ∀ found ∈ forEach names statement, found.Plain := by
  unfold forEach
  split
  · intro found hmem
    rw [List.mem_singleton.mp hmem]
    trivial
  · exact List.forall_mem_map.mpr h

theorem halfless_stridesName (hname : Halfless name) : Halfless (stridesName name) :=
  (hname.shut (by decide)).halfless

theorem halfless_offsetName (hname : Halfless name) : Halfless (offsetName name) :=
  (hname.shut (by decide)).halfless

theorem plain_advanceOffset {steps : String} {position : Expression} (hsteps : Halfless steps)
    (hposition : position.Plain) (hname : Halfless name) :
    (advanceOffset steps position name).Plain :=
  ⟨by decide, halfless_offsetName hname, by decide, hsteps, halfless_stridesName hname, hposition⟩

theorem plain_walkRound {names : List String} (h : ∀ name ∈ names, Halfless name) :
    ∀ statement ∈ walkRound names, statement.Plain := by
  unfold walkRound
  simp only [List.forall_mem_append, List.forall_mem_cons, List.not_mem_nil, false_implies,
    implies_true, and_true]
  refine ⟨⟨⟨?_, ?_⟩, plain_forEach fun name hmem ↦
    plain_advanceOffset (by decide) (by decide : Halfless "s") (h name hmem)⟩, ?_⟩
  all_goals
    simp only [Statement.Plain, Expression.Plain, outerAxis, Option.mem_some_iff, forall_eq']
    decide

theorem plain_walk {names : List String} (h : ∀ name ∈ names, Halfless name) :
    ∀ statement ∈ walk names, statement.Plain := by
  have hround : Statement.AllPlain (walkRound names) :=
    Statement.allPlain_iff.mpr (plain_walkRound h)
  unfold walk
  simp only [List.forall_mem_append, List.forall_mem_cons, List.not_mem_nil, false_implies,
    implies_true, and_true]
  refine ⟨⟨⟨⟨⟨trivial, ?rest⟩, plain_forEach fun name hmem ↦ ?offset⟩, ?loop, ?last⟩,
    plain_forEach fun name hmem ↦
      plain_advanceOffset (by decide) (by decide : Halfless "0") (h name hmem)⟩, trivial⟩
  case offset =>
    exact ⟨halfless_offsetName (h name hmem), by decide, trivial⟩
  case loop =>
    simp only [Statement.Plain, Expression.Plain, Expression.AllPlain, Expression.arrayLength,
      outerAxis, hround]
    decide
  all_goals
    simp only [Statement.Plain, Expression.Plain, lane, Option.mem_some_iff, forall_eq']
    decide

theorem plain_body (hnames : ∀ input ∈ inputs, Halfless input.1)
    (hinputs : ∀ input ∈ inputs, input.2.Plain) (hout : out.Plain)
    (hresult : ∀ values, Expression.AllPlain values → (result values).Plain) (strided : Bool) :
    ∀ statement ∈ body size inputs out result strided, statement.Plain := by
  have hwalk : ∀ statement ∈ (if strided then walk ((arrayInputs inputs).map Prod.fst)
      else [.blank]), statement.Plain := by
    split
    · refine plain_walk fun name hmem ↦ ?_
      obtain ⟨input, hinput, rfl⟩ := List.mem_map.mp hmem
      exact hnames input (List.mem_filter.mp hinput).1
    · simp [Statement.Plain]
  have hvalues : Expression.AllPlain (inputs.map fun input ↦
      input.2.value input.1 (position strided input.1)) := by
    refine Expression.allPlain_iff.mpr (List.forall_mem_map.mpr fun input hmem ↦ ?_)
    refine plain_value (hinputs input hmem) (hnames input hmem) ?_
    unfold position
    split
    · exact halfless_offsetName (hnames input hmem)
    · exact (by decide : Halfless "i")
  unfold body
  simp only [List.forall_mem_append, List.forall_mem_cons, List.not_mem_nil, false_implies,
    implies_true, and_true]
  exact ⟨⟨⟨plain_laneNumber size, plain_beyond (by decide)⟩, hwalk⟩,
    ⟨by decide, (by decide : Halfless "i")⟩, plain_convert hout.conversion (hresult _ hvalues)⟩

/-- An elementwise kernel is gated if half precision is only available where an array bound to it
has it, and no operand has it and no operand is converted to it unless such an array is bound. -/
theorem gated_kernel (h : Elementwise.kernel size inputs out result strides = .ok kernel)
    (hnames : ∀ input ∈ inputs, Halfless input.1) (hslot : out.isScalar = false)
    (hhalf : ∀ operand ∈ (arrayInputs inputs).map Prod.snd ++ [out],
      operand.type = "f16" → half = true)
    (hplain : (∀ operand ∈ (arrayInputs inputs).map Prod.snd ++ [out], operand.type ≠ "f16") →
      (∀ input ∈ inputs, input.2.Plain) ∧ out.Plain ∧
        ∀ values, Expression.AllPlain values → (result values).Plain) :
    Gated half kernel.source := by
  obtain ⟨strideItems, hitems, hdirect, hstrided⟩ := items_of_kernel h
  have hrest : kernel.items = preamble ((arrayInputs inputs).map Prod.snd ++ [out]) ::
      (inputs.map (fun input ↦ input.2.item input.1 .read) ++ [out.item "out" .readWrite]
        ++ strideItems ++ [.blank, .lanes size (body size inputs out result strides.isSome)]) := by
    rw [hitems]
    rfl
  refine gated_of_items hrest ?bound hhalf fun hnone ↦ ?plain
  case bound =>
    intro operand hmem
    rcases List.mem_append.mp hmem with hmem | hmem
    · obtain ⟨input, hinput, rfl⟩ := List.mem_map.mp hmem
      obtain ⟨hinput, harray⟩ := List.mem_filter.mp hinput
      obtain ⟨slot, hitem⟩ := exists_item_eq (by simpa using harray) input.1 .read
      refine ⟨slot, .read, input.1, ?_⟩
      simp only [List.mem_append, List.mem_map]
      exact .inl (.inl (.inl ⟨input, hinput, hitem⟩))
    · obtain ⟨slot, hitem⟩ := exists_item_eq hslot "out" .readWrite
      obtain rfl := List.mem_singleton.mp hmem
      refine ⟨slot, .readWrite, "out", ?_⟩
      simp [← hitem]
  case plain =>
    obtain ⟨hinputs, hout, hresult⟩ := hplain hnone
    have hstrides : ∀ item ∈ strideItems, item.Plain := by
      cases strides with
      | none =>
        rw [hdirect rfl]
        exact List.forall_mem_nil _
      | some slots =>
        intro item hmem
        obtain ⟨name, hname, hstride⟩ := exists_of_forall₂ (hstrided slots rfl) hmem
        obtain ⟨slot, -, rfl⟩ := strideItem_eq_ok hstride
        refine ⟨halfless_stridesName ?_, by decide⟩
        rcases List.mem_append.mp hname with hname | hname
        · obtain ⟨input, hinput, rfl⟩ := List.mem_map.mp hname
          exact hnames input (List.mem_filter.mp hinput).1
        · rw [List.mem_singleton.mp hname]
          decide
    have hbody := Statement.allPlain_iff.mpr
      (@plain_body out size inputs result hnames hinputs hout hresult strides.isSome)
    simp only [List.forall_mem_append, List.forall_mem_cons, List.not_mem_nil, false_implies,
      implies_true, and_true]
    refine ⟨⟨⟨?_, plain_item (by decide) hout.type _⟩, hstrides⟩, trivial, hbody⟩
    exact List.forall_mem_map.mpr fun input hmem ↦
      plain_item (hnames input hmem) (hinputs input hmem).type _

theorem plain_joined {symbol : String} (hsymbol : Halfless symbol) {values : List Expression}
    (hvalues : Expression.AllPlain values) : (joined symbol values).Plain := by
  unfold joined
  split
  · exact ⟨hsymbol, hvalues.1, hvalues.2.1⟩
  · exact ⟨hsymbol, hvalues⟩

theorem plain_chosen {zero : Expression} (hzero : zero.Plain) {values : List Expression}
    (hvalues : Expression.AllPlain values) : (chosen zero values).Plain := by
  unfold chosen
  split
  · exact ⟨by decide, hvalues.2.2.1, hvalues.2.1, ⟨by decide, hvalues.1, hzero⟩, trivial⟩
  · exact ⟨by decide, hvalues⟩

theorem plain_zeroOf (h : operand.Plain) : (zeroOf operand).Plain := by
  refine ⟨?_, by decide, trivial⟩
  split
  · exact h.type
  · exact h.conversion

end Elementwise

/-! ### Passes of reductions -/

/-- A pass of a reduction is gated under the same conditions. -/
theorem gated_fold {argument : Operand} {combine : Expression → Expression → Expression}
    (hargument : argument.isScalar = false) (hout : out.isScalar = false)
    (hhalf : ∀ operand ∈ [argument, out], operand.type = "f16" → half = true)
    (hplain : (∀ operand ∈ [argument, out], operand.type ≠ "f16") → argument.Plain ∧ out.Plain)
    (hcombine : ∀ first second : Expression, first.Plain → second.Plain →
      (combine first second).Plain) :
    Gated half (Fold.kernel size argument out combine).source := by
  obtain ⟨first, hfirst⟩ := exists_item_eq hargument "arg" .read
  obtain ⟨second, hsecond⟩ := exists_item_eq hout "out" .readWrite
  refine gated_of_items rfl ?bound hhalf fun hnone ↦ ?plain
  case bound =>
    rw [hfirst, hsecond]
    intro operand hmem
    simp only [List.mem_cons, List.not_mem_nil, or_false] at hmem
    rcases hmem with rfl | rfl
    · exact ⟨_, _, _, List.mem_cons_self⟩
    · exact ⟨_, _, _, List.mem_cons_of_mem _ List.mem_cons_self⟩
  case plain =>
    obtain ⟨hargument, hout⟩ := hplain hnone
    have hacc : Expression.Plain (.name "acc") := by decide
    have helement {position : Expression} (h : position.Plain) :
        (Expression.convert argument.conversion (.index "arg" position)).Plain :=
      plain_convert hargument.conversion ⟨by decide, h⟩
    have hround : Statement.Plain (.assign (.name "acc") (combine (.name "acc")
        (Expression.convert argument.conversion (.index "arg" (.name "j"))))) :=
      ⟨hacc, hcombine _ _ hacc (helement (by decide : Halfless "j"))⟩
    have hbody : Statement.AllPlain
        [laneNumber size, .stop (.binary ">=" lane (.name "lanes")), .blank,
          .declare "acc" none (Expression.convert argument.conversion (.index "arg" lane)),
          .loop "j" (.binary "+" lane (.name "lanes")) (.binary "<" (.name "j") (.name "n"))
            (.binary "+" (.name "j") (.name "lanes"))
            [.assign (.name "acc") (combine (.name "acc")
              (Expression.convert argument.conversion (.index "arg" (.name "j"))))],
          .assign (.index "out" lane) (Expression.convert out.conversion (.name "acc"))] :=
      ⟨plain_laneNumber size, by decide, trivial,
        ⟨by decide, nofun, helement (by decide : Halfless "i")⟩,
        ⟨by decide, by decide, by decide, by decide, hround, trivial⟩,
        ⟨⟨by decide, (by decide : Halfless "i")⟩, plain_convert hout.conversion hacc⟩, trivial⟩
    simp only [List.forall_mem_cons, List.not_mem_nil, false_implies, implies_true, and_true]
    exact ⟨plain_item (by decide) hargument.type _, plain_item (by decide) hout.type _, trivial,
      by decide, by decide, trivial, hbody⟩

end ComputeArray.Kernel

namespace ComputeArray

open Kernel Elementwise

namespace Operation

/-! ### Kernels of operations -/

theorem halfless_symbol : ∀ entry ∈ table, Halfless entry.2.symbol := by decide

variable {operation : Operation} {operands : List Operand} {size : Int} {out : Operand}
  {half : Bool}

theorem plain_applied (hsymbol : Halfless operation.symbol)
    (hoperands : ∀ operand ∈ operands, operand.Plain) {values : List Expression}
    (hvalues : Expression.AllPlain values) : (operation.applied operands values).Plain := by
  unfold applied
  cases operation.template with
  | operator => exact plain_joined hsymbol hvalues
  | choice =>
    cases operands with
    | nil => exact ⟨hsymbol, hvalues⟩
    | cons condition rest =>
      exact plain_chosen (plain_zeroOf (hoperands condition List.mem_cons_self)) hvalues
  | _ => exact ⟨hsymbol, hvalues⟩

theorem halfless_operands (template : Template) : ∀ name ∈ template.operands, Halfless name := by
  cases template <;> decide

/-- The kernel of an elementwise operation is gated if half precision is only available where an
array bound to it has it, and no operand has it or is converted to it otherwise. -/
theorem gated_kernel {strides : Option StrideSlots} {kernel : Kernel}
    (h : operation.kernel size operands out strides = .ok kernel)
    (hcount : operands.length = operation.template.operands.length)
    (hsymbol : Halfless operation.symbol) (hslot : out.isScalar = false)
    (hhalf : ∀ operand ∈ operands ++ [out], operand.isScalar = false → operand.type = "f16" →
      half = true)
    (hplain : (∀ operand ∈ operands ++ [out], operand.isScalar = false → operand.type ≠ "f16") →
      ∀ operand ∈ operands ++ [out], operand.Plain) :
    Gated half kernel.source := by
  rw [kernel_eq_applied hcount] at h
  have hbound (operand : Operand) : operand ∈ (arrayInputs
      (operation.template.operands.zip operands)).map Prod.snd ++ [out] ↔
        operand ∈ operands ++ [out] ∧ operand.isScalar = false := by
    have hmem : operand ∈ (arrayInputs (operation.template.operands.zip operands)).map Prod.snd ↔
        operand ∈ operands ∧ operand.isScalar = false := by
      have hzip : operand ∈ operands ↔
          ∃ name, (name, operand) ∈ operation.template.operands.zip operands := by
        conv_lhs => rw [← List.map_snd_zip (Nat.le_of_eq hcount)]
        simp
      simp [arrayInputs, hzip]
    rw [List.mem_append, List.mem_append, hmem, List.mem_singleton]
    constructor
    · rintro (⟨hmem, harray⟩ | rfl)
      · exact ⟨.inl hmem, harray⟩
      · exact ⟨.inr rfl, hslot⟩
    · rintro ⟨hmem | hmem, harray⟩
      · exact .inl ⟨hmem, harray⟩
      · exact .inr hmem
  refine Elementwise.gated_kernel h
    (fun input hmem ↦ halfless_operands _ _ (List.of_mem_zip hmem).1) hslot
    (fun operand hmem ↦ ?_) fun hnone ↦ ?_
  · obtain ⟨hmem, harray⟩ := (hbound operand).mp hmem
    exact hhalf operand hmem harray
  · have hall := hplain fun operand hmem harray ↦
      hnone operand ((hbound operand).mpr ⟨hmem, harray⟩)
    rw [List.forall_mem_append, List.forall_mem_singleton] at hall
    exact ⟨fun input hmem ↦ hall.1 input.2 (List.of_mem_zip hmem).2, hall.2,
      fun values hvalues ↦ plain_applied hsymbol hall.1 hvalues⟩

/-- So is the kernel of a pass of a reduction. -/
theorem gated_foldKernel {argument : Operand} (hsymbol : Halfless operation.symbol)
    (hargument : argument.isScalar = false) (hout : out.isScalar = false)
    (hhalf : ∀ operand ∈ [argument, out], operand.type = "f16" → half = true)
    (hplain : (∀ operand ∈ [argument, out], operand.type ≠ "f16") →
      argument.Plain ∧ out.Plain) :
    Gated half (operation.foldKernel size argument out).source := by
  unfold foldKernel
  cases operation.template with
  | foldOperator =>
    exact gated_fold hargument hout hhalf hplain fun _ _ hfirst hsecond ↦
      ⟨hsymbol, hfirst, hsecond⟩
  | _ =>
    exact gated_fold hargument hout hhalf hplain fun _ _ hfirst hsecond ↦
      ⟨hsymbol, hfirst, hsecond, trivial⟩

end Operation

/-! ### Kernels of random streams -/

namespace Kernel.Stream

variable {size : Int} {state first second cursor : Operand} {out : Option Operand} {half : Bool}

theorem plain_functions : ∀ item ∈ functions, item.Plain := by decide +kernel

theorem plain_stateItem (state : Operand) : (stateItem state).Plain := ⟨by decide, by decide⟩

/-- A kernel that derives streams handles words only. -/
theorem gated_derive (chunk : Int) : Gated half (derive state cursor chunk).source := by
  have hbody : Statement.AllPlain
      [.define "n" (some "u32") (.arrayLength "state"),
        .define "first" (some "u32") (.index "cursor" (.literal "0")),
        .define "last" (some "u32")
          (.call "min" [.binary "+" (.name "first") (.word chunk), .name "n"]),
        .loop "i" (.name "first") (.binary "<" lane (.name "last")) (.binary "+" lane (.word 1))
          [.assign (stateAt lane) (stateAt (.binary "-" lane (.word 1))),
            .run (.call "jump" [lane])],
        .assign (.index "cursor" (.literal "0")) (.name "last")] := by
    refine ⟨by decide, by decide, ⟨by decide, by decide, ?_⟩, by decide, by decide⟩
    exact ⟨by decide, ⟨by decide, (by decide : Halfless "first"), trivial⟩,
      (by decide : Halfless "n"), trivial⟩
  refine (halfless_source ?_).gated
  unfold derive
  simp only [List.forall_mem_append, List.forall_mem_cons, List.not_mem_nil, false_implies,
    implies_true, and_true]
  exact ⟨⟨⟨trivial, plain_stateItem state, by decide, by decide⟩, plain_functions⟩, trivial,
    by decide +kernel, trivial, hbody⟩

theorem plain_drawStatement (hout : ∀ operand ∈ out, Halfless operand.type) :
    (drawStatement out).Plain := by
  cases out with
  | none => exact (by decide : advanced.Plain)
  | some operand =>
    refine ⟨by decide, ?_⟩
    split
    · decide
    · split
      · decide
      · exact ⟨hout operand rfl, by decide, trivial⟩

/-- A draw is gated if half precision is only available where it is drawn. -/
theorem gated_draw (hslot : ∀ operand ∈ out, operand.isScalar = false)
    (hhalf : ∀ operand ∈ out, operand.type = "f16" → half = true)
    (hplain : ∀ operand ∈ out, operand.type ≠ "f16" → Halfless operand.type) :
    Gated half (draw size state out).source := by
  have hitems : (draw size state out).items = preamble out.toList ::
      ([stateItem state] ++ [out.elim .blank (·.item "out" .readWrite)] ++ functions
        ++ [.blank, .blank]
        ++ (if out.any (·.type = "f16") then [.function toHalfFunction, .blank] else [])
        ++ [.lanes size [laneNumber size, .stop (out.elim (beyond "state") fun _ ↦
            .binary "||" (beyond "state") (beyond "out")), .blank, drawStatement out]]) := by
    cases out <;> rfl
  refine gated_of_items hitems ?bound (by simpa using hhalf) fun hnone ↦ ?plain
  case bound =>
    intro operand hmem
    rw [Option.mem_toList] at hmem
    obtain ⟨slot, hitem⟩ := exists_item_eq (hslot operand hmem) "out" .readWrite
    obtain rfl := hmem
    refine ⟨slot, .readWrite, "out", ?_⟩
    simp [← hitem]
  case plain =>
    have htype : ∀ operand ∈ out, Halfless operand.type := fun operand hmem ↦
      hplain operand hmem (hnone operand (Option.mem_toList.mpr hmem))
    have hdrawn := plain_drawStatement htype
    simp only [List.forall_mem_append, List.forall_mem_cons, List.not_mem_nil, false_implies,
      implies_true, and_true]
    refine ⟨⟨⟨⟨⟨plain_stateItem state, ?out⟩, plain_functions⟩, trivial, trivial⟩, ?half⟩,
      plain_laneNumber size, ?stop, trivial, hdrawn, trivial⟩
    case out =>
      cases out with
      | none => trivial
      | some operand => exact plain_item (by decide) (htype operand rfl) _
    case half =>
      have hwhole : ¬ out.any (·.type = "f16") = true := by
        cases out with
        | none => decide
        | some operand => simpa using hnone operand
      rw [if_neg hwhole]
      exact nofun
    case stop =>
      cases out with
      | none => exact plain_beyond (by decide)
      | some operand => exact ⟨by decide, plain_beyond (by decide), plain_beyond (by decide)⟩

/-- So is a draw of a pair of normal samples. -/
theorem gated_normalPair (hfirst : first.isScalar = false) (hsecond : second.isScalar = false)
    (hhalf : ∀ operand ∈ [first, second], operand.type = "f16" → half = true)
    (hplain : (∀ operand ∈ [first, second], operand.type ≠ "f16") →
      Halfless first.type ∧ Halfless second.type) :
    Gated half (normalPair size state first second).source := by
  have hsample {out : Operand} (turn : String) (hout : Halfless out.type) (hturn : Halfless turn) :
      Expression.Plain (.call out.type [.binary "*" (.name "r") (.call turn [.name "theta"])]) :=
    ⟨hout, ⟨by decide, (by decide : Halfless "r"), hturn, (by decide : Halfless "theta"), trivial⟩,
      trivial⟩
  have hitems : (normalPair size state first second).items = preamble [first, second] ::
      ([stateItem state, first.item "out0" .readWrite, second.item "out1" .readWrite] ++ functions
        ++ [.blank, .constant "TAU" "f32" (.literal "6.283185307179586"), .blank,
          .lanes size [laneNumber size, .stop (.binary "||" (beyond "state") (beyond "out0")),
            .blank,
            .define "u1" (some "f32") (.call "to_float" [advanced]),
            .define "u2" (some "f32") (.call "to_float" [advanced]),
            .define "r" (some "f32") (.call "sqrt" [.binary "*" (.literal "-2.0")
              (.call "log" [.binary "-" (.literal "1.0") (.name "u1")])]),
            .define "theta" (some "f32") (.binary "*" (.name "TAU") (.name "u2")), .blank,
            .assign (.index "out0" lane)
              (.call first.type [.binary "*" (.name "r") (.call "cos" [.name "theta"])]),
            .assign (.index "out1" lane)
              (.call second.type [.binary "*" (.name "r") (.call "sin" [.name "theta"])])]]) := rfl
  obtain ⟨slot, hitem⟩ := exists_item_eq hfirst "out0" .readWrite
  obtain ⟨slot', hitem'⟩ := exists_item_eq hsecond "out1" .readWrite
  refine gated_of_items hitems ?bound hhalf fun hnone ↦ ?plain
  case bound =>
    rw [hitem, hitem']
    intro operand hmem
    simp only [List.mem_cons, List.not_mem_nil, or_false] at hmem
    rcases hmem with rfl | rfl
    · exact ⟨slot, .readWrite, "out0", by simp⟩
    · exact ⟨slot', .readWrite, "out1", by simp⟩
  case plain =>
    obtain ⟨hfirst, hsecond⟩ := hplain hnone
    simp only [List.forall_mem_append, List.forall_mem_cons, List.not_mem_nil, false_implies,
      implies_true, and_true]
    refine ⟨⟨⟨plain_stateItem state, plain_item (by decide) hfirst _,
      plain_item (by decide) hsecond _⟩, plain_functions⟩, trivial, by decide, trivial,
      plain_laneNumber size, by decide, trivial, by decide, by decide, by decide, by decide,
      trivial, ⟨by decide, hsample "cos" hfirst (by decide)⟩,
      ⟨by decide, hsample "sin" hsecond (by decide)⟩, trivial⟩

end Kernel.Stream

end ComputeArray
