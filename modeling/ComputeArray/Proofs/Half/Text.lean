import ComputeArray.Kernel.Source
import Mathlib.Data.List.Chain

/-!
# Sources without half precision

Wherever a source mentions half precision, an `f` stands right before a `1`, or a digit or a point
right before an `h`. In the source of a kernel, blanks and brackets keep its words apart, so such
neighbours only stand within a word: a kernel is `Halfless` if all words it is written with are
(`halfless_source`).
-/

set_option autoImplicit false

namespace ComputeArray.Kernel

/-! ### Texts -/

/-- Characters that may stand side by side where no half precision is mentioned. -/
def Neighbours (c d : Char) : Prop :=
  ¬ (c = 'f' ∧ d = '1') ∧ ¬ ((c.isDigit = true ∨ c = '.') ∧ d = 'h')

instance : DecidableRel Neighbours := fun _ _ ↦ inferInstanceAs (Decidable (_ ∧ _))

/-- No half precision is mentioned in the text. -/
def Halfless (text : String) : Prop := text.toList.IsChain Neighbours

instance (text : String) : Decidable (Halfless text) :=
  inferInstanceAs (Decidable (List.IsChain _ _))

/-- The text may stand after anything. -/
def Opens (text : String) : Prop := ∀ d ∈ text.toList.head?, d ≠ '1' ∧ d ≠ 'h'

-- The instance is named: the one for all characters would try each of them.
instance (text : String) : Decidable (Opens text) := Option.decidableForallMem text.toList.head?

/-- Anything may stand after the text. -/
def Closes (text : String) : Prop :=
  ∀ c ∈ text.toList.getLast?, c ≠ 'f' ∧ c.isDigit = false ∧ c ≠ '.'

instance (text : String) : Decidable (Closes text) := Option.decidableForallMem text.toList.getLast?

/-- The text keeps what stands on both sides of it apart. -/
def Separates (text : String) : Prop :=
  text ≠ "" ∧ Halfless text ∧ Opens text ∧ Closes text

instance (text : String) : Decidable (Separates text) :=
  inferInstanceAs (Decidable (_ ∧ _ ∧ _ ∧ _))

/-- No half precision is mentioned in the text, nor where it meets what comes after it. -/
structure Shut (text : String) : Prop where
  halfless : Halfless text
  closes : Closes text

variable {text first second separator : String}

theorem Halfless.append (hfirst : Halfless first) (hsecond : Halfless second)
    (h : Closes first ∨ Opens second) : Halfless (first ++ second) := by
  unfold Halfless
  rw [String.toList_append, List.isChain_append]
  refine ⟨hfirst, hsecond, fun c hc d hd ↦ ?_⟩
  rcases h with h | h
  · obtain ⟨hf, hdigit, hpoint⟩ := h c hc
    refine ⟨fun heq ↦ hf heq.1, ?_⟩
    rintro ⟨hleft | hleft, -⟩
    · rw [hdigit] at hleft
      cases hleft
    · exact hpoint hleft
  · obtain ⟨hone, hhalf⟩ := h d hd
    exact ⟨fun heq ↦ hone heq.2, fun heq ↦ hhalf heq.2⟩

theorem closes_append (hfirst : second = "" → Closes first) (hsecond : Closes second) :
    Closes (first ++ second) := by
  intro c hc
  rw [String.toList_append, List.getLast?_append] at hc
  cases hlast : second.toList.getLast? with
  | none =>
    rw [hlast, Option.none_or] at hc
    exact hfirst (String.toList_eq_nil_iff.mp (List.getLast?_eq_none_iff.mp hlast)) c hc
  | some last =>
    rw [hlast, Option.some_or] at hc
    exact hsecond c (hlast.trans hc)

namespace Shut

theorem followed (hfirst : Shut first) (hsecond : Halfless second) : Halfless (first ++ second) :=
  hfirst.halfless.append hsecond (.inl hfirst.closes)

theorem append (hfirst : Shut first) (hsecond : Shut second) : Shut (first ++ second) :=
  ⟨hfirst.followed hsecond.halfless, closes_append (fun _ ↦ hfirst.closes) hsecond.closes⟩

end Shut

theorem Separates.shut (h : Separates separator) : Shut separator := ⟨h.2.1, h.2.2.2⟩

/-- A text is shut off by a separator. -/
theorem Halfless.shut (h : Halfless text) (hseparator : Separates separator) :
    Shut (text ++ separator) :=
  ⟨h.append hseparator.2.1 (.inr hseparator.2.2.1),
    closes_append (fun heq ↦ absurd heq hseparator.1) hseparator.2.2.2⟩

/-- A text between two others that keep to themselves. -/
theorem Halfless.enclosed (h : Halfless text) (hfirst : Shut first)
    (hseparator : Separates separator) : Shut (first ++ text ++ separator) :=
  (hfirst.followed h).shut hseparator

theorem halfless_intercalate {texts : List String} (hseparator : Separates separator)
    (h : ∀ text ∈ texts, Halfless text) : Halfless (separator.intercalate texts) := by
  induction texts with
  | nil => exact .nil
  | cons first rest ih =>
    have hfirst := h first List.mem_cons_self
    have hrest := ih fun text hmem ↦ h text (List.mem_cons_of_mem first hmem)
    cases rest with
    | nil => simpa using hfirst
    | cons second rest =>
      rw [String.intercalate_cons_cons]
      exact (hfirst.shut hseparator).followed hrest

theorem shut_join {texts : List String} (h : ∀ text ∈ texts, Shut text) :
    Shut (String.join texts) := by
  induction texts with
  | nil => exact ⟨by decide, by decide⟩
  | cons first rest ih =>
    rw [String.join_cons]
    exact (h first List.mem_cons_self).append
      (ih fun text hmem ↦ h text (List.mem_cons_of_mem first hmem))

/-- Numbers are written without letters. -/
theorem halfless_toString (n : Int) : Halfless (toString n) := by
  have hdigits (n : Nat) : Halfless n.repr := by
    unfold Halfless
    rw [Nat.toList_repr]
    refine (List.pairwise_of_forall_mem_list fun c hc d hd ↦ ?_).isChain
    have hc := Nat.isDigit_of_mem_toDigits (by decide) (by decide) hc
    have hd := Nat.isDigit_of_mem_toDigits (by decide) (by decide) hd
    refine ⟨?_, ?_⟩
    · rintro ⟨rfl, -⟩
      exact absurd hc (by decide)
    · rintro ⟨-, rfl⟩
      exact absurd hd (by decide)
  rw [Int.toString_eq_repr, Int.repr_eq_if]
  split
  · exact hdigits _
  · exact Shut.followed (Separates.shut (by decide)) (hdigits _)

/-! ### Expressions -/

namespace Expression

mutual

/-- No half precision is mentioned by the words of the expression. -/
def Plain : Expression → Prop
  | .name identifier => Halfless identifier
  | .word _ => True
  | .hexWord width n => Halfless ("0x" ++ String.ofList (Text.hex width n) ++ "u")
  | .literal text => Halfless text
  | .binary symbol left right => Halfless symbol ∧ Plain left ∧ Plain right
  | .group inner => Plain inner
  | .call function arguments => Halfless function ∧ AllPlain arguments
  | .index array position => Halfless array ∧ Plain position
  | .member whole field => Plain whole ∧ Halfless field ∧ Opens field
  | .pointer array => Halfless array

def AllPlain : List Expression → Prop
  | [] => True
  | first :: rest => Plain first ∧ AllPlain rest

end

mutual

def decidablePlain : (expression : Expression) → Decidable expression.Plain
  | .name identifier => inferInstanceAs (Decidable (Halfless identifier))
  | .word _ => isTrue trivial
  | .hexWord _ _ => inferInstanceAs (Decidable (Halfless _))
  | .literal text => inferInstanceAs (Decidable (Halfless text))
  | .binary _ left right =>
    have := decidablePlain left
    have := decidablePlain right
    inferInstanceAs (Decidable (_ ∧ _ ∧ _))
  | .group inner => decidablePlain inner
  | .call _ arguments =>
    have := decidableAllPlain arguments
    inferInstanceAs (Decidable (_ ∧ _))
  | .index _ position =>
    have := decidablePlain position
    inferInstanceAs (Decidable (_ ∧ _))
  | .member whole _ =>
    have := decidablePlain whole
    inferInstanceAs (Decidable (_ ∧ _ ∧ _))
  | .pointer array => inferInstanceAs (Decidable (Halfless array))

def decidableAllPlain : (expressions : List Expression) → Decidable (AllPlain expressions)
  | [] => isTrue trivial
  | first :: rest =>
    have := decidablePlain first
    have := decidableAllPlain rest
    inferInstanceAs (Decidable (_ ∧ _))

end

instance (expression : Expression) : Decidable expression.Plain := decidablePlain expression

theorem allPlain_iff {expressions : List Expression} :
    AllPlain expressions ↔ ∀ expression ∈ expressions, expression.Plain := by
  induction expressions with
  | nil => exact ⟨fun _ ↦ nofun, fun _ ↦ trivial⟩
  | cons first rest ih => rw [AllPlain, ih, List.forall_mem_cons]

mutual

theorem halfless_text (expression : Expression) (h : expression.Plain) :
    Halfless expression.text := by
  cases expression with
  | name identifier => exact h
  | word n => exact ((halfless_toString n).shut (by decide)).halfless
  | hexWord width n => exact h
  | literal text => exact h
  | binary symbol left right =>
    obtain ⟨hsymbol, hleft, hright⟩ := h
    exact (hsymbol.enclosed ((halfless_text left hleft).shut (by decide))
      (by decide)).followed (halfless_text right hright)
  | group inner =>
    exact ((halfless_text inner h).enclosed (Separates.shut (by decide)) (by decide)).halfless
  | call function arguments =>
    obtain ⟨hfunction, harguments⟩ := h
    have hlist := halfless_intercalate (by decide : Separates ", ")
      (halfless_texts arguments harguments)
    exact (hlist.enclosed (hfunction.shut (by decide)) (by decide)).halfless
  | index array position =>
    obtain ⟨harray, hposition⟩ := h
    exact ((halfless_text position hposition).enclosed (harray.shut (by decide))
      (by decide)).halfless
  | member whole field =>
    obtain ⟨hwhole, hfield, hopens⟩ := h
    have hpoint := (halfless_text whole hwhole).append (by decide : Halfless ".") (.inr (by decide))
    exact hpoint.append hfield (.inr hopens)
  | pointer array => exact Shut.followed (Separates.shut (by decide)) h

theorem halfless_texts (expressions : List Expression) (h : AllPlain expressions) :
    ∀ text ∈ texts expressions, Halfless text := by
  cases expressions with
  | nil => exact nofun
  | cons first rest =>
    intro text hmem
    rcases List.mem_cons.mp hmem with rfl | hmem
    · exact halfless_text first h.1
    · exact halfless_texts rest h.2 text hmem

end

end Expression

/-! ### Statements -/

theorem halfless_indent (depth : Nat) {line : String} (h : Halfless line) :
    Halfless (indent depth line) := by
  have hblank : ∀ c ∈ List.replicate (4 * depth) ' ', c = ' ' := fun c ↦ List.eq_of_mem_replicate
  refine Shut.followed ⟨?_, ?_⟩ h
  · unfold Halfless
    rw [String.toList_ofList]
    refine (List.pairwise_of_forall_mem_list fun c hc d hd ↦ ?_).isChain
    rw [hblank c hc, hblank d hd]
    decide
  · intro c hc
    rw [String.toList_ofList] at hc
    rw [hblank c (List.mem_of_getLast? hc)]
    decide

theorem halfless_typed {name : String} {type : Option String} (hname : Halfless name)
    (htype : ∀ text ∈ type, Halfless text) : Halfless (typed name type) := by
  cases type with
  | none => exact hname
  | some text => exact (hname.shut (by decide)).followed (htype text rfl)

namespace Statement

mutual

/-- No half precision is mentioned by the words of the statement. -/
def Plain : Statement → Prop
  | .blank => True
  | .define name type value => Halfless name ∧ (∀ text ∈ type, Halfless text) ∧ value.Plain
  | .declare name type value => Halfless name ∧ (∀ text ∈ type, Halfless text) ∧ value.Plain
  | .assign target value => target.Plain ∧ value.Plain
  | .update symbol target value => Halfless symbol ∧ target.Plain ∧ value.Plain
  | .discard value => value.Plain
  | .stop condition => condition.Plain
  | .branch condition body => condition.Plain ∧ AllPlain body
  | .loop counter first condition next body =>
    Halfless counter ∧ first.Plain ∧ condition.Plain ∧ next.Plain ∧ AllPlain body
  | .run call => call.Plain
  | .result value => value.Plain

def AllPlain : List Statement → Prop
  | [] => True
  | first :: rest => Plain first ∧ AllPlain rest

end

mutual

def decidablePlain : (statement : Statement) → Decidable statement.Plain
  | .blank => isTrue trivial
  | .define .. => inferInstanceAs (Decidable (_ ∧ _ ∧ _))
  | .declare .. => inferInstanceAs (Decidable (_ ∧ _ ∧ _))
  | .assign .. => inferInstanceAs (Decidable (_ ∧ _))
  | .update .. => inferInstanceAs (Decidable (_ ∧ _ ∧ _))
  | .discard value => inferInstanceAs (Decidable value.Plain)
  | .stop condition => inferInstanceAs (Decidable condition.Plain)
  | .branch _ body =>
    have := decidableAllPlain body
    inferInstanceAs (Decidable (_ ∧ _))
  | .loop _ _ _ _ body =>
    have := decidableAllPlain body
    inferInstanceAs (Decidable (_ ∧ _ ∧ _ ∧ _ ∧ _))
  | .run call => inferInstanceAs (Decidable call.Plain)
  | .result value => inferInstanceAs (Decidable value.Plain)

def decidableAllPlain : (body : List Statement) → Decidable (AllPlain body)
  | [] => isTrue trivial
  | first :: rest =>
    have := decidablePlain first
    have := decidableAllPlain rest
    inferInstanceAs (Decidable (_ ∧ _))

end

instance (statement : Statement) : Decidable statement.Plain := decidablePlain statement

instance (body : List Statement) : Decidable (AllPlain body) := decidableAllPlain body

theorem allPlain_iff {body : List Statement} :
    AllPlain body ↔ ∀ statement ∈ body, statement.Plain := by
  induction body with
  | nil => exact ⟨fun _ ↦ nofun, fun _ ↦ trivial⟩
  | cons first rest ih => rw [AllPlain, ih, List.forall_mem_cons]

mutual

theorem halfless_lines (depth : Nat) (statement : Statement) (h : statement.Plain) :
    ∀ line ∈ lines depth statement, Halfless line := by
  -- Most statements are one line, which ends in a semicolon or a bracket.
  have hone {line : String} (hline : Shut line) :
      ∀ found ∈ [indent depth line], Halfless found := by
    intro found hmem
    rw [List.mem_singleton.mp hmem]
    exact halfless_indent depth hline.halfless
  have hblock {opening : String} {body : List Statement} (hopening : Shut opening)
      (hbody : ∀ line ∈ block (depth + 1) body, Halfless line) :
      ∀ line ∈ indent depth opening :: block (depth + 1) body ++ [indent depth "\x7d"],
        Halfless line := by
    intro line hmem
    rcases List.mem_append.mp hmem with hmem | hmem
    · rcases List.mem_cons.mp hmem with rfl | hmem
      · exact halfless_indent depth hopening.halfless
      · exact hbody line hmem
    · exact hone (Separates.shut (by decide)) line hmem
  cases statement with
  | blank =>
    intro line hmem
    rw [List.mem_singleton.mp hmem]
    decide
  | define name type value =>
    obtain ⟨hname, htype, hvalue⟩ := h
    exact hone (value.halfless_text hvalue |>.enclosed
      ((halfless_typed hname htype).enclosed (Separates.shut (by decide)) (by decide)) (by decide))
  | declare name type value =>
    obtain ⟨hname, htype, hvalue⟩ := h
    exact hone (value.halfless_text hvalue |>.enclosed
      ((halfless_typed hname htype).enclosed (Separates.shut (by decide)) (by decide)) (by decide))
  | assign target value =>
    exact hone ((value.halfless_text h.2).enclosed ((target.halfless_text h.1).shut (by decide))
      (by decide))
  | update symbol target value =>
    obtain ⟨hsymbol, htarget, hvalue⟩ := h
    exact hone ((value.halfless_text hvalue).enclosed
      (hsymbol.enclosed ((target.halfless_text htarget).shut (by decide)) (by decide)) (by decide))
  | discard value =>
    exact hone ((value.halfless_text h).enclosed (Separates.shut (by decide)) (by decide))
  | stop condition =>
    exact hone ((condition.halfless_text h).enclosed (Separates.shut (by decide)) (by decide))
  | branch condition body =>
    exact hblock ((condition.halfless_text h.1).enclosed (Separates.shut (by decide)) (by decide))
      (halfless_block (depth + 1) body h.2)
  | loop counter first condition next body =>
    obtain ⟨hcounter, hfirst, hcondition, hnext, hbody⟩ := h
    have hstart := (first.halfless_text hfirst).enclosed
      (hcounter.enclosed (Separates.shut (by decide : Separates "for(var "))
        (by decide : Separates ": u32 = "))
      (by decide : Separates "; ")
    have htest := (condition.halfless_text hcondition).enclosed hstart (by decide : Separates "; ")
    exact hblock ((next.halfless_text hnext).enclosed
      (hcounter.enclosed htest (by decide : Separates " = ")) (by decide))
      (halfless_block (depth + 1) body hbody)
  | run call => exact hone ((call.halfless_text h).shut (by decide))
  | result value =>
    exact hone ((value.halfless_text h).enclosed (Separates.shut (by decide)) (by decide))

theorem halfless_block (depth : Nat) (body : List Statement) (h : AllPlain body) :
    ∀ line ∈ block depth body, Halfless line := by
  cases body with
  | nil => exact nofun
  | cons first rest =>
    intro line hmem
    rcases List.mem_append.mp hmem with hmem | hmem
    · exact halfless_lines depth first h.1 line hmem
    · exact halfless_block depth rest h.2 line hmem

end

end Statement

/-! ### Items -/

/-- No half precision is mentioned by the words of the function. -/
def Function.Plain (function : Function) : Prop :=
  Halfless function.name ∧
    (∀ parameter ∈ function.parameters, Halfless parameter.1 ∧ Halfless parameter.2) ∧
    (∀ type ∈ function.result, Halfless type) ∧ Statement.AllPlain function.body

instance (function : Function) : Decidable function.Plain :=
  inferInstanceAs (Decidable (_ ∧ _ ∧ _ ∧ _))

/-- No half precision is mentioned by the words of the item. -/
def Item.Plain : Item → Prop
  | .blank => True
  | .halfPrecision => False
  | .array _ _ name elements => Halfless name ∧ Halfless elements
  | .parameter name type => Halfless name ∧ Halfless type
  | .constant name type value => Halfless name ∧ Halfless type ∧ value.Plain
  | .function definition => definition.Plain
  | .lanes _ body => Statement.AllPlain body
  | .single body => Statement.AllPlain body

instance (item : Item) : Decidable item.Plain :=
  match item with
  | .blank => isTrue trivial
  | .halfPrecision => isFalse id
  | .array .. => inferInstanceAs (Decidable (_ ∧ _))
  | .parameter .. => inferInstanceAs (Decidable (_ ∧ _))
  | .constant .. => inferInstanceAs (Decidable (_ ∧ _ ∧ _))
  | .function definition => inferInstanceAs (Decidable definition.Plain)
  | .lanes _ body => inferInstanceAs (Decidable (Statement.AllPlain body))
  | .single body => inferInstanceAs (Decidable (Statement.AllPlain body))

theorem Function.halfless_lines {function : Function} (h : function.Plain) :
    ∀ line ∈ function.lines, Halfless line := by
  obtain ⟨hname, hparameters, hresult, hbody⟩ := h
  have hlist : Halfless (", ".intercalate
      (function.parameters.map fun parameter ↦ parameter.1 ++ ": " ++ parameter.2)) := by
    refine halfless_intercalate (by decide) fun text hmem ↦ ?_
    obtain ⟨parameter, hparameter, rfl⟩ := List.mem_map.mp hmem
    obtain ⟨hname, htype⟩ := hparameters parameter hparameter
    exact (hname.shut (by decide)).followed htype
  have hhead := hlist.enclosed (hname.enclosed (Separates.shut (by decide : Separates "fn "))
    (by decide : Separates "(")) (by decide : Separates ")")
  intro line hmem
  unfold Function.lines at hmem
  rcases List.mem_append.mp hmem with hmem | hmem
  · rcases List.mem_cons.mp hmem with rfl | hmem
    · cases hfound : function.result with
      | none => exact hhead.followed (by decide)
      | some type =>
        have harrow := (hresult type hfound).enclosed
          (Separates.shut (by decide : Separates " -> ")) (by decide : Separates " \x7b")
        exact hhead.followed harrow.halfless
    · exact Statement.halfless_block 1 function.body hbody line hmem
  · rw [List.mem_singleton.mp hmem]
    decide

theorem Item.halfless_lines {item : Item} (h : item.Plain) :
    ∀ line ∈ item.lines, Halfless line := by
  intro line hmem
  cases item with
  | blank =>
    rw [List.mem_singleton.mp hmem]
    decide
  | halfPrecision => exact h.elim
  | array slot access name elements =>
    have hslot : Halfless (slotText slot) := by
      cases slot with
      | none => decide
      | some n => exact halfless_toString n
    have haccess : Halfless access.text := by cases access <;> decide
    rcases List.mem_cons.mp hmem with rfl | hmem
    · exact (hslot.enclosed (Separates.shut (by decide)) (by decide)).halfless
    · rw [List.mem_singleton.mp hmem]
      have hopened := haccess.enclosed
        (Separates.shut (by decide : Separates "var<storage, ")) (by decide : Separates "> ")
      exact (h.2.enclosed (h.1.enclosed hopened (by decide)) (by decide)).halfless
  | parameter name type =>
    rw [List.mem_singleton.mp hmem]
    exact (h.2.enclosed (h.1.enclosed (Separates.shut (by decide)) (by decide))
      (by decide)).halfless
  | constant name type value =>
    rw [List.mem_singleton.mp hmem]
    obtain ⟨hname, htype, hvalue⟩ := h
    exact ((value.halfless_text hvalue).enclosed (htype.enclosed
      (hname.enclosed (Separates.shut (by decide)) (by decide)) (by decide)) (by decide)).halfless
  | function definition => exact Function.halfless_lines h line hmem
  | lanes size body =>
    have hhead := (halfless_toString size).enclosed
      (Separates.shut (by decide : Separates "@compute @workgroup_size("))
      (by decide : Separates ")")
    rcases List.mem_append.mp hmem with hmem | hmem
    · rcases List.mem_append.mp hmem with hmem | hmem
      · rcases List.mem_cons.mp hmem with rfl | hmem
        · exact hhead.halfless
        · exact (by decide : ∀ line ∈ _, Halfless line) line hmem
      · exact Statement.halfless_block 1 body h line hmem
    · exact (by decide : ∀ line ∈ _, Halfless line) line hmem
  | single body =>
    rcases List.mem_append.mp hmem with hmem | hmem
    · rcases List.mem_append.mp hmem with hmem | hmem
      · exact (by decide : ∀ line ∈ _, Halfless line) line hmem
      · exact Statement.halfless_block 1 body h line hmem
    · exact (by decide : ∀ line ∈ _, Halfless line) line hmem

/-- The source of a kernel mentions no half precision if the words of its items do not. -/
theorem halfless_source {kernel : Kernel} (h : ∀ item ∈ kernel.items, item.Plain) :
    Halfless kernel.source := by
  refine (shut_join fun text hmem ↦ ?_).halfless
  obtain ⟨line, hline, rfl⟩ := List.mem_map.mp hmem
  obtain ⟨item, hitem, hline⟩ := List.mem_flatMap.mp hline
  exact (Item.halfless_lines (h item hitem) line hline).shut (by decide)

end ComputeArray.Kernel
