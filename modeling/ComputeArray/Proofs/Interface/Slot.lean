import ComputeArray.Proofs.Memory.Pass

/-!
# Slots of passes

What a kernel declares and what a pass binds have to agree slot by slot: the number, the access, the
type of the elements, and the name under which the kernel finds what stands there. A pass presents
slots if its kernel declares them one after the other (`Dispatch.Presents`); the layout of its
command then admits in each slot just the access that is declared for it.
-/

set_option autoImplicit false

namespace ComputeArray

/-! ### Declarations -/

namespace Kernel

/-- An array as it is declared. -/
structure Declaration where
  slot : Option Int
  access : Access
  name : String
  elements : String

/-- The array an item declares. -/
def Item.declaration? : Item → Option Declaration
  | .array slot access name elements => some ⟨slot, access, name, elements⟩
  | _ => none

/-- The override constant an item declares, with its type. -/
def Item.override? : Item → Option (String × String)
  | .parameter name type => some (name, type)
  | _ => none

@[simp] theorem declaration?_preamble (operands : List Operand) :
    (preamble operands).declaration? = none := by
  unfold preamble
  split <;> rfl

@[simp] theorem override?_preamble (operands : List Operand) :
    (preamble operands).override? = none := by
  unfold preamble
  split <;> rfl

end Kernel

namespace Kernel

/-- The arrays a kernel declares, in the order of its text. -/
def declarations (kernel : Kernel) : List Declaration := kernel.items.filterMap Item.declaration?

/-- The override constants a kernel declares, with their types. -/
def overrides (kernel : Kernel) : List (String × String) := kernel.items.filterMap Item.override?

end Kernel

/-! ### Slots -/

/-- What stands in a slot of a pass: the name a kernel has for it, what is bound there, how it is
accessed, and the type of its elements. -/
structure Slot where
  name : String
  resource : Resource
  mode : Mode
  elements : String

namespace Slot

/-- An array, with elements of its type. -/
def ofArray (arrays : Nat → ArrayState) (name : String) (buffer : Nat) (mode : Mode) : Slot :=
  ⟨name, .array buffer, mode, (arrays buffer).element.name⟩

/-- The strides of an operand, which are words. -/
def ofStrides (operand : String) (buffer : Nat) : Slot :=
  ⟨Kernel.Elementwise.stridesName operand, .plain buffer, .read, "u32"⟩

/-- The streams of a generator: an array of words that is read by fours. -/
def ofStreams (buffer : Nat) : Slot := ⟨"state", .array buffer, .readWrite, "vec4<u32>"⟩

def binding (slot : Slot) : Resource × Mode := (slot.resource, slot.mode)

def access (slot : Slot) : Kernel.Access := if slot.mode = .read then .read else .readWrite

/-- The declaration of what stands in the slot with a number. -/
def declaration (slot : Slot) (number : Nat) : Kernel.Declaration :=
  ⟨some (number : Int), slot.access, slot.name, slot.elements⟩

/-- The declarations of slots that are numbered from `first` on. -/
def declarations (first : Nat) (slots : List Slot) : List Kernel.Declaration :=
  (slots.zipIdx first).map fun (slot, number) ↦ slot.declaration number

@[simp] theorem declarations_nil (first : Nat) : declarations first [] = [] := rfl

@[simp] theorem declarations_cons (first : Nat) (slot : Slot) (rest : List Slot) :
    declarations first (slot :: rest) =
      slot.declaration first :: declarations (first + 1) rest :=
  rfl

theorem declarations_append (first : Nat) (slots later : List Slot) :
    declarations first (slots ++ later) =
      declarations first slots ++ declarations (first + slots.length) later := by
  rw [declarations, List.zipIdx_append, List.map_append]
  rfl

theorem slots_of_declarations (slots : List Slot) :
    (declarations 0 slots).map Kernel.Declaration.slot =
      (List.range slots.length).map fun number : Nat ↦ some (number : Int) := by
  have hnumbers : slots.zipIdx.map Prod.snd = List.range slots.length := by
    simp [List.range_eq_range']
  rw [← hnumbers, declarations, List.map_map, List.map_map]
  rfl

theorem access_eq_read_iff (slot : Slot) : slot.access = .read ↔ slot.mode = .read := by
  unfold access
  split
  · next h => simp [h]
  · next h => simp [h]

end Slot

/-! ### Layouts -/

/-- The entry of a layout agrees with what a kernel declares: it is that of the slot, kernels see
it, and it admits reads alone exactly if reads alone are declared. -/
structure LayoutEntry.Admits (entry : LayoutEntry) (declaration : Kernel.Declaration) : Prop where
  slot : declaration.slot = some (entry.binding : Int)
  visibility : entry.visibility = computeStage
  type : entry.type = "read-only-storage" ↔ declaration.access = .read

theorem LayoutEntry.admits_ofMode (slot : Slot) (number : Nat) :
    (ofMode number slot.mode).Admits (slot.declaration number) where
  slot := rfl
  visibility := rfl
  type := by
    refine Iff.trans ?_ slot.access_eq_read_iff.symm
    cases slot.mode <;> simp [ofMode]

/-- The entries for the modes of slots agree one by one with the declarations of the slots. -/
theorem forall₂_admits_entriesOf (slots : List Slot) :
    List.Forall₂ LayoutEntry.Admits (entriesOf (slots.map Slot.mode))
      (Slot.declarations 0 slots) := by
  rw [entriesOf, List.mapIdx_eq_zipIdx_map, List.zipIdx_map, List.map_map, Slot.declarations,
    List.forall₂_map_left_iff, List.forall₂_map_right_iff, List.forall₂_same]
  exact fun entry _ ↦ LayoutEntry.admits_ofMode entry.1 entry.2

namespace Dispatch

/-- Whoever encodes the pass, the command binds the slots in their order, runs the kernel, and has a
layout whose entries admit just what the kernel declares. -/
def LaidOut (dispatch : Dispatch) (kernel : Kernel) (slots : List Slot) : Prop :=
  ∀ engine command, engine.FaithfulCaches →
    outcomeOf (Action.encode dispatch) engine = .ok command →
    ∃ pipeline layout buffers groups entries parts,
      command = .dispatch pipeline layout buffers groups ∧
      buffers.map Prod.fst = slots.map (fun slot ↦ slot.resource.buffer) ∧
      numbered (stateAfter (Action.encode dispatch) engine).device.layouts layout = some entries ∧
      List.Forall₂ LayoutEntry.Admits entries kernel.declarations ∧
      numbered (stateAfter (Action.encode dispatch) engine).device.pipelines pipeline =
        some parts ∧
      numbered (stateAfter (Action.encode dispatch) engine).device.modules parts.module =
        some kernel.source

/-- A pass of a kernel that declares exactly the slots bound for it, numbered from zero, each with
its name, its access and the type of its elements, and exactly the constants given to it. -/
structure Presents (dispatch : Dispatch) (kernel : Kernel) (slots : List Slot) : Prop where
  source : dispatch.source = kernel.source
  bindings : dispatch.bindings = slots.map Slot.binding
  declarations : kernel.declarations = Slot.declarations 0 slots
  overrides : kernel.overrides.map Prod.fst = dispatch.constants.map Prod.fst
  layout : dispatch.LaidOut kernel slots

theorem Presents.of_declarations {dispatch : Dispatch} {kernel : Kernel} {slots : List Slot}
    (hsource : dispatch.source = kernel.source)
    (hbindings : dispatch.bindings = slots.map Slot.binding)
    (hdeclarations : kernel.declarations = Slot.declarations 0 slots)
    (hoverrides : kernel.overrides.map Prod.fst = dispatch.constants.map Prod.fst) :
    dispatch.Presents kernel slots where
  source := hsource
  bindings := hbindings
  declarations := hdeclarations
  overrides := hoverrides
  layout engine command hfaithful hencode := by
    obtain ⟨pipeline, layout, buffers, parts, rfl, hbuffers, hlayout, hparts, hmodule⟩ :=
      encodes_of_encode hfaithful hencode
    have hmodes : dispatch.modes = slots.map Slot.mode := by
      rw [Dispatch.modes, hbindings, List.map_map]
      rfl
    refine ⟨pipeline, layout, buffers, _, _, parts, rfl, ?_, hlayout, ?_, hparts,
      hsource ▸ hmodule⟩
    · rw [hbuffers, hbindings, List.map_map]
      rfl
    · rw [hdeclarations, hmodes]
      exact forall₂_admits_entriesOf slots

/-- The numbers declared are those of the bindings, each of them once. -/
theorem Presents.slots_eq {dispatch : Dispatch} {kernel : Kernel} {slots : List Slot}
    (h : dispatch.Presents kernel slots) :
    kernel.declarations.map Kernel.Declaration.slot =
      (List.range dispatch.bindings.length).map fun number : Nat ↦ some (number : Int) := by
  rw [h.declarations, Slot.slots_of_declarations, h.bindings, List.length_map]

end Dispatch

end ComputeArray
