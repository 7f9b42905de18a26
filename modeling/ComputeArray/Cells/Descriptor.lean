import ComputeArray.Cells.Kind

/-!
# Descriptors of cells

A descriptor tells how cells lie in memory: cells of one kind in native or swapped byte order, a
block of equal cells with extents of its own, or a record of fields that are named by their
positions.
-/

set_option autoImplicit false

namespace ComputeArray

inductive Descriptor where
  | cells (kind : CellKind) (swapped : Bool)
  | block (base : Descriptor) (extents : List Nat)
  | record (fields : List Descriptor)
  deriving Inhabited

namespace Descriptor

/-- Numbers between parentheses, a single one followed by a comma. -/
def tuple (ns : List Nat) : String :=
  match ns with
  | [n] => s!"({n},)"
  | ns => "(" ++ ", ".intercalate (ns.map toString) ++ ")"

def quote (text : String) : String := "'" ++ text ++ "'"

/-- The code of cells with a mark for the order of their bytes. -/
def markedCode (kind : CellKind) (swapped : Bool) : String :=
  if !kind.isOrdered then kind.code else (if swapped then ">" else "<") ++ kind.code

mutual

/-- The form a descriptor has inside another one. -/
def inner : Descriptor → String
  | .cells kind swapped => quote (markedCode kind swapped)
  | .block base extents => "(" ++ inner base ++ ", " ++ tuple extents ++ ")"
  | .record fields => "[" ++ ", ".intercalate (innerFields 0 fields) ++ "]"

def innerFields (position : Nat) : List Descriptor → List String
  | [] => []
  | field :: rest =>
    (match field with
      | .block base extents => s!"('f{position}', " ++ inner base ++ ", " ++ tuple extents ++ ")"
      | field => s!"('f{position}', " ++ inner field ++ ")")
      :: innerFields (position + 1) rest

end

/-- The text in messages. -/
def shown : Descriptor → String
  | .cells kind swapped =>
    "dtype(" ++ quote (if swapped then markedCode kind true else kind.shown) ++ ")"
  | descriptor => "dtype(" ++ descriptor.inner ++ ")"

/-- The bare text. -/
def plain : Descriptor → String
  | .cells kind swapped => if swapped then markedCode kind true else kind.name
  | descriptor => descriptor.inner

/-- The word for the kind of cells described. -/
def family : Descriptor → String
  | .cells kind _ => kind.family
  | _ => "Void"

/-- Whether the length of the cells is still open. -/
def isOpen : Descriptor → Bool
  | .cells kind _ => kind.isOpen
  | _ => false

mutual

/-- The bytes of one cell, block or record. -/
def size : Descriptor → Nat
  | .cells kind _ => kind.size
  | .block base extents => size base * extents.foldr (· * ·) 1
  | .record fields => sizes fields

def sizes : List Descriptor → Nat
  | [] => 0
  | field :: rest => size field + sizes rest

end

/-- Swaps the order of bytes of cells that have one. -/
def swap : Descriptor → Descriptor
  | .cells kind _ => .cells kind kind.isOrdered
  | descriptor => descriptor

/-- The kind of the cells of a table. Cells of swapped order are a variant of the native ones. -/
def tableKind? : Descriptor → Option CellKind
  | .cells kind false => some kind
  | .cells kind true =>
    let code := markedCode kind true
    some (.variant kind.native ⟨code, code, code, kind.family, kind.size⟩)
  | _ => none

/-- Settles the length of cells that leave it open. -/
def withLength (length : Nat) : Descriptor → Descriptor
  | .cells (.text _) swapped => .cells (.text length) swapped
  | .cells (.bytes _) swapped => .cells (.bytes length) swapped
  | .cells (.foreign _) swapped =>
    let code := s!"V{length}"
    .cells (.foreign ⟨code, "|" ++ code, code, "Void", length⟩) swapped
  | descriptor => descriptor

end Descriptor

end ComputeArray
