import ComputeArray.Element.Basic

/-!
# Host memory

A host grants memory for a table if a machine word can count its extents, its elements and their
bytes, and if the bytes stay below a limit.
-/

set_option autoImplicit false

namespace ComputeArray

/-- The bytes a host grants at most. -/
def hostLimit : Nat := twoTo 37

namespace ElementType

/-- The bytes of a table, if a machine word can count them. -/
def tableBytes (element : ElementType) (shape : List Nat) : Except Failure Nat := do
  let bytes := shape.foldr (· * ·) 1 * element.size
  if shape.any fun extent => !Word.holdsSigned 64 extent then throw .dimensionTooLarge
  if !Word.holdsSigned 64 bytes then throw .sizeTooLarge
  return bytes

/-- Refuses more bytes than the host has for a table. -/
def grant (element : ElementType) (shape : List Nat) (bytes : Nat) : Except Failure Unit :=
  if hostLimit < bytes then .error (.outOfMemory bytes shape element.cells) else .ok ()

/-- The bytes granted for a table. -/
def hostBytes (element : ElementType) (shape : List Nat) : Except Failure Nat := do
  let bytes ← element.tableBytes shape
  element.grant shape bytes
  return bytes

end ElementType

end ComputeArray
