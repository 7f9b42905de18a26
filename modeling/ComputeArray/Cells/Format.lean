import ComputeArray.Cells.Code
import ComputeArray.Failure

/-!
# Formats of cells

A text describes cells by a code or a name, or by items separated by commas, each a code that may
have a repeat count and marks of the byte order on either side of the count. A text is read as items
if it begins with a count or has a comma outside brackets. Several items describe a record, and so
does a single one with a comma after it; counts other than one make blocks.
-/

set_option autoImplicit false

namespace ComputeArray

/-- One item of a format. -/
structure FormatItem where
  firstMark : List Char
  counts : List Char
  secondMark : List Char
  code : List Char

namespace FormatItem

def isMark (c : Char) : Bool := c = '<' || c = '>' || c = '|' || c = '='

/-- The first character if it satisfies the condition, and the rest. -/
def takeOne (condition : Char → Bool) : List Char → List Char × List Char
  | c :: rest => if condition c then ([c], rest) else ([], c :: rest)
  | [] => ([], [])

def takeAll (condition : Char → Bool) (cs : List Char) : List Char × List Char :=
  (cs.takeWhile condition, cs.dropWhile condition)

/-- Counts with the blanks and parentheses around them. -/
def takeCounts (cs : List Char) : List Char × List Char :=
  let (before, cs) := takeAll (· = ' ') cs
  let (opening, cs) := takeOne (· = '(') cs
  let (counts, cs) := takeAll (fun c => c = ' ' || c = ',' || c.isDigit) cs
  let (closing, cs) := takeOne (· = ')') cs
  let (after, cs) := takeAll (· = ' ') cs
  (before ++ opening ++ counts ++ closing ++ after, cs)

/-- A code, to which a part between brackets belongs if it is closed. -/
def takeCode (cs : List Char) : List Char × List Char :=
  let (code, rest) := takeAll (fun c => c.isAlphanum || c = '.' || c = '?') cs
  match rest with
  | '[' :: inside =>
    let (unit, after) := takeAll (fun c => c.isAlphanum || c = '.' || c = ',') inside
    match after with
    | ']' :: after => (code ++ '[' :: unit ++ [']'], after)
    | _ => (code, rest)
  | _ => (code, rest)

/-- The item a text begins with, which may be empty, and the rest. -/
def take (cs : List Char) : FormatItem × List Char :=
  let (firstMark, cs) := takeOne isMark cs
  let (counts, cs) := takeCounts cs
  let (secondMark, cs) := takeOne isMark cs
  let (code, cs) := takeCode cs
  (⟨firstMark, counts, secondMark, code⟩, cs)

/-- What follows the comma after an item, with whether there is one; only blanks may follow an item
otherwise. -/
def separator? (cs : List Char) : Option (Bool × List Char) :=
  match cs.dropWhile Text.isBlank with
  | [] => some (false, [])
  | ',' :: rest => some (true, rest.dropWhile Text.isBlank)
  | _ => none

/-- The native mark written out. -/
def plainMark (mark : List Char) : List Char := if mark = ['='] then ['<'] else mark

/-- The code of the item with the mark that counts, native marks left out. -/
def markedCode (item : FormatItem) : Except Failure (List Char) := do
  let mark ←
    match item.firstMark, item.secondMark with
    | first, [] => pure first
    | [], second => pure second
    | first, second =>
      let first := plainMark first
      let second := plainMark second
      if first ≠ second then
        throw (.byteOrders (String.ofList first) (String.ofList second))
      pure first
  return (if mark = ['>'] then mark else []) ++ item.code

/-- The counts of the item, if it has any. -/
def repeat? (item : FormatItem) : Except Failure (Option Repeat) :=
  if item.counts.isEmpty then .ok none
  else
    match Repeat.read item.counts with
    | .ok counts => .ok (some counts)
    | .error fault => .error (.malformedRepeat fault)

/-- The items of a text from the given position on, as codes with counts, and whether there is a
comma. Each item takes at least one character. -/
def readAll (text : String) : Nat → Nat → List Char →
    Except Failure (List (List Char × Option Repeat) × Bool)
  | 0, _, _ => .ok ([], false)
  | _, _, [] => .ok ([], false)
  | fuel + 1, position, cs => do
    let (item, rest) := take cs
    match separator? rest with
    | none => throw (.unreadableItem position text)
    | some (comma, rest) =>
      let code ← item.markedCode
      let counts ← item.repeat?
      let (items, more) ← readAll text fuel (position + 1) rest
      return ((code, counts) :: items, comma || more)

end FormatItem

namespace Descriptor

/-- Whether a comma lies outside all brackets; `depth` counts the open ones. -/
def hasComma (depth : Int) : List Char → Bool
  | [] => false
  | ',' :: rest => depth = 0 || hasComma depth rest
  | '[' :: rest => hasComma (depth + 1) rest
  | ']' :: rest => hasComma (depth - 1) rest
  | _ :: rest => hasComma depth rest

def startsWithDigit : List Char → Bool
  | c :: _ => c.isDigit
  | [] => false

def startsEmpty : List Char → Bool
  | '(' :: ')' :: _ => true
  | _ => false

/-- Whether a text begins with a count: a digit or empty parentheses, perhaps after a mark of the
byte order. Nothing but a mark and parentheses is no count. -/
def isCounted (cs : List Char) : Bool :=
  let marked := (cs.take 1).any FormatItem.isMark
  let rest := cs.drop 1
  startsWithDigit cs || startsEmpty cs
    || (marked && (startsWithDigit rest || (startsEmpty rest && 2 < rest.length)))

/-- Whether a text is read as items. -/
def isFormat (cs : List Char) : Bool := isCounted cs || hasComma 0 cs

/-- The largest extent and the largest number of bytes of a block. -/
def blockLimit : Nat := twoTo 31 - 1

/-- A block of the given extents. -/
def blockOf (base : Descriptor) (extents : List Nat) : Except Failure Descriptor := do
  if 64 < extents.length ∨ extents.any (twoTo 63 ≤ ·) then throw .blockExtents
  if extents.any (blockLimit < ·) then throw .blockExtentTooLarge
  let cells := extents.foldr (· * ·) 1
  if blockLimit < cells ∨ blockLimit < cells * base.size then throw .blockTooLarge
  return .block base extents

/-- A descriptor with a repeat count. Where the length is open, a count is the length. -/
def repeated (base : Descriptor) : Repeat → Except Failure Descriptor
  | .count n =>
    if base.isOpen then
      if blockLimit < n then .error .openCells else .ok (base.withLength n)
    else if n = 1 then .ok base
    else blockOf base [n]
  | .extents [] => if base.isOpen then .error .openCells else .ok base
  | .extents extents => if base.isOpen then .error .openCells else blockOf base extents

/-- The first item that describes nothing makes the whole describe nothing. -/
def ofItems (read : List Char → Except Failure (Option Descriptor)) :
    List (List Char × Option Repeat) → Except Failure (Option (List Descriptor))
  | [] => .ok (some [])
  | (code, counts) :: rest => do
    match ← read code, counts with
    | none, _ => return none
    | some base, none => return (← ofItems read rest).map (base :: ·)
    | some base, some counts =>
      let field ← base.repeated counts
      return (← ofItems read rest).map (field :: ·)

/-- Reads a text as nested items, as deep as the fuel allows. -/
def read : Nat → List Char → Except Failure (Option Descriptor)
  | 0, _ => .ok none
  | fuel + 1, cs => do
    if !isFormat cs then return ofCode? cs
    let (items, isRecord) ← FormatItem.readAll (String.ofList cs) cs.length 1 cs
    match ← ofItems (read fuel) items, isRecord with
    | some [single], false => return some single
    | some fields, _ => return some (.record fields)
    | none, _ => return none

/-- The descriptor a text stands for, none if it stands for nothing. The code inside an item is
shorter than the item, so the length of the text is fuel enough. -/
def ofText? (text : String) : Except Failure (Option Descriptor) :=
  read (text.length + 1) text.toList

end Descriptor

end ComputeArray
