import ComputeArray.Text.Quoted
import ComputeArray.Value.Basic
import ComputeArray.Value.Column

/-!
# Text of tables

The cells of a table are written between nested brackets, numbers and truth values all in the same
width, texts and other values each in its own. A row that is too long for a line continues on the
next one, below its first cell. Of a table with more than a thousand cells only the corners are
written, up to three cells from either end of an axis.
-/

set_option autoImplicit false

namespace ComputeArray.Grid

/-- A table with more cells is written in part. -/
def threshold : Nat := 1000

/-- The cells written from either end of an axis. -/
def edge : Nat := 3

/-- The cells of an axis that are written, or all if there are not many more. -/
def cornerOf {α : Type} (items : List α) : List α :=
  if 2 * edge < items.length then items.take edge ++ items.drop (items.length - edge) else items

/-- Cells in pieces of a size. -/
def pieces {α : Type} (size count : Nat) (cells : List α) : List (List α) :=
  (List.range count).map fun i => (cells.drop (i * size)).take size

/-- The cells at the corners. -/
def corners {α : Type} : List Nat → List α → List α
  | [], cells => cells
  | extent :: rest, cells =>
    (cornerOf (pieces (rest.foldr (· * ·) 1) extent cells)).flatMap (corners rest)

/-- Texts filled up with spaces at their start to the width of the longest. -/
def aligned (texts : List String) : List String :=
  let width := Column.longest (texts.map String.toList)
  texts.map fun text => String.ofList (Column.padStart width ' ' text.toList)

/-- A truth value beside others is as wide as the longer of the two words. -/
def truthTexts (alone : Bool) (cells : List Bool) : List String :=
  cells.map fun cell => if cell then (if alone then "True" else " True") else "False"

/-- Adds a word to a line, on a new line if it does not fit and the line holds a word already. -/
def extend (width : Nat) (indent finished line word : String) : String × String :=
  if width < line.length + word.length ∧ indent.length < line.length then
    (finished ++ line.trimAsciiEnd.toString ++ "\n", indent ++ word)
  else (finished, line ++ word)

/-- The words of a row, separated and broken into lines. -/
def row (separator : String) (width : Nat) (indent : String) :
    String → String → List String → String
  | finished, line, [] => finished ++ line
  | finished, line, [word] =>
    let (finished, line) := extend width indent finished line word
    finished ++ line
  | finished, line, word :: rest =>
    let (finished, line) := extend width indent finished line word
    row separator width indent finished (line ++ separator) rest

/-- The parts of an axis, with a word for those left out in their middle. -/
def withGap (hasGap : Bool) (parts : List String) : List String :=
  if hasGap then parts.take edge ++ "..." :: parts.drop edge else parts

/-- Words between nested brackets. An axis has an extent, and a gap if it is written in part. Tables
of tables are separated by line breaks, one more for each further axis. -/
def nested (separator : String) (words : List String) (width : Nat) (indent : String) :
    List (Nat × Bool) → String
  | [] => words.headD ""
  | [(_, hasGap)] =>
    let text := row separator (width - 1) indent "" indent (withGap hasGap words)
    "[" ++ (text.drop indent.length).toString ++ "]"
  | (extent, hasGap) :: rest =>
    let size := (rest.map Prod.fst).foldr (· * ·) 1
    let parts := (pieces size extent words).map fun words =>
      nested separator words (width - 1) (indent ++ " ") rest
    let breaks := String.ofList (List.replicate rest.length '\n')
    let between := separator.trimAsciiEnd.toString ++ breaks ++ indent
    "[" ++ between.intercalate (withGap hasGap parts) ++ "]"

def isTrue : Value → Bool
  | .int n => n ≠ 0
  | _ => false

def datumOf : Value → FloatDatum
  | .float x => x.datum
  | _ => .nan false FloatDatum.quietBit

def textOf : Value → String
  | .text s => s
  | _ => ""

def integerText : Value → String
  | .int n => toString n
  | _ => ""

/-- The texts of cells beside each other; `texts` are those of cells of the general kind. -/
def cellTexts (kind : CellKind) (alone : Bool) (cells : List Value) (texts : List String) :
    List String :=
  match kind.native with
  | .boolean => truthTexts alone (cells.map isTrue)
  | .float format => Column.texts format (cells.map datumOf)
  | .complex format => (Column.texts format (cells.map datumOf)).map (· ++ "+0.j")
  | .signed _ => aligned (cells.map integerText)
  | .unsigned _ => aligned (cells.map integerText)
  | .text _ => cells.map fun cell => Text.quoted (textOf cell)
  | .bytes _ => cells.map fun cell => "b" ++ Text.quoted (textOf cell)
  | _ => texts

/-- The written part of a table. -/
def body (separator : String) (width : Nat) (indent : String) (kind : CellKind)
    (shape : List Nat) (cells : List Value) (texts : List String) : String :=
  if shape.any (· = 0) then "[]"
  else
    let inPart := threshold < shape.foldr (· * ·) 1
    let written {α : Type} (cells : List α) := if inPart then corners shape cells else cells
    let axes := shape.map fun extent =>
      if inPart ∧ 2 * edge < extent then (2 * edge, true) else (extent, false)
    nested separator (cellTexts kind shape.isEmpty (written cells) (written texts)) width indent
      axes

/-- The width of a line. -/
def lineWidth : Nat := 75

/-- Whether the text of the cells alone tells their kind. -/
def isImplied (kind : CellKind) : Bool :=
  kind = .boolean || kind = .signed 64 || kind = .float .double || kind = .complex .double

/-- The name of a kind, in quotes if it is not a word. -/
def kindText (kind : CellKind) : String :=
  if kind.name.all Char.isAlphanum then kind.name else "'" ++ kind.name ++ "'"

/-- What is written after the cells to tell what they leave open. -/
def remarks (kind : CellKind) (shape : List Nat) : List String :=
  let isEmpty := shape.any (· = 0)
  let isOpen := (isEmpty ∧ shape ≠ [0]) ∨ threshold < shape.foldr (· * ·) 1
  (if isOpen then ["shape=" ++ Descriptor.tuple shape] else [])
    ++ if isEmpty ∨ !isImplied kind then ["dtype=" ++ kindText kind] else []

/-- The text of a table that tells its kind, with the remarks on a line of their own if there is no
room for them. -/
def shown (kind : CellKind) (shape : List Nat) (cells : List Value) (texts : List String) :
    String :=
  let opening := "array("
  let indent := String.ofList (List.replicate (opening.length + 1) ' ')
  let body := body ", " (lineWidth - 1) indent kind shape cells texts
  match remarks kind shape with
  | [] => opening ++ body ++ ")"
  | remarks =>
    let start := opening ++ body ++ ","
    let closing := ", ".intercalate remarks ++ ")"
    let lastLine := (start.toList.reverse.takeWhile (· ≠ '\n')).length
    let space :=
      if lineWidth < lastLine + closing.length + 1 then
        "\n" ++ String.ofList (List.replicate opening.length ' ')
      else " "
    start ++ space ++ closing

/-- The shortest text of a complex cell, whose imaginary part is zero. A real part that is a zero
without a sign is left out. -/
def complexText (format : FloatFormat) (x : Double) : String :=
  let text := format.text (format.encode x.datum)
  if text = "0.0" then "0j"
  else "(" ++ (if text.endsWith ".0" then (text.dropEnd 2).toString else text) ++ "+0j)"

/-- The bare text of a table with axes. -/
def plain (kind : CellKind) (shape : List Nat) (cells : List Value) (texts : List String) :
    String :=
  body " " lineWidth " " kind shape cells texts

/-- The bare text of the only cell of a table without axes, for kinds with texts of their own. -/
def cellText (kind : CellKind) (cell : Value) : String :=
  match kind.native, cell with
  | .float format, .float x => format.text (format.encode x.datum)
  | .complex format, .float x => complexText format x
  | .text _, .text s => s
  | kind, cell => (cellTexts kind true [cell] []).headD ""

end ComputeArray.Grid
