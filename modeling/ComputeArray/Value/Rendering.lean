import ComputeArray.Text.Quoted
import ComputeArray.Value.Grid

/-!
# Text of values

`Value.shown` writes a value so that its kind can be told from the text, `Value.plain` writes texts
without their quotes. Lists are bracketed, their items separated by a comma and a space; inside a
table they are told from the brackets of the table.
-/

set_option autoImplicit false

namespace ComputeArray

/-- Items between brackets, separated by a comma and a space. -/
def bracketed (items : List String) : String := "[" ++ ", ".intercalate items ++ "]"

/-- A list of integers between brackets. -/
def intList (items : List Int) : String := bracketed (items.map toString)

/-- Items between parentheses, a single item followed by a comma. -/
def parenthesized : List String → String
  | [item] => "(" ++ item ++ ",)"
  | items => "(" ++ ", ".intercalate items ++ ")"

namespace Value

def boolText (b : Bool) : String := if b then "True" else "False"

def shownClass (name : String) : String := "<class 'numpy." ++ name ++ "'>"

mutual

def shown : Value → String
  | .none => "None"
  | .bool b => boolText b
  | .int n => toString n
  | .float x => x.text
  | .text s => Text.quoted s
  | .list items => bracketed (shownAll items)
  | .array _ described => described
  | .table .anything shape cells => Grid.shown .anything shape cells (shownCells cells)
  | .table kind shape cells => Grid.shown kind shape cells []
  | .cellClass name => shownClass name
  | .cellDescriptor descriptor => descriptor.shown

def shownAll : List Value → List String
  | [] => []
  | item :: rest => shown item :: shownAll rest

/-- The texts of cells of the general kind. -/
def shownCells : List Value → List String
  | [] => []
  | .list items :: rest => ("list(" ++ bracketed (shownAll items) ++ ")") :: shownCells rest
  | cell :: rest => shown cell :: shownCells rest

end

/-- The bare text of a value that is no table, or of a cell. -/
def plainScalar : Value → String
  | .text s => s
  | .cellDescriptor descriptor => descriptor.plain
  | value => value.shown

def plain : Value → String
  | .table .anything [] [cell] => cell.plainScalar
  | .table .anything shape cells => Grid.plain .anything shape cells (shownCells cells)
  | .table kind [] [cell] => Grid.cellText kind cell
  | .table kind shape cells => Grid.plain kind shape cells []
  | value => value.plainScalar

/-- The text of a value inside a sentence, where a number from a table without axes is written in
double precision. -/
def inSentence (value : Value) : String :=
  match value.native with
  | .table (.float _) [] [.float x] => x.text
  | .table (.complex _) [] [.float x] => Grid.complexText .double x
  | value => value.plain

end Value

end ComputeArray
