import ComputeArray.Failure

/-!
# Truth of values

Zeros, empty texts, empty lists and missing values count as false. A table counts as its only cell;
with none or with several it has no truth.
-/

set_option autoImplicit false

namespace ComputeArray.Value

/-- Whether a value that is no table counts as true. -/
def isTruthy : Value → Bool
  | .none => false
  | .bool b => b
  | .int n => n ≠ 0
  | .float x =>
    match x.datum with
    | .finite _ magnitude => magnitude ≠ 0
    | _ => true
  | .text s => s ≠ ""
  | .list items => !items.isEmpty
  | _ => true

/-- The only cell of a table. -/
def onlyCell : List Value → Except Failure Value
  | [] => .error .emptyTruth
  | [cell] => .ok cell
  | _ => .error .manyTruths

def truth : Value → Except Failure Bool
  | .table _ _ cells => (onlyCell cells).map isTruthy
  | value => .ok value.isTruthy

def isText (text : String) : Value → Bool
  | .text s => s = text
  | _ => false

/-- Whether a value equals a text; of a table its only cell is compared. -/
def equalsText (text : String) : Value → Except Failure Bool
  | .table _ _ cells => (onlyCell cells).map (isText text)
  | value => .ok (value.isText text)

end ComputeArray.Value
