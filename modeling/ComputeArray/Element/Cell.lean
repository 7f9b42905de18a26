import ComputeArray.Element.Basic
import ComputeArray.Value.Nested
import ComputeArray.Value.Table

/-!
# Storing values as elements

`ElementType.store` converts a value to the bits of an element. Integers must fit the word; floats
are rounded once to double precision and once to the element type. Numbers in host tables convert
without checks: integers wrap and fractions are cut. Texts in them are read as numerals, and cells
of the general kind convert as what they hold.
-/

set_option autoImplicit false

namespace ComputeArray

namespace ElementType

/-- The format of float elements. -/
def format (element : ElementType) : FloatFormat :=
  match element with
  | .f16 => .half
  | _ => .single

/-- The 32-bit pattern of an integer, higher bits dropped. -/
def wordBits (n : Int) : Nat := Word.pattern 32 n

/-- The range of the integers an integer type holds. -/
def holds (element : ElementType) (n : Int) : Bool :=
  match element with
  | .i32 => Word.holdsSigned 32 n
  | .u32 => Word.holdsUnsigned 32 n
  | _ => true

/-- The integers a machine word of the sort of an integer type holds. -/
def isMachineInteger (element : ElementType) (n : Int) : Bool :=
  Word.holdsSigned 64 n || (element = .u32 && Word.holdsUnsigned 64 n)

def storeInt (element : ElementType) (n : Int) : Except Failure Nat :=
  if element.holds n then .ok (wordBits n)
  else if element.isMachineInteger n then .error (.beyondWord n element.cells)
  else .error .beyondMachineInteger

/-- The bits of the element a value is stored as that is no table. -/
def storeScalar (element : ElementType) (value : Value) : Except Failure Nat :=
  if element.isFloat then value.toReal.map element.format.ofDouble
  else value.toInt.bind element.storeInt

/-- The integer part of a float cell; what no word holds becomes the least word. -/
def cutFloat (element : ElementType) (datum : FloatDatum) : Int :=
  match datum with
  | .finite negative magnitude =>
    let whole : Int := (magnitude.num.toNat / magnitude.den : Nat)
    let n := if negative then -whole else whole
    if element = .u32 then (if Word.holdsSigned 64 n then n else 0)
    else if Word.holdsSigned 32 n then n else Word.least 32
  | _ => if element = .u32 then 0 else Word.least 32

/-- The bits an integer cell becomes. Integers reach half precision through single precision. -/
def castInt (element : ElementType) (n : Int) : Nat :=
  match element with
  | .f16 =>
    FloatFormat.half.encode (FloatFormat.single.decode (FloatFormat.single.encode (.ofInt n)))
  | .f32 => FloatFormat.single.encode (.ofInt n)
  | _ => wordBits n

/-- The bits a float cell of the given kind becomes. -/
def castFloat (element : ElementType) (kind : CellKind) (x : Double) : Nat :=
  if !element.isFloat then wordBits (element.cutFloat x.datum)
  else if kind = .float .double then element.format.ofDouble x.datum
  else element.format.encode x.datum

/-- The bits a text cell becomes. -/
def castText (element : ElementType) (origin : TextOrigin) (text : String) : Except Failure Nat :=
  if element.isFloat then
    match Text.decimal? text with
    | some datum => .ok (element.format.ofDouble (Double.ofDatum datum).datum)
    | none => .error (.badDecimal text origin)
  else
    (Value.textToInt origin text).bind element.storeInt

/-- The bits a table cell of the given kind becomes. -/
def castCell (element : ElementType) (kind : CellKind) (cell : Value) : Except Failure Nat :=
  match kind.native, cell with
  | .anything, .list _ => .error .sequenceCell
  | .anything, cell => element.storeScalar cell
  | _, .int n => .ok (element.castInt n)
  | kind, .float x => .ok (element.castFloat kind x)
  | .bytes _, .text text => element.castText .bytes text
  | _, .text text => element.castText .cell text
  | _, cell => element.storeScalar cell

/-- The bits of the element a value is stored as; a table must be a single cell. -/
def store (element : ElementType) (value : Value) : Except Failure Nat :=
  match value with
  | .table kind [] [cell] => element.castCell kind cell
  | .table .. => .error .sequenceCell
  | value => element.storeScalar value

/-- The bits of the elements of a nested sequence, the first that does not convert raising. -/
def storeAll (element : ElementType) (value : Value) : Except Failure (List Nat) := do
  let _ ← value.nestedShape
  value.leaves.mapM element.store

/-- The value an element's bits stand for. -/
def load (element : ElementType) (bits : Nat) : Value :=
  match element with
  | .i32 => .int (Word.wrapSigned 32 bits)
  | .u32 => .int bits
  | element => .float (.ofDatum (element.format.decode bits))

end ElementType

end ComputeArray
