import ComputeArray.Number.Format

/-!
# Kinds of host cells

A host table holds cells of one kind. Words, floats and complex numbers have a fixed width, texts a
length of their own, and cells of the general kind hold anything. Kinds no operation computes with
are known by their names only, and others compute like a kind with another name. Two kinds meet in
the least kind that holds the values of both.
-/

set_option autoImplicit false

namespace ComputeArray

/-- The names of a kind that do not follow from its values: in messages, as bare text, as a code,
and in the name of its descriptors. The bytes of a cell come with them. -/
structure KindNames where
  shown : String
  name : String
  code : String
  family : String
  size : Nat
  deriving DecidableEq

inductive CellKind where
  | boolean
  | signed (bits : Nat)
  | unsigned (bits : Nat)
  | float (format : FloatFormat)
  /-- Complex numbers with parts of the given format. -/
  | complex (format : FloatFormat)
  /-- Texts of at most `length` characters; length zero leaves the length open. -/
  | text (length : Nat)
  | bytes (length : Nat)
  | anything
  | foreign (names : KindNames)
  /-- Cells that compute like those of another kind. -/
  | variant (like : CellKind) (names : KindNames)
  deriving DecidableEq

namespace CellKind

/-- The kind whose computations a kind shares. -/
def native : CellKind → CellKind
  | .variant like _ => like.native
  | kind => kind

/-- The name in messages. -/
def shown : CellKind → String
  | .boolean => "bool"
  | .signed bits => s!"int{bits}"
  | .unsigned bits => s!"uint{bits}"
  | .float format => s!"float{format.width}"
  | .complex format => s!"complex{2 * format.width}"
  | .text length => "<U" ++ if length = 0 then "" else toString length
  | .bytes length => "S" ++ if length = 0 then "" else toString length
  | .anything => "O"
  | .foreign names => names.shown
  | .variant _ names => names.shown

/-- The name as bare text. -/
def name : CellKind → String
  | .text length => s!"<U{length}"
  | .bytes length => s!"|S{length}"
  | .anything => "object"
  | .foreign names => names.name
  | .variant _ names => names.name
  | kind => kind.shown

/-- A letter and a size, without a mark for the order of bytes. -/
def code : CellKind → String
  | .boolean => "?"
  | .signed bits => s!"i{bits / 8}"
  | .unsigned bits => s!"u{bits / 8}"
  | .float format => s!"f{format.width / 8}"
  | .complex format => s!"c{format.width / 4}"
  | .text length => "U" ++ if length = 0 then "" else toString length
  | .foreign names => names.code
  | .variant _ names => names.code
  | kind => kind.shown

/-- The bytes of a cell. -/
def size : CellKind → Nat
  | .boolean => 1
  | .signed bits => bits / 8
  | .unsigned bits => bits / 8
  | .float format => format.width / 8
  | .complex format => format.width / 4
  | .text length => 4 * length
  | .bytes length => length
  | .anything => 8
  | .foreign names => names.size
  | .variant _ names => names.size

/-- Whether the length of the cells is still open. -/
def isOpen (kind : CellKind) : Bool := kind.size = 0

/-- Whether the bytes of a cell may come in either order. -/
def isOrdered : CellKind → Bool
  | .boolean => false
  | .bytes _ => false
  | .anything => false
  | .foreign names => 1 < names.size && names.family ≠ "Void"
  | .text _ => true
  | kind => 1 < kind.size

/-- The word for the kind in the names of its descriptors. -/
def family : CellKind → String
  | .boolean => "Bool"
  | .signed bits => s!"Int{bits}"
  | .unsigned bits => s!"UInt{bits}"
  | .float format => s!"Float{format.width}"
  | .complex format => s!"Complex{2 * format.width}"
  | .text _ => "Str"
  | .bytes _ => "Bytes"
  | .anything => "Object"
  | .foreign names => names.family
  | .variant _ names => names.family

def isText : CellKind → Bool
  | .text _ => true
  | _ => false

/-- The length of text cells that hold the texts of all cells of a kind. -/
def textLength (kind : CellKind) : Nat :=
  match kind.native with
  | .boolean => 5
  | .signed bits => if bits = 64 then 21 else (toString (twoTo (bits - 1))).length + 1
  | .unsigned bits => (toString (twoTo bits - 1)).length
  | .float _ => 32
  | .complex _ => 64
  | .text length => length
  | .bytes length => length
  | _ => 0

/-- The signed words that hold a signed and an unsigned word; the widest unsigned words meet signed
ones in doubles. -/
def mixed (signedBits unsignedBits : Nat) : CellKind :=
  if unsignedBits < signedBits then .signed signedBits
  else if unsignedBits < 64 then .signed (2 * unsignedBits)
  else .float .double

/-- The floats, at least as wide as the given ones, that hold words of a number of bits. -/
def wideEnough (format : FloatFormat) (bits : Nat) : FloatFormat :=
  if format = .half ∧ bits ≤ 8 then .half
  else if format ≠ .double ∧ bits ≤ 16 then .single
  else .double

def wider (f g : FloatFormat) : FloatFormat := if f.precision < g.precision then g else f

/-- The floats that hold the numbers of a kind. -/
def floatsFor (format : FloatFormat) (kind : CellKind) : Option FloatFormat :=
  match kind with
  | .boolean => some format
  | .signed bits => some (wideEnough format bits)
  | .unsigned bits => some (wideEnough format bits)
  | .float other => some (wider format other)
  | .complex other => some (wider format other)
  | _ => none

/-- The least kind that holds the values of both. -/
def join (a b : CellKind) : CellKind :=
  if a = b then a
  else
    match a.native, b.native with
    | .anything, _ => .anything
    | _, .anything => .anything
    | .foreign _, _ => .anything
    | _, .foreign _ => .anything
    | .variant .., _ => .anything
    | _, .variant .. => .anything
    | .text m, b => .text (max m b.textLength)
    | a, .text n => .text (max a.textLength n)
    | .bytes m, b => .bytes (max m b.textLength)
    | a, .bytes n => .bytes (max a.textLength n)
    | .complex f, b => ((floatsFor (wider f .single) b).map complex).getD .anything
    | a, .complex f => ((floatsFor (wider f .single) a).map complex).getD .anything
    | .float f, b => ((floatsFor f b).map float).getD .anything
    | a, .float f => ((floatsFor f a).map float).getD .anything
    | .boolean, b => b
    | a, .boolean => a
    | .signed m, .signed n => .signed (max m n)
    | .unsigned m, .unsigned n => .unsigned (max m n)
    | .signed m, .unsigned n => mixed m n
    | .unsigned m, .signed n => mixed n m

end CellKind

end ComputeArray
