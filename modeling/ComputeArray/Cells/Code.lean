import ComputeArray.Cells.Descriptor
import ComputeArray.Text.Blank

/-!
# Codes and names of cell kinds

A kind is written as a letter, as a letter with a size, or by a name. A mark of the byte order may
come first, except before a name. The size may have blanks and a sign before it; it counts bytes,
and characters for texts.
-/

set_option autoImplicit false

namespace ComputeArray

namespace CellKind

/-- A second kind of the widest words. -/
def longSigned : CellKind := .variant (.signed 64) ⟨"int64", "int64", "i8", "LongLong", 8⟩

def longUnsigned : CellKind := .variant (.unsigned 64) ⟨"uint64", "uint64", "u8", "ULongLong", 8⟩

/-- Floats wider than doubles, which hold doubles here. -/
def extended : CellKind :=
  .variant (.float .double) ⟨"float128", "float128", "f16", "LongDouble", 16⟩

def extendedComplex : CellKind :=
  .variant (.complex .double) ⟨"complex256", "complex256", "c32", "CLongDouble", 32⟩

/-- Raw cells of a number of bytes. -/
def raw (size : Nat) : CellKind :=
  let code := "V" ++ if size = 0 then "" else toString size
  .foreign ⟨code, s!"|V{size}", code, "Void", size⟩

/-- Points in time, counted in a unit between brackets. -/
def instant (unit : String) : CellKind :=
  .foreign ⟨"<M8" ++ unit, "datetime64" ++ unit, "M8" ++ unit, "DateTime64", 8⟩

def duration (unit : String) : CellKind :=
  .foreign ⟨"<m8" ++ unit, "timedelta64" ++ unit, "m8" ++ unit, "TimeDelta64", 8⟩

/-- The kinds in the order of their numbers, each with its letter. -/
def lettered : List (Char × CellKind) :=
  [('?', .boolean), ('b', .signed 8), ('B', .unsigned 8), ('h', .signed 16), ('H', .unsigned 16),
    ('i', .signed 32), ('I', .unsigned 32), ('l', .signed 64), ('L', .unsigned 64),
    ('q', longSigned), ('Q', longUnsigned), ('f', .float .single), ('d', .float .double),
    ('g', extended), ('F', .complex .single), ('D', .complex .double), ('G', extendedComplex),
    ('O', .anything), ('S', .bytes 0), ('U', .text 0), ('V', raw 0), ('M', instant ""),
    ('m', duration ""), ('e', .float .half)]

/-- Further letters. -/
def otherLetters : List (Char × CellKind) :=
  [('p', .signed 64), ('P', .unsigned 64), ('n', .signed 64), ('N', .unsigned 64), ('c', .bytes 1),
    ('T', .foreign ⟨"T", "StringDType()", "T", "String", 16⟩)]

/-- A single character is the number of a kind or its letter. -/
def ofLetter? (c : Char) : Option CellKind :=
  match lettered[c.toNat]? with
  | some (_, kind) => some kind
  | none => (lettered ++ otherLetters).lookup c

/-- The kind of a letter with a size that is not zero. -/
def ofWidth? (letter : Char) (size : Nat) : Option CellKind :=
  match letter, size with
  | 'b', 1 => some .boolean
  | 'i', 1 | 'i', 2 | 'i', 4 | 'i', 8 => some (.signed (8 * size))
  | 'u', 1 | 'u', 2 | 'u', 4 | 'u', 8 => some (.unsigned (8 * size))
  | 'f', 2 => some (.float .half)
  | 'f', 4 => some (.float .single)
  | 'f', 8 => some (.float .double)
  | 'f', 16 => some extended
  | 'c', 8 => some (.complex .single)
  | 'c', 16 => some (.complex .double)
  | 'c', 32 => some extendedComplex
  | 'O', 4 | 'O', 8 => some .anything
  | 'M', 8 => some (instant "")
  | 'm', 8 => some (duration "")
  | _, _ => none

/-- The largest size a code may give. -/
def sizeLimit : Nat := twoTo 31 - 1

def ofSized? (letter : Char) (size : Nat) : Option CellKind :=
  if sizeLimit < size then none
  else
    match letter with
    | 'S' => some (.bytes size)
    | 'U' => if sizeLimit / 4 < size then none else some (.text size)
    | 'V' => some (raw size)
    | letter => ofWidth? letter size

/-- The size after the letter of a code. A negative size is none. -/
def size? (cs : List Char) : Option Nat :=
  let (negative, digits) :=
    match cs.dropWhile Text.isAsciiBlank with
    | '-' :: rest => (true, rest)
    | '+' :: rest => (false, rest)
    | rest => (false, rest)
  if digits.isEmpty || !digits.all Char.isDigit then none
  else
    let size := Nat.ofDigitChars 10 digits 0
    if negative && size ≠ 0 then none else some size

/-- A unit of time between brackets, or none at all. -/
def isUnit (cs : List Char) : Bool :=
  match cs with
  | [] => true
  | '[' :: rest =>
    let digits := rest.takeWhile Char.isDigit
    let unit := String.ofList (rest.drop digits.length)
    ["Y]", "M]", "W]", "D]", "h]", "m]", "s]", "ms]", "us]", "ns]", "ps]", "fs]", "as]"].contains
      unit
  | _ => false

/-- Kinds that measure time, in a unit. -/
def ofTime? (text : String) : Option CellKind :=
  let after (start : String) (make : String → CellKind) : Option CellKind :=
    if text.startsWith start then
      let unit := text.toList.drop start.length
      if isUnit unit then some (make (String.ofList unit)) else none
    else none
  (after "M8" instant).orElse fun _ => (after "m8" duration).orElse fun _ =>
    (after "datetime64" instant).orElse fun _ => after "timedelta64" duration

/-- The kinds by name. -/
def names : List (String × CellKind) :=
  [("bool", .boolean), ("bool_", .boolean), ("int8", .signed 8), ("byte", .signed 8),
    ("int16", .signed 16), ("short", .signed 16), ("int32", .signed 32), ("intc", .signed 32),
    ("int64", .signed 64), ("int", .signed 64), ("int_", .signed 64), ("intp", .signed 64),
    ("long", .signed 64), ("longlong", longSigned), ("uint8", .unsigned 8),
    ("ubyte", .unsigned 8), ("uint16", .unsigned 16), ("ushort", .unsigned 16),
    ("uint32", .unsigned 32), ("uintc", .unsigned 32), ("uint64", .unsigned 64),
    ("uint", .unsigned 64), ("uintp", .unsigned 64), ("ulong", .unsigned 64),
    ("ulonglong", longUnsigned), ("float16", .float .half), ("half", .float .half),
    ("float32", .float .single), ("single", .float .single), ("float64", .float .double),
    ("double", .float .double), ("float", .float .double), ("longdouble", extended),
    ("float128", extended), ("complex64", .complex .single), ("csingle", .complex .single),
    ("complex128", .complex .double), ("cdouble", .complex .double),
    ("complex", .complex .double), ("clongdouble", extendedComplex),
    ("complex256", extendedComplex), ("object", .anything), ("object_", .anything),
    ("str", .text 0), ("str_", .text 0), ("unicode", .text 0), ("bytes", .bytes 0),
    ("bytes_", .bytes 0), ("a", .bytes 0), ("void", raw 0)]

/-- The kind a code or a name stands for; `marked` says that a mark of the byte order came before
it. -/
def ofCode? (marked : Bool) (cs : List Char) : Option CellKind :=
  let text := String.ofList cs
  let named := if marked then none else names.lookup text
  match cs with
  | [] => none
  | [c] => (ofLetter? c).orElse fun _ => named
  | letter :: rest =>
    match ofTime? text, size? rest with
    | some kind, _ => some kind
    | none, some size => ofSized? letter size
    | none, none => named

end CellKind

namespace Descriptor

/-- The descriptor of a code, after a mark of the byte order if there is one. -/
def ofCode? (cs : List Char) : Option Descriptor :=
  let native (marked : Bool) (cs : List Char) : Option Descriptor :=
    (CellKind.ofCode? marked cs).map (.cells · false)
  match cs with
  | '<' :: code | '=' :: code | '|' :: code => native true code
  | '>' :: code => (native true code).map swap
  | code => native false code

end Descriptor

namespace CellKind

/-- The names of the classes of cells that have a shorter or older name beside it. -/
def classNames : List (String × String) :=
  [("byte", "int8"), ("ubyte", "uint8"), ("short", "int16"), ("ushort", "uint16"),
    ("intc", "int32"), ("uintc", "uint32"), ("int_", "int64"), ("intp", "int64"),
    ("long", "int64"), ("uint", "uint64"), ("uintp", "uint64"), ("ulong", "uint64"),
    ("half", "float16"), ("single", "float32"), ("double", "float64"), ("csingle", "complex64"),
    ("cdouble", "complex128"), ("float128", "longdouble"), ("complex256", "clongdouble"),
    ("bool_", "bool")]

/-- The name a class of cells goes by. -/
def className (name : String) : String := (classNames.lookup name).getD name

end CellKind

end ComputeArray
