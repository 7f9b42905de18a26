import ComputeArray.Number.Word

/-!
# Repeat counts

Before a code, a number or several numbers between parentheses tell how often its cells repeat.
Numbers are separated by commas; a single number counts, and any more of them, or a number with a
comma after it, are extents. The first mark that cannot stand where it does decides what is wrong.
-/

set_option autoImplicit false

namespace ComputeArray

inductive Repeat where
  | count (n : Nat)
  | extents (ns : List Nat)
  deriving DecidableEq

/-- What can be wrong with repeat counts. -/
inductive RepeatFault where
  | missing
  | unexpected
  | unmatched
  | unclosed
  | leadingZeros
  | missingComma
  deriving DecidableEq

namespace Repeat

inductive Token where
  | number (digits : List Char)
  | comma
  | opening
  | closing

/-- The number that ends here, if there is one. -/
def pendingNumber (digits : List Char) : List Token :=
  if digits.isEmpty then [] else [.number digits]

def mark? : Char → Option Token
  | ',' => some .comma
  | '(' => some .opening
  | ')' => some .closing
  | _ => none

/-- The tokens of a text; `digits` are those of a number that has begun. -/
def tokens (digits : List Char) : List Char → List Token
  | [] => pendingNumber digits
  | c :: rest =>
    if c.isDigit then tokens (digits ++ [c]) rest
    else pendingNumber digits ++ (mark? c).toList ++ tokens [] rest

/-- The first token that is wrong wherever it stands: a number with zeros before its digits, or a
parenthesis that closes none. -/
def tokenFault? (isOpen : Bool) : List Token → Option RepeatFault
  | [] => none
  | .number digits :: rest =>
    if digits.head? = some '0' ∧ digits.any (· ≠ '0') then some .leadingZeros
    else tokenFault? isOpen rest
  | .opening :: rest => tokenFault? true rest
  | .closing :: rest => if isOpen then tokenFault? false rest else some .unmatched
  | .comma :: rest => tokenFault? isOpen rest

def valueOf (digits : List Char) : Nat := Nat.ofDigitChars 10 digits 0

/-- The numbers from a place on where a number may come; `inside` says that a parenthesis is open.
A number alone is told from extents by the commas. -/
def numbers (inside : Bool) (found : List Nat) : List Token → Except RepeatFault Repeat
  | [] => if inside then .error .unclosed else .ok (.extents found)
  | .closing :: _ => .ok (.extents found)
  | .number digits :: rest =>
    let found := found ++ [valueOf digits]
    let whole : Repeat :=
      match found with
      | [n] => .count n
      | found => .extents found
    match rest with
    | [] => if inside then .error .unclosed else .ok whole
    | .closing :: _ => .ok whole
    | .comma :: rest => numbers inside found rest
    | .number _ :: after =>
      if !inside then .error .unexpected
      else if after.isEmpty then .error .unclosed
      else .error .missingComma
    | .opening :: _ => .error .unexpected
  | _ => .error .unexpected

def ofTokens : List Token → Except RepeatFault Repeat
  | [] => .error .missing
  | .opening :: rest => numbers true [] rest
  | tokens => numbers false [] tokens

/-- Reads the counts in a text. -/
def read (cs : List Char) : Except RepeatFault Repeat :=
  let found := tokens [] cs
  match tokenFault? false found with
  | some fault => .error fault
  | none => ofTokens found

end Repeat

end ComputeArray
