import ComputeArray.Failure

/-!
# Binding arguments to parameters

A callee has positional parameters, the last of them optional. Arguments are given by position or by
name; the parameter named twice is reported first, then too many arguments, then the missing ones.
-/

set_option autoImplicit false

namespace ComputeArray

structure Signature where
  callee : String
  required : List String
  optional : List (String × Value)

namespace Signature

def names (signature : Signature) : List String :=
  signature.required ++ signature.optional.map Prod.fst

/-- The values of all parameters, in their order. -/
def bind (signature : Signature) (arguments : List Value) (named : List (String × Value)) :
    Except Failure (List Value) := do
  let taken := signature.names.take arguments.length
  let refused := named.find? fun (name, _) => taken.contains name || !signature.names.contains name
  if let some (name, _) := refused then
    if taken.contains name then throw (.repeatedArgument signature.callee name)
    else throw (.unexpectedKeyword signature.callee name)
  if signature.names.length < arguments.length then
    throw (.excessArguments signature.callee (signature.required.length + 1)
      (signature.names.length + 1) (arguments.length + 1))
  let given := taken.zip arguments ++ named
  let missing := signature.required.filter fun name => (given.lookup name).isNone
  if !missing.isEmpty then throw (.missingArguments signature.callee missing)
  return signature.required.map (fun name => (given.lookup name).getD .none)
    ++ signature.optional.map fun (name, default) => (given.lookup name).getD default

end Signature

end ComputeArray
