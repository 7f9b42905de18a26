import ComputeArray.Kernel.Basic
import ComputeArray.Text.Quoted

/-!
# Source text of kernels

`Kernel.source` writes a kernel line by line. Bodies are indented by four blanks a level, and each
line ends in a line feed.
-/

set_option autoImplicit false

namespace ComputeArray.Kernel

namespace Expression

mutual

def text : Expression → String
  | .name identifier => identifier
  | .word n => s!"{n}u"
  | .hexWord width n => "0x" ++ String.ofList (Text.hex width n) ++ "u"
  | .literal text => text
  | .binary symbol left right => text left ++ " " ++ symbol ++ " " ++ text right
  | .group inner => "(" ++ text inner ++ ")"
  | .call function arguments => function ++ "(" ++ ", ".intercalate (texts arguments) ++ ")"
  | .index array position => array ++ "[" ++ text position ++ "]"
  | .member whole field => text whole ++ "." ++ field
  | .pointer array => "&" ++ array

def texts : List Expression → List String
  | [] => []
  | first :: rest => text first :: texts rest

end

end Expression

def indent (depth : Nat) (line : String) : String :=
  String.ofList (List.replicate (4 * depth) ' ') ++ line

def typed (name : String) : Option String → String
  | none => name
  | some type => name ++ ": " ++ type

namespace Statement

mutual

def lines (depth : Nat) : Statement → List String
  | .blank => [""]
  | .define name type value =>
    [indent depth ("let " ++ typed name type ++ " = " ++ value.text ++ ";")]
  | .declare name type value =>
    [indent depth ("var " ++ typed name type ++ " = " ++ value.text ++ ";")]
  | .assign target value => [indent depth (target.text ++ " = " ++ value.text ++ ";")]
  | .update symbol target value =>
    [indent depth (target.text ++ " " ++ symbol ++ "= " ++ value.text ++ ";")]
  | .discard value => [indent depth ("_ = " ++ value.text ++ ";")]
  | .stop condition => [indent depth ("if(" ++ condition.text ++ ")\x7b return; \x7d")]
  | .branch condition body =>
    indent depth ("if(" ++ condition.text ++ ")\x7b") :: block (depth + 1) body
      ++ [indent depth "\x7d"]
  | .loop counter first condition next body =>
    indent depth ("for(var " ++ counter ++ ": u32 = " ++ first.text ++ "; " ++ condition.text
      ++ "; " ++ counter ++ " = " ++ next.text ++ ")\x7b") :: block (depth + 1) body
      ++ [indent depth "\x7d"]
  | .run call => [indent depth (call.text ++ ";")]
  | .result value => [indent depth ("return " ++ value.text ++ ";")]

def block (depth : Nat) : List Statement → List String
  | [] => []
  | first :: rest => lines depth first ++ block depth rest

end

end Statement

def Access.text : Access → String
  | .read => "read"
  | .readWrite => "read_write"

def slotText : Option Int → String
  | none => "None"
  | some slot => toString slot

def Function.lines (function : Function) : List String :=
  let parameters := function.parameters.map fun (name, type) => name ++ ": " ++ type
  let opening :=
    match function.result with
    | none => "\x7b"
    | some type => " -> " ++ type ++ " \x7b"
  ("fn " ++ function.name ++ "(" ++ ", ".intercalate parameters ++ ")" ++ opening)
    :: Statement.block 1 function.body ++ ["\x7d"]

def Item.lines : Item → List String
  | .blank => [""]
  | .halfPrecision => ["enable f16;"]
  | .array slot access name elements =>
    ["@group(0) @binding(" ++ slotText slot ++ ")",
      "var<storage, " ++ access.text ++ "> " ++ name ++ ": array<" ++ elements ++ ">;"]
  | .parameter name type => ["override " ++ name ++ ": " ++ type ++ ";"]
  | .constant name type value => ["const " ++ name ++ ": " ++ type ++ " = " ++ value.text ++ ";"]
  | .function definition => definition.lines
  | .lanes size body =>
    [s!"@compute @workgroup_size({size})", "fn main(",
      indent 1 "@builtin(global_invocation_id) id: vec3<u32>,",
      indent 1 "@builtin(num_workgroups) groups: vec3<u32>,", ")\x7b"]
      ++ Statement.block 1 body ++ ["\x7d"]
  | .single body =>
    ["@compute @workgroup_size(1)", "fn main()\x7b"] ++ Statement.block 1 body ++ ["\x7d"]

def source (kernel : Kernel) : String :=
  String.join ((kernel.items.flatMap Item.lines).map (· ++ "\n"))

end ComputeArray.Kernel
