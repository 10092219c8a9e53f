import Jack.Text.Lines

/-!
# Instructions of the stack machine

The machine has eight memory segments, an operand stack and labels that are local to a function.
Code is written one instruction on a line.
-/

namespace Jack

/-- The memory segments that instructions address. -/
inductive Segment where
  | constant | argument | local | static | this | that | pointer | temp
deriving DecidableEq

/-- The name of a segment in code. -/
def Segment.name : Segment → String
  | .constant => "constant"
  | .argument => "argument"
  | .local => "local"
  | .static => "static"
  | .this => "this"
  | .that => "that"
  | .pointer => "pointer"
  | .temp => "temp"

/-- The operations on the top of the stack. -/
inductive Arithmetic where
  | add | sub | neg | eq | gt | lt | and | or | not
deriving DecidableEq

/-- The name of an operation in code. -/
def Arithmetic.name : Arithmetic → String
  | .add => "add"
  | .sub => "sub"
  | .neg => "neg"
  | .eq => "eq"
  | .gt => "gt"
  | .lt => "lt"
  | .and => "and"
  | .or => "or"
  | .not => "not"

/-- One instruction. A call carries its number of arguments and a function header its number of
local variables. Its numbers have no bound. In the code of a class they are words of sixteen bits, but
for a method that is called with 65535 arguments: with its object they are 65536. -/
inductive Instruction where
  | push (segment : Segment) (index : Nat)
  | pop (segment : Segment) (index : Nat)
  | arithmetic (operation : Arithmetic)
  | label (name : String)
  | goto (name : String)
  | ifGoto (name : String)
  | call (function : String) (arguments : Nat)
  | function (name : String) (locals : Nat)
  | return
deriving DecidableEq

/-- How an instruction is written, its parts separated by single spaces. -/
def Instruction.text : Instruction → String
  | .push segment index => "push " ++ segment.name ++ " " ++ toString index
  | .pop segment index => "pop " ++ segment.name ++ " " ++ toString index
  | .arithmetic operation => operation.name
  | .label name => "label " ++ name
  | .goto name => "goto " ++ name
  | .ifGoto name => "if-goto " ++ name
  | .call name arguments => "call " ++ name ++ " " ++ toString arguments
  | .function name locals => "function " ++ name ++ " " ++ toString locals
  | .return => "return"

/-- Code is written one instruction on a line, and each line ends in a newline. -/
def codeText (code : List Instruction) : String :=
  Text.unlines (code.map Instruction.text)

end Jack
