import Jack.Lowering.Error

/-!
# Code for expressions

The code of an expression leaves one value on the stack. Operands are evaluated from left to right;
products and quotients are calls, and a string is built one character at a time.
-/

namespace Jack

/-- Where code is generated: the variables in scope and the subroutine it belongs to. -/
structure Frame where
  scope : Scope
  subroutine : String
  kind : SubroutineKind

/-- The full name of a subroutine of a class. -/
def qualified (className subroutine : String) : String :=
  className ++ "." ++ subroutine

/-- A number as the machine holds it, in sixteen bits. -/
def toWord (value : Nat) : Nat := value % 65536

namespace Frame

/-- The slot of a variable that has to be in scope. -/
def resolve (frame : Frame) (name : String) : Except CompileError Slot :=
  match frame.scope.resolve? name with
  | some slot => .ok slot
  | none => .error (.resolution (.unresolved name frame.subroutine))

/-- The slot of the current object. A function has none. -/
def resolveThis (frame : Frame) : Except CompileError Slot :=
  if frame.kind = .function then .error (.generation (.noReceiver frame.subroutine))
  else frame.resolve "this"

end Frame

namespace Slot

/-- Puts the value of a variable on the stack. -/
def load (slot : Slot) : Instruction := .push slot.segment slot.index.toNat

/-- Takes the value of a variable from the stack. -/
def store (slot : Slot) : Instruction := .pop slot.segment slot.index.toNat

end Slot

/-- The instruction that applies a binary operator. -/
def BinaryOperator.instruction : BinaryOperator → Instruction
  | .add => .arithmetic .add
  | .subtract => .arithmetic .sub
  | .multiply => .call "Math.multiply" 2
  | .divide => .call "Math.divide" 2
  | .and => .arithmetic .and
  | .or => .arithmetic .or
  | .less => .arithmetic .lt
  | .greater => .arithmetic .gt
  | .equal => .arithmetic .eq

/-- The instruction that applies a unary operator. -/
def UnaryOperator.instruction : UnaryOperator → Instruction
  | .negate => .arithmetic .neg
  | .complement => .arithmetic .not

/-- The code that appends a character to the string on the stack. -/
def appendCharacter (c : Char) : List Instruction :=
  [.push .constant (toWord c.toNat), .call "String.appendChar" 2]

/-- The code of a string constant. -/
def stringCode (text : String) : List Instruction :=
  [.push .constant (toWord text.length), .call "String.new" 1] ++
    text.toList.flatMap appendCharacter

/-- The code of a keyword constant: true is all ones, false and null are zero. -/
def KeywordConstant.lower (frame : Frame) : KeywordConstant → Except CompileError (List Instruction)
  | .true => .ok [.push .constant 0, .arithmetic .not]
  | .false | .null => .ok [.push .constant 0]
  | .this => do
    let slot ← frame.resolveThis
    return [slot.load]

/-- The way a call is made: the code that puts the receiving object on the stack, how many
arguments that adds, and the function that is called. -/
structure Dispatch where
  receiver : List Instruction
  added : Nat
  target : String

/-- A call without receiver is a method call on the current object, a call on a variable is a
method call on its object, and any other receiver is the name of a class. -/
def Frame.dispatch (frame : Frame) (receiver : Option String) (name : String) :
    Except CompileError Dispatch :=
  match receiver with
  | none => .ok ⟨[.push .pointer 0], 1, qualified frame.scope.className name⟩
  | some receiver =>
    match frame.scope.resolve? receiver with
    | some slot =>
      if slot.item.type.isPrimitive then
        .error (.generation (.primitiveReceiver receiver slot.item.type.name name))
      else .ok ⟨[slot.load], 1, qualified slot.item.type.name name⟩
    | none => .ok ⟨[], 0, qualified receiver name⟩

mutual

/-- The code of an expression. -/
def Expression.lower (frame : Frame) : Expression → Except CompileError (List Instruction)
  | .term only => only.lower frame
  | .binary left operator right => do
    let leftCode ← left.lower frame
    let rightCode ← right.lower frame
    return leftCode ++ rightCode ++ [operator.instruction]

/-- The code of a term. -/
def Term.lower (frame : Frame) : Term → Except CompileError (List Instruction)
  | .integer value => .ok [.push .constant value.toNat]
  | .string text => .ok (stringCode text)
  | .constant value => value.lower frame
  | .name name => do
    let slot ← frame.resolve name
    return [slot.load]
  | .element array index => do
    let slot ← frame.resolve array
    let indexCode ← index.lower frame
    return [slot.load] ++ indexCode ++ [.arithmetic .add, .pop .pointer 1, .push .that 0]
  | .call call => call.lower frame
  | .unary operator operand => do
    let code ← operand.lower frame
    return code ++ [operator.instruction]
  | .group inner => inner.lower frame

/-- The code of a call: the receiver, the arguments in order, then the call. -/
def Call.lower (frame : Frame) : Call → Except CompileError (List Instruction)
  | .mk receiver name arguments => do
    let dispatch ← frame.dispatch receiver name
    let argumentCode ← lowerArguments frame arguments
    return dispatch.receiver ++ argumentCode ++
      [.call dispatch.target (toWord arguments.length + dispatch.added)]

/-- The code of the arguments of a call. -/
def lowerArguments (frame : Frame) : List Expression → Except CompileError (List Instruction)
  | [] => .ok []
  | argument :: rest => do
    let code ← argument.lower frame
    let restCode ← lowerArguments frame rest
    return code ++ restCode

end

end Jack
