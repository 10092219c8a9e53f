import Jack.Lowering.Expression
import Jack.Proofs.Machine

/-!
# The meaning of expressions

An expression is evaluated by recursion on its tree. Evaluation reads the variables of the running
subroutine and the shared memory, and changes the shared memory through the functions it calls. It
follows the scope alone: generated code is not mentioned here.

There is no value for a name that stands for nothing, nor for the predefined name of the current
array: what that name holds is no part of the memory of a subroutine.
-/

namespace Jack

open Machine

/-- What a running subroutine has for itself: its arguments, its locals and the current object. -/
structure Activation where
  arguments : Nat → Word
  locals : Nat → Word
  object : Word

/-- The value of the variable that a slot holds. A field is a word of the current object. -/
def Slot.read? (slot : Slot) (activation : Activation) (globals : Globals) : Option Word :=
  match slot.kind with
  | .static => some (globals.statics slot.index.toNat)
  | .field => some (globals.heap (activation.object + .ofNat 16 slot.index.toNat))
  | .argument => some (activation.arguments slot.index.toNat)
  | .local => some (activation.locals slot.index.toNat)
  | .predefined => if slot.index = 0 then some activation.object else none

/-- The value of the variable that a name stands for. -/
def Scope.read? (scope : Scope) (activation : Activation) (globals : Globals) (name : String) :
    Option Word := do
  let slot ← scope.resolve? name
  slot.read? activation globals

/-- Whether a name stands for the predefined current array. -/
def Scope.namesCurrentArray (scope : Scope) (name : String) : Bool :=
  (scope.resolve? name).any fun slot => slot.kind = .predefined && slot.index = 1

/-- The result of a binary operator. Products and quotients are computed by functions that are
called for them. -/
def BinaryOperator.apply (runtime : Runtime) (globals : Globals) (left right : Word) :
    BinaryOperator → Word × Globals
  | .add => (left + right, globals)
  | .subtract => (left - right, globals)
  | .multiply => runtime.call "Math.multiply" [left, right] globals
  | .divide => runtime.call "Math.divide" [left, right] globals
  | .and => (left &&& right, globals)
  | .or => (left ||| right, globals)
  | .less => (truth (left.slt right), globals)
  | .greater => (truth (right.slt left), globals)
  | .equal => (truth (left = right), globals)

/-- The result of a unary operator. -/
def UnaryOperator.apply (operand : Word) : UnaryOperator → Word
  | .negate => -operand
  | .complement => ~~~operand

/-- Appends a character to a string object. -/
def appendChar (runtime : Runtime) (string : Word × Globals) (c : Char) : Word × Globals :=
  runtime.call "String.appendChar" [string.1, .ofNat 16 c.toNat] string.2

/-- A string object with the given characters, made empty and filled from left to right. -/
def makeString (runtime : Runtime) (globals : Globals) (text : String) : Word × Globals :=
  text.toList.foldl (appendChar runtime)
    (runtime.call "String.new" [.ofNat 16 text.length] globals)

/-- The value of a keyword constant: true is all ones. -/
def KeywordConstant.eval? (scope : Scope) (activation : Activation) (globals : Globals) :
    KeywordConstant → Option Word
  | .true => some (-1)
  | .false | .null => some 0
  | .this => scope.read? activation globals "this"

/-- The function that a call is for and the object that it gets as its first argument. Without
receiver it is a function of the same class on the current object; a receiver that is a variable gives
the class by its type and the object by its value; any other receiver is a class. -/
def Scope.callee? (scope : Scope) (activation : Activation) (globals : Globals)
    (receiver : Option String) (name : String) : Option (String × List Word) :=
  match receiver with
  | none => some (qualified scope.className name, [activation.object])
  | some receiver =>
    match scope.resolve? receiver with
    | some slot => do
      let object ← slot.read? activation globals
      return (qualified slot.item.type.name name, [object])
    | none => some (qualified receiver name, [])

mutual

/-- The value of an expression and the shared memory afterwards. -/
def Expression.eval? (runtime : Runtime) (scope : Scope) (activation : Activation)
    (globals : Globals) : Expression → Option (Word × Globals)
  | .term only => only.eval? runtime scope activation globals
  | .binary left operator right => do
    let (leftValue, globals) ← left.eval? runtime scope activation globals
    let (rightValue, globals) ← right.eval? runtime scope activation globals
    return operator.apply runtime globals leftValue rightValue

/-- The value of a term and the shared memory afterwards. The array of an element is read before its
index is evaluated. -/
def Term.eval? (runtime : Runtime) (scope : Scope) (activation : Activation)
    (globals : Globals) : Term → Option (Word × Globals)
  | .integer value => some (value.toBitVec, globals)
  | .string text => some (makeString runtime globals text)
  | .constant constant => do
    let value ← constant.eval? scope activation globals
    return (value, globals)
  | .name name => do
    let value ← scope.read? activation globals name
    return (value, globals)
  | .element array index => do
    let base ← scope.read? activation globals array
    let (offset, globals) ← index.eval? runtime scope activation globals
    return (globals.heap (base + offset), globals)
  | .call call => call.eval? runtime scope activation globals
  | .unary operator operand => do
    let (value, globals) ← operand.eval? runtime scope activation globals
    return (operator.apply value, globals)
  | .group inner => inner.eval? runtime scope activation globals

/-- The result of a call and the shared memory afterwards. The receiver is read before the arguments
are evaluated. -/
def Call.eval? (runtime : Runtime) (scope : Scope) (activation : Activation)
    (globals : Globals) : Call → Option (Word × Globals)
  | .mk receiver name arguments => do
    let (function, object) ← scope.callee? activation globals receiver name
    let (values, globals) ← evalArguments? runtime scope activation globals arguments
    return runtime.call function (object ++ values) globals

/-- The values of the arguments of a call, evaluated from left to right. -/
def evalArguments? (runtime : Runtime) (scope : Scope) (activation : Activation)
    (globals : Globals) : List Expression → Option (List Word × Globals)
  | [] => some ([], globals)
  | argument :: rest => do
    let (value, globals) ← argument.eval? runtime scope activation globals
    let (values, globals) ← evalArguments? runtime scope activation globals rest
    return (value :: values, globals)

end

end Jack
