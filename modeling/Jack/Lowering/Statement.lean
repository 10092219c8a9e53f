import Jack.Lowering.Expression

/-!
# Code for statements

Conditionals and loops are numbered separately, in the order in which they begin, and their labels
carry the number. A statement is given the numbers in use before it; how many it takes itself is
`Statement.labels`.
-/

namespace Jack

/-- How many conditionals and loops there are. The counts have no bound: they are those of words of
sixteen bits as long as a subroutine has fewer than 65536 conditionals and fewer than 65536 loops. -/
structure LabelCount where
  conditionals : Nat
  loops : Nat
deriving DecidableEq

namespace LabelCount

/-- No conditional and no loop. -/
def none : LabelCount := ⟨0, 0⟩

/-- The conditionals and loops of two pieces of code together. -/
def add (first second : LabelCount) : LabelCount :=
  ⟨first.conditionals + second.conditionals, first.loops + second.loops⟩

/-- One conditional more. -/
def addConditional (count : LabelCount) : LabelCount :=
  { count with conditionals := count.conditionals + 1 }

/-- One loop more. -/
def addLoop (count : LabelCount) : LabelCount :=
  { count with loops := count.loops + 1 }

end LabelCount

mutual

/-- The conditionals and loops in a statement, at any depth. -/
def Statement.labels : Statement → LabelCount
  | .ifThen _ body => (statementLabels body).addConditional
  | .ifElse _ body alternative =>
    ((statementLabels body).add (statementLabels alternative)).addConditional
  | .whileLoop _ body => (statementLabels body).addLoop
  | _ => .none

/-- The conditionals and loops in statements that follow each other. -/
def statementLabels : List Statement → LabelCount
  | [] => .none
  | statement :: rest => statement.labels.add (statementLabels rest)

end

/-- The place that a true condition leads to. -/
def trueLabel (number : Nat) : String := "IF_TRUE" ++ toString number

/-- The place that a false condition leads to. -/
def falseLabel (number : Nat) : String := "IF_FALSE" ++ toString number

/-- The place after a conditional with an alternative. -/
def endLabel (number : Nat) : String := "IF_END" ++ toString number

/-- The place before the condition of a loop. -/
def loopLabel (number : Nat) : String := "WHILE_EXP" ++ toString number

/-- The place after a loop. -/
def exitLabel (number : Nat) : String := "WHILE_END" ++ toString number

mutual

/-- The code of a statement, with `used` conditionals and loops before it. The address of an
element is computed before the value that is stored in it. -/
def Statement.lower (frame : Frame) (used : LabelCount) :
    Statement → Except CompileError (List Instruction)
  | .assign target value => do
    let valueCode ← value.lower frame
    let slot ← frame.resolve target
    return valueCode ++ [slot.store]
  | .assignElement array index value => do
    let slot ← frame.resolve array
    let indexCode ← index.lower frame
    let valueCode ← value.lower frame
    return [slot.load] ++ indexCode ++ [.arithmetic .add] ++ valueCode ++
      [.pop .temp 0, .pop .pointer 1, .push .temp 0, .pop .that 0]
  | .ifThen condition body => do
    let number := used.conditionals
    let conditionCode ← condition.lower frame
    let bodyCode ← lowerStatements frame used.addConditional body
    return conditionCode ++
      [.ifGoto (trueLabel number), .goto (falseLabel number), .label (trueLabel number)] ++
      bodyCode ++ [.label (falseLabel number)]
  | .ifElse condition body alternative => do
    let number := used.conditionals
    let conditionCode ← condition.lower frame
    let bodyCode ← lowerStatements frame used.addConditional body
    let alternativeCode ←
      lowerStatements frame (used.addConditional.add (statementLabels body)) alternative
    return conditionCode ++
      [.ifGoto (trueLabel number), .goto (falseLabel number), .label (trueLabel number)] ++
      bodyCode ++ [.goto (endLabel number), .label (falseLabel number)] ++
      alternativeCode ++ [.label (endLabel number)]
  | .whileLoop condition body => do
    let number := used.loops
    let conditionCode ← condition.lower frame
    let bodyCode ← lowerStatements frame used.addLoop body
    return [.label (loopLabel number)] ++ conditionCode ++
      [.arithmetic .not, .ifGoto (exitLabel number)] ++ bodyCode ++
      [.goto (loopLabel number), .label (exitLabel number)]
  | .perform call => do
    let code ← call.lower frame
    return code ++ [.pop .temp 0]
  | .return none => .ok [.push .constant 0, .return]
  | .return (some value) => do
    let code ← value.lower frame
    return code ++ [.return]

/-- The code of statements that follow each other. -/
def lowerStatements (frame : Frame) (used : LabelCount) :
    List Statement → Except CompileError (List Instruction)
  | [] => .ok []
  | statement :: rest => do
    let code ← statement.lower frame used
    let restCode ← lowerStatements frame (used.add statement.labels) rest
    return code ++ restCode

end

end Jack
