import Jack.Grammar.Expression
import Jack.Tree.Class

/-!
# The grammar of statements

Statements follow each other as long as the next token is a keyword that begins one. An `else`
belongs to the `if` whose closing brace it follows directly.
-/

namespace Jack.Grammar

open Jack.Parser

/-- Whether a token of the given kind begins a statement. -/
def startsStatement : Option TokenKind → Bool
  | some (.keyword keyword) => keyword.startsStatement
  | _ => false

/-- Reads as many statements as follow. -/
def statementsOf (statement : Parser Statement) (bound : Nat) : Parser (List Statement) :=
  many bound do
    if startsStatement (← peekKind) then return some (← statement) else return none

/-- Reads an expression between parentheses. -/
def condition (bound : Nat) : Parser Expression := do
  symbol .leftParen
  let condition ← expression bound
  symbol .rightParen
  return condition

/-- Reads statements between braces. -/
def blockOf (statement : Parser Statement) (bound : Nat) : Parser (List Statement) := do
  symbol .leftBrace
  let statements ← statementsOf statement bound
  symbol .rightBrace
  return statements

/-- Reads an assignment after its keyword. -/
def assignment (bound : Nat) : Parser Statement := do
  let target ← identifier .variableName
  if ← accept (.symbol .leftBracket) then
    let index ← expression bound
    symbol .rightBracket
    symbol .equal
    let value ← expression bound
    symbol .semicolon
    return .assignElement target index value
  else
    symbol .equal
    let value ← expression bound
    symbol .semicolon
    return .assign target value

/-- Reads a conditional after its keyword. -/
def conditionalOf (statement : Parser Statement) (bound : Nat) : Parser Statement := do
  let condition ← condition bound
  let body ← blockOf statement bound
  if ← accept (.keyword .else) then
    return .ifElse condition body (← blockOf statement bound)
  else
    return .ifThen condition body

/-- Reads a loop after its keyword. -/
def loopOf (statement : Parser Statement) (bound : Nat) : Parser Statement := do
  let condition ← condition bound
  let body ← blockOf statement bound
  return .whileLoop condition body

/-- Reads a call for its effect, after the keyword. -/
def callStatement (bound : Nat) : Parser Statement := do
  let call ← call bound
  symbol .semicolon
  return .perform call

/-- Reads the end of a subroutine after its keyword; the value is absent when a semicolon is
next. -/
def returnStatement (bound : Nat) : Parser Statement := do
  if (← peekKind) = some (.symbol .semicolon) then
    symbol .semicolon
    return .return none
  else
    let value ← expression bound
    symbol .semicolon
    return .return (some value)

/-- Reads a statement that nests at most `bound` deep. -/
def statement : Nat → Parser Statement
  | 0 => refuse .statement
  | bound + 1 => do
    match ← peekKind with
    | some (.keyword .let) =>
      skip
      assignment bound
    | some (.keyword .if) =>
      skip
      conditionalOf (statement bound) bound
    | some (.keyword .while) =>
      skip
      loopOf (statement bound) bound
    | some (.keyword .do) =>
      skip
      callStatement bound
    | some (.keyword .return) =>
      skip
      returnStatement bound
    | _ => refuse .statement

/-- Reads as many statements as follow. -/
def statements (bound : Nat) : Parser (List Statement) :=
  statementsOf (statement bound) bound

end Jack.Grammar
