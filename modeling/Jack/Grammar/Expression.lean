import Jack.Grammar.Parser
import Jack.Text.Decimal
import Jack.Tree.Expression

/-!
# The grammar of expressions

An expression is a chain of terms. A name is told apart from an element and from a call by the one
token after it.
-/

namespace Jack.Grammar

open Jack.Parser

/-- The operator that a token of the given kind denotes between two terms. -/
def binaryOperator? : Option TokenKind → Option BinaryOperator
  | some (.symbol symbol) => BinaryOperator.ofSymbol? symbol
  | _ => none

/-- Reads an operator and the term on its right, if an operator is next. -/
def operation (term : Parser Term) : Parser (Option (BinaryOperator × Term)) := do
  match binaryOperator? (← peekKind) with
  | some operator =>
    skip
    return some (operator, ← term)
  | none => return none

/-- Reads a chain of terms. -/
def expressionOf (term : Parser Term) (bound : Nat) : Parser Expression := do
  let first ← term
  let operations ← many bound (operation term)
  return .chain first operations

/-- Reads `name(arguments)` or `receiver.name(arguments)`. -/
def callOf (expression : Parser Expression) (bound : Nat) : Parser Call := do
  let first ← identifier .calleeName
  if ← accept (.symbol .dot) then
    let name ← identifier .subroutineName
    symbol .leftParen
    let arguments ← parenthesized bound expression
    symbol .rightParen
    return ⟨some first, name, arguments⟩
  else
    symbol .leftParen
    let arguments ← parenthesized bound expression
    symbol .rightParen
    return ⟨none, first, arguments⟩

/-- Reads a term that begins with a name. -/
def namedTerm (expression : Parser Expression) (bound : Nat) (name : String) : Parser Term := do
  match ← peekSecondKind with
  | some (.symbol .leftBracket) =>
    skip
    skip
    let index ← expression
    symbol .rightBracket
    return .element name index
  | some (.symbol .leftParen) | some (.symbol .dot) => return .call (← callOf expression bound)
  | _ =>
    skip
    return .name name

/-- Reads a term that nests at most `bound` deep. An integer has to be below 65536. -/
def term : Nat → Parser Term
  | 0 => refuse .term
  | bound + 1 => do
    match ← peek with
    | none => refuse .term
    | some token =>
      match token.kind with
      | .integerConstant =>
        match Text.readUnsigned? 65535 token.text with
        | some value =>
          skip
          return .integer (.ofNat value)
        | none => refuse .integerConstant
      | .stringConstant =>
        skip
        return .string token.text
      | .keyword keyword =>
        match KeywordConstant.ofKeyword? keyword with
        | some constant =>
          skip
          return .constant constant
        | none => refuse .term
      | .identifier => namedTerm (expressionOf (term bound) bound) bound token.text
      | .symbol .leftParen =>
        skip
        let inner ← expressionOf (term bound) bound
        symbol .rightParen
        return .group inner
      | .symbol mark =>
        match UnaryOperator.ofSymbol? mark with
        | some operator =>
          skip
          return .unary operator (← term bound)
        | none => refuse .term

/-- Reads an expression. -/
def expression (bound : Nat) : Parser Expression :=
  expressionOf (term bound) bound

/-- Reads a call. -/
def call (bound : Nat) : Parser Call :=
  callOf (expression bound) bound

end Jack.Grammar
