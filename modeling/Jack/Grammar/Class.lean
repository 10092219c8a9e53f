import Jack.Grammar.Statement

/-!
# The grammar of classes

A class is its variables followed by its subroutines. `parseClass` reads exactly one class: every
token has to belong to it.
-/

namespace Jack.Grammar

open Jack.Parser

/-- Reads a type. -/
def dataType : Parser DataType := do
  match ← peek with
  | some token =>
    match token.kind with
    | .keyword .int =>
      skip
      return .int
    | .keyword .char =>
      skip
      return .char
    | .keyword .boolean =>
      skip
      return .boolean
    | .identifier =>
      skip
      return .object token.text
    | _ => refuse .type
  | none => refuse .type

/-- Reads a type and the names declared with it, up to the semicolon. -/
def variableGroup (bound : Nat) : Parser VariableGroup := do
  let type ← dataType
  let names ← separated bound (identifier .variableName)
  symbol .semicolon
  return ⟨type, names⟩

/-- The kind of class variables that a token of the given kind opens a declaration of. -/
def classVariableKind? : Option TokenKind → Option ClassVariableKind
  | some (.keyword keyword) => ClassVariableKind.ofKeyword? keyword
  | _ => none

/-- Reads a declaration of class variables, if one is next. -/
def classVariables (bound : Nat) : Parser (Option ClassVariableGroup) := do
  match classVariableKind? (← peekKind) with
  | some kind =>
    skip
    return some ⟨kind, ← variableGroup bound⟩
  | none => return none

/-- Reads a declaration of local variables, if one is next. -/
def localVariables (bound : Nat) : Parser (Option VariableGroup) := do
  if ← accept (.keyword .var) then return some (← variableGroup bound) else return none

/-- Reads the body of a subroutine. -/
def subroutineBody (bound : Nat) : Parser SubroutineBody := do
  symbol .leftBrace
  let locals ← many bound (localVariables bound)
  let statements ← statements bound
  symbol .rightBrace
  return ⟨locals, statements⟩

/-- Reads a parameter. -/
def parameter : Parser Variable := do
  let type ← dataType
  let name ← identifier .parameterName
  return ⟨type, name⟩

/-- Reads the type of a result, or `void` for none. -/
def resultType : Parser (Option DataType) := do
  if ← accept (.keyword .void) then return none else return some (← dataType)

/-- The kind of subroutine that a token of the given kind opens a declaration of. -/
def subroutineKind? : Option TokenKind → Option SubroutineKind
  | some (.keyword keyword) => SubroutineKind.ofKeyword? keyword
  | _ => none

/-- Reads a subroutine, if one is next. -/
def subroutine (bound : Nat) : Parser (Option Subroutine) := do
  match subroutineKind? (← peekKind) with
  | some kind =>
    skip
    let result ← resultType
    let name ← identifier .subroutineName
    symbol .leftParen
    let parameters ← parenthesized bound parameter
    symbol .rightParen
    let body ← subroutineBody bound
    return some ⟨kind, result, name, parameters, body⟩
  | none => return none

/-- Reads a class. -/
def classDeclaration (bound : Nat) : Parser ClassDeclaration := do
  keyword .class
  let name ← identifier .className
  symbol .leftBrace
  let groups ← many bound (classVariables bound)
  let subroutines ← many bound (subroutine bound)
  symbol .rightBrace
  return ⟨name, groups, subroutines⟩

/-- Reads a class and the end of the source. -/
def compilationUnit (bound : Nat) : Parser ClassDeclaration := do
  let declaration ← classDeclaration bound
  match ← peek with
  | none => return declaration
  | some _ => refuse .endOfSource

/-- The class that a whole token sequence makes up. -/
def parseClass (tokens : List Token) : Except SyntaxError ClassDeclaration :=
  ((Cursor.ofTokens tokens).parse compilationUnit).2

end Jack.Grammar
