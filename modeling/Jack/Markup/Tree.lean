import Jack.Markup.Basic
import Jack.Token.Basic
import Jack.Tree.Class

/-!
# The markup of tokens and classes

The markup of a class has one leaf for each token of the class, made from the tree alone, so it
does not depend on the layout of the source. Calls have no element of their own.
-/

namespace Jack

namespace Markup

/-- The leaf of a keyword. -/
def ofKeyword (word : Keyword) : Markup := .leaf "keyword" word.spelling

/-- The leaf of a symbol. -/
def ofSymbol (mark : Symbol) : Markup := .leaf "symbol" mark.spelling

/-- The leaf of an identifier. -/
def ofName (name : String) : Markup := .leaf "identifier" name

/-- Groups of trees with a comma between two of them. -/
def separated : List (List Markup) → List Markup
  | [] => []
  | [last] => last
  | first :: rest => first ++ ofSymbol .comma :: separated rest

end Markup

open Markup

/-- The leaf of a type. -/
def DataType.markup : DataType → Markup
  | .int => ofKeyword .int
  | .char => ofKeyword .char
  | .boolean => ofKeyword .boolean
  | .object className => ofName className

/-- The element of an expression with the given terms and operators. -/
def expressionElement (operands : List Markup) : Markup :=
  .element "expression" operands

mutual

/-- The terms and operators of an expression. -/
def Expression.operandMarkup : Expression → List Markup
  | .term only => [only.markup]
  | .binary left operator right =>
    left.operandMarkup ++ [ofSymbol operator.symbol, right.markup]

/-- The element of a term. -/
def Term.markup : Term → Markup
  | .integer value => .element "term" [.leaf "integerConstant" (toString value.toNat)]
  | .string text => .element "term" [.leaf "stringConstant" text]
  | .constant value => .element "term" [ofKeyword value.keyword]
  | .name name => .element "term" [ofName name]
  | .element array index =>
    .element "term"
      [ofName array, ofSymbol .leftBracket, expressionElement index.operandMarkup,
       ofSymbol .rightBracket]
  | .call call => .element "term" call.markup
  | .unary operator operand => .element "term" [ofSymbol operator.symbol, operand.markup]
  | .group inner =>
    .element "term"
      [ofSymbol .leftParen, expressionElement inner.operandMarkup, ofSymbol .rightParen]

/-- What a call adds to the element it stands in. -/
def Call.markup : Call → List Markup
  | .mk receiver name arguments =>
    (match receiver with
      | some receiver => [ofName receiver, ofSymbol .dot]
      | none => []) ++
    [ofName name, ofSymbol .leftParen,
     .element "expressionList" (separated (argumentMarkup arguments)),
     ofSymbol .rightParen]

/-- The elements of the arguments of a call. -/
def argumentMarkup : List Expression → List (List Markup)
  | [] => []
  | argument :: rest => [expressionElement argument.operandMarkup] :: argumentMarkup rest

end

/-- The element of an expression. -/
def Expression.markup (expression : Expression) : Markup :=
  expressionElement expression.operandMarkup

mutual

/-- The element of a statement. -/
def Statement.markup : Statement → Markup
  | .assign target value =>
    .element "letStatement"
      [ofKeyword .let, ofName target, ofSymbol .equal, value.markup, ofSymbol .semicolon]
  | .assignElement array index value =>
    .element "letStatement"
      [ofKeyword .let, ofName array, ofSymbol .leftBracket, index.markup, ofSymbol .rightBracket,
       ofSymbol .equal, value.markup, ofSymbol .semicolon]
  | .ifThen condition body =>
    .element "ifStatement"
      [ofKeyword .if, ofSymbol .leftParen, condition.markup, ofSymbol .rightParen,
       ofSymbol .leftBrace, .element "statements" (statementMarkup body), ofSymbol .rightBrace]
  | .ifElse condition body alternative =>
    .element "ifStatement"
      [ofKeyword .if, ofSymbol .leftParen, condition.markup, ofSymbol .rightParen,
       ofSymbol .leftBrace, .element "statements" (statementMarkup body), ofSymbol .rightBrace,
       ofKeyword .else,
       ofSymbol .leftBrace, .element "statements" (statementMarkup alternative),
       ofSymbol .rightBrace]
  | .whileLoop condition body =>
    .element "whileStatement"
      [ofKeyword .while, ofSymbol .leftParen, condition.markup, ofSymbol .rightParen,
       ofSymbol .leftBrace, .element "statements" (statementMarkup body), ofSymbol .rightBrace]
  | .perform call =>
    .element "doStatement" (ofKeyword .do :: call.markup ++ [ofSymbol .semicolon])
  | .return none => .element "returnStatement" [ofKeyword .return, ofSymbol .semicolon]
  | .return (some value) =>
    .element "returnStatement" [ofKeyword .return, value.markup, ofSymbol .semicolon]

/-- The elements of statements that follow each other. -/
def statementMarkup : List Statement → List Markup
  | [] => []
  | statement :: rest => statement.markup :: statementMarkup rest

end

/-- The type and the names of a group of variables, up to the semicolon. -/
def VariableGroup.markup (group : VariableGroup) : List Markup :=
  group.type.markup :: separated (group.names.map fun name => [ofName name]) ++
    [ofSymbol .semicolon]

/-- The element of a declaration of class variables. -/
def ClassVariableGroup.markup (declaration : ClassVariableGroup) : Markup :=
  .element "classVarDec" (ofKeyword declaration.kind.keyword :: declaration.group.markup)

/-- The element of a declaration of local variables. -/
def VariableGroup.localMarkup (group : VariableGroup) : Markup :=
  .element "varDec" (ofKeyword .var :: group.markup)

/-- The element of the body of a subroutine. -/
def SubroutineBody.markup (body : SubroutineBody) : Markup :=
  .element "subroutineBody"
    (ofSymbol .leftBrace :: body.locals.map VariableGroup.localMarkup ++
      [.element "statements" (statementMarkup body.statements), ofSymbol .rightBrace])

/-- The leaf of the type of a result. -/
def resultMarkup : Option DataType → Markup
  | some type => type.markup
  | none => ofKeyword .void

/-- The element of a subroutine. -/
def Subroutine.markup (subroutine : Subroutine) : Markup :=
  .element "subroutineDec"
    [ofKeyword subroutine.kind.keyword, resultMarkup subroutine.result, ofName subroutine.name,
     ofSymbol .leftParen,
     .element "parameterList"
       (separated (subroutine.parameters.map fun parameter =>
         [parameter.type.markup, ofName parameter.name])),
     ofSymbol .rightParen, subroutine.body.markup]

/-- The element of a class. -/
def ClassDeclaration.markup (declaration : ClassDeclaration) : Markup :=
  .element "class"
    ([ofKeyword .class, ofName declaration.name, ofSymbol .leftBrace] ++
      declaration.variableGroups.map ClassVariableGroup.markup ++
      declaration.subroutines.map Subroutine.markup ++ [ofSymbol .rightBrace])

/-- The listing of a token sequence, whose lines are not indented. -/
def tokensText (tokens : List Token) : String :=
  Text.unlines
    (openingTag "tokens" :: (tokens.map fun token => leafLine token.kind.tag token.text) ++
      [closingTag "tokens"])

end Jack
