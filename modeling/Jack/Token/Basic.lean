import Jack.Source.Position
import Jack.Token.Word

/-!
# Tokens

A token is a kind, a text and the span it was read from. A text is what the token stands for:
the characters of a word or symbol, the inside of a string constant, the digits of a number.
-/

namespace Jack

/-- The class of a token; keywords and symbols are told apart by kind alone. -/
inductive TokenKind where
  | keyword (word : Keyword)
  | symbol (mark : Symbol)
  | identifier
  | integerConstant
  | stringConstant
deriving DecidableEq

namespace TokenKind

/-- The element name under which markup lists a token. -/
def tag : TokenKind → String
  | .keyword _ => "keyword"
  | .symbol _ => "symbol"
  | .identifier => "identifier"
  | .integerConstant => "integerConstant"
  | .stringConstant => "stringConstant"

/-- The name of the class in running text. -/
def className : TokenKind → String
  | .keyword _ => "keyword"
  | .symbol _ => "symbol"
  | .identifier => "identifier"
  | .integerConstant => "integer constant"
  | .stringConstant => "string constant"

/-- What is wanted when a token of this kind is missing. -/
def describe : TokenKind → String
  | .keyword word => "keyword '" ++ word.spelling ++ "'"
  | .symbol mark => "symbol '" ++ mark.spelling ++ "'"
  | kind => kind.className

end TokenKind

/-- One unit of a source. -/
structure Token where
  kind : TokenKind
  text : String
  span : Span
deriving DecidableEq

/-- A token is shown as its class and its text; a string constant keeps double quotes. -/
def Token.describe (token : Token) : String :=
  match token.kind with
  | .stringConstant => token.kind.className ++ " \"" ++ token.text ++ "\""
  | _ => token.kind.className ++ " '" ++ token.text ++ "'"

end Jack
