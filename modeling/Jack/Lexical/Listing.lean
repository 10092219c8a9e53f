import Jack.Lexical.Scan
import Jack.Text.Lines

/-!
# Token listings

A listing shows what a source was cut into, one line for each token or error, with the columns
place, kind, text and fragment.
-/

namespace Jack

/-- The name of a keyword in a listing: its spelling with a capital. -/
def Keyword.label (keyword : Keyword) : String :=
  keyword.spelling.capitalize

/-- The name of a symbol in a listing. -/
def Symbol.label : Symbol → String
  | .leftBrace => "LeftBrace"
  | .rightBrace => "RightBrace"
  | .leftParen => "LeftParen"
  | .rightParen => "RightParen"
  | .leftBracket => "LeftBracket"
  | .rightBracket => "RightBracket"
  | .dot => "Dot"
  | .comma => "Comma"
  | .semicolon => "Semicolon"
  | .plus => "Plus"
  | .minus => "Minus"
  | .star => "Star"
  | .slash => "Slash"
  | .ampersand => "Ampersand"
  | .pipe => "Pipe"
  | .less => "Less"
  | .greater => "Greater"
  | .equal => "Eq"
  | .tilde => "Tilde"

/-- The name of a token's kind in a listing. -/
def TokenKind.label : TokenKind → String
  | .keyword word => "Keyword(" ++ word.label ++ ")"
  | .symbol mark => "Symbol(" ++ mark.label ++ ")"
  | .identifier => "Ident"
  | .integerConstant => "IntConst"
  | .stringConstant => "StrConst"

namespace Listing

/-- The line of one token. -/
def tokenLine (source : String) (token : Token) : String :=
  Text.padRight 9 token.span.describe ++ " " ++
    Text.padRight 18 token.kind.label ++ " " ++
    Text.padRight 18 (Text.quotedString token.text) ++ " " ++
    (token.span.fragment? source).getD ""

/-- The line of a token or of an error. -/
def line (source : String) : Except LexicalError Token → String
  | .ok token => tokenLine source token
  | .error error => error.message

/-- The lines above the first token. -/
def heading (source : String) : List String :=
  ["Source Byte Count: " ++ toString source.utf8ByteSize,
   "line:col  | kind             | text             | fragment"]

end Listing

/-- The listing of a source free of comments. -/
def listing (source : String) : String :=
  Text.unlines (Listing.heading source ++ (scan source).map (Listing.line source))

end Jack
