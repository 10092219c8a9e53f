import Jack.Token.Basic

/-!
# Reading positions in a token sequence

A cursor is a token sequence together with the number of tokens already read. It never moves past
the end. A syntax error records what was wanted, what stood there and where.
-/

namespace Jack

/-- What a reader of tokens wanted to find. -/
inductive Expectation where
  | kind (wanted : TokenKind)
  | className
  | variableName
  | subroutineName
  | parameterName
  | calleeName
  | type
  | term
  | integerConstant
  | statement
  | endOfSource
  | other (what : String)
deriving DecidableEq

/-- How an expectation is worded. -/
def Expectation.describe : Expectation → String
  | .kind wanted => wanted.describe
  | .className => "class name"
  | .variableName => "variable name"
  | .subroutineName => "subroutine name"
  | .parameterName => "parameter name"
  | .calleeName => "subroutine, class or variable name"
  | .type => "type 'int', 'char', 'boolean' or a class name"
  | .term => "term"
  | .integerConstant => "integer constant"
  | .statement => "statement"
  | .endOfSource => "end of source after class body"
  | .other what => what

/-- A place in a token sequence: the index of a token and where it stands in the source. -/
structure TokenPosition where
  token : Nat
  line : Nat
  column : Nat
deriving DecidableEq

/-- A place is shown as line, column and index. -/
def TokenPosition.describe (position : TokenPosition) : String :=
  toString position.line ++ ":" ++ toString position.column ++
    " (token " ++ toString position.token ++ ")"

/-- The place of the first unread token. With no token left it is past the last one by the bytes
of that token, and with no token at all it is the start of the source. -/
def TokenPosition.ofUnread (tokens unread : List Token) : TokenPosition :=
  match unread with
  | token :: _ => ⟨tokens.length - unread.length, token.span.line, token.span.column⟩
  | [] =>
    match tokens.getLast? with
    | some last => ⟨tokens.length, last.span.line, last.span.column + last.span.size⟩
    | none => ⟨0, 1, 1⟩

/-- An unexpected token, or an unexpected end when none was found. -/
structure SyntaxError where
  expected : Expectation
  found : Option Token
  position : TokenPosition
deriving DecidableEq

namespace SyntaxError

/-- The error of a reader that stopped before the tokens `unread`. -/
def ofUnread (tokens : List Token) (expected : Expectation) (unread : List Token) : SyntaxError :=
  ⟨expected, unread.head?, TokenPosition.ofUnread tokens unread⟩

/-- What was met instead of the expected token. -/
def encounter (error : SyntaxError) : String :=
  match error.found with
  | some token => token.describe
  | none => "end of source"

/-- The place of the error, what was expected there and what was met. -/
def message (error : SyntaxError) : String :=
  error.position.describe ++ ": expected " ++ error.expected.describe ++
    ", encountered " ++ error.encounter

end SyntaxError

/-- A token sequence of which the first `index` tokens have been read. -/
structure Cursor where
  tokens : List Token
  index : Nat

namespace Cursor

/-- A cursor before the first token. -/
def ofTokens (tokens : List Token) : Cursor := ⟨tokens, 0⟩

/-- The tokens not yet read. -/
def unread (cursor : Cursor) : List Token :=
  cursor.tokens.drop cursor.index

/-- Whether every token has been read. -/
def atEnd (cursor : Cursor) : Bool :=
  cursor.tokens.length ≤ cursor.index

/-- The cursor that has `unread` still before it. -/
def moveTo (cursor : Cursor) (unread : List Token) : Cursor :=
  { cursor with index := cursor.tokens.length - unread.length }

/-- The token that is `distance` tokens past the next one. -/
def peek (cursor : Cursor) (distance : Nat) : Option Token :=
  cursor.tokens[cursor.index + distance]?

/-- The place of the next token. -/
def position (cursor : Cursor) : TokenPosition :=
  .ofUnread cursor.tokens cursor.unread

/-- The error of expecting something else at this place. -/
def error (cursor : Cursor) (expected : Expectation) : SyntaxError :=
  .ofUnread cursor.tokens expected cursor.unread

end Cursor

end Jack
