import Jack.Token.Cursor

/-!
# Readers of token sequences

A parser reads a value from the front of a token sequence. It either returns the value and the
tokens it left, or says what it wanted and before which tokens it stopped; there is no going
back. Repetition is bounded, and the bound that `Parser.run` gives is never reached, because every
repetition reads at least one token.
-/

namespace Jack

/-- What a parser did with a token sequence. -/
inductive Outcome (α : Type) where
  | read (value : α) (rest : List Token)
  | refused (expected : Expectation) (rest : List Token)

/-- A reader of values of type `α`. -/
def Parser (α : Type) := List Token → Outcome α

namespace Parser

instance : Monad Parser where
  pure value := fun tokens => .read value tokens
  bind parser next := fun tokens =>
    match parser tokens with
    | .read value rest => next value rest
    | .refused expected rest => .refused expected rest

@[simp] theorem pure_apply {α : Type} (value : α) (tokens : List Token) :
    (pure value : Parser α) tokens = .read value tokens := rfl

/-- What follows a value that was read starts at the tokens left. -/
theorem bind_apply_of_read {α β : Type} {parser : Parser α} {tokens rest : List Token} {value : α}
    (reads : parser tokens = .read value rest) (next : α → Parser β) :
    (parser >>= next) tokens = next value rest := by
  change (match parser tokens with
    | .read value rest => next value rest
    | .refused expected rest => .refused expected rest) = next value rest
  rw [reads]

/-- Nothing follows a refusal. -/
theorem bind_apply_of_refused {α β : Type} {parser : Parser α} {tokens rest : List Token}
    {expected : Expectation} (refuses : parser tokens = .refused expected rest)
    (next : α → Parser β) : (parser >>= next) tokens = .refused expected rest := by
  change (match parser tokens with
    | .read value rest => next value rest
    | .refused expected rest => .refused expected rest) = .refused expected rest
  rw [refuses]

/-- Stops and says what was wanted. -/
def refuse {α : Type} (expected : Expectation) : Parser α :=
  fun tokens => .refused expected tokens

/-- The next token, left in place. -/
def peek : Parser (Option Token) :=
  fun tokens => .read tokens.head? tokens

/-- The kind of the next token. -/
def peekKind : Parser (Option TokenKind) :=
  fun tokens => .read (tokens.head?.map Token.kind) tokens

/-- The kind of the token after the next one. -/
def peekSecondKind : Parser (Option TokenKind) :=
  fun tokens => .read (tokens[1]?.map Token.kind) tokens

/-- Reads the next token, if there is one. -/
def next : Parser (Option Token) :=
  fun tokens => .read tokens.head? tokens.tail

/-- Reads the next token whatever it is. -/
def skip : Parser Unit :=
  fun tokens => .read () tokens.tail

/-- Reads the next token if it is of the given kind, and says whether it did. -/
def accept (kind : TokenKind) : Parser Bool :=
  fun tokens =>
    match tokens with
    | token :: rest => if token.kind = kind then .read true rest else .read false tokens
    | [] => .read false []

/-- Reads a token that has to be of the given kind. -/
def expectToken (kind : TokenKind) : Parser Token :=
  fun tokens =>
    match tokens with
    | token :: rest => if token.kind = kind then .read token rest else .refused (.kind kind) tokens
    | [] => .refused (.kind kind) []

/-- Reads a keyword. -/
def keyword (keyword : Keyword) : Parser Unit := do
  let _ ← expectToken (.keyword keyword)

/-- Reads a symbol. -/
def symbol (symbol : Symbol) : Parser Unit := do
  let _ ← expectToken (.symbol symbol)

/-- Reads an identifier that is wanted for the given purpose. -/
def identifier (purpose : Expectation) : Parser String :=
  fun tokens =>
    match tokens with
    | token :: rest =>
      if token.kind = .identifier then .read token.text rest else .refused purpose tokens
    | [] => .refused purpose []

/-- Reads items until the first that is absent, and at most `bound` of them. -/
def many {α : Type} (bound : Nat) (item : Parser (Option α)) : Parser (List α) :=
  match bound with
  | 0 => pure []
  | bound + 1 => do
    match ← item with
    | some value => return value :: (← many bound item)
    | none => return []

/-- Reads one item and, after each comma, one more. -/
def separated {α : Type} (bound : Nat) (item : Parser α) : Parser (List α) := do
  let first ← item
  let others ← many bound do
    if ← accept (.symbol .comma) then return some (← item) else return none
  return first :: others

/-- Reads a list of items separated by commas in front of a closing parenthesis. -/
def parenthesized {α : Type} (bound : Nat) (item : Parser α) : Parser (List α) := do
  if (← peekKind) = some (.symbol .rightParen) then return [] else separated bound item

/-- Runs a parser with a bound on repetition that its input cannot reach. -/
def run {α : Type} (parser : Nat → Parser α) (tokens : List Token) : Outcome α :=
  parser (tokens.length + 1) tokens

end Parser

/-- Reads from the place of a cursor. The cursor that comes back stands where the parser stopped,
also when it refused. -/
def Cursor.parse {α : Type} (cursor : Cursor) (parser : Nat → Parser α) :
    Cursor × Except SyntaxError α :=
  match Parser.run parser cursor.unread with
  | .read value rest => (cursor.moveTo rest, .ok value)
  | .refused expected rest =>
    let stopped := cursor.moveTo rest
    (stopped, .error (stopped.error expected))

end Jack
