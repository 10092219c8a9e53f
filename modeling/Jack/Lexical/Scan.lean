import Jack.Lexical.Lexeme

/-!
# From a source to its tokens

`scan` cuts a whole source into lexemes and goes on after a malformed one. `tokenize` wants every
lexeme to be a token and reports the first that is not.
-/

namespace Jack

/-- The token or the error that a lexeme read at `position` stands for. -/
def Lexeme.itemAt (lexeme : Lexeme) (position : Position) : Except LexicalError Token :=
  let span := Span.covering position lexeme.fragment
  match lexeme.reading with
  | .ok (kind, text) => .ok ⟨kind, text, span⟩
  | .error cause => .error (.malformed cause span)

/-- Everything that stands in the rest of a source entered at `position`, in order. -/
def scanFrom (position : Position) : List Char → List (Except LexicalError Token)
  | [] => []
  | c :: rest =>
    if Text.isBlank c then scanFrom (position.advance c) rest
    else
      let lexeme := Lexeme.read c rest
      lexeme.itemAt position :: scanFrom (position.advanceOver lexeme.fragment) lexeme.rest
termination_by source => source.length
decreasing_by
  · simp
  · exact Nat.lt_succ_of_le (Lexeme.read_rest_length_le c rest)

/-- Everything that stands in a source free of comments, in order. -/
def scan (source : String) : List (Except LexicalError Token) :=
  scanFrom .start source.toList

/-- All values of a list of results, or its first error. -/
def collect {ε α : Type} : List (Except ε α) → Except ε (List α)
  | [] => .ok []
  | .error error :: _ => .error error
  | .ok value :: rest => (value :: ·) <$> collect rest

/-- The tokens of a source free of comments, or its first error. -/
def tokenize (source : String) : Except LexicalError (List Token) :=
  collect (scan source)

end Jack
