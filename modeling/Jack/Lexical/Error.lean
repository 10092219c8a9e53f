import Jack.Source.Position
import Jack.Text.Hexadecimal
import Jack.Text.Quoted

/-!
# Lexical errors

A fragment of a source that is no token is malformed for one of five causes; a block comment
that never ends has only a place.
-/

namespace Jack

/-- The largest integer constant, the largest character code in a constant and the greatest
length of a string constant. -/
def maxConstant : Nat := 32767

/-- Why a fragment is no token. -/
inductive Malformation where
  | unterminatedString
  | unterminatedCharacter
  | integerOutOfRange (text : String)
  | characterOutOfRange (c : Char)
  | stringTooLong
deriving DecidableEq

/-- What is said of a malformed fragment. -/
def Malformation.message : Malformation → String
  | .unterminatedString => "unterminated string constant"
  | .unterminatedCharacter => "unterminated character literal"
  | .integerOutOfRange text =>
    "integer constant " ++ text ++ " is out of range 0..=" ++ toString maxConstant
  | .characterOutOfRange c =>
    "character " ++ Text.quotedChar c ++ " (U+" ++ Text.hexCapitals 4 c.toNat ++
      ") in string constant is out of range 0..=" ++ toString maxConstant
  | .stringTooLong =>
    "string constant is longer than " ++ toString maxConstant ++ " characters"

/-- An error found before the source is a sequence of tokens. -/
inductive LexicalError where
  | unterminatedComment (line column : Nat)
  | malformed (cause : Malformation) (span : Span)
deriving DecidableEq

/-- The place of the error followed by its cause. -/
def LexicalError.message : LexicalError → String
  | .unterminatedComment line column =>
    toString line ++ ":" ++ toString column ++ ": unterminated block comment"
  | .malformed cause span => span.describe ++ ": " ++ cause.message

end Jack
