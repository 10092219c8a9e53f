import Jack.Lexical.Error
import Jack.Text.Blank
import Jack.Text.Decimal
import Jack.Token.Basic

/-!
# Lexemes

A lexeme is the fragment that stands at the front of a source, what it reads as, and the source
that is left. `Lexeme.read` cuts one; nothing is lost and nothing is skipped.
-/

namespace Jack

/-- A fragment cut from the front of a source. -/
structure Lexeme where
  fragment : List Char
  reading : Except Malformation (TokenKind × String)
  rest : List Char

namespace Lexeme

/-- A character that may stand inside a string constant. -/
def isStringCharacter (c : Char) : Bool :=
  c ≠ '"' && c ≠ '\n'

/-- What the inside of a string constant reads as: each of its characters and its length have
to be constants of the machine. The length has no bound: it is that of a word of 32 bits as
long as there are fewer than `2 ^ 32` characters. -/
def readingOfString (text : List Char) : Except Malformation (TokenKind × String) :=
  match text.find? (maxConstant < ·.toNat) with
  | some c => .error (.characterOutOfRange c)
  | none =>
    if maxConstant < text.length then .error .stringTooLong
    else .ok (.stringConstant, String.ofList text)

/-- Reads a string constant after its opening quote. It has to end on its line; the newline that
cuts it short belongs to the fragment. -/
def readString (source : List Char) : Lexeme :=
  let text := source.takeWhile isStringCharacter
  match source.dropWhile isStringCharacter with
  | [] => ⟨'"' :: text, .error .unterminatedString, []⟩
  | c :: rest =>
    if c = '"' then ⟨'"' :: (text ++ ['"']), readingOfString text, rest⟩
    else ⟨'"' :: (text ++ [c]), .error .unterminatedString, rest⟩

/-- What a closed character literal reads as: the code of its character. -/
def readingOfCharacter (c : Char) : Except Malformation (TokenKind × String) :=
  if maxConstant < c.toNat then .error (.integerOutOfRange (String.ofList ['\'', c, '\'']))
  else .ok (.integerConstant, toString c.toNat)

/-- Reads a character literal after its opening quote. Exactly one character stands between the
quotes; the character that shows the literal to be wrong belongs to the fragment. -/
def readCharacter : List Char → Lexeme
  | [] => ⟨['\''], .error .unterminatedCharacter, []⟩
  | c :: rest =>
    if c = '\'' ∨ c = '\n' then ⟨['\'', c], .error .unterminatedCharacter, rest⟩
    else
      match rest with
      | [] => ⟨['\'', c], .error .unterminatedCharacter, []⟩
      | closing :: rest =>
        if closing = '\'' then ⟨['\'', c, '\''], readingOfCharacter c, rest⟩
        else ⟨['\'', c, closing], .error .unterminatedCharacter, rest⟩

/-- A character that words are made of: no blank, no symbol and no quote. -/
def isWordCharacter (c : Char) : Bool :=
  !Text.isBlank c && (Symbol.ofChar? c).isNone && c ≠ '"' && c ≠ '\''

/-- What a word reads as: a number when it has digits only, else a keyword or an identifier. -/
def readingOfWord (word : List Char) : Except Malformation (TokenKind × String) :=
  let text := String.ofList word
  if word.all Text.isDigit then
    if Text.digitsValue word ≤ maxConstant then .ok (.integerConstant, text)
    else .error (.integerOutOfRange text)
  else
    match Keyword.ofSpelling? text with
    | some keyword => .ok (.keyword keyword, text)
    | none => .ok (.identifier, text)

/-- Reads the longest word that begins with `c`. -/
def readWord (c : Char) (source : List Char) : Lexeme :=
  let word := c :: source.takeWhile isWordCharacter
  ⟨word, readingOfWord word, source.dropWhile isWordCharacter⟩

/-- Reads the lexeme that begins with `c`, which is no blank. -/
def read (c : Char) (source : List Char) : Lexeme :=
  if c = '"' then readString source
  else if c = '\'' then readCharacter source
  else
    match Symbol.ofChar? c with
    | some symbol => ⟨[c], .ok (.symbol symbol, c.toString), source⟩
    | none => readWord c source

/-- A fragment and the rest make up the source again. -/
theorem read_fragment_append_rest (c : Char) (source : List Char) :
    (read c source).fragment ++ (read c source).rest = c :: source := by
  unfold read
  split
  · rename_i isQuote
    have whole := List.takeWhile_append_dropWhile (p := isStringCharacter) (l := source)
    unfold readString
    split
    · rename_i nothing
      rw [nothing, List.append_nil] at whole
      simp only [isQuote, List.append_nil, whole]
    · rename_i closing rest left
      rw [left] at whole
      split
      · rename_i closed
        rw [closed] at whole
        simpa [isQuote] using whole
      · simpa [isQuote] using whole
  · split
    · rename_i isQuote
      unfold readCharacter
      split
      · simp [isQuote]
      · split
        · simp [isQuote]
        · split
          · simp [isQuote]
          · split
            · rename_i closed
              simp [isQuote, closed]
            · simp [isQuote]
    · split
      · simp
      · simp [readWord, List.takeWhile_append_dropWhile]

/-- A fragment is never empty. -/
theorem read_fragment_ne_nil (c : Char) (source : List Char) : (read c source).fragment ≠ [] := by
  unfold read readString readCharacter readWord
  repeat' split
  all_goals simp

/-- What is left is no longer than what followed the first character. -/
theorem read_rest_length_le (c : Char) (source : List Char) :
    (read c source).rest.length ≤ source.length := by
  have whole := congrArg List.length (read_fragment_append_rest c source)
  have positive := List.length_pos_iff.mpr (read_fragment_ne_nil c source)
  simp only [List.length_append, List.length_cons] at whole
  omega

end Lexeme

end Jack
