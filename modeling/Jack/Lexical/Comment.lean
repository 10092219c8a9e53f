import Jack.Lexical.Error

/-!
# Comments

Comments are blanked out before a source is cut into tokens: each of their characters becomes a
space and their newlines stay, so every remaining character keeps its line and column. Comment
marks inside quotes are text.
-/

namespace Jack

/-- What the next character of a source belongs to. -/
inductive Region where
  | code
  | quoted (quote : Char)
  | lineComment
  | blockComment (opening : Position)
deriving DecidableEq

/-- Blanks the comments of the rest of a source that is entered inside `region` at `position`.
A quotation ends at its quote or at the end of its line. -/
def blankCommentsFrom (region : Region) (position : Position) :
    List Char → Except LexicalError (List Char)
  | [] =>
    match region with
    | .blockComment opening => .error (.unterminatedComment opening.line opening.column)
    | _ => .ok []
  | c :: rest =>
    let next := position.advance c
    match region with
    | .code =>
      match c, rest with
      | '/', '/' :: rest =>
        ([' ', ' '] ++ ·) <$> blankCommentsFrom .lineComment (next.advance '/') rest
      | '/', '*' :: rest =>
        ([' ', ' '] ++ ·) <$> blankCommentsFrom (.blockComment position) (next.advance '*') rest
      | c, rest =>
        let region := if c = '"' ∨ c = '\'' then .quoted c else .code
        (c :: ·) <$> blankCommentsFrom region next rest
    | .quoted quote =>
      let region := if c = quote ∨ c = '\n' then .code else .quoted quote
      (c :: ·) <$> blankCommentsFrom region next rest
    | .lineComment =>
      if c = '\n' then (c :: ·) <$> blankCommentsFrom .code next rest
      else (' ' :: ·) <$> blankCommentsFrom .lineComment next rest
    | .blockComment opening =>
      match c, rest with
      | '*', '/' :: rest => ([' ', ' '] ++ ·) <$> blankCommentsFrom .code (next.advance '/') rest
      | c, rest =>
        let blank := if c = '\n' then '\n' else ' '
        (blank :: ·) <$> blankCommentsFrom (.blockComment opening) next rest

/-- Behind its mark a line comment begins. -/
theorem blankCommentsFrom_lineMark (position : Position) (rest : List Char) :
    blankCommentsFrom .code position ('/' :: '/' :: rest) =
      ([' ', ' '] ++ ·) <$>
        blankCommentsFrom .lineComment ((position.advance '/').advance '/') rest := by
  rw [blankCommentsFrom]

/-- Behind its mark a block comment begins, which remembers where it was opened. -/
theorem blankCommentsFrom_blockMark (position : Position) (rest : List Char) :
    blankCommentsFrom .code position ('/' :: '*' :: rest) =
      ([' ', ' '] ++ ·) <$>
        blankCommentsFrom (.blockComment position) ((position.advance '/').advance '*') rest := by
  rw [blankCommentsFrom]

/-- A source with its comments blanked, unless a block comment is still open at its end. -/
def stripComments (source : String) : Except LexicalError String :=
  String.ofList <$> blankCommentsFrom .code .start source.toList

end Jack
