import Jack.Lexical.Comment
import Jack.Lexical.Scan
import Mathlib.Data.List.Forall2

/-!
# Sources with comments, read in one pass

`tokenizeCommented` cuts a source into lexemes as `tokenize` does, but it goes over the comments
between them itself and stops at the first error. Blanking the comments first makes no difference:
both find the same tokens at the same lines and columns, or the same error. Only the offsets differ,
since a comment may take more bytes than the spaces that stand for it.
-/

namespace Jack

/-- How many characters of a source a block comment takes behind its opening mark, unless it never
ends. -/
def blockCommentSize? : List Char → Option Nat
  | [] => none
  | '*' :: '/' :: _ => some 2
  | _ :: rest => (blockCommentSize? rest).map (· + 1)

/-- A character inside a line comment. -/
def isOnLine (c : Char) : Bool := c ≠ '\n'

/-- The tokens in the rest of a source entered at `position`, or the first error in it. Blanks and
comments stand for nothing. -/
def readCommented (position : Position) : List Char → Except LexicalError (List Token)
  | [] => .ok []
  | '/' :: '/' :: rest =>
    readCommented (position.advanceOver ('/' :: '/' :: rest.takeWhile isOnLine))
      (rest.dropWhile isOnLine)
  | '/' :: '*' :: rest =>
    match blockCommentSize? rest with
    | some size =>
      readCommented (position.advanceOver ('/' :: '*' :: rest.take size)) (rest.drop size)
    | none => .error (.unterminatedComment position.line position.column)
  | c :: rest =>
    if Text.isBlank c then readCommented (position.advance c) rest
    else
      let lexeme := Lexeme.read c rest
      let others := readCommented (position.advanceOver lexeme.fragment) lexeme.rest
      return (← lexeme.itemAt position) :: (← others)
termination_by source => source.length
decreasing_by
  · have shorter := (List.dropWhile_sublist isOnLine (l := rest)).length_le
    simp only [List.length_cons]
    omega
  · simp only [List.length_drop, List.length_cons]
    omega
  · simp
  · exact Nat.lt_succ_of_le (Lexeme.read_rest_length_le c rest)

/-- The tokens of a source that may have comments, or its first error. -/
def tokenizeCommented (source : String) : Except LexicalError (List Token) :=
  readCommented .start source.toList

/-- Two tokens of the same kind and text that stand at the same line and column. -/
def Token.Matches (token other : Token) : Prop :=
  token.kind = other.kind ∧ token.text = other.text ∧ token.span.line = other.span.line ∧
    token.span.column = other.span.column

/-- Two errors of the same cause that stand at the same line and column. -/
def LexicalError.Matches : LexicalError → LexicalError → Prop
  | .unterminatedComment line column, .unterminatedComment otherLine otherColumn =>
    line = otherLine ∧ column = otherColumn
  | .malformed cause span, .malformed otherCause otherSpan =>
    cause = otherCause ∧ span.line = otherSpan.line ∧ span.column = otherSpan.column
  | _, _ => False

/-- Two readings of a source both find tokens that match one by one, or both find errors that
match. -/
inductive SameReading :
    Except LexicalError (List Token) → Except LexicalError (List Token) → Prop where
  | tokens {tokens others} (each : List.Forall₂ Token.Matches tokens others) :
      SameReading (.ok tokens) (.ok others)
  | errors {error other} (same : error.Matches other) : SameReading (.error error) (.error other)

section Blanking

/-- Blanking the comments of the first text, entered inside the region, gives the second. -/
def Blanks (region : Region) (source stripped : List Char) : Prop :=
  ∃ position, blankCommentsFrom region position source = .ok stripped

/-- What stands for a character of a comment. -/
def blankOf (c : Char) : Char := if c = '\n' then '\n' else ' '

variable {source stripped : List Char}

theorem map_eq_ok_iff {ε α β : Type} {f : α → β} {result : Except ε α} {value : β} :
    f <$> result = .ok value ↔ ∃ original, result = .ok original ∧ f original = value := by
  cases result <;> simp [Functor.map, Except.map]

/-- A comment begins with two characters. -/
def OpensComment (c : Char) (rest : List Char) : Prop :=
  c = '/' ∧ (rest.head? = some '/' ∨ rest.head? = some '*')

theorem not_opensComment {c : Char} {rest : List Char}
    (noLine : ∀ more, c = '/' → rest = '/' :: more → False)
    (noBlock : ∀ more, c = '/' → rest = '*' :: more → False) : ¬ OpensComment c rest := by
  rintro ⟨slash, next | next⟩
  · obtain ⟨more, behind⟩ := List.head?_eq_some_iff.mp next
    exact noLine more slash behind
  · obtain ⟨more, behind⟩ := List.head?_eq_some_iff.mp next
    exact noBlock more slash behind

/-- The region behind a character of code. -/
def Region.behind (c : Char) : Region := if c = '"' ∨ c = '\'' then .quoted c else .code

/-- Code is kept where no comment begins. -/
theorem blankCommentsFrom_code_cons {c : Char} {rest : List Char} (plain : ¬ OpensComment c rest)
    (position : Position) :
    blankCommentsFrom .code position (c :: rest) =
      (c :: ·) <$> blankCommentsFrom (.behind c) (position.advance c) rest := by
  rw [blankCommentsFrom, Region.behind]
  · rintro rest rfl rfl
    exact plain ⟨rfl, .inl rfl⟩
  · rintro rest rfl rfl
    exact plain ⟨rfl, .inr rfl⟩

theorem Blanks.of_code_cons {c : Char} {rest : List Char} (plain : ¬ OpensComment c rest)
    (blanks : Blanks .code (c :: rest) stripped) :
    ∃ left, stripped = c :: left ∧ Blanks (.behind c) rest left := by
  obtain ⟨position, blanked⟩ := blanks
  rw [blankCommentsFrom_code_cons plain, map_eq_ok_iff] at blanked
  obtain ⟨left, blanked, rfl⟩ := blanked
  exact ⟨left, rfl, _, blanked⟩

/-- Nothing is left of nothing. -/
theorem Blanks.eq_nil {region : Region} (blanks : Blanks region [] stripped) : stripped = [] := by
  obtain ⟨position, blanked⟩ := blanks
  cases region <;> simp_all [blankCommentsFrom]

/-- A line comment is blanked up to the newline, which is code again. -/
theorem blankCommentsFrom_lineComment (position : Position) (source : List Char) :
    blankCommentsFrom .lineComment position source =
      ((source.takeWhile isOnLine).map blankOf ++ ·) <$>
        blankCommentsFrom .code (position.advanceOver (source.takeWhile isOnLine))
          (source.dropWhile isOnLine) := by
  induction source generalizing position with
  | nil => rfl
  | cons c rest inductionHypothesis =>
    by_cases ends : c = '\n'
    · subst ends
      have code : ¬ OpensComment '\n' rest := by simp [OpensComment]
      have newline := blankCommentsFrom_code_cons code position
      exact newline.symm.trans (id_map _).symm
    · have inside : isOnLine c = true := by simpa [isOnLine] using ends
      have blank : blankOf c = ' ' := if_neg ends
      rw [blankCommentsFrom, if_neg ends, inductionHypothesis, List.takeWhile_cons_of_pos inside,
        List.dropWhile_cons_of_pos inside, List.map_cons, blank, ← comp_map]
      rfl

/-- A block comment that ends is blanked up to its end, and then code follows. One that does not end is
an error at the place where it was opened. -/
theorem blankCommentsFrom_blockComment (opening position : Position) (source : List Char) :
    blankCommentsFrom (.blockComment opening) position source =
      match blockCommentSize? source with
      | some size =>
        ((source.take size).map blankOf ++ ·) <$>
          blankCommentsFrom .code (position.advanceOver (source.take size)) (source.drop size)
      | none => .error (.unterminatedComment opening.line opening.column) := by
  fun_induction blockCommentSize? source generalizing position with
  | case1 => rfl
  | case2 rest =>
    rw [blankCommentsFrom]
    rfl
  | case3 c rest unclosed inductionHypothesis =>
    rw [blankCommentsFrom, inductionHypothesis]
    · cases blockCommentSize? rest with
      | none => rfl
      | some size => exact (comp_map _ _ _).symm
    · exact unclosed

theorem Blanks.of_lineComment (blanks : Blanks .lineComment source stripped) :
    ∃ left, stripped = (source.takeWhile isOnLine).map blankOf ++ left ∧
      Blanks .code (source.dropWhile isOnLine) left := by
  obtain ⟨position, blanked⟩ := blanks
  rw [blankCommentsFrom_lineComment, map_eq_ok_iff] at blanked
  obtain ⟨left, code, rfl⟩ := blanked
  exact ⟨left, rfl, _, code⟩

theorem Blanks.of_blockComment {opening : Position}
    (blanks : Blanks (.blockComment opening) source stripped) :
    ∃ size left, blockCommentSize? source = some size ∧
      stripped = (source.take size).map blankOf ++ left ∧ Blanks .code (source.drop size) left := by
  obtain ⟨position, blanked⟩ := blanks
  rw [blankCommentsFrom_blockComment] at blanked
  split at blanked
  · rename_i size found
    obtain ⟨left, code, rfl⟩ := map_eq_ok_iff.mp blanked
    exact ⟨size, left, found, rfl, _, code⟩
  · cases blanked

/-- A line comment is blanked together with its opening mark. -/
theorem Blanks.of_lineMark {rest : List Char}
    (blanks : Blanks .code ('/' :: '/' :: rest) stripped) :
    ∃ left, stripped = ('/' :: '/' :: rest.takeWhile isOnLine).map blankOf ++ left ∧
      Blanks .code (rest.dropWhile isOnLine) left := by
  obtain ⟨position, blanked⟩ := blanks
  rw [blankCommentsFrom_lineMark, map_eq_ok_iff] at blanked
  obtain ⟨inside, further, rfl⟩ := blanked
  obtain ⟨left, rfl, code⟩ := Blanks.of_lineComment ⟨_, further⟩
  exact ⟨left, rfl, code⟩

/-- A block comment is blanked together with its opening mark. -/
theorem Blanks.of_blockMark {rest : List Char}
    (blanks : Blanks .code ('/' :: '*' :: rest) stripped) :
    ∃ size left, blockCommentSize? rest = some size ∧
      stripped = ('/' :: '*' :: rest.take size).map blankOf ++ left ∧
      Blanks .code (rest.drop size) left := by
  obtain ⟨position, blanked⟩ := blanks
  rw [blankCommentsFrom_blockMark, map_eq_ok_iff] at blanked
  obtain ⟨inside, further, rfl⟩ := blanked
  obtain ⟨size, left, found, rfl, code⟩ := Blanks.of_blockComment ⟨_, further⟩
  exact ⟨size, left, found, rfl, code⟩

/-- A quotation is kept, and its quote or the end of its line is the last character of it. -/
theorem Blanks.of_quoted_cons {quote c : Char} {rest : List Char}
    (blanks : Blanks (.quoted quote) (c :: rest) stripped) :
    ∃ left, stripped = c :: left ∧
      (c = quote ∨ c = '\n' → Blanks .code rest left) ∧
      (¬ (c = quote ∨ c = '\n') → Blanks (.quoted quote) rest left) := by
  obtain ⟨position, blanked⟩ := blanks
  simp only [blankCommentsFrom, map_eq_ok_iff] at blanked
  obtain ⟨left, blanked, rfl⟩ := blanked
  refine ⟨left, rfl, ?_, ?_⟩
  · intro ends
    rw [if_pos ends] at blanked
    exact ⟨_, blanked⟩
  · intro inside
    rw [if_neg inside] at blanked
    exact ⟨_, blanked⟩

end Blanking

section Lexemes

variable {source stripped : List Char}

/-- A lexeme of a stripped source is the lexeme that stands in the source. Behind one that is no
token the two may go different ways. -/
structure Lexeme.IsLeftOf (lexeme original : Lexeme) : Prop where
  fragment : lexeme.fragment = original.fragment
  reading : lexeme.reading = original.reading
  rest : (∃ token, original.reading = .ok token) → Blanks .code original.rest lexeme.rest

/-- The text of a string constant is kept. -/
theorem Blanks.string (blanks : Blanks (.quoted '"') source stripped) :
    stripped.takeWhile Lexeme.isStringCharacter = source.takeWhile Lexeme.isStringCharacter ∧
      (source.dropWhile Lexeme.isStringCharacter = [] ∧
        stripped.dropWhile Lexeme.isStringCharacter = [] ∨
      ∃ c rest left, source.dropWhile Lexeme.isStringCharacter = c :: rest ∧
        stripped.dropWhile Lexeme.isStringCharacter = c :: left ∧ Blanks .code rest left) := by
  induction source generalizing stripped with
  | nil =>
    rw [blanks.eq_nil]
    exact ⟨rfl, .inl ⟨rfl, rfl⟩⟩
  | cons c rest inductionHypothesis =>
    obtain ⟨left, rfl, closed, inside⟩ := blanks.of_quoted_cons
    by_cases ends : c = '"' ∨ c = '\n'
    · have last : Lexeme.isStringCharacter c = false := by
        rcases ends with rfl | rfl <;> rfl
      simp only [List.takeWhile_cons, List.dropWhile_cons, last, Bool.false_eq_true, if_false]
      exact ⟨trivial, .inr ⟨c, rest, left, rfl, rfl, closed ends⟩⟩
    · have kept : Lexeme.isStringCharacter c = true := by
        simpa [Lexeme.isStringCharacter, not_or] using ends
      simp only [List.takeWhile_cons, List.dropWhile_cons, kept, if_true]
      obtain ⟨same, others⟩ := inductionHypothesis (inside ends)
      exact ⟨by rw [same], others⟩

theorem Blanks.readString (blanks : Blanks (.quoted '"') source stripped) :
    (Lexeme.readString stripped).IsLeftOf (Lexeme.readString source) := by
  obtain ⟨text, ⟨none, none'⟩ | ⟨c, rest, left, behind, behind', code⟩⟩ := blanks.string
  · unfold Lexeme.readString
    rw [text, none, none']
    exact ⟨rfl, rfl, by rintro ⟨_, ⟨⟩⟩⟩
  · unfold Lexeme.readString
    rw [text, behind, behind']
    simp only
    split
    · exact ⟨rfl, rfl, fun _ => code⟩
    · exact ⟨rfl, rfl, by rintro ⟨_, ⟨⟩⟩⟩

theorem Blanks.readCharacter (blanks : Blanks (.quoted '\'') source stripped) :
    (Lexeme.readCharacter stripped).IsLeftOf (Lexeme.readCharacter source) := by
  cases source with
  | nil =>
    rw [blanks.eq_nil]
    exact ⟨rfl, rfl, by rintro ⟨_, ⟨⟩⟩⟩
  | cons c rest =>
    obtain ⟨left, rfl, _, inside⟩ := blanks.of_quoted_cons
    by_cases ends : c = '\'' ∨ c = '\n'
    · simp only [Lexeme.readCharacter, if_pos ends]
      exact ⟨rfl, rfl, by rintro ⟨_, ⟨⟩⟩⟩
    · simp only [Lexeme.readCharacter, if_neg ends]
      cases rest with
      | nil =>
        rw [(inside ends).eq_nil]
        exact ⟨rfl, rfl, by rintro ⟨_, ⟨⟩⟩⟩
      | cons closing rest =>
        obtain ⟨left, rfl, closed, _⟩ := (inside ends).of_quoted_cons
        simp only
        split
        · rename_i quote
          exact ⟨rfl, rfl, fun _ => closed (.inl quote)⟩
        · exact ⟨rfl, rfl, by rintro ⟨_, ⟨⟩⟩⟩

/-- Behind a character that is neither a slash nor a quote there is code. -/
theorem Blanks.of_code_cons_of_ne {c : Char} {rest : List Char} (noSlash : c ≠ '/')
    (noQuote : ¬ (c = '"' ∨ c = '\'')) (blanks : Blanks .code (c :: rest) stripped) :
    ∃ left, stripped = c :: left ∧ Blanks .code rest left := by
  have behind : Region.behind c = .code := if_neg noQuote
  rw [← behind]
  exact blanks.of_code_cons fun opens => noSlash opens.1

/-- A word is kept. What follows it is no part of a word, also when it is a comment. -/
theorem Blanks.word (blanks : Blanks .code source stripped) :
    stripped.takeWhile Lexeme.isWordCharacter = source.takeWhile Lexeme.isWordCharacter ∧
      Blanks .code (source.dropWhile Lexeme.isWordCharacter)
        (stripped.dropWhile Lexeme.isWordCharacter) := by
  induction source generalizing stripped with
  | nil =>
    rw [blanks.eq_nil]
    exact ⟨rfl, .start, rfl⟩
  | cons c rest inductionHypothesis =>
    by_cases word : Lexeme.isWordCharacter c
    · have noSlash : c ≠ '/' := by
        rintro rfl
        revert word
        decide
      have noQuote : ¬ (c = '"' ∨ c = '\'') := by
        rintro (rfl | rfl) <;> revert word <;> decide
      obtain ⟨left, rfl, code⟩ := blanks.of_code_cons_of_ne noSlash noQuote
      simp only [List.takeWhile_cons, List.dropWhile_cons, word, if_true]
      obtain ⟨same, others⟩ := inductionHypothesis code
      exact ⟨by rw [same], others⟩
    · have first : ∃ d left, stripped = d :: left ∧ ¬ Lexeme.isWordCharacter d := by
        by_cases opens : OpensComment c rest
        · obtain ⟨rfl, slash | star⟩ := opens
          · obtain ⟨more, rfl⟩ := List.head?_eq_some_iff.mp slash
            obtain ⟨left, rfl, _⟩ := blanks.of_lineMark
            exact ⟨' ', _, rfl, by decide⟩
          · obtain ⟨more, rfl⟩ := List.head?_eq_some_iff.mp star
            obtain ⟨_, left, _, rfl, _⟩ := blanks.of_blockMark
            exact ⟨' ', _, rfl, by decide⟩
        · obtain ⟨left, rfl, _⟩ := blanks.of_code_cons opens
          exact ⟨c, left, rfl, word⟩
      obtain ⟨d, left, rfl, other⟩ := first
      simp only [List.takeWhile_cons, List.dropWhile_cons, word, other, Bool.false_eq_true,
        if_false]
      exact ⟨trivial, blanks⟩

/-- Where no comment begins, the lexeme that follows is kept. -/
theorem Blanks.read {c : Char} {rest : List Char} (plain : ¬ OpensComment c rest)
    (blanks : Blanks .code (c :: rest) stripped) :
    ∃ left, stripped = c :: left ∧ (Lexeme.read c left).IsLeftOf (Lexeme.read c rest) := by
  obtain ⟨left, rfl, behind⟩ := blanks.of_code_cons plain
  refine ⟨left, rfl, ?_⟩
  unfold Lexeme.read
  unfold Region.behind at behind
  split
  · rename_i string
    subst string
    exact Blanks.readString behind
  · rename_i noString
    split
    · rename_i character
      subst character
      exact Blanks.readCharacter behind
    · rename_i noCharacter
      rw [if_neg (by simp [noString, noCharacter])] at behind
      split
      · exact ⟨rfl, rfl, fun _ => behind⟩
      · obtain ⟨same, code⟩ := behind.word
        unfold Lexeme.readWord
        rw [same]
        exact ⟨rfl, rfl, fun _ => code⟩

end Lexemes

section Positions

/-- Two positions at the same line and column. -/
def Position.IsBeside (position other : Position) : Prop :=
  position.line = other.line ∧ position.column = other.column

variable {position other : Position}

/-- Only newlines tell lines and columns apart. -/
theorem Position.IsBeside.advance (beside : position.IsBeside other) {c d : Char}
    (same : c = '\n' ↔ d = '\n') : (position.advance c).IsBeside (other.advance d) := by
  unfold Position.advance
  by_cases newline : c = '\n'
  · rw [if_pos newline, if_pos (same.mp newline)]
    exact ⟨congrArg (· + 1) beside.1, rfl⟩
  · rw [if_neg newline, if_neg (same.not.mp newline)]
    exact ⟨beside.1, congrArg (· + 1) beside.2⟩

theorem Position.IsBeside.advanceOver (beside : position.IsBeside other) (text : List Char) :
    (position.advanceOver text).IsBeside (other.advanceOver text) := by
  induction text generalizing position other with
  | nil => exact beside
  | cons c rest inductionHypothesis => exact inductionHypothesis (beside.advance Iff.rfl)

/-- Blanks go as far as the comment that they stand for. -/
theorem Position.IsBeside.advanceOver_blanks (beside : position.IsBeside other)
    (comment : List Char) :
    (position.advanceOver (comment.map blankOf)).IsBeside (other.advanceOver comment) := by
  induction comment generalizing position other with
  | nil => exact beside
  | cons c rest inductionHypothesis =>
    refine inductionHypothesis (beside.advance ?_)
    unfold blankOf
    split <;> simp_all

end Positions

section Scanning

/-- Blanks stand for nothing. -/
theorem scanFrom_append {position : Position} {blanks rest : List Char}
    (blank : ∀ c ∈ blanks, Text.isBlank c) :
    scanFrom position (blanks ++ rest) = scanFrom (position.advanceOver blanks) rest := by
  induction blanks generalizing position with
  | nil => rfl
  | cons c others inductionHypothesis =>
    rw [List.forall_mem_cons] at blank
    rw [List.cons_append, scanFrom, if_pos blank.1, inductionHypothesis blank.2]
    rfl

theorem isBlank_blankOf (c : Char) : Text.isBlank (blankOf c) := by
  unfold blankOf
  split <;> decide

/-- A comment that was blanked stands for nothing. -/
theorem scanFrom_blanked (position : Position) (comment rest : List Char) :
    scanFrom position (comment.map blankOf ++ rest) =
      scanFrom (position.advanceOver (comment.map blankOf)) rest := by
  refine scanFrom_append fun c member => ?_
  obtain ⟨original, _, rfl⟩ := List.mem_map.mp member
  exact isBlank_blankOf original

/-- The same lexeme at the same line and column, and then a same reading unless it is no token. -/
theorem SameReading.cons {lexeme original : Lexeme} {position other : Position}
    {items : List (Except LexicalError Token)} {others : Except LexicalError (List Token)}
    (reading : lexeme.reading = original.reading) (beside : position.IsBeside other)
    (further : (∃ token, original.reading = .ok token) → SameReading (collect items) others) :
    SameReading (collect (lexeme.itemAt position :: items))
      (do return (← original.itemAt other) :: (← others)) := by
  unfold Lexeme.itemAt
  rw [reading]
  cases outcome : original.reading with
  | error cause => exact .errors ⟨rfl, beside⟩
  | ok token =>
    have same := further ⟨token, outcome⟩
    simp only [collect]
    generalize collect items = first at same
    cases same with
    | errors same => exact .errors same
    | tokens each => exact .tokens (.cons ⟨rfl, rfl, beside⟩ each)

/-- Up to the first error, a source reads as what is left of it when its comments are blanked. -/
theorem sameReading_readCommented {source stripped : List Char}
    (blanks : Blanks .code source stripped) {position other : Position}
    (beside : position.IsBeside other) :
    SameReading (collect (scanFrom position stripped)) (readCommented other source) := by
  fun_induction readCommented other source generalizing stripped position with
  | case1 other =>
    rw [blanks.eq_nil, scanFrom]
    exact .tokens .nil
  | case2 other rest inductionHypothesis =>
    obtain ⟨left, rfl, code⟩ := blanks.of_lineMark
    rw [scanFrom_blanked]
    exact inductionHypothesis code (beside.advanceOver_blanks _)
  | case3 other rest size found inductionHypothesis =>
    obtain ⟨known, left, ended, rfl, code⟩ := blanks.of_blockMark
    rw [found] at ended
    cases ended
    rw [scanFrom_blanked]
    exact inductionHypothesis code (beside.advanceOver_blanks _)
  | case4 other rest unended =>
    obtain ⟨_, _, ended, _⟩ := blanks.of_blockMark
    rw [unended] at ended
    cases ended
  | case5 other c rest noLine noBlock blank inductionHypothesis =>
    have noSlash : c ≠ '/' := by
      rintro rfl
      revert blank
      decide
    have noQuote : ¬ (c = '"' ∨ c = '\'') := by
      rintro (rfl | rfl) <;> revert blank <;> decide
    obtain ⟨left, rfl, code⟩ := blanks.of_code_cons_of_ne noSlash noQuote
    rw [scanFrom, if_pos blank]
    exact inductionHypothesis code (beside.advance Iff.rfl)
  | case6 other c rest noLine noBlock token lexeme =>
    rename_i inductionHypothesis
    obtain ⟨left, rfl, kept⟩ := blanks.read (not_opensComment noLine noBlock)
    rw [scanFrom, if_neg token]
    refine SameReading.cons kept.reading beside fun read => ?_
    rw [kept.fragment]
    exact inductionHypothesis (kept.rest read) (beside.advanceOver _)

end Scanning

/-- Where comments can be blanked, cutting the rest into tokens reads the source as one pass over it
does: with the same tokens at the same lines and columns, or with the same error. -/
theorem tokenize_reads_commented_source {source stripped : String}
    (strips : stripComments source = .ok stripped) :
    SameReading (tokenize stripped) (tokenizeCommented source) := by
  obtain ⟨text, blanked, rfl⟩ := map_eq_ok_iff.mp strips
  have blanks : Blanks .code source.toList text := ⟨.start, blanked⟩
  unfold tokenize scan
  rw [String.toList_ofList]
  exact sameReading_readCommented blanks ⟨rfl, rfl⟩

/-- Marks inside a constant are text, a quote inside a comment is none, and a letter of two bytes
takes one column. -/
theorem tokenize_reads_commented_source_marks :
    stripComments "\"/*\"; // \"λ\n'/' /* ' */ x" = .ok "\"/*\";      \n'/'         x" ∧
      SameReading (tokenize "\"/*\";      \n'/'         x")
        (tokenizeCommented "\"/*\"; // \"λ\n'/' /* ' */ x") := by
  have strips : stripComments "\"/*\"; // \"λ\n'/' /* ' */ x" =
      .ok "\"/*\";      \n'/'         x" := by
    simp [stripComments, blankCommentsFrom]
  exact ⟨strips, tokenize_reads_commented_source strips⟩

end Jack
