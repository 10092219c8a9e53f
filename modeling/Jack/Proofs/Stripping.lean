import Jack.Proofs.Places
import Jack.Proofs.Spelling

/-!
# Comments are blanked and nothing else

A source is divided from left to right into plain characters, quotations, line comments and block
comments. `divide` does this with no state but the source that is left. Blanking the comments of a source
keeps every other part, and what is left of the source has no comments any more. It fails only where the
division ends in a block comment that is never closed, and it tells where that comment was opened.
-/

namespace Jack

/-- How many characters of a source a quotation takes behind its opening quote: up to its quote, the end
of its line or the end of the source. -/
def quotationSize (quote : Char) : List Char → Nat
  | [] => 0
  | c :: rest => if c = quote ∨ c = '\n' then 1 else quotationSize quote rest + 1

/-- A part of a source. -/
inductive Part where
  | plain (c : Char)
  | quotation (text : List Char)
  | lineComment (text : List Char)
  | blockComment (text : List Char)

namespace Part

/-- The characters of a part. -/
def text : Part → List Char
  | plain c => [c]
  | quotation text | lineComment text | blockComment text => text

/-- What is left of a part: a comment becomes spaces and newlines. -/
def blanked : Part → List Char
  | plain c => [c]
  | quotation text => text
  | lineComment text | blockComment text => text.map blankOf

theorem length_blanked (part : Part) : part.blanked.length = part.text.length := by
  cases part <;> simp [blanked, text]

end Part

/-- The parts of a source up to its end or up to a block comment that is never closed. -/
structure Division where
  parts : List Part
  opened : Option (List Char)

namespace Division

/-- The characters of the parts. -/
def text (division : Division) : List Char := division.parts.flatMap Part.text

/-- What is left of the parts. -/
def blanked (division : Division) : List Char := division.parts.flatMap Part.blanked

/-- Puts a part in front. -/
def cons (part : Part) (division : Division) : Division :=
  { division with parts := part :: division.parts }

@[simp] theorem text_cons (part : Part) (division : Division) :
    (division.cons part).text = part.text ++ division.text := rfl

@[simp] theorem blanked_cons (part : Part) (division : Division) :
    (division.cons part).blanked = part.blanked ++ division.blanked := rfl

@[simp] theorem opened_cons (part : Part) (division : Division) :
    (division.cons part).opened = division.opened := rfl

theorem whole_cons (part : Part) (division : Division) :
    (division.cons part).text ++ (division.cons part).opened.getD [] =
      part.text ++ (division.text ++ division.opened.getD []) := by
  rw [text_cons, opened_cons, List.append_assoc]

end Division

/-- Divides a source from left to right. -/
def divide : List Char → Division
  | [] => ⟨[], none⟩
  | '/' :: '/' :: rest =>
    (divide (rest.dropWhile isOnLine)).cons (.lineComment ('/' :: '/' :: rest.takeWhile isOnLine))
  | '/' :: '*' :: rest =>
    match blockCommentSize? rest with
    | some size => (divide (rest.drop size)).cons (.blockComment ('/' :: '*' :: rest.take size))
    | none => ⟨[], some ('/' :: '*' :: rest)⟩
  | c :: rest =>
    if c = '"' ∨ c = '\'' then
      let size := quotationSize c rest
      (divide (rest.drop size)).cons (.quotation (c :: rest.take size))
    else (divide rest).cons (.plain c)
termination_by source => source.length
decreasing_by
  · have shorter := (List.dropWhile_sublist isOnLine (l := rest)).length_le
    simp only [List.length_cons]
    omega
  · simp only [List.length_drop, List.length_cons]
    omega
  · simp only [List.length_drop, List.length_cons]
    omega
  · simp

section Blanking

/-- A quotation is kept up to its end, and then code follows. -/
theorem blankCommentsFrom_quoted (quote : Char) (position : Position) (source : List Char) :
    blankCommentsFrom (.quoted quote) position source =
      (source.take (quotationSize quote source) ++ ·) <$>
        blankCommentsFrom .code (position.advanceOver (source.take (quotationSize quote source)))
          (source.drop (quotationSize quote source)) := by
  induction source generalizing position with
  | nil => rfl
  | cons c rest inductionHypothesis =>
    rw [blankCommentsFrom, quotationSize]
    by_cases ends : c = quote ∨ c = '\n'
    · rw [if_pos ends, if_pos ends]
      rfl
    · rw [if_neg ends, if_neg ends, inductionHypothesis, ← comp_map]
      rfl

/-- What blanking gives for a source that was divided: what is left of its parts, or an error at the place
behind them. -/
def Division.result (division : Division) (position : Position) : Except LexicalError (List Char) :=
  match division.opened with
  | none => .ok division.blanked
  | some _ =>
    let opening := position.advanceOver division.text
    .error (.unterminatedComment opening.line opening.column)

theorem Division.result_cons (part : Part) (division : Division) (position : Position) :
    (division.cons part).result position =
      (part.blanked ++ ·) <$> division.result (position.advanceOver part.text) := by
  unfold result
  rw [opened_cons, text_cons, blanked_cons, Position.advanceOver_append]
  cases division.opened <;> rfl

/-- Blanking goes from part to part. -/
theorem blankCommentsFrom_code (position : Position) (source : List Char) :
    blankCommentsFrom .code position source = (divide source).result position := by
  fun_induction divide source generalizing position with
  | case1 => rfl
  | case2 rest inductionHypothesis =>
    rw [Division.result_cons, ← inductionHypothesis, blankCommentsFrom_lineMark,
      blankCommentsFrom_lineComment, ← comp_map]
    rfl
  | case3 rest size found inductionHypothesis =>
    rw [Division.result_cons, ← inductionHypothesis, blankCommentsFrom_blockMark,
      blankCommentsFrom_blockComment, found]
    exact (comp_map _ _ _).symm
  | case4 rest unended =>
    rw [blankCommentsFrom_blockMark, blankCommentsFrom_blockComment, unended]
    rfl
  | case5 c rest noLine noBlock quote size inductionHypothesis =>
    rw [Division.result_cons, ← inductionHypothesis,
      blankCommentsFrom_code_cons (not_opensComment noLine noBlock), Region.behind, if_pos quote,
      blankCommentsFrom_quoted, ← comp_map]
    rfl
  | case6 c rest noLine noBlock noQuote inductionHypothesis =>
    rw [Division.result_cons, ← inductionHypothesis,
      blankCommentsFrom_code_cons (not_opensComment noLine noBlock), Region.behind, if_neg noQuote]
    rfl

/-- The parts and the comment that is never closed make up the source. -/
theorem text_divide (source : List Char) :
    (divide source).text ++ (divide source).opened.getD [] = source := by
  fun_induction divide source with
  | case1 => rfl
  | case2 rest inductionHypothesis =>
    rw [Division.whole_cons, inductionHypothesis]
    simp [Part.text]
  | case3 rest size found inductionHypothesis =>
    rw [Division.whole_cons, inductionHypothesis]
    simp [Part.text]
  | case4 => rfl
  | case5 c rest noLine noBlock quote size inductionHypothesis =>
    rw [Division.whole_cons, inductionHypothesis]
    simp [Part.text]
  | case6 c rest noLine noBlock noQuote inductionHypothesis =>
    rw [Division.whole_cons, inductionHypothesis]
    rfl

theorem Division.length_blanked (division : Division) :
    division.blanked.length = division.text.length := by
  unfold blanked text
  induction division.parts with
  | nil => rfl
  | cons part parts inductionHypothesis =>
    rw [List.flatMap_cons, List.flatMap_cons, List.length_append, List.length_append,
      part.length_blanked, inductionHypothesis]

end Blanking

section Repetition

variable {rest left : List Char}

/-- Spaces and newlines are kept. -/
theorem Strips.blanked (comment : List Char) (strips : Strips rest left) :
    Strips (comment.map blankOf ++ rest) (comment.map blankOf ++ left) := by
  induction comment with
  | nil => exact strips
  | cons c comment inductionHypothesis =>
    have plain : blankOf c ≠ '/' ∧ ¬ (blankOf c = '"' ∨ blankOf c = '\'') := by
      unfold blankOf
      split <;> decide
    exact inductionHypothesis.cons (fun opens => plain.1 opens.1) plain.2

theorem quotationSize_le (quote : Char) (source : List Char) :
    quotationSize quote source ≤ source.length := by
  induction source with
  | nil => exact Nat.le_refl 0
  | cons c source inductionHypothesis =>
    rw [quotationSize, List.length_cons]
    split <;> omega

/-- In front of another source a quotation goes as far as before, if it is closed or nothing follows. -/
theorem quotationSize_append {quote : Char} {source : List Char}
    (closed : source.drop (quotationSize quote source) = [] → rest = []) :
    quotationSize quote (source.take (quotationSize quote source) ++ rest) =
      quotationSize quote source := by
  induction source with
  | nil =>
    rw [closed rfl]
    rfl
  | cons c source inductionHypothesis =>
    rw [quotationSize] at closed ⊢
    by_cases ends : c = quote ∨ c = '\n'
    · rw [if_pos ends, List.take_succ_cons, List.cons_append, quotationSize, if_pos ends]
    · rw [if_neg ends] at closed ⊢
      rw [List.take_succ_cons, List.cons_append, quotationSize, if_neg ends,
        inductionHypothesis closed]

/-- A quotation is kept. -/
theorem Strips.quotation {quote : Char} {source : List Char} (isQuote : quote = '"' ∨ quote = '\'')
    (closed : source.drop (quotationSize quote source) = [] → rest = [])
    (strips : Strips rest rest) :
    Strips (quote :: source.take (quotationSize quote source) ++ rest)
      (quote :: source.take (quotationSize quote source) ++ rest) := by
  intro position
  have noSlash : quote ≠ '/' := by rcases isQuote with rfl | rfl <;> decide
  have length : (source.take (quotationSize quote source)).length = quotationSize quote source :=
    List.length_take_of_le (quotationSize_le quote source)
  rw [List.cons_append, blankCommentsFrom_code_cons fun opens => noSlash opens.1, Region.behind,
    if_pos isQuote, blankCommentsFrom_quoted, quotationSize_append closed,
    List.take_left' length, List.drop_left' length, strips]
  rfl

/-- What is left of a source begins with a space or as the source does. -/
theorem head?_blanked_divide {source : List Char} (closed : (divide source).opened = none) :
    (divide source).blanked.head? = source.head? ∨
      (divide source).blanked.head? = some ' ' := by
  fun_cases divide source with
  | case1 => exact .inl rfl
  | case2 rest => exact .inr rfl
  | case3 rest size found => exact .inr rfl
  | case4 rest unended =>
    rw [divide, unended] at closed
    cases closed
  | case5 c rest noLine noBlock quote size => exact .inl rfl
  | case6 c rest noLine noBlock noQuote => exact .inl rfl

/-- Nothing that is left of a source is a comment. -/
theorem strips_blanked_divide {source : List Char} (closed : (divide source).opened = none) :
    Strips (divide source).blanked (divide source).blanked := by
  fun_induction divide source with
  | case1 => exact fun _ => rfl
  | case2 rest inductionHypothesis => exact (inductionHypothesis closed).blanked _
  | case3 rest size found inductionHypothesis => exact (inductionHypothesis closed).blanked _
  | case4 => cases closed
  | case5 c rest noLine noBlock quote size inductionHypothesis =>
    refine Strips.quotation quote (fun nothing => ?_) (inductionHypothesis closed)
    have done : divide (rest.drop size) = ⟨[], none⟩ := by rw [nothing, divide]
    exact congrArg Division.blanked done
  | case6 c rest noLine noBlock noQuote inductionHypothesis =>
    have plain : ¬ OpensComment c (divide rest).blanked := by
      rintro ⟨slash, opens⟩
      rcases head?_blanked_divide closed with same | space
      · rw [same] at opens
        exact not_opensComment noLine noBlock ⟨slash, opens⟩
      · simp [space] at opens
    exact (inductionHypothesis closed).cons plain noQuote

end Repetition

/-- The comments of a source are blanked and nothing else. What is left of the source has as many
characters, and there is nothing to blank in it. If a block comment is never closed, the error tells its
line and its column. -/
theorem stripComments_blanks_comments (source : String) :
    let division := divide source.toList
    division.text ++ division.opened.getD [] = source.toList ∧
      (division.opened = none → ∃ stripped, stripComments source = .ok stripped ∧
        stripped.toList = division.blanked ∧ stripped.length = source.length ∧
        stripComments stripped = .ok stripped) ∧
      ∀ comment, division.opened = some comment →
        stripComments source =
          .error (.unterminatedComment (lineBehind division.text) (columnBehind division.text)) := by
  intro division
  have text := text_divide source.toList
  have strips : stripComments source = String.ofList <$> division.result .start := by
    rw [stripComments, blankCommentsFrom_code]
  refine ⟨text, ?_, ?_⟩
  · intro closed
    refine ⟨String.ofList division.blanked, ?_, String.toList_ofList, ?_, ?_⟩
    · rw [strips, Division.result, closed]
      rfl
    · have whole : division.text = source.toList := by simpa [division, closed] using text
      rw [String.length_ofList, division.length_blanked, whole, String.length_toList]
    · rw [stripComments, String.toList_ofList, strips_blanked_divide closed]
      rfl
  · intro comment opened
    rw [strips, Division.result, opened]
    simp only [Position.advanceOver_start]
    rfl

/-- A slash does not close the mark that it belongs to, and marks in a quotation are text. An open comment
is told from quotes and marks before it. -/
theorem stripComments_blanks_comments_marks :
    (∃ stripped, stripComments "a/*/\n*/'//\"'//b" = .ok stripped ∧
      stripped.toList = "a   \n  '//\"'   ".toList ∧ stripComments stripped = .ok stripped) ∧
    stripComments "//*\n'/*' /*/" = .error (.unterminatedComment 2 6) := by
  constructor
  · have closed : (divide "a/*/\n*/'//\"'//b".toList).opened = none := by decide +kernel
    obtain ⟨stripped, strips, left, _, again⟩ :=
      (stripComments_blanks_comments "a/*/\n*/'//\"'//b").2.1 closed
    refine ⟨stripped, strips, left.trans ?_, again⟩
    decide +kernel
  · have opened : (divide "//*\n'/*' /*/".toList).opened = some "/*/".toList := by decide +kernel
    have places : lineBehind (divide "//*\n'/*' /*/".toList).text = 2 ∧
        columnBehind (divide "//*\n'/*' /*/".toList).text = 6 := by
      decide +kernel
    rw [(stripComments_blanks_comments "//*\n'/*' /*/").2.2 _ opened, places.1, places.2]

end Jack
