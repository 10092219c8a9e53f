import Jack.Grammar.Class
import Jack.Proofs.Tiling

/-!
# The end of a source

Behind the last token there is no token that could tell a place. The place of the end is computed
from the last token: it is on the line of that token, at its column moved by the size of its span.
Columns count characters and sizes count bytes, so this is the place just behind the token exactly
when each of its characters takes one byte.
-/

namespace Jack

/-- A token was read from `fragment`, which stands in the source behind the text `front` with only
blanks after it. -/
structure Token.IsLast (token : Token) (source : String) (front fragment : List Char) : Prop where
  span : token.span = .behind front fragment
  cut : token.span.fragment? source = some (String.ofList fragment)
  ends : ∃ blanks, source.toList = front ++ fragment ++ blanks ∧ ∀ c ∈ blanks, Text.isBlank c

/-- The end of the tokens is told as `place`: by every cursor that has read them all, and by every
error of a reader that found no token. -/
structure EndsAt (tokens : List Token) (place : TokenPosition) : Prop where
  cursors : ∀ cursor : Cursor, cursor.tokens = tokens → cursor.atEnd → cursor.position = place
  errors : ∀ {α : Type} (cursor : Cursor) (parser : Nat → Parser α) (error : SyntaxError),
    cursor.tokens = tokens → (cursor.parse parser).2 = .error error → error.found = none →
      error.position = place

section Cursors

variable {tokens : List Token}

/-- A reader that found no token tells the place where no token is left. -/
theorem SyntaxError.position_of_found_eq_none {α : Type} {cursor : Cursor}
    {parser : Nat → Parser α} {error : SyntaxError}
    (fails : (cursor.parse parser).2 = .error error) (nothing : error.found = none) :
    error.position = .ofUnread cursor.tokens [] := by
  unfold Cursor.parse at fails
  cases outcome : Parser.run parser cursor.unread with
  | read value rest =>
    rw [outcome] at fails
    cases fails
  | refused expected rest =>
    rw [outcome] at fails
    cases fails
    have none : (cursor.moveTo rest).unread = [] := List.head?_eq_none_iff.mp nothing
    change TokenPosition.ofUnread cursor.tokens (cursor.moveTo rest).unread = _
    rw [none]

/-- All tell the same end: the place where no token is left. -/
theorem endsAt_iff {place : TokenPosition} :
    EndsAt tokens place ↔ place = .ofUnread tokens [] := by
  constructor
  · intro ends
    have last := ends.cursors ⟨tokens, tokens.length⟩ rfl (decide_eq_true (Nat.le_refl _))
    rw [← last, Cursor.position, Cursor.unread, List.drop_length]
  · rintro rfl
    constructor
    · rintro cursor rfl atEnd
      rw [Cursor.position, Cursor.unread, List.drop_eq_nil_of_le (of_decide_eq_true atEnd)]
    · rintro α cursor parser error rfl fails nothing
      exact SyntaxError.position_of_found_eq_none fails nothing

/-- The place where no token is left is computed from the last token. -/
theorem TokenPosition.ofUnread_nil {last : Token} (isLast : tokens.getLast? = some last) :
    ofUnread tokens [] =
      ⟨tokens.length, last.span.line, last.span.column + last.span.size⟩ := by
  rw [ofUnread, isLast]

end Cursors

section LastTokens

variable {source : String} {tokens : List Token}

/-- No token goes on behind the end of a line. -/
theorem Spells.newline_not_mem {fragment : List Char} {word : TokenKind × String}
    (spelled : Spells fragment word) : '\n' ∉ fragment := by
  cases spelled with
  | @string text _ inside _ =>
    intro member
    have within : '\n' ∈ text := by simpa using member
    exact absurd (inside '\n' within) (by decide)
  | character inside _ =>
    simpa [eq_comm] using (not_or.mp inside).2
  | symbol mark => cases mark <;> decide
  | word inside _ =>
    intro member
    exact absurd (inside '\n' member) (by decide)

/-- What was collected without an error are the values themselves. -/
theorem eq_map_ok_of_collect {ε α : Type} {items : List (Except ε α)} {values : List α}
    (collected : collect items = .ok values) : items = values.map .ok := by
  induction items generalizing values with
  | nil =>
    cases collected
    rfl
  | cons item items inductionHypothesis =>
    obtain ⟨value, others, rfl, further, rfl⟩ := collect_cons_eq_ok_iff.mp collected
    rw [inductionHypothesis further, List.map_cons]

/-- Behind the last item of a source there are only blanks. -/
theorem Tiles.exists_last {front : List Char} {items : List (Except LexicalError Token)}
    {item : Except LexicalError Token} (tiles : Tiles source front items)
    (last : items.getLast? = some item) :
    ∃ before fragment blanks, StandsBehind source before fragment item ∧
      source.toList = before ++ fragment ++ blanks ∧ ∀ c ∈ blanks, Text.isBlank c := by
  induction tiles with
  | last whole blank => cases last
  | @next front blanks fragment first items blank nonempty stands further inductionHypothesis =>
    cases further with
    | last whole blankAfter =>
      cases last
      exact ⟨_, fragment, _, stands, whole, blankAfter⟩
    | next =>
      rw [List.getLast?_cons_cons] at last
      exact inductionHypothesis last

/-- The tokens of a source, if there are any, have a last one, and it ends on the line on which it
begins. -/
theorem exists_isLast (found : tokenize source = .ok tokens) (nonempty : tokens ≠ []) :
    ∃ last front fragment, tokens.getLast? = some last ∧ last.IsLast source front fragment ∧
      '\n' ∉ fragment := by
  obtain ⟨last, isLast⟩ := Option.isSome_iff_exists.mp (List.getLast?_isSome.mpr nonempty)
  have tiles : Tiles source [] (scan source) := tiles_scanFrom rfl rfl
  rw [eq_map_ok_of_collect found] at tiles
  obtain ⟨front, fragment, blanks, stands, whole, blank⟩ :=
    tiles.exists_last (by rw [List.getLast?_map, isLast, Option.map_some])
  have span : last.span = .behind front fragment := Option.some.inj stands.span
  have cut : last.span.fragment? source = some (String.ofList fragment) := by
    rw [span, stands.cut]
  obtain ⟨spelling, same, spelled⟩ := spells_of_tokenize found last (List.mem_of_getLast? isLast)
  -- The spelling that is known to be on one line is the fragment that the span cuts out.
  rw [cut, Option.some.injEq, String.ofList_inj] at same
  rw [← same] at spelled
  exact ⟨last, front, fragment, isLast, ⟨span, cut, blanks, whole, blank⟩, spelled.newline_not_mem⟩

end LastTokens

/-- The end of a source is told with the number of its tokens and with the line of the last of them,
but at a column that counts the bytes of that token for its characters. So the end is just behind the
last token exactly when each of its characters takes one byte. -/
theorem end_is_behind_last_token_iff {source : String} {tokens : List Token}
    (found : tokenize source = .ok tokens) (nonempty : tokens ≠ []) :
    ∃ last front fragment, tokens.getLast? = some last ∧ last.IsLast source front fragment ∧
      EndsAt tokens ⟨tokens.length, lineBehind (front ++ fragment),
        columnBehind (front ++ fragment) + (byteCount fragment - fragment.length)⟩ ∧
      (EndsAt tokens ⟨tokens.length, lineBehind (front ++ fragment),
        columnBehind (front ++ fragment)⟩ ↔ ∀ c ∈ fragment, c.utf8Size = 1) := by
  obtain ⟨last, front, fragment, isLast, ends, onLine⟩ := exists_isLast found nonempty
  have characters := length_le_byteCount fragment
  have place : TokenPosition.ofUnread tokens [] =
      ⟨tokens.length, lineBehind (front ++ fragment),
        columnBehind (front ++ fragment) + (byteCount fragment - fragment.length)⟩ := by
    rw [TokenPosition.ofUnread_nil isLast, ends.span, lineBehind_append onLine,
      columnBehind_append onLine, Nat.add_assoc, Nat.add_sub_cancel' characters]
    rfl
  refine ⟨last, front, fragment, isLast, ends, endsAt_iff.mpr place.symm, ?_⟩
  rw [endsAt_iff, place, TokenPosition.mk.injEq, ← byteCount_eq_length_iff]
  omega

/-- Letters of two bytes do no harm in front of the last token. -/
theorem end_is_behind_last_token_iff_sum :
    ∃ tokens, tokenize "let é =\n  λ + x " = .ok tokens ∧ tokens ≠ [] ∧ EndsAt tokens ⟨6, 2, 8⟩ := by
  let tokens : List Token :=
    [⟨.keyword .let, "let", ⟨0, 3, 1, 1⟩⟩, ⟨.identifier, "é", ⟨4, 2, 1, 5⟩⟩,
      ⟨.symbol .equal, "=", ⟨7, 1, 1, 7⟩⟩, ⟨.identifier, "λ", ⟨11, 2, 2, 3⟩⟩,
      ⟨.symbol .plus, "+", ⟨14, 1, 2, 5⟩⟩, ⟨.identifier, "x", ⟨16, 1, 2, 7⟩⟩]
  have found : tokenize "let é =\n  λ + x " = .ok tokens := by decide +kernel
  have nonempty : tokens ≠ [] := List.cons_ne_nil _ _
  obtain ⟨last, front, fragment, isLast, ends, _, exactly⟩ :=
    end_is_behind_last_token_iff found nonempty
  cases isLast
  have cut : (⟨16, 1, 2, 7⟩ : Span).fragment? "let é =\n  λ + x " = some "x" := by decide +kernel
  have letter : ['x'] = fragment := by simpa [cut, ← String.toList_inj] using ends.cut
  have line : 2 = lineBehind front := congrArg Span.line ends.span
  have column : 7 = columnBehind front := congrArg Span.column ends.span
  subst letter
  rw [lineBehind_append (by decide), columnBehind_append (by decide), ← line, ← column] at exactly
  exact ⟨tokens, found, nonempty, exactly.mpr (List.forall_mem_singleton.mpr (by decide))⟩

/-- A class that breaks off behind a name of one letter with two bytes: the source ends at column 8,
and the error for want of a brace is told at column 9. -/
theorem end_is_not_behind_letter_of_two_bytes :
    let source := "class é"
    let last : Token := ⟨.identifier, "é", ⟨6, 2, 1, 7⟩⟩
    let tokens : List Token := [⟨.keyword .class, "class", ⟨0, 5, 1, 1⟩⟩, last]
    tokenize source = .ok tokens ∧ last.IsLast source "class ".toList ['é'] ∧
      lineBehind source.toList = 1 ∧ columnBehind source.toList = 8 ∧ ¬ EndsAt tokens ⟨2, 1, 8⟩ ∧
      Grammar.parseClass tokens = .error ⟨.kind (.symbol .leftBrace), none, ⟨2, 1, 9⟩⟩ := by
  intro source last tokens
  have isLast : last.IsLast source "class ".toList ['é'] :=
    ⟨by decide +kernel, by decide +kernel, [], by decide +kernel, List.forall_mem_nil _⟩
  refine ⟨by decide +kernel, isLast, by decide +kernel, by decide +kernel, ?_, rfl⟩
  rw [endsAt_iff]
  decide

end Jack
