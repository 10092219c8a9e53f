import Jack.Proofs.Fragments
import Jack.Proofs.Places

/-!
# A source is cut without loss

Scanning cuts a source into fragments with blanks between them, and it goes on behind a fragment that is
no token. Nothing is left out and nothing is read twice: every item tells by its span where its fragment
stands, and the fragments and the blanks make up the source. `Tiles` says so item by item, with the text
in front of each of them, from which its place can be counted.
-/

namespace Jack

/-- The span of what was found in a source. An open comment has none. -/
def itemSpan? : Except LexicalError Token → Option Span
  | .ok token => some token.span
  | .error (.malformed _ span) => some span
  | .error (.unterminatedComment ..) => none

/-- The span between the quotes of a string constant. -/
def Span.inside (span : Span) : Span :=
  ⟨span.offset + 1, span.size - 2, span.line, span.column + 1⟩

/-- A token shows the fragment that it was read from: a string constant without its quotes, a character
literal as the code of its character, a word or a symbol as it is. What a word or a symbol shows decides
whether it is a keyword, and which, or a symbol, and which. -/
inductive Token.Shows (token : Token) : List Char → Prop where
  | string {text : List Char} (kind : token.kind = .stringConstant)
      (shown : token.text = String.ofList text) : token.Shows ('"' :: (text ++ ['"']))
  | character {c : Char} (kind : token.kind = .integerConstant)
      (shown : token.text = toString c.toNat) : token.Shows ['\'', c, '\'']
  | plain {fragment : List Char} (kind : token.kind ≠ .stringConstant)
      (unquoted : ∀ c ∈ fragment, c ≠ '"' ∧ c ≠ '\'')
      (shown : token.text = String.ofList fragment)
      (keyword : ∀ word : Keyword, token.kind = .keyword word ↔ token.text = word.spelling)
      (symbol : ∀ mark : Symbol, token.kind = .symbol mark ↔ token.text = mark.spelling) :
      token.Shows fragment

/-- An item of a source stands behind the text `front` and was made from `fragment`. -/
structure StandsBehind (source : String) (front fragment : List Char)
    (item : Except LexicalError Token) : Prop where
  begins : ∀ c ∈ fragment.head?, ¬ Text.isBlank c
  span : itemSpan? item = some (.behind front fragment)
  /-- The fragment can be cut out of the source. -/
  cut : (Span.behind front fragment).fragment? source = some (String.ofList fragment)
  shows : ∀ token, item = .ok token → token.Shows fragment
  /-- A string that is closed can be cut out between its quotes, whether it is a token or not. -/
  closed : fragment.head? = some '"' →
    item ≠ .error (.malformed .unterminatedString (.behind front fragment)) →
    2 ≤ (Span.behind front fragment).size ∧ ∃ text, fragment = '"' :: (text ++ ['"']) ∧
      (Span.behind front fragment).inside.fragment? source = some (String.ofList text)

/-- The items are all that stands in a source behind the text `front`, in order: blanks, a fragment,
blanks, a fragment and so on, and at last blanks. -/
inductive Tiles (source : String) : List Char → List (Except LexicalError Token) → Prop where
  | last {front blanks : List Char} (whole : source.toList = front ++ blanks)
      (blank : ∀ c ∈ blanks, Text.isBlank c) : Tiles source front []
  | next {front blanks fragment : List Char} {item : Except LexicalError Token}
      {items : List (Except LexicalError Token)} (blank : ∀ c ∈ blanks, Text.isBlank c)
      (nonempty : fragment ≠ []) (stands : StandsBehind source (front ++ blanks) fragment item)
      (further : Tiles source (front ++ blanks ++ fragment) items) :
      Tiles source front (item :: items)

section Tokens

/-- A keyword is longer than a symbol. -/
theorem Keyword.spelling_ne_spelling (keyword : Keyword) (mark : Symbol) :
    mark.spelling ≠ keyword.spelling := by
  have longer : 2 ≤ keyword.spelling.length := by cases keyword <;> decide
  intro same
  rw [← same, show mark.spelling.length = 1 from String.length_singleton] at longer
  omega

/-- A word is a keyword exactly when it is spelled as one. -/
theorem WordKind.eq_keyword_iff {text : List Char} {kind : TokenKind} (isKind : WordKind text kind)
    (keyword : Keyword) : kind = .keyword keyword ↔ String.ofList text = keyword.spelling := by
  cases isKind with
  | number digits small =>
    refine iff_of_false nofun fun spelled => ?_
    obtain ⟨c, member, letter⟩ := keyword.exists_letter
    rw [← spelled, String.toList_ofList] at member
    exact letter (digits c member)
  | @keyword other spelled =>
    rw [TokenKind.keyword.injEq, ← Keyword.ofSpelling?_eq_some_iff,
      Keyword.ofSpelling?_eq_some_iff.mpr spelled, Option.some.injEq]
  | name letter free => exact iff_of_false nofun (free keyword)

/-- A word is no symbol. -/
theorem ne_spelling_of_isWordCharacter {text : List Char}
    (inside : ∀ c ∈ text, Lexeme.isWordCharacter c) (mark : Symbol) :
    String.ofList text ≠ mark.spelling := by
  intro same
  have characters : text = [mark.character] := by
    simpa [Symbol.spelling, ← String.toList_inj] using same
  have first := inside mark.character (by simp [characters])
  have none := (isWordCharacter_cases first).2.2
  rw [Symbol.ofChar?_character] at none
  cases none

/-- A token shows the fragment that it is spelled by. -/
theorem Spells.shows {fragment : List Char} {word : TokenKind × String}
    (spelled : Spells fragment word) (span : Span) :
    (⟨word.1, word.2, span⟩ : Token).Shows fragment := by
  cases spelled with
  | string inside reads =>
    obtain ⟨_, _, rfl⟩ := Lexeme.readingOfString_eq_ok_iff.mp reads
    exact .string rfl rfl
  | character inside reads =>
    obtain ⟨_, rfl⟩ := Lexeme.readingOfCharacter_eq_ok_iff.mp reads
    exact .character rfl rfl
  | symbol mark =>
    have quotes : mark.character ≠ '"' ∧ mark.character ≠ '\'' := by cases mark <;> decide
    refine .plain nofun (by simpa using quotes) ?_ ?_ ?_
    · exact Char.toString_eq_singleton.trans (String.singleton_eq_ofList ..)
    · exact fun keyword => iff_of_false nofun (keyword.spelling_ne_spelling mark)
    · intro other
      rw [TokenKind.symbol.injEq]
      exact ⟨congrArg Symbol.spelling, fun same => Symbol.spelling_injective same⟩
  | word inside reads =>
    obtain ⟨isKind, shown⟩ := Lexeme.readingOfWord_eq_ok_iff.mp reads
    refine .plain ?_ ?_ shown ?_ ?_
    · intro string
      rw [show word.1 = .stringConstant from string] at isKind
      cases isKind
    · intro c member
      exact not_or.mp (isWordCharacter_cases (inside c member)).2.1
    · intro keyword
      rw [shown]
      exact isKind.eq_keyword_iff keyword
    · intro mark
      rw [shown]
      refine iff_of_false (fun symbol => ?_) (ne_spelling_of_isWordCharacter inside mark)
      rw [show word.1 = .symbol mark from symbol] at isKind
      cases isKind

end Tokens

section Lexemes

/-- A fragment begins where it is read. -/
theorem Lexeme.head?_read (c : Char) (rest : List Char) :
    (read c rest).fragment.head? = some c := by
  have whole := congrArg List.head? (read_fragment_append_rest c rest)
  rwa [List.head?_append_of_ne_nil _ (read_fragment_ne_nil c rest)] at whole

/-- A string that is not left open stands between quotes. -/
theorem Lexeme.exists_text_of_readString {rest : List Char}
    (closed : (readString rest).reading ≠ .error .unterminatedString) :
    ∃ text, (readString rest).fragment = '"' :: (text ++ ['"']) := by
  unfold readString at closed ⊢
  cases behind : rest.dropWhile isStringCharacter with
  | nil => simp [behind] at closed
  | cons closing others =>
    by_cases quote : closing = '"'
    · exact ⟨rest.takeWhile isStringCharacter, by simp [quote]⟩
    · simp [behind, quote] at closed

/-- The text between the quotes of a fragment is found between its first and its last byte. -/
theorem Span.fragment?_inside {source : String} {front text rest : List Char}
    (whole : source.toList = front ++ ('"' :: (text ++ ['"']) ++ rest)) :
    2 ≤ (Span.behind front ('"' :: (text ++ ['"']))).size ∧
      (Span.behind front ('"' :: (text ++ ['"']))).inside.fragment? source =
        some (String.ofList text) := by
  have quote : byteCount ['"'] = 1 := rfl
  have size : byteCount ('"' :: (text ++ ['"'])) = byteCount text + 2 := by
    rw [← List.singleton_append, byteCount_append, byteCount_append, quote]
    omega
  have moved : source.toList = (front ++ ['"']) ++ (text ++ ('"' :: rest)) := by
    simpa using whole
  have inner : (Span.behind (front ++ ['"']) text).fragment? source = some (String.ofList text) := by
    rw [← Span.covering_advanceOver]
    exact Span.fragment?_covering moved (by rw [Position.advanceOver_start])
  have same : (Span.behind front ('"' :: (text ++ ['"']))).inside =
      ⟨byteCount (front ++ ['"']), byteCount text, lineBehind front, columnBehind front + 1⟩ := by
    simp only [Span.inside, Span.behind, size, byteCount_append, quote, Nat.add_sub_cancel]
  rw [same]
  exact ⟨by simp [Span.behind, size], inner⟩

variable {source : String} {front rest : List Char} {c : Char}

/-- What is read behind a text stands behind it. -/
theorem Lexeme.standsBehind (whole : source.toList = front ++ c :: rest)
    (noBlank : ¬ Text.isBlank c) :
    StandsBehind source front (read c rest).fragment
      ((read c rest).itemAt (Position.start.advanceOver front)) := by
  rw [← read_fragment_append_rest] at whole
  have covering := Span.covering_advanceOver front (read c rest).fragment
  refine ⟨?_, ?_, ?_, ?_, ?_⟩
  · rw [head?_read]
    rintro _ ⟨⟩
    exact noBlank
  · rw [itemAt, covering]
    cases (read c rest).reading <;> rfl
  · rw [← covering]
    exact Span.fragment?_covering whole (by rw [Position.advanceOver_start])
  · intro token item
    obtain ⟨word, reading, rfl⟩ := itemAt_eq_ok_iff.mp item
    exact (isToken_read noBlank reading).spelled.shows _
  · intro first closed
    rw [head?_read, Option.some.injEq] at first
    have isString : read c rest = readString rest := by rw [read, if_pos first]
    have noError : (readString rest).reading ≠ .error .unterminatedString := by
      intro reading
      rw [itemAt, covering, isString, reading] at closed
      exact closed rfl
    obtain ⟨text, fragment⟩ := exists_text_of_readString noError
    rw [isString, fragment] at whole ⊢
    obtain ⟨size, inside⟩ := Span.fragment?_inside whole
    exact ⟨size, text, rfl, inside⟩

end Lexemes

section Scanning

variable {source : String} {front : List Char} {items : List (Except LexicalError Token)}

/-- A blank in front of the items belongs to the blanks before the first of them. -/
theorem Tiles.blank {c : Char} (tiles : Tiles source (front ++ [c]) items)
    (isBlank : Text.isBlank c) : Tiles source front items := by
  cases tiles with
  | @last _ blanks whole blank =>
    have longer : source.toList = front ++ c :: blanks := by simpa using whole
    exact .last longer (List.forall_mem_cons.mpr ⟨isBlank, blank⟩)
  | @next _ blanks fragment item items blank nonempty stands further =>
    have same : front ++ [c] ++ blanks = front ++ c :: blanks := by simp
    rw [same] at stands further
    exact .next (List.forall_mem_cons.mpr ⟨isBlank, blank⟩) nonempty stands further

/-- Scanning on behind a text finds all that stands there. -/
theorem tiles_scanFrom {position : Position} {rest : List Char}
    (whole : source.toList = front ++ rest) (place : position = Position.start.advanceOver front) :
    Tiles source front (scanFrom position rest) := by
  fun_induction scanFrom position rest generalizing front with
  | case1 position => exact .last whole (List.forall_mem_nil _)
  | case2 position c rest blank inductionHypothesis =>
    refine (inductionHypothesis (by simpa using whole) ?_).blank blank
    rw [Position.advanceOver_append, place]
    rfl
  | case3 position c rest noBlank lexeme =>
    rename_i inductionHypothesis
    have cut : lexeme.fragment ++ lexeme.rest = c :: rest := Lexeme.read_fragment_append_rest c rest
    have stands : StandsBehind source (front ++ []) lexeme.fragment (lexeme.itemAt position) := by
      rw [List.append_nil, place]
      exact Lexeme.standsBehind whole noBlank
    refine .next (List.forall_mem_nil _) (Lexeme.read_fragment_ne_nil c rest) stands ?_
    rw [List.append_nil]
    refine inductionHypothesis (by rw [List.append_assoc, cut, whole]) ?_
    rw [Position.advanceOver_append, place]

/-- The text before the items is the front of the source. -/
theorem Tiles.exists_rest (tiles : Tiles source front items) :
    ∃ rest, source.toList = front ++ rest := by
  induction tiles with
  | last whole blank => exact ⟨_, whole⟩
  | next blank nonempty stands further inductionHypothesis =>
    obtain ⟨rest, whole⟩ := inductionHypothesis
    exact ⟨_, by rw [whole, List.append_assoc, List.append_assoc]⟩

/-- The spans of the items lie in the source behind the text before them, and their lines and columns are
no larger than the source. -/
theorem Tiles.bounds (tiles : Tiles source front items) :
    ∀ span ∈ items.filterMap itemSpan?, byteCount front ≤ span.offset ∧
      span.offset + span.size ≤ source.utf8ByteSize ∧ span.line ≤ source.utf8ByteSize ∧
      span.column ≤ source.utf8ByteSize := by
  induction tiles with
  | last whole blank => exact List.forall_mem_nil _
  | @next front blanks fragment item items blank nonempty stands further inductionHypothesis =>
    rw [List.filterMap_cons_some stands.span, List.forall_mem_cons]
    obtain ⟨rest, whole⟩ := further.exists_rest
    have size := byteCount_toList source
    have positive := byteCount_pos nonempty
    rw [whole, byteCount_append, byteCount_append] at size
    constructor
    · have line := lineBehind_le (front ++ blanks)
      have column := columnBehind_le (front ++ blanks)
      have first := byteCount_append front blanks
      simp only [Span.behind]
      omega
    · intro span member
      obtain ⟨behind, others⟩ := inductionHypothesis span member
      rw [byteCount_append, byteCount_append] at behind
      exact ⟨by omega, others⟩

/-- The spans of the items do not overlap. -/
theorem Tiles.pairwise (tiles : Tiles source front items) :
    (items.filterMap itemSpan?).Pairwise fun span later =>
      span.offset + span.size ≤ later.offset := by
  induction tiles with
  | last whole blank => exact .nil
  | next blank nonempty stands further inductionHypothesis =>
    rw [List.filterMap_cons_some stands.span, List.pairwise_cons]
    refine ⟨fun later member => ?_, inductionHypothesis⟩
    have behind := (further.bounds later member).1
    rwa [byteCount_append] at behind

end Scanning

/-- Every source is cut into blanks and fragments without loss, also where a fragment is no token. Each
item tells the bytes, the line and the column of its fragment, and a token shows it. The spans do not
overlap, and no number in them is larger than the source has bytes. -/
theorem scan_tiles_source (source : String) :
    Tiles source [] (scan source) ∧
      ((scan source).filterMap itemSpan?).Pairwise
        (fun span later => span.offset + span.size ≤ later.offset) ∧
      ∀ span ∈ (scan source).filterMap itemSpan?,
        span.offset + span.size ≤ source.utf8ByteSize ∧ span.line ≤ source.utf8ByteSize ∧
          span.column ≤ source.utf8ByteSize := by
  have tiles : Tiles source [] (scan source) := tiles_scanFrom rfl rfl
  exact ⟨tiles, tiles.pairwise, fun span member => (tiles.bounds span member).2⟩

/-- A letter of two bytes takes one column. A newline that leaves a string open belongs to it, and so does
the character that shows a literal to be wrong. -/
example :
    (scan "é\"λ\n'λ' ~\t'ab40000").filterMap itemSpan? =
      [⟨0, 2, 1, 1⟩, ⟨2, 4, 1, 2⟩, ⟨6, 4, 2, 1⟩, ⟨11, 1, 2, 5⟩, ⟨13, 3, 2, 7⟩, ⟨16, 5, 2, 10⟩] := by
  decide +kernel

end Jack
