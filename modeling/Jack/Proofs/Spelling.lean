import Jack.Proofs.OnePass
import Mathlib.Data.List.TakeWhile

/-!
# How tokens are spelled

A fragment is a token when it is a string constant, a character literal, a symbol or a word, and what
it reads as depends on nothing else. `Holds` puts such fragments together with blanks and comments: it
says what a source holds without counting places and without going over the source twice. Blanking the
comments and cutting the rest into tokens finds exactly what a source holds in this sense.
-/

namespace Jack

/-- What a token is apart from its place: its kind and its text. -/
def Token.word (token : Token) : TokenKind × String := (token.kind, token.text)

/-- The fragments that are tokens, each with what it reads as. -/
inductive Spells : List Char → TokenKind × String → Prop where
  | string {text : List Char} {word : TokenKind × String}
      (inside : ∀ c ∈ text, Lexeme.isStringCharacter c)
      (reads : Lexeme.readingOfString text = .ok word) : Spells ('"' :: (text ++ ['"'])) word
  | character {c : Char} {word : TokenKind × String} (inside : ¬ (c = '\'' ∨ c = '\n'))
      (reads : Lexeme.readingOfCharacter c = .ok word) : Spells ['\'', c, '\''] word
  | symbol (mark : Symbol) : Spells [mark.character] (.symbol mark, mark.character.toString)
  | word {c : Char} {text : List Char} {word : TokenKind × String}
      (inside : ∀ d ∈ c :: text, Lexeme.isWordCharacter d)
      (reads : Lexeme.readingOfWord (c :: text) = .ok word) : Spells (c :: text) word

/-- With the next character a fragment would be another one: a word goes on, or a slash begins a
comment. -/
def Continues (fragment : List Char) (next : Char) : Prop :=
  (∀ c ∈ fragment, Lexeme.isWordCharacter c) ∧ Lexeme.isWordCharacter next ∨
    fragment = ['/'] ∧ (next = '/' ∨ next = '*')

/-- What a source holds, in order. Blanks and comments stand for nothing. -/
inductive Holds : List Char → List (TokenKind × String) → Prop where
  | nil : Holds [] []
  | blank {c : Char} {rest : List Char} {words : List (TokenKind × String)}
      (blank : Text.isBlank c) (further : Holds rest words) : Holds (c :: rest) words
  | lineComment {body rest : List Char} {words : List (TokenKind × String)}
      (onLine : ∀ c ∈ body, isOnLine c) (ends : ∀ c ∈ rest.head?, isOnLine c = false)
      (further : Holds rest words) : Holds ('/' :: '/' :: (body ++ rest)) words
  | blockComment {body rest : List Char} {words : List (TokenKind × String)}
      (inside : ¬ ['*', '/'] <:+: body) (further : Holds rest words) :
      Holds ('/' :: '*' :: (body ++ '*' :: '/' :: rest)) words
  | token {fragment rest : List Char} {word : TokenKind × String}
      {words : List (TokenKind × String)} (spelled : Spells fragment word)
      (apart : ∀ c ∈ rest.head?, ¬ Continues fragment c) (further : Holds rest words) :
      Holds (fragment ++ rest) (word :: words)

section Fragments

/-- Characters up to the first that does not satisfy a condition are taken. -/
theorem takeWhile_append_of_head {p : Char → Bool} {text rest : List Char}
    (inside : ∀ c ∈ text, p c) (ends : ∀ c ∈ rest.head?, p c = false) :
    (text ++ rest).takeWhile p = text ∧ (text ++ rest).dropWhile p = rest := by
  rw [List.takeWhile_append_of_pos inside, List.dropWhile_append_of_pos inside]
  cases rest with
  | nil => simp
  | cons c rest =>
    have stops : p c = false := ends c rfl
    simp [stops]

theorem head?_dropWhile {p : Char → Bool} {text : List Char} :
    ∀ c ∈ (text.dropWhile p).head?, p c = false := by
  intro c first
  cases stops : p c with
  | false => rfl
  | true =>
    have never := List.head?_dropWhile_not p text
    rw [Option.mem_def.mp first] at never
    simp [stops] at never

/-- A character of a word is no slash, no quote and no symbol. -/
theorem isWordCharacter_cases {c : Char} (word : Lexeme.isWordCharacter c) :
    c ≠ '/' ∧ ¬ (c = '"' ∨ c = '\'') ∧ Symbol.ofChar? c = none := by
  simp only [Lexeme.isWordCharacter, Bool.and_eq_true, Bool.not_eq_true', Option.isNone_iff_eq_none,
    decide_eq_true_eq] at word
  obtain ⟨⟨⟨_, noSymbol⟩, noDouble⟩, noSingle⟩ := word
  refine ⟨?_, not_or.mpr ⟨noDouble, noSingle⟩, noSymbol⟩
  rintro rfl
  cases noSymbol

/-- A character that is nothing else begins a word. -/
theorem isWordCharacter_of_not {c : Char} (noBlank : ¬ Text.isBlank c) (noDouble : c ≠ '"')
    (noSingle : c ≠ '\'') (noSymbol : Symbol.ofChar? c = none) : Lexeme.isWordCharacter c := by
  simp [Lexeme.isWordCharacter, noBlank, noDouble, noSingle, noSymbol]

/-- A lexeme is a token that reads as the given word: it is spelled so, and a word goes as far as it
can. -/
structure Lexeme.IsToken (lexeme : Lexeme) (word : TokenKind × String) : Prop where
  spelled : Spells lexeme.fragment word
  ends : (∀ c ∈ lexeme.fragment, Lexeme.isWordCharacter c) →
    ∀ c ∈ lexeme.rest.head?, Lexeme.isWordCharacter c = false

variable {source : List Char} {word : TokenKind × String}

theorem Lexeme.isToken_readString (reads : (readString source).reading = .ok word) :
    (readString source).IsToken word := by
  unfold readString at reads ⊢
  cases behind : source.dropWhile isStringCharacter with
  | nil => simp [behind] at reads
  | cons closing rest =>
    by_cases closed : closing = '"'
    · simp only [behind, closed, if_true] at reads ⊢
      refine ⟨.string (fun c member => List.mem_takeWhile_imp member) reads, ?_⟩
      intro inside
      have quote : isWordCharacter '"' := inside '"' List.mem_cons_self
      cases quote
    · simp [behind, closed] at reads

theorem Lexeme.isToken_readCharacter (reads : (readCharacter source).reading = .ok word) :
    (readCharacter source).IsToken word := by
  unfold readCharacter at reads ⊢
  split
  · cases reads
  · rename_i c rest
    by_cases ends : c = '\'' ∨ c = '\n'
    · simp [ends] at reads
    · simp only [if_neg ends] at reads ⊢
      split
      · cases reads
      · rename_i closing rest
        by_cases closed : closing = '\''
        · simp only [closed, if_true] at reads ⊢
          refine ⟨.character ends reads, ?_⟩
          intro inside
          have quote : isWordCharacter '\'' := inside '\'' List.mem_cons_self
          cases quote
        · simp [closed] at reads

theorem Lexeme.isToken_readWord {c : Char} (first : isWordCharacter c)
    (reads : (readWord c source).reading = .ok word) : (readWord c source).IsToken word := by
  refine ⟨.word ?_ reads, fun _ => head?_dropWhile⟩
  rw [List.forall_mem_cons]
  exact ⟨first, fun d member => List.mem_takeWhile_imp member⟩

/-- Every lexeme that reads as a word is a token. -/
theorem Lexeme.isToken_read {c : Char} (noBlank : ¬ Text.isBlank c)
    (reads : (read c source).reading = .ok word) : (read c source).IsToken word := by
  unfold read at reads ⊢
  by_cases double : c = '"'
  · rw [if_pos double] at reads ⊢
    exact isToken_readString reads
  · rw [if_neg double] at reads ⊢
    by_cases single : c = '\''
    · rw [if_pos single] at reads ⊢
      exact isToken_readCharacter reads
    · rw [if_neg single] at reads ⊢
      cases mark : Symbol.ofChar? c with
      | none =>
        rw [mark] at reads
        exact isToken_readWord (isWordCharacter_of_not noBlank double single mark) reads
      | some symbol =>
        rw [mark] at reads
        cases reads
        rw [← Symbol.character_of_ofChar? mark]
        refine ⟨.symbol symbol, ?_⟩
        intro inside
        obtain ⟨_, _, none⟩ := isWordCharacter_cases (inside _ List.mem_cons_self)
        rw [Symbol.ofChar?_character] at none
        cases none

/-- A token is read as what it is spelled, whatever follows it, if it is no word that goes on. -/
theorem Spells.read {c : Char} {tail rest : List Char} (spelled : Spells (c :: tail) word)
    (ends : (∀ d ∈ c :: tail, Lexeme.isWordCharacter d) →
      ∀ d ∈ rest.head?, Lexeme.isWordCharacter d = false) :
    Lexeme.read c (tail ++ rest) = ⟨c :: tail, .ok word, rest⟩ := by
  cases spelled with
  | string inside reads =>
    rename_i text
    have stops : ∀ d ∈ ('"' :: rest).head?, Lexeme.isStringCharacter d = false := by
      simp [Lexeme.isStringCharacter]
    obtain ⟨taken, dropped⟩ := takeWhile_append_of_head inside stops
    simp [Lexeme.read, Lexeme.readString, taken, dropped, reads]
  | character inside reads =>
    simp [Lexeme.read, Lexeme.readCharacter, inside, reads]
  | symbol mark =>
    have quotes : mark.character ≠ '"' ∧ mark.character ≠ '\'' := by
      cases mark <;> decide
    simp [Lexeme.read, quotes]
  | word inside reads =>
    have stops := ends inside
    rw [List.forall_mem_cons] at inside
    obtain ⟨taken, dropped⟩ := takeWhile_append_of_head inside.2 stops
    obtain ⟨_, noQuote, noSymbol⟩ := isWordCharacter_cases inside.1
    rw [not_or] at noQuote
    simp [Lexeme.read, Lexeme.readWord, noQuote, noSymbol, taken, dropped, reads]

end Fragments

section Stripping

/-- Blanking the comments of the first text gives the second, wherever the text stands. -/
def Strips (source stripped : List Char) : Prop :=
  ∀ position, blankCommentsFrom .code position source = .ok stripped

variable {rest left : List Char}

/-- A line comment goes up to the newline. -/
theorem Strips.lineComment {body : List Char} (onLine : ∀ c ∈ body, isOnLine c)
    (ends : ∀ c ∈ rest.head?, isOnLine c = false) (strips : Strips rest left) :
    Strips ('/' :: '/' :: (body ++ rest)) (('/' :: '/' :: body).map blankOf ++ left) := by
  intro position
  obtain ⟨taken, dropped⟩ := takeWhile_append_of_head onLine ends
  rw [blankCommentsFrom_lineMark, blankCommentsFrom_lineComment, taken, dropped, strips]
  rfl

/-- A block comment ends with the first closing mark. -/
theorem blockCommentSize?_append {body : List Char} (inside : ¬ ['*', '/'] <:+: body) :
    blockCommentSize? (body ++ '*' :: '/' :: rest) = some (body.length + 2) := by
  induction body with
  | nil => rfl
  | cons c body inductionHypothesis =>
    have shorter : ¬ ['*', '/'] <:+: body := fun found => inside (List.infix_cons found)
    rw [List.cons_append, blockCommentSize?, inductionHypothesis shorter]
    · rfl
    · -- The closing mark is not in the body, and it does not begin with the last of the body.
      rintro others rfl closes
      cases body with
      | nil => cases closes
      | cons d body =>
        cases closes
        exact inside (List.prefix_append ['*', '/'] body).isInfix

/-- A block comment goes up to its closing mark. -/
theorem Strips.blockComment {body : List Char} (inside : ¬ ['*', '/'] <:+: body)
    (strips : Strips rest left) :
    Strips ('/' :: '*' :: (body ++ '*' :: '/' :: rest))
      (('/' :: '*' :: (body ++ ['*', '/'])).map blankOf ++ left) := by
  intro position
  have whole : body ++ '*' :: '/' :: rest = (body ++ ['*', '/']) ++ rest := by simp
  have size : body.length + 2 = (body ++ ['*', '/']).length := by simp
  rw [blankCommentsFrom_blockMark, blankCommentsFrom_blockComment, blockCommentSize?_append inside,
    whole, size]
  simp only [List.take_left, List.drop_left, strips _]
  rfl

/-- Code goes on where no comment begins. -/
theorem Strips.cons {c : Char} (plain : ¬ OpensComment c rest) (noQuote : ¬ (c = '"' ∨ c = '\''))
    (strips : Strips rest left) : Strips (c :: rest) (c :: left) := by
  intro position
  rw [blankCommentsFrom_code_cons plain, Region.behind, if_neg noQuote, strips]
  rfl

/-- A quotation is kept up to its quote. -/
theorem Strips.quoted {quote : Char} {text : List Char}
    (inside : ∀ c ∈ text, ¬ (c = quote ∨ c = '\n')) (strips : Strips rest left)
    (position : Position) :
    blankCommentsFrom (.quoted quote) position (text ++ quote :: rest) =
      .ok (text ++ quote :: left) := by
  induction text generalizing position with
  | nil =>
    rw [List.nil_append, blankCommentsFrom, if_pos (.inl rfl), strips]
    rfl
  | cons c text inductionHypothesis =>
    rw [List.forall_mem_cons] at inside
    rw [List.cons_append, blankCommentsFrom, if_neg inside.1, inductionHypothesis inside.2]
    rfl

/-- A word is kept. -/
theorem Strips.word {text : List Char} (inside : ∀ c ∈ text, Lexeme.isWordCharacter c)
    (strips : Strips rest left) : Strips (text ++ rest) (text ++ left) := by
  induction text with
  | nil => exact strips
  | cons c text inductionHypothesis =>
    rw [List.forall_mem_cons] at inside
    obtain ⟨noSlash, noQuote, _⟩ := isWordCharacter_cases inside.1
    exact (inductionHypothesis inside.2).cons (fun opens => noSlash opens.1) noQuote

/-- A token that is not continued is kept. -/
theorem Spells.strips {fragment : List Char} {word : TokenKind × String}
    (spelled : Spells fragment word) (apart : ∀ c ∈ rest.head?, ¬ Continues fragment c)
    (strips : Strips rest left) : Strips (fragment ++ rest) (fragment ++ left) := by
  cases spelled with
  | string inside reads =>
    rename_i text
    intro position
    have plain : ¬ OpensComment '"' (text ++ '"' :: rest) := fun opens => absurd opens.1 (by decide)
    have kept : ∀ c ∈ text, ¬ (c = '"' ∨ c = '\n') := by
      intro c member
      simpa [Lexeme.isStringCharacter, not_or] using inside c member
    rw [List.cons_append, List.append_assoc, List.singleton_append,
      blankCommentsFrom_code_cons plain, Region.behind, if_pos (.inl rfl), strips.quoted kept]
    simp [Functor.map, Except.map]
  | character inside reads =>
    rename_i c
    intro position
    have plain : ¬ OpensComment '\'' (c :: '\'' :: rest) := fun opens => absurd opens.1 (by decide)
    have kept : ∀ d ∈ [c], ¬ (d = '\'' ∨ d = '\n') := by simpa using inside
    have behind := strips.quoted kept (position.advance '\'')
    simp only [List.cons_append, List.nil_append] at behind ⊢
    rw [blankCommentsFrom_code_cons plain, Region.behind, if_pos (.inr rfl), behind]
    rfl
  | symbol mark =>
    refine strips.cons ?_ ?_
    · rintro ⟨slash, opens⟩
      rcases opens with next | next <;> refine apart _ next (.inr ⟨by rw [slash], ?_⟩)
      · exact .inl rfl
      · exact .inr rfl
    · cases mark <;> decide
  | word inside reads => exact strips.word inside

/-- What does not continue a word in a source does not continue it in what is left of the source. -/
theorem Strips.head?_word (strips : Strips rest left)
    (ends : ∀ c ∈ rest.head?, Lexeme.isWordCharacter c = false) :
    ∀ c ∈ left.head?, Lexeme.isWordCharacter c = false := by
  have blanks : Blanks .code rest left := ⟨.start, strips .start⟩
  have nothing : rest.takeWhile Lexeme.isWordCharacter = [] :=
    (takeWhile_append_of_head (List.forall_mem_nil _) ends).1
  have same := blanks.word.1
  rw [nothing] at same
  intro c first
  cases left with
  | nil => cases first
  | cons d left =>
    cases first
    by_contra word
    simp [word] at same

end Stripping

section Scanning

/-- A token is not empty and begins with no blank. -/
theorem Spells.exists_cons {fragment : List Char} {word : TokenKind × String}
    (spelled : Spells fragment word) :
    ∃ c tail, fragment = c :: tail ∧ ¬ Text.isBlank c := by
  cases spelled with
  | string => exact ⟨_, _, rfl, by decide⟩
  | character => exact ⟨_, _, rfl, by decide⟩
  | symbol mark => exact ⟨_, _, rfl, by cases mark <;> decide⟩
  | word inside =>
    rename_i c text _
    have first := inside c List.mem_cons_self
    refine ⟨c, text, rfl, ?_⟩
    intro blank
    simp [Lexeme.isWordCharacter, blank] at first

/-- A token that stands in front of a source is the first that is found in it. -/
theorem Spells.scanFrom {fragment rest : List Char} {word : TokenKind × String}
    (spelled : Spells fragment word)
    (ends : (∀ c ∈ fragment, Lexeme.isWordCharacter c) →
      ∀ c ∈ rest.head?, Lexeme.isWordCharacter c = false) (position : Position) :
    Jack.scanFrom position (fragment ++ rest) =
      .ok ⟨word.1, word.2, .covering position fragment⟩ ::
        Jack.scanFrom (position.advanceOver fragment) rest := by
  obtain ⟨c, tail, rfl, noBlank⟩ := spelled.exists_cons
  rw [List.cons_append, Jack.scanFrom, if_neg noBlank, spelled.read ends]
  rfl

/-- What a source holds is found when its comments are blanked and the rest is cut into tokens. -/
theorem Holds.exists_tokens {source : List Char} {words : List (TokenKind × String)}
    (holds : Holds source words) :
    ∃ stripped, Strips source stripped ∧
      ∀ position, ∃ tokens, collect (scanFrom position stripped) = .ok tokens ∧
        tokens.map Token.word = words := by
  induction holds with
  | nil =>
    refine ⟨[], fun _ => rfl, fun position => ⟨[], ?_, rfl⟩⟩
    rw [scanFrom]
    rfl
  | @blank c rest words blank further inductionHypothesis =>
    obtain ⟨left, strips, found⟩ := inductionHypothesis
    have noSlash : c ≠ '/' := by
      rintro rfl
      revert blank
      decide
    have noQuote : ¬ (c = '"' ∨ c = '\'') := by
      rintro (rfl | rfl) <;> revert blank <;> decide
    refine ⟨c :: left, strips.cons (fun opens => noSlash opens.1) noQuote, fun position => ?_⟩
    rw [scanFrom, if_pos blank]
    exact found _
  | lineComment onLine ends further inductionHypothesis =>
    obtain ⟨left, strips, found⟩ := inductionHypothesis
    refine ⟨_, strips.lineComment onLine ends, fun position => ?_⟩
    rw [scanFrom_blanked]
    exact found _
  | blockComment inside further inductionHypothesis =>
    obtain ⟨left, strips, found⟩ := inductionHypothesis
    refine ⟨_, strips.blockComment inside, fun position => ?_⟩
    rw [scanFrom_blanked]
    exact found _
  | @token fragment rest word words spelled apart further inductionHypothesis =>
    obtain ⟨left, strips, found⟩ := inductionHypothesis
    refine ⟨_, spelled.strips apart strips, fun position => ?_⟩
    obtain ⟨tokens, scanned, same⟩ := found (position.advanceOver fragment)
    have ends : (∀ c ∈ fragment, Lexeme.isWordCharacter c) →
        ∀ c ∈ left.head?, Lexeme.isWordCharacter c = false := by
      intro inside
      refine strips.head?_word fun c first => ?_
      by_contra goesOn
      exact apart c first (.inl ⟨inside, by simpa using goesOn⟩)
    rw [spelled.scanFrom ends, collect, scanned]
    refine ⟨_, rfl, ?_⟩
    rw [List.map_cons, same]
    rfl

end Scanning

section Places

/-- A text holds the given words and ends behind the last of them: what follows behind a space is read
by itself. -/
def HoldsUpTo (text : List Char) (words : List (TokenKind × String)) : Prop :=
  ∀ rest others, Holds rest others → Holds (text ++ ' ' :: rest) (words ++ others)

/-- Every character takes a byte. -/
theorem byteCount_pos {text : List Char} (nonempty : text ≠ []) : 0 < byteCount text := by
  obtain ⟨c, rest, rfl⟩ := List.exists_cons_of_ne_nil nonempty
  have positive := c.utf8Size_pos
  rw [byteCount]
  omega

/-- Fewer characters take fewer bytes. -/
theorem byteCount_take_le (count : Nat) (text : List Char) :
    byteCount (text.take count) ≤ byteCount text := by
  have whole := byteCount_append (text.take count) (text.drop count)
  rw [List.take_append_drop] at whole
  omega

/-- The characters that take the bytes of the front of a text are that front. -/
theorem length_eq_of_byteCount {front rest : List Char} {count : Nat}
    (within : count ≤ (front ++ rest).length)
    (same : byteCount ((front ++ rest).take count) = byteCount front) : count = front.length := by
  rcases Nat.lt_trichotomy count front.length with shorter | equal | longer
  · rw [List.take_append_of_le_length shorter.le] at same
    have whole := byteCount_append (front.take count) (front.drop count)
    rw [List.take_append_drop] at whole
    have positive : 0 < byteCount (front.drop count) := byteCount_pos (by simpa using shorter)
    omega
  · exact equal
  · rw [List.length_append] at within
    obtain ⟨extra, rfl⟩ := Nat.exists_eq_add_of_le longer.le
    rw [List.take_length_add_append, byteCount_append] at same
    have positive : 0 < byteCount (rest.take extra) := by
      apply byteCount_pos
      rw [Ne, List.take_eq_nil_iff, ← List.length_eq_zero_iff]
      omega
    omega

/-- A place further than the front of a source lies in the rest of it. -/
theorem exists_inner_of_byteCount_lt {front stripped rest before after : List Char}
    (left : List Char)
    (size : stripped.length = front.length) (whole : front ++ rest = before ++ after)
    (further : byteCount stripped < byteCount ((stripped ++ left).take before.length)) :
    ∃ inner, before = front ++ inner ∧ inner ≠ [] ∧ rest = inner ++ after ∧
      byteCount ((stripped ++ left).take before.length) =
        byteCount stripped + byteCount (left.take inner.length) := by
  have longer : front.length < before.length := by
    by_contra shorter
    rw [List.take_append_of_le_length (by omega)] at further
    have fewer := byteCount_take_le before.length stripped
    omega
  obtain ⟨inner, rfl⟩ : front <+: before :=
    List.prefix_of_prefix_length_le (whole ▸ List.prefix_append front rest)
      (List.prefix_append before after) longer.le
  rw [List.append_assoc] at whole
  rw [List.length_append] at longer
  refine ⟨inner, rfl, ?_, List.append_cancel_left whole, ?_⟩
  · rintro rfl
    simp at longer
  · rw [List.length_append, ← size, List.take_length_add_append, byteCount_append]

/-- A source holds the words of tokens that were found from a position on, and behind each of these
tokens it can be taken apart. -/
structure Divides (source stripped : List Char) (position : Position) (tokens : List Token) :
    Prop where
  whole : Holds source (tokens.map Token.word)
  size : stripped.length = source.length
  further : ∀ token ∈ tokens, position.offset < token.span.offset + token.span.size
  behind : ∀ token ∈ tokens, ∀ before after, source = before ++ after →
    position.offset + byteCount (stripped.take before.length) =
      token.span.offset + token.span.size →
    ∃ earlier later, tokens.map Token.word = earlier ++ later ∧ HoldsUpTo before earlier ∧
      Holds after later

variable {rest left : List Char} {position : Position} {tokens : List Token}

/-- Behind a front of a source, a token is as far as it is in the rest. -/
theorem Divides.exists_inner {front blanked before after : List Char}
    (divides : Divides rest left (position.advanceOver blanked) tokens)
    (size : blanked.length = front.length) (whole : front ++ rest = before ++ after) {token : Token}
    (member : token ∈ tokens)
    (place : position.offset + byteCount ((blanked ++ left).take before.length) =
      token.span.offset + token.span.size) :
    ∃ inner earlier later, before = front ++ inner ∧ inner.head? = rest.head? ∧ inner ≠ [] ∧
      tokens.map Token.word = earlier ++ later ∧ HoldsUpTo inner earlier ∧ Holds after later := by
  have further := divides.further token member
  have offset := position.offset_advanceOver blanked
  obtain ⟨inner, rfl, nonempty, rfl, count⟩ :=
    exists_inner_of_byteCount_lt left size whole (by omega)
  obtain ⟨earlier, later, words, upTo, holds⟩ :=
    divides.behind token member inner after rfl (by omega)
  refine ⟨inner, earlier, later, rfl, ?_, nonempty, words, upTo, holds⟩
  rw [List.head?_append_of_ne_nil _ nonempty]

/-- Blanks and comments in front of a source change nothing. -/
theorem Divides.skip {blanked : List Char} (front : List Char)
    (divides : Divides rest left (position.advanceOver blanked) tokens)
    (size : blanked.length = front.length)
    (holds : ∀ others words, others.head? = rest.head? → Holds others words →
      Holds (front ++ others) words) :
    Divides (front ++ rest) (blanked ++ left) position tokens := by
  refine ⟨holds rest _ rfl divides.whole, ?_, ?_, ?_⟩
  · rw [List.length_append, List.length_append, size, divides.size]
  · intro token member
    have further := divides.further token member
    have offset := position.offset_advanceOver blanked
    omega
  · intro token member before after whole place
    obtain ⟨inner, earlier, later, rfl, head, nonempty, words, upTo, behind⟩ :=
      divides.exists_inner size whole member place
    refine ⟨earlier, later, words, ?_, behind⟩
    intro others more further
    rw [List.append_assoc]
    refine holds _ _ ?_ (upTo others more further)
    rw [List.head?_append_of_ne_nil _ nonempty, head]

/-- A token in front of a source is one of its tokens. -/
theorem Divides.token {fragment : List Char} {word : TokenKind × String}
    (divides : Divides rest left (position.advanceOver fragment) tokens)
    (spelled : Spells fragment word) (apart : ∀ c ∈ rest.head?, ¬ Continues fragment c) :
    Divides (fragment ++ rest) (fragment ++ left) position
      (⟨word.1, word.2, .covering position fragment⟩ :: tokens) := by
  have nonempty : fragment ≠ [] := by
    obtain ⟨c, tail, rfl, _⟩ := spelled.exists_cons
    exact List.cons_ne_nil c tail
  have offset := position.offset_advanceOver fragment
  refine ⟨.token spelled apart divides.whole, ?_, ?_, ?_⟩
  · rw [List.length_append, List.length_append, divides.size]
  · rw [List.forall_mem_cons]
    refine ⟨Nat.lt_add_of_pos_right (byteCount_pos nonempty), fun token member => ?_⟩
    have further := divides.further token member
    omega
  · intro token member before after whole place
    rcases List.mem_cons.mp member with rfl | member
    · -- The place is behind this token itself.
      have within : before.length ≤ (fragment ++ left).length := by
        rw [List.length_append, divides.size, ← List.length_append, whole, List.length_append]
        omega
      have length := length_eq_of_byteCount within (Nat.add_left_cancel place)
      obtain ⟨rfl, rfl⟩ := List.append_inj whole length.symm
      refine ⟨[word], tokens.map Token.word, rfl, ?_, divides.whole⟩
      intro others more further
      refine .token spelled ?_ (.blank (by decide) further)
      rintro c ⟨⟩ (⟨_, space⟩ | ⟨_, space⟩)
      · revert space
        decide
      · revert space
        decide
    · obtain ⟨inner, earlier, later, rfl, head, nonempty, words, upTo, behind⟩ :=
        divides.exists_inner rfl whole member place
      refine ⟨word :: earlier, later, ?_, ?_, behind⟩
      · rw [List.map_cons, words]
        rfl
      · intro others more further
        rw [List.append_assoc]
        refine .token spelled ?_ (upTo others more further)
        rwa [List.head?_append_of_ne_nil _ nonempty, head]

/-- A block comment that ends has a body without the closing mark. -/
theorem exists_body_of_blockCommentSize? {source : List Char} {size : Nat}
    (ended : blockCommentSize? source = some size) :
    ∃ body, ¬ ['*', '/'] <:+: body ∧ source.take size = body ++ ['*', '/'] := by
  fun_induction blockCommentSize? source generalizing size with
  | case1 => cases ended
  | case2 rest =>
    cases ended
    exact ⟨[], by simp, rfl⟩
  | case3 c rest unclosed inductionHypothesis =>
    obtain ⟨shorter, found, rfl⟩ := Option.map_eq_some_iff.mp ended
    obtain ⟨body, inside, taken⟩ := inductionHypothesis found
    refine ⟨c :: body, ?_, by rw [List.take_succ_cons, taken, List.cons_append]⟩
    rw [List.infix_cons_iff]
    rintro (first | later)
    · -- The mark would stand in front of the source.
      obtain ⟨more, split⟩ := first
      have whole := rest.take_append_drop shorter
      rw [taken] at whole
      obtain ⟨rfl, rfl⟩ := List.cons.inj split
      exact unclosed _ rfl whole.symm
    · exact inside later

/-- The results of a list are collected when each of them is a value. -/
theorem collect_cons_eq_ok_iff {ε α : Type} {item : Except ε α} {items : List (Except ε α)}
    {values : List α} :
    collect (item :: items) = .ok values ↔
      ∃ value others, item = .ok value ∧ collect items = .ok others ∧ values = value :: others := by
  cases item with
  | error => simp [collect]
  | ok value =>
    rw [collect, map_eq_ok_iff]
    simp [eq_comm]

theorem Lexeme.itemAt_eq_ok_iff {lexeme : Lexeme} {token : Token} :
    lexeme.itemAt position = .ok token ↔
      ∃ word, lexeme.reading = .ok word ∧
        token = ⟨word.1, word.2, .covering position lexeme.fragment⟩ := by
  unfold Lexeme.itemAt
  cases lexeme.reading with
  | error => simp
  | ok word => simp [eq_comm]

/-- A token that was read where no comment begins is not continued. -/
theorem Lexeme.IsToken.not_continues {c : Char} {rest : List Char} {word : TokenKind × String}
    (token : (Lexeme.read c rest).IsToken word) (plain : ¬ OpensComment c rest) :
    ∀ d ∈ (Lexeme.read c rest).rest.head?, ¬ Continues (Lexeme.read c rest).fragment d := by
  rintro d next (⟨inside, goesOn⟩ | ⟨slash, opens⟩)
  · rw [token.ends inside d next] at goesOn
    cases goesOn
  · have whole := Lexeme.read_fragment_append_rest c rest
    rw [slash] at whole
    obtain ⟨rfl, behind⟩ := List.cons.inj whole
    rw [← behind] at plain
    refine plain ⟨rfl, ?_⟩
    rcases opens with rfl | rfl
    · exact .inl next
    · exact .inr next

/-- A source of which the comments can be blanked and the rest be cut into tokens holds the words of
these tokens. -/
theorem Blanks.divides {source stripped : List Char} (blanks : Blanks .code source stripped)
    (scanned : collect (scanFrom position stripped) = .ok tokens) :
    Divides source stripped position tokens := by
  -- The cases are those of a reading in one pass, wherever that begins.
  obtain ⟨other⟩ : Nonempty Position := ⟨.start⟩
  fun_induction readCommented other source generalizing stripped position tokens with
  | case1 other =>
    rw [blanks.eq_nil, scanFrom] at scanned
    cases scanned
    rw [blanks.eq_nil]
    exact ⟨.nil, rfl, by simp, by simp⟩
  | case2 other rest inductionHypothesis =>
    obtain ⟨left, rfl, code⟩ := blanks.of_lineMark
    rw [scanFrom_blanked] at scanned
    have divides := (inductionHypothesis code scanned).skip
      ('/' :: '/' :: rest.takeWhile isOnLine) (List.length_map _) ?_
    · simpa using divides
    · intro others words head holds
      refine .lineComment (fun c member => List.mem_takeWhile_imp member) ?_ holds
      rw [head]
      exact head?_dropWhile
  | case3 other rest size found inductionHypothesis =>
    obtain ⟨known, left, ended, rfl, code⟩ := blanks.of_blockMark
    rw [found] at ended
    cases ended
    obtain ⟨body, inside, taken⟩ := exists_body_of_blockCommentSize? found
    rw [scanFrom_blanked] at scanned
    have divides := (inductionHypothesis code scanned).skip
      ('/' :: '*' :: rest.take size) (List.length_map _) ?_
    · simpa using divides
    · intro others words _ holds
      rw [taken]
      simpa using Holds.blockComment inside holds
  | case4 other rest unended =>
    obtain ⟨_, _, ended, _⟩ := blanks.of_blockMark
    rw [unended] at ended
    cases ended
  | case5 other c rest noLine noBlock blank inductionHypothesis =>
    have noSlash : c ≠ '/' := by
      rintro rfl
      revert blank
      decide
    have noQuote : ¬ (c = '"' ∨ c = '\'') := by
      rintro (rfl | rfl) <;> revert blank <;> decide
    obtain ⟨left, rfl, code⟩ := blanks.of_code_cons_of_ne noSlash noQuote
    rw [scanFrom, if_pos blank] at scanned
    have later : Divides rest left (position.advanceOver [c]) tokens :=
      inductionHypothesis code scanned
    exact later.skip [c] rfl fun others words _ holds => .blank blank holds
  | case6 other c rest noLine noBlock noBlank lexeme =>
    rename_i inductionHypothesis
    have plain := not_opensComment noLine noBlock
    obtain ⟨left, rfl, kept⟩ := blanks.read plain
    rw [scanFrom, if_neg noBlank] at scanned
    obtain ⟨_, others, item, further, rfl⟩ := collect_cons_eq_ok_iff.mp scanned
    obtain ⟨word, reading, rfl⟩ := Lexeme.itemAt_eq_ok_iff.mp item
    rw [kept.fragment] at further ⊢
    rw [kept.reading] at reading
    have token := Lexeme.isToken_read noBlank reading
    have divides := (inductionHypothesis (kept.rest ⟨word, reading⟩) further).token token.spelled
      (token.not_continues plain)
    have stripped := Lexeme.read_fragment_append_rest c left
    rwa [Lexeme.read_fragment_append_rest, ← kept.fragment, stripped, kept.fragment] at divides

end Places

end Jack
