import Jack.Proofs.Literals

/-!
# Every spelling is recognised

A word, a symbol, a string constant or a character literal may be written down next to any other. Only two
words need a blank between them, since together they would be one word. However lexemes are arranged, the
source that they make up is cut into exactly these lexemes.

The text of a token is such a lexeme itself, with quotes around it where it is a string constant. So the
tokens of a source can be written down one behind the other and are found again.
-/

namespace Jack

/-- A character that is no blank, no symbol and no quote. -/
def IsWordCharacter (c : Char) : Prop :=
  ¬ Text.isBlank c ∧ (∀ mark : Symbol, c ≠ mark.character) ∧ c ≠ '"' ∧ c ≠ '\''

/-- The lexemes that can be written in a source. -/
inductive Spelling where
  | word (text : List Char) (nonempty : text ≠ []) (inside : ∀ c ∈ text, IsWordCharacter c)
      (small : (∀ c ∈ text, c.isDigit) → Nat.ofDigitChars 10 text 0 ≤ 32767)
  | symbol (mark : Symbol)
  | string (text : List Char) (inside : ∀ c ∈ text, c ≠ '"' ∧ c ≠ '\n')
      (small : ∀ c ∈ text, c.toNat ≤ 0x7FFF) (short : text.length ≤ 32767)
  | character (c : Char) (inside : c ≠ '\'' ∧ c ≠ '\n') (small : c.toNat ≤ 0x7FFF)

namespace Spelling

/-- How a lexeme is written. -/
def fragment : Spelling → List Char
  | word text .. => text
  | symbol mark => [mark.character]
  | string text .. => '"' :: (text ++ ['"'])
  | character c .. => ['\'', c, '\'']

def isWord : Spelling → Bool
  | word .. => true
  | symbol _ | string .. | character .. => false

/-- The kind and the text of the token that a lexeme is. -/
def ReadsAs : Spelling → TokenKind × String → Prop
  | word text .., (kind, shown) => WordKind text kind ∧ shown = String.ofList text
  | symbol mark, (kind, shown) => kind = .symbol mark ∧ shown = mark.spelling
  | string text .., (kind, shown) => kind = .stringConstant ∧ shown = String.ofList text
  | character c .., (kind, shown) => kind = .integerConstant ∧ shown = toString c.toNat

end Spelling

/-- Lexemes, each with the blanks before it, and the blanks behind the last of them. Between two words
there is a blank. -/
structure Arrangement where
  units : List (List Char × Spelling)
  after : List Char
  blank : ∀ unit ∈ units, ∀ c ∈ unit.1, Text.isBlank c
  blankAfter : ∀ c ∈ after, Text.isBlank c
  apart : units.IsChain fun unit next => unit.2.isWord → next.2.isWord → next.1 ≠ []

/-- The source that lexemes with blanks before them make up. -/
def unitsText (units : List (List Char × Spelling)) (after : List Char) : List Char :=
  units.flatMap (fun unit => unit.1 ++ unit.2.fragment) ++ after

/-- The source that an arrangement makes up. -/
def Arrangement.source (arrangement : Arrangement) : String :=
  String.ofList (unitsText arrangement.units arrangement.after)

/-- How the word of a token can be written in a source again. -/
def rewritten (word : TokenKind × String) : List Char :=
  if word.1 = .stringConstant then '"' :: (word.2.toList ++ ['"']) else word.2.toList

/-- Tokens written down one behind the other, with spaces between them. -/
def rewrite (tokens : List Token) : String :=
  String.ofList ([' '].intercalate (tokens.map (rewritten ·.word)))

section Spellings

theorem isWordCharacter_iff {c : Char} : Lexeme.isWordCharacter c ↔ IsWordCharacter c := by
  have symbols : Symbol.ofChar? c = none ↔ ∀ mark : Symbol, c ≠ mark.character := by
    constructor
    · rintro none mark rfl
      rw [Symbol.ofChar?_character] at none
      cases none
    · intro others
      cases found : Symbol.ofChar? c with
      | none => rfl
      | some mark => exact absurd (Symbol.character_of_ofChar? found).symm (others mark)
  simp [Lexeme.isWordCharacter, IsWordCharacter, symbols, and_assoc]

instance : DecidablePred IsWordCharacter := fun _ => decidable_of_iff _ isWordCharacter_iff

/-- A word has a kind, unless it is a number that is too large. -/
theorem exists_wordKind {text : List Char}
    (small : (∀ c ∈ text, c.isDigit) → Nat.ofDigitChars 10 text 0 ≤ 32767) :
    ∃ kind, WordKind text kind := by
  by_cases digits : ∀ c ∈ text, Text.isDigit c
  · refine ⟨_, .number digits (small ?_)⟩
    simpa only [Text.isDigit_eq] using digits
  · by_cases keyword : ∃ keyword : Keyword, String.ofList text = keyword.spelling
    · obtain ⟨keyword, spelled⟩ := keyword
      exact ⟨_, .keyword spelled⟩
    · simp only [not_forall] at digits
      simp only [not_exists] at keyword
      obtain ⟨c, member, letter⟩ := digits
      exact ⟨_, .name ⟨c, member, letter⟩ keyword⟩

/-- A number that has a kind is a constant of the machine. -/
theorem WordKind.small {text : List Char} {kind : TokenKind} (isKind : WordKind text kind)
    (digits : ∀ c ∈ text, c.isDigit) : Nat.ofDigitChars 10 text 0 ≤ 32767 := by
  simp only [← Text.isDigit_eq] at digits
  cases isKind with
  | number _ small => exact small
  | @keyword keyword spelled =>
    obtain ⟨c, member, letter⟩ := keyword.exists_letter
    rw [← spelled, String.toList_ofList] at member
    exact absurd (digits c member) letter
  | name letter =>
    obtain ⟨c, member, letter⟩ := letter
    exact absurd (digits c member) letter

/-- A word has only one kind. -/
theorem WordKind.unique {text : List Char} {kind other : TokenKind} (first : WordKind text kind)
    (second : WordKind text other) : kind = other := by
  have reads : Lexeme.readingOfWord text = .ok (kind, String.ofList text) :=
    Lexeme.readingOfWord_eq_ok_iff.mpr ⟨first, rfl⟩
  have readsToo : Lexeme.readingOfWord text = .ok (other, String.ofList text) :=
    Lexeme.readingOfWord_eq_ok_iff.mpr ⟨second, rfl⟩
  rw [reads] at readsToo
  cases readsToo
  rfl

namespace Spelling

/-- What a lexeme reads as is fixed. -/
theorem ReadsAs.unique {spelling : Spelling} {word other : TokenKind × String}
    (first : spelling.ReadsAs word) (second : spelling.ReadsAs other) : word = other := by
  obtain ⟨kind, text⟩ := word
  obtain ⟨otherKind, otherText⟩ := other
  cases spelling with
  | word =>
    obtain ⟨isKind, rfl⟩ := first
    obtain ⟨isOther, rfl⟩ := second
    rw [isKind.unique isOther]
  | symbol | string | character =>
    obtain ⟨rfl, rfl⟩ := first
    obtain ⟨rfl, rfl⟩ := second
    rfl

/-- Every lexeme is a token. -/
theorem exists_spells (spelling : Spelling) :
    ∃ word, Spells spelling.fragment word ∧ spelling.ReadsAs word := by
  cases spelling with
  | word text nonempty inside small =>
    obtain ⟨kind, isKind⟩ := exists_wordKind small
    obtain ⟨c, rest, rfl⟩ := List.exists_cons_of_ne_nil nonempty
    refine ⟨(kind, _), .word (fun d member => isWordCharacter_iff.mpr (inside d member)) ?_,
      isKind, rfl⟩
    exact Lexeme.readingOfWord_eq_ok_iff.mpr ⟨isKind, rfl⟩
  | symbol mark => exact ⟨_, .symbol mark, rfl, rfl⟩
  | string text inside small short =>
    have reads := Lexeme.readingOfString_eq_ok_iff.mpr ⟨small, short, rfl⟩
    refine ⟨_, .string (fun c member => ?_) reads, rfl, rfl⟩
    simpa [Lexeme.isStringCharacter] using inside c member
  | character c inside small =>
    have reads := Lexeme.readingOfCharacter_eq_ok_iff.mpr ⟨small, rfl⟩
    exact ⟨_, .character (not_or.mpr inside) reads, rfl, rfl⟩

/-- What is no word begins with a character that is in no word. -/
theorem exists_head?_of_not_isWord {spelling : Spelling} (other : spelling.isWord = false) :
    ∃ c, spelling.fragment.head? = some c ∧ Lexeme.isWordCharacter c = false := by
  cases spelling with
  | word => cases other
  | symbol mark => exact ⟨_, rfl, by cases mark <;> decide⟩
  | string => exact ⟨'"', rfl, by decide⟩
  | character => exact ⟨'\'', rfl, by decide⟩

end Spelling

end Spellings

section Arrangements

variable {units : List (List Char × Spelling)} {after : List Char}

theorem not_isWordCharacter_of_isBlank {c : Char} (blank : Text.isBlank c) :
    Lexeme.isWordCharacter c = false := by
  simp [Lexeme.isWordCharacter, blank]

/-- What follows a word in an arrangement is in no word. -/
theorem head?_unitsText (blank : ∀ unit ∈ units, ∀ c ∈ unit.1, Text.isBlank c)
    (blankAfter : ∀ c ∈ after, Text.isBlank c)
    (apart : ∀ unit ∈ units.head?, unit.2.isWord → unit.1 ≠ []) :
    ∀ c ∈ (unitsText units after).head?, Lexeme.isWordCharacter c = false := by
  cases units with
  | nil =>
    intro c first
    exact not_isWordCharacter_of_isBlank (blankAfter c (List.mem_of_mem_head? first))
  | cons unit units =>
    obtain ⟨gap, spelling⟩ := unit
    have blank := blank _ List.mem_cons_self
    have apart := apart _ rfl
    intro c first
    simp only [unitsText, List.flatMap_cons, List.append_assoc] at first
    cases gap with
    | cons d gap =>
      cases first
      exact not_isWordCharacter_of_isBlank (blank c List.mem_cons_self)
    | nil =>
      have other : spelling.isWord = false := by
        by_contra word
        exact apart (by simpa using word) rfl
      obtain ⟨d, head, noWord⟩ := Spelling.exists_head?_of_not_isWord other
      rw [List.nil_append, List.head?_append, head] at first
      cases first
      exact noWord

/-- Arranged lexemes are found one by one, wherever the source begins. -/
theorem exists_tokens_of_units (blank : ∀ unit ∈ units, ∀ c ∈ unit.1, Text.isBlank c)
    (blankAfter : ∀ c ∈ after, Text.isBlank c)
    (apart : units.IsChain fun unit next => unit.2.isWord → next.2.isWord → next.1 ≠ [])
    (position : Position) :
    ∃ tokens, collect (scanFrom position (unitsText units after)) = .ok tokens ∧
      List.Forall₂ (fun unit token => unit.2.ReadsAs token.word) units tokens := by
  induction units generalizing position with
  | nil =>
    have nothing : scanFrom position (after ++ []) = [] := by
      rw [scanFrom_append blankAfter, scanFrom]
    rw [List.append_nil] at nothing
    refine ⟨[], ?_, .nil⟩
    rw [unitsText, List.flatMap_nil, List.nil_append, nothing]
    rfl
  | cons unit units inductionHypothesis =>
    rw [List.forall_mem_cons] at blank
    rw [List.isChain_cons] at apart
    obtain ⟨word, spelled, reads⟩ := unit.2.exists_spells
    have ends : (∀ c ∈ unit.2.fragment, Lexeme.isWordCharacter c) →
        ∀ c ∈ (unitsText units after).head?, Lexeme.isWordCharacter c = false := by
      intro inside
      have isWord : unit.2.isWord := by
        by_contra other
        obtain ⟨c, head, noWord⟩ := Spelling.exists_head?_of_not_isWord (by simpa using other)
        rw [inside c (List.mem_of_mem_head? head)] at noWord
        cases noWord
      exact head?_unitsText blank.2 blankAfter fun next head => apart.1 next head isWord
    obtain ⟨tokens, scanned, each⟩ := inductionHypothesis blank.2 apart.2
      ((position.advanceOver unit.1).advanceOver unit.2.fragment)
    refine ⟨⟨word.1, word.2, .covering (position.advanceOver unit.1) unit.2.fragment⟩ :: tokens,
      ?_, .cons reads each⟩
    have text : unitsText (unit :: units) after =
        unit.1 ++ (unit.2.fragment ++ unitsText units after) := by
      simp [unitsText]
    rw [text, scanFrom_append blank.1, spelled.scanFrom ends, collect, scanned]
    rfl

/-- The source that an arrangement makes up has its lexemes as tokens. -/
theorem Arrangement.exists_tokens (arrangement : Arrangement) :
    ∃ tokens, tokenize arrangement.source = .ok tokens ∧
      List.Forall₂ (fun unit token => unit.2.ReadsAs token.word) arrangement.units tokens := by
  rw [tokenize, scan, source, String.toList_ofList]
  exact exists_tokens_of_units arrangement.blank arrangement.blankAfter arrangement.apart .start

end Arrangements

section Rewriting

/-- The word of a token can be written down as a lexeme that reads as it. -/
theorem Spells.exists_spelling {fragment : List Char} {word : TokenKind × String}
    (spelled : Spells fragment word) :
    ∃ spelling : Spelling, spelling.fragment = rewritten word ∧ spelling.ReadsAs word := by
  have admits := spelled.admits
  cases spelled with
  | @string text _ inside reads =>
    obtain ⟨small, short, rfl⟩ := Lexeme.readingOfString_eq_ok_iff.mp reads
    refine ⟨.string text (fun c member => ?_) small short, ?_, rfl, rfl⟩
    · simpa [Lexeme.isStringCharacter] using inside c member
    · simp [Spelling.fragment, rewritten]
  | @character c _ inside reads =>
    -- The literal is written as the number that it stands for.
    obtain ⟨_, rfl⟩ := Lexeme.readingOfCharacter_eq_ok_iff.mp reads
    obtain ⟨nonempty, digits, small⟩ := admits
    refine ⟨.word _ nonempty (fun d member => ?_) (fun _ => small), rfl, .number digits small, ?_⟩
    · exact isWordCharacter_iff.mp (isWordCharacter_of_isDigit (digits d member))
    · exact String.ofList_toList.symm
  | symbol mark => exact ⟨.symbol mark, by simp [Spelling.fragment, rewritten], rfl, rfl⟩
  | @word c text word inside reads =>
    obtain ⟨kind, shown⟩ := word
    obtain ⟨isKind, rfl⟩ := Lexeme.readingOfWord_eq_ok_iff.mp reads
    refine ⟨.word (c :: text) (List.cons_ne_nil c text) (fun d member => ?_) isKind.small, ?_,
      isKind, rfl⟩
    · exact isWordCharacter_iff.mp (inside d member)
    · cases isKind <;> simp [Spelling.fragment, rewritten]

/-- All tokens of a source can be written down as lexemes. -/
theorem exists_spellings {tokens : List Token}
    (spelled : ∀ token ∈ tokens, ∃ fragment, Spells fragment token.word) :
    ∃ spellings : List Spelling,
      spellings.map Spelling.fragment = tokens.map (rewritten ·.word) ∧
        List.Forall₂ (fun spelling token => spelling.ReadsAs token.word) spellings tokens := by
  induction tokens with
  | nil => exact ⟨[], rfl, .nil⟩
  | cons token tokens inductionHypothesis =>
    rw [List.forall_mem_cons] at spelled
    obtain ⟨⟨fragment, first⟩, others⟩ := spelled
    obtain ⟨spelling, written, reads⟩ := first.exists_spelling
    obtain ⟨spellings, further, each⟩ := inductionHypothesis others
    exact ⟨spelling :: spellings, by rw [List.map_cons, written, further]; rfl, .cons reads each⟩

/-- Lexemes with a space before each but the first. -/
def spaced : List Spelling → List (List Char × Spelling)
  | [] => []
  | first :: others => ([], first) :: others.map ([' '], ·)

theorem unitsText_spaced (spellings : List Spelling) :
    unitsText (spaced spellings) [] = [' '].intercalate (spellings.map Spelling.fragment) := by
  cases spellings with
  | nil => rfl
  | cons first others =>
    induction others generalizing first with
    | nil => simp [unitsText, spaced]
    | cons second others inductionHypothesis =>
      have shorter := inductionHypothesis second
      rw [List.map_cons] at shorter
      rw [List.map_cons, List.map_cons, List.intercalate_cons_cons, ← shorter]
      simp [unitsText, spaced]

/-- Lexemes with a space between each two of them are arranged. -/
def Arrangement.ofSpellings (spellings : List Spelling) : Arrangement where
  units := spaced spellings
  after := []
  blank := by
    cases spellings with
    | nil => exact List.forall_mem_nil _
    | cons first others => simp [spaced, show Text.isBlank ' ' from by decide]
  blankAfter := List.forall_mem_nil _
  apart := by
    cases spellings with
    | nil => exact .nil
    | cons first others =>
      refine List.Pairwise.isChain (List.pairwise_cons.mpr ⟨?_, ?_⟩)
      · simp
      · exact List.pairwise_map.mpr (List.pairwise_of_forall (by simp))

theorem source_ofSpellings (spellings : List Spelling) :
    (Arrangement.ofSpellings spellings).source =
      String.ofList ([' '].intercalate (spellings.map Spelling.fragment)) :=
  congrArg String.ofList (unitsText_spaced spellings)

theorem map_snd_spaced (spellings : List Spelling) : (spaced spellings).map (·.2) = spellings := by
  cases spellings <;> simp [spaced]

/-- Tokens that read as the same lexemes have the same words. -/
theorem words_eq_of_forall₂ {spellings : List Spelling} {tokens others : List Token}
    (first : List.Forall₂ (fun spelling token => spelling.ReadsAs token.word) spellings tokens)
    (second : List.Forall₂ (fun spelling token => spelling.ReadsAs token.word) spellings others) :
    others.map Token.word = tokens.map Token.word := by
  induction first generalizing others with
  | nil =>
    cases second
    rfl
  | cons reads _ inductionHypothesis =>
    cases second with
    | cons readsToo further =>
      rw [List.map_cons, List.map_cons, readsToo.unique reads, inductionHypothesis further]

end Rewriting

/-- However lexemes are arranged, the tokens of the source that they make up are these lexemes, one by one.
The tokens of a source, written down with spaces between them, are the same tokens again. -/
theorem tokenize_recognises_spellings :
    (∀ arrangement : Arrangement, ∃ tokens, tokenize arrangement.source = .ok tokens ∧
      List.Forall₂ (fun unit token => unit.2.ReadsAs token.word) arrangement.units tokens) ∧
    ∀ source tokens, tokenize source = .ok tokens →
      ∃ others, tokenize (rewrite tokens) = .ok others ∧
        others.map Token.word = tokens.map Token.word := by
  refine ⟨Arrangement.exists_tokens, fun source tokens found => ?_⟩
  have spelled : ∀ token ∈ tokens, ∃ fragment, Spells fragment token.word := by
    intro token member
    obtain ⟨fragment, _, spelled⟩ := spells_of_tokenize found token member
    exact ⟨fragment, spelled⟩
  obtain ⟨spellings, written, each⟩ := exists_spellings spelled
  obtain ⟨others, foundAgain, eachAgain⟩ := (Arrangement.ofSpellings spellings).exists_tokens
  rw [source_ofSpellings, written] at foundAgain
  refine ⟨others, foundAgain, words_eq_of_forall₂ each ?_⟩
  rw [← map_snd_spaced spellings]
  exact List.forall₂_map_left_iff.mpr eachAgain

/-- A name, a string, a quote as a literal, a number and two slashes need no blank between them; the
literal is written down again as its code. -/
theorem tokenize_recognises_spellings_touching :
    (∃ tokens, tokenize "x\"if\"'\"'007//" = .ok tokens ∧ tokens.length = 6) ∧
      ∃ tokens, tokenize "34 \"if\"" = .ok tokens ∧
        tokens.map Token.word = [(.integerConstant, "34"), (.stringConstant, "if")] := by
  let arrangement : Arrangement :=
    { units :=
        [([], .word ['x'] (by simp) (List.forall_iff_forall_mem.mp (by decide)) (by simp)),
          ([], .string ['i', 'f'] (by simp) (by simp) (by simp)),
          ([], .character '"' (by simp) (by simp)),
          ([], .word ['0', '0', '7'] (by simp) (List.forall_iff_forall_mem.mp (by decide))
            fun _ => by decide),
          ([], .symbol .slash), ([], .symbol .slash)]
      after := []
      blank := by simp
      blankAfter := by simp
      apart := by simp [Spelling.isWord] }
  let tokens : List Token :=
    [⟨.integerConstant, "34", ⟨0, 3, 1, 1⟩⟩, ⟨.stringConstant, "if", ⟨3, 4, 1, 4⟩⟩]
  have found : tokenize "'\"'\"if\"" = .ok tokens := by decide +kernel
  constructor
  · obtain ⟨tokens, scanned, each⟩ := tokenize_recognises_spellings.1 arrangement
    exact ⟨tokens, scanned, each.length_eq.symm⟩
  · exact tokenize_recognises_spellings.2 _ tokens found

end Jack
