import Jack.Proofs.Names
import Jack.Proofs.Refusals

/-!
# How terminals are written

The text of a token is fixed by its kind up to names, digits and the inside of strings. In a class that
was read from a source, every terminal stands in the source as it is written: a number as its decimal
digits or as a character, a string between quotes, all else as itself. Numbers, characters of strings and
lengths of strings are constants of the machine.
-/

namespace Jack

/-- The texts that tokens of a kind have. -/
def TokenKind.Admits : TokenKind → String → Prop
  | .keyword word, text => text = word.spelling
  | .symbol mark, text => text = mark.spelling
  | .identifier, text => IsName text
  | .integerConstant, text =>
    text.toList ≠ [] ∧ (∀ c ∈ text.toList, Text.isDigit c) ∧
      Text.digitsValue text.toList ≤ maxConstant
  | .stringConstant, text =>
    text.length ≤ maxConstant ∧
      ∀ c ∈ text.toList, Lexeme.isStringCharacter c ∧ c.toNat ≤ maxConstant

/-- A fragment of a source is how a terminal is written. -/
def Terminal.IsWritten (fragment : List Char) : Terminal → Prop
  | .keyword word => fragment = word.spelling.toList
  | .symbol mark => fragment = mark.spelling.toList
  | .identifier name => fragment = name.toList
  | .integer value =>
    (fragment ≠ [] ∧ (∀ c ∈ fragment, c.isDigit) ∧
      Nat.ofDigitChars 10 fragment 0 = value.toNat) ∨
    ∃ c : Char, fragment = ['\'', c, '\''] ∧ c.toNat = value.toNat
  | .string text => fragment = '"' :: (text.toList ++ ['"'])

/-- The numbers of a terminal are constants of the machine. -/
def Terminal.Fits : Terminal → Prop
  | .integer value => value.toNat ≤ 32767
  | .string text => text.length ≤ 32767 ∧ ∀ c ∈ text.toList, c.toNat ≤ 32767
  | .keyword _ | .symbol _ | .identifier _ => True

/-- The token stands in the source where the terminal is written. -/
def Token.Writes (source : String) (token : Token) (terminal : Terminal) : Prop :=
  ∃ fragment, token.span.fragment? source = some (String.ofList fragment) ∧
    terminal.IsWritten fragment

section Numbers

/-- A text denotes at most one number. -/
theorem Text.Denotes.unique {text : String} {first second : Nat} (one : Denotes text first)
    (other : Denotes text second) : first = second := by
  have reads := readUnsigned?_eq_some_iff.mpr ⟨one, Nat.le_max_left first second⟩
  rw [readUnsigned?_eq_some_iff.mpr ⟨other, Nat.le_max_right first second⟩] at reads
  exact (Option.some.inj reads).symm

/-- Digits denote their value. -/
theorem Text.denotes_ofList {digits : List Char} (nonempty : digits ≠ [])
    (all : ∀ c ∈ digits, isDigit c) : Denotes (String.ofList digits) (digitsValue digits) :=
  ⟨digits, .inl String.toList_ofList, nonempty, all, rfl⟩

theorem Text.isDigit_eq (c : Char) : isDigit c = c.isDigit := by
  simp [isDigit, Char.isDigit, Char.le_def]

end Numbers

section Spellings

variable {fragment : List Char}

/-- What is spelled in a source has a text that its kind admits. -/
theorem Spells.admits {word : TokenKind × String} (spelled : Spells fragment word) :
    word.1.Admits word.2 := by
  have isName := spelled.isName
  cases spelled with
  | string inside reads =>
    obtain ⟨small, short, rfl⟩ := Lexeme.readingOfString_eq_ok_iff.mp reads
    simp only [TokenKind.Admits, String.toList_ofList, String.length_ofList]
    exact ⟨short, fun c member => ⟨inside c member, small c member⟩⟩
  | @character c _ inside reads =>
    obtain ⟨small, rfl⟩ := Lexeme.readingOfCharacter_eq_ok_iff.mp reads
    obtain ⟨nonempty, digits, value⟩ :=
      Text.readDigits?_eq_some_iff.mp (Text.readDigits?_toString c.toNat)
    exact ⟨nonempty, digits, by rwa [value]⟩
  | symbol mark => rfl
  | word inside reads =>
    obtain ⟨digits, small, rfl⟩ | ⟨keyword, same, rfl⟩ | rfl :=
      Lexeme.cases_of_readingOfWord reads
    · simp only [TokenKind.Admits, String.toList_ofList]
      exact ⟨List.cons_ne_nil _ _, digits, small⟩
    · exact same.symm
    · exact isName rfl

end Spellings

section Tokens

variable {source : String} {tokens : List Token}

/-- Every token of a source has a text that its kind admits. -/
theorem admits_of_tokenize (found : tokenize source = .ok tokens) :
    ∀ token ∈ tokens, token.kind.Admits token.text := by
  intro token member
  obtain ⟨fragment, _, spelled⟩ := spells_of_tokenize found token member
  exact spelled.admits

/-- The text of an integer constant denotes the value of its digits. -/
theorem TokenKind.denotes_of_admits {text : String} (admits : integerConstant.Admits text) :
    Text.Denotes text (Text.digitsValue text.toList) := by
  have denotes := Text.denotes_ofList admits.1 admits.2.1
  rwa [String.ofList_toList] at denotes

/-- A terminal fits if it is a token of a source. -/
theorem Token.Is.fits {token : Token} {terminal : Terminal} (is : token.Is terminal)
    (admits : token.kind.Admits token.text) : terminal.Fits := by
  obtain ⟨kind, content⟩ := is
  rw [kind] at admits
  cases terminal with
  | keyword | symbol | identifier => trivial
  | integer value =>
    have same : value.toNat = _ := content.unique (TokenKind.denotes_of_admits admits)
    rw [Terminal.Fits, same]
    exact admits.2.2
  | string text =>
    obtain ⟨short, inside⟩ := admits
    have content : token.text = text := content
    rw [content] at short inside
    exact ⟨short, fun c member => (inside c member).2⟩

end Tokens

end Jack
