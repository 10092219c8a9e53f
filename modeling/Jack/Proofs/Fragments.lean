import Jack.Proofs.Spelling

/-!
# Where tokens stand

A token remembers the bytes that it was read from. They are whole characters of the source, and these
characters are a spelling of the token. What a fragment can read as is said once for each of its shapes.
-/

namespace Jack

section Bytes

theorem dropBytes?_append (front rest : List Char) :
    dropBytes? (byteCount front) (front ++ rest) = some rest := by
  induction front with
  | nil => cases rest <;> simp [dropBytes?, byteCount]
  | cons c front inductionHypothesis =>
    have positive := c.utf8Size_pos
    rw [List.cons_append, dropBytes?, byteCount, if_neg (by omega), if_pos (Nat.le_add_right _ _),
      Nat.add_sub_cancel_left, inductionHypothesis]

theorem takeBytes?_append (fragment rest : List Char) :
    takeBytes? (byteCount fragment) (fragment ++ rest) = some fragment := by
  induction fragment with
  | nil => cases rest <;> simp [takeBytes?, byteCount]
  | cons c fragment inductionHypothesis =>
    have positive := c.utf8Size_pos
    rw [List.cons_append, takeBytes?, byteCount, if_neg (by omega), if_pos (Nat.le_add_right _ _),
      Nat.add_sub_cancel_left, inductionHypothesis]
    rfl

/-- A span covers the characters that it was made for. -/
theorem Span.fragment?_covering {source : String} {front fragment rest : List Char}
    {position : Position} (whole : source.toList = front ++ (fragment ++ rest))
    (place : position.offset = byteCount front) :
    (Span.covering position fragment).fragment? source = some (String.ofList fragment) := by
  simp only [Span.fragment?, Span.covering, whole, place, dropBytes?_append, bind, Option.bind,
    takeBytes?_append]
  rfl

end Bytes

section Readings

variable {text : List Char} {word : TokenKind × String}

/-- The inside of a string is read if its length and its characters are constants of the machine. -/
theorem Lexeme.readingOfString_eq_ok_iff :
    readingOfString text = .ok word ↔
      (∀ c ∈ text, c.toNat ≤ maxConstant) ∧ text.length ≤ maxConstant ∧
        word = (.stringConstant, String.ofList text) := by
  have within : text.find? (maxConstant < ·.toNat) = none ↔ ∀ c ∈ text, c.toNat ≤ maxConstant := by
    simp [List.find?_eq_none]
  unfold readingOfString
  split
  · rename_i found
    rw [← within, found]
    simp
  · rename_i found
    rw [← within, found]
    split
    · rename_i long
      refine iff_of_false nofun ?_
      rintro ⟨_, short, _⟩
      omega
    · rename_i short
      simp [Nat.le_of_not_lt short, eq_comm]

/-- A character literal is read if the code of its character is a constant of the machine. -/
theorem Lexeme.readingOfCharacter_eq_ok_iff {c : Char} :
    readingOfCharacter c = .ok word ↔
      c.toNat ≤ maxConstant ∧ word = (.integerConstant, toString c.toNat) := by
  unfold readingOfCharacter
  split
  · rename_i large
    refine iff_of_false nofun ?_
    rintro ⟨small, _⟩
    omega
  · rename_i small
    simp [Nat.le_of_not_lt small, eq_comm]

/-- No keyword is a number: each of them begins with a letter. -/
theorem Keyword.exists_letter (keyword : Keyword) :
    ∃ c ∈ keyword.spelling.toList, ¬ Text.isDigit c := by
  have found : keyword.spelling.toList.any fun c => !Text.isDigit c := by cases keyword <;> decide
  simpa using found

/-- The kinds of words: numbers, keywords and names. -/
inductive WordKind (text : List Char) : TokenKind → Prop where
  | number (digits : ∀ c ∈ text, Text.isDigit c) (small : Text.digitsValue text ≤ maxConstant) :
      WordKind text .integerConstant
  | keyword {keyword : Keyword} (spelled : String.ofList text = keyword.spelling) :
      WordKind text (.keyword keyword)
  | name (letter : ∃ c ∈ text, ¬ Text.isDigit c)
      (free : ∀ keyword : Keyword, String.ofList text ≠ keyword.spelling) :
      WordKind text .identifier

/-- A word is read as itself, unless it is a number that is no constant of the machine. -/
theorem Lexeme.readingOfWord_eq_ok_iff :
    readingOfWord text = .ok word ↔ WordKind text word.1 ∧ word.2 = String.ofList text := by
  obtain ⟨kind, shown⟩ := word
  have digitsOrLetter : text.all Text.isDigit = false ↔ ∃ c ∈ text, ¬ Text.isDigit c := by simp
  have unread (free : Keyword.ofSpelling? (String.ofList text) = none) (keyword : Keyword) :
      String.ofList text ≠ keyword.spelling := by
    intro spelled
    rw [Keyword.ofSpelling?_eq_some_iff.mpr spelled] at free
    cases free
  simp only [readingOfWord]
  constructor
  · intro reads
    split at reads
    · rename_i digits
      split at reads <;> cases reads
      rename_i small
      exact ⟨.number (List.all_eq_true.mp digits) small, rfl⟩
    · rename_i letter
      rw [Bool.not_eq_true, digitsOrLetter] at letter
      split at reads <;> cases reads
      · rename_i keyword found
        exact ⟨.keyword (Keyword.ofSpelling?_eq_some_iff.mp found), rfl⟩
      · rename_i free
        exact ⟨.name letter (unread free), rfl⟩
  · rintro ⟨kind, rfl⟩
    cases kind with
    | number digits small => rw [if_pos (List.all_eq_true.mpr digits), if_pos small]
    | @keyword keyword spelled =>
      have letter : text.all Text.isDigit = false := by
        obtain ⟨c, member, letter⟩ := keyword.exists_letter
        rw [← spelled, String.toList_ofList] at member
        exact digitsOrLetter.mpr ⟨c, member, letter⟩
      rw [letter, Keyword.ofSpelling?_eq_some_iff.mpr spelled]
      rfl
    | name letter free =>
      rw [digitsOrLetter.mpr letter]
      cases found : Keyword.ofSpelling? (String.ofList text) with
      | none => rfl
      | some keyword => exact absurd (Keyword.ofSpelling?_eq_some_iff.mp found) (free keyword)

/-- A word is a number, a keyword or an identifier. -/
theorem Lexeme.cases_of_readingOfWord (reads : readingOfWord text = .ok word) :
    ((∀ c ∈ text, Text.isDigit c) ∧ Text.digitsValue text ≤ maxConstant ∧
      word = (.integerConstant, String.ofList text)) ∨
    (∃ keyword : Keyword, keyword.spelling = String.ofList text ∧
      word = (.keyword keyword, String.ofList text)) ∨
    word = (.identifier, String.ofList text) := by
  obtain ⟨kind, shown⟩ := word
  obtain ⟨kind, rfl⟩ := readingOfWord_eq_ok_iff.mp reads
  cases kind with
  | number digits small => exact .inl ⟨digits, small, rfl⟩
  | keyword spelled => exact .inr (.inl ⟨_, spelled.symm, rfl⟩)
  | name => exact .inr (.inr rfl)

end Readings

/-- Tokens of the rest of a source stand in the source and are spelled as they stand there. -/
theorem spells_of_scanFrom {source : String} {front rest : List Char} {position : Position}
    {tokens : List Token} (whole : source.toList = front ++ rest)
    (place : position.offset = byteCount front)
    (scanned : collect (scanFrom position rest) = .ok tokens) :
    ∀ token ∈ tokens, ∃ fragment, token.span.fragment? source = some (String.ofList fragment) ∧
      Spells fragment token.word := by
  fun_induction scanFrom position rest generalizing front tokens with
  | case1 =>
    cases scanned
    simp
  | case2 position c rest blank inductionHypothesis =>
    have farther : source.toList = (front ++ [c]) ++ rest := by simp [whole]
    refine inductionHypothesis farther ?_ scanned
    have moved := position.offset_advanceOver [c]
    rw [byteCount_append, ← place, ← moved]
    rfl
  | case3 position c rest noBlank lexeme =>
    rename_i inductionHypothesis
    have cut : lexeme.fragment ++ lexeme.rest = c :: rest := Lexeme.read_fragment_append_rest c rest
    rw [← cut] at whole
    obtain ⟨token, others, item, further, rfl⟩ := collect_cons_eq_ok_iff.mp scanned
    obtain ⟨word, reading, rfl⟩ := Lexeme.itemAt_eq_ok_iff.mp item
    rw [List.forall_mem_cons]
    constructor
    · exact ⟨lexeme.fragment, Span.fragment?_covering whole place,
        (Lexeme.isToken_read noBlank reading).spelled⟩
    · have farther : source.toList = (front ++ lexeme.fragment) ++ lexeme.rest := by simp [whole]
      refine inductionHypothesis farther ?_ further
      rw [Position.offset_advanceOver, byteCount_append, place]

/-- Every token of a source stands in it and is spelled as it stands there. -/
theorem spells_of_tokenize {source : String} {tokens : List Token}
    (found : tokenize source = .ok tokens) :
    ∀ token ∈ tokens, ∃ fragment, token.span.fragment? source = some (String.ofList fragment) ∧
      Spells fragment token.word := by
  have whole : source.toList = [] ++ source.toList := rfl
  exact spells_of_scanFrom whole rfl found

end Jack
