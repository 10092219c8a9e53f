import Jack.Proofs.Completion

/-!
# Where parsing stops

A syntax error points at the first token with which the tokens before it cannot go on. The tokens
before it begin a class, because what was read before a refusal can be completed. With that token
they begin none, because no parser looks beyond the token before which it stops.
-/

namespace Jack.Grammar

open Jack.Parser

section Errors

variable {tokens front rest : List Token} {expected : Expectation}

/-- The tokens are the beginning of a class, or a whole class. -/
def BeginsClass (tokens : List Token) : Prop :=
  ∃ more declaration, parseClass (tokens ++ more) = .ok declaration

/-- What was read before a refusal can go on as a class. -/
theorem beginsClass_of_refused {bound : Nat}
    (refuses : compilationUnit bound (front ++ rest) = .refused expected rest) :
    BeginsClass front := by
  obtain ⟨_, ⟨declaration, named, rfl⟩, first, missing, whole, passes⟩ :=
    (completes_compilationUnit bound).at_tokens _ refuses
  obtain ⟨read, split, each⟩ := passes.exists_append
  cases List.append_cancel_right split
  obtain ⟨more, others⟩ := exists_tokens missing
  refine ⟨more, declaration, parseClass_of_forall₂ named ?_⟩
  rw [whole]
  exact List.rel_append each others

/-- The token before which a class was refused cannot be next in any class. -/
theorem not_beginsClass_of_refused {bound : Nat} {token : Token} {tail : List Token}
    (enough : front.length + 1 ≤ bound)
    (refuses : compilationUnit bound (front ++ token :: tail) = .refused expected (token :: tail)) :
    ¬ BeginsClass (front ++ [token]) := by
  rintro ⟨more, declaration, parsed⟩
  have size : (front ++ [token]).length = front.length + 1 := List.length_append
  have plenty : front.length + 1 ≤ (front ++ [token] ++ more).length + 1 := by
    rw [List.length_append, size]
    omega
  rw [← List.singleton_append, ← List.append_assoc] at refuses
  -- The other tokens are read under another bound, but up to the refusal in the same way.
  have same := (local_compilationUnit enough plenty).agrees (front ++ [token]) tail [token]
    (Nat.le_of_eq size) (List.cons_ne_nil _ _) (by rw [refuses]; rfl) more
  rw [refuses] at same
  have refusesAgain : run compilationUnit (Cursor.ofTokens (front ++ [token] ++ more)).unread =
      .refused expected ([token] ++ more) := same
  rw [parseClass, Cursor.parse, refusesAgain] at parsed
  cases parsed

/-- The index of a place counts the tokens before it. -/
theorem token_ofUnread (tokens unread : List Token) :
    (TokenPosition.ofUnread tokens unread).token = tokens.length - unread.length := by
  cases unread with
  | cons token tail => rfl
  | nil =>
    unfold TokenPosition.ofUnread
    cases last : tokens.getLast? with
    | some token => rfl
    | none =>
      rw [List.getLast?_eq_none_iff.mp last]
      rfl

/-- An error is made of the tokens before which the class was refused. -/
theorem exists_refused_of_parseClass {error : SyntaxError}
    (fails : parseClass tokens = .error error) :
    ∃ expected front rest, tokens = front ++ rest ∧
      compilationUnit (tokens.length + 1) tokens = .refused expected rest ∧
      error = .ofUnread tokens expected rest := by
  unfold parseClass Cursor.parse at fails
  cases outcome : run compilationUnit (Cursor.ofTokens tokens).unread with
  | read declaration rest =>
    rw [outcome] at fails
    cases fails
  | refused expected rest =>
    rw [outcome] at fails
    cases fails
    have refuses : compilationUnit (tokens.length + 1) tokens = .refused expected rest := outcome
    obtain ⟨_, _, first, missing, _, passes⟩ :=
      (completes_compilationUnit (tokens.length + 1)).at_tokens tokens refuses
    obtain ⟨front, split, _⟩ := passes.exists_append
    have unread : ((Cursor.ofTokens tokens).moveTo rest).unread = rest :=
      (List.suffix_iff_eq_drop.mp ⟨front, split.symm⟩).symm
    refine ⟨expected, front, rest, split, refuses, ?_⟩
    rw [Cursor.error, unread]
    rfl

/-- A cursor stops where the class was refused, and before tokens that follow a class. -/
theorem index_parse_classDeclaration
    (refuses : compilationUnit (tokens.length + 1) tokens = .refused expected rest) :
    ((Cursor.ofTokens tokens).parse classDeclaration).1.index = tokens.length - rest.length := by
  unfold Cursor.parse
  rcases bind_eq_refused_iff.mp refuses with refuses | ⟨declaration, middle, read, refuses⟩
  · have outcome : run classDeclaration (Cursor.ofTokens tokens).unread =
        .refused expected rest := refuses
    rw [outcome]
    rfl
  · have outcome : run classDeclaration (Cursor.ofTokens tokens).unread =
        .read declaration middle := read
    rw [outcome]
    cases middle with
    | nil => cases refuses
    | cons token tail =>
      cases refuses
      rfl

end Errors

/-- A syntax error is at the first token with which the tokens before it do not begin any class, or
at the end if there is no such token. The error tells that token and its line and column, and the
cursor is left in front of it. -/
theorem parseClass_stops_at_first_wrong_token {tokens : List Token} {error : SyntaxError}
    (fails : parseClass tokens = .error error) :
    error.position.token ≤ tokens.length ∧
    BeginsClass (tokens.take error.position.token) ∧
    (∀ token, tokens[error.position.token]? = some token →
      ¬ BeginsClass (tokens.take (error.position.token + 1)) ∧
      error.found = some token ∧ error.encounter = token.describe ∧
      error.position.line = token.span.line ∧ error.position.column = token.span.column) ∧
    (error.position.token = tokens.length → error.found = none) ∧
    ((Cursor.ofTokens tokens).parse compilationUnit).1.index = error.position.token ∧
    ((Cursor.ofTokens tokens).parse classDeclaration).1.index = error.position.token := by
  obtain ⟨expected, front, rest, rfl, refuses, rfl⟩ := exists_refused_of_parseClass fails
  have place : (front ++ rest).length - rest.length = front.length := by simp
  have index : (SyntaxError.ofUnread (front ++ rest) expected rest).position.token =
      front.length := (token_ofUnread _ rest).trans place
  rw [index]
  refine ⟨?_, ?_, ?_, ?_, ?_, ?_⟩
  · simp
  · rw [List.take_left]
    exact beginsClass_of_refused refuses
  · intro token next
    rw [List.getElem?_append_right (Nat.le_refl _), Nat.sub_self] at next
    obtain ⟨tail, rfl⟩ := List.head?_eq_some_iff.mp (List.head?_eq_getElem?.trans next)
    have known : (front ++ token :: tail).take (front.length + 1) = front ++ [token] :=
      List.take_length_add_append 1
    refine ⟨?_, rfl, rfl, rfl, rfl⟩
    rw [known]
    exact not_beginsClass_of_refused (by simp) refuses
  · intro ends
    have none : rest = [] := by simpa using ends
    rw [none]
    rfl
  · have outcome : run compilationUnit (Cursor.ofTokens (front ++ rest)).unread =
        .refused expected rest := refuses
    rw [Cursor.parse, outcome]
    exact place
  · rw [index_parse_classDeclaration refuses, place]

/-- An index that is not closed: the semicolon behind it is wrong, and not the name or the bracket.
-/
theorem parseClass_stops_at_first_wrong_token_index :
    let token (kind : TokenKind) (text : String) : Token := ⟨kind, text, ⟨0, 0, 1, 7⟩⟩
    let tokens : List Token :=
      [token (.keyword .class) "class", token .identifier "Main", token (.symbol .leftBrace) "\x7b",
        token (.keyword .function) "function", token (.keyword .int) "int", token .identifier "at",
        token (.symbol .leftParen) "(", token (.symbol .rightParen) ")",
        token (.symbol .leftBrace) "\x7b", token (.keyword .return) "return",
        token .identifier "list", token (.symbol .leftBracket) "[", token .integerConstant "1",
        token (.symbol .semicolon) ";", token (.symbol .rightBrace) "\x7d"]
    let error : SyntaxError :=
      ⟨.kind (.symbol .rightBracket), some (token (.symbol .semicolon) ";"), ⟨13, 1, 7⟩⟩
    parseClass tokens = .error error ∧ BeginsClass (tokens.take 13) ∧
      ¬ BeginsClass (tokens.take 14) := by
  intro token tokens error
  have fails : parseClass tokens = .error error := by cbv
  obtain ⟨_, begins, wrong, _⟩ := parseClass_stops_at_first_wrong_token fails
  exact ⟨fails, begins, (wrong (token (.symbol .semicolon) ";") rfl).1⟩

end Jack.Grammar
