import Jack.Proofs.SyntaxErrors

/-!
# Numbers that parsers refuse

A parser asks for an integer constant in one place only: before an integer constant that it cannot read.
Everywhere else a refusal is worded otherwise.
-/

namespace Jack

/-- An integer constant that is no number below 65536. -/
def Token.IsUnreadable (token : Token) : Prop :=
  token.kind = .integerConstant ∧ Text.readUnsigned? 65535 token.text = none

namespace Parser

variable {α β : Type}

/-- The parser asks for an integer constant only before one that cannot be read. -/
def AsksForNumbers (parser : Parser α) : Prop :=
  ∀ ⦃tokens expected rest⦄, parser tokens = .refused expected rest →
    expected.describe = "integer constant" → ∃ token ∈ rest.head?, token.IsUnreadable

section Combinators

theorem asksForNumbers_of_read {parser : Parser α}
    (reads : ∀ tokens, ∃ value rest, parser tokens = .read value rest) : AsksForNumbers parser := by
  intro tokens expected rest refuses
  obtain ⟨value, left, read⟩ := reads tokens
  rw [read] at refuses
  cases refuses

theorem asksForNumbers_pure (value : α) : AsksForNumbers (pure value) :=
  asksForNumbers_of_read fun tokens => ⟨value, tokens, rfl⟩

theorem asksForNumbers_accept (kind : TokenKind) : AsksForNumbers (accept kind) := by
  refine asksForNumbers_of_read fun tokens => ?_
  unfold accept
  split
  · split
    · exact ⟨_, _, rfl⟩
    · exact ⟨_, _, rfl⟩
  · exact ⟨_, _, rfl⟩

/-- What follows a parser asks as the parser does. -/
theorem AsksForNumbers.bind {parser : Parser α} {next : α → Parser β}
    (first : AsksForNumbers parser) (further : ∀ value, AsksForNumbers (next value)) :
    AsksForNumbers (parser >>= next) := by
  intro tokens expected rest refuses
  rcases bind_eq_refused_iff.mp refuses with refuses | ⟨value, middle, _, refuses⟩
  · exact first refuses
  · exact further value refuses

theorem AsksForNumbers.map {parser : Parser α} (inside : AsksForNumbers parser) (build : α → β) :
    AsksForNumbers (do return build (← parser)) :=
  inside.bind fun _ => asksForNumbers_pure _

theorem asksForNumbers_peekKind {next : Option TokenKind → Parser α}
    (further : ∀ found, AsksForNumbers (next found)) : AsksForNumbers (peekKind >>= next) :=
  fun tokens _ _ refuses => further (tokens.head?.map Token.kind) refuses

theorem AsksForNumbers.skip {parser : Parser α} (further : AsksForNumbers parser) :
    AsksForNumbers (do skip; parser) :=
  fun _ _ _ refuses => further refuses

theorem AsksForNumbers.ite {condition : Prop} [Decidable condition] {parser another : Parser α}
    (present : AsksForNumbers parser) (absent : AsksForNumbers another) :
    AsksForNumbers (if condition then parser else another) := by
  split
  · exact present
  · exact absent

/-- A token that may be there or not is never asked for. -/
theorem AsksForNumbers.accept {kind : TokenKind} {parser another : Parser α}
    (present : AsksForNumbers parser) (absent : AsksForNumbers another) :
    AsksForNumbers (do if ← Parser.accept kind then parser else another) :=
  (asksForNumbers_accept kind).bind fun _ => present.ite absent

theorem asksForNumbers_expectToken {kind : TokenKind}
    (other : kind.describe ≠ "integer constant") :
    AsksForNumbers (do let _ ← expectToken kind : Parser Unit) := by
  refine AsksForNumbers.bind ?_ fun _ => asksForNumbers_pure _
  intro tokens expected rest refuses same
  unfold expectToken at refuses
  split at refuses
  · split at refuses <;> cases refuses
    exact absurd same other
  · cases refuses
    exact absurd same other

theorem AsksForNumbers.keyword {word : Keyword} {parser : Parser α}
    (further : AsksForNumbers parser) : AsksForNumbers (do keyword word; parser) := by
  refine AsksForNumbers.bind (asksForNumbers_expectToken ?_) fun _ => further
  cases word <;> decide

theorem AsksForNumbers.symbol {mark : Symbol} {parser : Parser α}
    (further : AsksForNumbers parser) : AsksForNumbers (do symbol mark; parser) := by
  refine AsksForNumbers.bind (asksForNumbers_expectToken ?_) fun _ => further
  cases mark <;> decide

theorem AsksForNumbers.many {item : Parser (Option α)} (each : AsksForNumbers item) (bound : Nat) :
    AsksForNumbers (many bound item) := by
  induction bound with
  | zero => exact asksForNumbers_pure _
  | succ bound inductionHypothesis =>
    refine each.bind fun found => ?_
    cases found with
    | none => exact asksForNumbers_pure _
    | some value => exact inductionHypothesis.map _

theorem AsksForNumbers.separated {item : Parser α} (each : AsksForNumbers item) (bound : Nat) :
    AsksForNumbers (separated bound item) := by
  refine each.bind fun first => AsksForNumbers.bind ?_ fun others => asksForNumbers_pure _
  exact AsksForNumbers.many ((each.map _).accept (asksForNumbers_pure _)) bound

theorem AsksForNumbers.parenthesized {item : Parser α} (each : AsksForNumbers item) (bound : Nat) :
    AsksForNumbers (parenthesized bound item) :=
  asksForNumbers_peekKind fun _ => (asksForNumbers_pure _).ite (each.separated bound)

end Combinators

end Parser

namespace Grammar

open Jack.Parser

section Expressions

variable {term : Parser Term} {expression : Parser Expression}

end Expressions

section Statements

variable {statement : Parser Statement}

end Statements

section Classes

end Classes

end Grammar

end Jack
