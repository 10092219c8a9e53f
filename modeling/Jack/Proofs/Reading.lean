import Jack.Grammar.Parser
import Jack.Proofs.Yield

/-!
# What parsers read

`Passes` relates a token sequence to the terminals at its front and to the tokens after them. A parser
is sound for a yield when it passes exactly the yield of the value that it reads. It recovers a value
from terminals when it reads that value from every sequence of tokens that begins with the terminals,
as long as it may stop before the token that comes next.
-/

namespace Jack

/-- The tokens begin with the terminals and continue with the rest. -/
inductive Passes : List Token → List Terminal → List Token → Prop where
  | nil {rest} : Passes rest [] rest
  | cons {token tokens terminal terminals rest} (is : token.Is terminal)
      (others : Passes tokens terminals rest) :
      Passes (token :: tokens) (terminal :: terminals) rest

/-- The kind of the next token. -/
def nextKind (tokens : List Token) : Option TokenKind := tokens.head?.map Token.kind

/-- The kind of the first of some terminals. -/
def firstKind (terminals : List Terminal) : Option TokenKind := terminals.head?.map Terminal.kind

@[simp] theorem firstKind_cons (terminal : Terminal) (terminals : List Terminal) :
    firstKind (terminal :: terminals) = some terminal.kind := rfl

theorem firstKind_append (first second : List Terminal) :
    firstKind (first ++ second) = (firstKind first).or (firstKind second) := by
  cases first <;> rfl

namespace Passes

/-- Terminals that follow each other are passed one after the other. -/
theorem trans {tokens middle rest : List Token} {terminals others : List Terminal}
    (first : Passes tokens terminals middle) (second : Passes middle others rest) :
    Passes tokens (terminals ++ others) rest := by
  induction first with
  | nil => exact second
  | cons is _ inductionHypothesis => exact .cons is (inductionHypothesis second)

/-- The tokens that are passed are those in front of the rest. -/
theorem exists_append {tokens rest : List Token} {terminals : List Terminal}
    (passes : Passes tokens terminals rest) :
    ∃ front, tokens = front ++ rest ∧ List.Forall₂ Token.Is front terminals := by
  induction passes with
  | nil => exact ⟨[], rfl, .nil⟩
  | cons is _ inductionHypothesis =>
    obtain ⟨front, rfl, each⟩ := inductionHypothesis
    exact ⟨_ :: front, rfl, .cons is each⟩

/-- Tokens that are terminals one by one are passed. -/
theorem of_forall₂ {front rest : List Token} {terminals : List Terminal}
    (each : List.Forall₂ Token.Is front terminals) : Passes (front ++ rest) terminals rest := by
  induction each with
  | nil => exact .nil
  | cons is _ inductionHypothesis => exact .cons is inductionHypothesis

/-- The first terminal tells the kind of the next token, and if there is none the rest does. -/
theorem nextKind_eq {tokens rest : List Token} {terminals : List Terminal}
    (passes : Passes tokens terminals rest) :
    nextKind tokens = (firstKind terminals).or (nextKind rest) := by
  cases passes with
  | nil => rfl
  | cons is _ => exact congrArg some is.1

end Passes

theorem passes_cons_iff {tokens rest : List Token} {terminal : Terminal}
    {terminals : List Terminal} :
    Passes tokens (terminal :: terminals) rest ↔
      ∃ middle, Passes tokens [terminal] middle ∧ Passes middle terminals rest := by
  constructor
  · rintro (_ | ⟨is, others⟩)
    exact ⟨_, .cons is .nil, others⟩
  · rintro ⟨middle, first, others⟩
    exact first.trans others

theorem passes_append_iff {tokens rest : List Token} {first second : List Terminal} :
    Passes tokens (first ++ second) rest ↔
      ∃ middle, Passes tokens first middle ∧ Passes middle second rest := by
  constructor
  · intro passes
    induction first generalizing tokens with
    | nil => exact ⟨tokens, .nil, passes⟩
    | cons terminal terminals inductionHypothesis =>
      obtain ⟨middle, one, others⟩ := passes_cons_iff.mp passes
      obtain ⟨later, more, last⟩ := inductionHypothesis others
      exact ⟨later, one.trans more, last⟩
  · rintro ⟨middle, passes, others⟩
    exact passes.trans others

theorem passes_singleton_iff {tokens rest : List Token} {terminal : Terminal} :
    Passes tokens [terminal] rest ↔ ∃ token, token.Is terminal ∧ tokens = token :: rest := by
  constructor
  · rintro (_ | ⟨is, ⟨⟩⟩)
    exact ⟨_, is, rfl⟩
  · rintro ⟨token, is, rfl⟩
    exact .cons is .nil

theorem passes_keyword_iff {tokens rest : List Token} {word : Keyword} :
    Passes tokens [.keyword word] rest ↔
      ∃ token, token.kind = .keyword word ∧ tokens = token :: rest := by
  simp [passes_singleton_iff, Token.Is, Terminal.kind]

theorem passes_symbol_iff {tokens rest : List Token} {mark : Symbol} :
    Passes tokens [.symbol mark] rest ↔
      ∃ token, token.kind = .symbol mark ∧ tokens = token :: rest := by
  simp [passes_singleton_iff, Token.Is, Terminal.kind]

theorem passes_identifier_iff {tokens rest : List Token} {name : String} :
    Passes tokens [.identifier name] rest ↔
      ∃ token, (token.kind = .identifier ∧ token.text = name) ∧ tokens = token :: rest := by
  simp [passes_singleton_iff, Token.Is, Terminal.kind]

theorem passes_integer_iff {tokens rest : List Token} {value : UInt16} :
    Passes tokens [.integer value] rest ↔
      ∃ token, (token.kind = .integerConstant ∧ Text.Denotes token.text value.toNat) ∧
        tokens = token :: rest := by
  simp [passes_singleton_iff, Token.Is, Terminal.kind]

theorem passes_string_iff {tokens rest : List Token} {text : String} :
    Passes tokens [.string text] rest ↔
      ∃ token, (token.kind = .stringConstant ∧ token.text = text) ∧ tokens = token :: rest := by
  simp [passes_singleton_iff, Token.Is, Terminal.kind]

namespace Parser

section Bind

variable {α β : Type} {tokens rest : List Token}

/-- A parser that begins with another one reads what is left after a value was read. -/
theorem bind_eq_read_iff {parser : Parser α} {next : α → Parser β} {value : β} :
    (parser >>= next) tokens = .read value rest ↔
      ∃ first middle, parser tokens = .read first middle ∧ next first middle = .read value rest := by
  constructor
  · intro reads
    cases outcome : parser tokens with
    | read first middle =>
      rw [bind_apply_of_read outcome] at reads
      exact ⟨first, middle, rfl, reads⟩
    | refused expected middle =>
      rw [bind_apply_of_refused outcome] at reads
      cases reads
  · rintro ⟨first, middle, outcome, reads⟩
    rw [bind_apply_of_read outcome, reads]

theorem refuse_ne_read {expected : Expectation} {value : α} :
    ¬ (refuse expected : Parser α) tokens = .read value rest := by
  simp [refuse]

end Bind

section Tokens

variable {tokens rest : List Token}

theorem peek_cons (token : Token) (rest : List Token) :
    peek (token :: rest) = .read (some token) (token :: rest) := rfl

theorem peekKind_apply (tokens : List Token) :
    peekKind tokens = .read (nextKind tokens) tokens := rfl

/-- Looking at the next kind reads nothing. -/
theorem peekKind_eq_read_iff {kind : Option TokenKind} :
    peekKind tokens = .read kind rest ↔ kind = nextKind tokens ∧ tokens = rest := by
  simp only [peekKind, nextKind, Outcome.read.injEq]
  exact and_congr_left fun _ => eq_comm

/-- The second kind is the next one after the first token. -/
theorem peekSecondKind_eq_read_iff {kind : Option TokenKind} :
    peekSecondKind tokens = .read kind rest ↔ kind = nextKind tokens.tail ∧ tokens = rest := by
  have second : tokens[1]?.map Token.kind = nextKind tokens.tail := by
    cases tokens with
    | nil => rfl
    | cons token tail => cases tail <;> rfl
  simp only [peekSecondKind, second, Outcome.read.injEq]
  exact and_congr_left fun _ => eq_comm

theorem peekSecondKind_of_passes {terminal : Terminal} (passes : Passes tokens [terminal] rest) :
    peekSecondKind tokens = .read (nextKind rest) tokens := by
  obtain ⟨token, _, rfl⟩ := passes_singleton_iff.mp passes
  exact peekSecondKind_eq_read_iff.mpr ⟨rfl, rfl⟩

theorem skip_of_passes {terminal : Terminal} (passes : Passes tokens [terminal] rest) :
    skip tokens = .read () rest := by
  obtain ⟨token, _, rfl⟩ := passes_singleton_iff.mp passes
  rfl

theorem skip_cons (token : Token) (rest : List Token) : skip (token :: rest) = .read () rest := rfl

theorem skip_eq_read_iff {read : Unit} : skip tokens = .read read rest ↔ tokens.tail = rest := by
  simp [skip]

theorem expectToken_eq_read_iff {kind : TokenKind} {token : Token} :
    expectToken kind tokens = .read token rest ↔ token.kind = kind ∧ tokens = token :: rest := by
  unfold expectToken
  split
  · split <;> grind
  · simp

/-- A keyword is read exactly where it stands. -/
theorem keyword_eq_read_iff {word : Keyword} {read : Unit} :
    keyword word tokens = .read read rest ↔ Passes tokens [.keyword word] rest := by
  simp [keyword, bind_eq_read_iff, expectToken_eq_read_iff, passes_keyword_iff]

/-- A symbol is read exactly where it stands. -/
theorem symbol_eq_read_iff {mark : Symbol} {read : Unit} :
    symbol mark tokens = .read read rest ↔ Passes tokens [.symbol mark] rest := by
  simp [symbol, bind_eq_read_iff, expectToken_eq_read_iff, passes_symbol_iff]

/-- A name is read exactly where it stands. -/
theorem identifier_eq_read_iff {purpose : Expectation} {name : String} :
    identifier purpose tokens = .read name rest ↔ Passes tokens [.identifier name] rest := by
  rw [passes_identifier_iff]
  unfold identifier
  split
  · split <;> grind
  · simp

/-- A token is accepted when it is there, and nothing is read when it is not. -/
theorem accept_eq_read_iff {kind : TokenKind} {found : Bool} :
    accept kind tokens = .read found rest ↔
      (found = true ∧ ∃ token, token.kind = kind ∧ tokens = token :: rest) ∨
      (found = false ∧ nextKind tokens ≠ some kind ∧ tokens = rest) := by
  unfold accept
  split
  · split <;> simp_all [nextKind]
  · simp [nextKind]

theorem keyword_of_passes {word : Keyword} (passes : Passes tokens [.keyword word] rest) :
    keyword word tokens = .read () rest :=
  keyword_eq_read_iff.mpr passes

theorem symbol_of_passes {mark : Symbol} (passes : Passes tokens [.symbol mark] rest) :
    symbol mark tokens = .read () rest :=
  symbol_eq_read_iff.mpr passes

theorem accept_of_passes {terminal : Terminal} (passes : Passes tokens [terminal] rest) :
    accept terminal.kind tokens = .read true rest := by
  obtain ⟨token, is, rfl⟩ := passes_singleton_iff.mp passes
  exact accept_eq_read_iff.mpr (.inl ⟨rfl, token, is.1, rfl⟩)

theorem accept_of_nextKind_ne {kind : TokenKind} (other : nextKind tokens ≠ some kind) :
    accept kind tokens = .read false tokens :=
  accept_eq_read_iff.mpr (.inr ⟨rfl, other, rfl⟩)

/-- A keyword that is next can be passed. -/
theorem passes_keyword_of_nextKind {word : Keyword} (next : nextKind tokens = some (.keyword word)) :
    Passes tokens [.keyword word] tokens.tail := by
  cases tokens with
  | nil => cases next
  | cons token tail => exact passes_keyword_iff.mpr ⟨token, Option.some.inj next, rfl⟩

/-- A symbol that is next can be passed. -/
theorem passes_symbol_of_nextKind {mark : Symbol} (next : nextKind tokens = some (.symbol mark)) :
    Passes tokens [.symbol mark] tokens.tail := by
  cases tokens with
  | nil => cases next
  | cons token tail => exact passes_symbol_iff.mpr ⟨token, Option.some.inj next, rfl⟩

end Tokens

section Repetition

variable {α : Type} {yield : α → List Terminal}

/-- A parser passes the yield of the value that it reads. -/
def Sound (parser : Parser α) (yield : α → List Terminal) : Prop :=
  ∀ ⦃tokens value rest⦄, parser tokens = .read value rest → Passes tokens (yield value) rest

theorem sound_identifier (purpose : Expectation) :
    Sound (identifier purpose) fun name => [.identifier name] :=
  fun _ _ _ reads => identifier_eq_read_iff.mp reads

/-- Something absent yields nothing. -/
def yieldOption (yield : α → List Terminal) : Option α → List Terminal
  | none => []
  | some value => yield value

/-- Repetition passes the items one after the other. -/
theorem Sound.many {item : Parser (Option α)} (sound : Sound item (yieldOption yield))
    (bound : Nat) : Sound (many bound item) (List.flatMap yield) := by
  induction bound with
  | zero =>
    intro tokens values rest reads
    cases reads
    exact .nil
  | succ bound inductionHypothesis =>
    intro tokens values rest reads
    rw [Parser.many, bind_eq_read_iff] at reads
    obtain ⟨found, middle, first, reads⟩ := reads
    have front := sound first
    cases found with
    | none =>
      cases reads
      exact front
    | some value =>
      obtain ⟨others, last, more, reads⟩ := bind_eq_read_iff.mp reads
      cases reads
      exact front.trans (inductionHypothesis more)

/-- Behind a comma an item passes its yield, and where no comma is there is no item. -/
theorem Sound.afterComma {item : Parser α} (sound : Sound item yield) :
    Sound (do if ← accept (.symbol .comma) then return some (← item) else return none)
      (yieldOption fun value => .symbol .comma :: yield value) := by
  intro tokens found rest reads
  obtain ⟨comma, middle, accepted, reads⟩ := bind_eq_read_iff.mp reads
  rcases accept_eq_read_iff.mp accepted with ⟨rfl, symbol⟩ | ⟨rfl, _, rfl⟩
  · obtain ⟨other, last, next, reads⟩ := bind_eq_read_iff.mp reads
    cases reads
    exact (passes_symbol_iff.mpr symbol).trans (sound next)
  · cases reads
    exact .nil

/-- A list with commas passes its items and the commas. -/
theorem Sound.separated {item : Parser α} (sound : Sound item yield) (bound : Nat) :
    Sound (separated bound item) (commaSeparated yield) := by
  intro tokens values rest reads
  obtain ⟨first, middle, one, reads⟩ := bind_eq_read_iff.mp reads
  obtain ⟨others, last, more, reads⟩ := bind_eq_read_iff.mp reads
  cases reads
  exact (sound one).trans (sound.afterComma.many bound more)

/-- A list that may be empty passes its items and the commas. -/
theorem Sound.parenthesized {item : Parser α} (sound : Sound item yield) (bound : Nat) :
    Sound (parenthesized bound item) (commaSeparated yield) := by
  intro tokens values rest reads
  obtain ⟨next, middle, peeked, reads⟩ := bind_eq_read_iff.mp reads
  cases peeked
  split at reads
  · cases reads
    exact .nil
  · exact sound.separated bound reads

/-- A parser reads a value from its terminals when it may stop before the token that comes next. -/
def Recovers (parser : Parser α) (value : α) (terminals : List Terminal)
    (stop : Option TokenKind → Prop) : Prop :=
  ∀ ⦃tokens rest⦄, Passes tokens terminals rest → stop (nextKind rest) →
    parser tokens = .read value rest

/-- Repetition reads all items and stops where there is none. -/
theorem Recovers.many {item : Parser (Option α)} {values : List α} {bound : Nat}
    {stop final : Option TokenKind → Prop} (enough : values.length ≤ bound)
    (present : ∀ value ∈ values, Recovers item (some value) (yield value) stop)
    (between : ∀ value ∈ values, ∀ after, stop ((firstKind (yield value)).or after))
    (behind : ∀ kind, final kind → stop kind) (absent : Recovers item none [] final) :
    Recovers (many bound item) values (values.flatMap yield) final := by
  induction values generalizing bound with
  | nil =>
    intro tokens rest passes ends
    cases passes
    cases bound with
    | zero => rfl
    | succ bound =>
      rw [Parser.many, bind_apply_of_read (absent .nil ends)]
      rfl
  | cons value others inductionHypothesis =>
    intro tokens rest passes ends
    rw [List.flatMap_cons] at passes
    obtain ⟨middle, first, more⟩ := passes_append_iff.mp passes
    simp only [List.mem_cons, forall_eq_or_imp] at present between
    obtain ⟨bound, rfl⟩ : ∃ fewer, bound = fewer + 1 := ⟨bound - 1, by simp at enough; omega⟩
    -- Behind the first item comes the next one or, if it is the last, what ends the repetition.
    have stops : stop (nextKind middle) := by
      rw [Passes.nextKind_eq more]
      cases others with
      | nil => exact behind _ ends
      | cons other others =>
        rw [List.flatMap_cons, firstKind_append, Option.or_assoc]
        exact between.2 other List.mem_cons_self _
    rw [Parser.many, bind_apply_of_read (present.1 first stops)]
    have reads := inductionHypothesis (by simpa using enough) present.2 between.2 more ends
    exact bind_apply_of_read reads _

/-- Behind a value that was read, a comma announces another one. -/
theorem Recovers.afterComma {item : Parser α} {value : α} {terminals : List Terminal}
    {stop : Option TokenKind → Prop} (recovers : Recovers item value terminals stop) :
    Recovers (do if ← accept (.symbol .comma) then return some (← item) else return none)
      (some value) (.symbol .comma :: terminals) stop := by
  intro tokens rest passes ends
  obtain ⟨middle, comma, others⟩ := passes_cons_iff.mp passes
  have accepted : accept (.symbol .comma) tokens = .read true middle := accept_of_passes comma
  rw [bind_apply_of_read accepted, if_pos rfl, bind_apply_of_read (recovers others ends)]
  rfl

/-- Items with commas between them are read up to the last one. -/
theorem Recovers.separated {item : Parser α} {values : List α} {bound : Nat}
    {stop : Option TokenKind → Prop} (nonempty : values ≠ []) (enough : values.length ≤ bound + 1)
    (each : ∀ value ∈ values, Recovers item value (yield value) stop)
    (comma : stop (some (.symbol .comma))) :
    Recovers (separated bound item) values (commaSeparated yield values)
      (fun kind => kind ≠ some (.symbol .comma) ∧ stop kind) := by
  cases values with
  | nil => exact absurd rfl nonempty
  | cons first others =>
    intro tokens rest passes ends
    obtain ⟨middle, one, more⟩ := passes_append_iff.mp passes
    simp only [List.mem_cons, forall_eq_or_imp] at each
    have stops : stop (nextKind middle) := by
      rw [more.nextKind_eq]
      cases others with
      | nil => exact ends.2
      | cons other others => exact comma
    have further : Recovers (Parser.many bound do
        if ← accept (.symbol .comma) then return some (← item) else return none) others
        (others.flatMap fun other => .symbol .comma :: yield other)
        (fun kind => kind ≠ some (.symbol .comma) ∧ stop kind) := by
      refine Recovers.many (by simpa using enough) (fun other member => (each.2 other member).afterComma)
        (fun _ _ _ => comma) (fun _ ends => ends.2) ?_
      intro tokens rest passes ends
      cases passes
      rw [bind_apply_of_read (accept_of_nextKind_ne ends.1)]
      rfl
    rw [Parser.separated, bind_apply_of_read (each.1 one stops), bind_apply_of_read (further more ends)]
    rfl

/-- A list that may be empty is read up to the closing parenthesis. -/
theorem Recovers.parenthesized {item : Parser α} {values : List α} {bound : Nat}
    {stop : Option TokenKind → Prop} (enough : values.length ≤ bound + 1)
    (each : ∀ value ∈ values, Recovers item value (yield value) stop)
    (comma : stop (some (.symbol .comma))) (closing : stop (some (.symbol .rightParen)))
    (starts : ∀ value ∈ values, ∃ kind, firstKind (yield value) = some kind ∧
      kind ≠ .symbol .rightParen) :
    Recovers (parenthesized bound item) values (commaSeparated yield values)
      (fun kind => kind = some (.symbol .rightParen)) := by
  intro tokens rest passes ends
  rw [Parser.parenthesized, bind_apply_of_read (peekKind_apply tokens)]
  cases values with
  | nil =>
    cases passes
    rw [ends, if_pos rfl]
    rfl
  | cons first others =>
    obtain ⟨kind, begins, other⟩ := starts first List.mem_cons_self
    have next : nextKind tokens = some kind := by
      rw [passes.nextKind_eq, commaSeparated, firstKind_append, begins]
      rfl
    rw [next, if_neg (by simpa using other)]
    refine Recovers.separated (by simp) enough each comma passes ?_
    rw [ends]
    exact ⟨by simp, closing⟩

end Repetition

end Parser

end Jack
