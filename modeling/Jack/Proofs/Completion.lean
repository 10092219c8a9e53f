import Jack.Proofs.GrammarCompleteness
import Jack.Proofs.Locality
import Mathlib.Data.Set.Image

/-!
# What is missing where a parser refuses

A production that refuses has read the beginning of something that it reads as a whole: wherever it
stands, and however deep, the terminals that are still missing can be named. A language is a set of
phrases, which are sequences of terminals, and the languages of productions are yields of trees.
-/

namespace Jack

/-- The tokens up to the rest are the beginning of the terminals. -/
def Begins (tokens : List Token) (terminals : List Terminal) (rest : List Token) : Prop :=
  ∃ first more, terminals = first ++ more ∧ Passes tokens first rest

section Begins

variable {tokens middle rest : List Token} {terminals first : List Terminal}

/-- Nothing is the beginning of everything. -/
theorem Begins.refl : Begins tokens terminals tokens := ⟨[], terminals, rfl, .nil⟩

theorem Begins.append (begins : Begins tokens terminals rest) (others : List Terminal) :
    Begins tokens (terminals ++ others) rest := by
  obtain ⟨first, more, rfl, passes⟩ := begins
  exact ⟨first, more ++ others, List.append_assoc _ _ _, passes⟩

theorem Passes.begins (passes : Passes tokens first middle)
    (begins : Begins middle terminals rest) : Begins tokens (first ++ terminals) rest := by
  obtain ⟨second, more, rfl, others⟩ := begins
  exact ⟨first ++ second, more, (List.append_assoc _ _ _).symm, passes.trans others⟩

end Begins

namespace Parser

section Combinators

variable {α β : Type} {tokens : List Token} {language : Set (List Terminal)}

theorem bind_eq_refused_iff {parser : Parser α} {next : α → Parser β} {expected : Expectation}
    {rest : List Token} :
    (parser >>= next) tokens = .refused expected rest ↔
      parser tokens = .refused expected rest ∨
      ∃ value middle, parser tokens = .read value middle ∧
        next value middle = .refused expected rest := by
  cases outcome : parser tokens with
  | refused wanted middle => simp [bind_apply_of_refused outcome]
  | read value middle => simp [bind_apply_of_read outcome]

/-- If the parser refuses, the tokens that it read begin a phrase of the language. -/
def CompletesAt (tokens : List Token) (parser : Parser α) (language : Set (List Terminal)) : Prop :=
  ∀ ⦃expected rest⦄, parser tokens = .refused expected rest →
    ∃ phrase ∈ language, Begins tokens phrase rest

/-- The language has a phrase, and wherever the parser refuses it has read the beginning of one. -/
structure Completes (parser : Parser α) (language : Set (List Terminal)) : Prop where
  nonempty : language.Nonempty
  at_tokens : ∀ tokens, CompletesAt tokens parser language

theorem completes_pure {value : α} (nonempty : language.Nonempty) :
    Completes (pure value) language :=
  ⟨nonempty, fun _ _ _ refuses => by cases refuses⟩

/-- A parser that refuses at once has read the beginning of everything. -/
theorem completes_of_refuses {parser : Parser α} (nonempty : language.Nonempty)
    (refuses : ∀ ⦃tokens expected rest⦄, parser tokens = .refused expected rest → rest = tokens) :
    Completes parser language := by
  refine ⟨nonempty, ?_⟩
  intro tokens expected rest refused
  obtain ⟨phrase, member⟩ := nonempty
  cases refuses refused
  exact ⟨phrase, member, .refl⟩

theorem completes_refuse (nonempty : language.Nonempty) (expected : Expectation) :
    Completes (refuse expected : Parser α) language :=
  completes_of_refuses nonempty fun _ _ _ refused => by cases refused; rfl

theorem Completes.mono {parser : Parser α} {larger : Set (List Terminal)}
    (inside : Completes parser language) (subset : language ⊆ larger) :
    Completes parser larger := by
  refine ⟨inside.nonempty.mono subset, ?_⟩
  intro tokens expected rest refuses
  obtain ⟨phrase, member, begins⟩ := inside.at_tokens tokens refuses
  exact ⟨phrase, subset member, begins⟩

/-- What is made of a value does not matter. -/
theorem Completes.map {parser : Parser α} (inside : Completes parser language) (build : α → β) :
    Completes (do return build (← parser)) language := by
  refine ⟨inside.nonempty, ?_⟩
  intro tokens expected rest refuses
  rcases bind_eq_refused_iff.mp refuses with refuses | ⟨_, _, _, refuses⟩
  · exact inside.at_tokens tokens refuses
  · cases refuses

/-- Every value that the parser reads is good. -/
def Reads (parser : Parser α) (good : Set α) : Prop :=
  ∀ ⦃tokens value rest⦄, parser tokens = .read value rest → value ∈ good

section Bind

variable {parser : Parser α} {next : α → Parser β} {yield : α → List Terminal} {good : Set α}

theorem Reads.bind {better : Set β} (first : Reads parser good)
    (further : ∀ value ∈ good, Reads (next value) better) : Reads (parser >>= next) better := by
  intro tokens value rest reads
  obtain ⟨found, middle, read, reads⟩ := bind_eq_read_iff.mp reads
  exact further found (first read) reads

theorem reads_bind {better : Set β} (further : ∀ value, Reads (next value) better) :
    Reads (parser >>= next) better :=
  Reads.bind (fun _ _ _ _ => Set.mem_univ _) fun value _ => further value

theorem reads_pure {value : α} (member : value ∈ good) : Reads (pure value) good := by
  intro tokens found rest reads
  cases reads
  exact member

/-- What was read goes on with what the parser that follows would read. -/
theorem Completes.bind_of_mem (sound : Sound parser yield) (reads : Reads parser good)
    (first : Completes parser (yield '' good))
    (further : ∀ value ∈ good, Completes (next value) {phrase | yield value ++ phrase ∈ language}) :
    Completes (parser >>= next) language := by
  constructor
  · obtain ⟨_, value, member, rfl⟩ := first.nonempty
    obtain ⟨phrase, whole⟩ := (further value member).nonempty
    exact ⟨_, whole⟩
  · intro tokens expected rest refuses
    rcases bind_eq_refused_iff.mp refuses with refuses | ⟨value, middle, read, refuses⟩
    · -- Inside the first part: that is completed, and then anything that may follow it.
      obtain ⟨_, ⟨value, member, rfl⟩, begins⟩ := first.at_tokens tokens refuses
      obtain ⟨phrase, whole⟩ := (further value member).nonempty
      exact ⟨_, whole, begins.append phrase⟩
    · -- Behind the first part, which was read as a whole.
      obtain ⟨phrase, whole, begins⟩ := (further value (reads read)).at_tokens middle refuses
      exact ⟨_, whole, (sound read).begins begins⟩

theorem Completes.bind (sound : Sound parser yield) (first : Completes parser (Set.range yield))
    (further : ∀ value, Completes (next value) {phrase | yield value ++ phrase ∈ language}) :
    Completes (parser >>= next) language := by
  rw [← Set.image_univ] at first
  exact first.bind_of_mem sound (fun _ _ _ _ => Set.mem_univ _) fun value _ => further value

end Bind

section Tokens

variable {parser another : Parser α} {rest : List Token} {expected : Expectation}

theorem expectToken_refused {kind : TokenKind}
    (refuses : (do let _ ← expectToken kind : Parser Unit) tokens = .refused expected rest) :
    rest = tokens := by
  rcases bind_eq_refused_iff.mp refuses with refuses | ⟨_, _, _, refuses⟩
  · unfold expectToken at refuses
    split at refuses
    · split at refuses <;> cases refuses
      rfl
    · cases refuses
      rfl
  · cases refuses

theorem identifier_refused {purpose : Expectation}
    (refuses : identifier purpose tokens = .refused expected rest) : rest = tokens := by
  unfold identifier at refuses
  split at refuses
  · split at refuses <;> cases refuses
    rfl
  · cases refuses
    rfl

theorem Completes.keyword {word : Keyword}
    (further : Completes parser {phrase | .keyword word :: phrase ∈ language}) :
    Completes (do keyword word; parser) language := by
  have sound : Sound (Parser.keyword word) fun _ => [.keyword word] :=
    fun _ _ _ reads => keyword_eq_read_iff.mp reads
  refine Completes.bind sound (completes_of_refuses ⟨_, (), rfl⟩ fun _ _ _ => ?_) fun _ => further
  exact expectToken_refused

theorem Completes.symbol {mark : Symbol}
    (further : Completes parser {phrase | .symbol mark :: phrase ∈ language}) :
    Completes (do symbol mark; parser) language := by
  have sound : Sound (Parser.symbol mark) fun _ => [.symbol mark] :=
    fun _ _ _ reads => symbol_eq_read_iff.mp reads
  refine Completes.bind sound (completes_of_refuses ⟨_, (), rfl⟩ fun _ _ _ => ?_) fun _ => further
  exact expectToken_refused

theorem completes_identifier (purpose : Expectation) :
    Completes (identifier purpose) (Set.range fun name => [.identifier name]) :=
  completes_of_refuses ⟨_, "", rfl⟩ fun _ _ _ => identifier_refused

theorem Completes.identifier {purpose : Expectation} {next : String → Parser α}
    (further : ∀ name, Completes (next name) {phrase | .identifier name :: phrase ∈ language}) :
    Completes (identifier purpose >>= next) language :=
  Completes.bind (sound_identifier purpose) (completes_identifier purpose) further

/-- A token that says nothing but its kind may be there or not. -/
theorem Completes.accept {terminal : Terminal}
    (bare : ∀ token : Token, token.kind = terminal.kind → token.Is terminal)
    (present : Completes parser {phrase | terminal :: phrase ∈ language})
    (absent : Completes another language) :
    Completes (do if ← accept terminal.kind then parser else another) language := by
  refine ⟨absent.nonempty, ?_⟩
  intro tokens expected rest stops
  rcases bind_eq_refused_iff.mp stops with refuses | ⟨found, middle, accepted, refuses⟩
  · unfold Parser.accept at refuses
    split at refuses
    · split at refuses <;> cases refuses
    · cases refuses
  · rcases accept_eq_read_iff.mp accepted with ⟨rfl, token, kind, rfl⟩ | ⟨rfl, _, rfl⟩
    · obtain ⟨phrase, whole, begins⟩ := present.at_tokens middle refuses
      exact ⟨_, whole, Passes.begins (.cons (bare token kind) .nil) begins⟩
    · exact absent.at_tokens tokens refuses

theorem Completes.acceptSymbol {mark : Symbol}
    (present : Completes parser {phrase | .symbol mark :: phrase ∈ language})
    (absent : Completes another language) :
    Completes (do if ← Parser.accept (.symbol mark) then parser else another) language :=
  Completes.accept (fun _ kind => ⟨kind, trivial⟩) present absent

theorem Completes.acceptKeyword {word : Keyword}
    (present : Completes parser {phrase | .keyword word :: phrase ∈ language})
    (absent : Completes another language) :
    Completes (do if ← Parser.accept (.keyword word) then parser else another) language :=
  Completes.accept (fun _ kind => ⟨kind, trivial⟩) present absent

/-- What is next may decide how to go on. -/
theorem Completes.peekKind {next : Option TokenKind → Parser α} (nonempty : language.Nonempty)
    (each : ∀ tokens, CompletesAt tokens (next (nextKind tokens)) language) :
    Completes (peekKind >>= next) language :=
  ⟨nonempty, each⟩

theorem CompletesAt.skip {terminal : Terminal} (passes : Passes tokens [terminal] tokens.tail)
    (further : Completes parser {phrase | terminal :: phrase ∈ language}) :
    CompletesAt tokens (do skip; parser) language := by
  intro expected rest refuses
  obtain ⟨phrase, whole, begins⟩ := further.at_tokens tokens.tail refuses
  exact ⟨_, whole, passes.begins begins⟩

theorem Completes.choose {absent : Expectation}
    {behind : Token → Except Expectation (Parser α)} (nonempty : language.Nonempty)
    (each : ∀ token parser, behind token = .ok parser →
      ∃ terminal, token.Is terminal ∧
        Completes parser {phrase | terminal :: phrase ∈ language}) :
    Completes (choose absent behind) language := by
  refine ⟨nonempty, ?_⟩
  intro tokens expected rest refuses
  obtain ⟨anything, member⟩ := nonempty
  cases tokens with
  | nil =>
    cases refuses
    exact ⟨anything, member, .refl⟩
  | cons token tail =>
    cases decided : behind token with
    | error wanted =>
      rw [choose_of_error decided] at refuses
      cases refuses
      exact ⟨anything, member, .refl⟩
    | ok parser =>
      rw [choose_of_ok decided] at refuses
      obtain ⟨terminal, is, further⟩ := each token parser decided
      obtain ⟨phrase, whole, begins⟩ := further.at_tokens tail refuses
      exact ⟨_, whole, Passes.begins (.cons is .nil) begins⟩

end Tokens

section Repetition

variable {yield : α → List Terminal} {good : Set α}

/-- Repetition of good items reads good items. -/
theorem Reads.many {item : Parser (Option α)}
    (reads : Reads item {found | ∀ value ∈ found, value ∈ good}) (bound : Nat) :
    Reads (many bound item) {values | ∀ value ∈ values, value ∈ good} := by
  induction bound with
  | zero => exact reads_pure (by simp)
  | succ bound inductionHypothesis =>
    refine reads.bind fun found member => ?_
    cases found with
    | none => exact reads_pure (by simp)
    | some value =>
      refine inductionHypothesis.bind fun values members => reads_pure ?_
      exact List.forall_mem_cons.mpr ⟨member value rfl, members⟩

/-- Repetition refuses inside an item, and the items before it are whole. -/
theorem completes_many_of_mem {item : Parser (Option α)} (sound : Sound item (yieldOption yield))
    (reads : Reads item {found | ∀ value ∈ found, value ∈ good})
    (each : ∀ tokens, CompletesAt tokens item (yield '' good)) (bound : Nat) :
    Completes (many bound item)
      (List.flatMap yield '' {values | ∀ value ∈ values, value ∈ good}) := by
  have nonempty : (List.flatMap yield '' {values | ∀ value ∈ values, value ∈ good}).Nonempty :=
    ⟨_, [], by simp, rfl⟩
  induction bound with
  | zero => exact completes_pure nonempty
  | succ bound inductionHypothesis =>
    refine ⟨nonempty, ?_⟩
    intro tokens expected rest refuses
    rw [many] at refuses
    rcases bind_eq_refused_iff.mp refuses with refuses | ⟨found, middle, read, refuses⟩
    · obtain ⟨_, ⟨value, member, rfl⟩, begins⟩ := each tokens refuses
      exact ⟨_, ⟨[value], by simpa using member, by simp⟩, begins⟩
    · cases found with
      | none => cases refuses
      | some value =>
        rcases bind_eq_refused_iff.mp refuses with refuses | ⟨_, _, _, refuses⟩
        · obtain ⟨_, ⟨values, members, rfl⟩, begins⟩ :=
            inductionHypothesis.at_tokens middle refuses
          refine ⟨_, ⟨value :: values, ?_, rfl⟩, (sound read).begins begins⟩
          exact List.forall_mem_cons.mpr ⟨reads read value rfl, members⟩
        · cases refuses

theorem completes_many {item : Parser (Option α)} (sound : Sound item (yieldOption yield))
    (each : ∀ tokens, CompletesAt tokens item (Set.range yield)) (bound : Nat) :
    Completes (many bound item) (Set.range (List.flatMap yield)) := by
  rw [← Set.image_univ] at each ⊢
  have all : {values : List α | ∀ value ∈ values, value ∈ Set.univ} = Set.univ := by simp
  rw [← all]
  exact completes_many_of_mem sound (fun _ _ _ _ _ _ => Set.mem_univ _) each bound

variable {item : Parser α}

theorem reads_separated (bound : Nat) : Reads (separated bound item) {values | values ≠ []} :=
  reads_bind fun _ => reads_bind fun _ => reads_pure (List.cons_ne_nil _ _)

theorem completes_separated (sound : Sound item yield) (each : Completes item (Set.range yield))
    (bound : Nat) :
    Completes (separated bound item) (commaSeparated yield '' {values | values ≠ []}) := by
  have announced : Completes
      (do if ← accept (.symbol .comma) then return some (← item) else return none)
      (Set.range fun value => .symbol .comma :: yield value) := by
    obtain ⟨_, value, rfl⟩ := each.nonempty
    refine Completes.acceptSymbol ?_ (completes_pure ⟨_, value, rfl⟩)
    exact each.bind sound fun value => completes_pure ⟨[], value, by simp⟩
  refine each.bind sound fun first => ?_
  refine Completes.bind (sound.afterComma.many bound)
    (completes_many sound.afterComma announced.at_tokens bound) fun others => ?_
  exact completes_pure ⟨[], first :: others, by simp, by simp [commaSeparated]⟩

theorem completes_parenthesized (sound : Sound item yield)
    (each : Completes item (Set.range yield)) (bound : Nat) :
    Completes (parenthesized bound item) (Set.range (commaSeparated yield)) := by
  have some := completes_separated sound each bound
  refine Completes.peekKind ⟨_, [], rfl⟩ fun tokens => ?_
  split
  · intro expected rest refuses
    cases refuses
  · intro expected rest refuses
    obtain ⟨_, ⟨values, _, rfl⟩, begins⟩ := some.at_tokens tokens refuses
    exact ⟨_, ⟨values, rfl⟩, begins⟩

end Repetition

end Combinators

end Parser

namespace Grammar

open Jack.Parser

section Expressions

variable {term : Parser Term} {expression : Parser Expression}

theorem completes_operation (sound : Sound term Term.yield)
    (each : Completes term (Set.range Term.yield)) :
    Completes (operation term) (Set.range yieldOperation) := by
  refine Completes.peekKind ⟨_, (.add, .name ""), rfl⟩ fun tokens => ?_
  cases denoted : binaryOperator? (nextKind tokens) with
  | none =>
    intro expected rest refuses
    cases refuses
  | some operator =>
    refine CompletesAt.skip (passes_symbol_of_nextKind (binaryOperator?_eq_some_iff.mp denoted)) ?_
    exact each.bind sound fun right =>
      completes_pure ⟨[], (operator, right), by simp [yieldOperation]⟩

theorem completes_expressionOf (sound : Sound term Term.yield)
    (each : Completes term (Set.range Term.yield)) (bound : Nat) :
    Completes (expressionOf term bound) (Set.range Expression.yield) := by
  have operations := sound_operation sound
  refine each.bind sound fun first => Completes.bind (operations.many bound)
    (completes_many operations (completes_operation sound each).at_tokens bound) fun others => ?_
  exact completes_pure ⟨[], .chain first others, by simp [Expression.yield_chain]⟩

theorem completes_callBehind (sound : Sound expression Expression.yield)
    (each : Completes expression (Set.range Expression.yield)) (bound : Nat) (first : String) :
    Completes (callBehind expression bound first)
      {phrase | .identifier first :: phrase ∈ Set.range Call.yield} := by
  have arguments := completes_parenthesized sound each bound
  have passed := sound.parenthesized bound
  refine Completes.acceptSymbol ?_ ?_
  · refine Completes.identifier fun name => Completes.symbol (arguments.bind passed fun values =>
      Completes.symbol (completes_pure ⟨[], .mk (some first) name values, ?_⟩))
    simp [Call.yield, yieldArguments_eq]
  · refine Completes.symbol (arguments.bind passed fun values =>
      Completes.symbol (completes_pure ⟨[], .mk none first values, ?_⟩))
    simp [Call.yield, yieldArguments_eq]

theorem completes_namedTermBehind (sound : Sound expression Expression.yield)
    (each : Completes expression (Set.range Expression.yield)) (bound : Nat) (name : String) :
    Completes (namedTermBehind expression bound name)
      {phrase | .identifier name :: phrase ∈ Set.range Term.yield} := by
  have called : Completes (do return Term.call (← callBehind expression bound name))
      {phrase | .identifier name :: phrase ∈ Set.range Term.yield} := by
    refine ((completes_callBehind sound each bound name).mono ?_).map _
    rintro phrase ⟨call, yields⟩
    exact ⟨.call call, yields⟩
  refine Completes.peekKind ⟨[], .name name, rfl⟩ fun tokens => ?_
  generalize known : nextKind tokens = next
  split
  · refine CompletesAt.skip (passes_symbol_of_nextKind known) (each.bind sound fun index =>
      Completes.symbol (completes_pure ⟨[], .element name index, ?_⟩))
    simp [Term.yield]
  · exact called.at_tokens tokens
  · exact called.at_tokens tokens
  · intro expected rest refuses
    cases refuses

end Expressions

theorem completes_term (bound : Nat) : Completes (term bound) (Set.range Term.yield) := by
  have nonempty : (Set.range Term.yield).Nonempty := ⟨_, .name "", rfl⟩
  induction bound with
  | zero => exact completes_refuse nonempty .term
  | succ bound inductionHypothesis =>
    have sound := sound_expression bound
    have expressions := completes_expressionOf (sound_term bound) inductionHypothesis bound
    rw [term_succ]
    refine Completes.choose nonempty ?_
    intro token parser decided
    unfold termBehind at decided
    cases kind : token.kind with
    | integerConstant =>
      simp only [kind] at decided
      cases number : Text.readUnsigned? 65535 token.text with
      | none =>
        rw [number] at decided
        cases decided
      | some value =>
        rw [number] at decided
        cases decided
        obtain ⟨denotes, fits⟩ := Text.readUnsigned?_eq_some_iff.mp number
        rw [← UInt16.toNat_ofNat_of_lt (Nat.lt_succ_of_le fits)] at denotes
        exact ⟨.integer (.ofNat value), ⟨kind, denotes⟩, completes_pure ⟨[], .integer _, rfl⟩⟩
    | stringConstant =>
      simp only [kind] at decided
      cases decided
      exact ⟨.string token.text, ⟨kind, rfl⟩, completes_pure ⟨[], .string _, rfl⟩⟩
    | keyword word =>
      simp only [kind] at decided
      cases denoted : KeywordConstant.ofKeyword? word with
      | none =>
        rw [denoted] at decided
        cases decided
      | some constant =>
        rw [denoted] at decided
        cases decided
        rw [KeywordConstant.ofKeyword?_eq_some_iff] at denoted
        subst denoted
        exact ⟨.keyword constant.keyword, ⟨kind, trivial⟩,
          completes_pure ⟨[], .constant constant, rfl⟩⟩
    | identifier =>
      simp only [kind] at decided
      cases decided
      exact ⟨.identifier token.text, ⟨kind, rfl⟩,
        completes_namedTermBehind sound expressions bound token.text⟩
    | symbol mark =>
      by_cases parenthesis : mark = .leftParen
      · subst parenthesis
        simp only [kind] at decided
        cases decided
        refine ⟨.symbol .leftParen, ⟨kind, trivial⟩, expressions.bind sound fun inner =>
          Completes.symbol (completes_pure ⟨[], .group inner, ?_⟩)⟩
        simp [Term.yield]
      · simp only [kind] at decided
        cases denoted : UnaryOperator.ofSymbol? mark with
        | none =>
          rw [denoted] at decided
          cases decided
        | some operator =>
          rw [denoted] at decided
          cases decided
          rw [UnaryOperator.ofSymbol?_eq_some_iff] at denoted
          subst denoted
          refine ⟨.symbol operator.symbol, ⟨kind, trivial⟩,
            inductionHypothesis.bind (sound_term bound) fun operand =>
              completes_pure ⟨[], .unary operator operand, ?_⟩⟩
          simp [Term.yield]

theorem completes_expression (bound : Nat) :
    Completes (expression bound) (Set.range Expression.yield) :=
  completes_expressionOf (sound_term bound) (completes_term bound) bound

theorem completes_call (bound : Nat) : Completes (call bound) (Set.range Call.yield) :=
  Completes.identifier
    (completes_callBehind (sound_expression bound) (completes_expression bound) bound)

section Statements

variable {statement : Parser Statement} {bound : Nat}

theorem completes_statementsOf (sound : Sound statement Statement.yield)
    (each : Completes statement (Set.range Statement.yield)) (bound : Nat) :
    Completes (statementsOf statement bound) (Set.range yieldStatements) := by
  have flat : yieldStatements = List.flatMap Statement.yield := funext yieldStatements_eq
  rw [flat]
  refine completes_many (sound_nextStatement sound) ?_ bound
  refine (Completes.peekKind each.nonempty fun tokens => ?_).at_tokens
  split
  · exact (each.map some).at_tokens tokens
  · intro expected rest refuses
    cases refuses

theorem completes_condition (bound : Nat) :
    Completes (condition bound) (Set.range yieldCondition) := by
  refine Completes.symbol ((completes_expression bound).bind (sound_expression bound) fun inner =>
    Completes.symbol (completes_pure ⟨[], inner, ?_⟩))
  simp [yieldCondition]

theorem completes_blockOf (sound : Sound statement Statement.yield)
    (each : Completes statement (Set.range Statement.yield)) (bound : Nat) :
    Completes (blockOf statement bound) (Set.range yieldBlock) := by
  refine Completes.symbol ((completes_statementsOf sound each bound).bind
    (sound_statementsOf sound bound) fun inner => Completes.symbol (completes_pure ⟨[], inner, ?_⟩))
  simp [yieldBlock]

/-- What may stand behind the keyword of a statement. -/
def statementsBehind (word : Keyword) : Set (List Terminal) :=
  {phrase | .keyword word :: phrase ∈ Set.range Statement.yield}

theorem completes_assignment (bound : Nat) :
    Completes (assignment bound) (statementsBehind .let) := by
  have each := completes_expression bound
  have sound := sound_expression bound
  refine Completes.identifier fun target => Completes.acceptSymbol ?_ ?_
  · refine each.bind sound fun index => Completes.symbol (Completes.symbol
      (each.bind sound fun value =>
        Completes.symbol (completes_pure ⟨[], .assignElement target index value, ?_⟩)))
    simp [Statement.yield]
  · refine Completes.symbol (each.bind sound fun value =>
      Completes.symbol (completes_pure ⟨[], .assign target value, ?_⟩))
    simp [Statement.yield]

theorem completes_conditionalOf (sound : Sound statement Statement.yield)
    (each : Completes statement (Set.range Statement.yield)) (bound : Nat) :
    Completes (conditionalOf statement bound) (statementsBehind .if) := by
  have block := completes_blockOf sound each bound
  have passed := sound_blockOf sound bound
  refine (completes_condition bound).bind (sound_condition bound) fun condition =>
    block.bind passed fun body => Completes.acceptKeyword ?_ ?_
  · refine block.bind passed fun alternative =>
      completes_pure ⟨[], .ifElse condition body alternative, ?_⟩
    simp [Statement.yield_ifElse]
  · exact completes_pure ⟨[], .ifThen condition body, by simp [Statement.yield_ifThen]⟩

theorem completes_loopOf (sound : Sound statement Statement.yield)
    (each : Completes statement (Set.range Statement.yield)) (bound : Nat) :
    Completes (loopOf statement bound) (statementsBehind .while) := by
  refine (completes_condition bound).bind (sound_condition bound) fun condition =>
    (completes_blockOf sound each bound).bind (sound_blockOf sound bound) fun body => ?_
  exact completes_pure ⟨[], .whileLoop condition body, by simp [Statement.yield_whileLoop]⟩

theorem completes_callStatement (bound : Nat) :
    Completes (callStatement bound) (statementsBehind .do) := by
  refine (completes_call bound).bind (sound_call bound) fun call =>
    Completes.symbol (completes_pure ⟨[], .perform call, ?_⟩)
  simp [Statement.yield]

theorem completes_returnStatement (bound : Nat) :
    Completes (returnStatement bound) (statementsBehind .return) := by
  have nothing : Completes (do symbol .semicolon; return Statement.return none)
      (statementsBehind .return) :=
    Completes.symbol (completes_pure ⟨[], .return none, rfl⟩)
  have something : Completes
      (do
        let value ← expression bound
        symbol .semicolon
        return Statement.return (some value))
      (statementsBehind .return) := by
    refine (completes_expression bound).bind (sound_expression bound) fun value =>
      Completes.symbol (completes_pure ⟨[], .return (some value), ?_⟩)
    simp [Statement.yield]
  refine Completes.peekKind nothing.nonempty fun tokens => ?_
  split
  · exact nothing.at_tokens tokens
  · exact something.at_tokens tokens

end Statements

theorem completes_statement (bound : Nat) :
    Completes (statement bound) (Set.range Statement.yield) := by
  have nonempty : (Set.range Statement.yield).Nonempty := ⟨_, .return none, rfl⟩
  induction bound with
  | zero => exact completes_refuse nonempty .statement
  | succ bound inductionHypothesis =>
    have sound := sound_statement bound
    refine Completes.peekKind nonempty fun tokens => ?_
    generalize known : nextKind tokens = next
    split
    · exact CompletesAt.skip (passes_keyword_of_nextKind known) (completes_assignment bound)
    · exact CompletesAt.skip (passes_keyword_of_nextKind known)
        (completes_conditionalOf sound inductionHypothesis bound)
    · exact CompletesAt.skip (passes_keyword_of_nextKind known)
        (completes_loopOf sound inductionHypothesis bound)
    · exact CompletesAt.skip (passes_keyword_of_nextKind known) (completes_callStatement bound)
    · exact CompletesAt.skip (passes_keyword_of_nextKind known) (completes_returnStatement bound)
    · exact (completes_refuse nonempty _).at_tokens tokens

theorem completes_statements (bound : Nat) :
    Completes (statements bound) (Set.range yieldStatements) :=
  completes_statementsOf (sound_statement bound) (completes_statement bound) bound

theorem completes_dataType : Completes dataType (Set.range DataType.yield) := by
  refine completes_of_refuses ⟨_, .int, rfl⟩ ?_
  intro tokens expected rest refuses
  cases tokens with
  | nil =>
    cases refuses
    rfl
  | cons token tail =>
    rw [dataType, bind_apply_of_read (peek_cons token tail)] at refuses
    cases known : token.kind with
    | keyword word =>
      simp only [known] at refuses
      cases word with
      | int | char | boolean => cases refuses
      | _ =>
        cases refuses
        rfl
    | identifier =>
      simp only [known] at refuses
      cases refuses
    | symbol | integerConstant | stringConstant =>
      simp only [known] at refuses
      cases refuses
      rfl

/-- The declarations that declare at least one variable. -/
def namedGroups : Set VariableGroup := {group | group.names ≠ []}

theorem reads_variableGroup (bound : Nat) : Reads (variableGroup bound) namedGroups :=
  reads_bind fun _ => (reads_separated bound).bind fun _ some =>
    reads_bind fun _ => reads_pure some

theorem completes_variableGroup (bound : Nat) :
    Completes (variableGroup bound) (VariableGroup.yield '' namedGroups) := by
  have sound := sound_identifier .variableName
  have names := completes_separated sound (completes_identifier _) bound
  refine completes_dataType.bind sound_dataType fun type =>
    names.bind_of_mem (sound.separated bound) (reads_separated bound) fun names some =>
    Completes.symbol (completes_pure ⟨[], ⟨type, names⟩, some, ?_⟩)
  simp [VariableGroup.yield]

theorem reads_classVariables (bound : Nat) :
    Reads (classVariables bound)
      {found | ∀ item ∈ found, item ∈ {item : ClassVariableGroup | item.group ∈ namedGroups}} := by
  refine reads_bind fun next => ?_
  cases classVariableKind? next with
  | none => exact reads_pure (by simp)
  | some kind =>
    exact reads_bind fun _ => (reads_variableGroup bound).bind fun group named =>
      reads_pure (by simpa using named)

theorem completes_classVariables (bound : Nat) :
    Completes (classVariables bound)
      (ClassVariableGroup.yield '' {item | item.group ∈ namedGroups}) := by
  refine Completes.peekKind ⟨_, ⟨.static, ⟨.int, [""]⟩⟩, by simp [namedGroups], rfl⟩
    fun tokens => ?_
  cases opened : classVariableKind? (nextKind tokens) with
  | none =>
    intro expected rest refuses
    cases refuses
  | some kind =>
    have front := passes_keyword_of_nextKind (classVariableKind?_eq_some_iff.mp opened)
    refine CompletesAt.skip front ((completes_variableGroup bound).bind_of_mem
      (sound_variableGroup bound) (reads_variableGroup bound) fun group named =>
      completes_pure ⟨[], ⟨kind, group⟩, named, ?_⟩)
    simp [ClassVariableGroup.yield]

theorem reads_localVariables (bound : Nat) :
    Reads (localVariables bound) {found | ∀ group ∈ found, group ∈ namedGroups} := by
  refine reads_bind fun present => ?_
  cases present with
  | false => exact reads_pure (by simp)
  | true =>
    exact (reads_variableGroup bound).bind fun group named => reads_pure (by simpa using named)

theorem completes_localVariables (bound : Nat) :
    Completes (localVariables bound) (VariableGroup.yieldLocal '' namedGroups) := by
  refine Completes.acceptKeyword ?_
    (completes_pure ⟨_, ⟨.int, [""]⟩, by simp [namedGroups], rfl⟩)
  refine (completes_variableGroup bound).bind_of_mem (sound_variableGroup bound)
    (reads_variableGroup bound) fun group named => completes_pure ⟨[], group, named, ?_⟩
  simp [VariableGroup.yieldLocal]

/-- The bodies in which every declaration declares a variable. -/
def namedBodies : Set SubroutineBody := {body | ∀ group ∈ body.locals, group ∈ namedGroups}

theorem reads_subroutineBody (bound : Nat) : Reads (subroutineBody bound) namedBodies :=
  reads_bind fun _ => ((reads_localVariables bound).many bound).bind fun _ named =>
    reads_bind fun _ => reads_bind fun _ => reads_pure named

theorem completes_subroutineBody (bound : Nat) :
    Completes (subroutineBody bound) (SubroutineBody.yield '' namedBodies) := by
  have sound := sound_localVariables bound
  have reads := reads_localVariables bound
  have groups := completes_many_of_mem sound reads (completes_localVariables bound).at_tokens bound
  refine Completes.symbol (groups.bind_of_mem (sound.many bound) (reads.many bound)
    fun groups named => (completes_statements bound).bind (sound_statements bound) fun statements =>
    Completes.symbol (completes_pure ⟨[], ⟨groups, statements⟩, named, ?_⟩))
  simp [SubroutineBody.yield]

theorem completes_parameter : Completes parameter (Set.range Variable.yield) := by
  refine completes_dataType.bind sound_dataType fun type => Completes.identifier fun name =>
    completes_pure ⟨[], ⟨type, name⟩, ?_⟩
  simp [Variable.yield]

theorem completes_resultType : Completes resultType (Set.range yieldResult) := by
  refine Completes.acceptKeyword (completes_pure ⟨[], none, rfl⟩) ?_
  exact completes_dataType.bind sound_dataType fun type =>
    completes_pure ⟨[], some type, by simp [yieldResult]⟩

/-- The subroutines in which every declaration declares a variable. -/
def namedSubroutines : Set Subroutine := {subroutine | subroutine.body ∈ namedBodies}

theorem reads_subroutine (bound : Nat) :
    Reads (subroutine bound) {found | ∀ value ∈ found, value ∈ namedSubroutines} := by
  refine reads_bind fun next => ?_
  cases subroutineKind? next with
  | none => exact reads_pure (by simp)
  | some kind =>
    exact reads_bind fun _ => reads_bind fun _ => reads_bind fun _ => reads_bind fun _ =>
      reads_bind fun _ => reads_bind fun _ => (reads_subroutineBody bound).bind fun _ named =>
      reads_pure (by simpa [namedSubroutines] using named)

theorem completes_subroutine (bound : Nat) :
    Completes (subroutine bound) (Subroutine.yield '' namedSubroutines) := by
  refine Completes.peekKind ⟨_, ⟨.function, none, "", [], ⟨[], []⟩⟩, ?_, rfl⟩ fun tokens => ?_
  · simp [namedSubroutines, namedBodies]
  · cases opened : subroutineKind? (nextKind tokens) with
    | none =>
      intro expected rest refuses
      cases refuses
    | some kind =>
      have front := passes_keyword_of_nextKind (subroutineKind?_eq_some_iff.mp opened)
      have parameters := completes_parenthesized sound_parameter completes_parameter bound
      refine CompletesAt.skip front (completes_resultType.bind sound_resultType fun result =>
        Completes.identifier fun name => Completes.symbol (parameters.bind
          (sound_parameter.parenthesized bound) fun parameters => Completes.symbol
            ((completes_subroutineBody bound).bind_of_mem (sound_subroutineBody bound)
              (reads_subroutineBody bound) fun body named =>
              completes_pure ⟨[], ⟨kind, result, name, parameters, body⟩, named, ?_⟩)))
      simp [Subroutine.yield]

theorem reads_classDeclaration (bound : Nat) :
    Reads (classDeclaration bound) {declaration | declaration.NamesVariables} :=
  reads_bind fun _ => reads_bind fun _ => reads_bind fun _ =>
    ((reads_classVariables bound).many bound).bind fun _ groups =>
    ((reads_subroutine bound).many bound).bind fun _ subroutines =>
    reads_bind fun _ => reads_pure ⟨groups, subroutines⟩

theorem completes_classDeclaration (bound : Nat) :
    Completes (classDeclaration bound)
      (ClassDeclaration.yield '' {declaration | declaration.NamesVariables}) := by
  have groups := completes_many_of_mem (sound_classVariables bound) (reads_classVariables bound)
    (completes_classVariables bound).at_tokens bound
  have subroutines := completes_many_of_mem (sound_subroutine bound) (reads_subroutine bound)
    (completes_subroutine bound).at_tokens bound
  refine Completes.keyword (Completes.identifier fun name => Completes.symbol
    (groups.bind_of_mem ((sound_classVariables bound).many bound)
      ((reads_classVariables bound).many bound) fun groups groupsNamed =>
      subroutines.bind_of_mem ((sound_subroutine bound).many bound)
        ((reads_subroutine bound).many bound) fun subroutines subroutinesNamed =>
        Completes.symbol (completes_pure
          ⟨[], ⟨name, groups, subroutines⟩, ⟨groupsNamed, subroutinesNamed⟩, ?_⟩)))
  simp [ClassDeclaration.yield]

/-- Tokens that follow a class are too many, but the class before them is whole. -/
theorem completes_compilationUnit (bound : Nat) :
    Completes (compilationUnit bound)
      (ClassDeclaration.yield '' {declaration | declaration.NamesVariables}) := by
  refine (completes_classDeclaration bound).bind_of_mem (sound_classDeclaration bound)
    (reads_classDeclaration bound) fun declaration named => ?_
  refine completes_of_refuses ⟨[], declaration, named, by simp⟩ ?_
  intro tokens expected rest refuses
  cases tokens with
  | nil => cases refuses
  | cons token tail =>
    cases refuses
    rfl

end Grammar

end Jack
