import Jack.Grammar.Class
import Jack.Proofs.Reading
import Mathlib

/-!
# The grammar reads what trees yield

Whatever a production reads, it passes exactly the yield of the tree that it returns: no token is left
out and none is read twice.
-/

namespace Jack.Grammar

open Jack.Parser

section Expressions

variable {term : Parser Term} {expression : Parser Expression}

/-- An operator is denoted by its own symbol. -/
theorem binaryOperator?_eq_some_iff {kind : Option TokenKind} {operator : BinaryOperator} :
    binaryOperator? kind = some operator ↔ kind = some (.symbol operator.symbol) := by
  unfold binaryOperator?
  split
  · simp [BinaryOperator.ofSymbol?_eq_some_iff]
  · rename_i other
    constructor
    · rintro ⟨⟩
    · intro same
      exact absurd same (other _)

theorem sound_operation (sound : Sound term Term.yield) :
    Sound (operation term) (yieldOption yieldOperation) := by
  intro tokens found rest reads
  obtain ⟨_, _, peeked, reads⟩ := bind_eq_read_iff.mp reads
  obtain ⟨rfl, rfl⟩ := peekKind_eq_read_iff.mp peeked
  cases denoted : binaryOperator? (nextKind tokens) with
  | none =>
    rw [denoted] at reads
    cases reads
    exact .nil
  | some operator =>
    simp only [denoted, bind_eq_read_iff, skip_eq_read_iff] at reads
    obtain ⟨_, _, rfl, right, last, read, reads⟩ := reads
    cases reads
    exact (passes_symbol_of_nextKind (binaryOperator?_eq_some_iff.mp denoted)).trans (sound read)

theorem sound_expressionOf (sound : Sound term Term.yield) (bound : Nat) :
    Sound (expressionOf term bound) Expression.yield := by
  intro tokens value rest reads
  obtain ⟨first, middle, one, reads⟩ := bind_eq_read_iff.mp reads
  obtain ⟨operations, last, more, reads⟩ := bind_eq_read_iff.mp reads
  cases reads
  rw [Expression.yield_chain]
  exact (sound one).trans ((sound_operation sound).many bound more)

theorem sound_callOf (sound : Sound expression Expression.yield) (bound : Nat) :
    Sound (callOf expression bound) Call.yield := by
  intro tokens value rest reads
  obtain ⟨first, second, named, reads⟩ := bind_eq_read_iff.mp reads
  obtain ⟨dot, third, accepted, reads⟩ := bind_eq_read_iff.mp reads
  have front := identifier_eq_read_iff.mp named
  rcases accept_eq_read_iff.mp accepted with ⟨rfl, symbol⟩ | ⟨rfl, _, rfl⟩
  · simp only [if_true, bind_eq_read_iff, identifier_eq_read_iff, symbol_eq_read_iff] at reads
    obtain ⟨name, fourth, called, _, fifth, opening, arguments, sixth, inside, _, last, closing,
      reads⟩ := reads
    cases reads
    have dotted := front.trans (passes_symbol_iff.mpr symbol)
    rw [Call.yield, yieldArguments_eq]
    exact (((dotted.trans called).trans opening).trans (sound.parenthesized bound inside)).trans
      closing
  · simp only [Bool.false_eq_true, if_false, bind_eq_read_iff, symbol_eq_read_iff] at reads
    obtain ⟨_, fourth, opening, arguments, fifth, inside, _, last, closing, reads⟩ := reads
    cases reads
    rw [Call.yield, yieldArguments_eq]
    exact ((front.trans opening).trans (sound.parenthesized bound inside)).trans closing

theorem sound_namedTerm (sound : Sound expression Expression.yield) (bound : Nat) {name : String}
    {tokens rest : List Token} {value : Term} (front : Passes tokens [.identifier name] tokens.tail)
    (reads : namedTerm expression bound name tokens = .read value rest) :
    Passes tokens value.yield rest := by
  obtain ⟨second, _, peeked, reads⟩ := bind_eq_read_iff.mp reads
  obtain ⟨next, rfl⟩ := peekSecondKind_eq_read_iff.mp peeked
  split at reads
  · simp only [bind_eq_read_iff, skip_eq_read_iff, symbol_eq_read_iff] at reads
    obtain ⟨_, _, rfl, _, _, rfl, index, third, inside, _, last, closing, reads⟩ := reads
    cases reads
    have opening := front.trans (passes_symbol_of_nextKind next.symm)
    exact (opening.trans (sound inside)).trans closing
  · obtain ⟨call, last, read, reads⟩ := bind_eq_read_iff.mp reads
    cases reads
    exact sound_callOf sound bound read
  · obtain ⟨call, last, read, reads⟩ := bind_eq_read_iff.mp reads
    cases reads
    exact sound_callOf sound bound read
  · obtain ⟨_, last, skipped, reads⟩ := bind_eq_read_iff.mp reads
    cases skipped
    cases reads
    exact front

end Expressions

/-- A symbol that is no parenthesis begins a term only as an operator. -/
theorem term_of_symbol (bound : Nat) {token : Token} {mark : Symbol}
    (kind : token.kind = .symbol mark) (other : mark ≠ .leftParen) (tail : List Token) :
    term (bound + 1) (token :: tail) =
      (match UnaryOperator.ofSymbol? mark with
      | some operator => do
        skip
        return .unary operator (← term bound)
      | none => refuse .term : Parser Term) (token :: tail) := by
  rw [term, bind_apply_of_read (peek_cons token tail)]
  obtain ⟨_, text, span⟩ := token
  cases kind
  cases mark with
  | leftParen => exact absurd rfl other
  | _ => rfl

/-- A term that begins with a symbol is an expression in parentheses or has an operator in front. -/
theorem passes_of_symbolTerm {bound : Nat} {token : Token} {tail rest : List Token} {mark : Symbol}
    {value : Term} (sound : Sound (term bound) Term.yield) (kind : token.kind = .symbol mark)
    (reads : term (bound + 1) (token :: tail) = .read value rest) :
    Passes (token :: tail) value.yield rest := by
  have front : Passes (token :: tail) [.symbol mark] tail :=
    passes_symbol_iff.mpr ⟨token, kind, rfl⟩
  by_cases parenthesis : mark = .leftParen
  · subst parenthesis
    rw [term, bind_apply_of_read (peek_cons token tail)] at reads
    simp only [kind, bind_eq_read_iff, skip_eq_read_iff, symbol_eq_read_iff] at reads
    obtain ⟨_, _, rfl, inner, middle, inside, _, last, closing, reads⟩ := reads
    cases reads
    have inner := sound_expressionOf sound bound inside
    exact (front.trans inner).trans closing
  · rw [term_of_symbol bound kind parenthesis] at reads
    cases denoted : UnaryOperator.ofSymbol? mark with
    | none =>
      rw [denoted] at reads
      exact absurd reads refuse_ne_read
    | some operator =>
      simp only [denoted, bind_eq_read_iff, skip_eq_read_iff] at reads
      obtain ⟨_, _, rfl, operand, last, read, reads⟩ := reads
      cases reads
      rw [UnaryOperator.ofSymbol?_eq_some_iff] at denoted
      subst denoted
      exact front.trans (sound read)

theorem sound_term (bound : Nat) : Sound (term bound) Term.yield := by
  induction bound with
  | zero =>
    intro tokens value rest reads
    exact absurd reads refuse_ne_read
  | succ bound inductionHypothesis =>
    intro tokens value rest begins
    have reads := begins
    rw [term, bind_eq_read_iff] at reads
    obtain ⟨next, _, peeked, reads⟩ := reads
    cases peeked
    cases tokens with
    | nil => exact absurd reads refuse_ne_read
    | cons token tail =>
      rw [List.head?_cons] at reads
      cases kind : token.kind with
      | integerConstant =>
        simp only [kind] at reads
        cases number : Text.readUnsigned? 65535 token.text with
        | none =>
          rw [number] at reads
          exact absurd reads refuse_ne_read
        | some number' =>
          simp only [number, bind_eq_read_iff, skip_eq_read_iff] at reads
          obtain ⟨_, _, rfl, reads⟩ := reads
          cases reads
          obtain ⟨denotes, fits⟩ := Text.readUnsigned?_eq_some_iff.mp number
          rw [← UInt16.toNat_ofNat_of_lt (Nat.lt_succ_of_le fits)] at denotes
          exact passes_integer_iff.mpr ⟨token, ⟨kind, denotes⟩, rfl⟩
      | stringConstant =>
        simp only [kind, bind_eq_read_iff, skip_eq_read_iff] at reads
        obtain ⟨_, _, rfl, reads⟩ := reads
        cases reads
        exact passes_string_iff.mpr ⟨token, ⟨kind, rfl⟩, rfl⟩
      | keyword word =>
        simp only [kind] at reads
        cases denoted : KeywordConstant.ofKeyword? word with
        | none =>
          rw [denoted] at reads
          exact absurd reads refuse_ne_read
        | some constant =>
          simp only [denoted, bind_eq_read_iff, skip_eq_read_iff] at reads
          obtain ⟨_, _, rfl, reads⟩ := reads
          cases reads
          rw [KeywordConstant.ofKeyword?_eq_some_iff] at denoted
          subst denoted
          exact passes_keyword_iff.mpr ⟨token, kind, rfl⟩
      | identifier =>
        simp only [kind] at reads
        have front : Passes (token :: tail) [.identifier token.text] tail :=
          passes_identifier_iff.mpr ⟨token, ⟨kind, rfl⟩, rfl⟩
        exact sound_namedTerm (sound_expressionOf inductionHypothesis bound) bound front reads
      | symbol mark => exact passes_of_symbolTerm inductionHypothesis kind begins

theorem sound_expression (bound : Nat) : Sound (expression bound) Expression.yield :=
  sound_expressionOf (sound_term bound) bound

theorem sound_call (bound : Nat) : Sound (call bound) Call.yield :=
  sound_callOf (sound_expression bound) bound

section Statements

variable {statement : Parser Statement} {bound : Nat} {start tokens rest : List Token}
  {value : Statement}

theorem sound_nextStatement (sound : Sound statement Statement.yield) :
    Sound (do if startsStatement (← peekKind) then return some (← statement) else return none)
      (yieldOption Statement.yield) := by
  intro tokens found rest reads
  obtain ⟨_, _, peeked, reads⟩ := bind_eq_read_iff.mp reads
  obtain ⟨rfl, rfl⟩ := peekKind_eq_read_iff.mp peeked
  split at reads
  · obtain ⟨value, last, read, reads⟩ := bind_eq_read_iff.mp reads
    cases reads
    exact sound read
  · cases reads
    exact .nil

theorem sound_statementsOf (sound : Sound statement Statement.yield) (bound : Nat) :
    Sound (statementsOf statement bound) yieldStatements := by
  intro tokens values rest reads
  rw [yieldStatements_eq]
  exact (sound_nextStatement sound).many bound reads

theorem sound_condition (bound : Nat) : Sound (condition bound) yieldCondition := by
  intro tokens value rest reads
  simp only [condition, bind_eq_read_iff, symbol_eq_read_iff] at reads
  obtain ⟨_, first, opening, inner, second, inside, _, last, closing, reads⟩ := reads
  cases reads
  exact (opening.trans (sound_expression bound inside)).trans closing

theorem sound_blockOf (sound : Sound statement Statement.yield) (bound : Nat) :
    Sound (blockOf statement bound) yieldBlock := by
  intro tokens values rest reads
  simp only [blockOf, bind_eq_read_iff, symbol_eq_read_iff] at reads
  obtain ⟨_, first, opening, inner, second, inside, _, last, closing, reads⟩ := reads
  cases reads
  exact (opening.trans (sound_statementsOf sound bound inside)).trans closing

theorem passes_of_assignment (front : Passes start [.keyword .let] tokens)
    (reads : assignment bound tokens = .read value rest) : Passes start value.yield rest := by
  obtain ⟨target, second, named, reads⟩ := bind_eq_read_iff.mp reads
  obtain ⟨bracket, third, accepted, reads⟩ := bind_eq_read_iff.mp reads
  have target := front.trans (identifier_eq_read_iff.mp named)
  rcases accept_eq_read_iff.mp accepted with ⟨rfl, symbol⟩ | ⟨rfl, _, rfl⟩
  · simp only [if_true, bind_eq_read_iff, symbol_eq_read_iff] at reads
    obtain ⟨index, fourth, place, _, fifth, closing, _, sixth, equal, word, seventh, read, _, last,
      semicolon, reads⟩ := reads
    cases reads
    have opening := target.trans (passes_symbol_iff.mpr symbol)
    have element := (opening.trans (sound_expression bound place)).trans (closing.trans equal)
    exact (element.trans (sound_expression bound read)).trans semicolon
  · simp only [Bool.false_eq_true, if_false, bind_eq_read_iff, symbol_eq_read_iff] at reads
    obtain ⟨_, fourth, equal, word, fifth, read, _, last, semicolon, reads⟩ := reads
    cases reads
    exact ((target.trans equal).trans (sound_expression bound read)).trans semicolon

theorem passes_of_conditionalOf (sound : Sound statement Statement.yield)
    (front : Passes start [.keyword .if] tokens)
    (reads : conditionalOf statement bound tokens = .read value rest) :
    Passes start value.yield rest := by
  obtain ⟨condition, second, tested, reads⟩ := bind_eq_read_iff.mp reads
  obtain ⟨body, third, inside, reads⟩ := bind_eq_read_iff.mp reads
  obtain ⟨alternative, fourth, accepted, reads⟩ := bind_eq_read_iff.mp reads
  have held := (sound_condition bound tested).trans (sound_blockOf sound bound inside)
  rcases accept_eq_read_iff.mp accepted with ⟨rfl, word⟩ | ⟨rfl, _, rfl⟩
  · obtain ⟨others, last, outside, reads⟩ := bind_eq_read_iff.mp reads
    cases reads
    have failed := (passes_keyword_iff.mpr word).trans (sound_blockOf sound bound outside)
    rw [Statement.yield_ifElse]
    exact front.trans (held.trans failed)
  · cases reads
    rw [Statement.yield_ifThen]
    exact front.trans held

theorem passes_of_loopOf (sound : Sound statement Statement.yield)
    (front : Passes start [.keyword .while] tokens)
    (reads : loopOf statement bound tokens = .read value rest) :
    Passes start value.yield rest := by
  obtain ⟨condition, second, tested, reads⟩ := bind_eq_read_iff.mp reads
  obtain ⟨body, third, inside, reads⟩ := bind_eq_read_iff.mp reads
  cases reads
  rw [Statement.yield_whileLoop]
  exact front.trans ((sound_condition bound tested).trans (sound_blockOf sound bound inside))

theorem passes_of_callStatement (front : Passes start [.keyword .do] tokens)
    (reads : callStatement bound tokens = .read value rest) : Passes start value.yield rest := by
  simp only [callStatement, bind_eq_read_iff, symbol_eq_read_iff] at reads
  obtain ⟨call, second, called, _, last, semicolon, reads⟩ := reads
  cases reads
  exact (front.trans (sound_call bound called)).trans semicolon

theorem passes_of_returnStatement (front : Passes start [.keyword .return] tokens)
    (reads : returnStatement bound tokens = .read value rest) : Passes start value.yield rest := by
  obtain ⟨_, _, peeked, reads⟩ := bind_eq_read_iff.mp reads
  obtain ⟨rfl, rfl⟩ := peekKind_eq_read_iff.mp peeked
  split at reads
  · simp only [bind_eq_read_iff, symbol_eq_read_iff] at reads
    obtain ⟨_, last, semicolon, reads⟩ := reads
    cases reads
    exact front.trans semicolon
  · simp only [bind_eq_read_iff, symbol_eq_read_iff] at reads
    obtain ⟨word, second, read, _, last, semicolon, reads⟩ := reads
    cases reads
    exact (front.trans (sound_expression bound read)).trans semicolon

end Statements

theorem sound_statement (bound : Nat) : Sound (statement bound) Statement.yield := by
  induction bound with
  | zero =>
    intro tokens value rest reads
    exact absurd reads refuse_ne_read
  | succ bound inductionHypothesis =>
    intro tokens value rest reads
    rw [statement, bind_eq_read_iff] at reads
    obtain ⟨next, _, peeked, reads⟩ := reads
    obtain ⟨known, rfl⟩ := peekKind_eq_read_iff.mp peeked
    split at reads
    · obtain ⟨_, _, skipped, reads⟩ := bind_eq_read_iff.mp reads
      cases skipped
      exact passes_of_assignment (passes_keyword_of_nextKind known.symm) reads
    · obtain ⟨_, _, skipped, reads⟩ := bind_eq_read_iff.mp reads
      cases skipped
      exact passes_of_conditionalOf inductionHypothesis (passes_keyword_of_nextKind known.symm) reads
    · obtain ⟨_, _, skipped, reads⟩ := bind_eq_read_iff.mp reads
      cases skipped
      exact passes_of_loopOf inductionHypothesis (passes_keyword_of_nextKind known.symm) reads
    · obtain ⟨_, _, skipped, reads⟩ := bind_eq_read_iff.mp reads
      cases skipped
      exact passes_of_callStatement (passes_keyword_of_nextKind known.symm) reads
    · obtain ⟨_, _, skipped, reads⟩ := bind_eq_read_iff.mp reads
      cases skipped
      exact passes_of_returnStatement (passes_keyword_of_nextKind known.symm) reads
    · exact absurd reads refuse_ne_read

theorem sound_statements (bound : Nat) : Sound (statements bound) yieldStatements :=
  sound_statementsOf (sound_statement bound) bound

theorem sound_dataType : Sound dataType DataType.yield := by
  intro tokens value rest reads
  obtain ⟨next, _, peeked, reads⟩ := bind_eq_read_iff.mp reads
  cases peeked
  cases tokens with
  | nil => exact absurd reads refuse_ne_read
  | cons token tail =>
    rw [List.head?_cons] at reads
    cases known : token.kind with
    | keyword word =>
      simp only [known] at reads
      cases word with
      | int | char | boolean =>
        cases reads
        exact passes_keyword_iff.mpr ⟨token, known, rfl⟩
      | _ => exact absurd reads refuse_ne_read
    | identifier =>
      simp only [known] at reads
      cases reads
      exact passes_identifier_iff.mpr ⟨token, ⟨known, rfl⟩, rfl⟩
    | symbol | integerConstant | stringConstant =>
      simp only [known] at reads
      exact absurd reads refuse_ne_read

theorem sound_variableGroup (bound : Nat) : Sound (variableGroup bound) VariableGroup.yield := by
  intro tokens value rest reads
  simp only [variableGroup, bind_eq_read_iff, symbol_eq_read_iff] at reads
  obtain ⟨type, second, typed, names, third, named, _, last, semicolon, reads⟩ := reads
  cases reads
  have names := (sound_identifier .variableName).separated bound named
  exact ((sound_dataType typed).trans names).trans semicolon

/-- A declaration of class variables is opened by the keyword of its kind. -/
theorem classVariableKind?_eq_some_iff {next : Option TokenKind} {kind : ClassVariableKind} :
    classVariableKind? next = some kind ↔ next = some (.keyword kind.keyword) := by
  unfold classVariableKind?
  split
  · simp [ClassVariableKind.ofKeyword?_eq_some_iff]
  · rename_i other
    constructor
    · rintro ⟨⟩
    · intro same
      exact absurd same (other _)

/-- A subroutine is opened by the keyword of its kind. -/
theorem subroutineKind?_eq_some_iff {next : Option TokenKind} {kind : SubroutineKind} :
    subroutineKind? next = some kind ↔ next = some (.keyword kind.keyword) := by
  unfold subroutineKind?
  split
  · simp [SubroutineKind.ofKeyword?_eq_some_iff]
  · rename_i other
    constructor
    · rintro ⟨⟩
    · intro same
      exact absurd same (other _)

theorem sound_classVariables (bound : Nat) :
    Sound (classVariables bound) (yieldOption ClassVariableGroup.yield) := by
  intro tokens found rest reads
  obtain ⟨_, _, peeked, reads⟩ := bind_eq_read_iff.mp reads
  obtain ⟨rfl, rfl⟩ := peekKind_eq_read_iff.mp peeked
  cases opened : classVariableKind? (nextKind tokens) with
  | none =>
    rw [opened] at reads
    cases reads
    exact .nil
  | some kind =>
    simp only [opened, bind_eq_read_iff, skip_eq_read_iff] at reads
    obtain ⟨_, _, rfl, group, last, read, reads⟩ := reads
    cases reads
    have front := passes_keyword_of_nextKind (classVariableKind?_eq_some_iff.mp opened)
    exact front.trans (sound_variableGroup bound read)

theorem sound_localVariables (bound : Nat) :
    Sound (localVariables bound) (yieldOption VariableGroup.yieldLocal) := by
  intro tokens found rest reads
  obtain ⟨present, second, accepted, reads⟩ := bind_eq_read_iff.mp reads
  rcases accept_eq_read_iff.mp accepted with ⟨rfl, word⟩ | ⟨rfl, _, rfl⟩
  · obtain ⟨group, last, read, reads⟩ := bind_eq_read_iff.mp reads
    cases reads
    exact (passes_keyword_iff.mpr word).trans (sound_variableGroup bound read)
  · cases reads
    exact .nil

theorem sound_subroutineBody (bound : Nat) : Sound (subroutineBody bound) SubroutineBody.yield := by
  intro tokens value rest reads
  simp only [subroutineBody, bind_eq_read_iff, symbol_eq_read_iff] at reads
  obtain ⟨_, first, opening, locals, second, declared, inside, third, read, _, last, closing,
    reads⟩ := reads
  cases reads
  have groups := (sound_localVariables bound).many bound declared
  exact ((opening.trans groups).trans (sound_statements bound read)).trans closing

theorem sound_parameter : Sound parameter Variable.yield := by
  intro tokens value rest reads
  simp only [parameter, bind_eq_read_iff, identifier_eq_read_iff] at reads
  obtain ⟨type, second, typed, name, last, named, reads⟩ := reads
  cases reads
  exact (sound_dataType typed).trans named

theorem sound_resultType : Sound resultType yieldResult := by
  intro tokens value rest reads
  obtain ⟨void, second, accepted, reads⟩ := bind_eq_read_iff.mp reads
  rcases accept_eq_read_iff.mp accepted with ⟨rfl, word⟩ | ⟨rfl, _, rfl⟩
  · cases reads
    exact passes_keyword_iff.mpr word
  · obtain ⟨type, last, typed, reads⟩ := bind_eq_read_iff.mp reads
    cases reads
    exact sound_dataType typed

theorem sound_subroutine (bound : Nat) :
    Sound (subroutine bound) (yieldOption Subroutine.yield) := by
  intro tokens found rest reads
  obtain ⟨_, _, peeked, reads⟩ := bind_eq_read_iff.mp reads
  obtain ⟨rfl, rfl⟩ := peekKind_eq_read_iff.mp peeked
  cases opened : subroutineKind? (nextKind tokens) with
  | none =>
    rw [opened] at reads
    cases reads
    exact .nil
  | some kind =>
    simp only [opened, bind_eq_read_iff, skip_eq_read_iff, identifier_eq_read_iff,
      symbol_eq_read_iff] at reads
    obtain ⟨_, _, rfl, result, second, typed, name, third, named, _, fourth, opening, parameters,
      fifth, taken, _, sixth, closing, body, last, read, reads⟩ := reads
    cases reads
    have front := passes_keyword_of_nextKind (subroutineKind?_eq_some_iff.mp opened)
    have header := (front.trans (sound_resultType typed)).trans (named.trans opening)
    have signature := (header.trans (sound_parameter.parenthesized bound taken)).trans closing
    exact signature.trans (sound_subroutineBody bound read)

theorem sound_classDeclaration (bound : Nat) :
    Sound (classDeclaration bound) ClassDeclaration.yield := by
  intro tokens value rest reads
  simp only [classDeclaration, bind_eq_read_iff, keyword_eq_read_iff, identifier_eq_read_iff,
    symbol_eq_read_iff] at reads
  obtain ⟨_, first, word, name, second, named, _, third, opening, groups, fourth, declared,
    subroutines, fifth, read, _, last, closing, reads⟩ := reads
  cases reads
  have header := (word.trans named).trans opening
  have shared := header.trans ((sound_classVariables bound).many bound declared)
  exact (shared.trans ((sound_subroutine bound).many bound read)).trans closing

/-- Nothing is left after a class that is a whole source. -/
theorem passes_of_compilationUnit {bound : Nat} {tokens rest : List Token}
    {declaration : ClassDeclaration}
    (reads : compilationUnit bound tokens = .read declaration rest) :
    Passes tokens declaration.yield [] := by
  obtain ⟨value, middle, read, reads⟩ := bind_eq_read_iff.mp reads
  obtain ⟨next, _, peeked, reads⟩ := bind_eq_read_iff.mp reads
  cases peeked
  cases middle with
  | nil =>
    cases reads
    exact sound_classDeclaration bound read
  | cons token tail => exact absurd reads refuse_ne_read

/-- Wherever a cursor stands, a production that succeeds moves it over tokens of its sequence, and
these are the yield of the result. -/
def ReadsYield {α : Type} (production : Nat → Parser α) (yield : α → List Terminal) : Prop :=
  ∀ (cursor after : Cursor) (value : α), cursor.index ≤ cursor.tokens.length →
    cursor.parse production = (after, .ok value) →
    after.tokens = cursor.tokens ∧ cursor.index ≤ after.index ∧
      after.index ≤ cursor.tokens.length ∧
      List.Forall₂ Token.Is ((cursor.tokens.take after.index).drop cursor.index) (yield value)

/-- A parser that passes the yield of its value moves a cursor over that yield. -/
theorem readsYield_of_sound {α : Type} {production : Nat → Parser α} {yield : α → List Terminal}
    (sound : ∀ bound, Sound (production bound) yield) : ReadsYield production yield := by
  intro cursor after value within parsed
  unfold Cursor.parse at parsed
  cases outcome : run production cursor.unread with
  | refused expected rest =>
    rw [outcome] at parsed
    cases parsed
  | read result rest =>
    rw [outcome] at parsed
    cases parsed
    obtain ⟨front, split, each⟩ := (sound _ outcome).exists_append
    -- The index counts the tokens that were read, a parser returns those that were not.
    have size : cursor.tokens.length - cursor.index = front.length + rest.length := by
      rw [← List.length_drop, ← List.length_append, ← split]
      rfl
    have index : (cursor.moveTo rest).index = cursor.index + front.length := by
      simp only [Cursor.moveTo]
      omega
    have slice : (cursor.tokens.take (cursor.moveTo rest).index).drop cursor.index = front := by
      rw [index, List.drop_take, Nat.add_sub_cancel_left]
      change cursor.unread.take front.length = front
      rw [split, List.take_left]
    refine ⟨rfl, ?_, ?_, ?_⟩
    · omega
    · omega
    · rw [slice]
      exact each

/-- Every production reads the yield of the tree that it returns. A sequence of tokens that is parsed
as a class is the yield of that class as a whole. -/
theorem productions_read_their_yield :
    ReadsYield classDeclaration ClassDeclaration.yield ∧
    ReadsYield classVariables (yieldOption ClassVariableGroup.yield) ∧
    ReadsYield subroutine (yieldOption Subroutine.yield) ∧
    ReadsYield subroutineBody SubroutineBody.yield ∧
    ReadsYield localVariables (yieldOption VariableGroup.yieldLocal) ∧
    ReadsYield statements yieldStatements ∧
    ReadsYield statement Statement.yield ∧
    ReadsYield expression Expression.yield ∧
    ReadsYield term Term.yield ∧
    ReadsYield call Call.yield ∧
    ReadsYield (fun _ => dataType) DataType.yield ∧
    ∀ tokens declaration, parseClass tokens = .ok declaration →
      List.Forall₂ Token.Is tokens declaration.yield := by
  refine ⟨readsYield_of_sound sound_classDeclaration, readsYield_of_sound sound_classVariables,
    readsYield_of_sound sound_subroutine, readsYield_of_sound sound_subroutineBody,
    readsYield_of_sound sound_localVariables, readsYield_of_sound sound_statements,
    readsYield_of_sound sound_statement, readsYield_of_sound sound_expression,
    readsYield_of_sound sound_term, readsYield_of_sound sound_call,
    readsYield_of_sound fun _ => sound_dataType, ?_⟩
  intro tokens declaration parsed
  unfold parseClass Cursor.parse at parsed
  cases outcome : run compilationUnit (Cursor.ofTokens tokens).unread with
  | refused expected rest =>
    rw [outcome] at parsed
    cases parsed
  | read result rest =>
    rw [outcome] at parsed
    cases parsed
    obtain ⟨front, split, each⟩ := (passes_of_compilationUnit outcome).exists_append
    have whole : tokens = front := by
      rw [List.append_nil] at split
      exact split
    rw [whole]
    exact each

/-- A class with a function that returns a number, written with a zero in front. -/
theorem productions_read_their_yield_number :
    let token (kind : TokenKind) (text : String) : Token := ⟨kind, text, ⟨0, 0, 0, 0⟩⟩
    let tokens : List Token :=
      [token (.keyword .class) "class", token .identifier "Main", token (.symbol .leftBrace) "\x7b",
        token (.keyword .function) "function", token (.keyword .int) "int",
        token .identifier "seven", token (.symbol .leftParen) "(", token (.symbol .rightParen) ")",
        token (.symbol .leftBrace) "\x7b", token (.keyword .return) "return",
        token .integerConstant "07", token (.symbol .semicolon) ";",
        token (.symbol .rightBrace) "\x7d", token (.symbol .rightBrace) "\x7d"]
    let declaration : ClassDeclaration :=
      ⟨"Main", [], [⟨.function, some .int, "seven", [],
        ⟨[], [.return (some (.term (.integer 7)))]⟩⟩]⟩
    parseClass tokens = .ok declaration ∧ List.Forall₂ Token.Is tokens declaration.yield := by
  intro token tokens declaration
  have parsed : parseClass tokens = .ok declaration := by cbv
  obtain ⟨_, _, _, _, _, _, _, _, _, _, _, whole⟩ := productions_read_their_yield
  exact ⟨parsed, whole tokens declaration parsed⟩

end Jack.Grammar
