import Jack.Grammar.Class
import Jack.Proofs.Reading
import Mathlib.Data.List.Forall2

/-!
# The grammar recovers trees from their yields

Every production reads a tree from the tokens that the tree yields, whatever tokens come next, as long
as the next one lets the production stop there. A term may not go on with a bracket, a parenthesis or
a dot, an expression not with an operator, and a conditional without an alternative not with an
`else`. A bound on repetition and nesting is large enough when the yield is not longer than it.
-/

namespace Jack

section Sizes

variable {α : Type} (yield : α → List Terminal)

/-- A yield is not longer than what it is part of. -/
theorem length_le_length_flatMap {values : List α} {value : α} (member : value ∈ values) :
    (yield value).length ≤ (values.flatMap yield).length := by
  induction values with
  | nil => cases member
  | cons first others inductionHypothesis =>
    rw [List.flatMap_cons, List.length_append]
    rcases List.mem_cons.mp member with rfl | later
    · omega
    · have shorter := inductionHypothesis later
      omega

/-- There are not more items than terminals, if every item has one. -/
theorem count_le_length_flatMap {values : List α} (nonempty : ∀ value ∈ values, yield value ≠ []) :
    values.length ≤ (values.flatMap yield).length := by
  induction values with
  | nil => exact Nat.zero_le _
  | cons first others inductionHypothesis =>
    rw [List.flatMap_cons, List.length_append, List.length_cons]
    have one := List.length_pos_iff.mpr (nonempty first List.mem_cons_self)
    have rest := inductionHypothesis fun value member =>
      nonempty value (List.mem_cons_of_mem _ member)
    omega

theorem length_le_length_commaSeparated {values : List α} {value : α} (member : value ∈ values) :
    (yield value).length ≤ (commaSeparated yield values).length := by
  cases values with
  | nil => cases member
  | cons first others =>
    rw [commaSeparated, List.length_append]
    rcases List.mem_cons.mp member with rfl | later
    · omega
    · have shorter : (.symbol .comma :: yield value).length ≤ _ :=
        length_le_length_flatMap (fun other => .symbol .comma :: yield other) later
      rw [List.length_cons] at shorter
      omega

theorem count_le_length_commaSeparated (values : List α) :
    values.length ≤ (commaSeparated yield values).length + 1 := by
  cases values with
  | nil => exact Nat.zero_le _
  | cons first others =>
    have rest : others.length ≤ _ :=
      count_le_length_flatMap (fun other => .symbol .comma :: yield other) (by simp)
    rw [commaSeparated, List.length_append, List.length_cons]
    omega

end Sizes

/-- Every declaration of variables in a class declares at least one. -/
def ClassDeclaration.NamesVariables (declaration : ClassDeclaration) : Prop :=
  (∀ item ∈ declaration.variableGroups, item.group.names ≠ []) ∧
    ∀ subroutine ∈ declaration.subroutines, ∀ group ∈ subroutine.body.locals, group.names ≠ []

namespace Grammar

open Jack.Parser

/-- The next token does not turn a name into something else. -/
def EndsTerm (next : Option TokenKind) : Prop :=
  next ≠ some (.symbol .leftBracket) ∧ next ≠ some (.symbol .leftParen) ∧
    next ≠ some (.symbol .dot)

/-- The next token neither continues a term nor joins another one to it. -/
def EndsExpression (next : Option TokenKind) : Prop :=
  EndsTerm next ∧ binaryOperator? next = none

section Expressions

variable {term : Parser Term} {expression : Parser Expression} {bound : Nat}

theorem endsTerm_operator (operator : BinaryOperator) :
    EndsTerm (some (.symbol operator.symbol)) := by
  cases operator <;> simp [EndsTerm, BinaryOperator.symbol]

theorem recovers_operation {operation' : BinaryOperator × Term}
    (recovers : Recovers term operation'.2 operation'.2.yield EndsTerm) :
    Recovers (operation term) (some operation') (yieldOperation operation') EndsTerm := by
  intro tokens rest passes ends
  obtain ⟨middle, mark, operand⟩ := passes_cons_iff.mp passes
  obtain ⟨token, kind, rfl⟩ := passes_symbol_iff.mp mark
  have denoted : binaryOperator? (nextKind (token :: middle)) = some operation'.1 := by
    simp [nextKind, kind, binaryOperator?]
  rw [operation, bind_apply_of_read (peekKind_apply _), denoted]
  simp only
  rw [bind_apply_of_read (skip_cons token middle), bind_apply_of_read (recovers operand ends)]
  rfl

theorem recovers_expressionOf
    (recovers : ∀ value : Term, value.yield.length ≤ bound → Recovers term value value.yield EndsTerm)
    (value : Expression) (small : value.yield.length ≤ bound) :
    Recovers (expressionOf term bound) value value.yield EndsExpression := by
  intro tokens rest passes ends
  rw [← value.chain_first_operations, Expression.yield_chain] at passes small
  rw [List.length_append] at small
  obtain ⟨middle, first, more⟩ := passes_append_iff.mp passes
  have stops : EndsTerm (nextKind middle) := by
    rw [more.nextKind_eq]
    cases value.operations with
    | nil => exact ends.1
    | cons operation others => exact endsTerm_operator operation.1
  have further : Recovers (many bound (operation term)) value.operations
      (value.operations.flatMap yieldOperation) EndsExpression := by
    have count : value.operations.length ≤ _ :=
      count_le_length_flatMap yieldOperation (by simp [yieldOperation])
    refine Recovers.many (by omega) ?_ ?_ (fun _ ends => ends.1) ?_
    · intro operation member
      have part := length_le_length_flatMap yieldOperation member
      rw [yieldOperation, List.length_cons] at part
      exact recovers_operation (recovers operation.2 (by omega))
    · intro operation _ after
      exact endsTerm_operator operation.1
    · intro tokens rest passes ends
      cases passes
      rw [operation, bind_apply_of_read (peekKind_apply _), ends.2]
      rfl
  rw [expressionOf, bind_apply_of_read (recovers value.first (by omega) first stops),
    bind_apply_of_read (further more ends), pure_apply, value.chain_first_operations]

/-- An expression begins neither with a closing parenthesis nor with a semicolon. -/
theorem exists_firstKind_term (value : Term) :
    ∃ kind, firstKind value.yield = some kind ∧ kind ≠ .symbol .rightParen ∧
      kind ≠ .symbol .semicolon := by
  cases value with
  | call call =>
    cases call with
    | mk receiver name arguments =>
      cases receiver <;> exact ⟨_, rfl, by simp [Terminal.kind]⟩
  | unary operator operand =>
    refine ⟨_, rfl, ?_⟩
    cases operator <;> simp [Terminal.kind, UnaryOperator.symbol]
  | _ => exact ⟨_, rfl, by simp [Terminal.kind]⟩

theorem exists_firstKind_expression (value : Expression) :
    ∃ kind, firstKind value.yield = some kind ∧ kind ≠ .symbol .rightParen ∧
      kind ≠ .symbol .semicolon := by
  obtain ⟨kind, first, other⟩ := exists_firstKind_term value.first
  refine ⟨kind, ?_, other⟩
  rw [← value.chain_first_operations, Expression.yield_chain, firstKind_append, first]
  rfl

theorem endsExpression_of_mem {mark : Symbol}
    (closing : mark ∈ [Symbol.rightParen, .rightBracket, .comma, .semicolon]) :
    EndsExpression (some (.symbol mark)) := by
  simp only [List.mem_cons, List.not_mem_nil, or_false] at closing
  rcases closing with rfl | rfl | rfl | rfl <;>
    simp [EndsExpression, EndsTerm, binaryOperator?, BinaryOperator.ofSymbol?]

/-- The arguments of a call are read up to the closing parenthesis. -/
theorem recovers_arguments
    (recovers : ∀ value : Expression, value.yield.length ≤ bound →
      Recovers expression value value.yield EndsExpression)
    (values : List Expression) (small : (yieldArguments values).length ≤ bound) :
    Recovers (parenthesized bound expression) values (yieldArguments values)
      (fun kind => kind = some (.symbol .rightParen)) := by
  rw [yieldArguments_eq] at small ⊢
  have count := count_le_length_commaSeparated Expression.yield values
  refine Recovers.parenthesized (by omega) ?_ (endsExpression_of_mem (by simp))
    (endsExpression_of_mem (by simp)) ?_
  · intro value member
    have part := length_le_length_commaSeparated Expression.yield member
    exact recovers value (by omega)
  · intro value _
    obtain ⟨kind, first, other, _⟩ := exists_firstKind_expression value
    exact ⟨kind, first, other⟩

theorem recovers_callOf
    (recovers : ∀ value : Expression, value.yield.length ≤ bound →
      Recovers expression value value.yield EndsExpression)
    (value : Call) (small : value.yield.length ≤ bound + 1) :
    Recovers (callOf expression bound) value value.yield (fun _ => True) := by
  cases value with
  | mk receiver name arguments =>
    intro tokens rest passes _
    cases receiver with
    | none =>
      simp only [Call.yield, List.length_append, List.length_cons, List.length_nil] at small
      simp only [Call.yield, passes_append_iff] at passes
      obtain ⟨third, ⟨second, front, inside⟩, closing⟩ := passes
      obtain ⟨first, named, opening⟩ := passes_cons_iff.mp front
      have undotted : nextKind first ≠ some (.symbol .dot) := by
        simp [opening.nextKind_eq, Terminal.kind]
      have read := recovers_arguments recovers arguments (by omega) inside closing.nextKind_eq
      rw [callOf, bind_apply_of_read (identifier_eq_read_iff.mpr named),
        bind_apply_of_read (accept_of_nextKind_ne undotted), if_neg Bool.false_ne_true,
        bind_apply_of_read (symbol_of_passes opening), bind_apply_of_read read,
        bind_apply_of_read (symbol_of_passes closing)]
      rfl
    | some receiver =>
      simp only [Call.yield, List.length_append, List.length_cons, List.length_nil] at small
      simp only [Call.yield, passes_append_iff] at passes
      obtain ⟨fifth, ⟨fourth, front, inside⟩, closing⟩ := passes
      obtain ⟨first, received, front⟩ := passes_cons_iff.mp front
      obtain ⟨second, dot, front⟩ := passes_cons_iff.mp front
      obtain ⟨third, named, opening⟩ := passes_cons_iff.mp front
      have accepted : accept (.symbol .dot) first = .read true second := accept_of_passes dot
      have read := recovers_arguments recovers arguments (by omega) inside closing.nextKind_eq
      rw [callOf, bind_apply_of_read (identifier_eq_read_iff.mpr received),
        bind_apply_of_read accepted, if_pos rfl,
        bind_apply_of_read (identifier_eq_read_iff.mpr named),
        bind_apply_of_read (symbol_of_passes opening), bind_apply_of_read read,
        bind_apply_of_read (symbol_of_passes closing)]
      rfl

/-- A name alone is read as a variable when the next token leaves it alone. -/
theorem recovers_name (name : String) :
    Recovers (namedTerm expression bound name) (.name name) [.identifier name] EndsTerm := by
  intro tokens rest passes ends
  rw [namedTerm, bind_apply_of_read (peekSecondKind_of_passes passes)]
  generalize nextKind rest = next at ends
  split
  · exact absurd rfl ends.1
  · exact absurd rfl ends.2.1
  · exact absurd rfl ends.2.2
  · rw [bind_apply_of_read (skip_of_passes passes)]
    rfl

/-- A name and an index in brackets are read as an element. -/
theorem recovers_element {name : String} {index : Expression}
    (recovers : Recovers expression index index.yield EndsExpression) :
    Recovers (namedTerm expression bound name) (.element name index)
      (Term.element name index).yield (fun _ => True) := by
  intro tokens rest passes _
  simp only [Term.yield, passes_append_iff] at passes
  obtain ⟨third, ⟨second, front, inside⟩, closing⟩ := passes
  obtain ⟨first, named, opening⟩ := passes_cons_iff.mp front
  have next : nextKind first = some (.symbol .leftBracket) := opening.nextKind_eq
  have ends : EndsExpression (nextKind third) := by
    rw [closing.nextKind_eq]
    exact endsExpression_of_mem (by simp)
  rw [namedTerm, bind_apply_of_read (peekSecondKind_of_passes named), next]
  simp only
  rw [bind_apply_of_read (skip_of_passes named), bind_apply_of_read (skip_of_passes opening),
    bind_apply_of_read (recovers inside ends), bind_apply_of_read (symbol_of_passes closing)]
  rfl

/-- A name before a parenthesis or a dot is read as a call. -/
theorem recovers_callTerm {value : Call}
    (recovers : Recovers (callOf expression bound) value value.yield (fun _ => True))
    (name : String) :
    Recovers (namedTerm expression bound name) (.call value) value.yield (fun _ => True) := by
  intro tokens rest passes _
  have read := recovers passes trivial
  obtain ⟨first, terminal, front, next⟩ : ∃ first terminal, Passes tokens [terminal] first ∧
      (nextKind first = some (.symbol .leftParen) ∨ nextKind first = some (.symbol .dot)) := by
    cases value with
    | mk receiver name arguments =>
      cases receiver with
      | none =>
        rw [Call.yield] at passes
        obtain ⟨first, named, others⟩ := passes_cons_iff.mp passes
        exact ⟨first, _, named, .inl others.nextKind_eq⟩
      | some receiver =>
        rw [Call.yield] at passes
        obtain ⟨first, named, others⟩ := passes_cons_iff.mp passes
        exact ⟨first, _, named, .inr others.nextKind_eq⟩
  rw [namedTerm, bind_apply_of_read (peekSecondKind_of_passes front)]
  rcases next with next | next
  · rw [next]
    exact bind_apply_of_read read _
  · rw [next]
    exact bind_apply_of_read read _

end Expressions

section Terms

variable {bound : Nat} {tokens rest : List Token}

/-- A name at the front leads to the terms that begin with a name. -/
theorem term_of_identifier {name : String} {others : List Terminal}
    (named : Passes tokens (.identifier name :: others) rest) :
    term (bound + 1) tokens = namedTerm (expressionOf (term bound) bound) bound name tokens := by
  obtain ⟨middle, front, _⟩ := passes_cons_iff.mp named
  obtain ⟨token, ⟨kind, text⟩, rfl⟩ := passes_identifier_iff.mp front
  rw [term, bind_apply_of_read (peek_cons token middle)]
  simp only [kind, text]

theorem recovers_integer (value : UInt16) :
    Recovers (term (bound + 1)) (.integer value) [.integer value] (fun _ => True) := by
  intro tokens rest passes _
  obtain ⟨token, ⟨kind, denotes⟩, rfl⟩ := passes_integer_iff.mp passes
  have number : Text.readUnsigned? 65535 token.text = some value.toNat :=
    Text.readUnsigned?_eq_some_iff.mpr ⟨denotes, Nat.le_of_lt_succ value.toNat_lt⟩
  rw [term, bind_apply_of_read (peek_cons token rest)]
  simp only [kind, number]
  rw [bind_apply_of_read (skip_cons token rest), UInt16.ofNat_toNat]
  rfl

theorem recovers_string (text : String) :
    Recovers (term (bound + 1)) (.string text) [.string text] (fun _ => True) := by
  intro tokens rest passes _
  obtain ⟨token, ⟨kind, rfl⟩, rfl⟩ := passes_string_iff.mp passes
  rw [term, bind_apply_of_read (peek_cons token rest)]
  simp only [kind]
  rfl

theorem recovers_constant (constant : KeywordConstant) :
    Recovers (term (bound + 1)) (.constant constant) [.keyword constant.keyword]
      (fun _ => True) := by
  intro tokens rest passes _
  obtain ⟨token, kind, rfl⟩ := passes_keyword_iff.mp passes
  rw [term, bind_apply_of_read (peek_cons token rest)]
  simp only [kind, KeywordConstant.ofKeyword?_keyword]
  rfl

/-- An operator in front of a term leaves it to the term where to stop. -/
theorem recovers_unary {operand : Term} (operator : UnaryOperator)
    (recovers : Recovers (term bound) operand operand.yield EndsTerm) :
    Recovers (term (bound + 1)) (.unary operator operand)
      (.symbol operator.symbol :: operand.yield) EndsTerm := by
  intro tokens rest passes ends
  obtain ⟨middle, mark, others⟩ := passes_cons_iff.mp passes
  obtain ⟨token, kind, rfl⟩ := passes_symbol_iff.mp mark
  rw [term, bind_apply_of_read (peek_cons token middle)]
  cases operator with
  | negate | complement =>
    simp only [kind, UnaryOperator.symbol, UnaryOperator.ofSymbol?]
    rw [bind_apply_of_read (skip_cons token middle), bind_apply_of_read (recovers others ends)]
    rfl

theorem recovers_group {value : Expression}
    (recovers : Recovers (expressionOf (term bound) bound) value value.yield EndsExpression) :
    Recovers (term (bound + 1)) (.group value) (Term.group value).yield (fun _ => True) := by
  intro tokens rest passes _
  simp only [Term.yield, passes_append_iff] at passes
  obtain ⟨second, ⟨first, opening, inside⟩, closing⟩ := passes
  obtain ⟨token, kind, rfl⟩ := passes_symbol_iff.mp opening
  have ends : EndsExpression (nextKind second) := by
    rw [closing.nextKind_eq]
    exact endsExpression_of_mem (by simp)
  rw [term, bind_apply_of_read (peek_cons token first)]
  simp only [kind]
  rw [bind_apply_of_read (skip_cons token first), bind_apply_of_read (recovers inside ends),
    bind_apply_of_read (symbol_of_passes closing)]
  rfl

theorem length_yield_pos (value : Term) : 0 < value.yield.length := by
  obtain ⟨kind, first, _⟩ := exists_firstKind_term value
  rw [List.length_pos_iff]
  intro empty
  rw [empty] at first
  cases first

theorem recovers_term (bound : Nat) (value : Term) (small : value.yield.length ≤ bound) :
    Recovers (term bound) value value.yield EndsTerm := by
  -- The induction is on the bound: whatever stands inside a term yields less than the term does.
  induction bound generalizing value with
  | zero =>
    have positive := length_yield_pos value
    omega
  | succ bound inductionHypothesis =>
    have inner : ∀ value : Expression, value.yield.length ≤ bound →
        Recovers (expressionOf (term bound) bound) value value.yield EndsExpression :=
      recovers_expressionOf inductionHypothesis
    intro tokens rest passes ends
    cases value with
    | integer value => exact recovers_integer value passes trivial
    | string text => exact recovers_string text passes trivial
    | constant constant => exact recovers_constant constant passes trivial
    | name name =>
      rw [term_of_identifier passes]
      exact recovers_name name passes ends
    | element name index =>
      simp only [Term.yield, List.length_append, List.length_cons, List.length_nil] at small
      have front : Passes tokens (.identifier name :: _) rest := passes
      rw [term_of_identifier front]
      exact recovers_element (inner index (by omega)) passes trivial
    | call call =>
      rw [Term.yield] at small passes
      have read := recovers_callOf inner call small
      obtain ⟨receiver, name, arguments⟩ := call
      cases receiver with
      | none =>
        have front : Passes tokens (.identifier name :: _) rest := passes
        rw [term_of_identifier front]
        exact recovers_callTerm read name passes trivial
      | some receiver =>
        have front : Passes tokens (.identifier receiver :: _) rest := passes
        rw [term_of_identifier front]
        exact recovers_callTerm read receiver passes trivial
    | unary operator operand =>
      rw [Term.yield, List.length_cons] at small
      exact recovers_unary operator (inductionHypothesis operand (by omega)) passes ends
    | group value =>
      simp only [Term.yield, List.length_append, List.length_cons, List.length_nil] at small
      exact recovers_group (inner value (by omega)) passes trivial

end Terms

/-- An expression is read up to a symbol that closes it. -/
theorem expression_of_passes {bound : Nat} {tokens middle rest : List Token} {mark : Symbol}
    {value : Expression} (small : value.yield.length ≤ bound)
    (passes : Passes tokens value.yield middle) (closing : Passes middle [.symbol mark] rest)
    (closes : mark ∈ [Symbol.rightParen, .rightBracket, .comma, .semicolon]) :
    expression bound tokens = .read value middle := by
  refine recovers_expressionOf (recovers_term bound) value small passes ?_
  rw [closing.nextKind_eq]
  exact endsExpression_of_mem closes

/-- The next token is not an `else`. -/
def EndsStatement (next : Option TokenKind) : Prop := next ≠ some (.keyword .else)

/-- The next token neither begins a statement nor is an `else`. -/
def EndsStatements (next : Option TokenKind) : Prop :=
  startsStatement next = false ∧ EndsStatement next

/-- A statement begins with a keyword for statements. -/
theorem exists_firstKind_statement (value : Statement) :
    ∃ word, firstKind value.yield = some (.keyword word) ∧ word.startsStatement = true := by
  cases value with
  | «return» value => cases value <;> exact ⟨_, rfl, rfl⟩
  | _ => exact ⟨_, rfl, rfl⟩

section Statements

variable {statement : Parser Statement} {bound : Nat}

theorem recovers_statementsOf
    (recovers : ∀ value : Statement, value.yield.length ≤ bound →
      Recovers statement value value.yield EndsStatement)
    (values : List Statement) (small : (yieldStatements values).length ≤ bound) :
    Recovers (statementsOf statement bound) values (yieldStatements values) EndsStatements := by
  rw [yieldStatements_eq] at small ⊢
  have nonempty : ∀ value ∈ values, value.yield ≠ [] := by
    intro value _ empty
    obtain ⟨word, first, _⟩ := exists_firstKind_statement value
    rw [empty] at first
    cases first
  have count := count_le_length_flatMap Statement.yield nonempty
  refine Recovers.many (by omega) ?_ ?_ (fun _ ends => ends.2) ?_
  · intro value member tokens rest passes ends
    have part := length_le_length_flatMap Statement.yield member
    obtain ⟨word, first, starts⟩ := exists_firstKind_statement value
    have next : startsStatement (nextKind tokens) = true := by
      rw [passes.nextKind_eq, first]
      exact starts
    rw [bind_apply_of_read (peekKind_apply tokens), if_pos next,
      bind_apply_of_read (recovers value (by omega) passes ends)]
    rfl
  · intro value _ after
    obtain ⟨word, first, starts⟩ := exists_firstKind_statement value
    rw [first]
    intro same
    cases same
    cases starts
  · intro tokens rest passes ends
    cases passes
    rw [bind_apply_of_read (peekKind_apply tokens), if_neg (by simp [ends.1])]
    rfl

theorem recovers_condition {value : Expression} (small : value.yield.length ≤ bound) :
    Recovers (condition bound) value (yieldCondition value) (fun _ => True) := by
  intro tokens rest passes _
  simp only [yieldCondition, passes_append_iff] at passes
  obtain ⟨second, ⟨first, opening, inside⟩, closing⟩ := passes
  rw [condition, bind_apply_of_read (symbol_of_passes opening),
    bind_apply_of_read (expression_of_passes small inside closing (by simp)),
    bind_apply_of_read (symbol_of_passes closing)]
  rfl

theorem recovers_blockOf
    (recovers : ∀ value : Statement, value.yield.length ≤ bound →
      Recovers statement value value.yield EndsStatement)
    {values : List Statement} (small : (yieldStatements values).length ≤ bound) :
    Recovers (blockOf statement bound) values (yieldBlock values) (fun _ => True) := by
  intro tokens rest passes _
  simp only [yieldBlock, passes_append_iff] at passes
  obtain ⟨second, ⟨first, opening, inside⟩, closing⟩ := passes
  have ends : EndsStatements (nextKind second) := by
    rw [closing.nextKind_eq]
    exact ⟨rfl, by simp [EndsStatement, Terminal.kind]⟩
  rw [blockOf, bind_apply_of_read (symbol_of_passes opening),
    bind_apply_of_read (recovers_statementsOf recovers values small inside ends),
    bind_apply_of_read (symbol_of_passes closing)]
  rfl

/-- An assignment to a variable is recovered behind its keyword. -/
theorem recovers_assign {target : String} {value : Expression} (small : value.yield.length ≤ bound) :
    Recovers (assignment bound) (.assign target value)
      ([.identifier target, .symbol .equal] ++ value.yield ++ [.symbol .semicolon])
      (fun _ => True) := by
  intro tokens rest passes _
  simp only [passes_append_iff] at passes
  obtain ⟨third, ⟨second, front, read⟩, semicolon⟩ := passes
  obtain ⟨first, named, equal⟩ := passes_cons_iff.mp front
  have plain : nextKind first ≠ some (.symbol .leftBracket) := by
    simp [equal.nextKind_eq, Terminal.kind]
  rw [assignment, bind_apply_of_read (identifier_eq_read_iff.mpr named),
    bind_apply_of_read (accept_of_nextKind_ne plain), if_neg Bool.false_ne_true,
    bind_apply_of_read (symbol_of_passes equal),
    bind_apply_of_read (expression_of_passes small read semicolon (by simp)),
    bind_apply_of_read (symbol_of_passes semicolon)]
  rfl

/-- An assignment to an element is recovered behind its keyword. -/
theorem recovers_assignElement {array : String} {index value : Expression}
    (indexSmall : index.yield.length ≤ bound) (small : value.yield.length ≤ bound) :
    Recovers (assignment bound) (.assignElement array index value)
      ([.identifier array, .symbol .leftBracket] ++ index.yield ++
        [.symbol .rightBracket, .symbol .equal] ++ value.yield ++ [.symbol .semicolon])
      (fun _ => True) := by
  intro tokens rest passes _
  simp only [passes_append_iff] at passes
  obtain ⟨sixth, ⟨fifth, ⟨third, ⟨second, front, place⟩, middle⟩, read⟩, semicolon⟩ := passes
  obtain ⟨first, named, opening⟩ := passes_cons_iff.mp front
  obtain ⟨fourth, closing, equal⟩ := passes_cons_iff.mp middle
  have accepted : accept (.symbol .leftBracket) first = .read true second :=
    accept_of_passes opening
  rw [assignment, bind_apply_of_read (identifier_eq_read_iff.mpr named),
    bind_apply_of_read accepted, if_pos rfl,
    bind_apply_of_read (expression_of_passes indexSmall place closing (by simp)),
    bind_apply_of_read (symbol_of_passes closing), bind_apply_of_read (symbol_of_passes equal),
    bind_apply_of_read (expression_of_passes small read semicolon (by simp)),
    bind_apply_of_read (symbol_of_passes semicolon)]
  rfl

section Nested

variable (recovers : ∀ value : Statement, value.yield.length ≤ bound →
    Recovers statement value value.yield EndsStatement)
  {condition : Expression} {body alternative : List Statement}
  (conditionSmall : condition.yield.length ≤ bound)
  (bodySmall : (yieldStatements body).length ≤ bound)

include recovers conditionSmall bodySmall

theorem recovers_ifThen :
    Recovers (conditionalOf statement bound) (.ifThen condition body)
      (yieldCondition condition ++ yieldBlock body) EndsStatement := by
  intro tokens rest passes ends
  obtain ⟨first, tested, inside⟩ := passes_append_iff.mp passes
  -- An `else` behind the block would belong to this conditional, so there must be none.
  rw [conditionalOf, bind_apply_of_read (recovers_condition conditionSmall tested trivial),
    bind_apply_of_read (recovers_blockOf recovers bodySmall inside trivial),
    bind_apply_of_read (accept_of_nextKind_ne ends)]
  rfl

theorem recovers_ifElse (alternativeSmall : (yieldStatements alternative).length ≤ bound) :
    Recovers (conditionalOf statement bound) (.ifElse condition body alternative)
      (yieldCondition condition ++ yieldBlock body ++ (.keyword .else :: yieldBlock alternative))
      (fun _ => True) := by
  intro tokens rest passes _
  simp only [passes_append_iff] at passes
  obtain ⟨second, ⟨first, tested, inside⟩, others⟩ := passes
  obtain ⟨third, word, outside⟩ := passes_cons_iff.mp others
  have accepted : accept (.keyword .else) second = .read true third := accept_of_passes word
  rw [conditionalOf, bind_apply_of_read (recovers_condition conditionSmall tested trivial),
    bind_apply_of_read (recovers_blockOf recovers bodySmall inside trivial),
    bind_apply_of_read accepted, if_pos rfl,
    bind_apply_of_read (recovers_blockOf recovers alternativeSmall outside trivial)]
  rfl

theorem recovers_whileLoop :
    Recovers (loopOf statement bound) (.whileLoop condition body)
      (yieldCondition condition ++ yieldBlock body) (fun _ => True) := by
  intro tokens rest passes _
  obtain ⟨first, tested, inside⟩ := passes_append_iff.mp passes
  rw [loopOf, bind_apply_of_read (recovers_condition conditionSmall tested trivial),
    bind_apply_of_read (recovers_blockOf recovers bodySmall inside trivial)]
  rfl

end Nested

theorem recovers_perform {value : Call} (small : value.yield.length ≤ bound) :
    Recovers (callStatement bound) (.perform value) (value.yield ++ [.symbol .semicolon])
      (fun _ => True) := by
  intro tokens rest passes _
  obtain ⟨first, called, semicolon⟩ := passes_append_iff.mp passes
  have read := recovers_callOf (recovers_expressionOf (recovers_term bound)) value
    (Nat.le_succ_of_le small) called trivial
  rw [callStatement, call, expression, bind_apply_of_read read,
    bind_apply_of_read (symbol_of_passes semicolon)]
  rfl

theorem recovers_returnNothing :
    Recovers (returnStatement bound) (.return none) [.symbol .semicolon] (fun _ => True) := by
  intro tokens rest passes _
  have next : nextKind tokens = some (.symbol .semicolon) := passes.nextKind_eq
  rw [returnStatement, bind_apply_of_read (peekKind_apply tokens), if_pos next,
    bind_apply_of_read (symbol_of_passes passes)]
  rfl

theorem recovers_returnValue {value : Expression} (small : value.yield.length ≤ bound) :
    Recovers (returnStatement bound) (.return (some value)) (value.yield ++ [.symbol .semicolon])
      (fun _ => True) := by
  intro tokens rest passes _
  obtain ⟨first, read, semicolon⟩ := passes_append_iff.mp passes
  obtain ⟨kind, begins, _, other⟩ := exists_firstKind_expression value
  have next : nextKind tokens ≠ some (.symbol .semicolon) := by
    rw [read.nextKind_eq, begins]
    simpa using other
  rw [returnStatement, bind_apply_of_read (peekKind_apply tokens), if_neg next,
    bind_apply_of_read (expression_of_passes small read semicolon (by simp)),
    bind_apply_of_read (symbol_of_passes semicolon)]
  rfl

end Statements

/-- How a statement goes on behind its keyword. -/
def behindKeyword (bound : Nat) : Keyword → Parser Statement
  | .let => assignment bound
  | .if => conditionalOf (statement bound) bound
  | .while => loopOf (statement bound) bound
  | .do => callStatement bound
  | .return => returnStatement bound
  | _ => refuse .statement

/-- The keyword at the front of a statement tells how to go on. -/
theorem recovers_behindKeyword {bound : Nat} {value : Statement} {terminals : List Terminal}
    {stop : Option TokenKind → Prop} (word : Keyword) (starts : word.startsStatement = true)
    (recovers : Recovers (behindKeyword bound word) value terminals stop) :
    Recovers (statement (bound + 1)) value (.keyword word :: terminals) stop := by
  intro tokens rest passes ends
  obtain ⟨middle, front, others⟩ := passes_cons_iff.mp passes
  rw [← recovers others ends, statement, bind_apply_of_read (peekKind_apply tokens),
    passes.nextKind_eq]
  cases word with
  | «let» | «if» | «while» | «do» | «return» => exact bind_apply_of_read (skip_of_passes front) _
  | _ => cases starts

theorem recovers_statement (bound : Nat) (value : Statement) (small : value.yield.length ≤ bound) :
    Recovers (statement bound) value value.yield EndsStatement := by
  induction bound generalizing value with
  | zero =>
    obtain ⟨word, first, _⟩ := exists_firstKind_statement value
    rw [List.length_eq_zero_iff.mp (Nat.le_zero.mp small)] at first
    cases first
  | succ bound inductionHypothesis =>
    intro tokens rest passes ends
    cases value with
    | assign target value =>
      simp only [Statement.yield, List.length_append, List.length_cons, List.length_nil] at small
      rw [Statement.yield] at passes
      exact recovers_behindKeyword .let rfl (recovers_assign (by omega)) passes trivial
    | assignElement array index value =>
      simp only [Statement.yield, List.length_append, List.length_cons, List.length_nil] at small
      rw [Statement.yield] at passes
      exact recovers_behindKeyword .let rfl
        (recovers_assignElement (by omega) (by omega)) passes trivial
    | ifThen condition body =>
      simp only [Statement.yield, List.length_append, List.length_cons, List.length_nil] at small
      rw [Statement.yield_ifThen] at passes
      exact recovers_behindKeyword .if rfl
        (recovers_ifThen inductionHypothesis (by omega) (by omega)) passes ends
    | ifElse condition body alternative =>
      simp only [Statement.yield, List.length_append, List.length_cons, List.length_nil] at small
      rw [Statement.yield_ifElse] at passes
      exact recovers_behindKeyword .if rfl
        (recovers_ifElse inductionHypothesis (by omega) (by omega) (by omega)) passes trivial
    | whileLoop condition body =>
      simp only [Statement.yield, List.length_append, List.length_cons, List.length_nil] at small
      rw [Statement.yield_whileLoop] at passes
      exact recovers_behindKeyword .while rfl
        (recovers_whileLoop inductionHypothesis (by omega) (by omega)) passes trivial
    | perform call =>
      simp only [Statement.yield, List.length_append, List.length_cons, List.length_nil] at small
      rw [Statement.yield] at passes
      exact recovers_behindKeyword .do rfl (recovers_perform (by omega)) passes trivial
    | «return» value =>
      cases value with
      | none =>
        rw [Statement.yield] at passes
        exact recovers_behindKeyword .return rfl recovers_returnNothing passes trivial
      | some value =>
        simp only [Statement.yield, List.length_append, List.length_cons, List.length_nil] at small
        rw [Statement.yield] at passes
        exact recovers_behindKeyword .return rfl (recovers_returnValue (by omega)) passes trivial

theorem recovers_statements (bound : Nat) (values : List Statement)
    (small : (yieldStatements values).length ≤ bound) :
    Recovers (statements bound) values (yieldStatements values) EndsStatements :=
  recovers_statementsOf (recovers_statement bound) values small

theorem recovers_dataType (value : DataType) :
    Recovers dataType value value.yield (fun _ => True) := by
  intro tokens rest passes _
  cases value with
  | int | char | boolean =>
    obtain ⟨token, kind, rfl⟩ := passes_keyword_iff.mp passes
    rw [dataType, bind_apply_of_read (peek_cons token rest)]
    simp only [kind]
    rfl
  | object className =>
    obtain ⟨token, ⟨kind, rfl⟩, rfl⟩ := passes_identifier_iff.mp passes
    rw [dataType, bind_apply_of_read (peek_cons token rest)]
    simp only [kind]
    rfl

section Declarations

variable {bound : Nat}

theorem recovers_variableGroup {group : VariableGroup} (named : group.names ≠ [])
    (small : group.yield.length ≤ bound) :
    Recovers (variableGroup bound) group group.yield (fun _ => True) := by
  simp only [VariableGroup.yield, List.length_append] at small
  have count := count_le_length_commaSeparated (fun name => [Terminal.identifier name]) group.names
  intro tokens rest passes _
  simp only [VariableGroup.yield, passes_append_iff] at passes
  obtain ⟨second, ⟨first, typed, names⟩, semicolon⟩ := passes
  have name : ∀ name ∈ group.names,
      Recovers (identifier .variableName) name [.identifier name] (fun _ => True) :=
    fun _ _ _ _ passes _ => identifier_eq_read_iff.mpr passes
  have read : separated bound (identifier .variableName) first = .read group.names second := by
    refine Recovers.separated named (by omega) name trivial names ⟨?_, trivial⟩
    simp [semicolon.nextKind_eq, Terminal.kind]
  rw [variableGroup, bind_apply_of_read (recovers_dataType group.type typed trivial),
    bind_apply_of_read read, bind_apply_of_read (symbol_of_passes semicolon)]
  rfl

theorem recovers_classVariables {declaration : ClassVariableGroup}
    (named : declaration.group.names ≠ []) (small : declaration.yield.length ≤ bound) :
    Recovers (classVariables bound) (some declaration) declaration.yield (fun _ => True) := by
  rw [ClassVariableGroup.yield, List.length_cons] at small
  intro tokens rest passes _
  obtain ⟨middle, word, others⟩ := passes_cons_iff.mp passes
  have opened : classVariableKind? (nextKind tokens) = some declaration.kind := by
    rw [passes.nextKind_eq]
    exact ClassVariableKind.ofKeyword?_eq_some_iff.mpr rfl
  rw [classVariables, bind_apply_of_read (peekKind_apply tokens), opened]
  simp only
  rw [bind_apply_of_read (skip_of_passes word),
    bind_apply_of_read (recovers_variableGroup named (by omega) others trivial)]
  rfl

theorem recovers_localVariables {group : VariableGroup} (named : group.names ≠ [])
    (small : group.yieldLocal.length ≤ bound) :
    Recovers (localVariables bound) (some group) group.yieldLocal (fun _ => True) := by
  rw [VariableGroup.yieldLocal, List.length_cons] at small
  intro tokens rest passes _
  obtain ⟨middle, word, others⟩ := passes_cons_iff.mp passes
  have accepted : accept (.keyword .var) tokens = .read true middle := accept_of_passes word
  rw [localVariables, bind_apply_of_read accepted, if_pos rfl,
    bind_apply_of_read (recovers_variableGroup named (by omega) others trivial)]
  rfl

theorem recovers_parameter (value : Variable) :
    Recovers parameter value value.yield (fun _ => True) := by
  intro tokens rest passes _
  obtain ⟨first, typed, named⟩ := passes_append_iff.mp passes
  rw [parameter, bind_apply_of_read (recovers_dataType value.type typed trivial),
    bind_apply_of_read (identifier_eq_read_iff.mpr named)]
  rfl

theorem recovers_resultType (value : Option DataType) :
    Recovers resultType value (yieldResult value) (fun _ => True) := by
  intro tokens rest passes _
  cases value with
  | none =>
    have accepted : accept (.keyword .void) tokens = .read true rest := accept_of_passes passes
    rw [resultType, bind_apply_of_read accepted]
    rfl
  | some type =>
    have present : nextKind tokens ≠ some (.keyword .void) := by
      rw [passes.nextKind_eq]
      cases type <;> simp [yieldResult, DataType.yield, Terminal.kind]
    rw [resultType, bind_apply_of_read (accept_of_nextKind_ne present), if_neg Bool.false_ne_true,
      bind_apply_of_read (recovers_dataType type passes trivial)]
    rfl

/-- What follows the locals of a body is no further declaration. -/
theorem nextKind_ne_var {values : List Statement} {tokens middle rest : List Token}
    (passes : Passes tokens (yieldStatements values) middle)
    (closing : Passes middle [.symbol .rightBrace] rest) :
    nextKind tokens ≠ some (.keyword .var) := by
  rw [passes.nextKind_eq, closing.nextKind_eq]
  cases values with
  | nil => simp [yieldStatements, firstKind, Terminal.kind]
  | cons value others =>
    obtain ⟨word, first, starts⟩ := exists_firstKind_statement value
    rw [yieldStatements, firstKind_append, first]
    intro same
    cases same
    cases starts

/-- Declarations that stop wherever they end are read one after the other. -/
theorem recovers_declarations {α : Type} {item : Parser (Option α)} {values : List α}
    {final : Option TokenKind → Prop} (yield : α → List Terminal)
    (nonempty : ∀ value ∈ values, yield value ≠ [])
    (small : (values.flatMap yield).length ≤ bound)
    (present : ∀ value ∈ values, (yield value).length ≤ bound →
      Recovers item (some value) (yield value) (fun _ => True))
    (absent : ∀ tokens, final (nextKind tokens) → item tokens = .read none tokens) :
    Recovers (many bound item) values (values.flatMap yield) final := by
  have count := count_le_length_flatMap yield nonempty
  refine Recovers.many (by omega) ?_ (fun _ _ _ => trivial) (fun _ _ => trivial) ?_
  · intro value member
    have part := length_le_length_flatMap yield member
    exact present value member (by omega)
  · intro tokens rest passes ends
    cases passes
    exact absent tokens ends

theorem recovers_subroutineBody {body : SubroutineBody}
    (named : ∀ group ∈ body.locals, group.names ≠ []) (small : body.yield.length ≤ bound) :
    Recovers (subroutineBody bound) body body.yield (fun _ => True) := by
  simp only [SubroutineBody.yield, List.length_append] at small
  have locals : Recovers (many bound (localVariables bound)) body.locals
      (body.locals.flatMap VariableGroup.yieldLocal) (· ≠ some (.keyword .var)) := by
    refine recovers_declarations _ (by simp [VariableGroup.yieldLocal]) (by omega)
      (fun group member => recovers_localVariables (named group member)) ?_
    intro tokens ends
    rw [localVariables, bind_apply_of_read (accept_of_nextKind_ne ends)]
    rfl
  intro tokens rest passes _
  simp only [SubroutineBody.yield, passes_append_iff] at passes
  obtain ⟨third, ⟨second, ⟨first, opening, declared⟩, inside⟩, closing⟩ := passes
  have ends : EndsStatements (nextKind third) := by
    rw [closing.nextKind_eq]
    exact ⟨rfl, by simp [EndsStatement, Terminal.kind]⟩
  rw [subroutineBody, bind_apply_of_read (symbol_of_passes opening),
    bind_apply_of_read (locals declared (nextKind_ne_var inside closing)),
    bind_apply_of_read (recovers_statements bound body.statements (by omega) inside ends),
    bind_apply_of_read (symbol_of_passes closing)]
  rfl

theorem recovers_parameters {values : List Variable}
    (small : (commaSeparated Variable.yield values).length ≤ bound) :
    Recovers (parenthesized bound parameter) values (commaSeparated Variable.yield values)
      (fun kind => kind = some (.symbol .rightParen)) := by
  have count := count_le_length_commaSeparated Variable.yield values
  refine Recovers.parenthesized (by omega) (fun value _ => recovers_parameter value) trivial trivial
    ?_
  intro value _
  rw [Variable.yield, firstKind_append]
  cases value.type <;> exact ⟨_, rfl, by simp [Terminal.kind]⟩

theorem recovers_subroutine {value : Subroutine}
    (named : ∀ group ∈ value.body.locals, group.names ≠ []) (small : value.yield.length ≤ bound) :
    Recovers (subroutine bound) (some value) value.yield (fun _ => True) := by
  simp only [Subroutine.yield, List.length_append] at small
  intro tokens rest passes _
  simp only [Subroutine.yield, passes_append_iff] at passes
  obtain ⟨sixth, ⟨fifth, ⟨fourth, ⟨second, ⟨first, word, typed⟩, front⟩, parameters⟩, closing⟩,
    body⟩ := passes
  obtain ⟨third, called, opening⟩ := passes_cons_iff.mp front
  have opened : subroutineKind? (nextKind tokens) = some value.kind := by
    rw [word.nextKind_eq]
    exact SubroutineKind.ofKeyword?_eq_some_iff.mpr rfl
  rw [subroutine, bind_apply_of_read (peekKind_apply tokens), opened]
  simp only
  rw [bind_apply_of_read (skip_of_passes word),
    bind_apply_of_read (recovers_resultType value.result typed trivial),
    bind_apply_of_read (identifier_eq_read_iff.mpr called),
    bind_apply_of_read (symbol_of_passes opening),
    bind_apply_of_read (recovers_parameters (by omega) parameters closing.nextKind_eq),
    bind_apply_of_read (symbol_of_passes closing),
    bind_apply_of_read (recovers_subroutineBody named (by omega) body trivial)]
  rfl

end Declarations

section Classes

variable {bound : Nat} {declaration : ClassDeclaration}

theorem recovers_classVariableGroups (named : declaration.NamesVariables)
    (small : (declaration.variableGroups.flatMap ClassVariableGroup.yield).length ≤ bound) :
    Recovers (many bound (classVariables bound)) declaration.variableGroups
      (declaration.variableGroups.flatMap ClassVariableGroup.yield)
      (classVariableKind? · = none) := by
  refine recovers_declarations _ (by simp [ClassVariableGroup.yield]) small
    (fun group member => recovers_classVariables (named.1 group member)) ?_
  intro tokens ends
  rw [classVariables, bind_apply_of_read (peekKind_apply tokens), ends]
  rfl

theorem recovers_subroutines (named : declaration.NamesVariables)
    (small : (declaration.subroutines.flatMap Subroutine.yield).length ≤ bound) :
    Recovers (many bound (subroutine bound)) declaration.subroutines
      (declaration.subroutines.flatMap Subroutine.yield) (subroutineKind? · = none) := by
  refine recovers_declarations _ (by simp [Subroutine.yield]) small
    (fun value member => recovers_subroutine (named.2 value member)) ?_
  intro tokens ends
  rw [subroutine, bind_apply_of_read (peekKind_apply tokens), ends]
  rfl

theorem recovers_classDeclaration (named : declaration.NamesVariables)
    (small : declaration.yield.length ≤ bound) :
    Recovers (classDeclaration bound) declaration declaration.yield (fun _ => True) := by
  simp only [ClassDeclaration.yield, List.length_append] at small
  intro tokens rest passes _
  simp only [ClassDeclaration.yield, passes_append_iff] at passes
  obtain ⟨fifth, ⟨fourth, ⟨third, front, groups⟩, subroutines⟩, closing⟩ := passes
  obtain ⟨first, word, front⟩ := passes_cons_iff.mp front
  obtain ⟨second, called, opening⟩ := passes_cons_iff.mp front
  have last : subroutineKind? (nextKind fifth) = none := by
    rw [closing.nextKind_eq]
    rfl
  have behind : classVariableKind? (nextKind fourth) = none := by
    rw [subroutines.nextKind_eq, closing.nextKind_eq]
    cases declaration.subroutines with
    | nil => rfl
    | cons subroutine others =>
      rw [List.flatMap_cons, firstKind_append]
      cases kind : subroutine.kind <;>
        simp [Subroutine.yield, kind, SubroutineKind.keyword, Terminal.kind, classVariableKind?,
          ClassVariableKind.ofKeyword?]
  rw [classDeclaration, bind_apply_of_read (keyword_of_passes word),
    bind_apply_of_read (identifier_eq_read_iff.mpr called),
    bind_apply_of_read (symbol_of_passes opening),
    bind_apply_of_read (recovers_classVariableGroups named (by omega) groups behind),
    bind_apply_of_read (recovers_subroutines named (by omega) subroutines last),
    bind_apply_of_read (symbol_of_passes closing)]
  rfl

/-- A class is parsed from any tokens in which it is written. -/
theorem parseClass_of_forall₂ {tokens : List Token} (named : declaration.NamesVariables)
    (written : List.Forall₂ Token.Is tokens declaration.yield) :
    parseClass tokens = .ok declaration := by
  have passes : Passes tokens declaration.yield [] := by
    rw [← tokens.append_nil]
    exact Passes.of_forall₂ written
  have enough : declaration.yield.length ≤ tokens.length + 1 := by
    rw [written.length_eq]
    omega
  have read : run compilationUnit (Cursor.ofTokens tokens).unread = .read declaration [] := by
    change compilationUnit (tokens.length + 1) tokens = .read declaration []
    rw [compilationUnit, bind_apply_of_read (recovers_classDeclaration named enough passes trivial)]
    rfl
  rw [parseClass, Cursor.parse, read]

end Classes

/-- A class in which every declaration of variables declares one can be written as tokens, it is parsed
from all tokens in which it can be written, and no other such class is written in the same way. -/
theorem parseClass_recovers_declaration {declaration : ClassDeclaration}
    (named : declaration.NamesVariables) :
    (∃ tokens, List.Forall₂ Token.Is tokens declaration.yield) ∧
    (∀ tokens, List.Forall₂ Token.Is tokens declaration.yield →
      parseClass tokens = .ok declaration) ∧
    ∀ other : ClassDeclaration, other.NamesVariables → other.yield = declaration.yield →
      other = declaration := by
  obtain ⟨tokens, written⟩ := exists_tokens declaration.yield
  refine ⟨⟨tokens, written⟩, fun _ => parseClass_of_forall₂ named, ?_⟩
  intro other otherNamed same
  -- Both classes are parsed from the same tokens.
  have parsed := parseClass_of_forall₂ named written
  rw [← same] at written
  have again := parseClass_of_forall₂ otherNamed written
  rw [parsed] at again
  exact (Except.ok.inj again).symm

/-- An alternative belongs to the inner of two conditionals, and a difference has a negated operand. -/
theorem parseClass_recovers_conditionals :
    let x : Expression := .term (.name "x")
    let difference : Expression := .binary x .subtract (.unary .negate (.element "a" x))
    let inner : Statement := .ifElse x [] [.assign "x" difference]
    let choose : Subroutine :=
      ⟨.method, none, "choose", [⟨.int, "x"⟩], ⟨[⟨.object "Array", ["a", "b"]⟩],
        [.ifThen (.term (.group x)) [inner], .perform (.mk (some "b") "dispose" [difference]),
          .return none]⟩⟩
    let declaration : ClassDeclaration := ⟨"Main", [⟨.static, ⟨.int, ["count"]⟩⟩], [choose]⟩
    declaration.NamesVariables ∧
      ∃ tokens, List.Forall₂ Token.Is tokens declaration.yield ∧
        parseClass tokens = .ok declaration := by
  intro x difference inner choose declaration
  have named : declaration.NamesVariables := ⟨by decide, by decide⟩
  obtain ⟨⟨tokens, written⟩, parsed, _⟩ := parseClass_recovers_declaration named
  exact ⟨named, tokens, written, parsed tokens written⟩

end Grammar

end Jack
