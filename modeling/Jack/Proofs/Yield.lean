import Jack.Text.Decimal
import Jack.Token.Basic
import Jack.Tree.Class
import Mathlib.Data.List.Induction

/-!
# The tokens that trees stand for

Every tree yields a sequence of terminals: the tokens in which it is written, in the order of the
grammar and with all keywords and punctuation. A terminal says what a token has to be. Where the token
stands in its source is left open, and so is the way in which the digits of a number are written.
-/

namespace Jack

namespace Text

/-- A text denotes a number: it consists of digits, after a plus sign or not, with that value. -/
def Denotes (text : String) (number : Nat) : Prop :=
  ∃ digits, (text.toList = digits ∨ text.toList = '+' :: digits) ∧ digits ≠ [] ∧
    (∀ c ∈ digits, isDigit c) ∧ digitsValue digits = number

/-- Digits are read as their value. -/
theorem readDigits?_eq_some_iff {text : List Char} {number : Nat} :
    readDigits? text = some number ↔
      text ≠ [] ∧ (∀ c ∈ text, isDigit c) ∧ digitsValue text = number := by
  simp [readDigits?, and_assoc]

/-- Exactly the texts that denote a number up to the bound are read. -/
theorem readUnsigned?_eq_some_iff {bound number : Nat} {text : String} :
    readUnsigned? bound text = some number ↔ Denotes text number ∧ number ≤ bound := by
  unfold readUnsigned? Denotes
  rw [Option.filter_eq_some_iff, decide_eq_true_eq]
  refine and_congr_left fun _ => ?_
  split
  case h_1 digits signed =>
    rw [readDigits?_eq_some_iff]
    constructor
    · exact fun read => ⟨digits, .inr signed, read⟩
    · rintro ⟨others, same | same, nonempty, all, value⟩
      · -- A plus sign is no digit.
        have plus : isDigit '+' := all '+' (by simp [← same, signed])
        simp [isDigit] at plus
      · rw [signed, List.cons.injEq] at same
        rw [same.2]
        exact ⟨nonempty, all, value⟩
  case h_2 unsigned =>
    rw [readDigits?_eq_some_iff]
    constructor
    · exact fun read => ⟨_, .inl rfl, read⟩
    · rintro ⟨digits, rfl | same, read⟩
      · exact read
      · exact absurd same (unsigned digits)

/-- The usual digits of a number are read as that number. -/
theorem readDigits?_toString (number : Nat) : readDigits? (toString number).toList = some number := by
  rw [readDigits?_eq_some_iff, Nat.toString_eq_ofList_toDigits, String.toList_ofList]
  refine ⟨Nat.toDigits_ne_nil, ?_, Nat.ofDigitChars_toDigits (by omega) (by omega)⟩
  intro c member
  have digit := Nat.isDigit_of_mem_toDigits (by omega) (by omega) member
  simpa [isDigit, Char.isDigit, Char.le_def] using digit

/-- The usual digits of a number denote it. -/
theorem denotes_toString (number : Nat) : Denotes (toString number) number :=
  ⟨(toString number).toList, .inl rfl, readDigits?_eq_some_iff.mp (readDigits?_toString number)⟩

end Text

/-- What a token of the grammar has to be. -/
inductive Terminal where
  | keyword (word : Keyword)
  | symbol (mark : Symbol)
  | identifier (name : String)
  | integer (value : UInt16)
  | string (text : String)
deriving DecidableEq

/-- The kind of the tokens that a terminal stands for. -/
def Terminal.kind : Terminal → TokenKind
  | .keyword word => .keyword word
  | .symbol mark => .symbol mark
  | .identifier _ => .identifier
  | .integer _ => .integerConstant
  | .string _ => .stringConstant

/-- A token is a terminal: it has its kind, and the text of a name or string and the value of a number
are the same. -/
def Token.Is (token : Token) (terminal : Terminal) : Prop :=
  token.kind = terminal.kind ∧
    match terminal with
    | .identifier text | .string text => token.text = text
    | .integer value => Text.Denotes token.text value.toNat
    | .keyword _ | .symbol _ => True

/-- Terminals can be written as tokens. -/
theorem exists_tokens (terminals : List Terminal) :
    ∃ tokens, List.Forall₂ Token.Is tokens terminals := by
  induction terminals with
  | nil => exact ⟨[], .nil⟩
  | cons terminal others inductionHypothesis =>
    obtain ⟨tokens, each⟩ := inductionHypothesis
    obtain ⟨text, written⟩ : ∃ text, (⟨terminal.kind, text, ⟨0, 0, 0, 0⟩⟩ : Token).Is terminal := by
      cases terminal with
      | keyword | symbol => exact ⟨"", rfl, trivial⟩
      | identifier text | string text => exact ⟨text, rfl, rfl⟩
      | integer value => exact ⟨toString value.toNat, rfl, Text.denotes_toString value.toNat⟩
    exact ⟨_ :: tokens, .cons written each⟩

/-- What is written between commas. -/
def commaSeparated {α : Type} (yield : α → List Terminal) : List α → List Terminal
  | [] => []
  | first :: others => yield first ++ others.flatMap fun other => .symbol .comma :: yield other

mutual

/-- The terminals of an expression. -/
def Expression.yield : Expression → List Terminal
  | .term only => only.yield
  | .binary left operator right => left.yield ++ (.symbol operator.symbol :: right.yield)

/-- The terminals of a term. -/
def Term.yield : Term → List Terminal
  | .integer value => [.integer value]
  | .string text => [.string text]
  | .constant constant => [.keyword constant.keyword]
  | .name name => [.identifier name]
  | .element array index =>
    [.identifier array, .symbol .leftBracket] ++ index.yield ++ [.symbol .rightBracket]
  | .call call => call.yield
  | .unary operator operand => .symbol operator.symbol :: operand.yield
  | .group inner => [.symbol .leftParen] ++ inner.yield ++ [.symbol .rightParen]

/-- The terminals of a call. -/
def Call.yield : Call → List Terminal
  | .mk none name arguments =>
    [.identifier name, .symbol .leftParen] ++ yieldArguments arguments ++ [.symbol .rightParen]
  | .mk (some receiver) name arguments =>
    [.identifier receiver, .symbol .dot, .identifier name, .symbol .leftParen] ++
      yieldArguments arguments ++ [.symbol .rightParen]

/-- The terminals of the arguments of a call. -/
def yieldArguments : List Expression → List Terminal
  | [] => []
  | first :: others => first.yield ++ yieldOthers others

/-- The terminals of the arguments after the first. -/
def yieldOthers : List Expression → List Terminal
  | [] => []
  | other :: others => .symbol .comma :: (other.yield ++ yieldOthers others)

end

mutual

/-- The terminals of a statement. -/
def Statement.yield : Statement → List Terminal
  | .assign target value =>
    [.keyword .let, .identifier target, .symbol .equal] ++ value.yield ++ [.symbol .semicolon]
  | .assignElement array index value =>
    [.keyword .let, .identifier array, .symbol .leftBracket] ++ index.yield ++
      [.symbol .rightBracket, .symbol .equal] ++ value.yield ++ [.symbol .semicolon]
  | .ifThen condition body =>
    [.keyword .if, .symbol .leftParen] ++ condition.yield ++
      [.symbol .rightParen, .symbol .leftBrace] ++ yieldStatements body ++ [.symbol .rightBrace]
  | .ifElse condition body alternative =>
    [.keyword .if, .symbol .leftParen] ++ condition.yield ++
      [.symbol .rightParen, .symbol .leftBrace] ++ yieldStatements body ++
      [.symbol .rightBrace, .keyword .else, .symbol .leftBrace] ++ yieldStatements alternative ++
      [.symbol .rightBrace]
  | .whileLoop condition body =>
    [.keyword .while, .symbol .leftParen] ++ condition.yield ++
      [.symbol .rightParen, .symbol .leftBrace] ++ yieldStatements body ++ [.symbol .rightBrace]
  | .perform call => [.keyword .do] ++ call.yield ++ [.symbol .semicolon]
  | .return none => [.keyword .return, .symbol .semicolon]
  | .return (some value) => [.keyword .return] ++ value.yield ++ [.symbol .semicolon]

/-- The terminals of statements that follow each other. -/
def yieldStatements : List Statement → List Terminal
  | [] => []
  | statement :: others => statement.yield ++ yieldStatements others

end

/-- The terminals of an expression between parentheses. -/
def yieldCondition (condition : Expression) : List Terminal :=
  [.symbol .leftParen] ++ condition.yield ++ [.symbol .rightParen]

/-- The terminals of statements between braces. -/
def yieldBlock (statements : List Statement) : List Terminal :=
  [.symbol .leftBrace] ++ yieldStatements statements ++ [.symbol .rightBrace]

theorem Statement.yield_ifThen (condition : Expression) (body : List Statement) :
    (Statement.ifThen condition body).yield =
      .keyword .if :: (yieldCondition condition ++ yieldBlock body) := by
  simp [Statement.yield, yieldCondition, yieldBlock]

theorem Statement.yield_ifElse (condition : Expression) (body alternative : List Statement) :
    (Statement.ifElse condition body alternative).yield =
      .keyword .if :: (yieldCondition condition ++ yieldBlock body ++
        (.keyword .else :: yieldBlock alternative)) := by
  simp [Statement.yield, yieldCondition, yieldBlock]

theorem Statement.yield_whileLoop (condition : Expression) (body : List Statement) :
    (Statement.whileLoop condition body).yield =
      .keyword .while :: (yieldCondition condition ++ yieldBlock body) := by
  simp [Statement.yield, yieldCondition, yieldBlock]

/-- The terminal of a type. -/
def DataType.yield : DataType → List Terminal
  | .int => [.keyword .int]
  | .char => [.keyword .char]
  | .boolean => [.keyword .boolean]
  | .object className => [.identifier className]

/-- The terminals of a type and the names declared with it. -/
def VariableGroup.yield (group : VariableGroup) : List Terminal :=
  group.type.yield ++ commaSeparated (fun name => [.identifier name]) group.names ++
    [.symbol .semicolon]

/-- The terminals of a declaration of class variables. -/
def ClassVariableGroup.yield (declaration : ClassVariableGroup) : List Terminal :=
  .keyword declaration.kind.keyword :: declaration.group.yield

/-- The terminals of a declaration of local variables. -/
def VariableGroup.yieldLocal (group : VariableGroup) : List Terminal :=
  .keyword .var :: group.yield

/-- The terminals of a parameter. -/
def Variable.yield (parameter : Variable) : List Terminal :=
  parameter.type.yield ++ [.identifier parameter.name]

/-- The terminal of the type of a result. -/
def yieldResult : Option DataType → List Terminal
  | none => [.keyword .void]
  | some type => type.yield

/-- The terminals of the body of a subroutine. -/
def SubroutineBody.yield (body : SubroutineBody) : List Terminal :=
  [.symbol .leftBrace] ++ body.locals.flatMap VariableGroup.yieldLocal ++
    yieldStatements body.statements ++ [.symbol .rightBrace]

/-- The terminals of a subroutine. -/
def Subroutine.yield (subroutine : Subroutine) : List Terminal :=
  [.keyword subroutine.kind.keyword] ++ yieldResult subroutine.result ++
    [.identifier subroutine.name, .symbol .leftParen] ++
    commaSeparated Variable.yield subroutine.parameters ++ [.symbol .rightParen] ++
    subroutine.body.yield

/-- The terminals of a class. -/
def ClassDeclaration.yield (declaration : ClassDeclaration) : List Terminal :=
  [.keyword .class, .identifier declaration.name, .symbol .leftBrace] ++
    declaration.variableGroups.flatMap ClassVariableGroup.yield ++
    declaration.subroutines.flatMap Subroutine.yield ++ [.symbol .rightBrace]

/-- An operator between terms is denoted by its own symbol alone. -/
theorem BinaryOperator.ofSymbol?_eq_some_iff {mark : Symbol} {operator : BinaryOperator} :
    ofSymbol? mark = some operator ↔ mark = operator.symbol := by
  constructor
  · intro denotes
    unfold ofSymbol? at denotes
    split at denotes <;> cases denotes <;> rfl
  · rintro rfl
    exact ofSymbol?_symbol operator

/-- An operator in front of a term is denoted by its own symbol alone. -/
theorem UnaryOperator.ofSymbol?_eq_some_iff {mark : Symbol} {operator : UnaryOperator} :
    ofSymbol? mark = some operator ↔ mark = operator.symbol := by
  constructor
  · intro denotes
    unfold ofSymbol? at denotes
    split at denotes <;> cases denotes <;> rfl
  · rintro rfl
    exact ofSymbol?_symbol operator

/-- A constant is denoted by its own keyword alone. -/
theorem KeywordConstant.ofKeyword?_eq_some_iff {word : Keyword} {constant : KeywordConstant} :
    ofKeyword? word = some constant ↔ word = constant.keyword := by
  constructor
  · intro denotes
    unfold ofKeyword? at denotes
    split at denotes <;> cases denotes <;> rfl
  · rintro rfl
    exact ofKeyword?_keyword constant

/-- A declaration of class variables is opened by the keyword of its kind alone. -/
theorem ClassVariableKind.ofKeyword?_eq_some_iff {word : Keyword} {kind : ClassVariableKind} :
    ofKeyword? word = some kind ↔ word = kind.keyword := by
  constructor
  · intro opens
    unfold ofKeyword? at opens
    split at opens <;> cases opens <;> rfl
  · rintro rfl
    cases kind <;> rfl

/-- A subroutine is opened by the keyword of its kind alone. -/
theorem SubroutineKind.ofKeyword?_eq_some_iff {word : Keyword} {kind : SubroutineKind} :
    ofKeyword? word = some kind ↔ word = kind.keyword := by
  constructor
  · intro opens
    unfold ofKeyword? at opens
    split at opens <;> cases opens <;> rfl
  · rintro rfl
    cases kind <;> rfl

/-- The terminals of an operator and the term on its right. -/
def yieldOperation (operation : BinaryOperator × Term) : List Terminal :=
  .symbol operation.1.symbol :: operation.2.yield

/-- A chain is written as its first term and then its operations. -/
theorem Expression.yield_chain (first : Term) (operations : List (BinaryOperator × Term)) :
    (Expression.chain first operations).yield =
      first.yield ++ operations.flatMap yieldOperation := by
  -- The chain groups to the left, so its last operation is the outermost.
  induction operations using List.reverseRecOn with
  | nil => simp [Expression.chain, Expression.yield]
  | append_singleton operations last inductionHypothesis =>
    have grouped : Expression.chain first (operations ++ [last]) =
        .binary (.chain first operations) last.1 last.2 := by
      simp [Expression.chain]
    rw [grouped, Expression.yield, inductionHypothesis]
    simp [yieldOperation]

/-- Arguments are written with commas between them. -/
theorem yieldArguments_eq (arguments : List Expression) :
    yieldArguments arguments = commaSeparated Expression.yield arguments := by
  have others : ∀ arguments, yieldOthers arguments =
      arguments.flatMap fun other => .symbol .comma :: other.yield := by
    intro arguments
    induction arguments with
    | nil => rfl
    | cons other rest inductionHypothesis =>
      rw [yieldOthers, inductionHypothesis, List.flatMap_cons, List.cons_append]
  cases arguments with
  | nil => rfl
  | cons first rest => rw [yieldArguments, commaSeparated, others]

/-- Statements are written one after the other. -/
theorem yieldStatements_eq (statements : List Statement) :
    yieldStatements statements = statements.flatMap Statement.yield := by
  induction statements with
  | nil => rfl
  | cons statement rest inductionHypothesis =>
    rw [yieldStatements, inductionHypothesis, List.flatMap_cons]

/-- Every statement begins with a keyword. -/
theorem Statement.yield_ne_nil (statement : Statement) : statement.yield ≠ [] := by
  cases statement with
  | «return» value => cases value <;> simp [Statement.yield]
  | _ => simp [Statement.yield]

end Jack
