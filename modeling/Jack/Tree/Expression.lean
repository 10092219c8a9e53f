import Jack.Token.Word

/-!
# Expressions

All binary operators share one precedence level and group to the left, so an expression is a term
or a shorter expression, an operator and a term.
-/

namespace Jack

/-- The operators between two terms. -/
inductive BinaryOperator where
  | add | subtract | multiply | divide | and | or | less | greater | equal
deriving DecidableEq

namespace BinaryOperator

/-- The symbol that an operator is written with. -/
def symbol : BinaryOperator → Symbol
  | .add => .plus
  | .subtract => .minus
  | .multiply => .star
  | .divide => .slash
  | .and => .ampersand
  | .or => .pipe
  | .less => .less
  | .greater => .greater
  | .equal => .equal

/-- The operator that a symbol denotes between two terms. -/
def ofSymbol? : Symbol → Option BinaryOperator
  | .plus => some .add
  | .minus => some .subtract
  | .star => some .multiply
  | .slash => some .divide
  | .ampersand => some .and
  | .pipe => some .or
  | .less => some .less
  | .greater => some .greater
  | .equal => some .equal
  | _ => none

/-- An operator is found again by its symbol. -/
@[simp] theorem ofSymbol?_symbol (operator : BinaryOperator) :
    ofSymbol? operator.symbol = some operator := by
  cases operator <;> rfl

end BinaryOperator

/-- The operators in front of a term. -/
inductive UnaryOperator where
  | negate | complement
deriving DecidableEq

namespace UnaryOperator

/-- The symbol that an operator is written with. -/
def symbol : UnaryOperator → Symbol
  | .negate => .minus
  | .complement => .tilde

/-- The operator that a symbol denotes in front of a term. -/
def ofSymbol? : Symbol → Option UnaryOperator
  | .minus => some .negate
  | .tilde => some .complement
  | _ => none

/-- An operator is found again by its symbol. -/
@[simp] theorem ofSymbol?_symbol (operator : UnaryOperator) :
    ofSymbol? operator.symbol = some operator := by
  cases operator <;> rfl

end UnaryOperator

/-- The terms that consist of a keyword. -/
inductive KeywordConstant where
  | true | false | null | this
deriving DecidableEq

namespace KeywordConstant

/-- The keyword that a constant is written with. -/
def keyword : KeywordConstant → Keyword
  | .true => .true
  | .false => .false
  | .null => .null
  | .this => .this

/-- The constant that a keyword denotes as a term. -/
def ofKeyword? : Keyword → Option KeywordConstant
  | .true => some .true
  | .false => some .false
  | .null => some .null
  | .this => some .this
  | _ => none

/-- A constant is found again by its keyword. -/
@[simp] theorem ofKeyword?_keyword (constant : KeywordConstant) :
    ofKeyword? constant.keyword = some constant := by
  cases constant <;> rfl

end KeywordConstant

mutual

/-- Terms joined by operators that group to the left. -/
inductive Expression where
  | term (term : Term)
  | binary (left : Expression) (operator : BinaryOperator) (right : Term)

/-- The operands of expressions. -/
inductive Term where
  | integer (value : UInt16)
  | string (text : String)
  | constant (constant : KeywordConstant)
  | name (name : String)
  | element (array : String) (index : Expression)
  | call (call : Call)
  | unary (operator : UnaryOperator) (operand : Term)
  | group (inner : Expression)

/-- A call of a subroutine. Whether the receiver names a variable or a class is settled by the
scope of the call. -/
inductive Call where
  | mk (receiver : Option String) (name : String) (arguments : List Expression)

end

namespace Expression

/-- A first term followed by operators and terms. -/
def chain (first : Term) (operations : List (BinaryOperator × Term)) : Expression :=
  operations.foldl (fun left operation => .binary left operation.1 operation.2) (.term first)

/-- The first term of an expression. -/
def first : Expression → Term
  | .term only => only
  | .binary left _ _ => left.first

/-- The operators of an expression, each with the term on its right, from left to right. -/
def operations : Expression → List (BinaryOperator × Term)
  | .term _ => []
  | .binary left operator right => left.operations ++ [(operator, right)]

/-- An expression is the chain of its terms and operators. -/
@[simp] theorem chain_first_operations (expression : Expression) :
    chain expression.first expression.operations = expression := by
  cases expression with
  | term => rfl
  | binary left operator right =>
    have shorter := chain_first_operations left
    simp only [chain] at shorter
    simp [chain, first, operations, List.foldl_append, shorter]

end Expression

end Jack
