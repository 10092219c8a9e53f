import Jack.Tree.Class

/-!
# What occurs in expressions and statements

The names that a scope has to give a meaning to, and the sizes of the argument lists, at any depth.
-/

namespace Jack

mutual

/-- The names in an expression that stand for variables or receivers, from left to right. -/
def Expression.names : Expression → List String
  | .term only => only.names
  | .binary left _ right => left.names ++ right.names

/-- The names in a term that stand for variables or receivers. -/
def Term.names : Term → List String
  | .integer _ | .string _ | .constant _ => []
  | .name name => [name]
  | .element array index => array :: index.names
  | .call call => call.names
  | .unary _ operand => operand.names
  | .group inner => inner.names

/-- The receiver of a call and the names in its arguments. -/
def Call.names : Call → List String
  | .mk receiver _ arguments => receiver.toList ++ argumentNames arguments

/-- The names in the arguments of a call. -/
def argumentNames : List Expression → List String
  | [] => []
  | argument :: rest => argument.names ++ argumentNames rest

end

mutual

/-- How many arguments each call in an expression has. -/
def Expression.callSizes : Expression → List Nat
  | .term only => only.callSizes
  | .binary left _ right => left.callSizes ++ right.callSizes

/-- How many arguments each call in a term has. -/
def Term.callSizes : Term → List Nat
  | .integer _ | .string _ | .constant _ | .name _ => []
  | .element _ index => index.callSizes
  | .call call => call.callSizes
  | .unary _ operand => operand.callSizes
  | .group inner => inner.callSizes

/-- How many arguments a call and each call inside it have. -/
def Call.callSizes : Call → List Nat
  | .mk _ _ arguments => arguments.length :: argumentCallSizes arguments

/-- How many arguments each call in the arguments of a call has. -/
def argumentCallSizes : List Expression → List Nat
  | [] => []
  | argument :: rest => argument.callSizes ++ argumentCallSizes rest

end

mutual

/-- The names in a statement that stand for variables or receivers. -/
def Statement.names : Statement → List String
  | .assign target value => target :: value.names
  | .assignElement array index value => array :: (index.names ++ value.names)
  | .ifThen condition body => condition.names ++ statementNames body
  | .ifElse condition body alternative =>
    condition.names ++ statementNames body ++ statementNames alternative
  | .whileLoop condition body => condition.names ++ statementNames body
  | .perform call => call.names
  | .return none => []
  | .return (some value) => value.names

/-- The names in statements that stand for variables or receivers. -/
def statementNames : List Statement → List String
  | [] => []
  | statement :: rest => statement.names ++ statementNames rest

end

mutual

/-- How many arguments each call in a statement has. -/
def Statement.callSizes : Statement → List Nat
  | .assign _ value => value.callSizes
  | .assignElement _ index value => index.callSizes ++ value.callSizes
  | .ifThen condition body => condition.callSizes ++ statementCallSizes body
  | .ifElse condition body alternative =>
    condition.callSizes ++ statementCallSizes body ++ statementCallSizes alternative
  | .whileLoop condition body => condition.callSizes ++ statementCallSizes body
  | .perform call => call.callSizes
  | .return none => []
  | .return (some value) => value.callSizes

/-- How many arguments each call in statements has. -/
def statementCallSizes : List Statement → List Nat
  | [] => []
  | statement :: rest => statement.callSizes ++ statementCallSizes rest

end

end Jack
