import Jack.Markup.Tree
import Jack.Proofs.Yield

/-!
# The leaves of markup

The markup of a class is made from the tree alone, but its leaves are the terminals of the class, in
order: each rule that writes an element mirrors the production that reads it.
-/

namespace Jack

namespace Markup

mutual

/-- The leaves of a tree from left to right, each with its tag and its text. -/
def leaves : Markup → List (String × String)
  | .leaf tag text => [(tag, text)]
  | .element _ children => childLeaves children

/-- The leaves of trees that stand next to each other. -/
def childLeaves : List Markup → List (String × String)
  | [] => []
  | child :: rest => child.leaves ++ childLeaves rest

end

@[simp] theorem leaves_element (tag : String) (children : List Markup) :
    (element tag children).leaves = childLeaves children := by
  rw [leaves]

@[simp] theorem childLeaves_nil : childLeaves [] = [] := rfl

@[simp] theorem childLeaves_cons (child : Markup) (rest : List Markup) :
    childLeaves (child :: rest) = child.leaves ++ childLeaves rest := by
  rw [childLeaves]

@[simp] theorem childLeaves_append (first second : List Markup) :
    childLeaves (first ++ second) = childLeaves first ++ childLeaves second := by
  induction first with
  | nil => rfl
  | cons child rest inductionHypothesis =>
    rw [List.cons_append, childLeaves_cons, inductionHypothesis, childLeaves_cons,
      List.append_assoc]

/-- A comma stands before each group but the first. -/
theorem separated_cons (first : List Markup) (others : List (List Markup)) :
    separated (first :: others) =
      first ++ others.flatMap fun other => ofSymbol .comma :: other := by
  induction others generalizing first with
  | nil => rw [separated, List.flatMap_nil, List.append_nil]
  | cons second others inductionHypothesis =>
    rw [separated, inductionHypothesis, List.flatMap_cons, List.cons_append]
    exact List.cons_ne_nil _ _

end Markup

open Markup

/-- The text of the leaf that stands for a terminal. -/
def Terminal.text : Terminal → String
  | .keyword word => word.spelling
  | .symbol mark => mark.spelling
  | .identifier text | .string text => text
  | .integer value => toString value.toNat

/-- The leaf that stands for a terminal. -/
def Terminal.leaf (terminal : Terminal) : String × String :=
  (terminal.kind.tag, terminal.text)

section Leaves

@[simp] theorem leaves_ofKeyword (word : Keyword) :
    (ofKeyword word).leaves = [(Terminal.keyword word).leaf] := by
  rw [ofKeyword, leaves]
  rfl

@[simp] theorem leaves_ofSymbol (mark : Symbol) :
    (ofSymbol mark).leaves = [(Terminal.symbol mark).leaf] := by
  rw [ofSymbol, leaves]
  rfl

@[simp] theorem leaves_ofName (name : String) :
    (ofName name).leaves = [(Terminal.identifier name).leaf] := by
  rw [ofName, leaves]
  rfl

/-- Groups between commas have the leaves of what is written between commas. -/
theorem childLeaves_separated {α : Type} {markup : α → List Markup} {yield : α → List Terminal}
    {values : List α}
    (each : ∀ value ∈ values, childLeaves (markup value) = (yield value).map Terminal.leaf) :
    childLeaves (separated (values.map markup)) =
      (commaSeparated yield values).map Terminal.leaf := by
  cases values with
  | nil => rfl
  | cons first others =>
    rw [List.forall_mem_cons] at each
    obtain ⟨head, each⟩ := each
    rw [List.map_cons, separated_cons, childLeaves_append, head, commaSeparated, List.map_append]
    congr 1
    induction others with
    | nil => rfl
    | cons other others inductionHypothesis =>
      rw [List.forall_mem_cons] at each
      simp [each.1, inductionHypothesis each.2]

end Leaves

section Expressions

/-- The arguments of a call are elements of their own. -/
theorem argumentMarkup_eq (arguments : List Expression) :
    argumentMarkup arguments = arguments.map fun argument => [argument.markup] := by
  induction arguments with
  | nil => rfl
  | cons argument rest inductionHypothesis =>
    rw [argumentMarkup, inductionHypothesis]
    rfl

mutual

/-- The terms and operators of an expression have the leaves of its terminals. -/
theorem Expression.childLeaves_operandMarkup (expression : Expression) :
    childLeaves expression.operandMarkup = expression.yield.map Terminal.leaf := by
  cases expression with
  | term only => simp [Expression.operandMarkup, Expression.yield, only.leaves_markup]
  | binary left operator right =>
    simp [Expression.operandMarkup, Expression.yield, left.childLeaves_operandMarkup,
      right.leaves_markup]

theorem Term.leaves_markup (term : Term) :
    term.markup.leaves = term.yield.map Terminal.leaf := by
  cases term with
  | integer value | string text =>
    simp [Term.markup, Term.yield, leaves]
    rfl
  | constant value => simp [Term.markup, Term.yield]
  | name name => simp [Term.markup, Term.yield]
  | element array index =>
    simp [Term.markup, Term.yield, expressionElement, index.childLeaves_operandMarkup]
  | call call => simp [Term.markup, Term.yield, call.childLeaves_markup]
  | unary operator operand => simp [Term.markup, Term.yield, operand.leaves_markup]
  | group inner =>
    simp [Term.markup, Term.yield, expressionElement, inner.childLeaves_operandMarkup]

theorem Call.childLeaves_markup (call : Call) :
    childLeaves call.markup = call.yield.map Terminal.leaf := by
  cases call with
  | mk receiver name arguments =>
    have inside := childLeaves_separated (childLeaves_arguments arguments)
    rw [← argumentMarkup_eq, ← yieldArguments_eq] at inside
    cases receiver with
    | none => simp [Call.markup, Call.yield, inside]
    | some receiver => simp [Call.markup, Call.yield, inside]

theorem childLeaves_arguments (arguments : List Expression) :
    ∀ argument ∈ arguments, childLeaves [argument.markup] = argument.yield.map Terminal.leaf := by
  cases arguments with
  | nil => exact List.forall_mem_nil _
  | cons argument rest =>
    rw [List.forall_mem_cons]
    refine ⟨?_, childLeaves_arguments rest⟩
    simp [Expression.markup, expressionElement, argument.childLeaves_operandMarkup]

end

@[simp] theorem Expression.leaves_markup (expression : Expression) :
    expression.markup.leaves = expression.yield.map Terminal.leaf := by
  rw [Expression.markup, expressionElement, leaves_element, expression.childLeaves_operandMarkup]

end Expressions

section Statements

mutual

theorem Statement.leaves_markup (statement : Statement) :
    statement.markup.leaves = statement.yield.map Terminal.leaf := by
  cases statement with
  | assign target value => simp [Statement.markup, Statement.yield]
  | assignElement array index value => simp [Statement.markup, Statement.yield]
  | ifThen condition body =>
    simp [Statement.markup, Statement.yield, childLeaves_statementMarkup body]
  | ifElse condition body alternative =>
    simp [Statement.markup, Statement.yield, childLeaves_statementMarkup body,
      childLeaves_statementMarkup alternative]
  | whileLoop condition body =>
    simp [Statement.markup, Statement.yield, childLeaves_statementMarkup body]
  | perform call => simp [Statement.markup, Statement.yield, call.childLeaves_markup]
  | «return» value =>
    cases value with
    | none => simp [Statement.markup, Statement.yield]
    | some value => simp [Statement.markup, Statement.yield]

/-- The elements of statements have the leaves of their terminals. -/
theorem childLeaves_statementMarkup (statements : List Statement) :
    childLeaves (statementMarkup statements) =
      (yieldStatements statements).map Terminal.leaf := by
  cases statements with
  | nil => rfl
  | cons statement rest =>
    rw [statementMarkup, childLeaves_cons, statement.leaves_markup,
      childLeaves_statementMarkup rest, yieldStatements, List.map_append]

end

end Statements

section Classes

/-- Elements that follow each other have the leaves of what they are made of. -/
theorem childLeaves_map {α : Type} {markup : α → Markup} {yield : α → List Terminal}
    (each : ∀ value, (markup value).leaves = (yield value).map Terminal.leaf) (values : List α) :
    childLeaves (values.map markup) = (values.flatMap yield).map Terminal.leaf := by
  induction values with
  | nil => rfl
  | cons value values inductionHypothesis =>
    rw [List.map_cons, childLeaves_cons, each, inductionHypothesis, List.flatMap_cons,
      List.map_append]

@[simp] theorem DataType.leaves_markup (type : DataType) :
    type.markup.leaves = type.yield.map Terminal.leaf := by
  cases type <;> simp [DataType.markup, DataType.yield]

theorem VariableGroup.childLeaves_markup (group : VariableGroup) :
    childLeaves group.markup = group.yield.map Terminal.leaf := by
  have names : childLeaves (separated (group.names.map fun name => [ofName name])) =
      (commaSeparated (fun name => [.identifier name]) group.names).map Terminal.leaf :=
    childLeaves_separated fun name _ => by simp
  simp [VariableGroup.markup, VariableGroup.yield, names]

theorem ClassVariableGroup.leaves_markup (declaration : ClassVariableGroup) :
    declaration.markup.leaves = declaration.yield.map Terminal.leaf := by
  simp [ClassVariableGroup.markup, ClassVariableGroup.yield, declaration.group.childLeaves_markup]

theorem VariableGroup.leaves_localMarkup (group : VariableGroup) :
    group.localMarkup.leaves = group.yieldLocal.map Terminal.leaf := by
  simp [VariableGroup.localMarkup, VariableGroup.yieldLocal, group.childLeaves_markup]

theorem SubroutineBody.leaves_markup (body : SubroutineBody) :
    body.markup.leaves = body.yield.map Terminal.leaf := by
  have locals := childLeaves_map VariableGroup.leaves_localMarkup body.locals
  simp [SubroutineBody.markup, SubroutineBody.yield, locals, childLeaves_statementMarkup]

theorem leaves_resultMarkup (result : Option DataType) :
    (resultMarkup result).leaves = (yieldResult result).map Terminal.leaf := by
  cases result <;> simp [resultMarkup, yieldResult]

theorem Subroutine.leaves_markup (subroutine : Subroutine) :
    subroutine.markup.leaves = subroutine.yield.map Terminal.leaf := by
  have parameters : childLeaves (separated (subroutine.parameters.map fun parameter =>
      [parameter.type.markup, ofName parameter.name])) =
      (commaSeparated Variable.yield subroutine.parameters).map Terminal.leaf :=
    childLeaves_separated fun parameter _ => by simp [Variable.yield]
  simp [Subroutine.markup, Subroutine.yield, leaves_resultMarkup, parameters,
    subroutine.body.leaves_markup]

/-- The leaves of a class are its terminals. -/
theorem ClassDeclaration.leaves_markup (declaration : ClassDeclaration) :
    declaration.markup.leaves = declaration.yield.map Terminal.leaf := by
  have groups := childLeaves_map ClassVariableGroup.leaves_markup declaration.variableGroups
  have subroutines := childLeaves_map Subroutine.leaves_markup declaration.subroutines
  simp [ClassDeclaration.markup, ClassDeclaration.yield, groups, subroutines]

end Classes

end Jack
