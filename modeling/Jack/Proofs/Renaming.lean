import Jack.Proofs.WellScoped
import Mathlib.Logic.Equiv.Basic

/-!
# Names of variables do not reach the code

Variables may be given other names, as long as different names stay different and no name gets the
meaning of a predefined variable or of a class. The declarations of the renamed class fill the same
slots, and a name in it stands for what the old name stood for. So the code is the same, and where there
is none the error is the same with the new names in it.
-/

namespace Jack

/-- Different names stay different, and those of the predefined variables are kept. -/
structure IsRenaming (newName : String → String) : Prop where
  injective : Function.Injective newName
  this : newName "this" = "this"
  that : newName "that" = "that"

section Trees

variable (newName : String → String)

mutual

/-- The expression with other names for its variables and receivers. -/
def Expression.rename : Expression → Expression
  | .term only => .term only.rename
  | .binary left operator right => .binary left.rename operator right.rename

/-- The term with other names for its variables and receivers. -/
def Term.rename : Term → Term
  | .integer value => .integer value
  | .string text => .string text
  | .constant constant => .constant constant
  | .name name => .name (newName name)
  | .element array index => .element (newName array) index.rename
  | .call call => .call call.rename
  | .unary operator operand => .unary operator operand.rename
  | .group inner => .group inner.rename

/-- The call with another name for its receiver. The subroutine keeps its name. -/
def Call.rename : Call → Call
  | .mk receiver name arguments => .mk (receiver.map newName) name (renameArguments arguments)

/-- The arguments with other names for their variables and receivers. -/
def renameArguments : List Expression → List Expression
  | [] => []
  | argument :: rest => argument.rename :: renameArguments rest

end

mutual

/-- The statement with other names for its variables and receivers. -/
def Statement.rename : Statement → Statement
  | .assign target value => .assign (newName target) (value.rename newName)
  | .assignElement array index value =>
    .assignElement (newName array) (index.rename newName) (value.rename newName)
  | .ifThen condition body => .ifThen (condition.rename newName) (renameStatements body)
  | .ifElse condition body alternative =>
    .ifElse (condition.rename newName) (renameStatements body) (renameStatements alternative)
  | .whileLoop condition body => .whileLoop (condition.rename newName) (renameStatements body)
  | .perform call => .perform (call.rename newName)
  | .return value => .return (value.map (·.rename newName))

/-- The statements with other names for their variables and receivers. -/
def renameStatements : List Statement → List Statement
  | [] => []
  | statement :: rest => statement.rename :: renameStatements rest

end

/-- The variable with another name. -/
def Variable.rename (item : Variable) : Variable := { item with name := newName item.name }

/-- The declaration with other names for its variables. -/
def VariableGroup.rename (group : VariableGroup) : VariableGroup :=
  { group with names := group.names.map newName }

/-- The declaration with other names for its variables. -/
def ClassVariableGroup.rename (declaration : ClassVariableGroup) : ClassVariableGroup :=
  { declaration with group := declaration.group.rename newName }

/-- The subroutine with other names for its variables. -/
def Subroutine.rename (subroutine : Subroutine) : Subroutine :=
  { subroutine with
    parameters := subroutine.parameters.map (·.rename newName)
    body := ⟨subroutine.body.locals.map (·.rename newName),
      renameStatements newName subroutine.body.statements⟩ }

/-- The class with other names for all its variables. Classes and subroutines keep their names. -/
def ClassDeclaration.rename (declaration : ClassDeclaration) : ClassDeclaration :=
  { declaration with
    variableGroups := declaration.variableGroups.map (·.rename newName)
    subroutines := declaration.subroutines.map (·.rename newName) }

end Trees

section Errors

variable (newName : String → String)

/-- The error with other names for variables. -/
def ResolutionError.rename : ResolutionError → ResolutionError
  | .unresolved name subroutine => .unresolved (newName name) subroutine
  | .redeclared name part => .redeclared (newName name) part

/-- The error with another name for the variable that is the receiver. -/
def ReceiverError.rename : ReceiverError → ReceiverError
  | .noReceiver subroutine => .noReceiver subroutine
  | .primitiveReceiver name type method => .primitiveReceiver (newName name) type method

/-- The error with other names for variables. -/
def CompileError.rename : CompileError → CompileError
  | .lexical error => .lexical error
  | .grammatical error => .grammatical error
  | .resolution error => .resolution (error.rename newName)
  | .generation error => .generation (error.rename newName)

/-- Errors are renamed step by step. -/
theorem mapError_bind {ε ε' α β : Type} (rename : ε → ε') (first : Except ε α)
    (next : α → Except ε β) :
    (first >>= next).mapError rename =
      first.mapError rename >>= fun value => (next value).mapError rename := by
  cases first <;> rfl

@[simp] theorem mapError_pure {ε ε' α : Type} (rename : ε → ε') (value : α) :
    (pure value : Except ε α).mapError rename = pure value := rfl

end Errors

section Scopes

variable {newName : String → String}

/-- The slot of the variable with another name. -/
def Slot.rename (newName : String → String) (slot : Slot) : Slot :=
  { slot with item := slot.item.rename newName }

@[simp] theorem Slot.load_rename (slot : Slot) : (slot.rename newName).load = slot.load := rfl

@[simp] theorem Slot.store_rename (slot : Slot) : (slot.rename newName).store = slot.store := rfl

/-- The entry of the variable with another name. -/
def SlotEntry.rename (newName : String → String) (entry : SlotEntry) : SlotEntry :=
  { entry with item := entry.item.rename newName }

namespace SlotTable

/-- One table is the other with new names for the variables. New names may be searched in another order,
so the tables are compared by what they have under each name. -/
structure IsRenamed (newName : String → String) (table renamed : SlotTable) : Prop where
  count : renamed.count = table.count
  find : ∀ name, renamed.find? (newName name) = (table.find? name).map (·.rename newName)

theorem isRenamed_startingAt (first : UInt16) :
    (startingAt first).IsRenamed newName (startingAt first) where
  count := rfl
  find _ := rfl

section Declarations

variable {table renamed : SlotTable}

/-- A new name is declared where the old one is. -/
theorem IsRenamed.declares (same : table.IsRenamed newName renamed) (name : String) :
    renamed.declares (newName name) = table.declares name := by
  rw [SlotTable.declares, same.find, Option.isSome_map, SlotTable.declares]

theorem IsRenamed.add (is : IsRenaming newName) (same : table.IsRenamed newName renamed)
    (item : Variable) : (table.add item).IsRenamed newName (renamed.add (item.rename newName)) where
  count := by rw [SlotTable.add, SlotTable.add, same.count]
  find := by
    intro name
    have names : newName name = (item.rename newName).name ↔ name = item.name :=
      is.injective.eq_iff
    rw [find?_add, find?_add, same.find, same.count]
    by_cases named : name = item.name
    · rw [if_pos (names.mpr named), if_pos named]
      rfl
    · rw [if_neg (names.not.mpr named), if_neg named]

/-- Variables with new names are declared as the old ones are, with the new name in an error. -/
theorem IsRenamed.declare (is : IsRenaming newName) (same : table.IsRenamed newName renamed)
    (part : ScopePart) (items : List Variable) :
    let declared := table.declare part items
    let again := renamed.declare part (items.map (·.rename newName))
    declared.1.IsRenamed newName again.1 ∧ again.2 = declared.2.mapError (·.rename newName) := by
  induction items generalizing table renamed with
  | nil => exact ⟨same, rfl⟩
  | cons item rest inductionHypothesis =>
    have known : renamed.declares (item.rename newName).name = table.declares item.name :=
      same.declares item.name
    rw [List.map_cons, SlotTable.declare, SlotTable.declare, known]
    split
    · exact ⟨same, rfl⟩
    · exact inductionHypothesis (same.add is item)

end Declarations

end SlotTable

namespace Scope

/-- One scope is the other with new names for the variables. -/
structure IsRenamed (newName : String → String) (scope renamed : Scope) : Prop where
  className : renamed.className = scope.className
  statics : scope.statics.IsRenamed newName renamed.statics
  fields : scope.fields.IsRenamed newName renamed.fields
  arguments : scope.arguments.IsRenamed newName renamed.arguments
  locals : scope.locals.IsRenamed newName renamed.locals

theorem isRenamed_ofClass (className : String) :
    (ofClass className).IsRenamed newName (ofClass className) where
  className := rfl
  statics := SlotTable.isRenamed_startingAt 0
  fields := SlotTable.isRenamed_startingAt 0
  arguments := SlotTable.isRenamed_startingAt 0
  locals := SlotTable.isRenamed_startingAt 0

section Resolution

variable {scope renamed : Scope}

theorem IsRenamed.table (is : IsRenaming newName) (same : scope.IsRenamed newName renamed)
    (kind : SlotKind) : (scope.table kind).IsRenamed newName (renamed.table kind) := by
  cases kind with
  | static => exact same.statics
  | field => exact same.fields
  | argument => exact same.arguments
  | «local» => exact same.locals
  | predefined =>
    -- The predefined variables keep their names.
    have first := (SlotTable.isRenamed_startingAt 0).add is ⟨.object scope.className, "this"⟩
    have both := first.add is ⟨.object "Array", "that"⟩
    simp only [Variable.rename, is.this, is.that] at both
    rw [Scope.table, Scope.table, predefined, predefined, same.className]
    exact both

/-- A new name stands for what the old one stands for. -/
theorem IsRenamed.resolve? (is : IsRenaming newName) (same : scope.IsRenamed newName renamed)
    (name : String) :
    renamed.resolve? (newName name) = (scope.resolve? name).map (·.rename newName) := by
  unfold Scope.resolve?
  rw [List.map_findSome?]
  congr 1
  ext1 kind
  rw [slotOf?, (same.table is kind).find, Function.comp, slotOf?, Option.map_map, Option.map_map]
  rfl

end Resolution

section Declarations

variable {scope renamed : Scope}

theorem IsRenamed.addClassVariable (is : IsRenaming newName) (same : scope.IsRenamed newName renamed)
    (kind : ClassVariableKind) (item : Variable) :
    (scope.addClassVariable kind item).IsRenamed newName
      (renamed.addClassVariable kind (item.rename newName)) := by
  cases kind with
  | static => exact { same with statics := same.statics.add is item }
  | field => exact { same with fields := same.fields.add is item }

theorem IsRenamed.declareClassVariables (is : IsRenaming newName)
    (same : scope.IsRenamed newName renamed) (items : List (ClassVariableKind × Variable)) :
    let declared := scope.declareClassVariables items
    let again := renamed.declareClassVariables (items.map (Prod.map id (·.rename newName)))
    declared.1.IsRenamed newName again.1 ∧ again.2 = declared.2.mapError (·.rename newName) := by
  induction items generalizing scope renamed with
  | nil => exact ⟨same, rfl⟩
  | cons item rest inductionHypothesis =>
    obtain ⟨kind, item⟩ := item
    have known : renamed.declaresInClass (item.rename newName).name =
        scope.declaresInClass item.name :=
      congrArg₂ or (same.statics.declares item.name) (same.fields.declares item.name)
    rw [List.map_cons, Prod.map_apply, id, Scope.declareClassVariables, Scope.declareClassVariables,
      known]
    split
    · exact ⟨same, rfl⟩
    · exact inductionHypothesis (same.addClassVariable is kind item)

theorem IsRenamed.enterSubroutine (is : IsRenaming newName) (same : scope.IsRenamed newName renamed)
    (kind : SubroutineKind) (parameters locals : List Variable) :
    let entered := scope.enterSubroutine kind parameters locals
    let again := renamed.enterSubroutine kind (parameters.map (·.rename newName))
      (locals.map (·.rename newName))
    entered.1.IsRenamed newName again.1 ∧ again.2 = entered.2.mapError (·.rename newName) := by
  obtain ⟨arguments, reported⟩ := (SlotTable.isRenamed_startingAt kind.receivers).declare is
    .argument parameters
  obtain ⟨others, result⟩ := (SlotTable.isRenamed_startingAt 0).declare is .local locals
  cases declared : ((SlotTable.startingAt kind.receivers).declare .argument parameters).2 with
  | error error =>
    rw [declared] at reported
    rw [scope.enterSubroutine_of_arguments_error declared,
      renamed.enterSubroutine_of_arguments_error reported]
    exact ⟨{ same with arguments := arguments, locals := SlotTable.isRenamed_startingAt 0 }, rfl⟩
  | ok =>
    rw [declared] at reported
    rw [scope.enterSubroutine_of_arguments_ok declared,
      renamed.enterSubroutine_of_arguments_ok reported]
    exact ⟨{ same with arguments := arguments, locals := others }, result⟩

end Declarations

end Scope

/-- The same place of code generation, with new names for the variables in scope. -/
structure Frame.IsRenamed (newName : String → String) (frame renamed : Frame) : Prop where
  scope : frame.scope.IsRenamed newName renamed.scope
  subroutine : renamed.subroutine = frame.subroutine
  kind : renamed.kind = frame.kind

end Scopes

section Uses

variable {newName : String → String}

/-- A receiver that stands for no variable is the name of a class and has to be kept. -/
def Use.KeepsClass (newName : String → String) (scope : Scope) : Use → Prop
  | .receiver name _ => scope.resolve? name = none → newName name = name
  | .reference _ | .currentObject => True

variable {frame renamed : Frame} (is : IsRenaming newName) (same : frame.IsRenamed newName renamed)

include is same

theorem Frame.IsRenamed.resolve (name : String) :
    renamed.resolve (newName name) =
      (frame.resolve name).mapError (·.rename newName) >>= fun slot => pure (slot.rename newName) := by
  rw [Frame.resolve, same.scope.resolve? is, same.subroutine, Frame.resolve]
  cases frame.scope.resolve? name <;> rfl

theorem Frame.IsRenamed.resolveThis :
    renamed.resolveThis =
      frame.resolveThis.mapError (·.rename newName) >>= fun slot => pure (slot.rename newName) := by
  have found := Frame.IsRenamed.resolve is same "this"
  rw [is.this] at found
  unfold Frame.resolveThis
  rw [found, same.kind, same.subroutine]
  split <;> rfl

/-- A call is made in the same way when its receiver has another name. -/
theorem Frame.IsRenamed.dispatch (receiver : Option String) (name : String)
    (kept : ∀ value ∈ receiver, (Use.receiver value name).KeepsClass newName frame.scope) :
    renamed.dispatch (receiver.map newName) name =
      (frame.dispatch receiver name).mapError (·.rename newName) := by
  cases receiver with
  | none =>
    rw [Option.map_none, Frame.dispatch, same.scope.className, Frame.dispatch]
    rfl
  | some receiver =>
    simp only [Frame.dispatch, Option.map_some, same.scope.resolve? is]
    cases resolved : frame.scope.resolve? receiver with
    | none =>
      rw [kept receiver rfl resolved]
      rfl
    | some slot =>
      by_cases primitive : slot.item.type.isPrimitive
      · simp [primitive, Slot.rename, Variable.rename, Except.mapError, CompileError.rename,
          ReceiverError.rename]
      · simp [primitive, Slot.rename, Variable.rename, Except.mapError, Slot.load, Slot.segment]

end Uses

section Code

variable {newName : String → String} {frame renamed : Frame}

theorem renameArguments_eq (arguments : List Expression) :
    renameArguments newName arguments = arguments.map (·.rename newName) := by
  induction arguments with
  | nil => rfl
  | cons argument rest inductionHypothesis =>
    rw [renameArguments, inductionHypothesis, List.map_cons]

theorem renameStatements_eq (statements : List Statement) :
    renameStatements newName statements = statements.map (·.rename newName) := by
  induction statements with
  | nil => rfl
  | cons statement rest inductionHypothesis =>
    rw [renameStatements, inductionHypothesis, List.map_cons]

mutual

/-- Other names do not change how many labels a statement takes. -/
theorem Statement.labels_rename (statement : Statement) :
    (statement.rename newName).labels = statement.labels := by
  cases statement with
  | ifThen condition body =>
    rw [Statement.rename, Statement.labels, Statement.labels, statementLabels_rename body]
  | ifElse condition body alternative =>
    rw [Statement.rename, Statement.labels, Statement.labels, statementLabels_rename body,
      statementLabels_rename alternative]
  | whileLoop condition body =>
    rw [Statement.rename, Statement.labels, Statement.labels, statementLabels_rename body]
  | _ => rfl

theorem statementLabels_rename (statements : List Statement) :
    statementLabels (renameStatements newName statements) = statementLabels statements := by
  cases statements with
  | nil => rfl
  | cons statement rest =>
    rw [renameStatements, statementLabels, statementLabels, statement.labels_rename,
      statementLabels_rename rest]

end

mutual

theorem Expression.lower_rename (is : IsRenaming newName)
    (same : frame.IsRenamed newName renamed) (expression : Expression)
    (kept : ∀ use ∈ expression.uses, use.KeepsClass newName frame.scope) :
    (expression.rename newName).lower renamed =
      (expression.lower frame).mapError (·.rename newName) := by
  cases expression with
  | term only =>
    rw [Expression.rename, Expression.lower, Expression.lower]
    exact only.lower_rename is same kept
  | binary left operator right =>
    rw [Expression.uses, List.forall_mem_append] at kept
    simp only [Expression.rename, Expression.lower, left.lower_rename is same kept.1,
      right.lower_rename is same kept.2, mapError_bind, mapError_pure]

theorem Term.lower_rename (is : IsRenaming newName)
    (same : frame.IsRenamed newName renamed) (term : Term)
    (kept : ∀ use ∈ term.uses, use.KeepsClass newName frame.scope) :
    (term.rename newName).lower renamed =
      (term.lower frame).mapError (·.rename newName) := by
  cases term with
  | integer | string => rfl
  | constant constant =>
    cases constant with
    | this =>
      simp only [Term.rename, Term.lower, KeywordConstant.lower, Frame.IsRenamed.resolveThis is same,
        mapError_bind, mapError_pure, bind_assoc, pure_bind, Slot.load_rename]
    | _ => rfl
  | name name =>
    simp only [Term.rename, Term.lower, Frame.IsRenamed.resolve is same, mapError_bind, mapError_pure,
      bind_assoc, pure_bind, Slot.load_rename]
  | element array index =>
    rw [Term.uses, List.forall_mem_cons] at kept
    simp only [Term.rename, Term.lower, Frame.IsRenamed.resolve is same, index.lower_rename is same kept.2,
      mapError_bind, mapError_pure, bind_assoc, pure_bind, Slot.load_rename]
  | call call =>
    rw [Term.rename, Term.lower, Term.lower]
    exact call.lower_rename is same kept
  | unary operator operand =>
    rw [Term.uses] at kept
    simp only [Term.rename, Term.lower, operand.lower_rename is same kept, mapError_bind, mapError_pure]
  | group inner =>
    rw [Term.rename, Term.lower, Term.lower]
    exact inner.lower_rename is same kept

theorem Call.lower_rename (is : IsRenaming newName)
    (same : frame.IsRenamed newName renamed) (call : Call)
    (kept : ∀ use ∈ call.uses, use.KeepsClass newName frame.scope) :
    (call.rename newName).lower renamed =
      (call.lower frame).mapError (·.rename newName) := by
  cases call with
  | mk receiver name arguments =>
    have parts : (∀ value ∈ receiver, (Use.receiver value name).KeepsClass newName frame.scope) ∧
        ∀ use ∈ argumentUses arguments, use.KeepsClass newName frame.scope := by
      cases receiver with
      | none => exact ⟨nofun, kept⟩
      | some receiver =>
        rw [Call.uses, List.forall_mem_cons] at kept
        simpa using kept
    have size : (renameArguments newName arguments).length = arguments.length := by
      rw [renameArguments_eq, List.length_map]
    simp only [Call.rename, Call.lower, Frame.IsRenamed.dispatch is same receiver name parts.1,
      lowerArguments_rename is same arguments parts.2, size, mapError_bind, mapError_pure]

theorem lowerArguments_rename (is : IsRenaming newName)
    (same : frame.IsRenamed newName renamed) (arguments : List Expression)
    (kept : ∀ use ∈ argumentUses arguments, use.KeepsClass newName frame.scope) :
    lowerArguments renamed (renameArguments newName arguments) =
      (lowerArguments frame arguments).mapError (·.rename newName) := by
  cases arguments with
  | nil => rfl
  | cons argument rest =>
    rw [argumentUses, List.forall_mem_append] at kept
    simp only [renameArguments, lowerArguments, argument.lower_rename is same kept.1,
      lowerArguments_rename is same rest kept.2, mapError_bind, mapError_pure]

end

mutual

theorem Statement.lower_rename (is : IsRenaming newName)
    (same : frame.IsRenamed newName renamed) (used : LabelCount)
    (statement : Statement)
    (kept : ∀ use ∈ statement.uses, use.KeepsClass newName frame.scope) :
    (statement.rename newName).lower renamed used =
      (statement.lower frame used).mapError (·.rename newName) := by
  cases statement with
  | assign target value =>
    rw [Statement.uses, List.forall_mem_append] at kept
    simp only [Statement.rename, Statement.lower, value.lower_rename is same kept.1,
      Frame.IsRenamed.resolve is same, mapError_bind, mapError_pure, bind_assoc, pure_bind,
      Slot.store_rename]
  | assignElement array index value =>
    rw [Statement.uses, List.forall_mem_cons, List.forall_mem_append] at kept
    simp only [Statement.rename, Statement.lower, index.lower_rename is same kept.2.1,
      value.lower_rename is same kept.2.2, Frame.IsRenamed.resolve is same, mapError_bind, mapError_pure,
      bind_assoc, pure_bind, Slot.load_rename]
  | ifThen condition body =>
    rw [Statement.uses, List.forall_mem_append] at kept
    simp only [Statement.rename, Statement.lower, condition.lower_rename is same kept.1,
      lowerStatements_rename is same _ body kept.2, mapError_bind, mapError_pure]
  | ifElse condition body alternative =>
    rw [Statement.uses, List.forall_mem_append, List.forall_mem_append] at kept
    simp only [Statement.rename, Statement.lower, condition.lower_rename is same kept.1,
      lowerStatements_rename is same _ body kept.2.1, lowerStatements_rename is same _ alternative kept.2.2,
      statementLabels_rename, mapError_bind, mapError_pure]
  | whileLoop condition body =>
    rw [Statement.uses, List.forall_mem_append] at kept
    simp only [Statement.rename, Statement.lower, condition.lower_rename is same kept.1,
      lowerStatements_rename is same _ body kept.2, mapError_bind, mapError_pure]
  | perform call =>
    rw [Statement.uses] at kept
    simp only [Statement.rename, Statement.lower, call.lower_rename is same kept, mapError_bind,
      mapError_pure]
  | «return» value =>
    cases value with
    | none => rfl
    | some value =>
      rw [Statement.uses] at kept
      simp only [Statement.rename, Option.map_some, Statement.lower, value.lower_rename is same kept,
        mapError_bind, mapError_pure]

theorem lowerStatements_rename (is : IsRenaming newName)
    (same : frame.IsRenamed newName renamed) (used : LabelCount)
    (statements : List Statement)
    (kept : ∀ use ∈ statementUses statements, use.KeepsClass newName frame.scope) :
    lowerStatements renamed used (renameStatements newName statements) =
      (lowerStatements frame used statements).mapError (·.rename newName) := by
  cases statements with
  | nil => rfl
  | cons statement rest =>
    rw [statementUses, List.forall_mem_append] at kept
    simp only [renameStatements, lowerStatements, statement.lower_rename is same used kept.1,
      Statement.labels_rename, lowerStatements_rename is same _ rest kept.2, mapError_bind, mapError_pure]

end

end Code

section Classes

variable {newName : String → String}

theorem VariableGroup.members_rename (group : VariableGroup) :
    (group.rename newName).members = group.members.map (·.rename newName) := by
  simp [VariableGroup.members, VariableGroup.rename, Variable.rename]

theorem Subroutine.localVariables_rename (subroutine : Subroutine) :
    (subroutine.rename newName).localVariables =
      subroutine.localVariables.map (·.rename newName) := by
  simp [Subroutine.localVariables, Subroutine.rename, List.flatMap_map, List.map_flatMap,
    VariableGroup.members_rename]

theorem ClassDeclaration.classVariables_rename (declaration : ClassDeclaration) :
    (declaration.rename newName).classVariables =
      declaration.classVariables.map (Prod.map id (·.rename newName)) := by
  simp [ClassDeclaration.classVariables, ClassDeclaration.rename, List.flatMap_map,
    List.map_flatMap, ClassVariableGroup.members, ClassVariableGroup.rename,
    VariableGroup.members_rename, Function.comp_def]

/-- A renamed subroutine is given an ending when the subroutine is. -/
theorem Options.completes_rename (options : Options) (subroutine : Subroutine) :
    options.completes (subroutine.rename newName) = options.completes subroutine := by
  have last : endsInReturn (renameStatements newName subroutine.body.statements) =
      endsInReturn subroutine.body.statements := by
    rw [renameStatements_eq, endsInReturn, endsInReturn, List.getLast?_map]
    cases subroutine.body.statements.getLast? with
    | none => rfl
    | some statement => cases statement <;> rfl
  exact congrArg (options.implicitReturn && !·) last

/-- The frame of a subroutine does not depend on the subroutine that stands before it. -/
theorem Subroutine.frameIn_scopeIn (scope : Scope) (subroutine other : Subroutine) :
    subroutine.frameIn (other.scopeIn scope).1 = subroutine.frameIn scope := by
  have same : subroutine.scopeIn (other.scopeIn scope).1 = subroutine.scopeIn scope :=
    Scope.enterSubroutine_enterSubroutine ..
  simp only [Subroutine.frameIn, same]

variable {scope renamed : Scope} (is : IsRenaming newName)

include is

theorem Subroutine.scopeIn_rename (same : scope.IsRenamed newName renamed) (subroutine : Subroutine) :
    let entered := subroutine.scopeIn scope
    let again := (subroutine.rename newName).scopeIn renamed
    entered.1.IsRenamed newName again.1 ∧ again.2 = entered.2.mapError (·.rename newName) := by
  unfold Subroutine.scopeIn
  rw [Subroutine.localVariables_rename]
  exact same.enterSubroutine is subroutine.kind subroutine.parameters _

/-- The frames of a subroutine and of the renamed subroutine agree, or both have the same error. -/
theorem Subroutine.frameIn_rename (same : scope.IsRenamed newName renamed) (subroutine : Subroutine) :
    (∃ frame other, subroutine.frameIn scope = .ok frame ∧
      (subroutine.rename newName).frameIn renamed = .ok other ∧ frame.IsRenamed newName other) ∨
    ∃ error, subroutine.frameIn scope = .error error ∧
      (subroutine.rename newName).frameIn renamed = .error (error.rename newName) := by
  obtain ⟨inside, result⟩ := subroutine.scopeIn_rename is same
  unfold Subroutine.frameIn
  generalize (subroutine.rename newName).scopeIn renamed = again at inside result
  generalize subroutine.scopeIn scope = entered at inside result
  obtain ⟨entered, error | accepted⟩ := entered <;> obtain ⟨again, _⟩ := again <;> subst result
  · exact .inr ⟨_, rfl, rfl⟩
  · exact .inl ⟨_, _, rfl, rfl, inside, rfl, rfl⟩

theorem Subroutine.lower_rename (same : scope.IsRenamed newName renamed) (options : Options)
    (subroutine : Subroutine)
    (kept : ∀ frame, subroutine.frameIn scope = .ok frame →
      ∀ use ∈ subroutine.uses, use.KeepsClass newName frame.scope) :
    (subroutine.rename newName).lower options renamed =
      (subroutine.lower options scope).mapError (·.rename newName) := by
  rw [Subroutine.lower, Subroutine.lower]
  obtain ⟨frame, other, framed, again, inside⟩ | ⟨error, framed, again⟩ :=
    subroutine.frameIn_rename is same
  · have body := lowerStatements_rename is inside .none subroutine.body.statements (kept frame framed)
    rw [framed, again]
    change lowerStatements _ _ (renameStatements newName subroutine.body.statements) >>= _ =
      (lowerStatements frame .none subroutine.body.statements >>= _).mapError _
    rw [body, Options.completes_rename, inside.scope.locals.count, inside.scope.fields.count,
      inside.scope.className, mapError_bind]
    rfl
  · rw [framed, again]
    rfl

/-- Subroutines with other names have the code of the subroutines, one after the other. -/
theorem lowerSubroutines_rename (same : scope.IsRenamed newName renamed) (options : Options)
    (subroutines : List Subroutine)
    (kept : ∀ subroutine ∈ subroutines, ∀ frame, subroutine.frameIn scope = .ok frame →
      ∀ use ∈ subroutine.uses, use.KeepsClass newName frame.scope) :
    lowerSubroutines options renamed (subroutines.map (·.rename newName)) =
      (lowerSubroutines options scope subroutines).mapError (·.rename newName) := by
  induction subroutines generalizing scope renamed with
  | nil => rfl
  | cons subroutine rest inductionHypothesis =>
    rw [List.forall_mem_cons] at kept
    have later := inductionHypothesis (subroutine.scopeIn_rename is same).1 fun other member => by
      rw [Subroutine.frameIn_scopeIn]
      exact kept.2 other member
    simp only [List.map_cons, lowerSubroutines, Subroutine.lower_rename is same options _ kept.1,
      later, mapError_bind, mapError_pure]

namespace ClassDeclaration

theorem scope_rename (declaration : ClassDeclaration) :
    let declared := declaration.scope
    let again := (declaration.rename newName).scope
    declared.1.IsRenamed newName again.1 ∧ again.2 = declared.2.mapError (·.rename newName) := by
  unfold ClassDeclaration.scope
  rw [classVariables_rename]
  exact (Scope.isRenamed_ofClass declaration.name).declareClassVariables is _

/-- A class with other names for its variables has the code of the class, or its error with the new
names. -/
theorem lower_rename (options : Options) (declaration : ClassDeclaration)
    (kept : declaration.scope.2 = .ok () → ∀ subroutine ∈ declaration.subroutines,
      ∀ frame, subroutine.frameIn declaration.scope.1 = .ok frame →
        ∀ use ∈ subroutine.uses, use.KeepsClass newName frame.scope) :
    (declaration.rename newName).lower options =
      (declaration.lower options).mapError (·.rename newName) := by
  obtain ⟨inside, result⟩ := declaration.scope_rename is
  unfold ClassDeclaration.lower
  generalize (declaration.rename newName).scope = again at inside result
  generalize declaration.scope = declared at inside result kept
  obtain ⟨scope, error | accepted⟩ := declared <;> obtain ⟨again, _⟩ := again <;> subst result
  · rfl
  · exact lowerSubroutines_rename is inside options _ (kept rfl)

end ClassDeclaration

end Classes

namespace ClassDeclaration

/-- The receivers in a class that stand for no variable where they are called are the names of classes.
Those are kept. -/
def KeepsClasses (newName : String → String) (declaration : ClassDeclaration) : Prop :=
  ∀ subroutine ∈ declaration.subroutines, ∀ name method, .receiver name method ∈ subroutine.uses →
    meaning? (declaration.visible subroutine) name = none → newName name = name

/-- Code depends on the names of variables only through their slots: when variables are given other
names, the code of a class stays the same. When there is none the error stays the same but for the names
in it. -/
theorem lower_ignores_variable_names {newName : String → String} (is : IsRenaming newName)
    {options : Options} {declaration : ClassDeclaration} (kept : declaration.KeepsClasses newName) :
    (∀ code, declaration.lower options = .ok code →
      (declaration.rename newName).lower options = .ok code) ∧
    ∀ error, declaration.lower options = .error error →
      (declaration.rename newName).lower options = .error (error.rename newName) := by
  have same := lower_rename is options declaration fun declared subroutine member frame framed => by
    rintro (name | _ | ⟨name, method⟩) used
    · trivial
    · trivial
    · intro absent
      refine kept subroutine member name method used ?_
      rw [← meaning?_of_frameIn declared framed, Scope.meaning?, absent, Option.map_none]
  constructor
  · intro code lowered
    rw [same, lowered]
    rfl
  · intro error failed
    rw [same, failed]
    rfl

/-- Two names are exchanged that stand for a field, a static and a local that hides the static. One call
goes to a variable of that name and one to a class. -/
theorem lower_ignores_variable_names_exchanged :
    let pick : Subroutine := ⟨.method, some .int, "pick", [⟨.int, "n"⟩],
      ⟨[⟨.object "Pile", ["y"]⟩],
        [.assign "y" (.term (.call ⟨some "Pile", "of", [.term (.name "x"), .term (.constant .this)]⟩)),
          .assignElement "x" (.term (.name "n")) (.term (.name "y")),
          .return (some (.term (.call ⟨some "y", "size", []⟩)))]⟩⟩
    let pile : ClassDeclaration := ⟨"Pile", [⟨.field, ⟨.object "Array", ["x"]⟩⟩,
      ⟨.static, ⟨.int, ["y", "z"]⟩⟩], [pick]⟩
    let exchange : String → String := Equiv.swap "x" "y"
    IsRenaming exchange ∧ pile.KeepsClasses exchange ∧
      (pile.rename exchange).variableGroups.map (·.group.names) = [["y"], ["x", "z"]] ∧
      ∃ code, pile.lower ⟨true⟩ = .ok code ∧ (pile.rename exchange).lower ⟨true⟩ = .ok code := by
  intro pick pile exchange
  have is : IsRenaming exchange := ⟨(Equiv.swap "x" "y").injective, by decide, by decide⟩
  have kept : pile.KeepsClasses exchange := by
    intro subroutine member name method used absent
    obtain rfl := List.mem_singleton.mp member
    have uses : pick.uses = [.receiver "Pile" "of", .reference "x", .currentObject, .reference "y",
      .reference "x", .reference "n", .reference "y", .receiver "y" "size"] := rfl
    have either : name = "Pile" ∨ name = "y" := by
      rw [uses] at used
      simp at used
      tauto
    rcases either with rfl | rfl
    · decide
    · exact absurd absent (by decide)
  have succeeds : (pile.lower ⟨true⟩).isOk := by decide +kernel
  obtain ⟨code, lowered⟩ := exists_eq_ok_of_isOk succeeds
  exact ⟨is, kept, by decide, code, lowered, (lower_ignores_variable_names is kept).1 code lowered⟩

end ClassDeclaration

end Jack
