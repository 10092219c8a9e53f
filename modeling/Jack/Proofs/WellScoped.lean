import Jack.Proofs.Lowering

/-!
# Which classes have code

A class is well scoped when no name is declared twice in one part of a scope and every use of a name
is allowed where it stands. Exactly the well-scoped classes have code. The violations of any other
class have an order, and the error of code generation is the first of them.
-/

namespace Jack

/-- A use of a name that the scope around it has to allow. -/
inductive Use where
  /-- A variable is read, written or indexed. -/
  | reference (name : String)
  /-- The keyword for the current object stands as a term. -/
  | currentObject
  /-- A method is called on whatever the name stands for. -/
  | receiver (name method : String)
deriving DecidableEq

/-- The current object is the only constant that a scope has to allow. -/
def KeywordConstant.uses : KeywordConstant → List Use
  | .this => [.currentObject]
  | .true | .false | .null => []

mutual

/-- The uses in an expression, from left to right. -/
def Expression.uses : Expression → List Use
  | .term only => only.uses
  | .binary left _ right => left.uses ++ right.uses

/-- The uses in a term. An array comes before its index. -/
def Term.uses : Term → List Use
  | .integer _ | .string _ => []
  | .constant constant => constant.uses
  | .name name => [.reference name]
  | .element array index => .reference array :: index.uses
  | .call call => call.uses
  | .unary _ operand => operand.uses
  | .group inner => inner.uses

/-- The uses in a call. The receiver comes before the arguments. -/
def Call.uses : Call → List Use
  | .mk none _ arguments => argumentUses arguments
  | .mk (some receiver) name arguments => .receiver receiver name :: argumentUses arguments

/-- The uses in the arguments of a call. -/
def argumentUses : List Expression → List Use
  | [] => []
  | argument :: rest => argument.uses ++ argumentUses rest

end

mutual

/-- The uses in a statement. A variable that is assigned to comes after its value, but an array
comes before the index and the value. -/
def Statement.uses : Statement → List Use
  | .assign target value => value.uses ++ [.reference target]
  | .assignElement array index value => .reference array :: (index.uses ++ value.uses)
  | .ifThen condition body => condition.uses ++ statementUses body
  | .ifElse condition body alternative =>
    condition.uses ++ (statementUses body ++ statementUses alternative)
  | .whileLoop condition body => condition.uses ++ statementUses body
  | .perform call => call.uses
  | .return none => []
  | .return (some value) => value.uses

/-- The uses in statements that follow each other. -/
def statementUses : List Statement → List Use
  | [] => []
  | statement :: rest => statement.uses ++ statementUses rest

end

/-- The uses in the statements of a subroutine. -/
def Subroutine.uses (subroutine : Subroutine) : List Use :=
  statementUses subroutine.body.statements

/-- The variables that a subroutine of a class can name. A variable hides those of its name that
come after it. -/
def ClassDeclaration.visible (declaration : ClassDeclaration) (subroutine : Subroutine) :
    List Variable :=
  subroutine.localVariables ++ subroutine.parameters ++
    variablesOfKind .field declaration.classVariables ++
    variablesOfKind .static declaration.classVariables ++ predefinedVariables declaration.name

/-- The variable that a name stands for among those that are visible. -/
def meaning? (visible : List Variable) (name : String) : Option Variable :=
  visible.find? (·.name = name)

/-- No name is declared twice in one part of a scope, and every use is allowed. -/
structure ClassDeclaration.WellScoped (declaration : ClassDeclaration) : Prop where
  classVariables : (declaration.classVariables.map (·.2.name)).Nodup
  parameters : ∀ subroutine ∈ declaration.subroutines, (subroutine.parameters.map (·.name)).Nodup
  locals : ∀ subroutine ∈ declaration.subroutines, (subroutine.localVariables.map (·.name)).Nodup
  /-- A variable is declared by the subroutine or the class, or it is predefined. -/
  names : ∀ subroutine ∈ declaration.subroutines, ∀ name, .reference name ∈ subroutine.uses →
    (∃ item ∈ subroutine.localVariables, item.name = name) ∨
    (∃ item ∈ subroutine.parameters, item.name = name) ∨
    (∃ item ∈ declaration.classVariables, item.2.name = name) ∨ name = "this" ∨ name = "that"
  currentObject : ∀ subroutine ∈ declaration.subroutines, subroutine.kind = .function →
    .currentObject ∉ subroutine.uses
  /-- A receiver is the name of a class or of a variable whose type has methods. -/
  receivers : ∀ subroutine ∈ declaration.subroutines, ∀ name method,
    .receiver name method ∈ subroutine.uses →
      ∀ item, meaning? (declaration.visible subroutine) name = some item → ¬ item.type.isPrimitive

/-- Why a use is not allowed in a subroutine in which names have the given meanings. -/
def Use.violation? (meaning : String → Option Variable) (subroutine : String)
    (kind : SubroutineKind) : Use → Option CompileError
  | .reference name =>
    match meaning name with
    | some _ => none
    | none => some (.resolution (.unresolved name subroutine))
  | .currentObject =>
    if kind = .function then some (.generation (.noReceiver subroutine)) else none
  | .receiver name method =>
    match meaning name with
    | some item =>
      if item.type.isPrimitive then
        some (.generation (.primitiveReceiver name item.type.name method))
      else none
    | none => none

/-- The names that stand before themselves in a list or in what comes before it, in order. -/
def repetitions (before : List String) : List String → List String
  | [] => []
  | name :: rest =>
    (if name ∈ before then [name] else []) ++ repetitions (before ++ [name]) rest

/-- The repeated declarations in a part of a scope. -/
def redeclarations (part : ScopePart) (names : List String) : List CompileError :=
  (repetitions [] names).map fun name => .resolution (.redeclared name part)

/-- The violations of a subroutine: those of its parameters, of its locals and of its statements. -/
def ClassDeclaration.violationsIn (declaration : ClassDeclaration) (subroutine : Subroutine) :
    List CompileError :=
  redeclarations .argument (subroutine.parameters.map (·.name)) ++
    redeclarations .local (subroutine.localVariables.map (·.name)) ++
    subroutine.uses.filterMap
      (Use.violation? (meaning? (declaration.visible subroutine)) subroutine.name subroutine.kind)

/-- The violations of a class: those of its variables and then those of each subroutine. -/
def ClassDeclaration.violations (declaration : ClassDeclaration) : List CompileError :=
  redeclarations .class (declaration.classVariables.map (·.2.name)) ++
    declaration.subroutines.flatMap declaration.violationsIn

/-- A computation that fails with the first of the errors, and succeeds when there is none. -/
def Reports {ε α : Type} (errors : List ε) : Except ε α → Prop
  | .ok _ => errors = []
  | .error error => errors.head? = some error

section Reports

variable {ε ε' α β : Type} {errors others : List ε}

/-- The errors of a second step come after those of the first. -/
theorem Reports.bind {first : Except ε α} {next : α → Except ε β} (reports : Reports errors first)
    (further : ∀ value, first = .ok value → Reports others (next value)) :
    Reports (errors ++ others) (first >>= next) := by
  cases first with
  | error error =>
    have head : errors.head? = some error := reports
    change (errors ++ others).head? = some error
    rw [List.head?_append, head]
    rfl
  | ok value =>
    have none : errors = [] := reports
    rw [none]
    exact further value rfl

/-- A step that cannot fail adds no error. -/
theorem Reports.bind_pure {first : Except ε α} {result : α → β} (reports : Reports errors first) :
    Reports errors (first >>= fun value => pure (result value)) := by
  rw [← errors.append_nil]
  exact reports.bind fun _ _ => rfl

/-- Errors may be reported under another name. -/
theorem Reports.mapError {first : Except ε α} (reports : Reports errors first) (rename : ε → ε') :
    Reports (errors.map rename) (first.mapError rename) := by
  cases first with
  | error error =>
    have head : errors.head? = some error := reports
    change (errors.map rename).head? = some (rename error)
    rw [List.head?_map, head]
    rfl
  | ok value =>
    have none : errors = [] := reports
    rw [none]
    rfl

theorem Reports.exists_ok_iff {result : Except ε α} (reports : Reports errors result) :
    (∃ value, result = .ok value) ↔ errors = [] := by
  cases result with
  | error error =>
    have head : errors.head? = some error := reports
    constructor
    · rintro ⟨_, ⟨⟩⟩
    · rintro rfl
      cases head
  | ok value => exact ⟨fun _ => reports, fun _ => ⟨value, rfl⟩⟩

theorem Reports.eq_error_iff {result : Except ε α} (reports : Reports errors result) (error : ε) :
    result = .error error ↔ errors.head? = some error := by
  cases result with
  | error other =>
    have head : errors.head? = some other := reports
    rw [head, Except.error.injEq, Option.some.injEq]
  | ok value =>
    have none : errors = [] := reports
    simp [none]

end Reports

section Names

/-- The variable that a name stands for in a scope. -/
def Scope.meaning? (scope : Scope) (name : String) : Option Variable :=
  (scope.resolve? name).map (·.item)

/-- What is looked up in a list is the first variable of the name. -/
theorem map_lookup? (list : List Variable) (name : String) :
    (lookup? list name).map (·.1) = meaning? list name := by
  have numbered (first : Nat) :
      ((list.zipIdx first).find? (·.1.name = name)).map (·.1) = meaning? list name := by
    induction list generalizing first with
    | nil => rfl
    | cons item rest inductionHypothesis =>
      have later := inductionHypothesis (first + 1)
      by_cases named : item.name = name
      · simp [List.zipIdx_cons, meaning?, named]
      · simpa [List.zipIdx_cons, meaning?, named] using later
  exact numbered 0

/-- A name stands for the first variable of the name among those that a scope holds, in the order in
which they are searched. -/
theorem Scope.Holds.meaning?_eq {scope : Scope} {lists : VariableLists} (holds : scope.Holds lists)
    (name : String) :
    scope.meaning? name = Jack.meaning? (SlotKind.searched.flatMap lists.items) name := by
  have search (kinds : List SlotKind) : (kinds.findSome? (scope.slotOf? · name)).map (·.item) =
      Jack.meaning? (kinds.flatMap lists.items) name := by
    induction kinds with
    | nil => rfl
    | cons kind kinds inductionHypothesis =>
      have found : (scope.slotOf? kind name).map (·.item) =
          Jack.meaning? (lists.items kind) name := by
        rw [holds.slotOf?_eq, Option.map_map, ← map_lookup?]
        rfl
      rw [List.findSome?_cons, List.flatMap_cons, Jack.meaning?, List.find?_append,
        ← Jack.meaning?, ← Jack.meaning?, ← found, ← inductionHypothesis]
      cases scope.slotOf? kind name <;> rfl
  exact search SlotKind.searched

/-- The predefined variables make sure that the name of the current object stands for something. -/
theorem Scope.exists_resolve?_this (scope : Scope) : ∃ slot, scope.resolve? "this" = some slot := by
  have listed : (lookup? (predefinedVariables scope.className) "this").isSome := by
    simp [lookup?, predefinedVariables]
  have found : (scope.slotOf? .predefined "this").isSome := by
    rw [slotOf?, table, scope.holds_predefined.find, Option.isSome_map, Option.isSome_map]
    exact listed
  rw [← Option.isSome_iff_exists, resolve?, List.findSome?_isSome_iff]
  exact ⟨.predefined, by decide, found⟩

variable (frame : Frame)

/-- Why a use is not allowed where code is generated. -/
def Frame.violation? (use : Use) : Option CompileError :=
  use.violation? frame.scope.meaning? frame.subroutine frame.kind

/-- The violations among some uses, in order. -/
def Frame.violations (uses : List Use) : List CompileError :=
  uses.filterMap frame.violation?

@[simp] theorem Frame.violations_nil : frame.violations [] = [] := rfl

@[simp] theorem Frame.violations_append (first second : List Use) :
    frame.violations (first ++ second) = frame.violations first ++ frame.violations second :=
  List.filterMap_append

/-- The use at the front is judged first. -/
theorem Frame.violations_cons (use : Use) (rest : List Use) :
    frame.violations (use :: rest) = frame.violations [use] ++ frame.violations rest :=
  frame.violations_append [use] rest

theorem Frame.violations_singleton (use : Use) :
    frame.violations [use] = (frame.violation? use).toList := by
  unfold Frame.violations
  cases judged : frame.violation? use <;> simp [judged]

theorem Frame.reports_resolve (name : String) :
    Reports (frame.violations [.reference name]) (frame.resolve name) := by
  rw [Frame.violations_singleton, Frame.violation?, Use.violation?, Scope.meaning?, Frame.resolve]
  cases frame.scope.resolve? name <;> rfl

/-- Every subroutine but a function has a current object. -/
theorem Frame.reports_resolveThis :
    Reports (frame.violations [.currentObject]) frame.resolveThis := by
  rw [Frame.violations_singleton, Frame.violation?, Use.violation?, Frame.resolveThis]
  split
  · rfl
  · obtain ⟨slot, resolved⟩ := frame.scope.exists_resolve?_this
    rw [Frame.resolve_eq_ok_iff.mpr resolved]
    rfl

theorem Frame.reports_dispatch (receiver : Option String) (name : String) :
    Reports (frame.violations ((receiver.map (Use.receiver · name)).toList))
      (frame.dispatch receiver name) := by
  cases receiver with
  | none => rfl
  | some receiver =>
    rw [Option.map_some, Option.toList_some, Frame.violations_singleton, Frame.violation?,
      Use.violation?, Scope.meaning?, Frame.dispatch]
    cases frame.scope.resolve? receiver with
    | none => rfl
    | some slot =>
      simp only [Option.map_some]
      split <;> rfl

end Names

section Code

variable (frame : Frame)

mutual

/-- Code generation for an expression reports the violations in it. -/
theorem Expression.reports_lower (expression : Expression) :
    Reports (frame.violations expression.uses) (expression.lower frame) := by
  cases expression with
  | term only =>
    rw [Expression.uses, Expression.lower]
    exact only.reports_lower
  | binary left operator right =>
    rw [Expression.uses, Frame.violations_append, Expression.lower]
    exact left.reports_lower.bind fun _ _ => right.reports_lower.bind_pure

/-- Code generation for a term reports the violations in it. -/
theorem Term.reports_lower (term : Term) :
    Reports (frame.violations term.uses) (term.lower frame) := by
  cases term with
  | integer | string =>
    rw [Term.uses, Term.lower]
    rfl
  | constant constant =>
    rw [Term.uses, Term.lower]
    cases constant with
    | this => exact frame.reports_resolveThis.bind_pure
    | _ => rfl
  | name name =>
    rw [Term.uses, Term.lower]
    exact (frame.reports_resolve name).bind_pure
  | element array index =>
    rw [Term.uses, Frame.violations_cons, Term.lower]
    exact (frame.reports_resolve array).bind fun _ _ => index.reports_lower.bind_pure
  | call call =>
    rw [Term.uses, Term.lower]
    exact call.reports_lower
  | unary operator operand =>
    rw [Term.uses, Term.lower]
    exact operand.reports_lower.bind_pure
  | group inner =>
    rw [Term.uses, Term.lower]
    exact inner.reports_lower

/-- Code generation for a call reports the violations in it. -/
theorem Call.reports_lower (call : Call) :
    Reports (frame.violations call.uses) (call.lower frame) := by
  cases call with
  | mk receiver name arguments =>
    have parts : (Call.mk receiver name arguments).uses =
        (receiver.map (Use.receiver · name)).toList ++ argumentUses arguments := by
      cases receiver <;> rfl
    rw [parts, Frame.violations_append, Call.lower]
    exact (frame.reports_dispatch receiver name).bind fun _ _ =>
      (reports_lowerArguments arguments).bind_pure

/-- Code generation for arguments reports the violations in them. -/
theorem reports_lowerArguments (arguments : List Expression) :
    Reports (frame.violations (argumentUses arguments)) (lowerArguments frame arguments) := by
  cases arguments with
  | nil =>
    rw [argumentUses, lowerArguments]
    rfl
  | cons argument rest =>
    rw [argumentUses, Frame.violations_append, lowerArguments]
    exact argument.reports_lower.bind fun _ _ => (reports_lowerArguments rest).bind_pure

end

mutual

/-- Code generation for a statement reports the violations in it. -/
theorem Statement.reports_lower (used : LabelCount) (statement : Statement) :
    Reports (frame.violations statement.uses) (statement.lower frame used) := by
  cases statement with
  | assign target value =>
    rw [Statement.uses, Frame.violations_append, Statement.lower]
    exact (value.reports_lower frame).bind fun _ _ => (frame.reports_resolve target).bind_pure
  | assignElement array index value =>
    rw [Statement.uses, Frame.violations_cons, Frame.violations_append, Statement.lower]
    exact (frame.reports_resolve array).bind fun _ _ => (index.reports_lower frame).bind fun _ _ =>
      (value.reports_lower frame).bind_pure
  | ifThen condition body =>
    rw [Statement.uses, Frame.violations_append, Statement.lower]
    exact (condition.reports_lower frame).bind fun _ _ =>
      (reports_lowerStatements _ body).bind_pure
  | ifElse condition body alternative =>
    rw [Statement.uses, Frame.violations_append, Frame.violations_append, Statement.lower]
    exact (condition.reports_lower frame).bind fun _ _ =>
      (reports_lowerStatements _ body).bind fun _ _ =>
        (reports_lowerStatements _ alternative).bind_pure
  | whileLoop condition body =>
    rw [Statement.uses, Frame.violations_append, Statement.lower]
    exact (condition.reports_lower frame).bind fun _ _ =>
      (reports_lowerStatements _ body).bind_pure
  | perform call =>
    rw [Statement.uses, Statement.lower]
    exact (call.reports_lower frame).bind_pure
  | «return» value =>
    cases value with
    | none =>
      rw [Statement.uses, Statement.lower]
      rfl
    | some value =>
      rw [Statement.uses, Statement.lower]
      exact (value.reports_lower frame).bind_pure

/-- Code generation for statements reports the violations in them. -/
theorem reports_lowerStatements (used : LabelCount) (statements : List Statement) :
    Reports (frame.violations (statementUses statements))
      (lowerStatements frame used statements) := by
  cases statements with
  | nil =>
    rw [statementUses, lowerStatements]
    rfl
  | cons statement rest =>
    rw [statementUses, Frame.violations_append, lowerStatements]
    exact (statement.reports_lower used).bind fun _ _ => (reports_lowerStatements _ rest).bind_pure

end

end Code

section Declarations

/-- A name is the first that is repeated, or the names after it decide. -/
theorem Reports.repetition {before rest : List String} {name : String} {part : ScopePart}
    {result : Except ResolutionError Unit}
    (repeated : name ∈ before → result = .error (.redeclared name part))
    (fresh : name ∉ before →
      Reports ((repetitions (before ++ [name]) rest).map (.redeclared · part)) result) :
    Reports ((repetitions before (name :: rest)).map (.redeclared · part)) result := by
  unfold repetitions
  split
  · rename_i member
    rw [repeated member]
    rfl
  · rename_i other
    exact fresh other

/-- A table that is a part of a scope by itself reports the repeated names. -/
theorem SlotTable.reports_declare (table : SlotTable) (part : ScopePart) (before : List String)
    (items : List Variable) (known : ∀ name, name ∈ before ↔ table.declares name = true) :
    Reports ((repetitions before (items.map (·.name))).map (.redeclared · part))
      (table.declare part items).2 := by
  induction items generalizing table before with
  | nil => rfl
  | cons item rest inductionHypothesis =>
    unfold SlotTable.declare
    apply Reports.repetition
    · intro member
      rw [if_pos ((known item.name).mp member)]
    · intro other
      rw [if_neg ((known item.name).not.mp other)]
      apply inductionHypothesis
      intro name
      rw [List.mem_append, List.mem_singleton, known, SlotTable.declares_add]

theorem SlotTable.reports_declare_startingAt (first : UInt16) (part : ScopePart)
    (items : List Variable) :
    Reports ((repetitions [] (items.map (·.name))).map (.redeclared · part))
      ((startingAt first).declare part items).2 :=
  SlotTable.reports_declare _ part [] items (by simp [startingAt, declares, find?])

/-- Statics and fields share one part of the scope, so a name of either kind counts as declared. -/
theorem Scope.reports_declareClassVariables (scope : Scope) (before : List String)
    (items : List (ClassVariableKind × Variable))
    (known : ∀ name, name ∈ before ↔ scope.declaresInClass name = true) :
    Reports ((repetitions before (items.map (·.2.name))).map (.redeclared · .class))
      (scope.declareClassVariables items).2 := by
  induction items generalizing scope before with
  | nil => rfl
  | cons item rest inductionHypothesis =>
    obtain ⟨kind, item⟩ := item
    unfold Scope.declareClassVariables
    apply Reports.repetition
    · intro member
      rw [if_pos ((known item.name).mp member)]
    · intro other
      rw [if_neg ((known item.name).not.mp other)]
      apply inductionHypothesis
      intro name
      rw [List.mem_append, List.mem_singleton, known, Scope.declaresInClass_addClassVariable]

/-- Entering a subroutine reports the repeated parameters and then the repeated locals. -/
theorem Scope.reports_enterSubroutine (scope : Scope) (kind : SubroutineKind)
    (parameters locals : List Variable) :
    Reports ((repetitions [] (parameters.map (·.name))).map (.redeclared · .argument) ++
        (repetitions [] (locals.map (·.name))).map (.redeclared · .local))
      (scope.enterSubroutine kind parameters locals).2 := by
  rw [Scope.enterSubroutine_snd]
  exact (SlotTable.reports_declare_startingAt _ .argument parameters).bind fun _ _ =>
    SlotTable.reports_declare_startingAt 0 .local locals

theorem Subroutine.reports_frameIn (scope : Scope) (subroutine : Subroutine) :
    Reports (redeclarations .argument (subroutine.parameters.map (·.name)) ++
        redeclarations .local (subroutine.localVariables.map (·.name)))
      (subroutine.frameIn scope) := by
  have entered : Reports _ (subroutine.scopeIn scope).2 := Scope.reports_enterSubroutine ..
  have renamed := entered.mapError CompileError.resolution
  simp only [List.map_append, List.map_map] at renamed
  unfold Subroutine.frameIn
  split
  · rename_i framed
    rw [framed] at renamed
    exact renamed
  · rename_i framed
    rw [framed] at renamed
    exact renamed

end Declarations

section Classes

variable {declaration : ClassDeclaration} {options : Options}

/-- What the class declares is visible in the frames of its subroutines. -/
theorem ClassDeclaration.meaning?_of_frameIn {subroutine : Subroutine} {frame : Frame}
    (declared : declaration.scope.2 = .ok ())
    (framed : subroutine.frameIn declaration.scope.1 = .ok frame) :
    frame.scope.meaning? = meaning? (declaration.visible subroutine) := by
  have visible : SlotKind.searched.flatMap (declaration.variableLists subroutine).items =
      declaration.visible subroutine := by
    simp [SlotKind.searched, VariableLists.items, ClassDeclaration.variableLists, subroutineLists,
      ClassDeclaration.visible]
  ext1 name
  rw [(ClassDeclaration.holds_of_frameIn declared framed).meaning?_eq, visible]

/-- Code generation for a subroutine reports its violations. -/
theorem Subroutine.reports_lower (declared : declaration.scope.2 = .ok ())
    (subroutine : Subroutine) :
    Reports (declaration.violationsIn subroutine)
      (subroutine.lower options declaration.scope.1) := by
  refine (subroutine.reports_frameIn _).bind fun frame framed => ?_
  have meaning := ClassDeclaration.meaning?_of_frameIn declared framed
  obtain ⟨_, rfl⟩ := Subroutine.frameIn_eq_ok_iff.mp framed
  have body := reports_lowerStatements
    ⟨(subroutine.scopeIn declaration.scope.1).1, subroutine.name, subroutine.kind⟩ .none
    subroutine.body.statements
  unfold Frame.violations Frame.violation? at body
  rw [meaning] at body
  exact body.bind_pure

/-- The violations of subroutines are reported in the order of the subroutines. -/
theorem reports_lowerSubroutines {scope : Scope} {violations : Subroutine → List CompileError}
    {subroutines : List Subroutine}
    (each : ∀ subroutine ∈ subroutines,
      Reports (violations subroutine) (subroutine.lower options scope)) :
    Reports (subroutines.flatMap violations) (lowerSubroutines options scope subroutines) := by
  induction subroutines generalizing scope with
  | nil => rfl
  | cons subroutine rest inductionHypothesis =>
    rw [List.flatMap_cons, lowerSubroutines]
    simp only [List.mem_cons, forall_eq_or_imp] at each
    refine each.1.bind fun _ _ => (inductionHypothesis ?_).bind_pure
    intro other member
    rw [Subroutine.lower_scopeIn]
    exact each.2 other member

/-- Code generation for a class reports its violations. -/
theorem ClassDeclaration.reports_lower (declaration : ClassDeclaration) (options : Options) :
    Reports declaration.violations (declaration.lower options) := by
  have first : Reports _ declaration.scope.2 :=
    Scope.reports_declareClassVariables (Scope.ofClass declaration.name) []
      declaration.classVariables (by simp [Scope.declaresInClass_ofClass])
  have renamed := first.mapError CompileError.resolution
  rw [List.map_map] at renamed
  have steps : declaration.lower options =
      declaration.scope.2.mapError CompileError.resolution >>= fun _ =>
        lowerSubroutines options declaration.scope.1 declaration.subroutines := by
    unfold ClassDeclaration.lower
    split
    · rename_i declared
      rw [declared]
      rfl
    · rename_i declared
      rw [declared]
      rfl
  rw [steps]
  refine renamed.bind fun _ declared => reports_lowerSubroutines fun subroutine _ => ?_
  have accepted : declaration.scope.2 = .ok () := by
    cases result : declaration.scope.2 with
    | ok => rfl
    | error error =>
      rw [result] at declared
      cases declared
  exact subroutine.reports_lower accepted

end Classes

section Judgement

/-- There is no repetition where names are pairwise distinct and differ from those before. -/
theorem repetitions_eq_nil_iff {before names : List String} :
    repetitions before names = [] ↔ names.Nodup ∧ ∀ name ∈ names, name ∉ before := by
  induction names generalizing before with
  | nil => simp [repetitions]
  | cons name rest inductionHypothesis =>
    rw [repetitions, List.append_eq_nil_iff, inductionHypothesis]
    split <;> grind

theorem redeclarations_eq_nil_iff {part : ScopePart} {names : List String} :
    redeclarations part names = [] ↔ names.Nodup := by
  simp [redeclarations, repetitions_eq_nil_iff]

/-- A variable of the class is visible whatever its kind. -/
theorem exists_mem_variablesOfKind_iff {items : List (ClassVariableKind × Variable)}
    {name : String} :
    ((∃ item ∈ variablesOfKind .field items, item.name = name) ∨
      ∃ item ∈ variablesOfKind .static items, item.name = name) ↔
      ∃ item ∈ items, item.2.name = name := by
  constructor
  · rintro (⟨item, member, named⟩ | ⟨item, member, named⟩)
    all_goals
      obtain ⟨entry, kept, rfl⟩ := List.mem_map.mp member
      exact ⟨entry, List.mem_of_mem_filter kept, named⟩
  · rintro ⟨⟨kind, item⟩, member, named⟩
    have kept : item ∈ variablesOfKind kind items :=
      List.mem_map.mpr ⟨(kind, item), List.mem_filter.mpr ⟨member, by simp⟩, rfl⟩
    cases kind with
    | static => exact .inr ⟨item, kept, named⟩
    | field => exact .inl ⟨item, kept, named⟩

/-- A variable may be used when it is declared by the subroutine or the class, or predefined. -/
theorem Use.violation?_reference_eq_none_iff {declaration : ClassDeclaration}
    {subroutine : Subroutine} {name : String} :
    (Use.reference name).violation? (meaning? (declaration.visible subroutine)) subroutine.name
        subroutine.kind = none ↔
      (∃ item ∈ subroutine.localVariables, item.name = name) ∨
      (∃ item ∈ subroutine.parameters, item.name = name) ∨
      (∃ item ∈ declaration.classVariables, item.2.name = name) ∨
      name = "this" ∨ name = "that" := by
  have found : (Use.reference name).violation? (meaning? (declaration.visible subroutine))
      subroutine.name subroutine.kind = none ↔
        ∃ item ∈ declaration.visible subroutine, item.name = name := by
    rw [Use.violation?]
    cases result : meaning? (declaration.visible subroutine) name with
    | none => simpa [meaning?] using result
    | some item =>
      have named : item.name = name := by simpa using List.find?_some result
      simp only [true_iff]
      exact ⟨item, List.mem_of_find?_eq_some result, named⟩
  rw [found, ← exists_mem_variablesOfKind_iff]
  simp only [ClassDeclaration.visible, predefinedVariables, List.mem_append, List.mem_cons,
    List.not_mem_nil, or_false, or_and_right, exists_or, exists_eq_left, or_assoc, eq_comm]

theorem Use.violation?_currentObject_eq_none_iff {meaning : String → Option Variable}
    {subroutine : String} {kind : SubroutineKind} :
    Use.currentObject.violation? meaning subroutine kind = none ↔ kind ≠ .function := by
  simp [Use.violation?]

theorem Use.violation?_receiver_eq_none_iff {meaning : String → Option Variable}
    {name method subroutine : String} {kind : SubroutineKind} :
    (Use.receiver name method).violation? meaning subroutine kind = none ↔
      ∀ item, meaning name = some item → ¬ item.type.isPrimitive := by
  rw [Use.violation?]
  cases meaning name <;> simp

/-- A class has no violation exactly when it is well scoped. -/
theorem ClassDeclaration.violations_eq_nil_iff (declaration : ClassDeclaration) :
    declaration.violations = [] ↔ declaration.WellScoped := by
  simp only [ClassDeclaration.violations, ClassDeclaration.violationsIn, List.append_eq_nil_iff,
    List.flatMap_eq_nil_iff, List.filterMap_eq_nil_iff, redeclarations_eq_nil_iff]
  constructor
  · rintro ⟨shared, each⟩
    refine ⟨shared, fun subroutine member => (each subroutine member).1.1,
      fun subroutine member => (each subroutine member).1.2, ?_, ?_, ?_⟩
    · intro subroutine member name use
      exact Use.violation?_reference_eq_none_iff.mp ((each subroutine member).2 _ use)
    · intro subroutine member function use
      exact Use.violation?_currentObject_eq_none_iff.mp ((each subroutine member).2 _ use) function
    · intro subroutine member name method use
      exact Use.violation?_receiver_eq_none_iff.mp ((each subroutine member).2 _ use)
  · intro wellScoped
    refine ⟨wellScoped.classVariables, fun subroutine member =>
      ⟨⟨wellScoped.parameters subroutine member, wellScoped.locals subroutine member⟩, ?_⟩⟩
    intro use used
    cases use with
    | reference name =>
      exact Use.violation?_reference_eq_none_iff.mpr (wellScoped.names subroutine member name used)
    | currentObject =>
      refine Use.violation?_currentObject_eq_none_iff.mpr fun function => ?_
      exact wellScoped.currentObject subroutine member function used
    | receiver name method =>
      exact Use.violation?_receiver_eq_none_iff.mpr
        (wellScoped.receivers subroutine member name method used)

end Judgement

/-- A class has code exactly when it is well scoped. Otherwise code generation fails with the first
of its violations. -/
theorem ClassDeclaration.lower_reports_first_violation (declaration : ClassDeclaration)
    (options : Options) :
    ((∃ code, declaration.lower options = .ok code) ↔ declaration.WellScoped) ∧
      ∀ error, declaration.lower options = .error error ↔
        declaration.violations.head? = some error := by
  have reports := declaration.reports_lower options
  refine ⟨?_, reports.eq_error_iff⟩
  rw [reports.exists_ok_iff, declaration.violations_eq_nil_iff]

/-- An assignment to a variable reports its value first, an assignment to an element its array. -/
example :
    let missing : Expression := .term (.name "missing")
    let body (statement : Statement) : ClassDeclaration :=
      ⟨"Main", [], [⟨.function, none, "main", [], ⟨[], [statement]⟩⟩]⟩
    (body (.assign "target" missing)).lower ⟨true⟩ =
        .error (.resolution (.unresolved "missing" "main")) ∧
      (body (.assignElement "target" missing missing)).lower ⟨true⟩ =
        .error (.resolution (.unresolved "target" "main")) := by
  decide

end Jack
