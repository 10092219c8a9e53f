import Jack.Lowering.Class
import Jack.Proofs.Scope

/-!
# When code generation succeeds

Code generation succeeds on a construct when it succeeds on the parts, and then the code is put
together from the code of the parts. Each equivalence here says so for one construct; proofs about
generated code use them and do not open code generation itself.
-/

namespace Jack

/-- A computation succeeds when each of its two steps does. -/
theorem bind_eq_ok_iff {ε α β : Type} {first : Except ε α} {next : α → Except ε β} {result : β} :
    (first >>= next) = .ok result ↔ ∃ value, first = .ok value ∧ next value = .ok result := by
  cases first with
  | error => simp [bind, Except.bind]
  | ok => simp [bind, Except.bind]

/-- A computation without steps gives its value. -/
theorem pure_eq_ok_iff {ε α : Type} {value result : α} :
    (pure value : Except ε α) = .ok result ↔ result = value := by
  simp [pure, Except.pure, eq_comm]

/-- A computation that succeeds gives a value. -/
theorem exists_eq_ok_of_isOk {ε α : Type} {result : Except ε α} (succeeds : result.isOk) :
    ∃ value, result = .ok value := by
  cases result with
  | error => cases succeeds
  | ok value => exact ⟨value, rfl⟩

/-- A variable has a slot when its name stands for something. -/
theorem Frame.resolve_eq_ok_iff {frame : Frame} {name : String} {slot : Slot} :
    frame.resolve name = .ok slot ↔ frame.scope.resolve? name = some slot := by
  unfold Frame.resolve
  split <;> simp_all

/-- The current object has a slot in constructors and methods. -/
theorem Frame.resolveThis_eq_ok_iff {frame : Frame} {slot : Slot} :
    frame.resolveThis = .ok slot ↔
      frame.kind ≠ .function ∧ frame.scope.resolve? "this" = some slot := by
  unfold Frame.resolveThis
  split <;> simp_all [Frame.resolve_eq_ok_iff]

section Expressions

variable {frame : Frame} {code : List Instruction}

theorem KeywordConstant.lower_this_eq_ok_iff :
    KeywordConstant.lower frame .this = .ok code ↔
      ∃ slot, frame.kind ≠ .function ∧ frame.scope.resolve? "this" = some slot ∧
        code = [slot.load] := by
  simp only [KeywordConstant.lower, bind_eq_ok_iff, pure_eq_ok_iff, Frame.resolveThis_eq_ok_iff,
    and_assoc]

theorem Expression.lower_binary_eq_ok_iff {left : Expression} {operator : BinaryOperator}
    {right : Term} :
    (Expression.binary left operator right).lower frame = .ok code ↔
      ∃ leftCode rightCode, left.lower frame = .ok leftCode ∧ right.lower frame = .ok rightCode ∧
        code = leftCode ++ rightCode ++ [operator.instruction] := by
  simp only [Expression.lower, bind_eq_ok_iff, pure_eq_ok_iff, exists_and_left]

theorem Term.lower_name_eq_ok_iff {name : String} :
    (Term.name name).lower frame = .ok code ↔
      ∃ slot, frame.scope.resolve? name = some slot ∧ code = [slot.load] := by
  simp only [Term.lower, bind_eq_ok_iff, pure_eq_ok_iff, Frame.resolve_eq_ok_iff]

theorem Term.lower_element_eq_ok_iff {array : String} {index : Expression} :
    (Term.element array index).lower frame = .ok code ↔
      ∃ slot indexCode, frame.scope.resolve? array = some slot ∧ index.lower frame = .ok indexCode ∧
        code = [slot.load] ++ indexCode ++ [.arithmetic .add, .pop .pointer 1, .push .that 0] := by
  simp only [Term.lower, bind_eq_ok_iff, pure_eq_ok_iff, Frame.resolve_eq_ok_iff,
    exists_and_left]

theorem Term.lower_unary_eq_ok_iff {operator : UnaryOperator} {operand : Term} :
    (Term.unary operator operand).lower frame = .ok code ↔
      ∃ operandCode, operand.lower frame = .ok operandCode ∧
        code = operandCode ++ [operator.instruction] := by
  simp only [Term.lower, bind_eq_ok_iff, pure_eq_ok_iff]

theorem Call.lower_eq_ok_iff {receiver : Option String} {name : String}
    {arguments : List Expression} :
    (Call.mk receiver name arguments).lower frame = .ok code ↔
      ∃ dispatch argumentCode, frame.dispatch receiver name = .ok dispatch ∧
        lowerArguments frame arguments = .ok argumentCode ∧
        code = dispatch.receiver ++ argumentCode ++
          [.call dispatch.target (toWord arguments.length + dispatch.added)] := by
  simp only [Call.lower, bind_eq_ok_iff, pure_eq_ok_iff, exists_and_left]

theorem lowerArguments_cons_eq_ok_iff {argument : Expression} {rest : List Expression} :
    lowerArguments frame (argument :: rest) = .ok code ↔
      ∃ argumentCode restCode, argument.lower frame = .ok argumentCode ∧
        lowerArguments frame rest = .ok restCode ∧ code = argumentCode ++ restCode := by
  simp only [lowerArguments, bind_eq_ok_iff, pure_eq_ok_iff, exists_and_left]

end Expressions

section Statements

variable {frame : Frame} {used : LabelCount} {code : List Instruction}

theorem Statement.lower_assign_eq_ok_iff {target : String} {value : Expression} :
    (Statement.assign target value).lower frame used = .ok code ↔
      ∃ valueCode slot, value.lower frame = .ok valueCode ∧
        frame.scope.resolve? target = some slot ∧ code = valueCode ++ [slot.store] := by
  simp only [Statement.lower, bind_eq_ok_iff, pure_eq_ok_iff, Frame.resolve_eq_ok_iff,
    exists_and_left]

theorem Statement.lower_assignElement_eq_ok_iff {array : String} {index value : Expression} :
    (Statement.assignElement array index value).lower frame used = .ok code ↔
      ∃ slot indexCode valueCode, frame.scope.resolve? array = some slot ∧
        index.lower frame = .ok indexCode ∧ value.lower frame = .ok valueCode ∧
        code = [slot.load] ++ indexCode ++ [.arithmetic .add] ++ valueCode ++
          [.pop .temp 0, .pop .pointer 1, .push .temp 0, .pop .that 0] := by
  simp only [Statement.lower, bind_eq_ok_iff, pure_eq_ok_iff, Frame.resolve_eq_ok_iff,
    exists_and_left]

theorem Statement.lower_ifThen_eq_ok_iff {condition : Expression} {body : List Statement} :
    (Statement.ifThen condition body).lower frame used = .ok code ↔
      ∃ conditionCode bodyCode, condition.lower frame = .ok conditionCode ∧
        lowerStatements frame used.addConditional body = .ok bodyCode ∧
        code = conditionCode ++
          [.ifGoto (trueLabel used.conditionals), .goto (falseLabel used.conditionals),
            .label (trueLabel used.conditionals)] ++
          bodyCode ++ [.label (falseLabel used.conditionals)] := by
  simp only [Statement.lower, bind_eq_ok_iff, pure_eq_ok_iff, exists_and_left]

theorem Statement.lower_ifElse_eq_ok_iff {condition : Expression}
    {body alternative : List Statement} :
    (Statement.ifElse condition body alternative).lower frame used = .ok code ↔
      ∃ conditionCode bodyCode alternativeCode, condition.lower frame = .ok conditionCode ∧
        lowerStatements frame used.addConditional body = .ok bodyCode ∧
        lowerStatements frame (used.addConditional.add (statementLabels body)) alternative =
          .ok alternativeCode ∧
        code = conditionCode ++
          [.ifGoto (trueLabel used.conditionals), .goto (falseLabel used.conditionals),
            .label (trueLabel used.conditionals)] ++
          bodyCode ++
          [.goto (endLabel used.conditionals), .label (falseLabel used.conditionals)] ++
          alternativeCode ++ [.label (endLabel used.conditionals)] := by
  simp only [Statement.lower, bind_eq_ok_iff, pure_eq_ok_iff, exists_and_left]

theorem Statement.lower_whileLoop_eq_ok_iff {condition : Expression} {body : List Statement} :
    (Statement.whileLoop condition body).lower frame used = .ok code ↔
      ∃ conditionCode bodyCode, condition.lower frame = .ok conditionCode ∧
        lowerStatements frame used.addLoop body = .ok bodyCode ∧
        code = [.label (loopLabel used.loops)] ++ conditionCode ++
          [.arithmetic .not, .ifGoto (exitLabel used.loops)] ++ bodyCode ++
          [.goto (loopLabel used.loops), .label (exitLabel used.loops)] := by
  simp only [Statement.lower, bind_eq_ok_iff, pure_eq_ok_iff, exists_and_left]

theorem Statement.lower_perform_eq_ok_iff {call : Call} :
    (Statement.perform call).lower frame used = .ok code ↔
      ∃ callCode, call.lower frame = .ok callCode ∧ code = callCode ++ [.pop .temp 0] := by
  simp only [Statement.lower, bind_eq_ok_iff, pure_eq_ok_iff]

theorem Statement.lower_return_eq_ok_iff {value : Expression} :
    (Statement.return (some value)).lower frame used = .ok code ↔
      ∃ valueCode, value.lower frame = .ok valueCode ∧ code = valueCode ++ [.return] := by
  simp only [Statement.lower, bind_eq_ok_iff, pure_eq_ok_iff]

theorem lowerStatements_cons_eq_ok_iff {statement : Statement} {rest : List Statement} :
    lowerStatements frame used (statement :: rest) = .ok code ↔
      ∃ statementCode restCode, statement.lower frame used = .ok statementCode ∧
        lowerStatements frame (used.add statement.labels) rest = .ok restCode ∧
        code = statementCode ++ restCode := by
  simp only [lowerStatements, bind_eq_ok_iff, pure_eq_ok_iff, exists_and_left]

end Statements

section Classes

variable {options : Options} {scope : Scope} {code : List Instruction}

/-- A subroutine has a frame when its variables can be declared. -/
theorem Subroutine.frameIn_eq_ok_iff {subroutine : Subroutine} {frame : Frame} :
    subroutine.frameIn scope = .ok frame ↔
      (subroutine.scopeIn scope).2 = .ok () ∧
        frame = ⟨(subroutine.scopeIn scope).1, subroutine.name, subroutine.kind⟩ := by
  unfold Subroutine.frameIn
  split
  case h_1 entered => simp [entered, eq_comm]
  case h_2 entered => simp [entered]

theorem Subroutine.lower_eq_ok_iff {subroutine : Subroutine} :
    subroutine.lower options scope = .ok code ↔
      ∃ frame body, subroutine.frameIn scope = .ok frame ∧
        lowerStatements frame .none subroutine.body.statements = .ok body ∧
        code = [.function (qualified frame.scope.className subroutine.name)
            frame.scope.locals.count.toNat] ++
          subroutine.kind.prologue frame.scope.fields.count.toNat ++ body ++
          (if options.completes subroutine then [.push .constant 0, .return] else []) := by
  simp only [Subroutine.lower, bind_eq_ok_iff, pure_eq_ok_iff, exists_and_left]

theorem lowerSubroutines_cons_eq_ok_iff {subroutine : Subroutine} {rest : List Subroutine} :
    lowerSubroutines options scope (subroutine :: rest) = .ok code ↔
      ∃ block restCode, subroutine.lower options scope = .ok block ∧
        lowerSubroutines options (subroutine.scopeIn scope).1 rest = .ok restCode ∧
        code = block ++ restCode := by
  simp only [lowerSubroutines, bind_eq_ok_iff, pure_eq_ok_iff, exists_and_left]

/-- A class has code when its variables can be declared and its subroutines have code. -/
theorem ClassDeclaration.lower_eq_ok_iff {declaration : ClassDeclaration} :
    declaration.lower options = .ok code ↔
      declaration.scope.2 = .ok () ∧
        lowerSubroutines options declaration.scope.1 declaration.subroutines = .ok code := by
  unfold ClassDeclaration.lower
  split <;> simp_all

end Classes

/-- In its frame a subroutine has the variables of the scope around it and those it declares itself. -/
theorem Subroutine.enters_of_frameIn {subroutine : Subroutine} {scope : Scope} {frame : Frame}
    (framed : subroutine.frameIn scope = .ok frame) :
    frame.scope.Enters scope subroutine.kind subroutine.parameters subroutine.localVariables := by
  obtain ⟨entered, rfl⟩ := Subroutine.frameIn_eq_ok_iff.mp framed
  exact Scope.enters_of_ok entered

/-- A table counts its variables in sixteen bits. -/
theorem SlotTable.Holds.toNat_count {table : SlotTable} {first : Nat} {items : List Variable}
    (holds : table.Holds first items) : table.count.toNat = toWord (first + items.length) := by
  rw [holds.count, UInt16.toNat_ofNat']
  rfl

/-- Code begins with a header that names the subroutine and counts its locals. -/
theorem Subroutine.head?_of_lower {options : Options} {scope : Scope} {subroutine : Subroutine}
    {block : List Instruction} (lowered : subroutine.lower options scope = .ok block) :
    block.head? = some (.function (qualified scope.className subroutine.name)
      (toWord subroutine.localVariables.length)) := by
  obtain ⟨frame, body, framed, _, rfl⟩ := Subroutine.lower_eq_ok_iff.mp lowered
  have enters := Subroutine.enters_of_frameIn framed
  rw [enters.className, enters.locals.toNat_count, Nat.zero_add]
  rfl

theorem ClassDeclaration.className_scope (declaration : ClassDeclaration) :
    declaration.scope.1.className = declaration.name :=
  (Scope.declareClassVariables_frame _ declaration.classVariables).1

/-- The variables that a subroutine of a class can name, in the order of declaration. -/
def ClassDeclaration.variableLists (declaration : ClassDeclaration) (subroutine : Subroutine) :
    VariableLists :=
  subroutineLists declaration.name declaration.classVariables subroutine.kind subroutine.parameters
    subroutine.localVariables

/-- The frame of a subroutine has the variables that the subroutine and its class declare. -/
theorem ClassDeclaration.holds_of_frameIn {declaration : ClassDeclaration} {subroutine : Subroutine}
    {frame : Frame} (declared : declaration.scope.2 = .ok ())
    (framed : subroutine.frameIn declaration.scope.1 = .ok frame) :
    frame.scope.Holds (declaration.variableLists subroutine) := by
  obtain ⟨entered, rfl⟩ := Subroutine.frameIn_eq_ok_iff.mp framed
  exact Scope.holds_enterSubroutine declared entered

/-- A subroutine has the same code whatever subroutine stands before it. -/
theorem Subroutine.lower_scopeIn (options : Options) (scope : Scope)
    (subroutine other : Subroutine) :
    subroutine.lower options (other.scopeIn scope).1 = subroutine.lower options scope := by
  have same : subroutine.scopeIn (other.scopeIn scope).1 = subroutine.scopeIn scope :=
    Scope.enterSubroutine_enterSubroutine ..
  simp only [Subroutine.lower, Subroutine.frameIn, same]

/-- The code of subroutines is one block for each, generated from the scope of their class. -/
theorem exists_blocks_of_lowerSubroutines {options : Options} {scope : Scope}
    {subroutines : List Subroutine} {code : List Instruction}
    (lowered : lowerSubroutines options scope subroutines = .ok code) :
    ∃ blocks, code = blocks.flatten ∧
      List.Forall₂ (fun subroutine block => subroutine.lower options scope = .ok block)
        subroutines blocks := by
  induction subroutines generalizing scope code with
  | nil =>
    cases lowered
    exact ⟨[], rfl, .nil⟩
  | cons subroutine rest inductionHypothesis =>
    obtain ⟨block, restCode, first, others, rfl⟩ := lowerSubroutines_cons_eq_ok_iff.mp lowered
    obtain ⟨blocks, rfl, each⟩ := inductionHypothesis others
    simp only [Subroutine.lower_scopeIn] at each
    exact ⟨block :: blocks, rfl, .cons first each⟩

end Jack
