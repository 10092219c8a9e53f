import Jack.Proofs.Lowering

/-!
# What generated code is made of

Code for expressions and statements is put together from few kinds of instructions. `Scope.Evaluates`
and `Scope.Performs` list them: a variable that is read or written is one that a name stands for in the
scope, and the other operands are fixed. What holds of these instructions holds of all generated code.
-/

namespace Jack

namespace Scope

/-- The instructions that code for expressions is made of. -/
inductive Evaluates (scope : Scope) : Instruction → Prop where
  | constant (value : Nat) : scope.Evaluates (.push .constant value)
  | load {name : String} {slot : Slot} (resolves : scope.resolve? name = some slot) :
      scope.Evaluates slot.load
  | currentObject : scope.Evaluates (.push .pointer 0)
  | selectElement : scope.Evaluates (.pop .pointer 1)
  | readElement : scope.Evaluates (.push .that 0)
  | arithmetic (operation : Arithmetic) : scope.Evaluates (.arithmetic operation)
  | call (function : String) (arguments : Nat) : scope.Evaluates (.call function arguments)

/-- The instructions that code for statements is made of. -/
inductive Performs (scope : Scope) : Instruction → Prop where
  | evaluate {instruction : Instruction} (evaluates : scope.Evaluates instruction) :
      scope.Performs instruction
  | store {name : String} {slot : Slot} (resolves : scope.resolve? name = some slot) :
      scope.Performs slot.store
  | putAside : scope.Performs (.pop .temp 0)
  | takeBack : scope.Performs (.push .temp 0)
  | writeElement : scope.Performs (.pop .that 0)
  | label (name : String) : scope.Performs (.label name)
  | goto (name : String) : scope.Performs (.goto name)
  | ifGoto (name : String) : scope.Performs (.ifGoto name)
  | return : scope.Performs .return

end Scope

section Expressions

variable {frame : Frame}

theorem BinaryOperator.evaluates_instruction (scope : Scope) (operator : BinaryOperator) :
    scope.Evaluates operator.instruction := by
  cases operator with
  | multiply | divide => exact .call _ _
  | _ => exact .arithmetic _

theorem UnaryOperator.evaluates_instruction (scope : Scope) (operator : UnaryOperator) :
    scope.Evaluates operator.instruction := by
  cases operator <;> exact .arithmetic _

theorem evaluates_stringCode (scope : Scope) (text : String) :
    ∀ instruction ∈ stringCode text, scope.Evaluates instruction := by
  intro instruction member
  rw [stringCode, List.mem_append, List.mem_flatMap] at member
  obtain created | ⟨c, _, appended⟩ := member
  · simp only [List.mem_cons, List.not_mem_nil, or_false] at created
    obtain rfl | rfl := created
    · exact .constant _
    · exact .call _ _
  · simp only [appendCharacter, List.mem_cons, List.not_mem_nil, or_false] at appended
    obtain rfl | rfl := appended
    · exact .constant _
    · exact .call _ _

/-- The receiver of a call is the current object or a variable, if it is an object at all. -/
theorem evaluates_receiver {receiver : Option String} {name : String} {dispatch : Dispatch}
    (dispatched : frame.dispatch receiver name = .ok dispatch) :
    ∀ instruction ∈ dispatch.receiver, frame.scope.Evaluates instruction := by
  unfold Frame.dispatch at dispatched
  split at dispatched
  · cases dispatched
    simpa using .currentObject
  · split at dispatched
    · rename_i slot resolves
      split at dispatched
      · cases dispatched
      · cases dispatched
        simpa using .load resolves
    · cases dispatched
      simp

mutual

theorem Expression.evaluates_lower (expression : Expression) {code : List Instruction}
    (lowered : expression.lower frame = .ok code) :
    ∀ instruction ∈ code, frame.scope.Evaluates instruction := by
  cases expression with
  | term only =>
    rw [Expression.lower] at lowered
    exact only.evaluates_lower lowered
  | binary left operator right =>
    obtain ⟨leftCode, rightCode, leftLowered, rightLowered, rfl⟩ :=
      Expression.lower_binary_eq_ok_iff.mp lowered
    simp only [List.forall_mem_append, List.forall_mem_singleton]
    exact ⟨⟨left.evaluates_lower leftLowered, right.evaluates_lower rightLowered⟩,
      operator.evaluates_instruction _⟩

theorem Term.evaluates_lower (term : Term) {code : List Instruction}
    (lowered : term.lower frame = .ok code) :
    ∀ instruction ∈ code, frame.scope.Evaluates instruction := by
  cases term with
  | integer value =>
    rw [Term.lower] at lowered
    cases lowered
    simpa using .constant _
  | string text =>
    rw [Term.lower] at lowered
    cases lowered
    exact evaluates_stringCode _ text
  | constant constant =>
    rw [Term.lower] at lowered
    cases constant with
    | this =>
      obtain ⟨slot, _, resolves, rfl⟩ := KeywordConstant.lower_this_eq_ok_iff.mp lowered
      simpa using .load resolves
    | true =>
      cases lowered
      simpa using ⟨.constant 0, .arithmetic .not⟩
    | false | null =>
      cases lowered
      simpa using .constant 0
  | name name =>
    obtain ⟨slot, resolves, rfl⟩ := Term.lower_name_eq_ok_iff.mp lowered
    simpa using .load resolves
  | element array index =>
    obtain ⟨slot, indexCode, resolves, indexLowered, rfl⟩ :=
      Term.lower_element_eq_ok_iff.mp lowered
    simp only [List.forall_mem_append, List.forall_mem_cons, List.not_mem_nil, IsEmpty.forall_iff,
      implies_true, and_true]
    exact ⟨⟨.load resolves, index.evaluates_lower indexLowered⟩, .arithmetic .add, .selectElement,
      .readElement⟩
  | call call =>
    rw [Term.lower] at lowered
    exact call.evaluates_lower lowered
  | unary operator operand =>
    obtain ⟨operandCode, operandLowered, rfl⟩ := Term.lower_unary_eq_ok_iff.mp lowered
    simp only [List.forall_mem_append, List.forall_mem_singleton]
    exact ⟨operand.evaluates_lower operandLowered, operator.evaluates_instruction _⟩
  | group inner =>
    rw [Term.lower] at lowered
    exact inner.evaluates_lower lowered

theorem Call.evaluates_lower (call : Call) {code : List Instruction}
    (lowered : call.lower frame = .ok code) :
    ∀ instruction ∈ code, frame.scope.Evaluates instruction := by
  cases call with
  | mk receiver name arguments =>
    obtain ⟨dispatch, argumentCode, dispatched, argumentsLowered, rfl⟩ :=
      Call.lower_eq_ok_iff.mp lowered
    simp only [List.forall_mem_append, List.forall_mem_singleton]
    exact ⟨⟨evaluates_receiver dispatched, evaluates_lowerArguments arguments argumentsLowered⟩,
      .call _ _⟩

theorem evaluates_lowerArguments (arguments : List Expression) {code : List Instruction}
    (lowered : lowerArguments frame arguments = .ok code) :
    ∀ instruction ∈ code, frame.scope.Evaluates instruction := by
  cases arguments with
  | nil =>
    rw [lowerArguments] at lowered
    cases lowered
    simp
  | cons argument rest =>
    obtain ⟨argumentCode, restCode, argumentLowered, restLowered, rfl⟩ :=
      lowerArguments_cons_eq_ok_iff.mp lowered
    rw [List.forall_mem_append]
    exact ⟨argument.evaluates_lower argumentLowered, evaluates_lowerArguments rest restLowered⟩

end

end Expressions

section Statements

variable {frame : Frame}

/-- Code for an expression may stand in the code for a statement. -/
theorem Expression.performs_lower (expression : Expression) {code : List Instruction}
    (lowered : expression.lower frame = .ok code) :
    ∀ instruction ∈ code, frame.scope.Performs instruction :=
  fun instruction member => .evaluate (expression.evaluates_lower lowered instruction member)

mutual

theorem Statement.performs_lower (used : LabelCount) (statement : Statement)
    {code : List Instruction} (lowered : statement.lower frame used = .ok code) :
    ∀ instruction ∈ code, frame.scope.Performs instruction := by
  cases statement with
  | assign target value =>
    obtain ⟨valueCode, slot, valueLowered, resolves, rfl⟩ :=
      Statement.lower_assign_eq_ok_iff.mp lowered
    simp only [List.forall_mem_append, List.forall_mem_singleton]
    exact ⟨value.performs_lower valueLowered, .store resolves⟩
  | assignElement array index value =>
    obtain ⟨slot, indexCode, valueCode, resolves, indexLowered, valueLowered, rfl⟩ :=
      Statement.lower_assignElement_eq_ok_iff.mp lowered
    simp only [List.forall_mem_append, List.forall_mem_cons, List.not_mem_nil, IsEmpty.forall_iff,
      implies_true, and_true]
    exact ⟨⟨⟨⟨.evaluate (.load resolves), index.performs_lower indexLowered⟩,
      .evaluate (.arithmetic .add)⟩, value.performs_lower valueLowered⟩, .putAside,
      .evaluate .selectElement, .takeBack, .writeElement⟩
  | ifThen condition body =>
    obtain ⟨conditionCode, bodyCode, conditionLowered, bodyLowered, rfl⟩ :=
      Statement.lower_ifThen_eq_ok_iff.mp lowered
    simp only [List.forall_mem_append, List.forall_mem_cons, List.not_mem_nil, IsEmpty.forall_iff,
      implies_true, and_true]
    exact ⟨⟨⟨condition.performs_lower conditionLowered, .ifGoto _, .goto _, .label _⟩,
      performs_lowerStatements _ body bodyLowered⟩, .label _⟩
  | ifElse condition body alternative =>
    obtain ⟨conditionCode, bodyCode, alternativeCode, conditionLowered, bodyLowered,
      alternativeLowered, rfl⟩ := Statement.lower_ifElse_eq_ok_iff.mp lowered
    simp only [List.forall_mem_append, List.forall_mem_cons, List.not_mem_nil, IsEmpty.forall_iff,
      implies_true, and_true]
    exact ⟨⟨⟨⟨⟨condition.performs_lower conditionLowered, .ifGoto _, .goto _, .label _⟩,
      performs_lowerStatements _ body bodyLowered⟩, .goto _, .label _⟩,
      performs_lowerStatements _ alternative alternativeLowered⟩, .label _⟩
  | whileLoop condition body =>
    obtain ⟨conditionCode, bodyCode, conditionLowered, bodyLowered, rfl⟩ :=
      Statement.lower_whileLoop_eq_ok_iff.mp lowered
    simp only [List.forall_mem_append, List.forall_mem_cons, List.not_mem_nil, IsEmpty.forall_iff,
      implies_true, and_true]
    exact ⟨⟨⟨⟨.label _, condition.performs_lower conditionLowered⟩,
      .evaluate (.arithmetic .not), .ifGoto _⟩, performs_lowerStatements _ body bodyLowered⟩,
      .goto _, .label _⟩
  | perform call =>
    obtain ⟨callCode, callLowered, rfl⟩ := Statement.lower_perform_eq_ok_iff.mp lowered
    simp only [List.forall_mem_append, List.forall_mem_singleton]
    exact ⟨fun instruction member => .evaluate (call.evaluates_lower callLowered instruction member),
      .putAside⟩
  | «return» value =>
    cases value with
    | none =>
      rw [Statement.lower] at lowered
      cases lowered
      simpa using ⟨.evaluate (.constant 0), .return⟩
    | some value =>
      obtain ⟨valueCode, valueLowered, rfl⟩ := Statement.lower_return_eq_ok_iff.mp lowered
      simp only [List.forall_mem_append, List.forall_mem_singleton]
      exact ⟨value.performs_lower valueLowered, .return⟩

theorem performs_lowerStatements (used : LabelCount) (statements : List Statement)
    {code : List Instruction} (lowered : lowerStatements frame used statements = .ok code) :
    ∀ instruction ∈ code, frame.scope.Performs instruction := by
  cases statements with
  | nil =>
    rw [lowerStatements] at lowered
    cases lowered
    simp
  | cons statement rest =>
    obtain ⟨statementCode, restCode, statementLowered, restLowered, rfl⟩ :=
      lowerStatements_cons_eq_ok_iff.mp lowered
    rw [List.forall_mem_append]
    exact ⟨statement.performs_lower used statementLowered,
      performs_lowerStatements _ rest restLowered⟩

end

end Statements

end Jack
