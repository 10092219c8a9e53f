import Jack.Proofs.Lowering
import Jack.Proofs.Machine
import Mathlib.Data.List.Nodup

/-!
# Labels of generated code

The labels that the code of a subroutine defines, in the order in which they stand there. Each is the
mark of a conditional or a loop and carries its number. Marks of different statements have different
numbers and marks of one statement have different roles, so no label is defined twice and every jump
has one place to go to.
-/

namespace Jack

open Machine

/-- The labels that code defines, from top to bottom. -/
def definedLabels (code : List Instruction) : List String :=
  code.filterMap fun
    | .label name => some name
    | _ => none

@[simp] theorem definedLabels_nil : definedLabels [] = [] := rfl

@[simp] theorem definedLabels_append (first second : List Instruction) :
    definedLabels (first ++ second) = definedLabels first ++ definedLabels second :=
  List.filterMap_append

@[simp] theorem definedLabels_label (name : String) (rest : List Instruction) :
    definedLabels (.label name :: rest) = name :: definedLabels rest := rfl

@[simp] theorem definedLabels_goto (name : String) (rest : List Instruction) :
    definedLabels (.goto name :: rest) = definedLabels rest := rfl

@[simp] theorem definedLabels_ifGoto (name : String) (rest : List Instruction) :
    definedLabels (.ifGoto name :: rest) = definedLabels rest := rfl

/-- A label is defined by code that has it as an instruction. -/
theorem mem_definedLabels_iff {code : List Instruction} {name : String} :
    name ∈ definedLabels code ↔ .label name ∈ code := by
  simp only [definedLabels, List.mem_filterMap]
  constructor
  · rintro ⟨instruction, member, named⟩
    cases instruction with
    | label => cases named; exact member
    | _ => cases named
  · intro member
    exact ⟨_, member, rfl⟩

/-- Where labels are unique, a jump to a label arrives where the label stands. -/
theorem codeAt_of_suffix {block rest : List Instruction} {name : String}
    (unique : (definedLabels block).Nodup) (within : (.label name :: rest) <:+ block) :
    codeAt block name = .label name :: rest := by
  obtain ⟨front, rfl⟩ := within
  have absent : name ∉ definedLabels front := by
    intro earlier
    rw [definedLabels_append, definedLabels_label] at unique
    exact (List.nodup_append.mp unique).2.2 name earlier name List.mem_cons_self rfl
  have passed : ∀ instruction ∈ front, decide (instruction ≠ .label name) = true := by
    intro instruction member
    rw [decide_eq_true_eq]
    rintro rfl
    exact absent (mem_definedLabels_iff.mpr member)
  rw [codeAt, List.dropWhile_append_of_pos passed, List.dropWhile_cons_of_neg (by simp)]

/-- What a label marks: the two ways on from a condition, the end of a conditional with an
alternative, and the beginning and end of a loop. -/
inductive LabelRole where
  | whenTrue | whenFalse | conditionalEnd | loopStart | loopEnd
deriving DecidableEq

/-- A label by its role and the number of its statement. -/
structure LabelMark where
  role : LabelRole
  number : Nat
deriving DecidableEq

/-- Different numbers are written differently. -/
theorem toString_injective {first second : Nat} (same : toString first = toString second) :
    first = second := by
  rw [Nat.toString_eq_ofList_toDigits, Nat.toString_eq_ofList_toDigits] at same
  have digits := congrArg (Nat.ofDigitChars 10 · 0) (String.ofList_injective same)
  simpa using digits

/-- The word that a label begins with. -/
def LabelRole.stem : LabelRole → String
  | .whenTrue => "IF_TRUE"
  | .whenFalse => "IF_FALSE"
  | .conditionalEnd => "IF_END"
  | .loopStart => "WHILE_EXP"
  | .loopEnd => "WHILE_END"

namespace LabelMark

/-- How a label is written. -/
def name (mark : LabelMark) : String := mark.role.stem ++ toString mark.number

/-- A label tells its role and its number. -/
theorem name_injective : Function.Injective name := by
  rintro ⟨role, number⟩ ⟨other, otherNumber⟩ same
  have letters := congrArg String.toList same
  have roles : role = other := by
    cases role <;> cases other <;> simp [name, LabelRole.stem] at letters ⊢
  subst roles
  have numbers : number = otherNumber :=
    toString_injective ((String.append_right_inj _).mp same)
  rw [numbers]

end LabelMark

/-- The number that the next label of a role gets. -/
def LabelRole.next (role : LabelRole) (used : LabelCount) : Nat :=
  match role with
  | .whenTrue | .whenFalse | .conditionalEnd => used.conditionals
  | .loopStart | .loopEnd => used.loops

/-- Whether a label is numbered after the labels in use first and before those in use last. -/
def LabelMark.IsBetween (mark : LabelMark) (first last : LabelCount) : Prop :=
  mark.role.next first ≤ mark.number ∧ mark.number < mark.role.next last

mutual

/-- The labels of a statement from top to bottom, with `used` conditionals and loops before it. -/
def Statement.marks (used : LabelCount) : Statement → List LabelMark
  | .ifThen _ body =>
    ⟨.whenTrue, used.conditionals⟩ :: (statementMarks used.addConditional body ++
      [⟨.whenFalse, used.conditionals⟩])
  | .ifElse _ body alternative =>
    ⟨.whenTrue, used.conditionals⟩ :: (statementMarks used.addConditional body ++
      ⟨.whenFalse, used.conditionals⟩ ::
        (statementMarks (used.addConditional.add (statementLabels body)) alternative ++
          [⟨.conditionalEnd, used.conditionals⟩]))
  | .whileLoop _ body =>
    ⟨.loopStart, used.loops⟩ :: (statementMarks used.addLoop body ++ [⟨.loopEnd, used.loops⟩])
  | _ => []

/-- The labels of statements that follow each other. -/
def statementMarks (used : LabelCount) : List Statement → List LabelMark
  | [] => []
  | statement :: rest => statement.marks used ++ statementMarks (used.add statement.labels) rest

end

section Numbers

variable (role : LabelRole) (first second : LabelCount)

@[simp] theorem LabelRole.next_add :
    role.next (first.add second) = role.next first + role.next second := by
  cases role <;> rfl

/-- A conditional uses up one number of the roles that conditionals have. -/
@[simp] theorem LabelRole.next_addConditional :
    role.next first.addConditional = role.next first + role.next ⟨1, 0⟩ := by
  cases role <;> rfl

/-- A loop uses up one number of the roles that loops have. -/
@[simp] theorem LabelRole.next_addLoop :
    role.next first.addLoop = role.next first + role.next ⟨0, 1⟩ := by
  cases role <;> rfl

end Numbers

mutual

/-- The labels of a statement have the numbers that are counted for it. -/
theorem Statement.isBetween_of_mem_marks (used : LabelCount) (statement : Statement)
    {mark : LabelMark} (member : mark ∈ statement.marks used) :
    mark.IsBetween used (used.add statement.labels) := by
  simp only [LabelMark.IsBetween, LabelRole.next_add]
  cases statement with
  | ifThen condition body =>
    simp only [Statement.marks, List.mem_cons, List.mem_append, List.not_mem_nil, or_false] at member
    simp only [Statement.labels, LabelRole.next_addConditional]
    obtain rfl | inner | rfl := member
    case inr.inl =>
      have between := isBetween_of_mem_statementMarks used.addConditional body inner
      simp only [LabelMark.IsBetween, LabelRole.next_add, LabelRole.next_addConditional] at between
      omega
    all_goals simp [LabelRole.next]
  | ifElse condition body alternative =>
    simp only [Statement.marks, List.mem_cons, List.mem_append, List.not_mem_nil, or_false] at member
    simp only [Statement.labels, LabelRole.next_addConditional, LabelRole.next_add]
    obtain rfl | inner | rfl | inner | rfl := member
    case inr.inl =>
      have between := isBetween_of_mem_statementMarks used.addConditional body inner
      simp only [LabelMark.IsBetween, LabelRole.next_add, LabelRole.next_addConditional] at between
      omega
    case inr.inr.inr.inl =>
      have between := isBetween_of_mem_statementMarks _ alternative inner
      simp only [LabelMark.IsBetween, LabelRole.next_add, LabelRole.next_addConditional] at between
      omega
    all_goals simp [LabelRole.next]
  | whileLoop condition body =>
    simp only [Statement.marks, List.mem_cons, List.mem_append, List.not_mem_nil, or_false] at member
    simp only [Statement.labels, LabelRole.next_addLoop]
    obtain rfl | inner | rfl := member
    case inr.inl =>
      have between := isBetween_of_mem_statementMarks used.addLoop body inner
      simp only [LabelMark.IsBetween, LabelRole.next_add, LabelRole.next_addLoop] at between
      omega
    all_goals simp [LabelRole.next]
  | _ => simp [Statement.marks] at member

/-- The labels of statements that follow each other have the numbers that are counted for them. -/
theorem isBetween_of_mem_statementMarks (used : LabelCount) (statements : List Statement)
    {mark : LabelMark} (member : mark ∈ statementMarks used statements) :
    mark.IsBetween used (used.add (statementLabels statements)) := by
  cases statements with
  | nil => simp [statementMarks] at member
  | cons statement rest =>
    rw [statementMarks, List.mem_append] at member
    obtain here | later := member
    · have between := statement.isBetween_of_mem_marks used here
      revert between
      simp only [LabelMark.IsBetween, statementLabels, LabelRole.next_add]
      omega
    · have between := isBetween_of_mem_statementMarks (used.add statement.labels) rest later
      revert between
      simp only [LabelMark.IsBetween, statementLabels, LabelRole.next_add]
      omega

end

/-- A label whose number is in use before some statements is none of theirs. -/
theorem not_mem_statementMarks {used : LabelCount} {mark : LabelMark}
    (before : mark.number < mark.role.next used) (statements : List Statement) :
    mark ∉ statementMarks used statements := by
  intro member
  have between := isBetween_of_mem_statementMarks used statements member
  exact absurd between.1 (Nat.not_le.mpr before)

mutual

/-- No label of a statement is defined twice. -/
theorem Statement.nodup_marks (used : LabelCount) (statement : Statement) :
    (statement.marks used).Nodup := by
  cases statement with
  | ifThen condition body =>
    have inner := nodup_statementMarks used.addConditional body
    have whenTrue : ⟨.whenTrue, used.conditionals⟩ ∉ statementMarks used.addConditional body :=
      not_mem_statementMarks (Nat.lt_succ_self _) body
    have whenFalse : ⟨.whenFalse, used.conditionals⟩ ∉ statementMarks used.addConditional body :=
      not_mem_statementMarks (Nat.lt_succ_self _) body
    simp only [Statement.marks]
    grind
  | ifElse condition body alternative =>
    let later := used.addConditional.add (statementLabels body)
    have bodyMarks := nodup_statementMarks used.addConditional body
    have alternativeMarks := nodup_statementMarks later alternative
    -- The numbers of the alternative begin where those of the body end.
    have apart : ∀ mark ∈ statementMarks used.addConditional body,
        mark ∉ statementMarks later alternative := by
      intro mark member
      have between := isBetween_of_mem_statementMarks used.addConditional body member
      exact not_mem_statementMarks between.2 alternative
    have outside : ∀ role : LabelRole, role.next ⟨1, 0⟩ = 1 → role.next used = used.conditionals →
        ⟨role, used.conditionals⟩ ∉ statementMarks used.addConditional body ∧
          ⟨role, used.conditionals⟩ ∉ statementMarks later alternative := by
      intro role one same
      exact ⟨not_mem_statementMarks (by simp [one, same]) body,
        not_mem_statementMarks (by simp [later, one, same]; omega) alternative⟩
    have whenTrue := outside .whenTrue rfl rfl
    have whenFalse := outside .whenFalse rfl rfl
    have conditionalEnd := outside .conditionalEnd rfl rfl
    simp only [Statement.marks]
    grind
  | whileLoop condition body =>
    have inner := nodup_statementMarks used.addLoop body
    have loopStart : ⟨.loopStart, used.loops⟩ ∉ statementMarks used.addLoop body :=
      not_mem_statementMarks (Nat.lt_succ_self _) body
    have loopEnd : ⟨.loopEnd, used.loops⟩ ∉ statementMarks used.addLoop body :=
      not_mem_statementMarks (Nat.lt_succ_self _) body
    simp only [Statement.marks]
    grind
  | _ => exact List.nodup_nil

/-- No label of statements that follow each other is defined twice. -/
theorem nodup_statementMarks (used : LabelCount) (statements : List Statement) :
    (statementMarks used statements).Nodup := by
  cases statements with
  | nil => exact List.nodup_nil
  | cons statement rest =>
    rw [statementMarks, List.nodup_append]
    refine ⟨statement.nodup_marks used, nodup_statementMarks _ rest, ?_⟩
    rintro mark here _ later rfl
    have first := statement.isBetween_of_mem_marks used here
    exact not_mem_statementMarks first.2 rest later

end

section Expressions

variable {frame : Frame}

/-- The code of a string constant defines no label. -/
theorem definedLabels_stringCode (text : String) : definedLabels (stringCode text) = [] := by
  have characters : ∀ letters : List Char, definedLabels (letters.flatMap appendCharacter) = [] := by
    intro letters
    induction letters with
    | nil => rfl
    | cons c rest inductionHypothesis =>
      rw [List.flatMap_cons, definedLabels_append, inductionHypothesis]
      rfl
  rw [stringCode, definedLabels_append, characters]
  rfl

/-- The code for the receiver of a call defines no label. -/
theorem definedLabels_receiver {receiver : Option String} {name : String} {dispatch : Dispatch}
    (dispatched : frame.dispatch receiver name = .ok dispatch) :
    definedLabels dispatch.receiver = [] := by
  unfold Frame.dispatch at dispatched
  split at dispatched
  · cases dispatched
    rfl
  · split at dispatched
    · split at dispatched <;> cases dispatched
      rfl
    · cases dispatched
      rfl

mutual

/-- The code of an expression defines no label. -/
theorem Expression.definedLabels_lower (expression : Expression) {code : List Instruction}
    (lowered : expression.lower frame = .ok code) : definedLabels code = [] := by
  cases expression with
  | term only =>
    rw [Expression.lower] at lowered
    exact only.definedLabels_lower lowered
  | binary left operator right =>
    obtain ⟨leftCode, rightCode, leftLowered, rightLowered, rfl⟩ :=
      Expression.lower_binary_eq_ok_iff.mp lowered
    rw [definedLabels_append, definedLabels_append, left.definedLabels_lower leftLowered,
      right.definedLabels_lower rightLowered]
    cases operator <;> rfl

/-- The code of a term defines no label. -/
theorem Term.definedLabels_lower (term : Term) {code : List Instruction}
    (lowered : term.lower frame = .ok code) : definedLabels code = [] := by
  cases term with
  | integer value =>
    rw [Term.lower] at lowered
    cases lowered
    rfl
  | string text =>
    rw [Term.lower] at lowered
    cases lowered
    exact definedLabels_stringCode text
  | constant constant =>
    rw [Term.lower] at lowered
    cases constant with
    | this =>
      obtain ⟨slot, _, _, rfl⟩ := KeywordConstant.lower_this_eq_ok_iff.mp lowered
      rfl
    | _ =>
      cases lowered
      rfl
  | name name =>
    obtain ⟨slot, _, rfl⟩ := Term.lower_name_eq_ok_iff.mp lowered
    rfl
  | element array index =>
    obtain ⟨slot, indexCode, _, indexLowered, rfl⟩ := Term.lower_element_eq_ok_iff.mp lowered
    rw [definedLabels_append, definedLabels_append, index.definedLabels_lower indexLowered]
    rfl
  | call call =>
    rw [Term.lower] at lowered
    exact call.definedLabels_lower lowered
  | unary operator operand =>
    obtain ⟨operandCode, operandLowered, rfl⟩ := Term.lower_unary_eq_ok_iff.mp lowered
    rw [definedLabels_append, operand.definedLabels_lower operandLowered]
    cases operator <;> rfl
  | group inner =>
    rw [Term.lower] at lowered
    exact inner.definedLabels_lower lowered

/-- The code of a call defines no label. -/
theorem Call.definedLabels_lower (call : Call) {code : List Instruction}
    (lowered : call.lower frame = .ok code) : definedLabels code = [] := by
  cases call with
  | mk receiver name arguments =>
    obtain ⟨dispatch, argumentCode, dispatched, argumentsLowered, rfl⟩ :=
      Call.lower_eq_ok_iff.mp lowered
    rw [definedLabels_append, definedLabels_append, definedLabels_receiver dispatched,
      definedLabels_lowerArguments arguments argumentsLowered]
    rfl

/-- The code of the arguments of a call defines no label. -/
theorem definedLabels_lowerArguments (arguments : List Expression) {code : List Instruction}
    (lowered : lowerArguments frame arguments = .ok code) : definedLabels code = [] := by
  cases arguments with
  | nil =>
    rw [lowerArguments] at lowered
    cases lowered
    rfl
  | cons argument rest =>
    obtain ⟨argumentCode, restCode, argumentLowered, restLowered, rfl⟩ :=
      lowerArguments_cons_eq_ok_iff.mp lowered
    rw [definedLabels_append, argument.definedLabels_lower argumentLowered,
      definedLabels_lowerArguments rest restLowered]
    rfl

end

end Expressions

section Statements

variable {frame : Frame}

mutual

/-- The code of a statement defines the labels of the statement, in order. -/
theorem Statement.definedLabels_lower (used : LabelCount) (statement : Statement)
    {code : List Instruction} (lowered : statement.lower frame used = .ok code) :
    definedLabels code = (statement.marks used).map LabelMark.name := by
  cases statement with
  | assign target value =>
    obtain ⟨valueCode, slot, valueLowered, _, rfl⟩ :=
      Statement.lower_assign_eq_ok_iff.mp lowered
    rw [definedLabels_append, value.definedLabels_lower valueLowered]
    rfl
  | assignElement array index value =>
    obtain ⟨slot, indexCode, valueCode, _, indexLowered, valueLowered, rfl⟩ :=
      Statement.lower_assignElement_eq_ok_iff.mp lowered
    simp only [definedLabels_append, index.definedLabels_lower indexLowered,
      value.definedLabels_lower valueLowered]
    rfl
  | ifThen condition body =>
    obtain ⟨conditionCode, bodyCode, conditionLowered, bodyLowered, rfl⟩ :=
      Statement.lower_ifThen_eq_ok_iff.mp lowered
    simp [condition.definedLabels_lower conditionLowered,
      definedLabels_lowerStatements _ body bodyLowered, Statement.marks, LabelMark.name,
      LabelRole.stem, trueLabel, falseLabel]
  | ifElse condition body alternative =>
    obtain ⟨conditionCode, bodyCode, alternativeCode, conditionLowered, bodyLowered,
      alternativeLowered, rfl⟩ := Statement.lower_ifElse_eq_ok_iff.mp lowered
    simp [condition.definedLabels_lower conditionLowered,
      definedLabels_lowerStatements _ body bodyLowered,
      definedLabels_lowerStatements _ alternative alternativeLowered, Statement.marks,
      LabelMark.name, LabelRole.stem, trueLabel, falseLabel, endLabel]
  | whileLoop condition body =>
    obtain ⟨conditionCode, bodyCode, conditionLowered, bodyLowered, rfl⟩ :=
      Statement.lower_whileLoop_eq_ok_iff.mp lowered
    have operation : ∀ rest, definedLabels (.arithmetic .not :: rest) = definedLabels rest :=
      fun _ => rfl
    simp [condition.definedLabels_lower conditionLowered, operation,
      definedLabels_lowerStatements _ body bodyLowered, Statement.marks, LabelMark.name,
      LabelRole.stem, loopLabel, exitLabel]
  | perform call =>
    obtain ⟨callCode, callLowered, rfl⟩ := Statement.lower_perform_eq_ok_iff.mp lowered
    rw [definedLabels_append, call.definedLabels_lower callLowered]
    rfl
  | «return» value =>
    cases value with
    | none =>
      rw [Statement.lower] at lowered
      cases lowered
      rfl
    | some value =>
      obtain ⟨valueCode, valueLowered, rfl⟩ := Statement.lower_return_eq_ok_iff.mp lowered
      rw [definedLabels_append, value.definedLabels_lower valueLowered]
      rfl

/-- The code of statements that follow each other defines their labels, in order. -/
theorem definedLabels_lowerStatements (used : LabelCount) (statements : List Statement)
    {code : List Instruction} (lowered : lowerStatements frame used statements = .ok code) :
    definedLabels code = (statementMarks used statements).map LabelMark.name := by
  cases statements with
  | nil =>
    rw [lowerStatements] at lowered
    cases lowered
    rfl
  | cons statement rest =>
    obtain ⟨statementCode, restCode, statementLowered, restLowered, rfl⟩ :=
      lowerStatements_cons_eq_ok_iff.mp lowered
    rw [definedLabels_append, statement.definedLabels_lower used statementLowered,
      definedLabels_lowerStatements _ rest restLowered, statementMarks, List.map_append]

end

end Statements

/-- The labels of a subroutine are those of its statements. -/
theorem Subroutine.definedLabels_lower {options : Options} {scope : Scope} {subroutine : Subroutine}
    {code : List Instruction} (lowered : subroutine.lower options scope = .ok code) :
    definedLabels code =
      (statementMarks .none subroutine.body.statements).map LabelMark.name := by
  obtain ⟨frame, body, _, bodyLowered, rfl⟩ := Subroutine.lower_eq_ok_iff.mp lowered
  have header : ∀ name count, definedLabels [.function name count] = [] := fun _ _ => rfl
  have prologue : definedLabels (subroutine.kind.prologue frame.scope.fields.count.toNat) = [] := by
    cases subroutine.kind <;> rfl
  have ending : definedLabels
      (if options.completes subroutine then [.push .constant 0, .return] else []) = [] := by
    split <;> rfl
  rw [definedLabels_append, definedLabels_append, definedLabels_append, header, prologue, ending,
    definedLabels_lowerStatements _ _ bodyLowered, List.append_nil]
  rfl

/-- No label is defined twice in the code of a subroutine. -/
theorem Subroutine.nodup_definedLabels {options : Options} {scope : Scope} {subroutine : Subroutine}
    {code : List Instruction} (lowered : subroutine.lower options scope = .ok code) :
    (definedLabels code).Nodup := by
  rw [subroutine.definedLabels_lower lowered]
  exact List.Nodup.map LabelMark.name_injective
    (nodup_statementMarks .none subroutine.body.statements)

end Jack
