import Jack.Proofs.Jumps
import Jack.Proofs.Occurrence
import Mathlib.Data.List.Forall2

/-!
# The height of the stack in generated code

Each instruction of a block can be given the height that the stack has before it, whatever path
leads there. Expressions leave one value more than they found. Statements begin and end with an
empty stack, so labels and jumps are met with an empty stack, and a return with the one value that
it gives back.
-/

namespace Jack

/-- How many values an operation works on. -/
def Arithmetic.operands : Arithmetic → Nat
  | .neg | .not => 1
  | .add | .sub | .eq | .gt | .lt | .and | .or => 2

namespace Instruction

/-- How many values an instruction needs on the stack. -/
def needs : Instruction → Nat
  | .push _ _ | .label _ | .goto _ | .function _ _ => 0
  | .pop _ _ | .ifGoto _ | .return => 1
  | .arithmetic operation => operation.operands
  | .call _ arguments => arguments

/-- How many values an instruction leaves in place of those that it needs. -/
def leaves : Instruction → Nat
  | .push _ _ | .arithmetic _ | .call _ _ => 1
  | .pop _ _ | .label _ | .goto _ | .ifGoto _ | .function _ _ | .return => 0

/-- The height of the stack after an instruction that is met at the given height. -/
def heightAfter (instruction : Instruction) (height : Nat) : Nat :=
  height - instruction.needs + instruction.leaves

/-- Whether the instruction below can be reached from this one without a jump. -/
def fallsThrough : Instruction → Bool
  | .goto _ | .return => false
  | _ => true

end Instruction

/-- The heights of the stack before each instruction of a block are the same on every path, no
instruction needs more than there is, and no path leaves the block but by a return of one value. -/
structure StackDiscipline (block : List Instruction) (heights : Nat → Nat) : Prop where
  start : heights 1 = 0
  labels : ∀ place name, block[place]? = some (.label name) → heights place = 0
  gotos : ∀ place name, block[place]? = some (.goto name) → heights place = 0
  returns : ∀ place, block[place]? = some .return → heights place = 1
  enough : ∀ place instruction, block[place]? = some instruction →
    instruction.needs ≤ heights place
  fallThrough : ∀ place instruction, block[place]? = some instruction → instruction.fallsThrough →
    place + 1 < block.length ∧ heights (place + 1) = instruction.heightAfter (heights place)
  jumps : ∀ (place : Nat) (instruction : Instruction) (name : String),
    block[place]? = some instruction → instruction.jumpTarget? = some name →
    (∃ target : Nat, block[target]? = some (.label name)) ∧
      ∀ target : Nat, block[target]? = some (.label name) →
        heights target = instruction.heightAfter (heights place)
  last : block.getLast? = some .return

namespace Instruction

/-- An instruction that neither jumps nor marks a place. -/
def isPlain : Instruction → Bool
  | .push _ _ | .pop _ _ | .arithmetic _ | .call _ _ => true
  | _ => false

/-- The height at which an instruction may stand in the code of a subroutine, behind its header. -/
def MayStandAt : Instruction → Nat → Prop
  | .label _, height | .goto _, height => height = 0
  | .ifGoto _, height | .return, height => height = 1
  | .function _ _, _ => False
  | instruction, height => instruction.needs ≤ height

/-- The height before the next instruction. Where none falls through, a statement begins. -/
def nextHeight (instruction : Instruction) (height : Nat) : Nat :=
  if instruction.fallsThrough then instruction.heightAfter height else 0

end Instruction

/-- Plain code that takes the stack from one height to another. -/
inductive Calculates : Nat → List Instruction → Nat → Prop where
  | nil {height} : Calculates height [] height
  | cons {instruction code height final} (plain : instruction.isPlain)
      (enough : instruction.needs ≤ height)
      (rest : Calculates (instruction.heightAfter height) code final) :
      Calculates height (instruction :: code) final

/-- Code in which every instruction stands at its height. -/
inductive Balanced : Nat → List Instruction → Nat → Prop where
  | nil {height} : Balanced height [] height
  | cons {instruction code height final} (allowed : instruction.MayStandAt height)
      (rest : Balanced (instruction.nextHeight height) code final) :
      Balanced height (instruction :: code) final

section Composition

variable {height middle final : Nat} {first second : List Instruction}

theorem Calculates.append (one : Calculates height first middle)
    (other : Calculates middle second final) : Calculates height (first ++ second) final := by
  induction one with
  | nil => exact other
  | cons plain enough _ inductionHypothesis =>
    exact .cons plain enough (inductionHypothesis other)

theorem Balanced.append (one : Balanced height first middle)
    (other : Balanced middle second final) : Balanced height (first ++ second) final := by
  induction one with
  | nil => exact other
  | cons allowed _ inductionHypothesis => exact .cons allowed (inductionHypothesis other)

/-- Plain code may stand at any height that is enough for it. -/
theorem Calculates.balanced (calculates : Calculates height first final) :
    Balanced height first final := by
  induction calculates with
  | nil => exact .nil
  | cons plain enough _ inductionHypothesis =>
    rename_i instruction code height final _
    cases instruction with
    | push | pop | arithmetic | call => exact .cons enough inductionHypothesis
    | _ => cases plain

/-- A value is given back. -/
theorem Calculates.balanced_return (calculates : Calculates 0 first 1) :
    Balanced 0 (first ++ [.return]) 0 :=
  calculates.balanced.append (.cons rfl .nil)

end Composition

section Instructions

variable (height : Nat)

theorem calculates_push (segment : Segment) (index : Nat) :
    Calculates height [.push segment index] (height + 1) :=
  .cons rfl (Nat.zero_le _) .nil

theorem calculates_pop (segment : Segment) (index : Nat) :
    Calculates (height + 1) [.pop segment index] height :=
  .cons rfl (Nat.le_add_left 1 height) .nil

theorem calculates_call (function : String) (arguments : Nat) :
    Calculates (height + arguments) [.call function arguments] (height + 1) := by
  refine .cons rfl (Nat.le_add_left arguments height) ?_
  simp only [Instruction.heightAfter, Instruction.needs, Instruction.leaves, Nat.add_sub_cancel]
  exact .nil

theorem calculates_unary (operator : UnaryOperator) :
    Calculates (height + 1) [operator.instruction] (height + 1) := by
  cases operator <;> exact .cons rfl (Nat.le_add_left 1 height) .nil

theorem calculates_binary (operator : BinaryOperator) :
    Calculates (height + 2) [operator.instruction] (height + 1) := by
  cases operator with
  | multiply | divide => exact calculates_call height _ 2
  | _ => exact .cons rfl (Nat.le_add_left 2 height) .nil

/-- A string is built in one place of the stack. -/
theorem calculates_stringCode (text : String) :
    Calculates height (stringCode text) (height + 1) := by
  have appended (characters : List Char) :
      Calculates (height + 1) (characters.flatMap appendCharacter) (height + 1) := by
    induction characters with
    | nil => exact .nil
    | cons c rest inductionHypothesis =>
      have one : Calculates (height + 1) (appendCharacter c) (height + 1) :=
        (calculates_push (height + 1) _ _).append (calculates_call height _ 2)
      exact one.append inductionHypothesis
  have created := (calculates_push height .constant (toWord text.length)).append
    (calculates_call height "String.new" 1)
  exact created.append (appended text.toList)

end Instructions

section Expressions

variable {frame : Frame}

/-- A receiver is one value, and it is counted as an argument. -/
theorem calculates_receiver {receiver : Option String} {name : String} {dispatch : Dispatch}
    (dispatched : frame.dispatch receiver name = .ok dispatch) (height : Nat) :
    Calculates height dispatch.receiver (height + dispatch.added) := by
  unfold Frame.dispatch at dispatched
  split at dispatched
  · cases dispatched
    exact calculates_push height _ _
  · split at dispatched
    · split at dispatched
      · cases dispatched
      · cases dispatched
        exact calculates_push height _ _
    · cases dispatched
      exact .nil

mutual

/-- The code of an expression leaves one value. -/
theorem Expression.calculates_lower (expression : Expression) {code : List Instruction}
    (lowered : expression.lower frame = .ok code)
    (small : ∀ size ∈ expression.callSizes, size < 65535) (height : Nat) :
    Calculates height code (height + 1) := by
  cases expression with
  | term only =>
    rw [Expression.lower] at lowered
    rw [Expression.callSizes] at small
    exact only.calculates_lower lowered small height
  | binary left operator right =>
    obtain ⟨leftCode, rightCode, leftLowered, rightLowered, rfl⟩ :=
      Expression.lower_binary_eq_ok_iff.mp lowered
    rw [Expression.callSizes, List.forall_mem_append] at small
    have first := left.calculates_lower leftLowered small.1 height
    have second := right.calculates_lower rightLowered small.2 (height + 1)
    exact (first.append second).append (calculates_binary height operator)

/-- The code of a term leaves one value. -/
theorem Term.calculates_lower (term : Term) {code : List Instruction}
    (lowered : term.lower frame = .ok code) (small : ∀ size ∈ term.callSizes, size < 65535)
    (height : Nat) : Calculates height code (height + 1) := by
  cases term with
  | integer value =>
    rw [Term.lower] at lowered
    cases lowered
    exact calculates_push height _ _
  | string text =>
    rw [Term.lower] at lowered
    cases lowered
    exact calculates_stringCode height text
  | constant constant =>
    rw [Term.lower] at lowered
    cases constant with
    | this =>
      obtain ⟨slot, _, _, rfl⟩ := KeywordConstant.lower_this_eq_ok_iff.mp lowered
      exact calculates_push height _ _
    | true =>
      cases lowered
      exact (calculates_push height _ _).append (calculates_unary height .complement)
    | false | null =>
      cases lowered
      exact calculates_push height _ _
  | name name =>
    obtain ⟨slot, _, rfl⟩ := Term.lower_name_eq_ok_iff.mp lowered
    exact calculates_push height _ _
  | element array index =>
    obtain ⟨slot, indexCode, _, indexLowered, rfl⟩ := Term.lower_element_eq_ok_iff.mp lowered
    rw [Term.callSizes] at small
    have address := (calculates_push height slot.segment slot.index.toNat).append
      (index.calculates_lower indexLowered small (height + 1))
    have selected := (calculates_binary height .add).append (calculates_pop height .pointer 1)
    exact address.append (selected.append (calculates_push height .that 0))
  | call call =>
    rw [Term.lower] at lowered
    rw [Term.callSizes] at small
    exact call.calculates_lower lowered small height
  | unary operator operand =>
    obtain ⟨operandCode, operandLowered, rfl⟩ := Term.lower_unary_eq_ok_iff.mp lowered
    rw [Term.callSizes] at small
    exact (operand.calculates_lower operandLowered small height).append
      (calculates_unary height operator)
  | group inner =>
    rw [Term.lower] at lowered
    rw [Term.callSizes] at small
    exact inner.calculates_lower lowered small height

/-- The code of a call takes the receiver and the arguments and leaves one value. -/
theorem Call.calculates_lower (call : Call) {code : List Instruction}
    (lowered : call.lower frame = .ok code) (small : ∀ size ∈ call.callSizes, size < 65535)
    (height : Nat) : Calculates height code (height + 1) := by
  cases call with
  | mk receiver name arguments =>
    obtain ⟨dispatch, argumentCode, dispatched, argumentsLowered, rfl⟩ :=
      Call.lower_eq_ok_iff.mp lowered
    rw [Call.callSizes, List.forall_mem_cons] at small
    have passed := (calculates_receiver dispatched height).append
      (calculates_lowerArguments arguments argumentsLowered small.2 _)
    -- The number of arguments is not cut to a word, so the call takes all that were passed.
    have count : toWord arguments.length = arguments.length := Nat.mod_eq_of_lt (by omega)
    rw [count]
    have called := calculates_call height dispatch.target (arguments.length + dispatch.added)
    rw [Nat.add_comm arguments.length, ← Nat.add_assoc] at called
    rw [Nat.add_comm arguments.length]
    exact passed.append called

/-- The code of arguments leaves a value for each of them. -/
theorem calculates_lowerArguments (arguments : List Expression) {code : List Instruction}
    (lowered : lowerArguments frame arguments = .ok code)
    (small : ∀ size ∈ argumentCallSizes arguments, size < 65535) (height : Nat) :
    Calculates height code (height + arguments.length) := by
  cases arguments with
  | nil =>
    rw [lowerArguments] at lowered
    cases lowered
    exact .nil
  | cons argument rest =>
    obtain ⟨argumentCode, restCode, argumentLowered, restLowered, rfl⟩ :=
      lowerArguments_cons_eq_ok_iff.mp lowered
    rw [argumentCallSizes, List.forall_mem_append] at small
    have first := argument.calculates_lower argumentLowered small.1 height
    have others := calculates_lowerArguments rest restLowered small.2 (height + 1)
    rw [Nat.add_assoc, Nat.add_comm 1] at others
    exact first.append others

end

end Expressions

section Forms

variable {condition body alternative : List Instruction}

theorem Balanced.ifThen (tested : Calculates 0 condition 1) (inside : Balanced 0 body 0)
    (holds fails : String) :
    Balanced 0
      (condition ++ [.ifGoto holds, .goto fails, .label holds] ++ body ++ [.label fails]) 0 := by
  have jumped : Balanced 1 [.ifGoto holds, .goto fails, .label holds] 0 :=
    .cons rfl (.cons rfl (.cons rfl .nil))
  exact ((tested.balanced.append jumped).append inside).append (.cons rfl .nil)

theorem Balanced.ifElse (tested : Calculates 0 condition 1) (inside : Balanced 0 body 0)
    (outside : Balanced 0 alternative 0) (holds fails ends : String) :
    Balanced 0 (condition ++ [.ifGoto holds, .goto fails, .label holds] ++ body ++
      [.goto ends, .label fails] ++ alternative ++ [.label ends]) 0 := by
  have jumped : Balanced 1 [.ifGoto holds, .goto fails, .label holds] 0 :=
    .cons rfl (.cons rfl (.cons rfl .nil))
  have passed : Balanced 0 [.goto ends, .label fails] 0 := .cons rfl (.cons rfl .nil)
  have first := (tested.balanced.append jumped).append inside
  exact ((first.append passed).append outside).append (.cons rfl .nil)

theorem Balanced.whileLoop (tested : Calculates 0 condition 1) (inside : Balanced 0 body 0)
    (begins ends : String) :
    Balanced 0 ([.label begins] ++ condition ++ [.arithmetic .not, .ifGoto ends] ++ body ++
      [.goto begins, .label ends]) 0 := by
  have begun : Balanced 0 [.label begins] 0 := .cons rfl .nil
  have left : Balanced 1 [.arithmetic .not, .ifGoto ends] 0 :=
    .cons (Nat.le_refl 1) (.cons rfl .nil)
  have repeated : Balanced 0 [.goto begins, .label ends] 0 := .cons rfl (.cons rfl .nil)
  exact (((begun.append tested.balanced).append left).append inside).append repeated

end Forms

section Statements

variable {frame : Frame}

mutual

theorem Statement.balanced_lower (used : LabelCount) (statement : Statement)
    {code : List Instruction} (lowered : statement.lower frame used = .ok code)
    (small : ∀ size ∈ statement.callSizes, size < 65535) : Balanced 0 code 0 := by
  cases statement with
  | assign target value =>
    obtain ⟨valueCode, slot, valueLowered, _, rfl⟩ := Statement.lower_assign_eq_ok_iff.mp lowered
    rw [Statement.callSizes] at small
    exact ((value.calculates_lower valueLowered small 0).append (calculates_pop 0 _ _)).balanced
  | assignElement array index value =>
    obtain ⟨slot, indexCode, valueCode, _, indexLowered, valueLowered, rfl⟩ :=
      Statement.lower_assignElement_eq_ok_iff.mp lowered
    rw [Statement.callSizes, List.forall_mem_append] at small
    have address := ((calculates_push 0 slot.segment slot.index.toNat).append
      (index.calculates_lower indexLowered small.1 1)).append (calculates_binary 0 .add)
    -- The address stays below the value until the value is put aside.
    have both := address.append (value.calculates_lower valueLowered small.2 1)
    have aside := (calculates_pop 1 .temp 0).append (calculates_pop 0 .pointer 1)
    have stored := (calculates_push 0 .temp 0).append (calculates_pop 0 .that 0)
    exact (both.append (aside.append stored)).balanced
  | ifThen condition body =>
    obtain ⟨conditionCode, bodyCode, conditionLowered, bodyLowered, rfl⟩ :=
      Statement.lower_ifThen_eq_ok_iff.mp lowered
    rw [Statement.callSizes, List.forall_mem_append] at small
    exact Balanced.ifThen (condition.calculates_lower conditionLowered small.1 0)
      (balanced_lowerStatements _ body bodyLowered small.2) _ _
  | ifElse condition body alternative =>
    obtain ⟨conditionCode, bodyCode, alternativeCode, conditionLowered, bodyLowered,
      alternativeLowered, rfl⟩ := Statement.lower_ifElse_eq_ok_iff.mp lowered
    rw [Statement.callSizes, List.forall_mem_append, List.forall_mem_append] at small
    exact Balanced.ifElse (condition.calculates_lower conditionLowered small.1.1 0)
      (balanced_lowerStatements _ body bodyLowered small.1.2)
      (balanced_lowerStatements _ alternative alternativeLowered small.2) _ _ _
  | whileLoop condition body =>
    obtain ⟨conditionCode, bodyCode, conditionLowered, bodyLowered, rfl⟩ :=
      Statement.lower_whileLoop_eq_ok_iff.mp lowered
    rw [Statement.callSizes, List.forall_mem_append] at small
    exact Balanced.whileLoop (condition.calculates_lower conditionLowered small.1 0)
      (balanced_lowerStatements _ body bodyLowered small.2) _ _
  | perform call =>
    obtain ⟨callCode, callLowered, rfl⟩ := Statement.lower_perform_eq_ok_iff.mp lowered
    rw [Statement.callSizes] at small
    exact ((call.calculates_lower callLowered small 0).append (calculates_pop 0 _ _)).balanced
  | «return» value =>
    cases value with
    | none =>
      rw [Statement.lower] at lowered
      cases lowered
      exact (calculates_push 0 .constant 0).balanced_return
    | some value =>
      obtain ⟨valueCode, valueLowered, rfl⟩ := Statement.lower_return_eq_ok_iff.mp lowered
      rw [Statement.callSizes] at small
      exact (value.calculates_lower valueLowered small 0).balanced_return

theorem balanced_lowerStatements (used : LabelCount) (statements : List Statement)
    {code : List Instruction} (lowered : lowerStatements frame used statements = .ok code)
    (small : ∀ size ∈ statementCallSizes statements, size < 65535) : Balanced 0 code 0 := by
  cases statements with
  | nil =>
    rw [lowerStatements] at lowered
    cases lowered
    exact .nil
  | cons statement rest =>
    obtain ⟨statementCode, restCode, statementLowered, restLowered, rfl⟩ :=
      lowerStatements_cons_eq_ok_iff.mp lowered
    rw [statementCallSizes, List.forall_mem_append] at small
    exact (statement.balanced_lower used statementLowered small.1).append
      (balanced_lowerStatements _ rest restLowered small.2)

end

end Statements

/-- Statements that end in a return have code that ends in one. -/
theorem getLast?_lowerStatements {frame : Frame} {used : LabelCount} {statements : List Statement}
    {code : List Instruction} (lowered : lowerStatements frame used statements = .ok code)
    (ends : endsInReturn statements) : code.getLast? = some .return := by
  induction statements generalizing used code with
  | nil => cases ends
  | cons statement rest inductionHypothesis =>
    obtain ⟨statementCode, restCode, statementLowered, restLowered, rfl⟩ :=
      lowerStatements_cons_eq_ok_iff.mp lowered
    cases rest with
    | cons next others =>
      have last := inductionHypothesis restLowered (by simpa [endsInReturn] using ends)
      rw [List.getLast?_append, last]
      rfl
    | nil =>
      rw [lowerStatements] at restLowered
      cases restLowered
      cases statement with
      | «return» value =>
        cases value with
        | none =>
          rw [Statement.lower] at statementLowered
          cases statementLowered
          rfl
        | some value =>
          obtain ⟨valueCode, _, rfl⟩ := Statement.lower_return_eq_ok_iff.mp statementLowered
          simp
      | _ => cases ends

/-- The code of a subroutine is its header and balanced code that ends in a return. -/
theorem Subroutine.exists_body_of_lower {subroutine : Subroutine} {scope : Scope}
    {block : List Instruction} (lowered : subroutine.lower ⟨true⟩ scope = .ok block)
    (small : ∀ size ∈ statementCallSizes subroutine.body.statements, size < 65535) :
    ∃ body, block = .function (qualified scope.className subroutine.name)
        (toWord subroutine.localVariables.length) :: body ∧
      Balanced 0 body 0 ∧ body.getLast? = some .return := by
  obtain ⟨frame, statements, framed, statementsLowered, rfl⟩ :=
    Subroutine.lower_eq_ok_iff.mp lowered
  have prologue (fields : Nat) : Balanced 0 (subroutine.kind.prologue fields) 0 := by
    cases subroutine.kind with
    | constructor =>
      have allocated := (calculates_push 0 .constant fields).append
        (calculates_call 0 "Memory.alloc" 1)
      exact (allocated.append (calculates_pop 0 .pointer 0)).balanced
    | method => exact ((calculates_push 0 .argument 0).append (calculates_pop 0 .pointer 0)).balanced
    | function => exact .nil
  have opened := (prologue scope.fields.count.toNat).append
    (balanced_lowerStatements _ _ statementsLowered small)
  have enters := Subroutine.enters_of_frameIn framed
  rw [enters.className, enters.fields, enters.locals.toNat_count, Nat.zero_add]
  by_cases ends : endsInReturn subroutine.body.statements
  · refine ⟨subroutine.kind.prologue scope.fields.count.toNat ++ statements, ?_, opened, ?_⟩
    · simp [Options.completes, ends]
    · rw [List.getLast?_append, getLast?_lowerStatements statementsLowered ends]
      rfl
  · refine ⟨subroutine.kind.prologue scope.fields.count.toNat ++ statements ++
      [.push .constant 0, .return], ?_, ?_, ?_⟩
    · simp [Options.completes, ends]
    · exact opened.append (calculates_push 0 .constant 0).balanced_return
    · rw [List.getLast?_append]
      rfl

section Heights

/-- The height before an instruction, counted from the top of the code. -/
def heightBefore (height : Nat) (code : List Instruction) (place : Nat) : Nat :=
  (code.take place).foldl (fun height instruction => instruction.nextHeight height) height

variable {height final place : Nat} {code body : List Instruction} {instruction : Instruction}

theorem heightBefore_succ (present : code[place]? = some instruction) :
    heightBefore height code (place + 1) =
      instruction.nextHeight (heightBefore height code place) := by
  simp [heightBefore, List.take_add_one, present]

/-- In balanced code every instruction stands at the height that is counted before it. -/
theorem Balanced.mayStandAt (balanced : Balanced height code final)
    (present : code[place]? = some instruction) :
    instruction.MayStandAt (heightBefore height code place) := by
  induction balanced generalizing place with
  | nil => cases present
  | cons allowed _ inductionHypothesis =>
    cases place with
    | zero =>
      cases present
      exact allowed
    | succ place => exact inductionHypothesis present

theorem Instruction.MayStandAt.needs_le (allowed : instruction.MayStandAt height) :
    instruction.needs ≤ height := by
  cases instruction with
  | push | pop | arithmetic | call => exact allowed
  | label | goto => exact Nat.zero_le _
  | ifGoto | «return» => exact Nat.le_of_eq allowed.symm
  | function => cases allowed

/-- A jump leaves the stack empty. -/
theorem Instruction.MayStandAt.heightAfter_eq_zero {name : String}
    (allowed : instruction.MayStandAt height) (jumps : instruction.jumpTarget? = some name) :
    instruction.heightAfter height = 0 := by
  cases instruction with
  | goto | ifGoto =>
    have known : height = _ := allowed
    rw [known]
    rfl
  | _ => cases jumps

/-- Balanced code behind a header keeps the discipline of the stack if its jumps stay inside. -/
theorem Balanced.stackDiscipline {name : String} {locals : Nat} (balanced : Balanced 0 body 0)
    (closed : JumpsInside (.function name locals :: body)) (last : body.getLast? = some .return) :
    StackDiscipline (.function name locals :: body)
      (heightBefore 0 (.function name locals :: body)) := by
  -- Only the header stands at the place zero, and it keeps the height.
  have stands : ∀ (place : Nat) (instruction : Instruction),
      (Instruction.function name locals :: body)[place]? = some instruction →
      instruction = .function name locals ∨
        instruction.MayStandAt (heightBefore 0 (.function name locals :: body) place) := by
    intro place instruction present
    cases place with
    | zero => exact .inl (Option.some.inj present).symm
    | succ place =>
      rw [List.getElem?_cons_succ] at present
      exact .inr (balanced.mayStandAt present)
  have label : ∀ place label, (Instruction.function name locals :: body)[place]? =
      some (.label label) → heightBefore 0 (.function name locals :: body) place = 0 := by
    intro place label present
    obtain ⟨⟨⟩⟩ | allowed := stands place _ present
    exact allowed
  have final : (Instruction.function name locals :: body).getLast? = some .return := by
    rw [List.getLast?_cons, last]
    rfl
  refine ⟨rfl, label, ?_, ?_, ?_, ?_, ?_, final⟩
  · intro place label present
    obtain ⟨⟨⟩⟩ | allowed := stands place _ present
    exact allowed
  · intro place present
    obtain ⟨⟨⟩⟩ | allowed := stands place _ present
    exact allowed
  · intro place instruction present
    obtain rfl | allowed := stands place _ present
    · exact Nat.zero_le _
    · exact allowed.needs_le
  · intro place instruction present falls
    have inside := (List.getElem?_eq_some_iff.mp present).1
    constructor
    · -- The last instruction is a return, and a return does not fall through.
      by_contra outside
      have here : place = (Instruction.function name locals :: body).length - 1 := by omega
      rw [List.getLast?_eq_getElem?, ← here, present] at final
      cases final
      cases falls
    · rw [heightBefore_succ present, Instruction.nextHeight, if_pos falls]
  · intro place instruction target present jumps
    obtain rfl | allowed := stands place _ present
    · cases jumps
    · have defined := closed instruction (List.mem_of_getElem? present) target jumps
      refine ⟨List.mem_iff_getElem?.mp defined, ?_⟩
      intro landing marked
      rw [label landing target marked, allowed.heightAfter_eq_zero jumps]

end Heights

/-- The code of a class is one block for each of its subroutines, in order. A block begins with the
only header in it, which names the subroutine and counts its locals as a word, and it keeps the
discipline of the stack. -/
theorem ClassDeclaration.lower_keeps_stack_discipline {declaration : ClassDeclaration}
    {code : List Instruction} (lowered : declaration.lower ⟨true⟩ = .ok code)
    (small : ∀ subroutine ∈ declaration.subroutines,
      ∀ size ∈ statementCallSizes subroutine.body.statements, size < 65535) :
    ∃ blocks, code = blocks.flatten ∧
      List.Forall₂ (fun subroutine block =>
        (∃ body, block = .function (qualified declaration.name subroutine.name)
            (toWord subroutine.localVariables.length) :: body ∧
          ∀ name locals, .function name locals ∉ body) ∧
        ∃ heights, StackDiscipline block heights)
        declaration.subroutines blocks := by
  obtain ⟨_, subroutinesLowered⟩ := ClassDeclaration.lower_eq_ok_iff.mp lowered
  obtain ⟨blocks, flat, each⟩ := exists_blocks_of_lowerSubroutines subroutinesLowered
  refine ⟨blocks, flat, ((List.forall₂_and_left _ _).mpr ⟨small, each⟩).imp ?_⟩
  rintro subroutine block ⟨fits, subroutineLowered⟩
  have closed := Subroutine.jumpsInside_lower subroutineLowered
  obtain ⟨body, rfl, balanced, last⟩ := Subroutine.exists_body_of_lower subroutineLowered fits
  rw [declaration.className_scope] at closed ⊢
  refine ⟨⟨body, rfl, ?_⟩, _, balanced.stackDiscipline closed last⟩
  intro name locals member
  obtain ⟨place, present⟩ := List.mem_iff_getElem?.mp member
  exact balanced.mayStandAt present

/-- A method whose last statement is a conditional with a return in both branches, behind a loop
that stores the results of calls. -/
theorem ClassDeclaration.lower_keeps_stack_discipline_search :
    let place : Expression := .term (.name "place")
    let loop : Statement := .whileLoop (.binary place .less (.name "size"))
      [.assignElement "cells" place (.term (.call (.mk none "next" [place, place]))),
        .assign "place" (.binary place .multiply (.unary .negate (.integer 1)))]
    let choice : Statement := .ifElse (.term (.element "cells" place)) [.return (some place)]
      [.return none]
    let search : Subroutine :=
      ⟨.method, some .int, "search", [⟨.int, "size"⟩], ⟨[⟨.int, ["place"]⟩], [loop, choice]⟩⟩
    let row : ClassDeclaration := ⟨"Row", [⟨.field, ⟨.object "Array", ["cells"]⟩⟩], [search]⟩
    ∃ code heights, row.lower ⟨true⟩ = .ok code ∧ StackDiscipline code heights := by
  intro place loop choice search row
  obtain ⟨code, lowered⟩ : ∃ code, row.lower ⟨true⟩ = .ok code := ⟨_, rfl⟩
  obtain ⟨blocks, flat, each⟩ :=
    ClassDeclaration.lower_keeps_stack_discipline lowered (by decide)
  cases each with
  | cons first none =>
    cases none
    obtain ⟨_, heights, kept⟩ := first
    rw [List.flatten_singleton] at flat
    exact ⟨code, heights, lowered, flat ▸ kept⟩

end Jack
