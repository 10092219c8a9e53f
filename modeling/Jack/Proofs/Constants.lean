import Jack.Proofs.Literals
import Jack.Proofs.Operands

/-!
# Constants of generated code

The constants that code pushes are those of its source, in order. A number is pushed as it is, and a
string as its length and the codes of its characters. The machine holds numbers in sixteen bits, but
nothing is lost: numbers of a source fit into fifteen. The number of fields that a constructor allocates
is the one constant that does not stand in the source.
-/

namespace Jack

/-- The constant that an instruction pushes. -/
def Instruction.constant? : Instruction → Option Nat
  | .push segment value => if segment = .constant then some value else none
  | .pop .. | .arithmetic _ | .label _ | .goto _ | .ifGoto _ | .call .. | .function .. | .return => none

/-- The constants that code pushes, in order. -/
def pushedConstants (code : List Instruction) : List Nat :=
  code.filterMap Instruction.constant?

/-- The constants that a terminal of an expression stands for. -/
def Terminal.constants : Terminal → List Nat
  | .integer value => [value.toNat]
  | .string text => text.length :: text.toList.map Char.toNat
  | .keyword .true | .keyword .false | .keyword .null => [0]
  | .keyword _ | .symbol _ | .identifier _ => []

/-- The constants that the terminals of an expression stand for, in order. -/
def writtenConstants (terminals : List Terminal) : List Nat :=
  terminals.flatMap Terminal.constants

mutual

/-- The constants of a statement. A subroutine that gives no value gives zero. -/
def Statement.constants : Statement → List Nat
  | .assign _ value => writtenConstants value.yield
  | .assignElement _ index value => writtenConstants index.yield ++ writtenConstants value.yield
  | .ifThen condition body | .whileLoop condition body =>
    writtenConstants condition.yield ++ statementConstants body
  | .ifElse condition body alternative =>
    writtenConstants condition.yield ++ statementConstants body ++ statementConstants alternative
  | .perform call => writtenConstants call.yield
  | .return none => [0]
  | .return (some value) => writtenConstants value.yield

/-- The constants of statements that follow each other. -/
def statementConstants : List Statement → List Nat
  | [] => []
  | statement :: others => statement.constants ++ statementConstants others

end

section Instructions

variable {segment : Segment} {operation : Arithmetic} {index : Nat} {name : String}

@[simp] theorem Instruction.constant?_push (other : segment ≠ .constant) :
    (push segment index).constant? = none :=
  if_neg other

@[simp] theorem Instruction.constant?_pop : (pop segment index).constant? = none := rfl

@[simp] theorem Instruction.constant?_arithmetic : (arithmetic operation).constant? = none := rfl

@[simp] theorem Instruction.constant?_label : (label name).constant? = none := rfl

@[simp] theorem Instruction.constant?_goto : (goto name).constant? = none := rfl

@[simp] theorem Instruction.constant?_ifGoto : (ifGoto name).constant? = none := rfl

@[simp] theorem Instruction.constant?_call : (call name index).constant? = none := rfl

@[simp] theorem Instruction.constant?_return : Instruction.return.constant? = none := rfl

@[simp] theorem Slot.constant?_load (slot : Slot) : slot.load.constant? = none := by
  unfold Slot.load Slot.segment
  cases slot.kind <;> rfl

@[simp] theorem BinaryOperator.constant?_instruction (operator : BinaryOperator) :
    operator.instruction.constant? = none := by
  cases operator <;> rfl

@[simp] theorem UnaryOperator.constant?_instruction (operator : UnaryOperator) :
    operator.instruction.constant? = none := by
  cases operator <;> rfl

end Instructions

section Lists

@[simp] theorem pushedConstants_nil : pushedConstants [] = [] := rfl

@[simp] theorem pushedConstants_append (first second : List Instruction) :
    pushedConstants (first ++ second) = pushedConstants first ++ pushedConstants second :=
  List.filterMap_append

@[simp] theorem pushedConstants_cons (instruction : Instruction) (code : List Instruction) :
    pushedConstants (instruction :: code) =
      instruction.constant?.toList ++ pushedConstants code := by
  rw [pushedConstants, List.filterMap_cons]
  cases instruction.constant? <;> rfl

@[simp] theorem writtenConstants_nil : writtenConstants [] = [] := rfl

@[simp] theorem writtenConstants_append (first second : List Terminal) :
    writtenConstants (first ++ second) = writtenConstants first ++ writtenConstants second :=
  List.flatMap_append

@[simp] theorem writtenConstants_cons (terminal : Terminal) (others : List Terminal) :
    writtenConstants (terminal :: others) = terminal.constants ++ writtenConstants others := rfl

/-- Commas stand for nothing. -/
theorem writtenConstants_commaSeparated {α : Type} (yield : α → List Terminal) (values : List α) :
    writtenConstants (commaSeparated yield values) =
      values.flatMap fun value => writtenConstants (yield value) := by
  cases values with
  | nil => rfl
  | cons first others =>
    rw [commaSeparated, writtenConstants_append, List.flatMap_cons]
    congr 1
    induction others with
    | nil => rfl
    | cons other others inductionHypothesis =>
      rw [List.flatMap_cons, List.flatMap_cons, writtenConstants_append, inductionHypothesis]
      rfl

theorem mem_commaSeparated {α : Type} {yield : α → List Terminal} {values : List α} {value : α}
    {terminal : Terminal} (member : value ∈ values) (within : terminal ∈ yield value) :
    terminal ∈ commaSeparated yield values := by
  cases values with
  | nil => cases member
  | cons first others =>
    rw [commaSeparated, List.mem_append]
    rcases List.mem_cons.mp member with rfl | later
    · exact .inl within
    · exact .inr (List.mem_flatMap.mpr ⟨value, later, List.mem_cons_of_mem _ within⟩)

end Lists

section Expressions

variable {frame : Frame}

/-- A number of fifteen bits is held as it is. -/
theorem toWord_of_le {value : Nat} (small : value ≤ 32767) : toWord value = value :=
  Nat.mod_eq_of_lt (by omega)

theorem pushedConstants_appendCharacters {text : List Char}
    (small : ∀ c ∈ text, c.toNat ≤ 32767) :
    pushedConstants (text.flatMap appendCharacter) = text.map Char.toNat := by
  induction text with
  | nil => rfl
  | cons c text inductionHypothesis =>
    rw [List.forall_mem_cons] at small
    rw [List.flatMap_cons, pushedConstants_append, inductionHypothesis small.2, List.map_cons,
      appendCharacter, toWord_of_le small.1]
    rfl

/-- A string that fits is pushed as its length and the codes of its characters. -/
theorem pushedConstants_stringCode {text : String} (fits : (Terminal.string text).Fits) :
    pushedConstants (stringCode text) = text.length :: text.toList.map Char.toNat := by
  rw [stringCode, pushedConstants_append, pushedConstants_appendCharacters fits.2,
    toWord_of_le fits.1]
  rfl

theorem pushedConstants_receiver {receiver : Option String} {name : String} {dispatch : Dispatch}
    (dispatched : frame.dispatch receiver name = .ok dispatch) :
    pushedConstants dispatch.receiver = [] := by
  unfold Frame.dispatch at dispatched
  split at dispatched
  · cases dispatched
    rfl
  · split at dispatched
    · split at dispatched <;> cases dispatched
      simp
    · cases dispatched
      rfl

mutual

/-- The code of an expression pushes the constants that are written in it. -/
theorem Expression.pushedConstants_lower (expression : Expression)
    (fits : ∀ terminal ∈ expression.yield, terminal.Fits) {code : List Instruction}
    (lowered : expression.lower frame = .ok code) :
    pushedConstants code = writtenConstants expression.yield := by
  cases expression with
  | term only =>
    rw [Expression.lower] at lowered
    rw [Expression.yield] at fits ⊢
    exact only.pushedConstants_lower fits lowered
  | binary left operator right =>
    obtain ⟨leftCode, rightCode, leftLowered, rightLowered, rfl⟩ :=
      Expression.lower_binary_eq_ok_iff.mp lowered
    simp only [Expression.yield, List.forall_mem_append, List.forall_mem_cons] at fits
    simp [Expression.yield, Terminal.constants, left.pushedConstants_lower fits.1 leftLowered,
      right.pushedConstants_lower fits.2.2 rightLowered]

theorem Term.pushedConstants_lower (term : Term) (fits : ∀ terminal ∈ term.yield, terminal.Fits)
    {code : List Instruction} (lowered : term.lower frame = .ok code) :
    pushedConstants code = writtenConstants term.yield := by
  cases term with
  | integer value =>
    rw [Term.lower] at lowered
    cases lowered
    rw [Term.yield]
    rfl
  | string text =>
    rw [Term.lower] at lowered
    cases lowered
    rw [Term.yield, List.forall_mem_singleton] at fits
    rw [pushedConstants_stringCode fits, Term.yield, writtenConstants_cons, writtenConstants_nil,
      List.append_nil, Terminal.constants]
  | constant constant =>
    rw [Term.lower] at lowered
    rw [Term.yield]
    cases constant with
    | this =>
      obtain ⟨slot, _, _, rfl⟩ := KeywordConstant.lower_this_eq_ok_iff.mp lowered
      simp [KeywordConstant.keyword, Terminal.constants]
    | _ =>
      cases lowered
      rfl
  | name name =>
    obtain ⟨slot, _, rfl⟩ := Term.lower_name_eq_ok_iff.mp lowered
    simp [Term.yield, Terminal.constants]
  | element array index =>
    obtain ⟨slot, indexCode, _, indexLowered, rfl⟩ := Term.lower_element_eq_ok_iff.mp lowered
    simp only [Term.yield, List.forall_mem_append] at fits
    have inside := index.pushedConstants_lower fits.1.2 indexLowered
    simp [Term.yield, Terminal.constants, inside]
  | call call =>
    rw [Term.lower] at lowered
    rw [Term.yield] at fits ⊢
    exact call.pushedConstants_lower fits lowered
  | unary operator operand =>
    obtain ⟨operandCode, operandLowered, rfl⟩ := Term.lower_unary_eq_ok_iff.mp lowered
    simp only [Term.yield, List.forall_mem_cons] at fits
    simp [Term.yield, Terminal.constants, operand.pushedConstants_lower fits.2 operandLowered]
  | group inner =>
    rw [Term.lower] at lowered
    simp only [Term.yield, List.forall_mem_append] at fits
    simp [Term.yield, Terminal.constants, inner.pushedConstants_lower fits.1.2 lowered]

theorem Call.pushedConstants_lower (call : Call) (fits : ∀ terminal ∈ call.yield, terminal.Fits)
    {code : List Instruction} (lowered : call.lower frame = .ok code) :
    pushedConstants code = writtenConstants call.yield := by
  cases call with
  | mk receiver name arguments =>
    obtain ⟨dispatch, argumentCode, dispatched, argumentsLowered, rfl⟩ :=
      Call.lower_eq_ok_iff.mp lowered
    have written : writtenConstants (Call.mk receiver name arguments).yield =
        arguments.flatMap fun argument => writtenConstants argument.yield := by
      rw [← writtenConstants_commaSeparated, ← yieldArguments_eq]
      cases receiver <;> simp [Call.yield, Terminal.constants]
    have inside : ∀ argument ∈ arguments, ∀ terminal ∈ argument.yield, terminal.Fits := by
      intro argument member terminal within
      have among := mem_commaSeparated member within
      rw [← yieldArguments_eq] at among
      refine fits terminal ?_
      cases receiver <;> simp [Call.yield, among]
    rw [written, pushedConstants_append, pushedConstants_append,
      pushedConstants_receiver dispatched,
      pushedConstants_lowerArguments arguments inside argumentsLowered]
    exact List.append_nil _

theorem pushedConstants_lowerArguments (arguments : List Expression)
    (fits : ∀ argument ∈ arguments, ∀ terminal ∈ argument.yield, terminal.Fits)
    {code : List Instruction} (lowered : lowerArguments frame arguments = .ok code) :
    pushedConstants code = arguments.flatMap fun argument => writtenConstants argument.yield := by
  cases arguments with
  | nil =>
    rw [lowerArguments] at lowered
    cases lowered
    rfl
  | cons argument rest =>
    obtain ⟨argumentCode, restCode, argumentLowered, restLowered, rfl⟩ :=
      lowerArguments_cons_eq_ok_iff.mp lowered
    rw [List.forall_mem_cons] at fits
    rw [pushedConstants_append, List.flatMap_cons,
      argument.pushedConstants_lower fits.1 argumentLowered,
      pushedConstants_lowerArguments rest fits.2 restLowered]

end

end Expressions

section Statements

variable {frame : Frame}

mutual

/-- The code of a statement pushes its constants. -/
theorem Statement.pushedConstants_lower (statement : Statement) (used : LabelCount)
    (fits : ∀ terminal ∈ statement.yield, terminal.Fits) {code : List Instruction}
    (lowered : statement.lower frame used = .ok code) :
    pushedConstants code = statement.constants := by
  cases statement with
  | assign target value =>
    obtain ⟨valueCode, slot, valueLowered, _, rfl⟩ :=
      Statement.lower_assign_eq_ok_iff.mp lowered
    simp only [Statement.yield, List.forall_mem_append] at fits
    have valueConstants := value.pushedConstants_lower fits.1.2 valueLowered
    simp [Statement.constants, Slot.store, valueConstants]
  | assignElement array index value =>
    obtain ⟨slot, indexCode, valueCode, _, indexLowered, valueLowered, rfl⟩ :=
      Statement.lower_assignElement_eq_ok_iff.mp lowered
    simp only [Statement.yield, List.forall_mem_append] at fits
    have indexConstants := index.pushedConstants_lower fits.1.1.1.2 indexLowered
    have valueConstants := value.pushedConstants_lower fits.1.2 valueLowered
    simp [Statement.constants, indexConstants, valueConstants]
  | ifThen condition body =>
    obtain ⟨conditionCode, bodyCode, conditionLowered, bodyLowered, rfl⟩ :=
      Statement.lower_ifThen_eq_ok_iff.mp lowered
    simp only [Statement.yield, List.forall_mem_append] at fits
    have conditionConstants := condition.pushedConstants_lower fits.1.1.1.2 conditionLowered
    have bodyConstants := pushedConstants_lowerStatements body _ fits.1.2 bodyLowered
    simp [Statement.constants, conditionConstants, bodyConstants]
  | ifElse condition body alternative =>
    obtain ⟨conditionCode, bodyCode, alternativeCode, conditionLowered, bodyLowered,
      alternativeLowered, rfl⟩ := Statement.lower_ifElse_eq_ok_iff.mp lowered
    simp only [Statement.yield, List.forall_mem_append] at fits
    have conditionConstants := condition.pushedConstants_lower fits.1.1.1.1.1.2 conditionLowered
    have bodyConstants := pushedConstants_lowerStatements body _ fits.1.1.1.2 bodyLowered
    have alternativeConstants :=
      pushedConstants_lowerStatements alternative _ fits.1.2 alternativeLowered
    simp [Statement.constants, conditionConstants, bodyConstants,
      alternativeConstants]
  | whileLoop condition body =>
    obtain ⟨conditionCode, bodyCode, conditionLowered, bodyLowered, rfl⟩ :=
      Statement.lower_whileLoop_eq_ok_iff.mp lowered
    simp only [Statement.yield, List.forall_mem_append] at fits
    have conditionConstants := condition.pushedConstants_lower fits.1.1.1.2 conditionLowered
    have bodyConstants := pushedConstants_lowerStatements body _ fits.1.2 bodyLowered
    simp [Statement.constants, conditionConstants, bodyConstants]
  | perform call =>
    obtain ⟨callCode, callLowered, rfl⟩ := Statement.lower_perform_eq_ok_iff.mp lowered
    simp only [Statement.yield, List.forall_mem_append] at fits
    have callConstants := call.pushedConstants_lower fits.1.2 callLowered
    simp [Statement.constants, callConstants]
  | «return» value =>
    cases value with
    | none =>
      rw [Statement.lower] at lowered
      cases lowered
      rfl
    | some value =>
      obtain ⟨valueCode, valueLowered, rfl⟩ := Statement.lower_return_eq_ok_iff.mp lowered
      simp only [Statement.yield, List.forall_mem_append] at fits
      have valueConstants := value.pushedConstants_lower fits.1.2 valueLowered
      simp [Statement.constants, valueConstants]

theorem pushedConstants_lowerStatements (statements : List Statement) (used : LabelCount)
    (fits : ∀ terminal ∈ yieldStatements statements, terminal.Fits) {code : List Instruction}
    (lowered : lowerStatements frame used statements = .ok code) :
    pushedConstants code = statementConstants statements := by
  cases statements with
  | nil =>
    rw [lowerStatements] at lowered
    cases lowered
    rfl
  | cons statement rest =>
    obtain ⟨statementCode, restCode, statementLowered, restLowered, rfl⟩ :=
      lowerStatements_cons_eq_ok_iff.mp lowered
    rw [yieldStatements, List.forall_mem_append] at fits
    rw [pushedConstants_append, statementConstants,
      statement.pushedConstants_lower used fits.1 statementLowered,
      pushedConstants_lowerStatements rest _ fits.2 restLowered]

end

end Statements

section Bounds

theorem Terminal.le_of_mem_constants {terminal : Terminal} (fits : terminal.Fits) {value : Nat}
    (member : value ∈ terminal.constants) : value ≤ 32767 := by
  cases terminal with
  | integer number =>
    rw [Terminal.constants, List.mem_singleton] at member
    rw [member]
    exact fits
  | string text =>
    rw [Terminal.constants, List.mem_cons, List.mem_map] at member
    obtain rfl | ⟨c, within, rfl⟩ := member
    · exact fits.1
    · exact fits.2 c within
  | keyword word =>
    have zero : ∀ number ∈ (Terminal.keyword word).constants, number = 0 := by
      cases word <;> simp [Terminal.constants]
    rw [zero value member]
    exact Nat.zero_le _
  | symbol | identifier => cases member

theorem le_of_mem_writtenConstants {terminals : List Terminal}
    (fits : ∀ terminal ∈ terminals, terminal.Fits) :
    ∀ value ∈ writtenConstants terminals, value ≤ 32767 := by
  intro value member
  obtain ⟨terminal, among, member⟩ := List.mem_flatMap.mp member
  exact Terminal.le_of_mem_constants (fits terminal among) member

mutual

theorem Statement.le_of_mem_constants (statement : Statement)
    (fits : ∀ terminal ∈ statement.yield, terminal.Fits) :
    ∀ value ∈ statement.constants, value ≤ 32767 := by
  cases statement with
  | assign target value =>
    simp only [Statement.yield, List.forall_mem_append] at fits
    exact le_of_mem_writtenConstants fits.1.2
  | assignElement array index value =>
    simp only [Statement.yield, List.forall_mem_append] at fits
    rw [Statement.constants, List.forall_mem_append]
    exact ⟨le_of_mem_writtenConstants fits.1.1.1.2, le_of_mem_writtenConstants fits.1.2⟩
  | ifThen condition body | whileLoop condition body =>
    simp only [Statement.yield, List.forall_mem_append] at fits
    rw [Statement.constants, List.forall_mem_append]
    exact ⟨le_of_mem_writtenConstants fits.1.1.1.2, le_of_mem_statementConstants body fits.1.2⟩
  | ifElse condition body alternative =>
    simp only [Statement.yield, List.forall_mem_append] at fits
    rw [Statement.constants, List.forall_mem_append, List.forall_mem_append]
    exact ⟨⟨le_of_mem_writtenConstants fits.1.1.1.1.1.2,
      le_of_mem_statementConstants body fits.1.1.1.2⟩,
      le_of_mem_statementConstants alternative fits.1.2⟩
  | perform call =>
    simp only [Statement.yield, List.forall_mem_append] at fits
    exact le_of_mem_writtenConstants fits.1.2
  | «return» value =>
    cases value with
    | none => simp [Statement.constants]
    | some value =>
      simp only [Statement.yield, List.forall_mem_append] at fits
      exact le_of_mem_writtenConstants fits.1.2

theorem le_of_mem_statementConstants (statements : List Statement)
    (fits : ∀ terminal ∈ yieldStatements statements, terminal.Fits) :
    ∀ value ∈ statementConstants statements, value ≤ 32767 := by
  cases statements with
  | nil => exact List.forall_mem_nil _
  | cons statement rest =>
    rw [yieldStatements, List.forall_mem_append] at fits
    rw [statementConstants, List.forall_mem_append]
    exact ⟨statement.le_of_mem_constants fits.1, le_of_mem_statementConstants rest fits.2⟩

end

end Bounds

/-- The constants of the statements of a subroutine and of the return that is added to them. -/
def Subroutine.constants (options : Options) (subroutine : Subroutine) : List Nat :=
  statementConstants subroutine.body.statements ++ if options.completes subroutine then [0] else []

section Classes

theorem Subroutine.le_of_mem_constants {options : Options} {subroutine : Subroutine}
    (fits : ∀ terminal ∈ yieldStatements subroutine.body.statements, terminal.Fits) :
    ∀ value ∈ subroutine.constants options, value ≤ 32767 := by
  rw [Subroutine.constants, List.forall_mem_append]
  refine ⟨le_of_mem_statementConstants _ fits, ?_⟩
  split <;> simp

end Classes

end Jack
