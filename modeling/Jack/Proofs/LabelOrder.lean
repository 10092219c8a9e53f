import Jack.Proofs.Jumps
import Jack.Proofs.Labels
import Mathlib.Data.List.Forall2

/-!
# The order of labels

Conditionals and loops are numbered in the order in which they begin in the source, however deep they
are nested. Reading the code of a subroutine from top to bottom, the labels that open conditionals, and
those that open loops, count up from zero without a gap, and the end of a conditional is marked exactly
if the conditional has an alternative. Jumps stay within the code of the subroutine.
-/

namespace Jack

/-- The statements that have statements inside. -/
inductive ControlForm where
  | ifThen | ifElse | whileLoop
deriving DecidableEq

mutual

/-- The conditionals and loops of a statement, at any depth, in the order in which they begin. -/
def Statement.controls : Statement → List ControlForm
  | .ifThen _ body => .ifThen :: statementControls body
  | .ifElse _ body alternative =>
    .ifElse :: (statementControls body ++ statementControls alternative)
  | .whileLoop _ body => .whileLoop :: statementControls body
  | _ => []

/-- The conditionals and loops of statements that follow each other. -/
def statementControls : List Statement → List ControlForm
  | [] => []
  | statement :: rest => statement.controls ++ statementControls rest

end

/-- The conditionals among control forms, in order. -/
def conditionalsOf (forms : List ControlForm) : List ControlForm := forms.filter (· ≠ .whileLoop)

/-- The loops among control forms. -/
def loopsOf (forms : List ControlForm) : List ControlForm := forms.filter (· = .whileLoop)

section Forms

variable (first second forms : List ControlForm) (form : ControlForm)

@[simp] theorem conditionalsOf_append :
    conditionalsOf (first ++ second) = conditionalsOf first ++ conditionalsOf second :=
  List.filter_append ..

@[simp] theorem loopsOf_append : loopsOf (first ++ second) = loopsOf first ++ loopsOf second :=
  List.filter_append ..

@[simp] theorem conditionalsOf_cons :
    conditionalsOf (form :: forms) =
      if form = .whileLoop then conditionalsOf forms else form :: conditionalsOf forms := by
  cases form <;> rfl

@[simp] theorem loopsOf_cons :
    loopsOf (form :: forms) =
      if form = .whileLoop then form :: loopsOf forms else loopsOf forms := by
  cases form <;> rfl

end Forms

mutual

/-- The numbers that are counted for a statement are those of its conditionals and loops. -/
theorem Statement.labels_eq (statement : Statement) :
    statement.labels =
      ⟨(conditionalsOf statement.controls).length, (loopsOf statement.controls).length⟩ := by
  cases statement with
  | ifThen condition body =>
    simp [Statement.labels, Statement.controls, statementLabels_eq body, LabelCount.addConditional]
  | ifElse condition body alternative =>
    simp [Statement.labels, Statement.controls, statementLabels_eq body,
      statementLabels_eq alternative, LabelCount.add, LabelCount.addConditional]
  | whileLoop condition body =>
    simp [Statement.labels, Statement.controls, statementLabels_eq body, LabelCount.addLoop]
  | _ => rfl

theorem statementLabels_eq (statements : List Statement) :
    statementLabels statements = ⟨(conditionalsOf (statementControls statements)).length,
      (loopsOf (statementControls statements)).length⟩ := by
  cases statements with
  | nil => rfl
  | cons statement rest =>
    simp [statementLabels, statementControls, statement.labels_eq, statementLabels_eq rest,
      LabelCount.add]

end

section Opening

/-- Whether a label of the role is the first label of its statement. -/
def LabelRole.Opens (role : LabelRole) : Prop := role = .whenTrue ∨ role = .loopStart

/-- The labels of a role with `count` numbers in a row. -/
def marksFrom (role : LabelRole) (first count : Nat) : List LabelMark :=
  (List.range' first count).map (LabelMark.mk role)

theorem marksFrom_add (role : LabelRole) (first count more : Nat) :
    marksFrom role first (count + more) =
      marksFrom role first count ++ marksFrom role (first + count) more := by
  rw [marksFrom, ← List.range'_append_1, List.map_append]
  rfl

variable {role : LabelRole}

/-- A conditional begins with the next label of the role, if the role is one of conditionals. -/
theorem filter_whenTrue (opens : role.Opens) (used : LabelCount) (rest : List LabelMark) :
    (⟨.whenTrue, used.conditionals⟩ :: rest).filter (·.role = role) =
      marksFrom role (role.next used) (role.next ⟨1, 0⟩) ++ rest.filter (·.role = role) := by
  obtain rfl | rfl := opens <;> rfl

/-- A loop begins with the next label of the role, if the role is one of loops. -/
theorem filter_loopStart (opens : role.Opens) (used : LabelCount) (rest : List LabelMark) :
    (⟨.loopStart, used.loops⟩ :: rest).filter (·.role = role) =
      marksFrom role (role.next used) (role.next ⟨0, 1⟩) ++ rest.filter (·.role = role) := by
  obtain rfl | rfl := opens <;> rfl

theorem filter_of_not_opens (opens : role.Opens) {mark : LabelMark} (closes : ¬mark.role.Opens)
    (rest : List LabelMark) :
    (mark :: rest).filter (·.role = role) = rest.filter (·.role = role) := by
  have different : mark.role ≠ role := fun same => closes (same ▸ opens)
  exact List.filter_cons_of_neg (by simpa using different)

mutual

/-- The opening labels of a statement stand in the order of their numbers, without a gap. -/
theorem Statement.filter_marks (opens : role.Opens) (used : LabelCount) (statement : Statement) :
    (statement.marks used).filter (·.role = role) =
      marksFrom role (role.next used) (role.next statement.labels) := by
  cases statement with
  | ifThen condition body =>
    have counted : role.next (Statement.ifThen condition body).labels =
        role.next ⟨1, 0⟩ + role.next (statementLabels body) := by
      rw [Statement.labels, LabelRole.next_addConditional, Nat.add_comm]
    rw [Statement.marks, filter_whenTrue opens, List.filter_append,
      filter_statementMarks opens _ body, filter_of_not_opens opens (by simp [LabelRole.Opens]),
      List.filter_nil, List.append_nil, LabelRole.next_addConditional, counted, marksFrom_add]
  | ifElse condition body alternative =>
    have counted : role.next (Statement.ifElse condition body alternative).labels =
        role.next ⟨1, 0⟩ +
          (role.next (statementLabels body) + role.next (statementLabels alternative)) := by
      rw [Statement.labels, LabelRole.next_addConditional, LabelRole.next_add, Nat.add_comm]
    rw [Statement.marks, filter_whenTrue opens, List.filter_append,
      filter_statementMarks opens _ body, filter_of_not_opens opens (by simp [LabelRole.Opens]),
      List.filter_append, filter_statementMarks opens _ alternative,
      filter_of_not_opens opens (by simp [LabelRole.Opens]), List.filter_nil, List.append_nil,
      LabelRole.next_add, LabelRole.next_addConditional, counted, marksFrom_add, marksFrom_add]
  | whileLoop condition body =>
    have counted : role.next (Statement.whileLoop condition body).labels =
        role.next ⟨0, 1⟩ + role.next (statementLabels body) := by
      rw [Statement.labels, LabelRole.next_addLoop, Nat.add_comm]
    rw [Statement.marks, filter_loopStart opens, List.filter_append,
      filter_statementMarks opens _ body, filter_of_not_opens opens (by simp [LabelRole.Opens]),
      List.filter_nil, List.append_nil, LabelRole.next_addLoop, counted, marksFrom_add]
  | _ => obtain rfl | rfl := opens <;> rfl

/-- The opening labels of statements that follow each other stand in the order of their numbers. -/
theorem filter_statementMarks (opens : role.Opens) (used : LabelCount)
    (statements : List Statement) :
    (statementMarks used statements).filter (·.role = role) =
      marksFrom role (role.next used) (role.next (statementLabels statements)) := by
  cases statements with
  | nil => obtain rfl | rfl := opens <;> rfl
  | cons statement rest =>
    rw [statementMarks, List.filter_append, statement.filter_marks opens,
      filter_statementMarks opens _ rest, statementLabels, LabelRole.next_add, LabelRole.next_add,
      marksFrom_add]

end

end Opening

section Ends

/-- Whether the conditional of a number has an alternative, where the conditionals given are numbered
from `first` on. -/
def ClosesAt (first : Nat) (conditionals : List ControlForm) (number : Nat) : Prop :=
  first ≤ number ∧ conditionals[number - first]? = some .ifElse

theorem closesAt_cons {first number : Nat} {form : ControlForm} {rest : List ControlForm} :
    ClosesAt first (form :: rest) number ↔
      form = .ifElse ∧ number = first ∨ ClosesAt (first + 1) rest number := by
  unfold ClosesAt
  grind

theorem closesAt_append {first number : Nat} {front rest : List ControlForm} :
    ClosesAt first (front ++ rest) number ↔
      ClosesAt first front number ∨ ClosesAt (first + front.length) rest number := by
  unfold ClosesAt
  grind

variable {number : Nat}

mutual

/-- The end of a conditional is marked when the conditional has an alternative. -/
theorem Statement.conditionalEnd_mem_marks_iff (used : LabelCount) (statement : Statement) :
    ⟨.conditionalEnd, number⟩ ∈ statement.marks used ↔
      ClosesAt used.conditionals (conditionalsOf statement.controls) number := by
  cases statement with
  | ifThen condition body =>
    simp [Statement.marks, Statement.controls, closesAt_cons, LabelCount.addConditional,
      conditionalEnd_mem_statementMarks_iff _ body]
  | ifElse condition body alternative =>
    simp [Statement.marks, Statement.controls, closesAt_cons, closesAt_append,
      conditionalEnd_mem_statementMarks_iff _ body,
      conditionalEnd_mem_statementMarks_iff _ alternative, statementLabels_eq body,
      LabelCount.addConditional, LabelCount.add, or_comm, or_left_comm]
  | whileLoop condition body =>
    simp [Statement.marks, Statement.controls, LabelCount.addLoop,
      conditionalEnd_mem_statementMarks_iff _ body]
  | _ => simp [Statement.marks, Statement.controls, conditionalsOf, ClosesAt]

theorem conditionalEnd_mem_statementMarks_iff (used : LabelCount) (statements : List Statement) :
    ⟨.conditionalEnd, number⟩ ∈ statementMarks used statements ↔
      ClosesAt used.conditionals (conditionalsOf (statementControls statements)) number := by
  cases statements with
  | nil => simp [statementMarks, statementControls, conditionalsOf, ClosesAt]
  | cons statement rest =>
    rw [statementMarks, List.mem_append, statement.conditionalEnd_mem_marks_iff,
      conditionalEnd_mem_statementMarks_iff _ rest, statementControls, conditionalsOf_append,
      closesAt_append, statement.labels_eq]
    rfl

end

end Ends

section Words

/-- The labels of code that begin with a word, from top to bottom. -/
def labelsWith (word : String) (code : List Instruction) : List String :=
  (definedLabels code).filter (·.startsWith word)

/-- A label begins with the word of its role and of no other. -/
theorem LabelMark.startsWith_stem_iff (mark : LabelMark) (role : LabelRole) :
    mark.name.startsWith role.stem ↔ mark.role = role := by
  rw [String.startsWith_string_iff]
  obtain ⟨own, number⟩ := mark
  constructor
  · intro begins
    cases own <;> cases role <;> simp [LabelMark.name, LabelRole.stem] at begins ⊢
  · rintro rfl
    rw [LabelMark.name, String.toList_append]
    exact List.prefix_append ..

theorem Subroutine.labelsWith_stem {options : Options} {scope : Scope} {subroutine : Subroutine}
    {code : List Instruction} (lowered : subroutine.lower options scope = .ok code)
    {role : LabelRole} (opens : role.Opens) :
    labelsWith role.stem code =
      (List.range (role.next (statementLabels subroutine.body.statements))).map
        fun number => role.stem ++ toString number := by
  have own : (String.startsWith · role.stem) ∘ LabelMark.name =
      fun mark => decide (mark.role = role) := by
    funext mark
    rw [Bool.eq_iff_iff, decide_eq_true_iff]
    exact mark.startsWith_stem_iff role
  rw [labelsWith, Subroutine.definedLabels_lower lowered, List.filter_map, own,
    filter_statementMarks opens, marksFrom, List.map_map, List.range_eq_range']
  obtain rfl | rfl := opens <;> rfl

theorem Subroutine.endLabel_mem_iff {options : Options} {scope : Scope} {subroutine : Subroutine}
    {code : List Instruction} (lowered : subroutine.lower options scope = .ok code) (number : Nat) :
    endLabel number ∈ definedLabels code ↔
      (conditionalsOf (statementControls subroutine.body.statements))[number]? = some .ifElse := by
  have named : endLabel number = LabelMark.name ⟨.conditionalEnd, number⟩ := rfl
  rw [Subroutine.definedLabels_lower lowered, named,
    List.mem_map_of_injective LabelMark.name_injective, conditionalEnd_mem_statementMarks_iff]
  simp [ClosesAt, LabelCount.none]

end Words

/-- No label of a block is defined twice, jumps lead to labels of the block, and labels are numbered in
the order in which the conditionals and the loops of the subroutine begin. -/
structure ClassDeclaration.LabelsInOrder (declaration : ClassDeclaration) (subroutine : Subroutine)
    (block : List Instruction) : Prop where
  header : block.head? = some (.function (qualified declaration.name subroutine.name)
    (toWord subroutine.localVariables.length))
  unique : (definedLabels block).Nodup
  closed : ∀ instruction ∈ block, ∀ name, instruction.jumpTarget? = some name →
    name ∈ definedLabels block
  conditionals : labelsWith "IF_TRUE" block =
    (List.range (conditionalsOf (statementControls subroutine.body.statements)).length).map
      fun number => "IF_TRUE" ++ toString number
  loops : labelsWith "WHILE_EXP" block =
    (List.range (loopsOf (statementControls subroutine.body.statements)).length).map
      fun number => "WHILE_EXP" ++ toString number
  ends : ∀ number : Nat, "IF_END" ++ toString number ∈ definedLabels block ↔
    (conditionalsOf (statementControls subroutine.body.statements))[number]? = some .ifElse

/-- The code of a class is one block for each of its subroutines, in order, and the labels of a block
are unique, complete and in order. -/
theorem ClassDeclaration.lower_keeps_labels_in_order {declaration : ClassDeclaration}
    {options : Options} {code : List Instruction} (lowered : declaration.lower options = .ok code) :
    ∃ blocks, code = blocks.flatten ∧
      List.Forall₂ declaration.LabelsInOrder declaration.subroutines blocks := by
  obtain ⟨_, subroutinesLowered⟩ := ClassDeclaration.lower_eq_ok_iff.mp lowered
  obtain ⟨blocks, flat, each⟩ := exists_blocks_of_lowerSubroutines subroutinesLowered
  refine ⟨blocks, flat, each.imp ?_⟩
  intro subroutine block subroutineLowered
  have header := Subroutine.head?_of_lower subroutineLowered
  rw [declaration.className_scope] at header
  have conditionals := Subroutine.labelsWith_stem subroutineLowered (.inl rfl)
  have loops := Subroutine.labelsWith_stem subroutineLowered (.inr rfl)
  rw [statementLabels_eq] at conditionals loops
  refine ⟨header, Subroutine.nodup_definedLabels subroutineLowered, ?_, conditionals, loops,
    Subroutine.endLabel_mem_iff subroutineLowered⟩
  intro instruction member name jumps
  exact mem_definedLabels_iff.mpr
    (Subroutine.jumpsInside_lower subroutineLowered instruction member name jumps)

/-- A conditional inside a loop, in the first branch of a conditional, and another one behind them. -/
theorem ClassDeclaration.lower_keeps_labels_in_order_nested :
    let count : Expression := .term (.name "count")
    let inner : Statement := .ifThen count [.perform (.mk (some "Output") "println" [])]
    let loop : Statement := .whileLoop count [inner, .whileLoop count []]
    let outer : Statement := .ifElse count [loop] [.ifElse count [] []]
    let search : Subroutine := ⟨.function, none, "search", [⟨.int, "count"⟩], ⟨[], [outer, inner]⟩⟩
    let main : ClassDeclaration := ⟨"Main", [], [search]⟩
    statementControls search.body.statements =
        [.ifElse, .whileLoop, .ifThen, .whileLoop, .ifElse, .ifThen] ∧
      ∃ code, main.lower ⟨true⟩ = .ok code ∧ main.LabelsInOrder search code := by
  intro count inner loop outer search main
  refine ⟨rfl, ?_⟩
  have succeeds : (main.lower ⟨true⟩).isOk := by decide +kernel
  obtain ⟨code, lowered⟩ := exists_eq_ok_of_isOk succeeds
  obtain ⟨blocks, flat, each⟩ := ClassDeclaration.lower_keeps_labels_in_order lowered
  cases each with
  | cons first none =>
    cases none
    rw [List.flatten_singleton] at flat
    exact ⟨code, lowered, flat ▸ first⟩

end Jack
