import Jack.Proofs.Emission

/-!
# Jumps of generated code

A jump in the code of a statement leads to a label in the code of the same statement. So the jumps of a
subroutine stay within its code.
-/

namespace Jack

/-- The label that an instruction may jump to. -/
def Instruction.jumpTarget? : Instruction → Option String
  | .goto name | .ifGoto name => some name
  | _ => none

/-- Code that has the labels of its jumps. -/
def JumpsInside (code : List Instruction) : Prop :=
  ∀ instruction ∈ code, ∀ name, instruction.jumpTarget? = some name → .label name ∈ code

namespace JumpsInside

variable {code first second condition body alternative : List Instruction}

theorem of_plain (plain : ∀ instruction ∈ code, instruction.jumpTarget? = none) :
    JumpsInside code := by
  intro instruction member name jumps
  rw [plain instruction member] at jumps
  cases jumps

theorem append (one : JumpsInside first) (other : JumpsInside second) :
    JumpsInside (first ++ second) := by
  intro instruction member name jumps
  rcases List.mem_append.mp member with member | member
  · exact List.mem_append_left _ (one instruction member name jumps)
  · exact List.mem_append_right _ (other instruction member name jumps)

theorem ifThen (tested : ∀ instruction ∈ condition, instruction.jumpTarget? = none)
    (inside : JumpsInside body) (holds fails : String) :
    JumpsInside
      (condition ++ [.ifGoto holds, .goto fails, .label holds] ++ body ++ [.label fails]) := by
  intro instruction member name jumps
  simp only [List.mem_append, List.mem_cons, List.not_mem_nil, or_false] at member ⊢
  rcases member with ((member | rfl | rfl | rfl) | member) | rfl
  · rw [tested instruction member] at jumps
    cases jumps
  · cases jumps
    simp
  · cases jumps
    simp
  · cases jumps
  · simp [inside instruction member name jumps]
  · cases jumps

theorem ifElse (tested : ∀ instruction ∈ condition, instruction.jumpTarget? = none)
    (inside : JumpsInside body) (outside : JumpsInside alternative) (holds fails ends : String) :
    JumpsInside (condition ++ [.ifGoto holds, .goto fails, .label holds] ++ body ++
      [.goto ends, .label fails] ++ alternative ++ [.label ends]) := by
  intro instruction member name jumps
  simp only [List.mem_append, List.mem_cons, List.not_mem_nil, or_false] at member ⊢
  rcases member with ((((member | rfl | rfl | rfl) | member) | rfl | rfl) | member) | rfl
  · rw [tested instruction member] at jumps
    cases jumps
  · cases jumps
    simp
  · cases jumps
    simp
  · cases jumps
  · simp [inside instruction member name jumps]
  · cases jumps
    simp
  · cases jumps
  · simp [outside instruction member name jumps]
  · cases jumps

theorem whileLoop (tested : ∀ instruction ∈ condition, instruction.jumpTarget? = none)
    (inside : JumpsInside body) (begins ends : String) :
    JumpsInside ([.label begins] ++ condition ++ [.arithmetic .not, .ifGoto ends] ++ body ++
      [.goto begins, .label ends]) := by
  intro instruction member name jumps
  simp only [List.mem_append, List.mem_cons, List.not_mem_nil, or_false] at member ⊢
  rcases member with (((rfl | member) | rfl | rfl) | member) | rfl | rfl
  · cases jumps
  · rw [tested instruction member] at jumps
    cases jumps
  · cases jumps
  · cases jumps
    simp
  · simp [inside instruction member name jumps]
  · cases jumps
    simp
  · cases jumps

end JumpsInside

section Lowering

variable {frame : Frame}

theorem Scope.Evaluates.jumpTarget?_eq_none {scope : Scope} {instruction : Instruction}
    (evaluates : scope.Evaluates instruction) : instruction.jumpTarget? = none := by
  cases evaluates <;> rfl

/-- Code for an expression does not jump. -/
theorem Expression.jumpTarget?_of_lower (expression : Expression) {code : List Instruction}
    (lowered : expression.lower frame = .ok code) :
    ∀ instruction ∈ code, instruction.jumpTarget? = none :=
  fun instruction member => (expression.evaluates_lower lowered instruction member).jumpTarget?_eq_none

mutual

/-- A statement jumps to its own labels. -/
theorem Statement.jumpsInside_lower (used : LabelCount) (statement : Statement)
    {code : List Instruction} (lowered : statement.lower frame used = .ok code) :
    JumpsInside code := by
  cases statement with
  | assign target value =>
    obtain ⟨valueCode, slot, valueLowered, _, rfl⟩ := Statement.lower_assign_eq_ok_iff.mp lowered
    have stored : JumpsInside [slot.store] := .of_plain (List.forall_mem_singleton.mpr rfl)
    exact (JumpsInside.of_plain (value.jumpTarget?_of_lower valueLowered)).append stored
  | assignElement array index value =>
    obtain ⟨slot, indexCode, valueCode, _, indexLowered, valueLowered, rfl⟩ :=
      Statement.lower_assignElement_eq_ok_iff.mp lowered
    apply JumpsInside.of_plain
    simp only [List.forall_mem_append, List.forall_mem_cons, List.not_mem_nil, IsEmpty.forall_iff,
      implies_true, and_true]
    exact ⟨⟨⟨⟨rfl, index.jumpTarget?_of_lower indexLowered⟩, rfl⟩,
      value.jumpTarget?_of_lower valueLowered⟩, rfl, rfl, rfl, rfl⟩
  | ifThen condition body =>
    obtain ⟨conditionCode, bodyCode, conditionLowered, bodyLowered, rfl⟩ :=
      Statement.lower_ifThen_eq_ok_iff.mp lowered
    exact JumpsInside.ifThen (condition.jumpTarget?_of_lower conditionLowered)
      (jumpsInside_lowerStatements _ body bodyLowered) _ _
  | ifElse condition body alternative =>
    obtain ⟨conditionCode, bodyCode, alternativeCode, conditionLowered, bodyLowered,
      alternativeLowered, rfl⟩ := Statement.lower_ifElse_eq_ok_iff.mp lowered
    exact JumpsInside.ifElse (condition.jumpTarget?_of_lower conditionLowered)
      (jumpsInside_lowerStatements _ body bodyLowered)
      (jumpsInside_lowerStatements _ alternative alternativeLowered) _ _ _
  | whileLoop condition body =>
    obtain ⟨conditionCode, bodyCode, conditionLowered, bodyLowered, rfl⟩ :=
      Statement.lower_whileLoop_eq_ok_iff.mp lowered
    exact JumpsInside.whileLoop (condition.jumpTarget?_of_lower conditionLowered)
      (jumpsInside_lowerStatements _ body bodyLowered) _ _
  | perform call =>
    obtain ⟨callCode, callLowered, rfl⟩ := Statement.lower_perform_eq_ok_iff.mp lowered
    have dropped : JumpsInside [.pop .temp 0] := .of_plain (List.forall_mem_singleton.mpr rfl)
    exact (JumpsInside.of_plain fun instruction member =>
      (call.evaluates_lower callLowered instruction member).jumpTarget?_eq_none).append dropped
  | «return» value =>
    cases value with
    | none =>
      rw [Statement.lower] at lowered
      cases lowered
      exact .of_plain (by simp [Instruction.jumpTarget?])
    | some value =>
      obtain ⟨valueCode, valueLowered, rfl⟩ := Statement.lower_return_eq_ok_iff.mp lowered
      have returns : JumpsInside [.return] := .of_plain (List.forall_mem_singleton.mpr rfl)
      exact (JumpsInside.of_plain (value.jumpTarget?_of_lower valueLowered)).append returns

theorem jumpsInside_lowerStatements (used : LabelCount) (statements : List Statement)
    {code : List Instruction} (lowered : lowerStatements frame used statements = .ok code) :
    JumpsInside code := by
  cases statements with
  | nil =>
    rw [lowerStatements] at lowered
    cases lowered
    exact .of_plain (by simp)
  | cons statement rest =>
    obtain ⟨statementCode, restCode, statementLowered, restLowered, rfl⟩ :=
      lowerStatements_cons_eq_ok_iff.mp lowered
    exact (statement.jumpsInside_lower used statementLowered).append
      (jumpsInside_lowerStatements _ rest restLowered)

end

/-- A subroutine jumps to its own labels. -/
theorem Subroutine.jumpsInside_lower {options : Options} {scope : Scope} {subroutine : Subroutine}
    {code : List Instruction} (lowered : subroutine.lower options scope = .ok code) :
    JumpsInside code := by
  obtain ⟨frame, body, _, bodyLowered, rfl⟩ := Subroutine.lower_eq_ok_iff.mp lowered
  have opening : JumpsInside ([.function (qualified frame.scope.className subroutine.name)
      frame.scope.locals.count.toNat] ++ subroutine.kind.prologue frame.scope.fields.count.toNat) := by
    apply JumpsInside.of_plain
    cases subroutine.kind <;> simp [SubroutineKind.prologue, Instruction.jumpTarget?]
  have ending : JumpsInside
      (if options.completes subroutine then [.push .constant 0, .return] else []) := by
    apply JumpsInside.of_plain
    split <;> simp [Instruction.jumpTarget?]
  exact (opening.append (jumpsInside_lowerStatements _ _ bodyLowered)).append ending

end Lowering

end Jack
