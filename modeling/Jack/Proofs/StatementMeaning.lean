import Jack.Proofs.Execution
import Jack.Proofs.ExpressionMeaning
import Jack.Proofs.Labels

/-!
# The code of statements does what the statements mean

Two directions. `Executes.arrives`: when a statement completes, its code runs to its end with the same
memory, or returns the same value. `Statement.completes_or_lasts`: a statement completes, or its code
goes on for as many steps as one likes. So code that returns belongs to statements that complete, and
code never comes to a stop halfway.

The code is part of a block in which labels are unique. Its place in the block is told by what comes
after it: the code together with the rest is a final part of the block.
-/

namespace Jack

open Machine

/-- The memory that a state holds for a running subroutine. -/
def Machine.State.store (state : State) : Store := ⟨state.activation, state.globals⟩

/-- Code was generated for something with the given names and calls, none of the names stands for the
current array, and the number of arguments of every call fits into a word. -/
structure Translation (frame : Frame) (lowered : Except CompileError (List Instruction))
    (names : List String) (sizes : List Nat) (code : List Instruction) : Prop where
  lowered : lowered = .ok code
  plain : ∀ name ∈ names, frame.scope.namesCurrentArray name = false
  small : ∀ size ∈ sizes, size < 65535

/-- Code that was generated for an expression. -/
def Expression.Translates (frame : Frame) (expression : Expression) (code : List Instruction) :
    Prop :=
  Translation frame (expression.lower frame) expression.names expression.callSizes code

/-- Code that was generated for a statement. -/
def Statement.Translates (frame : Frame) (used : LabelCount) (statement : Statement)
    (code : List Instruction) : Prop :=
  Translation frame (statement.lower frame used) statement.names statement.callSizes code

/-- Code that was generated for statements that follow each other. -/
def TranslatesAll (frame : Frame) (used : LabelCount) (statements : List Statement)
    (code : List Instruction) : Prop :=
  Translation frame (lowerStatements frame used statements) (statementNames statements)
    (statementCallSizes statements) code

section Translation

variable {frame : Frame} {used : LabelCount} {code : List Instruction}

theorem Statement.Translates.assign {target : String} {value : Expression}
    (translates : (Statement.assign target value).Translates frame used code) :
    ∃ valueCode slot, value.Translates frame valueCode ∧ frame.scope.resolve? target = some slot ∧
      frame.scope.namesCurrentArray target = false ∧ code = valueCode ++ [slot.store] := by
  obtain ⟨lowered, plain, small⟩ := translates
  obtain ⟨valueCode, slot, valueLowered, resolved, rfl⟩ :=
    Statement.lower_assign_eq_ok_iff.mp lowered
  simp only [Statement.names, List.mem_cons, forall_eq_or_imp] at plain
  exact ⟨valueCode, slot, ⟨valueLowered, plain.2, small⟩, resolved, plain.1, rfl⟩

theorem Statement.Translates.assignElement {array : String} {index value : Expression}
    (translates : (Statement.assignElement array index value).Translates frame used code) :
    ∃ slot indexCode valueCode, frame.scope.resolve? array = some slot ∧
      frame.scope.namesCurrentArray array = false ∧ index.Translates frame indexCode ∧
      value.Translates frame valueCode ∧
      code = [slot.load] ++ indexCode ++ [.arithmetic .add] ++ valueCode ++
        [.pop .temp 0, .pop .pointer 1, .push .temp 0, .pop .that 0] := by
  obtain ⟨lowered, plain, small⟩ := translates
  obtain ⟨slot, indexCode, valueCode, resolved, indexLowered, valueLowered, rfl⟩ :=
    Statement.lower_assignElement_eq_ok_iff.mp lowered
  simp only [Statement.names, Statement.callSizes, List.mem_cons, List.mem_append, or_imp,
    forall_and, forall_eq] at plain small
  exact ⟨slot, indexCode, valueCode, resolved, plain.1, ⟨indexLowered, plain.2.1, small.1⟩,
    ⟨valueLowered, plain.2.2, small.2⟩, rfl⟩

/-- A call that is performed is evaluated as an expression. -/
theorem Statement.Translates.perform {call : Call}
    (translates : (Statement.perform call).Translates frame used code) :
    ∃ callCode, (Expression.term (.call call)).Translates frame callCode ∧
      code = callCode ++ [.pop .temp 0] := by
  obtain ⟨lowered, plain, small⟩ := translates
  obtain ⟨callCode, callLowered, rfl⟩ := Statement.lower_perform_eq_ok_iff.mp lowered
  exact ⟨callCode, ⟨callLowered, plain, small⟩, rfl⟩

theorem Statement.Translates.returnValue {value : Expression}
    (translates : (Statement.return (some value)).Translates frame used code) :
    ∃ valueCode, value.Translates frame valueCode ∧ code = valueCode ++ [.return] := by
  obtain ⟨lowered, plain, small⟩ := translates
  obtain ⟨valueCode, valueLowered, rfl⟩ := Statement.lower_return_eq_ok_iff.mp lowered
  exact ⟨valueCode, ⟨valueLowered, plain, small⟩, rfl⟩

theorem Statement.Translates.ifThen {condition : Expression} {body : List Statement}
    (translates : (Statement.ifThen condition body).Translates frame used code) :
    ∃ conditionCode bodyCode, condition.Translates frame conditionCode ∧
      TranslatesAll frame used.addConditional body bodyCode ∧
      code = conditionCode ++
        ([.ifGoto (trueLabel used.conditionals), .goto (falseLabel used.conditionals),
          .label (trueLabel used.conditionals)] ++
        (bodyCode ++ [.label (falseLabel used.conditionals)])) := by
  obtain ⟨lowered, plain, small⟩ := translates
  obtain ⟨conditionCode, bodyCode, conditionLowered, bodyLowered, rfl⟩ :=
    Statement.lower_ifThen_eq_ok_iff.mp lowered
  simp only [Statement.names, Statement.callSizes, List.mem_append, or_imp, forall_and]
    at plain small
  exact ⟨conditionCode, bodyCode, ⟨conditionLowered, plain.1, small.1⟩,
    ⟨bodyLowered, plain.2, small.2⟩, by simp only [List.append_assoc]⟩

theorem Statement.Translates.ifElse {condition : Expression} {body alternative : List Statement}
    (translates : (Statement.ifElse condition body alternative).Translates frame used code) :
    ∃ conditionCode bodyCode alternativeCode, condition.Translates frame conditionCode ∧
      TranslatesAll frame used.addConditional body bodyCode ∧
      TranslatesAll frame (used.addConditional.add (statementLabels body)) alternative
        alternativeCode ∧
      code = conditionCode ++
        ([.ifGoto (trueLabel used.conditionals), .goto (falseLabel used.conditionals),
          .label (trueLabel used.conditionals)] ++
        (bodyCode ++
          ([.goto (endLabel used.conditionals), .label (falseLabel used.conditionals)] ++
          (alternativeCode ++ [.label (endLabel used.conditionals)])))) := by
  obtain ⟨lowered, plain, small⟩ := translates
  obtain ⟨conditionCode, bodyCode, alternativeCode, conditionLowered, bodyLowered,
    alternativeLowered, rfl⟩ := Statement.lower_ifElse_eq_ok_iff.mp lowered
  simp only [Statement.names, Statement.callSizes, List.mem_append, or_imp, forall_and]
    at plain small
  exact ⟨conditionCode, bodyCode, alternativeCode, ⟨conditionLowered, plain.1.1, small.1.1⟩,
    ⟨bodyLowered, plain.1.2, small.1.2⟩, ⟨alternativeLowered, plain.2, small.2⟩,
    by simp only [List.append_assoc]⟩

theorem Statement.Translates.whileLoop {condition : Expression} {body : List Statement}
    (translates : (Statement.whileLoop condition body).Translates frame used code) :
    ∃ conditionCode bodyCode, condition.Translates frame conditionCode ∧
      TranslatesAll frame used.addLoop body bodyCode ∧
      code = [.label (loopLabel used.loops)] ++ (conditionCode ++
        ([.arithmetic .not, .ifGoto (exitLabel used.loops)] ++
        (bodyCode ++ [.goto (loopLabel used.loops), .label (exitLabel used.loops)]))) := by
  obtain ⟨lowered, plain, small⟩ := translates
  obtain ⟨conditionCode, bodyCode, conditionLowered, bodyLowered, rfl⟩ :=
    Statement.lower_whileLoop_eq_ok_iff.mp lowered
  simp only [Statement.names, Statement.callSizes, List.mem_append, or_imp, forall_and]
    at plain small
  exact ⟨conditionCode, bodyCode, ⟨conditionLowered, plain.1, small.1⟩,
    ⟨bodyLowered, plain.2, small.2⟩, by simp only [List.append_assoc]⟩

theorem TranslatesAll.cons {statement : Statement} {rest : List Statement}
    (translates : TranslatesAll frame used (statement :: rest) code) :
    ∃ statementCode restCode, statement.Translates frame used statementCode ∧
      TranslatesAll frame (used.add statement.labels) rest restCode ∧
      code = statementCode ++ restCode := by
  obtain ⟨lowered, plain, small⟩ := translates
  obtain ⟨statementCode, restCode, statementLowered, restLowered, rfl⟩ :=
    lowerStatements_cons_eq_ok_iff.mp lowered
  simp only [statementNames, statementCallSizes, List.mem_append, or_imp, forall_and]
    at plain small
  exact ⟨statementCode, restCode, ⟨statementLowered, plain.1, small.1⟩,
    ⟨restLowered, plain.2, small.2⟩, rfl⟩

end Translation

/-- The execution from a configuration comes to the code after a statement, with the stack as it was,
or returns, as the statement completes. -/
def Arrives (runtime : Runtime) (block : List Instruction) (start : Configuration)
    (rest : List Instruction) (stack : List Word) : Completion → Prop
  | .normal store =>
    ∃ count final, Steps runtime block count start (.running rest final) ∧ final.store = store ∧
      final.stack = stack
  | .returned value globals => Returns runtime block start value globals

section Machine

variable {runtime : Runtime} {block rest : List Instruction} {state : State}

/-- Steps that lead to a configuration come before what it leads to. -/
theorem Arrives.after_steps {count : Nat} {start middle : Configuration} {stack : List Word}
    {completion : Completion} (steps : Steps runtime block count start middle)
    (arrives : Arrives runtime block middle rest stack completion) :
    Arrives runtime block start rest stack completion := by
  cases completion with
  | normal store =>
    obtain ⟨more, final, others, same, level⟩ := arrives
    exact ⟨count + more, final, steps.trans others, same, level⟩
  | returned value globals => exact Returns.after_steps steps arrives

/-- What follows the code that is arrived at follows the beginning as well. -/
theorem Arrives.andThen {start : Configuration} {middle : List Instruction} {stack : List Word}
    {store : Store} {completion : Completion}
    (first : Arrives runtime block start middle stack (.normal store))
    (next : ∀ state : State, state.store = store →
      Arrives runtime block (.running middle state) rest state.stack completion) :
    Arrives runtime block start rest stack completion := by
  obtain ⟨count, halfway, steps, same, rfl⟩ := first
  exact .after_steps steps (next halfway same)

/-- Code that changes nothing may come between. -/
theorem Arrives.pass {start : Configuration} {middle : List Instruction} {stack : List Word}
    {completion : Completion} {count : Nat}
    (arrives : Arrives runtime block start middle stack completion)
    (passes : ∀ state, Steps runtime block count (.running middle state) (.running rest state)) :
    Arrives runtime block start rest stack completion := by
  cases completion with
  | normal store =>
    obtain ⟨more, final, steps, same, level⟩ := arrives
    exact ⟨more + count, final, steps.trans (passes final), same, level⟩
  | returned value globals => exact arrives

/-- If what is arrived at completes or lasts, so does the whole execution. -/
theorem Arrives.completes_or_lasts {start : Configuration} {middle : List Instruction}
    {stack : List Word} {store : Store} {count : Nat} {completes : Completion → Prop}
    (first : Arrives runtime block start middle stack (.normal store))
    (next : ∀ state : State, state.store = store →
      (∃ completion, completes completion) ∨ Lasts runtime block count (.running middle state)) :
    (∃ completion, completes completion) ∨ Lasts runtime block count start := by
  obtain ⟨length, halfway, steps, same, _⟩ := first
  rcases next halfway same with completes | lasts
  · exact .inl completes
  · exact .inr ((lasts.after_steps steps).of_le (by omega))

/-- Code without jumps arrives behind itself. -/
theorem Arrives.of_execute? {code : List Instruction} {store : Store} (final : State)
    (executed : execute? runtime code state = some final) (same : final.store = store)
    (level : final.stack = state.stack) :
    Arrives runtime block (.running (code ++ rest) state) rest state.stack (.normal store) :=
  ⟨code.length, final, steps_of_execute? executed rest, same, level⟩

/-- What comes after a piece of code in the block ends the block as well. -/
theorem suffix_of_append {first second : List Instruction} (within : first ++ second <:+ block) :
    second <:+ block :=
  (List.suffix_append first second).trans within

/-- The instruction after a jump behind a body begins a final part of the code. -/
theorem suffix_behind_jump (body : List Instruction) (jump label : Instruction)
    (rest : List Instruction) : (label :: rest) <:+ body ++ ([jump, label] ++ rest) :=
  (List.suffix_cons jump (label :: rest)).trans (List.suffix_append body _)

/-- A label is passed. -/
theorem steps_label (name : String) :
    Steps runtime block 1 (.running (.label name :: rest) state) (.running rest state) :=
  .single rfl

/-- A jump leads to its label. -/
theorem steps_goto {name : String} {target : List Instruction}
    (unique : (definedLabels block).Nodup) (within : (.label name :: target) <:+ block) :
    Steps runtime block 1 (.running (.goto name :: rest) state)
      (.running (.label name :: target) state) := by
  apply Steps.single
  simp [step?, jump?, codeAt_of_suffix unique within]

/-- A conditional jump on a word that is not zero leads behind its label. -/
theorem steps_ifGoto {name : String} {target : List Instruction} {word : Word} {stack : List Word}
    (unique : (definedLabels block).Nodup) (within : (.label name :: target) <:+ block)
    (top : state.stack = word :: stack) (holds : word ≠ 0) :
    Steps runtime block 2 (.running (.ifGoto name :: rest) state)
      (.running target { state with stack := stack }) := by
  refine .step ?_ (steps_label name)
  simp only [step?, top, if_neg holds, jump?, codeAt_of_suffix unique within]

/-- A conditional jump on zero is not made. -/
theorem steps_ifGoto_zero {name : String} {stack : List Word} (top : state.stack = 0 :: stack) :
    Steps runtime block 1 (.running (.ifGoto name :: rest) state)
      (.running rest { state with stack := stack }) := by
  apply Steps.single
  simp [step?, top]

/-- A variable can be changed, unless it is the current array. -/
theorem Slot.exists_write? {scope : Scope} {name : String} {slot : Slot}
    (resolves : scope.resolve? name = some slot) (plain : scope.namesCurrentArray name = false)
    (store : Store) (value : Word) : ∃ after, slot.write? store value = some after := by
  unfold Slot.write?
  split
  case h_5 predefined => simp [Scope.index_eq_zero_of_predefined resolves predefined plain]
  all_goals exact ⟨_, rfl⟩

/-- Storing into a slot changes its variable. -/
theorem Slot.executeOne?_store {slot : Slot} {word : Word} {stack : List Word} {after : Store}
    (written : slot.write? state.store word = some after) (top : state.stack = word :: stack) :
    ∃ final, executeOne? runtime state slot.store = some final ∧ final.store = after ∧
      final.stack = stack := by
  unfold Slot.write? at written
  unfold Slot.store Slot.segment
  split at written
  case h_5 kind =>
    obtain ⟨first, written⟩ := Option.ite_none_right_eq_some.mp written
    cases written
    simp [executeOne?, top, kind, SlotKind.segment, State.write?, State.store, State.activation,
      first]
  all_goals
    rename_i kind
    cases written
    simp [executeOne?, top, kind, SlotKind.segment, State.write?, State.store, State.activation,
      State.writeHeap]

end Machine

section Expressions

variable {runtime : Runtime} {frame : Frame} {block code rest : List Instruction} {state : State}
  {store : Store}

/-- The code of an expression computes the value that evaluation gives. -/
theorem Expression.Translates.computes {expression : Expression} {activation : Activation}
    {word : Word} {before after : Globals} (translates : expression.Translates frame code)
    (evaluated : expression.eval? runtime frame.scope activation before = some (word, after)) :
    Computes runtime activation before code [word] after := by
  obtain ⟨lowered, plain, small⟩ := translates
  obtain ⟨value, globals, eval, computes⟩ :=
    expression.computes_lower runtime activation before lowered plain small
  rw [evaluated] at eval
  cases eval
  exact computes

/-- Executing the code of an expression puts its value on the stack. -/
theorem Expression.Translates.steps {expression : Expression} {word : Word} {globals : Globals}
    (translates : expression.Translates frame code) (same : state.store = store)
    (evaluated : expression.eval? runtime frame.scope store.activation store.globals =
      some (word, globals)) (block rest : List Instruction) :
    ∃ final, Steps runtime block code.length (.running (code ++ rest) state) (.running rest final) ∧
      final.store = ⟨store.activation, globals⟩ ∧ final.stack = word :: state.stack := by
  subst same
  obtain ⟨final, executed, stack, active, shared⟩ := translates.computes evaluated state rfl rfl
  exact ⟨final, steps_of_execute? executed rest, by rw [State.store, active, shared], stack⟩

/-- An expression that code was generated for has a value. -/
theorem Expression.Translates.exists_eval? {expression : Expression}
    (translates : expression.Translates frame code) (runtime : Runtime) (activation : Activation)
    (globals : Globals) :
    ∃ word after, expression.eval? runtime frame.scope activation globals = some (word, after) := by
  obtain ⟨lowered, plain, small⟩ := translates
  obtain ⟨word, after, eval, _⟩ :=
    expression.computes_lower runtime activation globals lowered plain small
  exact ⟨word, after, eval⟩

/-- A condition that is not zero leads into the body of its conditional. -/
theorem Arrives.conditional_holds {condition : Expression} {number : Nat} {word : Word}
    {globals : Globals} (translates : condition.Translates frame code)
    (unique : (definedLabels block).Nodup)
    (within : code ++ ([.ifGoto (trueLabel number), .goto (falseLabel number),
      .label (trueLabel number)] ++ rest) <:+ block)
    (same : state.store = store)
    (evaluated : condition.eval? runtime frame.scope store.activation store.globals =
      some (word, globals)) (holds : word ≠ 0) :
    Arrives runtime block
      (.running (code ++ ([.ifGoto (trueLabel number), .goto (falseLabel number),
        .label (trueLabel number)] ++ rest)) state)
      rest state.stack (.normal ⟨store.activation, globals⟩) := by
  obtain ⟨final, steps, kept, stack⟩ := translates.steps same evaluated block _
  have target : (.label (trueLabel number) :: rest) <:+ block := by
    refine .trans ?_ within
    exact ⟨code ++ [.ifGoto (trueLabel number), .goto (falseLabel number)], by simp⟩
  exact ⟨_, _, steps.trans (steps_ifGoto unique target stack holds), kept, rfl⟩

/-- A condition that is zero leads to the label for that case. -/
theorem Arrives.conditional_fails {condition : Expression} {number : Nat}
    {globals : Globals} {inside target : List Instruction}
    (translates : condition.Translates frame code) (unique : (definedLabels block).Nodup)
    (within : code ++ ([.ifGoto (trueLabel number), .goto (falseLabel number),
      .label (trueLabel number)] ++ inside) <:+ block)
    (behind : (.label (falseLabel number) :: target) <:+ inside)
    (same : state.store = store)
    (evaluated : condition.eval? runtime frame.scope store.activation store.globals =
      some (0, globals)) :
    Arrives runtime block
      (.running (code ++ ([.ifGoto (trueLabel number), .goto (falseLabel number),
        .label (trueLabel number)] ++ inside)) state)
      target state.stack (.normal ⟨store.activation, globals⟩) := by
  obtain ⟨final, steps, kept, stack⟩ := translates.steps same evaluated block _
  have label := behind.trans (suffix_of_append (suffix_of_append within))
  exact ⟨_, { final with stack := state.stack }, steps.trans
    ((steps_ifGoto_zero stack).trans ((steps_goto unique label).trans (steps_label _))), kept, rfl⟩

/-- A loop whose condition is all ones goes on into its body. -/
theorem Arrives.loop_holds {condition : Expression} {globals : Globals}
    (translates : condition.Translates frame code) (same : state.store = store)
    (evaluated : condition.eval? runtime frame.scope store.activation store.globals =
      some (-1, globals)) (number : Nat) (block rest : List Instruction) :
    Arrives runtime block
      (.running ([.label (loopLabel number)] ++ (code ++
        ([.arithmetic .not, .ifGoto (exitLabel number)] ++ rest))) state)
      rest state.stack (.normal ⟨store.activation, globals⟩) := by
  obtain ⟨final, steps, kept, stack⟩ := translates.steps same evaluated block _
  have negated : executeOne? runtime final (.arithmetic .not) =
      some { final with stack := 0 :: state.stack } := by
    simp [executeOne?, stack, operate?]
  exact ⟨_, { final with stack := state.stack }, .step rfl (steps.trans
    (.step (step?_of_executeOne? negated _) (steps_ifGoto_zero rfl))), kept, rfl⟩

/-- A loop whose condition is not all ones is left. -/
theorem Arrives.loop_fails {condition : Expression} {number : Nat} {word : Word}
    {globals : Globals} {inside target : List Instruction}
    (translates : condition.Translates frame code) (unique : (definedLabels block).Nodup)
    (within : [.label (loopLabel number)] ++ (code ++
      ([.arithmetic .not, .ifGoto (exitLabel number)] ++ inside)) <:+ block)
    (behind : (.label (exitLabel number) :: target) <:+ inside)
    (same : state.store = store)
    (evaluated : condition.eval? runtime frame.scope store.activation store.globals =
      some (word, globals)) (fails : word ≠ -1) :
    Arrives runtime block
      (.running ([.label (loopLabel number)] ++ (code ++
        ([.arithmetic .not, .ifGoto (exitLabel number)] ++ inside))) state)
      target state.stack (.normal ⟨store.activation, globals⟩) := by
  obtain ⟨final, steps, kept, stack⟩ := translates.steps same evaluated block _
  have negated : executeOne? runtime final (.arithmetic .not) =
      some { final with stack := ~~~word :: state.stack } := by
    simp [executeOne?, stack, operate?]
  have nonzero : ~~~word ≠ 0 := by
    intro zero
    apply fails
    rw [← BitVec.not_not (b := word), zero]
    rfl
  have label := behind.trans (suffix_of_append (suffix_of_append (suffix_of_append within)))
  exact ⟨_, { final with stack := state.stack }, .step rfl (steps.trans
    (.step (step?_of_executeOne? negated _) (steps_ifGoto unique label rfl nonzero))), kept, rfl⟩

end Expressions

section Simple

variable {runtime : Runtime} {frame : Frame} {used : LabelCount} {block code rest : List Instruction}
  {state : State} {store : Store}

/-- An assignment stores the value of its expression. -/
theorem Arrives.assign {target : String} {value : Expression} {word : Word} {globals : Globals}
    {slot : Slot} {after : Store}
    (translates : (Statement.assign target value).Translates frame used code)
    (same : state.store = store)
    (evaluated : value.eval? runtime frame.scope store.activation store.globals =
      some (word, globals))
    (resolved : frame.scope.resolve? target = some slot)
    (written : slot.write? ⟨store.activation, globals⟩ word = some after) :
    Arrives runtime block (.running (code ++ rest) state) rest state.stack (.normal after) := by
  obtain ⟨valueCode, other, translated, resolves, _, rfl⟩ := translates.assign
  rw [resolved] at resolves
  cases resolves
  rw [List.append_assoc]
  obtain ⟨halfway, steps, kept, stack⟩ := translated.steps same evaluated block ([slot.store] ++ rest)
  rw [← kept] at written
  obtain ⟨final, stored, after, level⟩ := Slot.executeOne?_store written stack
  exact ⟨_, final, steps.trans (.single (step?_of_executeOne? stored rest)), after, level⟩

/-- An address and a value on the stack are stored through the second pointer. -/
theorem Arrives.storeElement {address word : Word} {globals : Globals}
    (same : state.store = store)
    (computes : Computes runtime store.activation store.globals code [address, word] globals) :
    Arrives runtime block
      (.running (code ++ [.pop .temp 0, .pop .pointer 1, .push .temp 0, .pop .that 0] ++ rest) state)
      rest state.stack
      (.normal ⟨store.activation,
        { globals with heap := Function.update globals.heap address word }⟩) := by
  subst same
  obtain ⟨halfway, executed, stack, active, rfl⟩ := computes state rfl rfl
  refine .of_execute? { halfway with
    stack := state.stack
    temps := Function.update halfway.temps 0 word
    pointers := Function.update halfway.pointers 1 address
    globals.heap := Function.update halfway.globals.heap address word } ?_ ?_ rfl
  · simp [executed, executeOne?, stack, State.write?, State.writeHeap, State.push, State.read]
  · rw [← active]
    simp [State.store, State.activation]

/-- An assignment to an element computes the address before the value. -/
theorem Arrives.assignElement {array : String} {index value : Expression} {base offset word : Word}
    {middle globals : Globals}
    (translates : (Statement.assignElement array index value).Translates frame used code)
    (same : state.store = store)
    (read : frame.scope.read? store.activation store.globals array = some base)
    (indexed : index.eval? runtime frame.scope store.activation store.globals =
      some (offset, middle))
    (evaluated : value.eval? runtime frame.scope store.activation middle = some (word, globals)) :
    Arrives runtime block (.running (code ++ rest) state) rest state.stack
      (.normal ⟨store.activation,
        { globals with heap := Function.update globals.heap (base + offset) word }⟩) := by
  obtain ⟨slot, indexCode, valueCode, resolved, _, indexTranslated, valueTranslated, rfl⟩ :=
    translates.assignElement
  have reads : slot.read? store.activation store.globals = some base := by
    simpa [Scope.read?, resolved] using read
  have address : Computes runtime store.activation store.globals
      ([slot.load] ++ indexCode ++ [.arithmetic .add]) [base + offset] middle :=
    ((Computes.load reads).append (indexTranslated.computes indexed)).binary fun _ => rfl
  exact Arrives.storeElement same (address.append (valueTranslated.computes evaluated))

/-- A call that is performed leaves nothing on the stack. -/
theorem Arrives.perform {call : Call} {word : Word} {globals : Globals}
    (translates : (Statement.perform call).Translates frame used code)
    (same : state.store = store)
    (evaluated : call.eval? runtime frame.scope store.activation store.globals =
      some (word, globals)) :
    Arrives runtime block (.running (code ++ rest) state) rest state.stack
      (.normal ⟨store.activation, globals⟩) := by
  obtain ⟨callCode, translated, rfl⟩ := translates.perform
  subst same
  obtain ⟨halfway, executed, stack, active, rfl⟩ := translated.computes evaluated state rfl rfl
  refine .of_execute? { halfway with
    stack := state.stack
    temps := Function.update halfway.temps 0 word } ?_ ?_ rfl
  · simp [executed, executeOne?, stack, State.write?]
  · rw [← active]
    rfl

/-- A return gives back the value of its expression. -/
theorem Arrives.returnValue {value : Expression} {word : Word} {globals : Globals}
    (translates : (Statement.return (some value)).Translates frame used code)
    (same : state.store = store)
    (evaluated : value.eval? runtime frame.scope store.activation store.globals =
      some (word, globals)) :
    Arrives runtime block (.running (code ++ rest) state) rest state.stack
      (.returned word globals) := by
  obtain ⟨valueCode, translated, rfl⟩ := translates.returnValue
  rw [List.append_assoc]
  obtain ⟨halfway, steps, kept, stack⟩ := translated.steps same evaluated block ([.return] ++ rest)
  have shared : halfway.globals = globals := congrArg Store.globals kept
  refine ⟨_, steps.trans (.single ?_)⟩
  simp [step?, stack, shared]

end Simple

section Statements

variable {runtime : Runtime} {frame : Frame} {block : List Instruction}

mutual

/-- When a statement completes, its code comes to its end with the memory that the statement leaves,
or returns what the statement returns. -/
theorem Executes.arrives (unique : (definedLabels block).Nodup) {statement : Statement}
    {store : Store} {completion : Completion}
    (executes : Executes runtime frame.scope statement store completion) {used : LabelCount}
    {code rest : List Instruction} {state : State}
    (translates : statement.Translates frame used code) (within : code ++ rest <:+ block)
    (same : state.store = store) :
    Arrives runtime block (.running (code ++ rest) state) rest state.stack completion := by
  match executes with
  | .assign evaluated resolved written => exact .assign translates same evaluated resolved written
  | .assignElement read indexed evaluated => exact .assignElement translates same read indexed evaluated
  | .ifThenHolds evaluated holds inside =>
    obtain ⟨conditionCode, bodyCode, conditionTranslated, bodyTranslated, rfl⟩ := translates.ifThen
    simp only [List.append_assoc] at within ⊢
    refine (Arrives.conditional_holds conditionTranslated unique within same evaluated holds).andThen ?_
    intro entered store
    have bodyWithin := suffix_of_append (suffix_of_append within)
    exact (inside.arrives unique bodyTranslated bodyWithin store).pass fun _ => steps_label _
  | .ifThenFails evaluated =>
    obtain ⟨conditionCode, bodyCode, conditionTranslated, bodyTranslated, rfl⟩ := translates.ifThen
    simp only [List.append_assoc] at within ⊢
    exact .conditional_fails conditionTranslated unique within (List.suffix_append bodyCode _) same
      evaluated
  | .ifElseHolds evaluated holds inside =>
    obtain ⟨conditionCode, bodyCode, alternativeCode, conditionTranslated, bodyTranslated,
      alternativeTranslated, rfl⟩ := translates.ifElse
    simp only [List.append_assoc] at within ⊢
    refine (Arrives.conditional_holds conditionTranslated unique within same evaluated holds).andThen ?_
    intro entered store
    have bodyWithin := suffix_of_append (suffix_of_append within)
    have target := suffix_of_append (suffix_of_append (suffix_of_append bodyWithin))
    exact (inside.arrives unique bodyTranslated bodyWithin store).pass fun _ =>
      (steps_goto unique target).trans (steps_label _)
  | .ifElseFails evaluated inside =>
    obtain ⟨conditionCode, bodyCode, alternativeCode, conditionTranslated, bodyTranslated,
      alternativeTranslated, rfl⟩ := translates.ifElse
    simp only [List.append_assoc] at within ⊢
    refine (Arrives.conditional_fails conditionTranslated unique within
      (suffix_behind_jump bodyCode _ _ _) same evaluated).andThen ?_
    intro entered store
    have alternativeWithin :=
      suffix_of_append (suffix_of_append (suffix_of_append (suffix_of_append within)))
    exact (inside.arrives unique alternativeTranslated alternativeWithin store).pass fun _ =>
      steps_label _
  | .whileEnds evaluated fails =>
    obtain ⟨conditionCode, bodyCode, conditionTranslated, bodyTranslated, rfl⟩ :=
      translates.whileLoop
    simp only [List.append_assoc] at within ⊢
    exact .loop_fails conditionTranslated unique within (suffix_behind_jump bodyCode _ _ _) same
      evaluated fails
  | .whileReturns evaluated inside =>
    obtain ⟨conditionCode, bodyCode, conditionTranslated, bodyTranslated, rfl⟩ :=
      translates.whileLoop
    simp only [List.append_assoc] at within ⊢
    refine (Arrives.loop_holds conditionTranslated same evaluated _ _ _).andThen ?_
    intro entered store
    have bodyWithin := suffix_of_append (suffix_of_append (suffix_of_append within))
    exact inside.arrives unique bodyTranslated bodyWithin store
  | .whileRepeats evaluated inside again =>
    have repeated {state : State} (same : state.store = _) :=
      again.arrives unique translates within same
    obtain ⟨conditionCode, bodyCode, conditionTranslated, bodyTranslated, rfl⟩ :=
      translates.whileLoop
    simp only [List.append_assoc] at within repeated ⊢
    refine (Arrives.loop_holds conditionTranslated same evaluated _ _ _).andThen ?_
    intro entered store
    have bodyWithin := suffix_of_append (suffix_of_append (suffix_of_append within))
    have body := inside.arrives unique bodyTranslated bodyWithin store
    -- The jump at the end of the body leads to the beginning of the whole loop.
    exact (body.pass fun _ => steps_goto unique within).andThen fun _ => repeated
  | .perform evaluated => exact .perform translates same evaluated
  | .returnNothing =>
    cases translates.lowered
    subst same
    exact ⟨2, .step rfl (.single rfl)⟩
  | .returnValue evaluated => exact .returnValue translates same evaluated

/-- When statements complete, their code comes to its end with the memory that they leave, or returns
what they return. -/
theorem ExecutesAll.arrives (unique : (definedLabels block).Nodup) {statements : List Statement}
    {store : Store} {completion : Completion}
    (executes : ExecutesAll runtime frame.scope statements store completion) {used : LabelCount}
    {code rest : List Instruction} {state : State}
    (translates : TranslatesAll frame used statements code) (within : code ++ rest <:+ block)
    (same : state.store = store) :
    Arrives runtime block (.running (code ++ rest) state) rest state.stack completion := by
  match executes with
  | .nil =>
    cases translates.lowered
    exact ⟨0, state, .refl, same, rfl⟩
  | .returns first =>
    obtain ⟨statementCode, restCode, statementTranslated, restTranslated, rfl⟩ := translates.cons
    rw [List.append_assoc] at within ⊢
    exact first.arrives unique statementTranslated within same
  | .follows first others =>
    obtain ⟨statementCode, restCode, statementTranslated, restTranslated, rfl⟩ := translates.cons
    rw [List.append_assoc] at within ⊢
    refine (first.arrives unique statementTranslated within same).andThen ?_
    intro next store
    exact others.arrives unique restTranslated (suffix_of_append within) store

end

/-- An assignment completes. -/
theorem Statement.Translates.executes_assign {target : String} {value : Expression}
    {used : LabelCount} {code : List Instruction}
    (translates : (Statement.assign target value).Translates frame used code) (runtime : Runtime)
    (store : Store) :
    ∃ completion, Executes runtime frame.scope (.assign target value) store completion := by
  obtain ⟨valueCode, slot, translated, resolved, plain, rfl⟩ := translates.assign
  obtain ⟨word, globals, evaluated⟩ :=
    translated.exists_eval? runtime store.activation store.globals
  obtain ⟨after, written⟩ := Slot.exists_write? resolved plain ⟨store.activation, globals⟩ word
  exact ⟨_, .assign evaluated resolved written⟩

/-- An assignment to an element completes. -/
theorem Statement.Translates.executes_assignElement {array : String} {index value : Expression}
    {used : LabelCount} {code : List Instruction}
    (translates : (Statement.assignElement array index value).Translates frame used code)
    (runtime : Runtime) (store : Store) :
    ∃ completion,
      Executes runtime frame.scope (.assignElement array index value) store completion := by
  obtain ⟨slot, indexCode, valueCode, resolved, plain, indexTranslated, valueTranslated, rfl⟩ :=
    translates.assignElement
  obtain ⟨base, reads⟩ := Slot.exists_read? resolved plain store.activation store.globals
  obtain ⟨offset, middle, indexed⟩ :=
    indexTranslated.exists_eval? runtime store.activation store.globals
  obtain ⟨word, globals, evaluated⟩ :=
    valueTranslated.exists_eval? runtime store.activation middle
  have read : frame.scope.read? store.activation store.globals array = some base := by
    simp [Scope.read?, resolved, reads]
  exact ⟨_, .assignElement read indexed evaluated⟩

mutual

/-- A statement completes, or its code goes on for any number of steps. -/
theorem Statement.completes_or_lasts (runtime : Runtime) (unique : (definedLabels block).Nodup)
    (count : Nat) (statement : Statement) {used : LabelCount} {code rest : List Instruction}
    {state : State} {store : Store} (translates : statement.Translates frame used code)
    (within : code ++ rest <:+ block) (same : state.store = store) :
    (∃ completion, Executes runtime frame.scope statement store completion) ∨
      Lasts runtime block count (.running (code ++ rest) state) := by
  match statement, count with
  | .assign target value, _ => exact .inl (translates.executes_assign runtime store)
  | .assignElement array index value, _ =>
    exact .inl (translates.executes_assignElement runtime store)
  | .ifThen condition body, count =>
    obtain ⟨conditionCode, bodyCode, conditionTranslated, bodyTranslated, rfl⟩ := translates.ifThen
    simp only [List.append_assoc] at within ⊢
    obtain ⟨word, globals, evaluated⟩ :=
      conditionTranslated.exists_eval? runtime store.activation store.globals
    by_cases zero : word = 0
    · subst zero
      exact .inl ⟨_, .ifThenFails evaluated⟩
    · have entering :=
        Arrives.conditional_holds conditionTranslated unique within same evaluated zero
      have bodyWithin := suffix_of_append (suffix_of_append within)
      rcases entering.completes_or_lasts fun _ kept =>
        complete_or_last runtime unique count body bodyTranslated bodyWithin kept with
        ⟨completion, inside⟩ | lasts
      · exact .inl ⟨completion, .ifThenHolds evaluated zero inside⟩
      · exact .inr lasts
  | .ifElse condition body alternative, count =>
    obtain ⟨conditionCode, bodyCode, alternativeCode, conditionTranslated, bodyTranslated,
      alternativeTranslated, rfl⟩ := translates.ifElse
    simp only [List.append_assoc] at within ⊢
    obtain ⟨word, globals, evaluated⟩ :=
      conditionTranslated.exists_eval? runtime store.activation store.globals
    have bodyWithin := suffix_of_append (suffix_of_append within)
    by_cases zero : word = 0
    · subst zero
      have entering := Arrives.conditional_fails conditionTranslated unique within
        (suffix_behind_jump bodyCode _ _ _) same evaluated
      have alternativeWithin := suffix_of_append (suffix_of_append bodyWithin)
      rcases entering.completes_or_lasts fun _ kept =>
        complete_or_last runtime unique count alternative alternativeTranslated alternativeWithin
          kept with ⟨completion, inside⟩ | lasts
      · exact .inl ⟨completion, .ifElseFails evaluated inside⟩
      · exact .inr lasts
    · have entering :=
        Arrives.conditional_holds conditionTranslated unique within same evaluated zero
      rcases entering.completes_or_lasts fun _ kept =>
        complete_or_last runtime unique count body bodyTranslated bodyWithin kept with
        ⟨completion, inside⟩ | lasts
      · exact .inl ⟨completion, .ifElseHolds evaluated zero inside⟩
      · exact .inr lasts
  | .whileLoop condition body, 0 => exact .inr (.zero _)
  | .whileLoop condition body, count + 1 =>
    have repeated {state : State} {store : Store} (same : state.store = store) :=
      Statement.completes_or_lasts runtime unique count (.whileLoop condition body) translates
        within same
    obtain ⟨conditionCode, bodyCode, conditionTranslated, bodyTranslated, rfl⟩ :=
      translates.whileLoop
    simp only [List.append_assoc] at within repeated ⊢
    obtain ⟨word, globals, evaluated⟩ :=
      conditionTranslated.exists_eval? runtime store.activation store.globals
    by_cases ones : word = -1
    · subst ones
      have entering := Arrives.loop_holds conditionTranslated same evaluated used.loops block
        (bodyCode ++ ([.goto (loopLabel used.loops), .label (exitLabel used.loops)] ++ rest))
      have bodyWithin := suffix_of_append (suffix_of_append (suffix_of_append within))
      rcases entering.completes_or_lasts fun _ kept =>
        complete_or_last runtime unique (count + 1) body bodyTranslated bodyWithin kept with
        ⟨next | ⟨value, after⟩, inside⟩ | lasts
      · have looping := entering.andThen fun _ kept =>
          inside.arrives unique bodyTranslated bodyWithin kept
        -- The jump back to the condition is the step that every round adds.
        have back : ∀ later : State, later.store = next →
            (∃ completion, Executes runtime frame.scope (.whileLoop condition body) next
              completion) ∨ Lasts runtime block (1 + count)
                (.running ([.goto (loopLabel used.loops), .label (exitLabel used.loops)] ++ rest)
                  later) := by
          intro later kept
          rcases repeated kept with again | lasts
          · exact .inl again
          · exact .inr (lasts.after_steps (steps_goto unique within))
        rw [Nat.add_comm]
        rcases looping.completes_or_lasts back with ⟨completion, again⟩ | lasts
        · exact .inl ⟨completion, .whileRepeats evaluated inside again⟩
        · exact .inr lasts
      · exact .inl ⟨_, .whileReturns evaluated inside⟩
      · exact .inr lasts
    · exact .inl ⟨_, .whileEnds evaluated ones⟩
  | .perform call, _ =>
    obtain ⟨callCode, translated, rfl⟩ := translates.perform
    obtain ⟨word, globals, evaluated⟩ :=
      translated.exists_eval? runtime store.activation store.globals
    exact .inl ⟨_, .perform evaluated⟩
  | .return none, _ => exact .inl ⟨_, .returnNothing⟩
  | .return (some value), _ =>
    obtain ⟨valueCode, translated, rfl⟩ := translates.returnValue
    obtain ⟨word, globals, evaluated⟩ :=
      translated.exists_eval? runtime store.activation store.globals
    exact .inl ⟨_, .returnValue evaluated⟩
termination_by (count, sizeOf statement)

/-- Statements complete, or their code goes on for any number of steps. -/
theorem complete_or_last (runtime : Runtime) (unique : (definedLabels block).Nodup)
    (count : Nat) (statements : List Statement) {used : LabelCount} {code rest : List Instruction}
    {state : State} {store : Store} (translates : TranslatesAll frame used statements code)
    (within : code ++ rest <:+ block) (same : state.store = store) :
    (∃ completion, ExecutesAll runtime frame.scope statements store completion) ∨
      Lasts runtime block count (.running (code ++ rest) state) := by
  match statements with
  | [] => exact .inl ⟨_, .nil⟩
  | statement :: others =>
    obtain ⟨statementCode, restCode, statementTranslated, restTranslated, rfl⟩ := translates.cons
    rw [List.append_assoc] at within ⊢
    rcases statement.completes_or_lasts runtime unique count statementTranslated within same with
      ⟨next | ⟨value, after⟩, first⟩ | lasts
    · have following := first.arrives unique statementTranslated within same
      rcases following.completes_or_lasts fun _ kept =>
        complete_or_last runtime unique count others restTranslated (suffix_of_append within)
          kept with ⟨completion, rest⟩ | lasts
      · exact .inl ⟨completion, .follows first rest⟩
      · exact .inr lasts
    · exact .inl ⟨_, .returns first⟩
    · exact .inr lasts
termination_by (count, sizeOf statements)

end

end Statements

end Jack
