import Jack.Proofs.Evaluation
import Jack.Proofs.Lowering
import Jack.Proofs.Occurrence
import Jack.Proofs.Scope
import Mathlib.Data.BitVec

/-!
# The code of an expression computes its value

Code computes words when it leaves them on top of the stack and changes nothing that the subroutine
has for itself. Pieces of code that compute words can be put one after the other: operands that wait on
the stack are out of reach of the code that follows. The second pointer and the temporary segment are
not kept, so nothing that has to last may be in them.
-/

namespace Jack

open Machine

/-- What a state holds for the running subroutine. -/
def Machine.State.activation (state : State) : Activation :=
  ⟨state.arguments, state.locals, state.pointers 0⟩

/-- Executed with the given activation and shared memory, the code leaves the words on the stack, the
last one on top, and the shared memory as given. -/
def Computes (runtime : Runtime) (activation : Activation) (before : Globals)
    (code : List Instruction) (words : List Word) (after : Globals) : Prop :=
  ∀ state : State, state.activation = activation → state.globals = before →
    ∃ final, execute? runtime code state = some final ∧
      final.stack = words.reverse ++ state.stack ∧ final.activation = activation ∧
      final.globals = after

section Computes

variable {runtime : Runtime} {activation : Activation} {before middle after : Globals}
  {code : List Instruction} {words : List Word}

/-- No code computes no word. -/
theorem Computes.nil : Computes runtime activation before [] [] before := by
  intro state active shared
  exact ⟨state, rfl, rfl, active, shared⟩

/-- Code that follows adds its words to those that are there. -/
theorem Computes.append {second : List Instruction} {more : List Word}
    (first : Computes runtime activation before code words middle)
    (next : Computes runtime activation middle second more after) :
    Computes runtime activation before (code ++ second) (words ++ more) after := by
  intro state active shared
  obtain ⟨halfway, executed, stack, active, shared⟩ := first state active shared
  obtain ⟨final, rest, restStack, active, shared⟩ := next halfway active shared
  refine ⟨final, ?_, ?_, active, shared⟩
  · rw [execute?_append, executed, Option.bind_some, rest]
  · rw [restStack, stack, List.reverse_append, List.append_assoc]

/-- A constant is pushed as a word. -/
theorem Computes.constant (number : Nat) :
    Computes runtime activation before [.push .constant number] [.ofNat 16 number] before := by
  intro state active shared
  exact ⟨_, rfl, rfl, active, shared⟩

/-- Reading a slot pushes the value of its variable. -/
theorem Computes.load {slot : Slot} {value : Word}
    (reads : slot.read? activation before = some value) :
    Computes runtime activation before [slot.load] [value] before := by
  rintro state rfl rfl
  refine ⟨state.push value, ?_, rfl, rfl, rfl⟩
  have segment : state.read slot.segment slot.index.toNat = value := by
    unfold Slot.read? at reads
    unfold Slot.segment
    split at reads
    case h_5 kind =>
      obtain ⟨first, same⟩ := Option.ite_none_right_eq_some.mp reads
      simpa [kind, SlotKind.segment, State.read, first, State.activation] using same
    all_goals
      rename_i kind
      simpa [kind, SlotKind.segment, State.read, State.activation] using reads
  simp [Slot.load, executeOne?, segment]

/-- An operation on the topmost word replaces it. -/
theorem Computes.unary {operation : Arithmetic} {operand result : Word}
    (computes : Computes runtime activation before code [operand] after)
    (operates : ∀ stack, operate? operation (operand :: stack) = some (result :: stack)) :
    Computes runtime activation before (code ++ [.arithmetic operation]) [result] after := by
  intro state active shared
  obtain ⟨final, executed, stack, active, shared⟩ := computes state active shared
  refine ⟨{ final with stack := result :: state.stack }, ?_, rfl, active, shared⟩
  simp [executed, executeOne?, stack, operates]

/-- An operation on the two topmost words replaces them by one. -/
theorem Computes.binary {operation : Arithmetic} {first second result : Word}
    (computes : Computes runtime activation before code [first, second] after)
    (operates : ∀ stack, operate? operation (second :: first :: stack) = some (result :: stack)) :
    Computes runtime activation before (code ++ [.arithmetic operation]) [result] after := by
  intro state active shared
  obtain ⟨final, executed, stack, active, shared⟩ := computes state active shared
  refine ⟨{ final with stack := result :: state.stack }, ?_, rfl, active, shared⟩
  simp [executed, executeOne?, stack, operates]

/-- A call takes all words that were computed for it. -/
theorem Computes.call {count : Nat}
    (computes : Computes runtime activation before code words after) (function : String)
    (size : count = words.length) :
    Computes runtime activation before (code ++ [.call function count])
      [(runtime.call function words after).1] (runtime.call function words after).2 := by
  intro state active shared
  obtain ⟨final, executed, stack, active, shared⟩ := computes state active shared
  have taken : final.stack.take count = words.reverse := by
    simp [stack, size, List.take_left']
  have left : final.stack.drop count = state.stack := by
    simp [stack, size, List.drop_left']
  have enough : count ≤ final.stack.length := by
    simp [stack, size]
  refine ⟨final.call runtime function count, ?_, ?_, active, ?_⟩
  · simp [executed, executeOne?, enough]
  · simp [State.call, taken, left, shared]
  · simp [State.call, taken, shared]

/-- An element is read through the second pointer, which is set to its address. -/
theorem Computes.element {base offset : Word}
    (computes : Computes runtime activation before code [base, offset] after) :
    Computes runtime activation before
      (code ++ [.arithmetic .add, .pop .pointer 1, .push .that 0])
      [after.heap (base + offset)] after := by
  intro state active shared
  obtain ⟨final, executed, stack, rfl, rfl⟩ := computes state active shared
  refine ⟨{ final with
      stack := final.globals.heap (base + offset) :: state.stack
      pointers := Function.update final.pointers 1 (base + offset) }, ?_, rfl, ?_, rfl⟩
  · simp [executed, executeOne?, stack, operate?, State.write?, State.push, State.read]
  · simp [State.activation]

end Computes

/-- The name of the current object never stands for the current array. -/
theorem Scope.namesCurrentArray_this (scope : Scope) :
    scope.namesCurrentArray "this" = false := by
  by_contra array
  obtain ⟨slot, resolves, predefined, second⟩ : ∃ slot, scope.resolve? "this" = some slot ∧
      slot.kind = .predefined ∧ slot.index = 1 := by
    simpa [Scope.namesCurrentArray, Option.any_eq_true] using array
  have same := Scope.name_eq_that resolves predefined second
  simp at same

/-- The predefined variable that is not the current array is the current object. -/
theorem Scope.index_eq_zero_of_predefined {scope : Scope} {name : String} {slot : Slot}
    (resolves : scope.resolve? name = some slot) (predefined : slot.kind = .predefined)
    (plain : scope.namesCurrentArray name = false) : slot.index = 0 := by
  have bound := Scope.index_lt_two_of_predefined resolves predefined
  have other : slot.index ≠ 1 := by
    simpa [Scope.namesCurrentArray, resolves, predefined] using plain
  rw [Ne, ← UInt16.toNat_inj] at other
  rw [← UInt16.toNat_inj]
  exact Nat.lt_one_iff.mp (Nat.lt_of_le_of_ne (Nat.le_of_lt_succ bound) other)

/-- A variable has a value, unless it is the current array. -/
theorem Slot.exists_read? {scope : Scope} {name : String} {slot : Slot}
    (resolves : scope.resolve? name = some slot) (plain : scope.namesCurrentArray name = false)
    (activation : Activation) (globals : Globals) :
    ∃ value, slot.read? activation globals = some value := by
  unfold Slot.read?
  split
  case h_5 predefined => simp [Scope.index_eq_zero_of_predefined resolves predefined plain]
  all_goals exact ⟨_, rfl⟩

/-- Cutting a number to sixteen bits does not change the word it stands for. -/
theorem ofNat_toWord (number : Nat) : BitVec.ofNat 16 (toWord number) = BitVec.ofNat 16 number := by
  apply BitVec.eq_of_toNat_eq
  simp [toWord]

section Parts

variable {runtime : Runtime} {activation : Activation} {before after : Globals}
  {code : List Instruction}

/-- Characters are appended to the string on the stack from left to right. -/
theorem Computes.appendCharacters {string : Word × Globals}
    (computes : Computes runtime activation before code [string.1] string.2) (text : List Char) :
    Computes runtime activation before (code ++ text.flatMap appendCharacter)
      [(text.foldl (appendChar runtime) string).1] (text.foldl (appendChar runtime) string).2 := by
  induction text generalizing code string with
  | nil => simpa using computes
  | cons c rest inductionHypothesis =>
    have pushed := computes.append (.constant (toWord c.toNat))
    rw [ofNat_toWord] at pushed
    have appended : Computes runtime activation before (code ++ appendCharacter c)
        [(appendChar runtime string c).1] (appendChar runtime string c).2 := by
      simpa [appendCharacter, appendChar] using pushed.call "String.appendChar" rfl
    simpa using inductionHypothesis appended

/-- The code of a string constant makes the string. -/
theorem computes_stringCode (text : String) :
    Computes runtime activation before (stringCode text) [(makeString runtime before text).1]
      (makeString runtime before text).2 := by
  have length : Computes runtime activation before [.push .constant (toWord text.length)]
      [.ofNat 16 text.length] before := by
    simpa [ofNat_toWord] using Computes.constant (toWord text.length)
  exact (length.call "String.new" rfl).appendCharacters text.toList

/-- The instruction of a binary operator applies it. -/
theorem Computes.operator {left right : Word}
    (computes : Computes runtime activation before code [left, right] after)
    (operator : BinaryOperator) :
    Computes runtime activation before (code ++ [operator.instruction])
      [(operator.apply runtime after left right).1] (operator.apply runtime after left right).2 := by
  cases operator with
  | multiply => exact computes.call "Math.multiply" rfl
  | divide => exact computes.call "Math.divide" rfl
  | _ => exact computes.binary fun _ => rfl

/-- The code of a keyword constant computes its value. -/
theorem KeywordConstant.computes_lower {frame : Frame} {constant : KeywordConstant}
    (lowered : constant.lower frame = .ok code) :
    ∃ value, constant.eval? frame.scope activation before = some value ∧
      Computes runtime activation before code [value] before := by
  cases constant with
  | true =>
    cases lowered
    exact ⟨-1, rfl, (Computes.constant 0).unary fun _ => rfl⟩
  | false | null =>
    cases lowered
    exact ⟨0, rfl, .constant 0⟩
  | this =>
    obtain ⟨slot, _, resolves, rfl⟩ := KeywordConstant.lower_this_eq_ok_iff.mp lowered
    obtain ⟨value, reads⟩ := Slot.exists_read? resolves (frame.scope.namesCurrentArray_this)
      activation before
    refine ⟨value, ?_, .load reads⟩
    simp [KeywordConstant.eval?, Scope.read?, resolves, reads]

/-- The code for the receiver of a call puts the receiving object on the stack. -/
theorem computes_receiver {frame : Frame} {receiver : Option String} {name : String}
    {dispatch : Dispatch} (dispatched : frame.dispatch receiver name = .ok dispatch)
    (plain : ∀ name ∈ receiver, frame.scope.namesCurrentArray name = false) :
    ∃ object, frame.scope.callee? activation before receiver name =
        some (dispatch.target, object) ∧ dispatch.added = object.length ∧
      Computes runtime activation before dispatch.receiver object before := by
  unfold Frame.dispatch at dispatched
  split at dispatched
  case h_1 =>
    cases dispatched
    refine ⟨[activation.object], rfl, rfl, ?_⟩
    rintro state rfl shared
    exact ⟨_, rfl, rfl, rfl, shared⟩
  case h_2 =>
    split at dispatched
    case h_1 slot resolves =>
      split at dispatched
      · cases dispatched
      · cases dispatched
        obtain ⟨value, reads⟩ := Slot.exists_read? resolves (plain _ rfl) activation before
        refine ⟨[value], ?_, rfl, .load reads⟩
        simp [Scope.callee?, resolves, reads]
    case h_2 resolves =>
      cases dispatched
      refine ⟨[], ?_, rfl, .nil⟩
      simp [Scope.callee?, resolves]

end Parts

section Expressions

variable {frame : Frame} {code : List Instruction}

mutual

/-- The code of an expression computes the value of the expression. -/
theorem Expression.computes_lower (runtime : Runtime) (activation : Activation) (before : Globals)
    (expression : Expression) {code : List Instruction}
    (lowered : expression.lower frame = .ok code)
    (plain : ∀ name ∈ expression.names, frame.scope.namesCurrentArray name = false)
    (small : ∀ size ∈ expression.callSizes, size < 65535) :
    ∃ value after, expression.eval? runtime frame.scope activation before = some (value, after) ∧
      Computes runtime activation before code [value] after := by
  cases expression with
  | term only =>
    rw [Expression.lower] at lowered
    rw [Expression.names] at plain
    rw [Expression.callSizes] at small
    exact only.computes_lower runtime activation before lowered plain small
  | binary left operator right =>
    obtain ⟨leftCode, rightCode, leftLowered, rightLowered, rfl⟩ :=
      Expression.lower_binary_eq_ok_iff.mp lowered
    simp only [Expression.names, List.mem_append, or_imp, forall_and] at plain
    simp only [Expression.callSizes, List.mem_append, or_imp, forall_and] at small
    obtain ⟨leftValue, middle, leftEval, leftComputes⟩ :=
      left.computes_lower runtime activation before leftLowered plain.1 small.1
    obtain ⟨rightValue, after, rightEval, rightComputes⟩ :=
      right.computes_lower runtime activation middle rightLowered plain.2 small.2
    refine ⟨_, _, ?_, (leftComputes.append rightComputes).operator operator⟩
    simp [Expression.eval?, leftEval, rightEval]

/-- The code of a term computes the value of the term. -/
theorem Term.computes_lower (runtime : Runtime) (activation : Activation) (before : Globals)
    (term : Term) {code : List Instruction} (lowered : term.lower frame = .ok code)
    (plain : ∀ name ∈ term.names, frame.scope.namesCurrentArray name = false)
    (small : ∀ size ∈ term.callSizes, size < 65535) :
    ∃ value after, term.eval? runtime frame.scope activation before = some (value, after) ∧
      Computes runtime activation before code [value] after := by
  cases term with
  | integer value =>
    rw [Term.lower] at lowered
    cases lowered
    refine ⟨value.toBitVec, before, rfl, ?_⟩
    simpa using Computes.constant value.toNat
  | string text =>
    rw [Term.lower] at lowered
    cases lowered
    exact ⟨_, _, rfl, computes_stringCode text⟩
  | constant constant =>
    rw [Term.lower] at lowered
    obtain ⟨value, eval, computes⟩ := constant.computes_lower lowered
    refine ⟨value, before, ?_, computes⟩
    simp [Term.eval?, eval]
  | name name =>
    obtain ⟨slot, resolves, rfl⟩ := Term.lower_name_eq_ok_iff.mp lowered
    obtain ⟨value, reads⟩ := Slot.exists_read? resolves (plain name (by simp [Term.names]))
      activation before
    refine ⟨value, before, ?_, .load reads⟩
    simp [Term.eval?, Scope.read?, resolves, reads]
  | element array index =>
    obtain ⟨slot, indexCode, resolves, indexLowered, rfl⟩ :=
      Term.lower_element_eq_ok_iff.mp lowered
    simp only [Term.names, List.mem_cons, forall_eq_or_imp] at plain
    obtain ⟨base, reads⟩ := Slot.exists_read? resolves plain.1 activation before
    obtain ⟨offset, after, eval, computes⟩ :=
      index.computes_lower runtime activation before indexLowered plain.2 small
    -- The base waits on the stack below the index, whose code may move the current array.
    refine ⟨_, after, ?_, ((Computes.load reads).append computes).element⟩
    simp [Term.eval?, Scope.read?, resolves, reads, eval]
  | call call =>
    rw [Term.lower] at lowered
    rw [Term.names] at plain
    rw [Term.callSizes] at small
    exact call.computes_lower runtime activation before lowered plain small
  | unary operator operand =>
    obtain ⟨operandCode, operandLowered, rfl⟩ := Term.lower_unary_eq_ok_iff.mp lowered
    rw [Term.names] at plain
    rw [Term.callSizes] at small
    obtain ⟨value, after, eval, computes⟩ :=
      operand.computes_lower runtime activation before operandLowered plain small
    refine ⟨operator.apply value, after, ?_, ?_⟩
    · simp [Term.eval?, eval]
    · cases operator with
      | negate => exact computes.unary fun _ => rfl
      | complement => exact computes.unary fun _ => rfl
  | group inner =>
    rw [Term.lower] at lowered
    rw [Term.names] at plain
    rw [Term.callSizes] at small
    exact inner.computes_lower runtime activation before lowered plain small

/-- The code of a call computes the result of the call. -/
theorem Call.computes_lower (runtime : Runtime) (activation : Activation) (before : Globals)
    (call : Call) {code : List Instruction} (lowered : call.lower frame = .ok code)
    (plain : ∀ name ∈ call.names, frame.scope.namesCurrentArray name = false)
    (small : ∀ size ∈ call.callSizes, size < 65535) :
    ∃ value after, call.eval? runtime frame.scope activation before = some (value, after) ∧
      Computes runtime activation before code [value] after := by
  cases call with
  | mk receiver name arguments =>
    obtain ⟨dispatch, argumentCode, dispatched, argumentsLowered, rfl⟩ :=
      Call.lower_eq_ok_iff.mp lowered
    simp only [Call.names, List.mem_append, Option.mem_toList, or_imp, forall_and] at plain
    simp only [Call.callSizes, List.mem_cons, forall_eq_or_imp] at small
    obtain ⟨object, callee, added, receiverComputes⟩ := computes_receiver dispatched plain.1
    obtain ⟨values, after, eval, length, computes⟩ :=
      computes_lowerArguments runtime activation before arguments argumentsLowered plain.2 small.2
    have count : toWord arguments.length + dispatch.added = (object ++ values).length := by
      rw [toWord, Nat.mod_eq_of_lt (by omega), added, List.length_append, length, Nat.add_comm]
    refine ⟨_, _, ?_, (receiverComputes.append computes).call dispatch.target count⟩
    simp [Call.eval?, callee, eval]

/-- The code of the arguments of a call computes their values in order. -/
theorem computes_lowerArguments (runtime : Runtime) (activation : Activation) (before : Globals)
    (arguments : List Expression) {code : List Instruction}
    (lowered : lowerArguments frame arguments = .ok code)
    (plain : ∀ name ∈ argumentNames arguments, frame.scope.namesCurrentArray name = false)
    (small : ∀ size ∈ argumentCallSizes arguments, size < 65535) :
    ∃ values after,
      evalArguments? runtime frame.scope activation before arguments = some (values, after) ∧
      values.length = arguments.length ∧ Computes runtime activation before code values after := by
  cases arguments with
  | nil =>
    rw [lowerArguments] at lowered
    cases lowered
    exact ⟨[], before, rfl, rfl, .nil⟩
  | cons argument rest =>
    obtain ⟨argumentCode, restCode, argumentLowered, restLowered, rfl⟩ :=
      lowerArguments_cons_eq_ok_iff.mp lowered
    simp only [argumentNames, List.mem_append, or_imp, forall_and] at plain
    simp only [argumentCallSizes, List.mem_append, or_imp, forall_and] at small
    obtain ⟨value, middle, eval, computes⟩ :=
      argument.computes_lower runtime activation before argumentLowered plain.1 small.1
    obtain ⟨values, after, restEval, length, restComputes⟩ :=
      computes_lowerArguments runtime activation middle rest restLowered plain.2 small.2
    refine ⟨value :: values, after, ?_, by simp [length], computes.append restComputes⟩
    simp [evalArguments?, eval, restEval]

end

/-- Executing exactly the code of an expression, one step for each instruction and whatever code
comes next, puts the value of the expression on the stack. The shared memory is then as evaluation
leaves it, and the subroutine has the arguments, locals and current object that it had. -/
theorem Expression.lower_preserves_meaning {expression : Expression}
    (lowered : expression.lower frame = .ok code)
    (plain : ∀ name ∈ expression.names, frame.scope.namesCurrentArray name = false)
    (small : ∀ size ∈ expression.callSizes, size < 65535) (runtime : Runtime) (state : State) :
    ∃ value globals final,
      expression.eval? runtime frame.scope state.activation state.globals = some (value, globals) ∧
      final.stack = value :: state.stack ∧ final.globals = globals ∧
      final.activation = state.activation ∧
      ∀ block rest,
        Steps runtime block code.length (.running (code ++ rest) state) (.running rest final) := by
  obtain ⟨value, after, eval, computes⟩ :=
    expression.computes_lower runtime state.activation state.globals lowered plain small
  obtain ⟨final, executed, stack, active, shared⟩ := computes state rfl rfl
  exact ⟨value, after, final, eval, stack, shared, active, fun _ => steps_of_execute? executed⟩

/-- The product of two with an element whose index is the result of a method. -/
theorem Expression.lower_preserves_meaning_product :
    let scope : Scope := ((Scope.ofClass "Main").enterSubroutine .function
      [⟨.object "List", "items"⟩] [⟨.object "Array", "table"⟩]).1
    let index : Expression := .term (.call (.mk (some "items") "size" []))
    let product : Expression := .binary (.term (.element "table" index)) .multiply (.integer 2)
    let code : List Instruction :=
      [.push .local 0, .push .argument 0, .call "List.size" 1, .arithmetic .add, .pop .pointer 1,
        .push .that 0, .push .constant 2, .call "Math.multiply" 2]
    let runtime : Runtime := ⟨fun _ words globals => (words.sum, globals), fun _ _ _ temps => temps⟩
    let state : State :=
      ⟨[7], fun _ => 3, fun _ => 5, fun _ => 0, fun _ => 0, ⟨fun _ => 0, fun address => address⟩⟩
    product.lower ⟨scope, "main", .function⟩ = .ok code ∧
      (∀ name ∈ product.names, scope.namesCurrentArray name = false) ∧
      (∀ size ∈ product.callSizes, size < 65535) ∧
      ∃ value globals final,
        product.eval? runtime scope state.activation state.globals = some (value, globals) ∧
        final.stack = value :: state.stack ∧ final.globals = globals ∧
        final.activation = state.activation ∧
        ∀ block rest,
          Steps runtime block code.length (.running (code ++ rest) state) (.running rest final) := by
  intro scope index product code runtime state
  have lowered : product.lower ⟨scope, "main", .function⟩ = .ok code := rfl
  have plain : ∀ name ∈ product.names, scope.namesCurrentArray name = false := by decide
  have small : ∀ size ∈ product.callSizes, size < 65535 := by decide
  exact ⟨lowered, plain, small,
    Expression.lower_preserves_meaning lowered plain small runtime state⟩

end Expressions

end Jack
