import Jack.Lowering.Class
import Jack.Proofs.Evaluation

/-!
# The meaning of statements and subroutines

The relation `Executes` says how a statement completes: it passes control on with a new memory, or it
returns a value from its subroutine. A statement that never completes is related to nothing. The rules
follow the statements alone; neither labels nor jumps occur in them.
-/

namespace Jack

open Machine

/-- The memory of a running subroutine: what it has for itself and what all subroutines share. -/
structure Store where
  activation : Activation
  globals : Globals

/-- Changes the variable that a slot holds. -/
def Slot.write? (slot : Slot) (store : Store) (value : Word) : Option Store :=
  match slot.kind with
  | .static =>
    some { store with
      globals.statics := Function.update store.globals.statics slot.index.toNat value }
  | .field =>
    some { store with
      globals.heap := Function.update store.globals.heap
        (store.activation.object + .ofNat 16 slot.index.toNat) value }
  | .argument =>
    some { store with
      activation.arguments := Function.update store.activation.arguments slot.index.toNat value }
  | .local =>
    some { store with
      activation.locals := Function.update store.activation.locals slot.index.toNat value }
  | .predefined => if slot.index = 0 then some { store with activation.object := value } else none

/-- How a statement completes. -/
inductive Completion where
  | normal (store : Store)
  | returned (value : Word) (globals : Globals)

mutual

/-- A statement, begun with the memory given, completes in the way given. A conditional asks whether
its condition is not zero, a loop whether its condition is all ones. -/
inductive Executes (runtime : Runtime) (scope : Scope) : Statement → Store → Completion → Prop where
  | assign {target value store word globals slot after}
      (evaluated : value.eval? runtime scope store.activation store.globals = some (word, globals))
      (resolved : scope.resolve? target = some slot)
      (written : slot.write? ⟨store.activation, globals⟩ word = some after) :
      Executes runtime scope (.assign target value) store (.normal after)
  | assignElement {array index value store base offset middle word globals}
      (read : scope.read? store.activation store.globals array = some base)
      (indexed : index.eval? runtime scope store.activation store.globals = some (offset, middle))
      (evaluated : value.eval? runtime scope store.activation middle = some (word, globals)) :
      Executes runtime scope (.assignElement array index value) store
        (.normal ⟨store.activation,
          { globals with heap := Function.update globals.heap (base + offset) word }⟩)
  | ifThenHolds {condition body store word globals completion}
      (evaluated :
        condition.eval? runtime scope store.activation store.globals = some (word, globals))
      (holds : word ≠ 0)
      (inside : ExecutesAll runtime scope body ⟨store.activation, globals⟩ completion) :
      Executes runtime scope (.ifThen condition body) store completion
  | ifThenFails {condition body store globals}
      (evaluated :
        condition.eval? runtime scope store.activation store.globals = some (0, globals)) :
      Executes runtime scope (.ifThen condition body) store (.normal ⟨store.activation, globals⟩)
  | ifElseHolds {condition body alternative store word globals completion}
      (evaluated :
        condition.eval? runtime scope store.activation store.globals = some (word, globals))
      (holds : word ≠ 0)
      (inside : ExecutesAll runtime scope body ⟨store.activation, globals⟩ completion) :
      Executes runtime scope (.ifElse condition body alternative) store completion
  | ifElseFails {condition body alternative store globals completion}
      (evaluated :
        condition.eval? runtime scope store.activation store.globals = some (0, globals))
      (inside : ExecutesAll runtime scope alternative ⟨store.activation, globals⟩ completion) :
      Executes runtime scope (.ifElse condition body alternative) store completion
  | whileEnds {condition body store word globals}
      (evaluated :
        condition.eval? runtime scope store.activation store.globals = some (word, globals))
      (fails : word ≠ -1) :
      Executes runtime scope (.whileLoop condition body) store
        (.normal ⟨store.activation, globals⟩)
  | whileReturns {condition body store globals value after}
      (evaluated :
        condition.eval? runtime scope store.activation store.globals = some (-1, globals))
      (inside : ExecutesAll runtime scope body ⟨store.activation, globals⟩ (.returned value after)) :
      Executes runtime scope (.whileLoop condition body) store (.returned value after)
  | whileRepeats {condition body store globals next completion}
      (evaluated :
        condition.eval? runtime scope store.activation store.globals = some (-1, globals))
      (inside : ExecutesAll runtime scope body ⟨store.activation, globals⟩ (.normal next))
      (again : Executes runtime scope (.whileLoop condition body) next completion) :
      Executes runtime scope (.whileLoop condition body) store completion
  | perform {call store word globals}
      (evaluated : call.eval? runtime scope store.activation store.globals = some (word, globals)) :
      Executes runtime scope (.perform call) store (.normal ⟨store.activation, globals⟩)
  | returnNothing {store} :
      Executes runtime scope (.return none) store (.returned 0 store.globals)
  | returnValue {value store word globals}
      (evaluated : value.eval? runtime scope store.activation store.globals = some (word, globals)) :
      Executes runtime scope (.return (some value)) store (.returned word globals)

/-- Statements that follow each other complete in the way given; none is executed after one that
returns. -/
inductive ExecutesAll (runtime : Runtime) (scope : Scope) :
    List Statement → Store → Completion → Prop where
  | nil {store} : ExecutesAll runtime scope [] store (.normal store)
  | returns {statement rest store value globals}
      (first : Executes runtime scope statement store (.returned value globals)) :
      ExecutesAll runtime scope (statement :: rest) store (.returned value globals)
  | follows {statement rest store next completion}
      (first : Executes runtime scope statement store (.normal next))
      (others : ExecutesAll runtime scope rest next completion) :
      ExecutesAll runtime scope (statement :: rest) store completion

end

/-- The memory with which the statements of a subroutine begin, from that with which it is called. Its
locals are zero, and their number is a word like every other number of the machine. A constructor makes
a new object that has room for the fields, and a method works on the object that is its first argument. -/
def Subroutine.entry (runtime : Runtime) (scope : Scope) (subroutine : Subroutine) (called : Store) :
    Store :=
  let arguments := called.activation.arguments
  let locals := fun index =>
    if index < toWord subroutine.localVariables.length then 0 else called.activation.locals index
  match subroutine.kind with
  | .constructor =>
    let created := runtime.call "Memory.alloc" [scope.fields.count.toBitVec] called.globals
    ⟨⟨arguments, locals, created.1⟩, created.2⟩
  | .function => ⟨⟨arguments, locals, called.activation.object⟩, called.globals⟩
  | .method => ⟨⟨arguments, locals, arguments 0⟩, called.globals⟩

/-- A subroutine gives back what its statements return, or zero when they come to their end. -/
inductive Subroutine.Gives (runtime : Runtime) (scope : Scope) (subroutine : Subroutine)
    (called : Store) : Word → Globals → Prop where
  | returned {value globals}
      (executed : ExecutesAll runtime scope subroutine.body.statements
        (subroutine.entry runtime scope called) (.returned value globals)) :
      Gives runtime scope subroutine called value globals
  | ended {store}
      (executed : ExecutesAll runtime scope subroutine.body.statements
        (subroutine.entry runtime scope called) (.normal store)) :
      Gives runtime scope subroutine called 0 store.globals

/-- Statements of which the last is a return do not come to their end. -/
theorem ExecutesAll.not_normal_of_endsInReturn {runtime : Runtime} {scope : Scope}
    {statements : List Statement} {store after : Store} (ends : endsInReturn statements = true) :
    ¬ ExecutesAll runtime scope statements store (.normal after) := by
  induction statements generalizing store with
  | nil => simp [endsInReturn] at ends
  | cons statement rest inductionHypothesis =>
    rintro (_ | _ | ⟨first, others⟩)
    cases rest with
    | nil =>
      cases first with
      | _ => simp [endsInReturn, Statement.isReturn] at ends
    | cons second more =>
      have last : endsInReturn (second :: more) = true := by
        simpa [endsInReturn] using ends
      exact inductionHypothesis last others

end Jack
