import Jack.Machine.Instruction
import Mathlib.Data.List.Basic

/-!
# Execution of code

The machine that code is written for, with words of sixteen bits. It runs one block at a time: the
code of one function, inside which its jumps find their labels. What the functions that a block calls
do is a parameter, the `Runtime`, so every statement about execution holds whatever they do.

A configuration holds the code that is still to be executed, always a final part of the block.
-/

namespace Jack.Machine

/-- What the machine computes with. -/
abbrev Word := BitVec 16

/-- The word of a truth value: all ones or zero. -/
def truth (holds : Bool) : Word := if holds then -1 else 0

/-- The memory that all functions share. -/
structure Globals where
  statics : Nat → Word
  heap : Word → Word

/-- The functions that can be called. A call takes its arguments and the shared memory to a result
and a new shared memory. It may also leave anything in the temporary segment. -/
structure Runtime where
  call : String → List Word → Globals → Word × Globals
  temps : String → List Word → Globals → (Nat → Word) → Nat → Word

/-- The memory that a running function sees, its operands on top. -/
structure State where
  stack : List Word
  arguments : Nat → Word
  locals : Nat → Word
  pointers : Nat → Word
  temps : Nat → Word
  globals : Globals

namespace State

/-- The word at a place of a segment. The segments `this` and `that` are windows on the heap that
begin where the two pointers say. -/
def read (state : State) (segment : Segment) (index : Nat) : Word :=
  match segment with
  | .constant => .ofNat 16 index
  | .argument => state.arguments index
  | .local => state.locals index
  | .static => state.globals.statics index
  | .this => state.globals.heap (state.pointers 0 + .ofNat 16 index)
  | .that => state.globals.heap (state.pointers 1 + .ofNat 16 index)
  | .pointer => state.pointers index
  | .temp => state.temps index

/-- Changes one word of the heap. -/
def writeHeap (state : State) (address value : Word) : State :=
  { state with globals.heap := Function.update state.globals.heap address value }

/-- Changes the word at a place of a segment; a constant has no place. -/
def write? (state : State) (segment : Segment) (index : Nat) (value : Word) : Option State :=
  match segment with
  | .constant => none
  | .argument => some { state with arguments := Function.update state.arguments index value }
  | .local => some { state with locals := Function.update state.locals index value }
  | .static =>
    some { state with globals.statics := Function.update state.globals.statics index value }
  | .this => some (state.writeHeap (state.pointers 0 + .ofNat 16 index) value)
  | .that => some (state.writeHeap (state.pointers 1 + .ofNat 16 index) value)
  | .pointer => some { state with pointers := Function.update state.pointers index value }
  | .temp => some { state with temps := Function.update state.temps index value }

/-- Puts a word on the stack. -/
def push (state : State) (value : Word) : State :=
  { state with stack := value :: state.stack }

/-- Calls a function on the topmost words of the stack, the last argument on top. Only the shared
memory and the temporary segment change beside the stack. -/
def call (state : State) (runtime : Runtime) (function : String) (count : Nat) : State :=
  let arguments := (state.stack.take count).reverse
  let outcome := runtime.call function arguments state.globals
  { state with
    stack := outcome.1 :: state.stack.drop count
    temps := runtime.temps function arguments state.globals state.temps
    globals := outcome.2 }

/-- Gives a function its local variables, all of them zero. -/
def clearLocals (state : State) (count : Nat) : State :=
  { state with locals := fun index => if index < count then 0 else state.locals index }

end State

/-- Applies an operation to the top of the stack. Numbers are compared as signed ones. -/
def operate? : Arithmetic → List Word → Option (List Word)
  | .neg, operand :: rest => some (-operand :: rest)
  | .not, operand :: rest => some (~~~operand :: rest)
  | .add, second :: first :: rest => some ((first + second) :: rest)
  | .sub, second :: first :: rest => some ((first - second) :: rest)
  | .eq, second :: first :: rest => some (truth (first = second) :: rest)
  | .gt, second :: first :: rest => some (truth (second.slt first) :: rest)
  | .lt, second :: first :: rest => some (truth (first.slt second) :: rest)
  | .and, second :: first :: rest => some ((first &&& second) :: rest)
  | .or, second :: first :: rest => some ((first ||| second) :: rest)
  | _, _ => none

/-- The effect of an instruction that passes control on to the next one. -/
def executeOne? (runtime : Runtime) (state : State) : Instruction → Option State
  | .push segment index => some (state.push (state.read segment index))
  | .pop segment index =>
    match state.stack with
    | value :: rest => { state with stack := rest }.write? segment index value
    | [] => none
  | .arithmetic operation =>
    (operate? operation state.stack).map fun stack => { state with stack := stack }
  | .label _ => some state
  | .call function count =>
    if count ≤ state.stack.length then some (state.call runtime function count) else none
  | .function _ count => some (state.clearLocals count)
  | .goto _ | .ifGoto _ | .return => none

/-- The effect of instructions that are executed one after the other. -/
def execute? (runtime : Runtime) (code : List Instruction) (state : State) : Option State :=
  code.foldlM (executeOne? runtime) state

@[simp] theorem execute?_nil (runtime : Runtime) (state : State) :
    execute? runtime [] state = some state := rfl

@[simp] theorem execute?_cons (runtime : Runtime) (instruction : Instruction)
    (rest : List Instruction) (state : State) :
    execute? runtime (instruction :: rest) state =
      (executeOne? runtime state instruction).bind (execute? runtime rest) := rfl

/-- Code is executed piece by piece. -/
@[simp] theorem execute?_append (runtime : Runtime) (first second : List Instruction)
    (state : State) :
    execute? runtime (first ++ second) state =
      (execute? runtime first state).bind (execute? runtime second) := by
  simp only [execute?, List.foldlM_append]
  rfl

/-- Where the execution of a block stands. -/
inductive Configuration where
  | running (code : List Instruction) (state : State)
  | returned (value : Word) (globals : Globals)

/-- The code that begins at a label; there is none when the block does not define it. -/
def codeAt (block : List Instruction) (name : String) : List Instruction :=
  block.dropWhile (· ≠ .label name)

/-- Goes to a label of the block. -/
def jump? (block : List Instruction) (name : String) (state : State) : Option Configuration :=
  match codeAt block name with
  | [] => none
  | code => some (.running code state)

/-- Executes the next instruction. A conditional jump is made on every word but zero, and a function
returns the word on top of the stack. -/
def step? (runtime : Runtime) (block : List Instruction) : Configuration → Option Configuration
  | .returned _ _ => none
  | .running [] _ => none
  | .running (.goto name :: _) state => jump? block name state
  | .running (.ifGoto name :: rest) state =>
    match state.stack with
    | value :: stack =>
      if value = 0 then some (.running rest { state with stack := stack })
      else jump? block name { state with stack := stack }
    | [] => none
  | .running (.return :: _) state =>
    match state.stack with
    | value :: _ => some (.returned value state.globals)
    | [] => none
  | .running (instruction :: rest) state =>
    (executeOne? runtime state instruction).map (.running rest)

/-- The configuration after a number of steps. -/
inductive Steps (runtime : Runtime) (block : List Instruction) :
    Nat → Configuration → Configuration → Prop where
  | refl {configuration} : Steps runtime block 0 configuration configuration
  | step {count before next after}
      (first : step? runtime block before = some next)
      (rest : Steps runtime block count next after) :
      Steps runtime block (count + 1) before after

/-- The block returns a word and leaves the shared memory as given. -/
def Returns (runtime : Runtime) (block : List Instruction) (start : Configuration) (value : Word)
    (globals : Globals) : Prop :=
  ∃ count, Steps runtime block count start (.returned value globals)

/-- The execution goes on for at least a number of steps. -/
def Lasts (runtime : Runtime) (block : List Instruction) (count : Nat) (start : Configuration) :
    Prop :=
  ∃ later, Steps runtime block count start later

/-- Whatever configuration is reached, the block has returned or can go on. -/
def NeverStuck (runtime : Runtime) (block : List Instruction) (start : Configuration) : Prop :=
  ∀ count reached, Steps runtime block count start reached →
    (∃ value globals, reached = .returned value globals) ∨
      ∃ next, step? runtime block reached = some next

section Steps

variable {runtime : Runtime} {block : List Instruction}

/-- An instruction that passes control on is one step. -/
theorem step?_of_executeOne? {instruction : Instruction} {state next : State}
    (executed : executeOne? runtime state instruction = some next) (rest : List Instruction) :
    step? runtime block (.running (instruction :: rest) state) = some (.running rest next) := by
  cases instruction with
  | goto | ifGoto | «return» => simp [executeOne?] at executed
  | _ => simp [step?, executed]

/-- A single step. -/
theorem Steps.single {before after : Configuration}
    (once : step? runtime block before = some after) : Steps runtime block 1 before after :=
  .step once .refl

/-- Steps that meet are one execution. -/
theorem Steps.trans {first second : Nat} {before middle after : Configuration}
    (start : Steps runtime block first before middle)
    (rest : Steps runtime block second middle after) :
    Steps runtime block (first + second) before after := by
  induction start with
  | refl => simpa using rest
  | @step count _ _ _ once _ inductionHypothesis =>
    have later := Steps.step once (inductionHypothesis rest)
    rwa [Nat.add_right_comm] at later

/-- Of two executions from one configuration, the shorter is the beginning of the longer. -/
theorem Steps.split {first second : Nat} {before middle after : Configuration}
    (short : Steps runtime block first before middle)
    (long : Steps runtime block (first + second) before after) :
    Steps runtime block second middle after := by
  induction short with
  | refl => simpa using long
  | @step count _ _ _ once _ inductionHypothesis =>
    rw [Nat.add_right_comm] at long
    cases long with
    | step again rest =>
      rw [once] at again
      cases again
      exact inductionHypothesis rest

/-- A function that has returned does nothing more. -/
theorem Steps.eq_zero_of_returned {count : Nat} {value : Word} {globals : Globals}
    {after : Configuration} (steps : Steps runtime block count (.returned value globals) after) :
    count = 0 := by
  cases steps with
  | refl => rfl
  | step once _ => simp [step?] at once

/-- An execution that returns after some steps does not go on for more. -/
theorem Steps.le_of_returned {count length : Nat} {before after : Configuration} {value : Word}
    {globals : Globals} (returns : Steps runtime block length before (.returned value globals))
    (steps : Steps runtime block count before after) : count ≤ length := by
  by_contra longer
  obtain ⟨excess, rfl⟩ : ∃ excess, count = length + excess := ⟨count - length, by omega⟩
  have none := (returns.split steps).eq_zero_of_returned
  omega

/-- A block returns at most one result. -/
theorem Returns.unique {start : Configuration} {value other : Word} {globals rest : Globals}
    (first : Returns runtime block start value globals)
    (second : Returns runtime block start other rest) : value = other ∧ globals = rest := by
  obtain ⟨firstCount, firstSteps⟩ := first
  obtain ⟨secondCount, secondSteps⟩ := second
  have same : secondCount = firstCount :=
    Nat.le_antisymm (firstSteps.le_of_returned secondSteps) (secondSteps.le_of_returned firstSteps)
  subst same
  have nothing : Steps runtime block 0 (.returned value globals) (.returned other rest) :=
    firstSteps.split secondSteps
  cases nothing
  exact ⟨rfl, rfl⟩

/-- What returns from a configuration that was reached returns from where that began. -/
theorem Returns.after_steps {count : Nat} {before middle : Configuration} {value : Word}
    {globals : Globals} (start : Steps runtime block count before middle)
    (returns : Returns runtime block middle value globals) :
    Returns runtime block before value globals := by
  obtain ⟨length, rest⟩ := returns
  exact ⟨count + length, start.trans rest⟩

/-- Every execution lasts for no step. -/
theorem Lasts.zero (start : Configuration) : Lasts runtime block 0 start := ⟨start, .refl⟩

/-- An execution lasts for fewer steps as well. -/
theorem Lasts.of_le {count fewer : Nat} {start : Configuration}
    (lasts : Lasts runtime block count start) (bound : fewer ≤ count) :
    Lasts runtime block fewer start := by
  induction fewer generalizing count start with
  | zero => exact .zero start
  | succ fewer inductionHypothesis =>
    obtain ⟨later, steps⟩ := lasts
    cases steps with
    | refl => omega
    | step once rest =>
      obtain ⟨middle, shorter⟩ := inductionHypothesis ⟨_, rest⟩ (by omega)
      exact ⟨middle, .step once shorter⟩

/-- Steps made before an execution that lasts add to its length. -/
theorem Lasts.after_steps {first count : Nat} {before middle : Configuration}
    (start : Steps runtime block first before middle)
    (lasts : Lasts runtime block count middle) : Lasts runtime block (first + count) before := by
  obtain ⟨later, rest⟩ := lasts
  exact ⟨later, start.trans rest⟩

/-- A block that returns, or goes on for any number of steps, is never stuck. -/
theorem NeverStuck.of_returns_or_lasts {start : Configuration}
    (alternatives : ∀ count, (∃ value globals, Returns runtime block start value globals) ∨
      Lasts runtime block count start) : NeverStuck runtime block start := by
  intro count reached steps
  rcases alternatives (count + 1) with ⟨value, globals, length, returns⟩ | ⟨later, longer⟩
  · obtain ⟨excess, rfl⟩ := Nat.exists_eq_add_of_le (returns.le_of_returned steps)
    cases steps.split returns with
    | refl => exact .inl ⟨value, globals, rfl⟩
    | step once _ => exact .inr ⟨_, once⟩
  · cases steps.split longer with
    | step once _ => exact .inr ⟨_, once⟩

/-- Code without jumps takes one step for each instruction. -/
theorem steps_of_execute? {code : List Instruction} {state final : State}
    (executed : execute? runtime code state = some final) (rest : List Instruction) :
    Steps runtime block code.length (.running (code ++ rest) state) (.running rest final) := by
  induction code generalizing state with
  | nil =>
    cases executed
    exact .refl
  | cons instruction code inductionHypothesis =>
    rw [execute?_cons, Option.bind_eq_some_iff] at executed
    obtain ⟨next, once, others⟩ := executed
    exact .step (step?_of_executeOne? once _) (inductionHypothesis others)

end Steps

end Jack.Machine
