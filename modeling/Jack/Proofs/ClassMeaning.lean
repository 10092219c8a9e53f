import Jack.Proofs.StatementMeaning

/-!
# The code of a class carries out its subroutines

The code of a class is one block for each subroutine. A block returns exactly what its subroutine gives
back, and it is never stuck: when the subroutine does not come to an end, neither does the block.
-/

namespace Jack

open Machine

/-- A block carries out a subroutine: from any state it returns what the subroutine gives back and
nothing else, and it does not come to a stop without having returned. -/
def Subroutine.IsCarriedOutBy (subroutine : Subroutine) (scope : Scope) (block : List Instruction) :
    Prop :=
  ∀ (runtime : Runtime) (state : State),
    (∀ value globals, Returns runtime block (.running block state) value globals ↔
      subroutine.Gives runtime scope state.store value globals) ∧
    NeverStuck runtime block (.running block state)

/-- The first instructions of a subroutine prepare the memory for its statements. -/
theorem Subroutine.execute?_prologue (subroutine : Subroutine) (runtime : Runtime) (scope : Scope)
    (name : String) (state : State) :
    ∃ entered, execute? runtime ([.function name (toWord subroutine.localVariables.length)] ++
        subroutine.kind.prologue scope.fields.count.toNat) state = some entered ∧
      entered.store = subroutine.entry runtime scope state.store := by
  unfold SubroutineKind.prologue Subroutine.entry
  cases subroutine.kind with
  | constructor =>
    refine ⟨_, rfl, ?_⟩
    simp [State.store, State.activation, State.clearLocals, State.call, State.push, State.read]
  | function => exact ⟨_, rfl, rfl⟩
  | method => exact ⟨_, rfl, rfl⟩

/-- What the code of a subroutine has after its statements: a return of zero, unless the last statement
is a return. -/
def Subroutine.ending (subroutine : Subroutine) : List Instruction :=
  if endsInReturn subroutine.body.statements then [] else [.push .constant 0, .return]

section Blocks

variable {subroutine : Subroutine} {scope : Scope} {frame : Frame} {block : List Instruction}
  (lowered : subroutine.lower ⟨true⟩ scope = .ok block)
  (framed : subroutine.frameIn scope = .ok frame)
  (plain : ∀ name ∈ statementNames subroutine.body.statements,
    frame.scope.namesCurrentArray name = false)
  (small : ∀ size ∈ statementCallSizes subroutine.body.statements, size < 65535)

include lowered framed plain small

/-- A block comes to the code of its statements with the memory prepared. -/
theorem Subroutine.steps_body :
    ∃ body, TranslatesAll frame .none subroutine.body.statements body ∧
      body ++ subroutine.ending <:+ block ∧
      ∀ runtime state, ∃ count entered,
        Steps runtime block count (.running block state)
          (.running (body ++ subroutine.ending) entered) ∧
        entered.store = subroutine.entry runtime frame.scope state.store := by
  obtain ⟨other, body, framed', bodyLowered, parts⟩ := Subroutine.lower_eq_ok_iff.mp lowered
  rw [framed] at framed'
  cases framed'
  have ending : (if (⟨true⟩ : Options).completes subroutine then [.push .constant 0, .return]
      else []) = subroutine.ending := by
    cases ends : endsInReturn subroutine.body.statements <;>
      simp [Options.completes, Subroutine.ending, ends]
  have locals := (Subroutine.enters_of_frameIn framed).locals.toNat_count
  rw [Nat.zero_add] at locals
  rw [ending, locals, List.append_assoc _ body] at parts
  refine ⟨body, ⟨bodyLowered, plain, small⟩, ⟨_, parts.symm⟩, fun runtime state => ?_⟩
  obtain ⟨entered, executed, store⟩ := subroutine.execute?_prologue runtime frame.scope
    (qualified frame.scope.className subroutine.name) state
  have steps : Steps runtime block _ _ (.running (body ++ subroutine.ending) entered) :=
    steps_of_execute? executed (body ++ subroutine.ending)
  rw [← parts] at steps
  exact ⟨_, entered, steps, store⟩

/-- A block returns what its subroutine gives back. -/
theorem Subroutine.returns_of_gives {runtime : Runtime} {state : State} {value : Word}
    {globals : Globals} (gives : subroutine.Gives runtime frame.scope state.store value globals) :
    Returns runtime block (.running block state) value globals := by
  have unique := subroutine.nodup_definedLabels lowered
  obtain ⟨body, translates, within, entry⟩ := Subroutine.steps_body lowered framed plain small
  obtain ⟨count, entered, steps, store⟩ := entry runtime state
  apply Returns.after_steps steps
  cases gives with
  | returned executed => exact executed.arrives unique translates within store
  | ended executed =>
    have arrives := executed.arrives unique translates within store
    have continues : endsInReturn subroutine.body.statements = false := by
      by_contra ends
      exact ExecutesAll.not_normal_of_endsInReturn (by simpa using ends) executed
    obtain ⟨_, final, others, kept, _⟩ := arrives
    apply Returns.after_steps others
    rw [Subroutine.ending, continues, ← kept]
    exact ⟨2, .step rfl (.single rfl)⟩

/-- A subroutine gives something back, or its block goes on for any number of steps. -/
theorem Subroutine.gives_or_lasts (runtime : Runtime) (state : State) (count : Nat) :
    (∃ value globals, subroutine.Gives runtime frame.scope state.store value globals) ∨
      Lasts runtime block count (.running block state) := by
  have unique := subroutine.nodup_definedLabels lowered
  obtain ⟨body, translates, within, entry⟩ := Subroutine.steps_body lowered framed plain small
  obtain ⟨_, entered, steps, store⟩ := entry runtime state
  rcases complete_or_last runtime unique count subroutine.body.statements translates within store with
    ⟨after | ⟨value, globals⟩, executed⟩ | lasts
  · exact .inl ⟨0, after.globals, .ended executed⟩
  · exact .inl ⟨value, globals, .returned executed⟩
  · exact .inr ((lasts.after_steps steps).of_le (by omega))

/-- The code of a subroutine carries it out. -/
theorem Subroutine.isCarriedOutBy_lower : subroutine.IsCarriedOutBy frame.scope block := by
  intro runtime state
  have returns {value : Word} {globals : Globals}
      (gives : subroutine.Gives runtime frame.scope state.store value globals) :=
    Subroutine.returns_of_gives lowered framed plain small gives
  have alternatives := Subroutine.gives_or_lasts lowered framed plain small runtime state
  refine ⟨fun value globals => ⟨?_, returns⟩, ?_⟩
  · rintro ⟨length, steps⟩
    -- A block that returns after some steps does not go on for one more.
    rcases alternatives (length + 1) with ⟨other, rest, gives⟩ | ⟨later, longer⟩
    · obtain ⟨rfl, rfl⟩ := Returns.unique ⟨length, steps⟩ (returns gives)
      exact gives
    · have bound := steps.le_of_returned longer
      omega
  · apply NeverStuck.of_returns_or_lasts
    intro count
    rcases alternatives count with ⟨value, globals, gives⟩ | lasts
    · exact .inl ⟨value, globals, returns gives⟩
    · exact .inr lasts

end Blocks

/-- The code of a class is one block for each of its subroutines, in order. A block begins by naming its
subroutine. It carries the subroutine out, provided that no name in the statements stands for the
current array and that the number of arguments of each call fits into a word together with the
receiver. -/
theorem ClassDeclaration.lower_carries_out_subroutines {declaration : ClassDeclaration}
    {code : List Instruction} (lowered : declaration.lower ⟨true⟩ = .ok code) :
    ∃ blocks, code = blocks.flatten ∧
      List.Forall₂ (fun subroutine block =>
        ∃ frame, subroutine.frameIn declaration.scope.1 = .ok frame ∧
          block.head? = some (.function (qualified declaration.name subroutine.name)
            (toWord subroutine.localVariables.length)) ∧
          ((∀ name ∈ statementNames subroutine.body.statements,
              frame.scope.namesCurrentArray name = false) →
            (∀ size ∈ statementCallSizes subroutine.body.statements, size < 65535) →
            subroutine.IsCarriedOutBy frame.scope block))
        declaration.subroutines blocks := by
  obtain ⟨_, subroutinesLowered⟩ := ClassDeclaration.lower_eq_ok_iff.mp lowered
  obtain ⟨blocks, flat, each⟩ := exists_blocks_of_lowerSubroutines subroutinesLowered
  refine ⟨blocks, flat, each.imp ?_⟩
  intro subroutine block subroutineLowered
  obtain ⟨frame, _, framed, _⟩ := Subroutine.lower_eq_ok_iff.mp subroutineLowered
  refine ⟨frame, framed, ?_, Subroutine.isCarriedOutBy_lower subroutineLowered framed⟩
  rw [Subroutine.head?_of_lower subroutineLowered, declaration.className_scope]

/-- A constructor with a loop that stores into an array and may be left by a return. -/
theorem ClassDeclaration.lower_carries_out_fill :
    let place : Expression := .term (.name "place")
    let loop : Statement := .whileLoop (.binary place .less (.name "size"))
      [.assignElement "cells" place place, .ifThen (.term (.element "cells" place)) [.return none],
        .assign "place" (.binary place .add (.integer 1))]
    let fill : Subroutine :=
      ⟨.constructor, some (.object "Row"), "fill", [⟨.int, "size"⟩], ⟨[⟨.int, ["place"]⟩], [loop]⟩⟩
    let row : ClassDeclaration := ⟨"Row", [⟨.field, ⟨.object "Array", ["cells"]⟩⟩], [fill]⟩
    let scope : Scope := (fill.scopeIn row.scope.1).1
    ∃ code, row.lower ⟨true⟩ = .ok code ∧ fill.IsCarriedOutBy scope code := by
  intro place loop fill row scope
  obtain ⟨code, lowered⟩ : ∃ code, row.lower ⟨true⟩ = .ok code := ⟨_, rfl⟩
  refine ⟨code, lowered, ?_⟩
  obtain ⟨blocks, flat, each⟩ := ClassDeclaration.lower_carries_out_subroutines lowered
  cases each with
  | cons first none =>
    cases none
    obtain ⟨frame, framed, _, carried⟩ := first
    cases framed
    rw [List.flatten_singleton] at flat
    rw [flat]
    exact carried (by decide) (by decide)

end Jack
