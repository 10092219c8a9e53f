import Jack.Proofs.Declarations
import Jack.Proofs.Emission
import Mathlib.Data.List.Forall2

/-!
# Operands of generated code

Code reads and writes memory only where the class has declared something. The slots that names are given
by their declarations are the places that instructions name later, so every operand stays below the
number of variables of its kind. The first argument of a method is touched once, when the method takes
its object from it.
-/

namespace Jack

/-- The operand of an instruction is one of the places that its segment has. A constant is read
whatever its value, but it cannot be written. -/
def Instruction.Within (places : Segment → Nat) : Instruction → Prop
  | .push segment index => segment = .constant ∨ index < places segment
  | .pop segment index => index < places segment
  | _ => True

namespace VariableLists

/-- How many places of a segment code may name that has the given variables in scope. -/
def places (lists : VariableLists) : Segment → Nat
  | .constant => 0
  | .argument => lists.receivers + lists.arguments.length
  | .local => lists.locals.length
  | .static => lists.statics.length
  | .this => lists.fields.length
  | .pointer => 2
  | .that | .temp => 1

/-- A place of memory that code may name. The arguments that are kept for the current object are not
among them. -/
def HasPlace (lists : VariableLists) (segment : Segment) (index : Nat) : Prop :=
  (segment = .argument → lists.receivers ≤ index) ∧ index < lists.places segment

/-- An instruction that code may have. -/
def Admits (lists : VariableLists) : Instruction → Prop
  | .push segment index => segment = .constant ∨ lists.HasPlace segment index
  | .pop segment index => lists.HasPlace segment index
  | _ => True

theorem places_segment (lists : VariableLists) (kind : SlotKind) :
    lists.places kind.segment = lists.first kind + (lists.items kind).length := by
  cases kind <;> simp [places, first, items, SlotKind.segment, predefinedVariables]

theorem Admits.within {lists : VariableLists} {instruction : Instruction}
    (admitted : lists.Admits instruction) : instruction.Within lists.places := by
  cases instruction with
  | push => exact admitted.imp_right And.right
  | pop => exact admitted.2
  | _ => trivial

/-- Code does not name the arguments that are kept for the current object. -/
theorem not_admits_receiver {lists : VariableLists} {index : Nat} (kept : index < lists.receivers) :
    ¬ lists.Admits (.push .argument index) ∧ ¬ lists.Admits (.pop .argument index) := by
  have absent : ¬ lists.HasPlace .argument index :=
    fun place => Nat.not_le.mpr kept (place.1 rfl)
  exact ⟨not_or.mpr ⟨nofun, absent⟩, absent⟩

end VariableLists

namespace Scope

section Places

variable {scope : Scope} {lists : VariableLists} {instruction : Instruction}
  (holds : scope.Holds lists) (bounded : ∀ segment, lists.places segment ≤ 65535)

include holds bounded

/-- What a name stands for is held at a place that code may name. -/
theorem hasPlace_of_resolve? {name : String} {slot : Slot}
    (resolves : scope.resolve? name = some slot) :
    lists.HasPlace slot.segment slot.index.toNat := by
  have fits : scope.Fits lists.first slot.kind := by
    rw [holds.fits_iff, ← lists.places_segment]
    exact bounded _
  obtain ⟨place, stands, index⟩ := holds.exists_place fits (slotOf?_of_resolve? resolves)
  have inside := (List.getElem?_eq_some_iff.mp stands).1
  refine ⟨?_, ?_⟩
  · intro argument
    have kind : slot.kind = .argument := segment_injective argument
    rw [index, kind]
    exact Nat.le_add_right _ _
  · rw [Slot.segment, lists.places_segment, index]
    exact Nat.add_lt_add_left inside _

theorem Evaluates.admits (evaluates : scope.Evaluates instruction) : lists.Admits instruction := by
  cases evaluates with
  | constant value => exact .inl rfl
  | load resolves => exact .inr (hasPlace_of_resolve? holds bounded resolves)
  | currentObject => exact .inr ⟨nofun, Nat.zero_lt_two⟩
  | selectElement => exact ⟨nofun, Nat.one_lt_two⟩
  | readElement => exact .inr ⟨nofun, Nat.zero_lt_one⟩
  | arithmetic | call => trivial

theorem Performs.admits (performs : scope.Performs instruction) : lists.Admits instruction := by
  cases performs with
  | evaluate evaluates => exact evaluates.admits holds bounded
  | store resolves => exact hasPlace_of_resolve? holds bounded resolves
  | putAside | writeElement => exact ⟨nofun, Nat.zero_lt_one⟩
  | takeBack => exact .inr ⟨nofun, Nat.zero_lt_one⟩
  | label | goto | ifGoto | «return» => trivial

end Places

end Scope

section Counts

/-- The number of names in the local declarations of a subroutine. -/
def Subroutine.localCount (subroutine : Subroutine) : Nat :=
  (subroutine.body.locals.flatMap (·.names)).length

/-- The number of arguments that a subroutine is called with: one for each parameter, and the object
that a method is called on. -/
def Subroutine.argumentCount (subroutine : Subroutine) : Nat :=
  subroutine.parameters.length + if subroutine.kind = .method then 1 else 0

/-- The number of names in the declarations of one kind of class variables. -/
def ClassDeclaration.variableCount (declaration : ClassDeclaration) (kind : ClassVariableKind) : Nat :=
  ((declaration.variableGroups.filter (·.kind = kind)).flatMap (·.group.names)).length

/-- How many places of a segment the declarations of a class leave to one of its subroutines. -/
def ClassDeclaration.placesOf (declaration : ClassDeclaration) (subroutine : Subroutine) :
    Segment → Nat
  | .constant => 0
  | .argument => subroutine.argumentCount
  | .local => subroutine.localCount
  | .static => declaration.variableCount .static
  | .this => declaration.variableCount .field
  | .pointer => 2
  | .that | .temp => 1

theorem Subroutine.length_localVariables (subroutine : Subroutine) :
    subroutine.localVariables.length = subroutine.localCount := by
  simp [Subroutine.localVariables, Subroutine.localCount, VariableGroup.members,
    List.length_flatMap]

/-- All variables of a declaration have its kind. -/
theorem ClassVariableGroup.variablesOfKind_members (group : ClassVariableGroup)
    (kind : ClassVariableKind) :
    variablesOfKind kind group.members = if group.kind = kind then group.group.members else [] := by
  rw [variablesOfKind, ClassVariableGroup.members, List.filter_map, List.map_map]
  by_cases same : group.kind = kind <;> simp [same, Function.comp_def]

theorem ClassDeclaration.length_variablesOfKind (declaration : ClassDeclaration)
    (kind : ClassVariableKind) :
    (variablesOfKind kind declaration.classVariables).length = declaration.variableCount kind := by
  unfold ClassDeclaration.classVariables ClassDeclaration.variableCount
  induction declaration.variableGroups with
  | nil => rfl
  | cons group rest inductionHypothesis =>
    have parts : variablesOfKind kind ((group :: rest).flatMap ClassVariableGroup.members) =
        variablesOfKind kind group.members ++
          variablesOfKind kind (rest.flatMap ClassVariableGroup.members) := by
      simp [variablesOfKind]
    rw [parts, List.length_append, inductionHypothesis, group.variablesOfKind_members]
    by_cases same : group.kind = kind <;> simp [same, VariableGroup.members]

/-- In the scope of a subroutine there are the places that the declarations leave to it. -/
theorem ClassDeclaration.places_variableLists (declaration : ClassDeclaration)
    (subroutine : Subroutine) :
    (declaration.variableLists subroutine).places = declaration.placesOf subroutine := by
  have receivers : subroutine.kind.receivers.toNat = if subroutine.kind = .method then 1 else 0 := by
    cases subroutine.kind <;> rfl
  ext segment
  cases segment with
  | argument =>
    change subroutine.kind.receivers.toNat + subroutine.parameters.length = subroutine.argumentCount
    rw [receivers, Nat.add_comm, Subroutine.argumentCount]
  | «local» => exact subroutine.length_localVariables
  | static => exact declaration.length_variablesOfKind .static
  | this => exact declaration.length_variablesOfKind .field
  | constant | pointer | that | temp => rfl

end Counts

/-- The operands in the code of a subroutine stay within what the subroutine and its class declare. The
header of the code tells the number of locals, and the first argument of a method is only used to take
the object from it. -/
structure ClassDeclaration.OperandsInBounds (declaration : ClassDeclaration) (subroutine : Subroutine)
    (block : List Instruction) : Prop where
  header : block.head? =
    some (.function (qualified declaration.name subroutine.name) subroutine.localCount)
  operands : ∀ instruction ∈ block, instruction.Within (declaration.placesOf subroutine)
  receiver : subroutine.kind = .method →
    ∃ rest, block.tail = [.push .argument 0, .pop .pointer 0] ++ rest ∧
      .push .argument 0 ∉ rest ∧ .pop .argument 0 ∉ rest

/-- The code by which a method takes the object that it is called on. -/
def SubroutineKind.opening (kind : SubroutineKind) : List Instruction :=
  if kind = .method then [.push .argument 0, .pop .pointer 0] else []

/-- Behind its header and what a method opens with, the code of a subroutine only has instructions that
its variables allow. -/
theorem Subroutine.exists_admitted_of_lower {options : Options} {scope : Scope}
    {subroutine : Subroutine} {block : List Instruction} {lists : VariableLists}
    (holds : ∀ frame, subroutine.frameIn scope = .ok frame → frame.scope.Holds lists)
    (bounded : ∀ segment, lists.places segment ≤ 65535)
    (lowered : subroutine.lower options scope = .ok block) :
    ∃ header rest, block = header :: (subroutine.kind.opening ++ rest) ∧
      ∀ instruction ∈ rest, lists.Admits instruction := by
  obtain ⟨frame, body, framed, bodyLowered, parts⟩ := Subroutine.lower_eq_ok_iff.mp lowered
  let header : Instruction :=
    .function (qualified frame.scope.className subroutine.name) frame.scope.locals.count.toNat
  let ending : List Instruction :=
    if options.completes subroutine then [.push .constant 0, .return] else []
  have behind : ∀ instruction ∈ body ++ ending, lists.Admits instruction := by
    rw [List.forall_mem_append]
    refine ⟨fun instruction member => (performs_lowerStatements _ _ bodyLowered instruction
      member).admits (holds frame framed) bounded, ?_⟩
    simp only [ending]
    split <;> simp [VariableLists.Admits]
  cases kind : subroutine.kind with
  | function | method =>
    refine ⟨header, body ++ ending, ?_, behind⟩
    rw [parts, kind]
    simp [SubroutineKind.prologue, SubroutineKind.opening, header, ending]
  | constructor =>
    let allocation := SubroutineKind.constructor.prologue frame.scope.fields.count.toNat
    refine ⟨header, allocation ++ (body ++ ending), ?_, ?_⟩
    · rw [parts, kind]
      simp [SubroutineKind.opening, allocation, header, ending]
    · rw [List.forall_mem_append]
      refine ⟨?_, behind⟩
      simp [allocation, SubroutineKind.prologue, VariableLists.Admits, VariableLists.HasPlace,
        VariableLists.places]

theorem ClassDeclaration.operandsInBounds_of_lower {declaration : ClassDeclaration}
    {options : Options} {subroutine : Subroutine} {block : List Instruction}
    (declared : declaration.scope.2 = .ok ())
    (bounded : ∀ segment, declaration.placesOf subroutine segment ≤ 65535)
    (lowered : subroutine.lower options declaration.scope.1 = .ok block) :
    declaration.OperandsInBounds subroutine block := by
  have places := declaration.places_variableLists subroutine
  have head := Subroutine.head?_of_lower lowered
  obtain ⟨header, rest, rfl, admitted⟩ := Subroutine.exists_admitted_of_lower
    (fun _ => ClassDeclaration.holds_of_frameIn declared) (places ▸ bounded) lowered
  refine ⟨?_, ?_, ?_⟩
  · have few : subroutine.localCount < 65536 := Nat.lt_succ_of_le (bounded .local)
    rw [head, declaration.className_scope, subroutine.length_localVariables, toWord,
      Nat.mod_eq_of_lt few]
  · rw [List.forall_mem_cons, List.forall_mem_append]
    refine ⟨?_, ?_, ?_⟩
    · rw [List.head?_cons, Option.some.injEq] at head
      rw [head]
      trivial
    · intro instruction member
      by_cases kind : subroutine.kind = .method
      · simp only [SubroutineKind.opening, if_pos kind, List.mem_cons, List.not_mem_nil,
          or_false] at member
        obtain rfl | rfl := member
        · right
          change 0 < subroutine.argumentCount
          simp [Subroutine.argumentCount, kind]
        · exact Nat.zero_lt_two
      · simp [SubroutineKind.opening, kind] at member
    · intro instruction member
      rw [← places]
      exact (admitted instruction member).within
  · intro kind
    have kept : 0 < (declaration.variableLists subroutine).receivers := by
      change 0 < subroutine.kind.receivers.toNat
      rw [kind]
      exact Nat.zero_lt_one
    obtain ⟨push, pop⟩ := VariableLists.not_admits_receiver kept
    refine ⟨rest, ?_, fun member => push (admitted _ member), fun member => pop (admitted _ member)⟩
    rw [List.tail_cons, SubroutineKind.opening, if_pos kind]

/-- The code of a class is one block for each of its subroutines, in order, and the operands in a block
stay within what the subroutine and the class declare, provided that they declare no more than 65535
variables of a kind. -/
theorem ClassDeclaration.lower_keeps_operands_in_bounds {declaration : ClassDeclaration}
    {options : Options} {code : List Instruction} (lowered : declaration.lower options = .ok code)
    (bounded : ∀ subroutine ∈ declaration.subroutines, ∀ segment,
      declaration.placesOf subroutine segment ≤ 65535) :
    ∃ blocks, code = blocks.flatten ∧
      List.Forall₂ declaration.OperandsInBounds declaration.subroutines blocks := by
  obtain ⟨declared, subroutinesLowered⟩ := ClassDeclaration.lower_eq_ok_iff.mp lowered
  obtain ⟨blocks, flat, each⟩ := exists_blocks_of_lowerSubroutines subroutinesLowered
  refine ⟨blocks, flat, ((List.forall₂_and_left _ _).mpr ⟨bounded, each⟩).imp ?_⟩
  rintro subroutine block ⟨few, subroutineLowered⟩
  exact ClassDeclaration.operandsInBounds_of_lower declared few subroutineLowered

/-- A method that uses variables of every kind. The fields are declared on both sides of a static. -/
theorem ClassDeclaration.lower_keeps_operands_in_bounds_move :
    let sum : Expression := .binary (.term (.name "old")) .add (.name "dx")
    let move : Subroutine := ⟨.method, none, "move", [⟨.int, "dx"⟩, ⟨.int, "dy"⟩],
      ⟨[⟨.int, ["old"]⟩, ⟨.int, ["next", "last"]⟩],
        [.assign "last" (.term (.name "x")), .assign "x" sum,
          .assignElement "trail" (.term (.name "count")) (.term (.element "trail" sum)),
          .assign "count" (.binary (.term (.name "count")) .multiply (.name "dy"))]⟩⟩
    let point : ClassDeclaration := ⟨"Point", [⟨.field, ⟨.int, ["x", "y"]⟩⟩,
      ⟨.static, ⟨.int, ["count"]⟩⟩, ⟨.field, ⟨.object "Array", ["trail"]⟩⟩], [move]⟩
    [Segment.argument, .local, .this, .static].map (point.placesOf move) = [3, 3, 3, 1] ∧
      ∃ code, point.lower ⟨true⟩ = .ok code ∧ point.OperandsInBounds move code := by
  intro sum move point
  refine ⟨rfl, ?_⟩
  have succeeds : (point.lower ⟨true⟩).isOk := by decide +kernel
  obtain ⟨code, lowered⟩ := exists_eq_ok_of_isOk succeeds
  have bounded : ∀ subroutine ∈ point.subroutines, ∀ segment,
      point.placesOf subroutine segment ≤ 65535 := by
    refine List.forall_mem_singleton.mpr fun segment => ?_
    cases segment <;> decide
  obtain ⟨blocks, flat, each⟩ := ClassDeclaration.lower_keeps_operands_in_bounds lowered bounded
  cases each with
  | cons first none =>
    cases none
    rw [List.flatten_singleton] at flat
    exact ⟨code, lowered, flat ▸ first⟩

end Jack
