import Jack.Proofs.Fragments
import Jack.Proofs.Stages

/-!
# Names in generated code

Every name in generated code is put together from identifiers of the class and from names that are
fixed. An identifier is a word of the source, so it is not empty and has no blank, symbol or quote in
it. This carries over from the tokens to the class, from there to the types of variables in scope, and
from these to the functions that are called.
-/

namespace Jack

/-- A text that can be an identifier: it is not empty and has characters of words only. -/
def IsName (text : String) : Prop :=
  text ≠ "" ∧ ∀ c ∈ text.toList, Lexeme.isWordCharacter c

instance (text : String) : Decidable (IsName text) :=
  decidable_of_iff (text ≠ "" ∧ text.toList.all Lexeme.isWordCharacter) (by simp [IsName])

/-- The name of a class and a name in it, joined by a dot. -/
def IsQualified (function : String) : Prop :=
  ∃ className name, IsName className ∧ IsName name ∧ function = qualified className name

/-- The labels in an instruction are names, and its functions are qualified names. -/
def Instruction.IsLegible : Instruction → Prop
  | .label name | .goto name | .ifGoto name => IsName name
  | .call name _ | .function name _ => IsQualified name
  | .push .. | .pop .. | .arithmetic _ | .return => True

section Legible

variable {segment : Segment} {operation : Arithmetic} {index : Nat} {name : String}

@[simp] theorem Instruction.isLegible_push : (push segment index).IsLegible := trivial

@[simp] theorem Instruction.isLegible_pop : (pop segment index).IsLegible := trivial

@[simp] theorem Instruction.isLegible_arithmetic : (arithmetic operation).IsLegible := trivial

@[simp] theorem Instruction.isLegible_return : Instruction.return.IsLegible := trivial

@[simp] theorem Instruction.isLegible_label : (label name).IsLegible ↔ IsName name := Iff.rfl

@[simp] theorem Instruction.isLegible_goto : (goto name).IsLegible ↔ IsName name := Iff.rfl

@[simp] theorem Instruction.isLegible_ifGoto : (ifGoto name).IsLegible ↔ IsName name := Iff.rfl

end Legible

/-- Every identifier among the terminals is a name. -/
def Named (terminals : List Terminal) : Prop :=
  ∀ name, .identifier name ∈ terminals → IsName name

section Terminals

variable {others : List Terminal}

@[simp] theorem named_nil : Named [] := fun _ => nofun

@[simp] theorem named_append {first second : List Terminal} :
    Named (first ++ second) ↔ Named first ∧ Named second := by
  simp only [Named, List.mem_append, or_imp, forall_and]

@[simp] theorem named_identifier_cons {name : String} :
    Named (.identifier name :: others) ↔ IsName name ∧ Named others := by
  simp [Named]

@[simp] theorem named_keyword_cons {word : Keyword} :
    Named (.keyword word :: others) ↔ Named others := by
  simp [Named]

@[simp] theorem named_symbol_cons {mark : Symbol} :
    Named (.symbol mark :: others) ↔ Named others := by
  simp [Named]

@[simp] theorem named_flatMap {α : Type} {yield : α → List Terminal} {values : List α} :
    Named (values.flatMap yield) ↔ ∀ value ∈ values, Named (yield value) := by
  simp only [Named, List.mem_flatMap]
  grind

/-- What is written between commas is named when each of its parts is. -/
@[simp] theorem named_commaSeparated {α : Type} {yield : α → List Terminal} {values : List α} :
    Named (commaSeparated yield values) ↔ ∀ value ∈ values, Named (yield value) := by
  cases values with
  | nil => simp [commaSeparated]
  | cons first others => simp [commaSeparated]

end Terminals

section Tokens

/-- An identifier is spelled as a name. -/
theorem Spells.isName {fragment : List Char} {word : TokenKind × String}
    (spelled : Spells fragment word) (identifier : word.1 = .identifier) : IsName word.2 := by
  cases spelled with
  | string inside reads =>
    obtain ⟨_, _, rfl⟩ := Lexeme.readingOfString_eq_ok_iff.mp reads
    cases identifier
  | character inside reads =>
    obtain ⟨_, rfl⟩ := Lexeme.readingOfCharacter_eq_ok_iff.mp reads
    cases identifier
  | symbol mark => cases identifier
  | @word c text word inside reads =>
    obtain ⟨_, _, rfl⟩ | ⟨_, _, rfl⟩ | rfl := Lexeme.cases_of_readingOfWord reads
    · cases identifier
    · cases identifier
    · rw [IsName, String.toList_ofList]
      refine ⟨?_, inside⟩
      rw [Ne, ← String.toList_inj, String.toList_ofList]
      exact List.cons_ne_nil _ _

/-- Every identifier among the tokens of a source is a name. -/
theorem isName_of_tokenize {source : String} {tokens : List Token}
    (found : tokenize source = .ok tokens) :
    ∀ token ∈ tokens, token.kind = .identifier → IsName token.text := by
  intro token member kind
  obtain ⟨fragment, _, spelled⟩ := spells_of_tokenize found token member
  exact spelled.isName kind

/-- The identifiers among terminals are those among the tokens in which they are written. -/
theorem named_of_forall₂ {tokens : List Token} {terminals : List Terminal}
    (written : List.Forall₂ Token.Is tokens terminals)
    (names : ∀ token ∈ tokens, token.kind = .identifier → IsName token.text) : Named terminals := by
  induction written with
  | nil => exact named_nil
  | @cons token terminal tokens terminals is _ inductionHypothesis =>
    rw [List.forall_mem_cons] at names
    have others := inductionHypothesis names.2
    intro name member
    rcases List.mem_cons.mp member with rfl | later
    · obtain ⟨kind, same⟩ := is
      have same : token.text = name := same
      rw [← same]
      exact names.1 kind
    · exact others name later

/-- The identifiers of a class that was read from a source are names. -/
theorem named_of_tokenize {source : String} {tokens : List Token} {declaration : ClassDeclaration}
    (found : tokenize source = .ok tokens)
    (parsed : Grammar.parseClass tokens = .ok declaration) : Named declaration.yield :=
  named_of_forall₂ (Grammar.forall₂_of_parseClass parsed).2 (isName_of_tokenize found)

end Tokens

section Scopes

/-- The class and the classes of all objects in scope are names. -/
structure Scope.IsNamed (scope : Scope) : Prop where
  className : IsName scope.className
  types : ∀ name slot, scope.resolve? name = some slot → Named slot.item.type.yield

/-- A scope is named when the variables that it holds are. -/
theorem Scope.Holds.isNamed {scope : Scope} {lists : VariableLists} (holds : scope.Holds lists)
    (className : IsName lists.className)
    (items : ∀ kind, ∀ item ∈ lists.items kind, Named item.type.yield) : scope.IsNamed where
  className := holds.className ▸ className
  types := by
    intro name slot resolves
    have found := Scope.slotOf?_of_resolve? resolves
    rw [holds.slotOf?_eq, Option.map_eq_some_iff] at found
    obtain ⟨⟨item, place⟩, listed, same⟩ := found
    rw [← same]
    exact items slot.kind item (List.mem_of_getElem? (getElem?_of_lookup? listed).1)

end Scopes

section Expressions

variable {frame : Frame} {code : List Instruction}

theorem BinaryOperator.isLegible_instruction (operator : BinaryOperator) :
    operator.instruction.IsLegible := by
  cases operator with
  | multiply => exact ⟨"Math", "multiply", by decide, by decide, rfl⟩
  | divide => exact ⟨"Math", "divide", by decide, by decide, rfl⟩
  | _ => trivial

theorem UnaryOperator.isLegible_instruction (operator : UnaryOperator) :
    operator.instruction.IsLegible := by
  cases operator <;> trivial

theorem isLegible_stringCode (text : String) :
    ∀ instruction ∈ stringCode text, instruction.IsLegible := by
  intro instruction member
  rw [stringCode, List.mem_append, List.mem_flatMap] at member
  obtain created | ⟨c, _, appended⟩ := member
  · simp only [List.mem_cons, List.not_mem_nil, or_false] at created
    obtain rfl | rfl := created
    · trivial
    · exact ⟨"String", "new", by decide, by decide, rfl⟩
  · simp only [appendCharacter, List.mem_cons, List.not_mem_nil, or_false] at appended
    obtain rfl | rfl := appended
    · trivial
    · exact ⟨"String", "appendChar", by decide, by decide, rfl⟩

/-- A call goes to a subroutine of the class itself, of the class of a variable, or of a class that
is named as the receiver. -/
theorem Frame.isLegible_dispatch (named : frame.scope.IsNamed) {receiver : Option String}
    {name : String} {dispatch : Dispatch} (receivers : ∀ value ∈ receiver, IsName value)
    (isName : IsName name) (dispatched : frame.dispatch receiver name = .ok dispatch) :
    (∀ instruction ∈ dispatch.receiver, instruction.IsLegible) ∧ IsQualified dispatch.target := by
  unfold Frame.dispatch at dispatched
  split at dispatched
  · cases dispatched
    exact ⟨by simp, _, _, named.className, isName, rfl⟩
  · rename_i receiver
    split at dispatched
    · rename_i slot resolves
      have type := named.types receiver slot resolves
      split at dispatched
      · cases dispatched
      · rename_i object
        cases dispatched
        refine ⟨by simp [Slot.load], slot.item.type.name, name, ?_, isName, rfl⟩
        cases kind : slot.item.type with
        | object className =>
          rw [kind] at type
          exact (named_identifier_cons.mp type).1
        | _ => simp [kind, DataType.isPrimitive] at object
    · cases dispatched
      exact ⟨nofun, receiver, name, receivers receiver rfl, isName, rfl⟩

mutual

theorem Expression.isLegible_lower (named : frame.scope.IsNamed) (expression : Expression)
    (names : Named expression.yield) {code : List Instruction}
    (lowered : expression.lower frame = .ok code) :
    ∀ instruction ∈ code, instruction.IsLegible := by
  cases expression with
  | term only =>
    rw [Expression.lower] at lowered
    rw [Expression.yield] at names
    exact only.isLegible_lower named names lowered
  | binary left operator right =>
    obtain ⟨leftCode, rightCode, leftLowered, rightLowered, rfl⟩ :=
      Expression.lower_binary_eq_ok_iff.mp lowered
    simp only [Expression.yield, named_append, named_symbol_cons] at names
    simp only [List.forall_mem_append, List.forall_mem_singleton]
    exact ⟨⟨left.isLegible_lower named names.1 leftLowered,
      right.isLegible_lower named names.2 rightLowered⟩, operator.isLegible_instruction⟩

theorem Term.isLegible_lower (named : frame.scope.IsNamed) (term : Term)
    (names : Named term.yield) {code : List Instruction} (lowered : term.lower frame = .ok code) :
    ∀ instruction ∈ code, instruction.IsLegible := by
  cases term with
  | integer value =>
    rw [Term.lower] at lowered
    cases lowered
    simp
  | string text =>
    rw [Term.lower] at lowered
    cases lowered
    exact isLegible_stringCode text
  | constant constant =>
    rw [Term.lower] at lowered
    cases constant with
    | this =>
      obtain ⟨slot, _, _, rfl⟩ := KeywordConstant.lower_this_eq_ok_iff.mp lowered
      simp [Slot.load]
    | _ =>
      cases lowered
      simp
  | name name =>
    obtain ⟨slot, _, rfl⟩ := Term.lower_name_eq_ok_iff.mp lowered
    simp [Slot.load]
  | element array index =>
    obtain ⟨slot, indexCode, _, indexLowered, rfl⟩ := Term.lower_element_eq_ok_iff.mp lowered
    simp only [Term.yield, named_append] at names
    have inside := index.isLegible_lower named names.1.2 indexLowered
    simpa [Slot.load, or_imp, forall_and] using inside
  | call call =>
    rw [Term.lower] at lowered
    rw [Term.yield] at names
    exact call.isLegible_lower named names lowered
  | unary operator operand =>
    obtain ⟨operandCode, operandLowered, rfl⟩ := Term.lower_unary_eq_ok_iff.mp lowered
    simp only [Term.yield, named_symbol_cons] at names
    simp only [List.forall_mem_append, List.forall_mem_singleton]
    exact ⟨operand.isLegible_lower named names operandLowered, operator.isLegible_instruction⟩
  | group inner =>
    rw [Term.lower] at lowered
    simp only [Term.yield, named_append] at names
    exact inner.isLegible_lower named names.1.2 lowered

theorem Call.isLegible_lower (named : frame.scope.IsNamed) (call : Call)
    (names : Named call.yield) {code : List Instruction} (lowered : call.lower frame = .ok code) :
    ∀ instruction ∈ code, instruction.IsLegible := by
  cases call with
  | mk receiver name arguments =>
    obtain ⟨dispatch, argumentCode, dispatched, argumentsLowered, rfl⟩ :=
      Call.lower_eq_ok_iff.mp lowered
    have parts : (∀ value ∈ receiver, IsName value) ∧ IsName name ∧
        Named (yieldArguments arguments) := by
      cases receiver <;> simp_all [Call.yield]
    obtain ⟨receivers, isName, others⟩ := parts
    obtain ⟨loaded, target⟩ := frame.isLegible_dispatch named receivers isName dispatched
    simp only [List.forall_mem_append, List.forall_mem_singleton]
    exact ⟨⟨loaded, isLegible_lowerArguments named arguments others argumentsLowered⟩, target⟩

theorem isLegible_lowerArguments (named : frame.scope.IsNamed) (arguments : List Expression)
    (names : Named (yieldArguments arguments)) {code : List Instruction}
    (lowered : lowerArguments frame arguments = .ok code) :
    ∀ instruction ∈ code, instruction.IsLegible := by
  rw [yieldArguments_eq, named_commaSeparated] at names
  cases arguments with
  | nil =>
    rw [lowerArguments] at lowered
    cases lowered
    simp
  | cons argument rest =>
    obtain ⟨argumentCode, restCode, argumentLowered, restLowered, rfl⟩ :=
      lowerArguments_cons_eq_ok_iff.mp lowered
    rw [List.forall_mem_cons] at names
    have others : Named (yieldArguments rest) := by
      rw [yieldArguments_eq, named_commaSeparated]
      exact names.2
    rw [List.forall_mem_append]
    exact ⟨argument.isLegible_lower named names.1 argumentLowered,
      isLegible_lowerArguments named rest others restLowered⟩

end

end Expressions

section Statements

variable {frame : Frame} {used : LabelCount}

theorem isWordCharacter_of_isDigit {c : Char} (digit : Text.isDigit c) :
    Lexeme.isWordCharacter c := by
  simp only [Text.isDigit, Bool.and_eq_true, decide_eq_true_eq, Char.le_def] at digit
  obtain ⟨lower, upper⟩ : 48 ≤ c.toNat ∧ c.toNat ≤ 57 := digit
  rw [← Char.ofNat_toNat c]
  generalize c.toNat = code at lower upper
  interval_cases code <;> decide

/-- A number after a name makes a name. -/
theorem isName_append_number {stem : String} (name : IsName stem) (number : Nat) :
    IsName (stem ++ toString number) := by
  obtain ⟨nonempty, words⟩ := name
  have digits := (Text.readDigits?_eq_some_iff.mp (Text.readDigits?_toString number)).2.1
  refine ⟨fun empty => nonempty (String.append_eq_empty_iff.mp empty).1, ?_⟩
  rw [String.toList_append, List.forall_mem_append]
  exact ⟨words, fun c member => isWordCharacter_of_isDigit (digits c member)⟩

@[simp] theorem isName_trueLabel (number : Nat) : IsName (trueLabel number) :=
  isName_append_number (by decide) number

@[simp] theorem isName_falseLabel (number : Nat) : IsName (falseLabel number) :=
  isName_append_number (by decide) number

@[simp] theorem isName_endLabel (number : Nat) : IsName (endLabel number) :=
  isName_append_number (by decide) number

@[simp] theorem isName_loopLabel (number : Nat) : IsName (loopLabel number) :=
  isName_append_number (by decide) number

@[simp] theorem isName_exitLabel (number : Nat) : IsName (exitLabel number) :=
  isName_append_number (by decide) number

mutual

theorem Statement.isLegible_lower (named : frame.scope.IsNamed) (statement : Statement)
    (used : LabelCount) (names : Named statement.yield) {code : List Instruction}
    (lowered : statement.lower frame used = .ok code) :
    ∀ instruction ∈ code, instruction.IsLegible := by
  cases statement with
  | assign target value =>
    obtain ⟨valueCode, slot, valueLowered, _, rfl⟩ :=
      Statement.lower_assign_eq_ok_iff.mp lowered
    simp only [Statement.yield, named_append] at names
    simp only [List.forall_mem_append, List.forall_mem_singleton]
    exact ⟨value.isLegible_lower named names.1.2 valueLowered, trivial⟩
  | assignElement array index value =>
    obtain ⟨slot, indexCode, valueCode, _, indexLowered, valueLowered, rfl⟩ :=
      Statement.lower_assignElement_eq_ok_iff.mp lowered
    simp only [Statement.yield, named_append] at names
    have indexLegible := index.isLegible_lower named names.1.1.1.2 indexLowered
    have valueLegible := value.isLegible_lower named names.1.2 valueLowered
    simpa [Slot.load, or_imp, forall_and] using ⟨indexLegible, valueLegible⟩
  | ifThen condition body =>
    obtain ⟨conditionCode, bodyCode, conditionLowered, bodyLowered, rfl⟩ :=
      Statement.lower_ifThen_eq_ok_iff.mp lowered
    simp only [Statement.yield, named_append] at names
    have conditionLegible := condition.isLegible_lower named names.1.1.1.2 conditionLowered
    have bodyLegible := isLegible_lowerStatements named body _ names.1.2 bodyLowered
    simpa [or_imp, forall_and] using ⟨conditionLegible, bodyLegible⟩
  | ifElse condition body alternative =>
    obtain ⟨conditionCode, bodyCode, alternativeCode, conditionLowered, bodyLowered,
      alternativeLowered, rfl⟩ := Statement.lower_ifElse_eq_ok_iff.mp lowered
    simp only [Statement.yield, named_append] at names
    have conditionLegible := condition.isLegible_lower named names.1.1.1.1.1.2 conditionLowered
    have bodyLegible := isLegible_lowerStatements named body _ names.1.1.1.2 bodyLowered
    have alternativeLegible :=
      isLegible_lowerStatements named alternative _ names.1.2 alternativeLowered
    simpa [or_imp, forall_and] using ⟨conditionLegible, bodyLegible, alternativeLegible⟩
  | whileLoop condition body =>
    obtain ⟨conditionCode, bodyCode, conditionLowered, bodyLowered, rfl⟩ :=
      Statement.lower_whileLoop_eq_ok_iff.mp lowered
    simp only [Statement.yield, named_append] at names
    have conditionLegible := condition.isLegible_lower named names.1.1.1.2 conditionLowered
    have bodyLegible := isLegible_lowerStatements named body _ names.1.2 bodyLowered
    simpa [or_imp, forall_and] using ⟨conditionLegible, bodyLegible⟩
  | perform call =>
    obtain ⟨callCode, callLowered, rfl⟩ := Statement.lower_perform_eq_ok_iff.mp lowered
    simp only [Statement.yield, named_append] at names
    simp only [List.forall_mem_append, List.forall_mem_singleton]
    exact ⟨call.isLegible_lower named names.1.2 callLowered, trivial⟩
  | «return» value =>
    cases value with
    | none =>
      rw [Statement.lower] at lowered
      cases lowered
      simp
    | some value =>
      obtain ⟨valueCode, valueLowered, rfl⟩ := Statement.lower_return_eq_ok_iff.mp lowered
      simp only [Statement.yield, named_append] at names
      simp only [List.forall_mem_append, List.forall_mem_singleton]
      exact ⟨value.isLegible_lower named names.1.2 valueLowered, trivial⟩

theorem isLegible_lowerStatements (named : frame.scope.IsNamed) (statements : List Statement)
    (used : LabelCount) (names : Named (yieldStatements statements)) {code : List Instruction}
    (lowered : lowerStatements frame used statements = .ok code) :
    ∀ instruction ∈ code, instruction.IsLegible := by
  cases statements with
  | nil =>
    rw [lowerStatements] at lowered
    cases lowered
    simp
  | cons statement rest =>
    obtain ⟨statementCode, restCode, statementLowered, restLowered, rfl⟩ :=
      lowerStatements_cons_eq_ok_iff.mp lowered
    rw [yieldStatements, named_append] at names
    rw [List.forall_mem_append]
    exact ⟨statement.isLegible_lower named used names.1 statementLowered,
      isLegible_lowerStatements named rest _ names.2 restLowered⟩

end

end Statements

section Classes

/-- The variables of a group have the type of the group. -/
theorem VariableGroup.named_of_mem {group : VariableGroup} (names : Named group.yield) :
    ∀ item ∈ group.members, Named item.type.yield := by
  simp only [VariableGroup.yield, named_append] at names
  simpa [VariableGroup.members] using fun _ _ => names.1.1

theorem SubroutineKind.isLegible_prologue (kind : SubroutineKind) (fields : Nat) :
    ∀ instruction ∈ kind.prologue fields, instruction.IsLegible := by
  have alloc : (Instruction.call "Memory.alloc" 1).IsLegible :=
    ⟨"Memory", "alloc", by decide, by decide, rfl⟩
  cases kind with
  | constructor => simpa [SubroutineKind.prologue] using alloc
  | method => simp [SubroutineKind.prologue]
  | function => simp [SubroutineKind.prologue]

theorem Subroutine.isLegible_lower {options : Options} {scope : Scope} {subroutine : Subroutine}
    {block : List Instruction}
    (named : ∀ frame, subroutine.frameIn scope = .ok frame → frame.scope.IsNamed)
    (names : Named subroutine.yield) (lowered : subroutine.lower options scope = .ok block) :
    ∀ instruction ∈ block, instruction.IsLegible := by
  obtain ⟨frame, body, framed, bodyLowered, rfl⟩ := Subroutine.lower_eq_ok_iff.mp lowered
  have inside := named frame framed
  simp only [Subroutine.yield, SubroutineBody.yield, named_append, named_identifier_cons] at names
  obtain ⟨⟨⟨⟨_, isName, _⟩, _⟩, _⟩, ⟨_, statements⟩, _⟩ := names
  simp only [List.forall_mem_append, List.forall_mem_singleton]
  refine ⟨⟨⟨⟨_, _, inside.className, isName, rfl⟩, subroutine.kind.isLegible_prologue _⟩,
    isLegible_lowerStatements inside _ _ statements bodyLowered⟩, ?_⟩
  split <;> simp

/-- The variables that a subroutine of a named class can name have types that are named. -/
theorem ClassDeclaration.named_of_mem_variableLists {declaration : ClassDeclaration}
    {subroutine : Subroutine} (names : Named declaration.yield)
    (member : subroutine ∈ declaration.subroutines) (kind : SlotKind) :
    ∀ item ∈ (declaration.variableLists subroutine).items kind, Named item.type.yield := by
  simp only [ClassDeclaration.yield, named_append, named_keyword_cons, named_identifier_cons,
    named_flatMap] at names
  obtain ⟨⟨⟨⟨isName, _⟩, groups⟩, subroutines⟩, _⟩ := names
  have inside := subroutines subroutine member
  simp only [Subroutine.yield, SubroutineBody.yield, named_append, named_commaSeparated,
    named_flatMap] at inside
  obtain ⟨⟨⟨_, parameters⟩, _⟩, ⟨⟨_, locals⟩, _⟩, _⟩ := inside
  have members : ∀ kind, ∀ item ∈ variablesOfKind kind declaration.classVariables,
      Named item.type.yield := by
    intro kind item member
    simp only [variablesOfKind, ClassDeclaration.classVariables, ClassVariableGroup.members,
      List.mem_map, List.mem_filter, List.mem_flatMap] at member
    obtain ⟨_, ⟨⟨group, within, item, member, rfl⟩, _⟩, rfl⟩ := member
    exact VariableGroup.named_of_mem (named_keyword_cons.mp (groups group within)) item member
  cases kind with
  | static => exact members .static
  | field => exact members .field
  | argument =>
    intro item member
    exact (named_append.mp (parameters item member)).1
  | «local» =>
    intro item member
    obtain ⟨group, within, member⟩ := List.mem_flatMap.mp member
    exact VariableGroup.named_of_mem (named_keyword_cons.mp (locals group within)) item member
  | predefined =>
    have array : IsName "Array" := by decide
    simpa [VariableLists.items, predefinedVariables, ClassDeclaration.variableLists, subroutineLists,
      DataType.yield] using ⟨isName, array⟩

/-- In the frames of its subroutines, a named class has named variables only. -/
theorem ClassDeclaration.isNamed_of_frameIn {declaration : ClassDeclaration}
    {subroutine : Subroutine} {frame : Frame} (names : Named declaration.yield)
    (member : subroutine ∈ declaration.subroutines) (declared : declaration.scope.2 = .ok ())
    (framed : subroutine.frameIn declaration.scope.1 = .ok frame) : frame.scope.IsNamed := by
  have types := declaration.named_of_mem_variableLists names member
  simp only [ClassDeclaration.yield, named_append, named_keyword_cons, named_identifier_cons] at names
  exact (ClassDeclaration.holds_of_frameIn declared framed).isNamed names.1.1.1.1 types

/-- Code is legible when each of its blocks is. -/
theorem isLegible_flatten {subroutines : List Subroutine} {blocks : List (List Instruction)}
    (each : List.Forall₂ (fun _ block => ∀ instruction ∈ block, instruction.IsLegible)
      subroutines blocks) : ∀ instruction ∈ blocks.flatten, instruction.IsLegible := by
  induction each with
  | nil => exact nofun
  | cons legible _ inductionHypothesis =>
    rw [List.flatten_cons, List.forall_mem_append]
    exact ⟨legible, inductionHypothesis⟩

/-- The code of a class that is named is legible. -/
theorem ClassDeclaration.isLegible_lower {options : Options} {declaration : ClassDeclaration}
    {code : List Instruction} (names : Named declaration.yield)
    (lowered : declaration.lower options = .ok code) :
    ∀ instruction ∈ code, instruction.IsLegible := by
  obtain ⟨declared, lowered⟩ := ClassDeclaration.lower_eq_ok_iff.mp lowered
  obtain ⟨blocks, rfl, each⟩ := exists_blocks_of_lowerSubroutines lowered
  have subroutines : ∀ subroutine ∈ declaration.subroutines, Named subroutine.yield := by
    simp only [ClassDeclaration.yield, named_append, named_flatMap] at names
    exact names.1.2
  refine isLegible_flatten (((List.forall₂_and_left _ _).mpr ⟨fun _ member => member, each⟩).imp ?_)
  rintro subroutine block ⟨member, subroutineLowered⟩
  refine Subroutine.isLegible_lower ?_ (subroutines subroutine member) subroutineLowered
  intro frame framed
  exact declaration.isNamed_of_frameIn names member declared framed

end Classes

end Jack
