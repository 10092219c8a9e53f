import Jack.Machine.Instruction
import Jack.NameMap
import Jack.Tree.Class

/-!
# Scopes

A scope holds the variables that can be named at a place of a class: its statics and fields, and
the arguments and locals of one subroutine. Each kind of variable has a table, in which every name
has a slot, and slots are numbered in the order of declaration. A method keeps its first argument
slot for the object it is called on.

Declaring stops at the first name that its part of the scope already has. What was declared before
it stays, so every declaration gives back a scope, with the error if there was one.
-/

namespace Jack

/-- Which table of a scope a variable belongs to; predefined variables are always there. -/
inductive SlotKind where
  | static | field | argument | local | predefined
deriving DecidableEq

/-- The kinds of variables in the order in which a name is looked for among them. -/
def SlotKind.searched : List SlotKind := [.local, .argument, .field, .static, .predefined]

/-- The memory segment that holds variables of a kind. -/
def SlotKind.segment : SlotKind → Segment
  | .static => .static
  | .field => .this
  | .argument => .argument
  | .local => .local
  | .predefined => .pointer

/-- What a name stands for: a variable and the place that holds it. -/
structure Slot where
  item : Variable
  kind : SlotKind
  index : UInt16
deriving DecidableEq

/-- The memory segment of a slot. -/
def Slot.segment (slot : Slot) : Segment := slot.kind.segment

/-- The parts of a scope in which a name may be declared once. -/
inductive ScopePart where
  | «class» | argument | local
deriving DecidableEq

/-- The name of a part of a scope. -/
def ScopePart.name : ScopePart → String
  | .class => "class"
  | .argument => "argument"
  | .local => "local"

/-- An error in the use or declaration of a name. -/
inductive ResolutionError where
  | unresolved (name subroutine : String)
  | redeclared (name : String) (part : ScopePart)
deriving DecidableEq

/-- What is said of an error in the use or declaration of a name. -/
def ResolutionError.message : ResolutionError → String
  | .unresolved name subroutine =>
    "'" ++ name ++ "' is not declared in scope of '" ++ subroutine ++ "'"
  | .redeclared name part =>
    "'" ++ name ++ "' is already declared in " ++ part.name ++ " scope"

/-- A variable and the index of its slot. -/
structure SlotEntry where
  item : Variable
  index : UInt16

/-- The variables of one kind. Every declared name has an entry, and `count` is the index that the next
variable is given. Indices are words, so after 65535 they begin again at zero: they tell variables
apart as long as a table has given out no more than 65535 of them. -/
structure SlotTable where
  entries : NameMap SlotEntry
  count : UInt16

namespace SlotTable

/-- A table without variables whose first variable is to be given the index. -/
def startingAt (first : UInt16) : SlotTable := ⟨.empty, first⟩

/-- The entry of the variable of a given name. -/
def find? (table : SlotTable) (name : String) : Option SlotEntry :=
  table.entries.find? name

/-- Whether there is a variable of a given name. -/
def declares (table : SlotTable) (name : String) : Bool :=
  (table.find? name).isSome

/-- Gives the next index to a variable. -/
def add (table : SlotTable) (item : Variable) : SlotTable :=
  ⟨table.entries.insert item.name ⟨item, table.count⟩, table.count + 1⟩

/-- Declares variables in order, in a table that is a part of a scope by itself. -/
def declare (table : SlotTable) (part : ScopePart) :
    List Variable → SlotTable × Except ResolutionError Unit
  | [] => (table, .ok ())
  | item :: rest =>
    if table.declares item.name then (table, .error (.redeclared item.name part))
    else (table.add item).declare part rest

end SlotTable

/-- The number of argument slots that a subroutine keeps for the object it is called on. -/
def SubroutineKind.receivers : SubroutineKind → UInt16
  | .method => 1
  | .constructor | .function => 0

/-- The variables that can be named at a place of a class. -/
structure Scope where
  className : String
  statics : SlotTable
  fields : SlotTable
  arguments : SlotTable
  locals : SlotTable

namespace Scope

/-- The scope of a class in which nothing is declared. -/
def ofClass (className : String) : Scope :=
  ⟨className, .startingAt 0, .startingAt 0, .startingAt 0, .startingAt 0⟩

/-- The predefined variables: the current object and the current array. -/
def predefined (scope : Scope) : SlotTable :=
  ((SlotTable.startingAt 0).add ⟨.object scope.className, "this"⟩).add ⟨.object "Array", "that"⟩

/-- The table of a kind of variables. -/
def table (scope : Scope) : SlotKind → SlotTable
  | .static => scope.statics
  | .field => scope.fields
  | .argument => scope.arguments
  | .local => scope.locals
  | .predefined => scope.predefined

/-- What the table of a kind has under a name. -/
def slotOf? (scope : Scope) (kind : SlotKind) (name : String) : Option Slot :=
  ((scope.table kind).find? name).map fun entry => ⟨entry.item, kind, entry.index⟩

/-- What a name stands for. Locals hide arguments, these hide fields, these hide statics, and all
of them hide the predefined variables. -/
def resolve? (scope : Scope) (name : String) : Option Slot :=
  SlotKind.searched.findSome? (scope.slotOf? · name)

/-- The index that the next class variable of a kind is given. -/
def nextIndex (scope : Scope) : ClassVariableKind → UInt16
  | .static => scope.statics.count
  | .field => scope.fields.count

/-- Gives the next index of its kind to a class variable. -/
def addClassVariable (scope : Scope) (kind : ClassVariableKind) (item : Variable) : Scope :=
  match kind with
  | .static => { scope with statics := scope.statics.add item }
  | .field => { scope with fields := scope.fields.add item }

/-- Whether a static or a field has a given name. -/
def declaresInClass (scope : Scope) (name : String) : Bool :=
  scope.statics.declares name || scope.fields.declares name

/-- Declares class variables in order. A name may be declared once among statics and fields
together. -/
def declareClassVariables (scope : Scope) :
    List (ClassVariableKind × Variable) → Scope × Except ResolutionError Unit
  | [] => (scope, .ok ())
  | (kind, item) :: rest =>
    if scope.declaresInClass item.name then (scope, .error (.redeclared item.name .class))
    else (scope.addClassVariable kind item).declareClassVariables rest

/-- Replaces the arguments and locals by those of a subroutine. No local is declared when the
arguments cannot all be declared. -/
def enterSubroutine (scope : Scope) (kind : SubroutineKind)
    (parameters locals : List Variable) : Scope × Except ResolutionError Unit :=
  let noLocals := SlotTable.startingAt 0
  match (SlotTable.startingAt kind.receivers).declare .argument parameters with
  | (arguments, .error error) =>
    ({ scope with arguments := arguments, locals := noLocals }, .error error)
  | (arguments, .ok ()) =>
    let declared := noLocals.declare .local locals
    ({ scope with arguments := arguments, locals := declared.1 }, declared.2)

end Scope

/-- The variables of a declaration, each with its kind. -/
def ClassVariableGroup.members (declaration : ClassVariableGroup) :
    List (ClassVariableKind × Variable) :=
  declaration.group.members.map (declaration.kind, ·)

/-- The class variables of a class in the order of declaration. -/
def ClassDeclaration.classVariables (declaration : ClassDeclaration) :
    List (ClassVariableKind × Variable) :=
  declaration.variableGroups.flatMap ClassVariableGroup.members

/-- The local variables of a subroutine in the order of declaration. -/
def Subroutine.localVariables (subroutine : Subroutine) : List Variable :=
  subroutine.body.locals.flatMap VariableGroup.members

end Jack
