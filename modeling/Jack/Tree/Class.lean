import Jack.Tree.Expression

/-!
# Classes

The declarations and statements of a class. An `if` without `else` and an `if` with an empty
`else` are different statements, and so are an assignment to a variable and one to an element.
-/

namespace Jack

/-- The type of a variable or of a result. -/
inductive DataType where
  | int | char | boolean
  | object (className : String)
deriving DecidableEq

namespace DataType

/-- The name of a type as it stands in a source. -/
def name : DataType → String
  | .int => "int"
  | .char => "char"
  | .boolean => "boolean"
  | .object className => className

/-- Whether values of the type have no methods. -/
def isPrimitive : DataType → Bool
  | .object _ => false
  | _ => true

end DataType

/-- The statements of a subroutine. -/
inductive Statement where
  | assign (target : String) (value : Expression)
  | assignElement (array : String) (index value : Expression)
  | ifThen (condition : Expression) (body : List Statement)
  | ifElse (condition : Expression) (body alternative : List Statement)
  | whileLoop (condition : Expression) (body : List Statement)
  | perform (call : Call)
  | return (value : Option Expression)

/-- Variables of one type declared together. -/
structure VariableGroup where
  type : DataType
  names : List String

/-- How long a class variable lives: with the program or with an object. -/
inductive ClassVariableKind where
  | static | field
deriving DecidableEq

namespace ClassVariableKind

/-- The keyword that opens a declaration. -/
def keyword : ClassVariableKind → Keyword
  | .static => .static
  | .field => .field

/-- The kind that a keyword opens a declaration of. -/
def ofKeyword? : Keyword → Option ClassVariableKind
  | .static => some .static
  | .field => some .field
  | _ => none

end ClassVariableKind

/-- A declaration of class variables. -/
structure ClassVariableGroup where
  kind : ClassVariableKind
  group : VariableGroup

/-- A variable with its type. -/
structure Variable where
  type : DataType
  name : String
deriving DecidableEq

/-- The variables of a group in the order of their names. -/
def VariableGroup.members (group : VariableGroup) : List Variable :=
  group.names.map (⟨group.type, ·⟩)

/-- What a subroutine is called on: nothing, a new object or an existing one. -/
inductive SubroutineKind where
  | constructor | function | method
deriving DecidableEq

namespace SubroutineKind

/-- The keyword that opens a declaration. -/
def keyword : SubroutineKind → Keyword
  | .constructor => .constructor
  | .function => .function
  | .method => .method

/-- The kind that a keyword opens a declaration of. -/
def ofKeyword? : Keyword → Option SubroutineKind
  | .constructor => some .constructor
  | .function => some .function
  | .method => some .method
  | _ => none

end SubroutineKind

/-- What stands between the braces of a subroutine. -/
structure SubroutineBody where
  locals : List VariableGroup
  statements : List Statement

/-- A subroutine; one without a result type is `void`. -/
structure Subroutine where
  kind : SubroutineKind
  result : Option DataType
  name : String
  parameters : List Variable
  body : SubroutineBody

/-- A compilation unit. -/
structure ClassDeclaration where
  name : String
  variableGroups : List ClassVariableGroup
  subroutines : List Subroutine

end Jack
