import Jack.Lowering.Statement

/-!
# Code for classes

The code of a class is one function for each subroutine, in order. A constructor allocates its
object first and a method takes its object from its first argument.
-/

namespace Jack

/-- The choices that code generation leaves open. -/
structure Options where
  /-- Whether a subroutine that does not end in a `return` is given one. -/
  implicitReturn : Bool := true

/-- Whether a statement ends its subroutine. -/
def Statement.isReturn : Statement → Bool
  | .return _ => true
  | _ => false

/-- Whether the last of some statements ends its subroutine. -/
def endsInReturn (statements : List Statement) : Bool :=
  statements.getLast?.any Statement.isReturn

/-- Whether code generation adds a `return` after the statements of a subroutine. -/
def Options.completes (options : Options) (subroutine : Subroutine) : Bool :=
  options.implicitReturn && !endsInReturn subroutine.body.statements

/-- The code that makes the current object available. -/
def SubroutineKind.prologue (kind : SubroutineKind) (fields : Nat) : List Instruction :=
  match kind with
  | .constructor => [.push .constant fields, .call "Memory.alloc" 1, .pop .pointer 0]
  | .method => [.push .argument 0, .pop .pointer 0]
  | .function => []

/-- The scope inside a subroutine. -/
def Subroutine.scopeIn (subroutine : Subroutine) (scope : Scope) :
    Scope × Except ResolutionError Unit :=
  scope.enterSubroutine subroutine.kind subroutine.parameters subroutine.localVariables

/-- Where the code of a subroutine is generated. -/
def Subroutine.frameIn (subroutine : Subroutine) (scope : Scope) : Except CompileError Frame :=
  match subroutine.scopeIn scope with
  | (scope, .ok ()) => .ok ⟨scope, subroutine.name, subroutine.kind⟩
  | (_, .error error) => .error (.resolution error)

/-- The code of a subroutine of a class with the given variables. -/
def Subroutine.lower (options : Options) (scope : Scope) (subroutine : Subroutine) :
    Except CompileError (List Instruction) := do
  let frame ← subroutine.frameIn scope
  let body ← lowerStatements frame .none subroutine.body.statements
  let ending := if options.completes subroutine then [.push .constant 0, .return] else []
  return [.function (qualified frame.scope.className subroutine.name)
      frame.scope.locals.count.toNat] ++
    subroutine.kind.prologue frame.scope.fields.count.toNat ++ body ++ ending

/-- The code of subroutines that follow each other. Each is entered from the scope that the one
before it leaves behind. -/
def lowerSubroutines (options : Options) (scope : Scope) :
    List Subroutine → Except CompileError (List Instruction)
  | [] => .ok []
  | subroutine :: rest => do
    let code ← subroutine.lower options scope
    let restCode ← lowerSubroutines options (subroutine.scopeIn scope).1 rest
    return code ++ restCode

/-- The scope of a class with its own variables declared. -/
def ClassDeclaration.scope (declaration : ClassDeclaration) :
    Scope × Except ResolutionError Unit :=
  (Scope.ofClass declaration.name).declareClassVariables declaration.classVariables

/-- The code of a class. -/
def ClassDeclaration.lower (options : Options) (declaration : ClassDeclaration) :
    Except CompileError (List Instruction) :=
  match declaration.scope with
  | (scope, .ok ()) => lowerSubroutines options scope declaration.subroutines
  | (_, .error error) => .error (.resolution error)

end Jack
