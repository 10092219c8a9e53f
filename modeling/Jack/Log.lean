import Jack.Lowering.Class

/-!
# The log

What a compilation reports on its way is a list of events. Each event has a level, the part of the
compiler that reports it and a message. The events of a refused class end where it was refused.
-/

namespace Jack

/-- How important an event is. -/
inductive LogLevel where
  | error | warn | info | debug | trace
deriving DecidableEq

/-- The name of a level. -/
def LogLevel.name : LogLevel → String
  | .error => "ERROR"
  | .warn => "WARN"
  | .info => "INFO"
  | .debug => "DEBUG"
  | .trace => "TRACE"

/-- How much detail a log has that shows entries up to a level. -/
def LogLevel.detail : LogLevel → Nat
  | .error => 0
  | .warn => 1
  | .info => 2
  | .debug => 3
  | .trace => 4

/-- The level with a given name in small letters. -/
def LogLevel.ofName? : String → Option LogLevel
  | "error" => some .error
  | "warn" => some .warn
  | "info" => some .info
  | "debug" => some .debug
  | "trace" => some .trace
  | _ => none

/-- One entry of a log. -/
structure LogRecord where
  level : LogLevel
  reporter : String
  message : String
deriving DecidableEq

namespace LogRecord

/-- An entry as a line of a log, with the level in a column of its own. -/
def line (record : LogRecord) : String :=
  Text.padRight 5 record.level.name ++ " [" ++ record.reporter ++ "] " ++ record.message

/-- Whether a log that is limited to a level, or switched off, shows an entry. -/
def isShown (limit : Option LogLevel) (record : LogRecord) : Bool :=
  limit.any fun level => record.level.detail ≤ level.detail

end LogRecord

/-- What happens while a class is compiled. -/
inductive Event where
  | parsed (className : String) (subroutines : Nat)
  | generating (className : String)
  | declared (kind : ClassVariableKind) (item : Variable) (index : Nat)
  | scopeEntered (arguments locals : Nat)
  | subroutineEntered (kind : SubroutineKind) (name : String) (arguments locals : Nat)
  | returnAdded (name : String)
deriving DecidableEq

/-- The name of a kind of class variable in the log. -/
def ClassVariableKind.label : ClassVariableKind → String
  | .static => "Static"
  | .field => "Field"

/-- The numbers of arguments and locals in words. -/
def slotCounts (arguments locals : Nat) : String :=
  "with " ++ toString arguments ++ " arguments and " ++ toString locals ++ " locals"

/-- The log entry of an event. -/
def Event.record : Event → LogRecord
  | .parsed className subroutines =>
    ⟨.trace, "jack_compiler::parsing",
      "parsed class '" ++ className ++ "' with " ++ toString subroutines ++ " subroutines"⟩
  | .generating className =>
    ⟨.debug, "jack_compiler::compile::codegen", "generating class '" ++ className ++ "'"⟩
  | .declared kind item index =>
    ⟨.trace, "jack_compiler::compile::symbol",
      "declared " ++ kind.label ++ " " ++ item.type.name ++ " " ++ item.name ++
        " #" ++ toString index⟩
  | .scopeEntered arguments locals =>
    ⟨.trace, "jack_compiler::compile::symbol", "subroutine scope " ++ slotCounts arguments locals⟩
  | .subroutineEntered kind name arguments locals =>
    ⟨.debug, "jack_compiler::compile::codegen",
      kind.keyword.spelling ++ " " ++ name ++ " " ++ slotCounts arguments locals⟩
  | .returnAdded name =>
    ⟨.trace, "jack_compiler::compile::codegen", "appending implicit return to " ++ name⟩

namespace Scope

/-- The events of declaring class variables. -/
def declarationEvents (scope : Scope) : List (ClassVariableKind × Variable) → List Event
  | [] => []
  | (kind, item) :: rest =>
    if scope.declaresInClass item.name then []
    else .declared kind item (scope.nextIndex kind).toNat ::
      (scope.addClassVariable kind item).declarationEvents rest

/-- The events of entering a subroutine. -/
def entryEvents (scope : Scope) (kind : SubroutineKind) (parameters locals : List Variable) :
    List Event :=
  match scope.enterSubroutine kind parameters locals with
  | (entered, .ok ()) => [.scopeEntered entered.arguments.count.toNat entered.locals.count.toNat]
  | (_, .error _) => []

end Scope

/-- The events of generating the code of a subroutine. -/
def Subroutine.events (options : Options) (scope : Scope) (subroutine : Subroutine) : List Event :=
  match subroutine.frameIn scope with
  | .error _ => []
  | .ok frame =>
    let name := qualified frame.scope.className subroutine.name
    let arguments := frame.scope.arguments.count.toNat
    let locals := frame.scope.locals.count.toNat
    [.scopeEntered arguments locals, .subroutineEntered subroutine.kind name arguments locals] ++
      match subroutine.lower options scope with
      | .ok _ => if options.completes subroutine then [.returnAdded name] else []
      | .error _ => []

/-- The events of generating the code of subroutines that follow each other. -/
def subroutineEvents (options : Options) (scope : Scope) : List Subroutine → List Event
  | [] => []
  | subroutine :: rest =>
    subroutine.events options scope ++
      match subroutine.lower options scope with
      | .ok _ => subroutineEvents options (subroutine.scopeIn scope).1 rest
      | .error _ => []

/-- The events of generating the code of a class. -/
def ClassDeclaration.generationEvents (options : Options) (declaration : ClassDeclaration) :
    List Event :=
  [.generating declaration.name] ++
    (Scope.ofClass declaration.name).declarationEvents declaration.classVariables ++
    match declaration.scope with
    | (scope, .ok ()) => subroutineEvents options scope declaration.subroutines
    | (_, .error _) => []

/-- The event of having read a class. -/
def ClassDeclaration.parsedEvent (declaration : ClassDeclaration) : Event :=
  .parsed declaration.name declaration.subroutines.length

end Jack
