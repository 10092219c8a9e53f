import Jack.Text.Decimal

/-!
# The command line

The arguments of the program name what is to be done, where the sources are and how many workers
share them.
-/

namespace Jack

/-- What is to be done with each source. -/
inductive Command where
  | compile
  | markup
  | listing
deriving DecidableEq

/-- The command of a given name. -/
def Command.ofName? : String → Option Command
  | "compile" => some .compile
  | "xml" => some .markup
  | "tokens" => some .listing
  | _ => none

/-- What is wrong with a command line. -/
inductive UsageError where
  | missingCommand
  | unknownCommand (name : String)
  | badJobs
  | unexpectedArgument (argument : String)
  | missingPath
deriving DecidableEq

/-- What is said of a wrong command line. -/
def UsageError.message : UsageError → String
  | .missingCommand => "usage error: missing command"
  | .unknownCommand name => "usage error: unknown command '" ++ name ++ "'"
  | .badJobs => "usage error: --jobs expects a positive number"
  | .unexpectedArgument argument => "usage error: unexpected argument '" ++ argument ++ "'"
  | .missingPath => "usage error: missing PATH"

/-- A command line that makes sense. -/
structure Arguments where
  command : Command
  path : String
  jobs : Nat
deriving DecidableEq

namespace Arguments

/-- The largest number of workers that can be asked for. -/
def maxJobs : Nat := 18446744073709551615

/-- Reads a number of workers, which is never zero. -/
def readJobs? (text : String) : Option Nat :=
  (Text.readUnsigned? maxJobs text).filter (0 < ·)

/-- Whether an argument announces the number of workers. -/
def isJobsOption (argument : String) : Bool :=
  argument = "--jobs" || argument = "-j"

/-- Reads what follows the command. The first argument that is no option is the path, and of
several numbers of workers the last one counts. -/
def readRest (command : Command) (path? : Option String) (jobs : Nat) :
    List String → Except UsageError Arguments
  | [] =>
    match path? with
    | some path => .ok ⟨command, path, jobs⟩
    | none => .error .missingPath
  | argument :: rest =>
    if isJobsOption argument then
      match rest with
      | [] => .error .badJobs
      | number :: rest =>
        match readJobs? number with
        | some jobs => readRest command path? jobs rest
        | none => .error .badJobs
    else
      match path? with
      | none => readRest command (some argument) jobs rest
      | some _ => .error (.unexpectedArgument argument)

/-- Reads a command line; `defaultJobs` workers share the sources if it names no number. -/
def read (defaultJobs : Nat) : List String → Except UsageError Arguments
  | [] => .error .missingCommand
  | name :: rest =>
    match Command.ofName? name with
    | some command => readRest command none defaultJobs rest
    | none => .error (.unknownCommand name)

end Arguments

/-- How the program is to be called. -/
def usage : String :=
  "jackc v0.1.0\n" ++
  "\n" ++
  "usage: jackc CMD PATH [--jobs N]\n" ++
  "\n" ++
  "PATH is a .jack file or a directory of .jack files.\n" ++
  "\n" ++
  "commands:\n" ++
  "    compile   Compile each class into a .vm file next to its source\n" ++
  "    xml       Write the token listing (NameT.xml) and parse tree (Name.xml)\n" ++
  "    tokens    Print the tokens of each class\n" ++
  "\n" ++
  "options:\n" ++
  "    --jobs N  Number of worker threads, defaults to available cores\n" ++
  "\n" ++
  "examples:\n" ++
  "    jackc compile Square\n" ++
  "    jackc xml Square/Main.jack --jobs 1\n" ++
  "\n"

end Jack
