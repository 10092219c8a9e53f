import Jack.Command.Job

/-!
# Runs of the program

A run finds its sources, gives each worker a share of them and works through the shares. A source
that fails does not stop the others; the run fails if one of them did.
-/

namespace Jack

/-- The files, what has been printed and what has been logged so far. -/
structure Session where
  files : FileSystem
  printed : String
  log : List LogRecord

namespace Session

/-- Adds log entries. -/
def report (session : Session) (records : List LogRecord) : Session :=
  { session with log := session.log ++ records }

/-- Prints a text. -/
def print (session : Session) (text : String) : Session :=
  { session with printed := session.printed ++ text }

/-- Writes texts to files in order, up to the first that cannot be written. -/
def write (session : Session) : List (String × String) → Session × Except JobError Unit
  | [] => (session, .ok ())
  | (path, text) :: rest =>
    match session.files.writeText path text with
    | .ok files => ({ session with files := files }.report [wroteRecord path]).write rest
    | .error error => (session, .error (.file path error))

/-- Carries out a command on one source. -/
def process (session : Session) (command : Command) (path : String) :
    Session × Except JobError Unit :=
  match session.files.readText path with
  | .error error => (session, .error (.file path error))
  | .ok source =>
    let session := session.report ((command.events source).map Event.record)
    match command.product path source with
    | .error error => (session, .error (.refused path error))
    | .ok product => (session.print product.printed).write product.files

/-- Carries out a command on one source, logs a failure and counts it. -/
def attempt (session : Session) (command : Command) (path : String) : Session × Nat :=
  match session.process command path with
  | (session, .ok ()) => (session, 0)
  | (session, .error error) => (session.report [failureRecord error.message], 1)

/-- Carries out a command on sources in order and counts the failures. -/
def attemptAll (session : Session) (command : Command) : List String → Session × Nat
  | [] => (session, 0)
  | path :: rest =>
    let (session, failure) := session.attempt command path
    let (session, failures) := session.attemptAll command rest
    (session, failure + failures)

end Session

/-- Cuts a list into pieces of `size + 1` items, of which the last may be shorter. -/
def pieces {α : Type} (size : Nat) : List α → List (List α)
  | [] => []
  | first :: rest => (first :: rest.take size) :: pieces size (rest.drop size)
termination_by items => items.length
decreasing_by
  simp only [List.length_drop, List.length_cons]
  omega

/-- Nothing is lost and nothing is moved by cutting. -/
theorem flatten_pieces {α : Type} (size : Nat) (items : List α) :
    (pieces size items).flatten = items := by
  fun_induction pieces size items with
  | case1 => rfl
  | case2 first rest inductionHypothesis =>
    rw [List.flatten_cons, inductionHypothesis, List.cons_append, List.take_append_drop]

/-- The share of each worker: as equal as whole pieces allow, in order, and for no more workers
than there are jobs. Jobs and items are counted without a bound: with words of 64 bits the shares are
the same as long as both counts together are below `2 ^ 64`. -/
def shares {α : Type} (jobs : Nat) (items : List α) : List (List α) :=
  pieces ((items.length + jobs - 1) / jobs - 1) items

/-- The sources that a path names: a file itself, or the source files of a directory in the order
of their names. -/
def discover (files : FileSystem) (path : String) : Except FileError (List String) := do
  if files.isFile path then return [path]
  let names := (← files.entries path).mergeSort fun first second => !(second < first)
  let paths := names.map (Path.join path)
  return paths.filter fun source => files.isFile source && isSourceName source

/-- The number of workers that share the sources. Listings are printed, and one worker keeps them
apart. -/
def Arguments.workers (arguments : Arguments) : Nat :=
  match arguments.command with
  | .listing => 1
  | _ => arguments.jobs

/-- The exit code of a run without failure. -/
def exitSuccess : Nat := 0

/-- The exit code of a run with a failure. -/
def exitFailure : Nat := 1

/-- The exit code of a run with a wrong command line. -/
def exitUsage : Nat := 64

/-- The log entry at the end of a run with failures. -/
def summaryRecord (failures total : Nat) : LogRecord :=
  failureRecord (toString failures ++ " of " ++ toString total ++ " classes failed")

/-- The log entry of a directory without sources. -/
def noSourcesRecord (path : String) : LogRecord :=
  failureRecord ("no ." ++ sourceExtension ++ " files found in " ++ path)

/-- Works through the shares of the workers one after the other. -/
def Session.runShares (session : Session) (command : Command) :
    List (List String) → Session × Nat
  | [] => (session, 0)
  | share :: rest =>
    let (session, failure) := session.attemptAll command share
    let (session, failures) := session.runShares command rest
    (session, failure + failures)

/-- Carries out a command line and gives the exit code. -/
def Session.run (session : Session) (defaultJobs : Nat) (words : List String) : Session × Nat :=
  match Arguments.read defaultJobs words with
  | .error error => ((session.report [failureRecord error.message]).print usage, exitUsage)
  | .ok arguments =>
    match discover session.files arguments.path with
    | .error error =>
      (session.report [failureRecord (JobError.file arguments.path error).message], exitFailure)
    | .ok [] => (session.report [noSourcesRecord arguments.path], exitFailure)
    | .ok sources =>
      let (session, failures) :=
        session.runShares arguments.command (shares arguments.workers sources)
      if failures = 0 then (session, exitSuccess)
      else (session.report [summaryRecord failures sources.length], exitFailure)

end Jack
