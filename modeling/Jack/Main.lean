import Jack.Command.Run

/-!
# The program on real files

Everything that is decided is decided by the modules below this one. Here files are read and
written, the log and the listings are printed, and the workers run side by side.
-/

namespace Jack.Program

/-- The number of workers when the command line names none. -/
def defaultJobs : Nat := 4

/-- The level that a log is limited to, from the environment. Without a setting it shows all. -/
def logLimit : IO (Option LogLevel) := do
  match ← IO.getEnv "RUST_LOG" with
  | some name => return LogLevel.ofName? name.toLower
  | none => return some .trace

/-- Prints the log entries that are within the limit. -/
def report (limit : Option LogLevel) (records : List LogRecord) : IO Unit :=
  for record in records.filter (·.isShown limit) do
    IO.println record.line

/-- The file error that an error of the operating system stands for. -/
def fileError : IO.Error → FileError
  | .noFileOrDirectory _ _ _ => .notFound
  | .inappropriateType _ 20 _ => .notADirectory
  | .inappropriateType _ 21 _ => .isADirectory
  | .invalidArgument _ 36 _ => .nameTooLong
  | error => .other (toString error)

/-- Runs an action on files and turns what it throws into a file error. -/
def guarded {α : Type} (action : IO α) : IO (Except FileError α) := do
  try
    return .ok (← action)
  catch error =>
    return .error (fileError error)

/-- What is known of the file or directory that a path leads to. -/
def metadata (path : String) : IO IO.FS.Metadata :=
  (System.mkFilePath [path]).metadata

/-- The entries of the directory that a path leads to. -/
def entries (path : String) : IO (Array IO.FS.DirEntry) :=
  (System.mkFilePath [path]).readDir

/-- Whether a path leads to a file. -/
def isFile (path : String) : IO Bool := do
  if path = "" then return false
  match ← guarded (metadata path) with
  | .ok found => return (found.type == .file)
  | .error _ => return false

/-- The sources that a path names. -/
def discoverSources (path : String) : IO (Except FileError (List String)) := do
  if ← isFile path then return .ok [path]
  if path = "" then return .error .notFound
  match ← guarded (entries path) with
  | .error error => return .error error
  | .ok listed =>
    let names := (listed.toList.map (·.fileName)).mergeSort fun first second => !(second < first)
    return .ok (← (names.map (Path.join path)).filterM fun source => do
      return isSourceName source && (← isFile source))

/-- Writes texts to files in order, up to the first that cannot be written. -/
def writeFiles (limit : Option LogLevel) : List (String × String) → IO (Except JobError Unit)
  | [] => return .ok ()
  | (path, text) :: rest => do
    match ← guarded (IO.FS.writeFile path text) with
    | .error error => return .error (.file path error)
    | .ok () =>
      report limit [wroteRecord path]
      writeFiles limit rest

/-- The text of a file. -/
def readSource (path : String) : IO (Except FileError String) := do
  match ← guarded (IO.FS.readBinFile path) with
  | .error error => return .error error
  | .ok contents =>
    match String.fromUTF8? contents with
    | some source => return .ok source
    | none => return .error .notText

/-- Carries out a command on one source. -/
def processSource (limit : Option LogLevel) (command : Command) (path : String) :
    IO (Except JobError Unit) := do
  match ← readSource path with
  | .error error => return .error (.file path error)
  | .ok source =>
    report limit ((command.events source).map Event.record)
    match command.product path source with
    | .error error => return .error (.refused path error)
    | .ok product =>
      IO.print product.printed
      writeFiles limit product.files

/-- Carries out a command on the share of one worker and counts the failures. -/
def workThrough (limit : Option LogLevel) (command : Command) : List String → IO Nat
  | [] => return 0
  | path :: rest => do
    match ← processSource limit command path with
    | .ok () => workThrough limit command rest
    | .error error =>
      report limit [failureRecord error.message]
      return 1 + (← workThrough limit command rest)

/-- Lets the workers run side by side and counts the failures of all of them. -/
def runWorkers (limit : Option LogLevel) (command : Command) (work : List (List String)) :
    IO Nat := do
  let tasks ← work.mapM fun share => IO.asTask (workThrough limit command share)
  let counts ← tasks.mapM fun task => do
    match ← IO.wait task with
    | .ok count => pure count
    | .error _ => pure 1
  return counts.foldl Nat.add 0

/-- Carries out a command line and gives the exit code. -/
def run (words : List String) : IO Nat := do
  let limit ← logLimit
  match Arguments.read defaultJobs words with
  | .error error =>
    report limit [failureRecord error.message]
    IO.print usage
    return exitUsage
  | .ok arguments =>
    match ← discoverSources arguments.path with
    | .error error =>
      report limit [failureRecord (JobError.file arguments.path error).message]
      return exitFailure
    | .ok [] =>
      report limit [noSourcesRecord arguments.path]
      return exitFailure
    | .ok sources =>
      let failures ← runWorkers limit arguments.command (shares arguments.workers sources)
      if failures = 0 then return exitSuccess
      report limit [summaryRecord failures sources.length]
      return exitFailure

end Jack.Program

/-- Compiles the classes that the command line names. -/
def main (words : List String) : IO UInt32 := do
  return (← Jack.Program.run words).toUInt32
