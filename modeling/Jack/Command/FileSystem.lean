import Jack.Command.Path

/-!
# Files

A file system is a finite map from absolute places to files and directories, together with the
place that path names start from. A place is the list of names on the way down from the root.
-/

namespace Jack

/-- Why a file could not be read or written. -/
inductive FileError where
  | notFound
  | notADirectory
  | isADirectory
  | nameTooLong
  | notText
  | other (description : String)
deriving DecidableEq

/-- The wording of a file error. -/
def FileError.message : FileError → String
  | .notFound => "No such file or directory (os error 2)"
  | .notADirectory => "Not a directory (os error 20)"
  | .isADirectory => "Is a directory (os error 21)"
  | .nameTooLong => "File name too long (os error 36)"
  | .notText => "stream did not contain valid UTF-8"
  | .other description => description

/-- The names on the way from the root to a file or directory. -/
abbrev Place := List String

/-- What stands at a place. -/
inductive FileNode where
  | file (contents : ByteArray)
  | directory

/-- The files and directories that there are. -/
structure FileSystem where
  workingDirectory : Place
  nodes : List (Place × FileNode)

/-- The greatest number of bytes in a name. -/
def maxNameBytes : Nat := 255

/-- The greatest number of bytes in a path. -/
def maxPathBytes : Nat := 4095

namespace FileSystem

/-- What stands at a place. The root is a directory. -/
def node? (files : FileSystem) (place : Place) : Option FileNode :=
  if place = [] then some .directory
  else (files.nodes.find? (·.1 = place)).map Prod.snd

/-- Whether a file stands at a place. -/
def hasFile (files : FileSystem) (place : Place) : Bool :=
  match files.node? place with
  | some (.file _) => true
  | _ => false

/-- Whether a directory stands at a place. -/
def hasDirectory (files : FileSystem) (place : Place) : Bool :=
  match files.node? place with
  | some .directory => true
  | _ => false

/-- The file system with something put at a place. -/
def put (files : FileSystem) (place : Place) (node : FileNode) : FileSystem :=
  { files with nodes := (place, node) :: files.nodes.filter (·.1 ≠ place) }

/-- What is put at a place stands there. -/
theorem node?_put_self (files : FileSystem) {place : Place} (node : FileNode)
    (below : place ≠ []) : (files.put place node).node? place = some node := by
  simp [node?, put, below]

/-- Other places are left as they are. -/
theorem node?_put_of_ne (files : FileSystem) {place other : Place} (node : FileNode)
    (different : other ≠ place) : (files.put place node).node? other = files.node? other := by
  by_cases root : other = []
  · simp [node?, root]
  · have kept (entry : Place × FileNode) :
        (entry.1 ≠ place ∧ entry.1 = other) ↔ entry.1 = other := by
      constructor
      · exact And.right
      · intro same
        exact ⟨same ▸ different, same⟩
    simp only [node?, put, if_neg root]
    rw [List.find?_cons_of_neg (by simpa using Ne.symm different), List.find?_filter]
    simp only [decide_eq_true_eq, kept]

/-- Follows names down from a place that exists. Every place on the way has to be a directory. -/
def follow (files : FileSystem) (place : Place) : List String → Except FileError Place
  | [] => .ok place
  | name :: rest =>
    match files.node? place with
    | none => .error .notFound
    | some (.file _) => .error .notADirectory
    | some .directory =>
      if name = "" ∨ name = "." then files.follow place rest
      else if name = ".." then files.follow place.dropLast rest
      else if maxNameBytes < name.utf8ByteSize then .error .nameTooLong
      else if (files.node? (place ++ [name])).isNone then .error .notFound
      else files.follow (place ++ [name]) rest

/-- The place that a path starts from. -/
def origin (files : FileSystem) (path : String) : Place :=
  if Path.isAbsolute path then [] else files.workingDirectory

/-- The names of a path, which must neither be empty nor too long. -/
def pathNames (path : String) : Except FileError (List String) :=
  if path = "" then .error .notFound
  else if maxPathBytes < path.utf8ByteSize then .error .nameTooLong
  else .ok (Path.names path)

/-- The place that a path leads to, where something has to stand. -/
def locate (files : FileSystem) (path : String) : Except FileError Place := do
  files.follow (files.origin path) (← pathNames path)

/-- Whether a path leads to a file. -/
def isFile (files : FileSystem) (path : String) : Bool :=
  match files.locate path with
  | .ok place => files.hasFile place
  | .error _ => false

/-- The text of the file that a path leads to. -/
def readText (files : FileSystem) (path : String) : Except FileError String := do
  match files.node? (← files.locate path) with
  | some (.file contents) =>
    match String.fromUTF8? contents with
    | some text => return text
    | none => throw .notText
  | some .directory => throw .isADirectory
  | none => throw .notFound

/-- Puts a text into the file that a path leads to. The directory has to exist, the file need
not. -/
def writeText (files : FileSystem) (path text : String) : Except FileError FileSystem := do
  let names ← pathNames path
  let directory ← files.follow (files.origin path) names.dropLast
  let name := names.getLastD ""
  if files.hasFile directory then throw .notADirectory
  if name = "" ∨ name = "." ∨ name = ".." then throw .isADirectory
  if maxNameBytes < name.utf8ByteSize then throw .nameTooLong
  let place := directory ++ [name]
  if files.hasDirectory place then throw .isADirectory
  return files.put place (.file text.toUTF8)

/-- The names in a directory. -/
def entries (files : FileSystem) (path : String) : Except FileError (List String) := do
  let directory ← files.locate path
  if files.hasFile directory then throw .notADirectory
  return files.nodes.filterMap fun (place, _) =>
    if place.dropLast = directory then place.getLast? else none

end FileSystem

end Jack
