/-!
# Path names

A path name is a text in which slashes separate the names of directories and files. These are the
rules by which the names of output files are made from the name of a source file.
-/

namespace Jack.Path

/-- The part of a text up to and including the last `mark`, or nothing if it has none. -/
def throughLast (mark : Char) (text : List Char) : List Char :=
  (text.reverse.dropWhile (· ≠ mark)).reverse

/-- The part of a text after the last `mark`, or all of it if it has none. -/
def afterLast (mark : Char) (text : List Char) : List Char :=
  (text.reverse.takeWhile (· ≠ mark)).reverse

/-- The last name of a path. -/
def fileName (path : List Char) : List Char :=
  afterLast '/' path

/-- A file name cut at its last dot into stem and extension. A dot at the very front does not
begin an extension. -/
def splitExtension (name : List Char) : List Char × Option (List Char) :=
  let stem := (throughLast '.' name).dropLast
  if stem = [] then (name, none) else (stem, some (afterLast '.' name))

/-- The last name of a path without its extension. -/
def stem (path : String) : List Char :=
  (splitExtension (fileName path.toList)).1

/-- The extension of a path, if it has one. -/
def extension? (path : String) : Option String :=
  (splitExtension (fileName path.toList)).2.map String.ofList

/-- The path with its extension replaced, or added if it has none. The new extension goes behind
the dot that follows the stem. Behind a stem that is itself a dot nothing is added: the two dots
are the name of the directory above, and that name has no extension. -/
def withExtension (path extension : String) : String :=
  let kept := String.ofList (throughLast '/' path.toList ++ stem path ++ ['.'])
  if stem path = ['.'] then kept else kept ++ extension

/-- Takes slashes and names of the form `.` from the end of a directory name that is written
backwards; the root and a single `.` remain. -/
def trimReversed : List Char → List Char
  | '/' :: rest => if rest = [] then ['/'] else trimReversed rest
  | '.' :: '/' :: rest => if rest = [] then ['/'] else trimReversed rest
  | name => name

/-- The directory that a path leads through to its last name. -/
def directory (path : String) : String :=
  String.ofList (trimReversed (throughLast '/' path.toList).reverse).reverse

/-- The path of an entry of a directory. -/
def join (directory name : String) : String :=
  if directory = "" ∨ directory.toList.getLast? = some '/' then directory ++ name
  else directory ++ "/" ++ name

/-- The path next to a file that has the stem of the file followed by `ending` as its name. -/
def sibling (path ending : String) : String :=
  join (directory path) (String.ofList (stem path) ++ ending)

/-- The names that a path consists of. An empty name stands between two slashes in a row and after
a slash at the end. -/
def names (path : String) : List String :=
  (path.toList.splitOn '/').map String.ofList

/-- Whether a path starts from the root and not from the working directory. -/
def isAbsolute (path : String) : Bool :=
  path.toList.head? = some '/'

end Jack.Path
