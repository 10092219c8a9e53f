import Jack.Command.Arguments
import Jack.Command.FileSystem
import Jack.Compiler
import Jack.Lexical.Listing
import Jack.Markup.Tree

/-!
# Work on one source

What a command makes of the text of a source, apart from any files: texts to write under names that
come from the name of the source, and a text to print.
-/

namespace Jack

/-- What came of a source that was accepted. -/
structure Product where
  /-- Paths and the texts to write there, in order. -/
  files : List (String × String)
  printed : String
deriving DecidableEq

/-- The name of the code file of a source. -/
def codePath (path : String) : String := Path.withExtension path "vm"

/-- The name of the token listing of a source. -/
def tokenMarkupPath (path : String) : String := Path.sibling path "T.xml"

/-- The name of the class markup of a source. -/
def classMarkupPath (path : String) : String := Path.sibling path ".xml"

namespace Command

/-- What a command makes of a source. -/
def product (path source : String) : Command → Except CompileError Product
  | .compile => do
    let code ← compileSource {} source
    return ⟨[(codePath path, code)], ""⟩
  | .markup => do
    let tokens ← (tokenizeSource source).mapError .lexical
    let declaration ← parseTokens tokens
    return ⟨[(tokenMarkupPath path, tokensText tokens),
      (classMarkupPath path, declaration.markup.text)], ""⟩
  | .listing => do
    let stripped ← (stripComments source).mapError .lexical
    let _ ← (tokenize stripped).mapError .lexical
    return ⟨[], path ++ "\n" ++ Jack.listing stripped⟩

/-- The events of what a command makes of a source. -/
def events (source : String) : Command → List Event
  | .compile => compileEvents {} (parseSource source)
  | .markup => parseEvents (parseSource source)
  | .listing => []

end Command

/-- Why a source gave no complete result. -/
inductive JobError where
  | refused (path : String) (error : CompileError)
  | file (path : String) (error : FileError)
deriving DecidableEq

/-- The path that failed and the cause. -/
def JobError.message : JobError → String
  | .refused path error => path ++ ": " ++ error.message
  | .file path error => path ++ ": " ++ error.message

/-- The part of the program that reports what happens to files. -/
def reporter : String := "jackc"

/-- The log entry of a file that was written. -/
def wroteRecord (path : String) : LogRecord := ⟨.info, reporter, "wrote " ++ path⟩

/-- The log entry of something that went wrong. -/
def failureRecord (message : String) : LogRecord := ⟨.error, reporter, message⟩

/-- The extension of source files. -/
def sourceExtension : String := "jack"

/-- Whether a file of a directory is taken for a source. -/
def isSourceName (path : String) : Bool :=
  Path.extension? path = some sourceExtension

end Jack
