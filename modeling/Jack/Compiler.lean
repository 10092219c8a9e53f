import Jack.Grammar.Class
import Jack.Lexical.Comment
import Jack.Lexical.Scan
import Jack.Log

/-!
# The compiler

The stages put together: comments are blanked, the source is cut into tokens, the tokens are read
as one class, and code is generated for it. The first stage that finds an error ends the
compilation.
-/

namespace Jack

/-- The tokens of a source that may have comments. -/
def tokenizeSource (source : String) : Except LexicalError (List Token) := do
  tokenize (← stripComments source)

/-- The class that a token sequence makes up. -/
def parseTokens (tokens : List Token) : Except CompileError ClassDeclaration :=
  (Grammar.parseClass tokens).mapError .grammatical

/-- The class that a source free of comments holds. -/
def parsePlain (source : String) : Except CompileError ClassDeclaration := do
  parseTokens (← (tokenize source).mapError .lexical)

/-- The class that a source holds. -/
def parseSource (source : String) : Except CompileError ClassDeclaration := do
  parseTokens (← (tokenizeSource source).mapError .lexical)

/-- Compiles a source free of comments. -/
def compilePlain (options : Options) (source : String) : Except CompileError String := do
  let code ← (← parsePlain source).lower options
  return codeText code

/-- Compiles a source. -/
def compileSource (options : Options) (source : String) : Except CompileError String := do
  let code ← (← parseSource source).lower options
  return codeText code

/-- The events of reading a class, given what came of it. -/
def parseEvents : Except CompileError ClassDeclaration → List Event
  | .ok declaration => [declaration.parsedEvent]
  | .error _ => []

/-- The events of reading a class and generating its code, given what came of the reading. -/
def compileEvents (options : Options) : Except CompileError ClassDeclaration → List Event
  | .ok declaration => declaration.parsedEvent :: declaration.generationEvents options
  | .error _ => []

end Jack
