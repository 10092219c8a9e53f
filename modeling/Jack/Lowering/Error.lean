import Jack.Scope
import Jack.Lexical.Error
import Jack.Token.Cursor

/-!
# Errors of compilation

A class is refused by the first stage that finds fault with it. Code generation itself refuses two
uses of objects.
-/

namespace Jack

/-- A use of an object that no code can be given for. -/
inductive ReceiverError where
  | noReceiver (subroutine : String)
  | primitiveReceiver (name type method : String)
deriving DecidableEq

/-- What is said of a wrong use of an object. -/
def ReceiverError.message : ReceiverError → String
  | .noReceiver subroutine => "'this' is not available in function '" ++ subroutine ++ "'"
  | .primitiveReceiver name type method =>
    "cannot call method '" ++ method ++ "' on '" ++ name ++ "' of primitive type '" ++ type ++ "'"

/-- Why a class was not compiled. -/
inductive CompileError where
  | lexical (error : LexicalError)
  | grammatical (error : SyntaxError)
  | resolution (error : ResolutionError)
  | generation (error : ReceiverError)
deriving DecidableEq

/-- The stage that refused the class and what it said. -/
def CompileError.message : CompileError → String
  | .lexical error => "lexical error: " ++ error.message
  | .grammatical error => "syntax error: " ++ error.message
  | .resolution error => "resolution error: " ++ error.message
  | .generation error => "code generation error: " ++ error.message

end Jack
