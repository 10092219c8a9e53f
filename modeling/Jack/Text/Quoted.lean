import Jack.Text.Extender
import Jack.Text.Hexadecimal
import Jack.Text.Ignorable
import Jack.Text.Unprintable

/-!
# Quoted text

Listings and messages show text between quotes with every character visible. A character that
cannot be seen is written as its code point in hexadecimal digits between braces.
-/

namespace Jack.Text

/-- The escape of a code point: `\u`, an opening brace, lower-case hexadecimal digits without
padding, a closing brace. -/
def escapedCode (c : Char) : String :=
  "\\u\x7b" ++ hexDigits c.toNat ++ "\x7d"

/-- Whether a character does not show as a mark of its own, so that a reader would miss it. -/
def isHidden (c : Char) : Bool :=
  isUnprintable c || isExtender c || isIgnorable c

/-- How a character is written between quotes of the kind `quote`. Only the quote in use is
escaped, the other one stands for itself. -/
def escaped (quote c : Char) : String :=
  match c with
  | '\x00' => "\\0"
  | '\t' => "\\t"
  | '\r' => "\\r"
  | '\n' => "\\n"
  | '\\' => "\\\\"
  | _ =>
    if c = quote then "\\" ++ c.toString
    else if isHidden c then escapedCode c
    else c.toString

/-- A text between double quotes. -/
def quotedString (text : String) : String :=
  "\"" ++ String.join (text.toList.map (escaped '"')) ++ "\""

/-- A character between single quotes. -/
def quotedChar (c : Char) : String :=
  "'" ++ escaped '\'' c ++ "'"

end Jack.Text
