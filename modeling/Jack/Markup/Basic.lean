import Jack.Text.Lines

/-!
# Markup

Markup is a tree of elements with text at the leaves. It is written one line for each tag or leaf,
indented by two spaces for each element around it.
-/

namespace Jack

/-- A tree of tagged elements. -/
inductive Markup where
  | leaf (tag text : String)
  | element (tag : String) (children : List Markup)

namespace Markup

/-- How a character of a text is written: the four that markup itself uses have names. -/
def escapeChar : Char → List Char
  | '<' => "&lt;".toList
  | '>' => "&gt;".toList
  | '&' => "&amp;".toList
  | '"' => "&quot;".toList
  | c => [c]

/-- A text as it stands between two tags. -/
def escape (text : String) : String :=
  String.ofList (text.toList.flatMap escapeChar)

/-- The spaces in front of a line that `depth` elements surround. -/
def indent (depth : Nat) : String :=
  String.ofList (List.replicate (2 * depth) ' ')

/-- The tag that opens an element. -/
def openingTag (tag : String) : String := "<" ++ tag ++ ">"

/-- The tag that closes an element. -/
def closingTag (tag : String) : String := "</" ++ tag ++ ">"

/-- A leaf between its tags. -/
def leafLine (tag text : String) : String :=
  openingTag tag ++ " " ++ escape text ++ " " ++ closingTag tag

mutual

/-- The lines of a tree that `depth` elements surround. -/
def lines (depth : Nat) : Markup → List String
  | .leaf tag text => [indent depth ++ leafLine tag text]
  | .element tag children =>
    (indent depth ++ openingTag tag) :: childLines (depth + 1) children ++
      [indent depth ++ closingTag tag]

/-- The lines of trees that stand next to each other. -/
def childLines (depth : Nat) : List Markup → List String
  | [] => []
  | child :: rest => child.lines depth ++ childLines depth rest

end

/-- A tree written out. -/
def text (markup : Markup) : String :=
  Text.unlines (markup.lines 0)

end Markup

end Jack
