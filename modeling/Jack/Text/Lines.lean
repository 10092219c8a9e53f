/-!
# Lines and columns

A text of lines ends each of them in a newline. A column is filled with spaces on the right.
-/

namespace Jack.Text

/-- Lines put one under the other. -/
def unlines (lines : List String) : String :=
  String.join (lines.map (· ++ "\n"))

/-- Fills a text with spaces on the right up to `width` characters. -/
def padRight (width : Nat) (text : String) : String :=
  text ++ String.ofList (List.replicate (width - text.length) ' ')

end Jack.Text
