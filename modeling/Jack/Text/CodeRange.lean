/-!
# Ranges of code points

Character classes of this library are tables of inclusive ranges. `CodeRange.cover` is the
one question asked of such a table.
-/

namespace Jack.Text

/-- All code points from `first` to `last`, both included. -/
structure CodeRange where
  first : Nat
  last : Nat
deriving DecidableEq

namespace CodeRange

/-- A character lies in a range when its code point is between the two ends. -/
def contains (range : CodeRange) (c : Char) : Bool :=
  range.first ≤ c.toNat && c.toNat ≤ range.last

/-- A table covers a character when one of its ranges contains it. -/
def cover (table : List CodeRange) (c : Char) : Bool :=
  table.any (·.contains c)

end CodeRange

end Jack.Text
