/-!
# Places in a source

A position counts the bytes before it, its line and its column. Lines and columns start at one;
columns count characters, offsets count bytes. A span is a run of bytes together with the place
of its first character.
-/

namespace Jack

/-- A place between two characters of a source. Its numbers have no bound: they are those of an offset
of 64 bits and of a line and a column of 32 bits in every source of fewer than `2 ^ 32 - 1`
characters. -/
structure Position where
  offset : Nat
  line : Nat
  column : Nat
deriving DecidableEq

namespace Position

/-- The place before the first character. -/
def start : Position := ⟨0, 1, 1⟩

/-- The place just after a character: a newline opens the next line. -/
def advance (position : Position) (c : Char) : Position :=
  if c = '\n' then ⟨position.offset + c.utf8Size, position.line + 1, 1⟩
  else ⟨position.offset + c.utf8Size, position.line, position.column + 1⟩

/-- The place just after a run of characters. -/
def advanceOver (position : Position) (text : List Char) : Position :=
  text.foldl advance position

@[simp] theorem advanceOver_nil (position : Position) : position.advanceOver [] = position := rfl

@[simp] theorem advanceOver_cons (position : Position) (c : Char) (text : List Char) :
    position.advanceOver (c :: text) = (position.advance c).advanceOver text := rfl

theorem advanceOver_append (position : Position) (first second : List Char) :
    position.advanceOver (first ++ second) =
      (position.advanceOver first).advanceOver second := by
  simp [advanceOver, List.foldl_append]

end Position

/-- A run of bytes of a source with the line and column of its first character. Its numbers have no
bound: they are those of words of 32 bits in every source of fewer than `2 ^ 32 - 1` bytes. -/
structure Span where
  offset : Nat
  size : Nat
  line : Nat
  column : Nat
deriving DecidableEq

/-- The number of bytes that a run of characters takes in a source. -/
def byteCount : List Char → Nat
  | [] => 0
  | c :: rest => c.utf8Size + byteCount rest

/-- Drops the characters that make up exactly the first `size` bytes. There are none when the text
is too short or a character lies across the cut. -/
def dropBytes? (size : Nat) : List Char → Option (List Char)
  | [] => if size = 0 then some [] else none
  | c :: rest =>
    if size = 0 then some (c :: rest)
    else if c.utf8Size ≤ size then dropBytes? (size - c.utf8Size) rest
    else none

/-- Keeps the characters that make up exactly the first `size` bytes. There are none when the text
is too short or a character lies across the cut. -/
def takeBytes? (size : Nat) : List Char → Option (List Char)
  | [] => if size = 0 then some [] else none
  | c :: rest =>
    if size = 0 then some []
    else if c.utf8Size ≤ size then (c :: ·) <$> takeBytes? (size - c.utf8Size) rest
    else none

/-- Two runs of characters take their bytes one after the other. -/
theorem byteCount_append (first second : List Char) :
    byteCount (first ++ second) = byteCount first + byteCount second := by
  induction first with
  | nil => simp [byteCount]
  | cons c rest inductionHypothesis =>
    simp only [List.cons_append, byteCount, inductionHypothesis]
    omega

/-- A run of characters moves the offset by its bytes. -/
theorem Position.offset_advanceOver (position : Position) (text : List Char) :
    (position.advanceOver text).offset = position.offset + byteCount text := by
  induction text generalizing position with
  | nil => rfl
  | cons c rest inductionHypothesis =>
    rw [advanceOver_cons, inductionHypothesis, byteCount]
    have moved : (position.advance c).offset = position.offset + c.utf8Size := by
      unfold advance
      split <;> rfl
    omega

namespace Span

/-- The span of a fragment that begins at `position`. -/
def covering (position : Position) (fragment : List Char) : Span :=
  ⟨position.offset, byteCount fragment, position.line, position.column⟩

/-- A span is shown as its line and column. -/
def describe (span : Span) : String :=
  toString span.line ++ ":" ++ toString span.column

/-- The characters that a span covers, unless one of its ends is outside the source or inside a
character. -/
def fragment? (span : Span) (source : String) : Option String := do
  let fragment ← takeBytes? span.size (← dropBytes? span.offset source.toList)
  return String.ofList fragment

end Span

end Jack
