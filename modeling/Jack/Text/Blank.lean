import Jack.Text.CodeRange

/-!
# Blanks

A blank is a character with the Unicode property White_Space. Blanks separate tokens and carry
no meaning of their own; a zero-width space is not one of them.
-/

namespace Jack.Text

/-- The code points of White_Space, in ascending order. -/
def blanks : List CodeRange :=
  [ ⟨0x9, 0xD⟩, ⟨0x20, 0x20⟩, ⟨0x85, 0x85⟩, ⟨0xA0, 0xA0⟩, ⟨0x1680, 0x1680⟩,
    ⟨0x2000, 0x200A⟩, ⟨0x2028, 0x2029⟩, ⟨0x202F, 0x202F⟩, ⟨0x205F, 0x205F⟩,
    ⟨0x3000, 0x3000⟩]

/-- Whether a character only separates tokens. -/
def isBlank (c : Char) : Bool :=
  CodeRange.cover blanks c

end Jack.Text
