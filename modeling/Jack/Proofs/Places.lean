import Jack.Source.Position
import Mathlib.Data.List.Induction

/-!
# Lines and columns

A position is counted forward, character by character. Its line and its column can also be read off
the text that stands before it: the line from the newlines in the text, the column from the characters
behind the last of them.
-/

namespace Jack

/-- The line of the place behind a text: one more than there are newlines in it. -/
def lineBehind (text : List Char) : Nat := 1 + text.count '\n'

/-- The column of the place behind a text: one more than there are characters since its last newline,
or since its beginning. -/
def columnBehind (text : List Char) : Nat := 1 + (text.reverse.takeWhile (· ≠ '\n')).length

/-- The span of a fragment that stands behind a text. -/
def Span.behind (text fragment : List Char) : Span :=
  ⟨byteCount text, byteCount fragment, lineBehind text, columnBehind text⟩

/-- A position that was counted from the start is what the text before it tells. -/
theorem Position.advanceOver_start (text : List Char) :
    Position.start.advanceOver text = ⟨byteCount text, lineBehind text, columnBehind text⟩ := by
  induction text using List.reverseRecOn with
  | nil => rfl
  | append_singleton text c inductionHypothesis =>
    rw [advanceOver_append, inductionHypothesis, advanceOver_cons, advanceOver_nil, advance]
    by_cases newline : c = '\n'
    · simp [newline, byteCount_append, byteCount, lineBehind, columnBehind, Nat.add_assoc]
    · simp [newline, byteCount_append, byteCount, lineBehind, columnBehind, Nat.add_comm]

theorem Span.covering_advanceOver (text fragment : List Char) :
    Span.covering (Position.start.advanceOver text) fragment = Span.behind text fragment := by
  rw [Position.advanceOver_start]
  rfl

/-- The bytes of the characters of a source are its bytes. -/
theorem byteCount_toList (source : String) : byteCount source.toList = source.utf8ByteSize := by
  have counted (text : List Char) : byteCount text = (String.ofList text).utf8ByteSize := by
    induction text with
    | nil => rfl
    | cons c text inductionHypothesis =>
      rw [byteCount, inductionHypothesis, ← List.singleton_append, String.ofList_append,
        String.utf8ByteSize_append, ← String.singleton_eq_ofList, String.utf8ByteSize_singleton]
  rw [counted, String.ofList_toList]

/-- Every character takes a byte at least. -/
theorem length_le_byteCount (text : List Char) : text.length ≤ byteCount text := by
  induction text with
  | nil => exact Nat.le_refl 0
  | cons c text inductionHypothesis =>
    have positive := c.utf8Size_pos
    rw [List.length_cons, byteCount]
    omega

/-- Lines and columns grow no faster than bytes. -/
theorem lineBehind_le (text : List Char) : lineBehind text ≤ 1 + byteCount text := by
  have newlines : text.count '\n' ≤ text.length := List.count_le_length
  have characters := length_le_byteCount text
  rw [lineBehind]
  omega

theorem columnBehind_le (text : List Char) : columnBehind text ≤ 1 + byteCount text := by
  have shorter := (List.takeWhile_sublist (fun c => decide (c ≠ '\n')) (l := text.reverse)).length_le
  have characters := length_le_byteCount text
  rw [List.length_reverse] at shorter
  rw [columnBehind]
  omega

/-- A text without a newline stays on the line of the place that it stands behind. -/
theorem lineBehind_append {fragment : List Char} (onLine : '\n' ∉ fragment) (front : List Char) :
    lineBehind (front ++ fragment) = lineBehind front := by
  rw [lineBehind, lineBehind, List.count_append, List.count_eq_zero.mpr onLine, Nat.add_zero]

/-- A text without a newline moves the column by one for each of its characters. -/
theorem columnBehind_append {fragment : List Char} (onLine : '\n' ∉ fragment) (front : List Char) :
    columnBehind (front ++ fragment) = columnBehind front + fragment.length := by
  have inLine : ∀ c ∈ fragment.reverse, decide (c ≠ '\n') := by
    intro c member
    exact decide_eq_true (ne_of_mem_of_not_mem (List.mem_reverse.mp member) onLine)
  rw [columnBehind, columnBehind, List.reverse_append, List.takeWhile_append_of_pos inLine,
    List.length_append, List.length_reverse]
  omega

/-- A text has as many bytes as characters exactly when each of them takes one byte. -/
theorem byteCount_eq_length_iff {text : List Char} :
    byteCount text = text.length ↔ ∀ c ∈ text, c.utf8Size = 1 := by
  induction text with
  | nil => exact iff_of_true rfl (List.forall_mem_nil _)
  | cons c text inductionHypothesis =>
    have positive := c.utf8Size_pos
    have characters := length_le_byteCount text
    rw [byteCount, List.length_cons, List.forall_mem_cons, ← inductionHypothesis]
    omega

end Jack
