import Jack.Proofs.Literals
import Jack.Proofs.MarkupTree

/-!
# Lines of markup

Markup of a class is written line by line. Each line is an opening tag, a closing tag or a leaf, the
tags are nested, and the indentation of a line tells how many elements are open around it. The leaves
are the lines of the listing of the tokens that the class was read from, up to zeros in front of
numbers.
-/

namespace Jack

/-- A text is made of lines: each of them ends in a newline, and none has a newline in it. -/
def Text.IsLines (text : String) (lines : List String) : Prop :=
  text = unlines lines ∧ ∀ line ∈ lines, '\n' ∉ line.toList

/-- The text of a token, but a number without zeros in front of it. -/
def Token.shown (token : Token) : String :=
  if token.kind = .integerConstant then toString (Nat.ofDigitChars 10 token.text.toList 0)
  else token.text

namespace Markup

/-- A line inside the elements that are open: two spaces for each of them in front of its text. -/
def lineInside : List String → String → String
  | [], text => text
  | _ :: opened, text => "  " ++ lineInside opened text

/-- The lines that may follow while the elements `opened` are open, the innermost one first, and the
leaves among them without their indentation. At the end no element is open. -/
inductive Nested : List String → List String → List String → Prop where
  | done : Nested [] [] []
  | leaf {opened lines leaves : List String} {tag text : String} (isTag : IsTag tag)
      (further : Nested opened lines leaves) :
      Nested opened (lineInside opened (leafLine tag text) :: lines)
        (leafLine tag text :: leaves)
  | opening {opened lines leaves : List String} {tag : String} (isTag : IsTag tag)
      (further : Nested (tag :: opened) lines leaves) :
      Nested opened (lineInside opened (openingTag tag) :: lines) leaves
  | closing {opened lines leaves : List String} {tag : String} (isTag : IsTag tag)
      (further : Nested opened lines leaves) :
      Nested (tag :: opened) (lineInside opened (closingTag tag) :: lines) leaves

section Nesting

/-- Each element that is open takes the indentation one step further. -/
theorem lineInside_eq (opened : List String) (text : String) :
    lineInside opened text = indent opened.length ++ text := by
  induction opened with
  | nil => simp [lineInside, indent]
  | cons tag opened inductionHypothesis =>
    rw [lineInside, inductionHypothesis, ← String.toList_inj]
    simp [indent, Nat.mul_succ, List.replicate_succ]

/-- A leaf as it stands between its tags. -/
def shownLeaf (shown : String × String) : String :=
  leafLine shown.1 shown.2

mutual

/-- The lines of a tree may stand in front of lines that may follow. -/
theorem Nested.lines_append (markup : Markup) (plain : markup.IsPlain)
    {opened lines leaves : List String} (further : Nested opened lines leaves) :
    Nested opened (markup.lines opened.length ++ lines)
      (markup.leaves.map shownLeaf ++ leaves) := by
  cases markup with
  | leaf tag text =>
    rw [Markup.lines, Markup.leaves, ← lineInside_eq]
    exact .leaf (isTag_of_mem (isPlain_leaf.mp plain)) further
  | element tag children =>
    obtain ⟨member, plain⟩ := isPlain_element.mp plain
    have isTag := isTag_of_mem member
    -- The element is open around its children, and its closing tag ends it in front of what follows.
    have inside := Nested.childLines_append children plain (.closing isTag further)
    rw [Markup.lines, Markup.leaves, List.cons_append, List.cons_append, List.append_assoc,
      List.singleton_append, ← lineInside_eq, ← lineInside_eq]
    exact .opening isTag inside

theorem Nested.childLines_append (children : List Markup) (plain : ArePlain children)
    {opened lines leaves : List String} (further : Nested opened lines leaves) :
    Nested opened (childLines opened.length children ++ lines)
      ((childLeaves children).map shownLeaf ++ leaves) := by
  cases children with
  | nil => exact further
  | cons child rest =>
    rw [ArePlain] at plain
    have others := Nested.childLines_append rest plain.2 further
    rw [childLines, childLeaves, List.map_append, List.append_assoc, List.append_assoc]
    exact Nested.lines_append child plain.1 others

end

end Nesting

section Newlines

theorem IsTag.not_mem {tag : String} (isTag : IsTag tag) : '\n' ∉ tag.toList :=
  fun member => by simpa using isTag.2 '\n' member

/-- Indentation puts no newline into a line. -/
theorem not_mem_lineInside {text : String} (free : '\n' ∉ text.toList) (opened : List String) :
    '\n' ∉ (lineInside opened text).toList := by
  rw [lineInside_eq, String.toList_append, List.mem_append]
  exact not_or.mpr ⟨by simp [indent], free⟩

theorem not_mem_flatMap_escapeChar {text : List Char} (free : '\n' ∉ text) :
    '\n' ∉ text.flatMap escapeChar := by
  intro member
  obtain ⟨c, among, within⟩ := List.mem_flatMap.mp member
  have other : c ≠ '\n' := fun same => free (same ▸ among)
  unfold escapeChar at within
  split at within
  case h_5 => exact other (List.mem_singleton.mp within).symm
  all_goals exact absurd within (by decide)

/-- A leaf whose text has no newline is written on one line. -/
theorem not_mem_leafLine {tag text : String} (isTag : IsTag tag) (free : '\n' ∉ text.toList) :
    '\n' ∉ (leafLine tag text).toList := by
  have inside := not_mem_flatMap_escapeChar free
  simp [toList_leafLine, isTag.not_mem, inside]

/-- Nested lines have no newline in them if their leaves have none. -/
theorem Nested.not_mem {opened lines leaves : List String} (nested : Nested opened lines leaves)
    (free : ∀ leaf ∈ leaves, '\n' ∉ leaf.toList) : ∀ line ∈ lines, '\n' ∉ line.toList := by
  induction nested with
  | done => exact List.forall_mem_nil _
  | leaf isTag _ inductionHypothesis =>
    rw [List.forall_mem_cons] at free ⊢
    exact ⟨not_mem_lineInside free.1 _, inductionHypothesis free.2⟩
  | opening isTag _ inductionHypothesis =>
    rw [List.forall_mem_cons]
    refine ⟨not_mem_lineInside ?_ _, inductionHypothesis free⟩
    simp [openingTag, isTag.not_mem]
  | closing isTag _ inductionHypothesis =>
    rw [List.forall_mem_cons]
    refine ⟨not_mem_lineInside ?_ _, inductionHypothesis free⟩
    simp [closingTag, isTag.not_mem]

end Newlines

end Markup

open Markup

section Tokens

/-- Digits have no newline among them. -/
theorem not_mem_of_isDigit {digits : List Char} (all : ∀ c ∈ digits, Text.isDigit c) :
    '\n' ∉ digits :=
  fun member => absurd (all '\n' member) (by decide)

theorem TokenKind.Admits.not_mem {kind : TokenKind} {text : String} (admits : kind.Admits text) :
    '\n' ∉ text.toList := by
  cases kind with
  | keyword word =>
    rw [show text = word.spelling from admits]
    cases word <;> decide
  | symbol mark =>
    rw [show text = mark.spelling from admits]
    cases mark <;> decide
  | identifier =>
    intro member
    exact absurd (admits.2 '\n' member) (by decide)
  | integerConstant => exact not_mem_of_isDigit admits.2.1
  | stringConstant =>
    intro member
    exact absurd (admits.2 '\n' member).1 (by decide)

theorem Token.not_mem_shown {token : Token} (admits : token.kind.Admits token.text) :
    '\n' ∉ token.shown.toList := by
  unfold Token.shown
  split
  · exact not_mem_of_isDigit (Text.readDigits?_eq_some_iff.mp (Text.readDigits?_toString _)).2.1
  · exact admits.not_mem

/-- A token that is a terminal is shown as the leaf of the terminal. -/
theorem Token.Is.leaf_eq {token : Token} {terminal : Terminal} (is : token.Is terminal)
    (admits : token.kind.Admits token.text) : terminal.leaf = (token.kind.tag, token.shown) := by
  obtain ⟨kind, content⟩ := is
  rw [kind] at admits
  have shown : terminal.text = token.shown := by
    unfold Token.shown
    rw [kind]
    cases terminal with
    | keyword | symbol => exact admits.symm
    | identifier | string => exact content.symm
    | integer value =>
      have same : value.toNat = _ := content.unique (TokenKind.denotes_of_admits admits)
      exact congrArg toString same
  rw [Terminal.leaf, kind, shown]

/-- The tokens of a class are shown as the leaves of its terminals. -/
theorem map_leaf_of_forall₂ {tokens : List Token} {terminals : List Terminal}
    (admits : ∀ token ∈ tokens, token.kind.Admits token.text)
    (each : List.Forall₂ Token.Is tokens terminals) :
    terminals.map Terminal.leaf = tokens.map fun token => (token.kind.tag, token.shown) := by
  induction each with
  | nil => rfl
  | cons is _ inductionHypothesis =>
    rw [List.forall_mem_cons] at admits
    rw [List.map_cons, List.map_cons, is.leaf_eq admits.1, inductionHypothesis admits.2]

end Tokens

section Listings

variable {tokens : List Token}

/-- A listing of tokens whose texts have no newline is made of its tags and leaves. -/
theorem isLines_tokensText (admits : ∀ token ∈ tokens, token.kind.Admits token.text) :
    Text.IsLines (tokensText tokens)
      (openingTag "tokens" :: (tokens.map fun token => leafLine token.kind.tag token.text) ++
        [closingTag "tokens"]) := by
  refine ⟨rfl, ?_⟩
  rw [List.cons_append, List.forall_mem_cons, List.forall_mem_append, List.forall_mem_map,
    List.forall_mem_singleton]
  refine ⟨by decide, ?_, by decide⟩
  intro token member
  exact not_mem_leafLine (isTag_of_mem token.kind.tag_mem_tags) (admits token member).not_mem

/-- The lines of a class are nested, and its leaves are the tokens that it was read from. -/
theorem ClassDeclaration.nested_lines {declaration : ClassDeclaration}
    (admits : ∀ token ∈ tokens, token.kind.Admits token.text)
    (each : List.Forall₂ Token.Is tokens declaration.yield) :
    Nested [] (declaration.markup.lines 0)
      (tokens.map fun token => leafLine token.kind.tag token.shown) := by
  have nested := Nested.lines_append declaration.markup declaration.isPlain_markup .done
  rw [List.append_nil, List.append_nil, declaration.leaves_markup, map_leaf_of_forall₂ admits each,
    List.map_map] at nested
  exact nested

end Listings

/-- The markup of a class and the listing of the tokens that it was read from agree. The markup is made
of nested lines, and their leaves are the lines of the listing, but numbers have no zeros in front. -/
theorem markup_of_class_agrees_with_listing {source : String} {tokens : List Token}
    {declaration : ClassDeclaration} (found : tokenizeSource source = .ok tokens)
    (parsed : Grammar.parseClass tokens = .ok declaration) :
    ∃ lines, Text.IsLines declaration.markup.text lines ∧
      Nested [] lines (tokens.map fun token => leafLine token.kind.tag token.shown) ∧
      Text.IsLines (tokensText tokens)
        (openingTag "tokens" :: (tokens.map fun token => leafLine token.kind.tag token.text) ++
          [closingTag "tokens"]) := by
  obtain ⟨stripped, _, found⟩ := tokenizeSource_eq_ok_iff.mp found
  have admits := admits_of_tokenize found
  have nested := ClassDeclaration.nested_lines admits (Grammar.forall₂_of_parseClass parsed).2
  have free : ∀ line ∈ declaration.markup.lines 0, '\n' ∉ line.toList := by
    refine nested.not_mem ?_
    rw [List.forall_mem_map]
    intro token member
    exact not_mem_leafLine (isTag_of_mem token.kind.tag_mem_tags)
      (Token.not_mem_shown (admits token member))
  exact ⟨declaration.markup.lines 0, ⟨rfl, free⟩, nested, isLines_tokensText admits⟩

/-- Zeros in front of a number, a character and a string that has to be escaped. -/
theorem markup_of_class_agrees_with_listing_escaped :
    let source := "class A \x7b static int x; // none\n function int f(int a, char b) \x7b " ++
      "if (a < 007) \x7b do g('<', \"<&>\"); \x7d else \x7b \x7d return x[00]; \x7d \x7d"
    ∃ tokens declaration, tokenizeSource source = .ok tokens ∧
      Grammar.parseClass tokens = .ok declaration ∧
      ∃ lines, Text.IsLines declaration.markup.text lines ∧
        Nested [] lines (tokens.map fun token => leafLine token.kind.tag token.shown) ∧
        Text.IsLines (tokensText tokens)
          (openingTag "tokens" :: (tokens.map fun token => leafLine token.kind.tag token.text) ++
            [closingTag "tokens"]) := by
  intro source
  have succeeds : (parseSource source).isOk := by decide +kernel
  obtain ⟨declaration, read⟩ := exists_eq_ok_of_isOk succeeds
  obtain ⟨tokens, found, parsed⟩ := parseSource_eq_ok_iff.mp read
  exact ⟨tokens, declaration, found, parsed, markup_of_class_agrees_with_listing found parsed⟩

end Jack
