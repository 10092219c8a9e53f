import Jack.Proofs.MarkupLeaves

/-!
# Reading markup back

A tree of markup can be told from its text, whatever its leaves hold. Tags have letters only, so a tag
ends at the first closing angle bracket. No text has an opening angle bracket in it, because that is
escaped, so a text ends where the next tag begins. Behind a tag a leaf goes on with a space and an element
with a newline, and a closing tag is told from a child by its slash or by its indentation.
-/

namespace Jack

namespace Markup

/-- A tag has letters only, and at least one. -/
def IsTag (tag : String) : Prop :=
  tag.toList ≠ [] ∧ ∀ c ∈ tag.toList, c.isAlpha

instance (tag : String) : Decidable (IsTag tag) :=
  decidable_of_iff (!tag.toList.isEmpty && tag.toList.all Char.isAlpha) (by simp [IsTag])

/-- The tags that classes and tokens are written with. -/
def tags : List String :=
  ["keyword", "symbol", "identifier", "integerConstant", "stringConstant", "class", "classVarDec",
    "subroutineDec", "parameterList", "subroutineBody", "varDec", "statements", "letStatement",
    "ifStatement", "whileStatement", "doStatement", "returnStatement", "expression", "term",
    "expressionList"]

theorem isTag_of_mem {tag : String} (member : tag ∈ tags) : IsTag tag := by
  have all : ∀ tag ∈ tags, IsTag tag := by decide
  exact all tag member

mutual

/-- All tags in a tree are tags of classes and tokens. -/
def IsPlain : Markup → Prop
  | .leaf tag _ => tag ∈ tags
  | .element tag children => tag ∈ tags ∧ ArePlain children

/-- All tags in trees that stand next to each other are tags of classes and tokens. -/
def ArePlain : List Markup → Prop
  | [] => True
  | child :: rest => child.IsPlain ∧ ArePlain rest

end

@[simp] theorem isPlain_leaf {tag text : String} : (leaf tag text).IsPlain ↔ tag ∈ tags := by
  rw [IsPlain]

@[simp] theorem isPlain_element {tag : String} {children : List Markup} :
    (element tag children).IsPlain ↔ tag ∈ tags ∧ ArePlain children := by
  rw [IsPlain]

@[simp] theorem arePlain_iff {children : List Markup} :
    ArePlain children ↔ ∀ child ∈ children, child.IsPlain := by
  induction children with
  | nil => simp [ArePlain]
  | cons child rest inductionHypothesis => rw [ArePlain, inductionHypothesis, List.forall_mem_cons]

section Characters

/-- The characters in front of a line that `depth` elements surround. -/
def spaces (depth : Nat) : List Char :=
  List.replicate (2 * depth) ' '

/-- The line that closes an element. -/
def closing (depth : Nat) (tag : String) : List Char :=
  spaces depth ++ '<' :: '/' :: (tag.toList ++ ['>', '\n'])

/-- The characters of a tree that `depth` elements surround. -/
def written (depth : Nat) (markup : Markup) : List Char :=
  (Text.unlines (markup.lines depth)).toList

/-- The characters of trees that stand next to each other. -/
def writtenChildren (depth : Nat) (children : List Markup) : List Char :=
  (Text.unlines (childLines depth children)).toList

theorem toList_unlines (lines : List String) :
    (Text.unlines lines).toList = lines.flatMap fun line => line.toList ++ ['\n'] := by
  simp [Text.unlines, String.toList_join, List.flatMap_map]

theorem toList_leafLine (tag text : String) :
    (leafLine tag text).toList = '<' :: (tag.toList ++ '>' :: ' ' ::
      (text.toList.flatMap escapeChar ++ ' ' :: '<' :: '/' :: (tag.toList ++ ['>']))) := by
  simp [leafLine, openingTag, closingTag, escape]

theorem closing_zero (tag : String) :
    closing 0 tag = '<' :: '/' :: (tag.toList ++ ['>', '\n']) := rfl

theorem written_leaf (depth : Nat) (tag text : String) :
    written depth (.leaf tag text) = spaces depth ++ '<' :: (tag.toList ++ '>' :: ' ' ::
      (text.toList.flatMap escapeChar ++ ' ' :: closing 0 tag)) := by
  simp [written, lines, toList_unlines, toList_leafLine, indent, spaces, closing]

theorem written_element (depth : Nat) (tag : String) (children : List Markup) :
    written depth (.element tag children) = spaces depth ++ '<' :: (tag.toList ++ '>' :: '\n' ::
      (writtenChildren (depth + 1) children ++ closing depth tag)) := by
  simp [written, writtenChildren, lines, toList_unlines, indent, openingTag, closingTag, spaces,
    closing]

theorem writtenChildren_cons (depth : Nat) (child : Markup) (rest : List Markup) :
    writtenChildren depth (child :: rest) =
      child.written depth ++ writtenChildren depth rest := by
  simp [written, writtenChildren, childLines, toList_unlines]

end Characters

section Splitting

/-- Two texts that are the same up to their first separators are the same behind them. -/
theorem append_cons_inj_of_not_mem {separator : Char} {first second rest other : List Char}
    (free : separator ∉ first) (clear : separator ∉ second)
    (same : first ++ separator :: rest = second ++ separator :: other) :
    first = second ∧ rest = other := by
  induction first generalizing second with
  | nil =>
    cases second with
    | nil => exact ⟨rfl, List.cons.inj same |>.2⟩
    | cons c second =>
      have head : separator = c := (List.cons.inj same).1
      exact absurd (head ▸ List.mem_cons_self) clear
  | cons c first inductionHypothesis =>
    cases second with
    | nil =>
      have head : c = separator := (List.cons.inj same).1
      exact absurd (head ▸ List.mem_cons_self) free
    | cons d second =>
      obtain ⟨heads, tails⟩ := List.cons.inj same
      obtain ⟨firsts, rests⟩ := inductionHypothesis (List.not_mem_of_not_mem_cons free)
        (List.not_mem_of_not_mem_cons clear) tails
      exact ⟨List.cons_eq_cons.mpr ⟨heads, firsts⟩, rests⟩

/-- A tag ends at the first closing angle bracket. -/
theorem IsTag.append_inj {tag other : String} (isTag : IsTag tag) (isOther : IsTag other)
    {rest behind : List Char} (same : tag.toList ++ '>' :: rest = other.toList ++ '>' :: behind) :
    tag = other ∧ rest = behind := by
  have letters : ∀ {tag}, IsTag tag → '>' ∉ tag.toList :=
    fun isTag member => by simpa using isTag.2 '>' member
  obtain ⟨tags, rests⟩ := append_cons_inj_of_not_mem (letters isTag) (letters isOther) same
  exact ⟨String.toList_inj.mp tags, rests⟩

/-- No character is written with an opening angle bracket. -/
theorem not_mem_escapeChar (c : Char) : '<' ∉ escapeChar c := by
  unfold escapeChar
  split
  case h_5 notOpening _ _ _ =>
    rw [List.mem_singleton]
    exact fun same => notOpening same.symm
  all_goals decide

/-- No character is written as the beginning of another. -/
theorem escapeChar_append_inj {c d : Char} {rest other : List Char}
    (same : escapeChar c ++ rest = escapeChar d ++ other) : c = d ∧ rest = other := by
  by_cases heads : c = d
  · rw [heads] at same
    exact ⟨heads, List.append_cancel_left same⟩
  · -- Names of characters begin with an ampersand, which has a name itself, and differ behind it.
    unfold escapeChar at same
    split at same <;> split at same <;> grind

/-- A text can be told from the way in which it is written. -/
theorem flatMap_escapeChar_inj {text other : List Char}
    (same : text.flatMap escapeChar = other.flatMap escapeChar) : text = other := by
  have nonempty : ∀ c, escapeChar c ≠ [] := by
    intro c
    unfold escapeChar
    split <;> simp
  induction text generalizing other with
  | nil =>
    cases other with
    | nil => rfl
    | cons d other => simp [nonempty d] at same
  | cons c text inductionHypothesis =>
    cases other with
    | nil => simp [nonempty c] at same
    | cons d other =>
      obtain ⟨heads, tails⟩ := escapeChar_append_inj same
      rw [heads, inductionHypothesis tails]

/-- A text ends where the next tag begins. -/
theorem flatMap_escapeChar_append_inj {text other : String} {rest behind : List Char}
    (same : text.toList.flatMap escapeChar ++ ' ' :: '<' :: rest =
      other.toList.flatMap escapeChar ++ ' ' :: '<' :: behind) : text = other ∧ rest = behind := by
  have free : ∀ text : String, '<' ∉ text.toList.flatMap escapeChar ++ [' '] := by
    intro text member
    rcases List.mem_append.mp member with inside | space
    · obtain ⟨c, _, within⟩ := List.mem_flatMap.mp inside
      exact not_mem_escapeChar c within
    · simp at space
  rw [List.append_cons, List.append_cons (other.toList.flatMap escapeChar)] at same
  obtain ⟨texts, rests⟩ := append_cons_inj_of_not_mem (free text) (free other) same
  have texts := flatMap_escapeChar_inj (List.append_cancel_right texts)
  exact ⟨String.toList_inj.mp texts, rests⟩

end Splitting

section Decoding

/-- The closing tag of an element is told from all that can follow its opening tag. -/
theorem closing_append_inj {depth : Nat} {tag other : String} (isTag : IsTag tag)
    (isOther : IsTag other) {rest behind : List Char}
    (same : closing depth tag ++ rest = closing depth other ++ behind) :
    tag = other ∧ rest = behind := by
  simp only [closing, List.append_assoc, List.cons_append, List.append_cancel_left_eq,
    List.cons.injEq, true_and] at same
  obtain ⟨tags, rests⟩ := isTag.append_inj isOther same
  exact ⟨tags, (List.cons.inj rests).2⟩

/-- A tree begins with its indentation and a tag. -/
theorem exists_written_eq {markup : Markup} (plain : markup.IsPlain) (depth : Nat) :
    ∃ c rest, markup.written depth = spaces depth ++ '<' :: c :: rest ∧ c ≠ '/' := by
  have letter : ∀ tag ∈ tags, ∃ c rest, tag.toList = c :: rest ∧ c ≠ '/' := by
    intro tag member
    obtain ⟨nonempty, letters⟩ := isTag_of_mem member
    obtain ⟨c, rest, split⟩ := List.exists_cons_of_ne_nil nonempty
    refine ⟨c, rest, split, ?_⟩
    rintro rfl
    simpa using letters '/' (by simp [split])
  cases markup with
  | leaf tag text =>
    obtain ⟨c, rest, split, other⟩ := letter tag (isPlain_leaf.mp plain)
    rw [written_leaf, split]
    exact ⟨c, _, rfl, other⟩
  | element tag children =>
    obtain ⟨c, rest, split, other⟩ := letter tag (isPlain_element.mp plain).1
    rw [written_element, split]
    exact ⟨c, _, rfl, other⟩

/-- The closing tag of an element is no child of it. -/
theorem closing_append_ne_written {outer depth : Nat} (inside : outer ≤ depth) (tag : String)
    {markup : Markup} (plain : markup.IsPlain) (rest behind : List Char) :
    closing outer tag ++ rest ≠ markup.written depth ++ behind := by
  intro same
  obtain ⟨c, more, written, other⟩ := exists_written_eq plain depth
  obtain ⟨deeper, rfl⟩ := Nat.exists_eq_add_of_le inside
  have split : spaces (outer + deeper) = spaces outer ++ spaces deeper := by
    rw [spaces, spaces, spaces, List.replicate_append_replicate, Nat.mul_add]
  rw [written, split, closing] at same
  simp only [List.append_assoc, List.cons_append, List.append_cancel_left_eq] at same
  -- At the same depth the slash tells them apart, and otherwise the indentation of the child does.
  cases deeper with
  | zero =>
    have second := (List.cons.inj (List.cons.inj same).2).1
    exact other second.symm
  | succ deeper =>
    have first : '<' = ' ' := (List.cons.inj same).1
    exact absurd first (by decide)

mutual

/-- A tree is told from the characters that begin with it. -/
theorem written_append_inj (markup other : Markup) (plain : markup.IsPlain)
    (isOther : other.IsPlain) {depth : Nat} {rest behind : List Char}
    (same : markup.written depth ++ rest = other.written depth ++ behind) :
    markup = other ∧ rest = behind := by
  cases markup with
  | leaf tag text =>
    have isTag := isTag_of_mem (isPlain_leaf.mp plain)
    cases other with
    | leaf tag' text' =>
      have isTag' := isTag_of_mem (isPlain_leaf.mp isOther)
      simp only [written_leaf, closing_zero, List.append_assoc, List.cons_append,
        List.append_cancel_left_eq, List.cons.injEq, true_and] at same
      obtain ⟨tags, behindTags⟩ := isTag.append_inj isTag' same
      obtain ⟨texts, behindTexts⟩ := flatMap_escapeChar_append_inj (List.cons.inj behindTags).2
      obtain ⟨_, rests⟩ := isTag.append_inj isTag' (List.cons.inj behindTexts).2
      exact ⟨by rw [tags, texts], (List.cons.inj rests).2⟩
    | element tag' children =>
      have isTag' := isTag_of_mem (isPlain_element.mp isOther).1
      simp only [written_leaf, written_element, List.append_assoc, List.cons_append,
        List.append_cancel_left_eq, List.cons.injEq, true_and] at same
      obtain ⟨_, behindTags⟩ := isTag.append_inj isTag' same
      exact absurd (List.cons.inj behindTags).1 (by decide)
  | element tag children =>
    obtain ⟨member, plain⟩ := isPlain_element.mp plain
    have isTag := isTag_of_mem member
    cases other with
    | leaf tag' text =>
      have isTag' := isTag_of_mem (isPlain_leaf.mp isOther)
      simp only [written_leaf, written_element, List.append_assoc, List.cons_append,
        List.append_cancel_left_eq, List.cons.injEq, true_and] at same
      obtain ⟨_, behindTags⟩ := isTag.append_inj isTag' same
      exact absurd (List.cons.inj behindTags).1 (by decide)
    | element tag' children' =>
      obtain ⟨member', areOthers⟩ := isPlain_element.mp isOther
      have isTag' := isTag_of_mem member'
      simp only [written_element, List.append_assoc, List.cons_append,
        List.append_cancel_left_eq, List.cons.injEq, true_and] at same
      obtain ⟨tags, behindTags⟩ := isTag.append_inj isTag' same
      obtain ⟨inner, _, rests⟩ := writtenChildren_append_inj children children' plain areOthers
        (Nat.le_succ depth) isTag isTag' (List.cons.inj behindTags).2
      exact ⟨by rw [tags, inner], rests⟩

/-- The trees inside an element are told from the characters up to its closing tag. -/
theorem writtenChildren_append_inj (children others : List Markup) (plain : ArePlain children)
    (areOthers : ArePlain others) {outer depth : Nat} (inside : outer ≤ depth)
    {tag other : String} (isTag : IsTag tag) (isOther : IsTag other) {rest behind : List Char}
    (same : writtenChildren depth children ++ (closing outer tag ++ rest) =
      writtenChildren depth others ++ (closing outer other ++ behind)) :
    children = others ∧ tag = other ∧ rest = behind := by
  cases children with
  | nil =>
    cases others with
    | nil => exact ⟨rfl, closing_append_inj isTag isOther same⟩
    | cons second others =>
      rw [ArePlain] at areOthers
      rw [writtenChildren_cons, List.append_assoc] at same
      exact absurd same (closing_append_ne_written inside tag areOthers.1 _ _)
  | cons child children =>
    rw [ArePlain] at plain
    rw [writtenChildren_cons, List.append_assoc] at same
    cases others with
    | nil => exact absurd same.symm (closing_append_ne_written inside other plain.1 _ _)
    | cons second others =>
      rw [ArePlain] at areOthers
      rw [writtenChildren_cons, List.append_assoc] at same
      obtain ⟨heads, tails⟩ := written_append_inj child second plain.1 areOthers.1 same
      obtain ⟨inner, tags, rests⟩ := writtenChildren_append_inj children others plain.2
        areOthers.2 inside isTag isOther tails
      exact ⟨by rw [heads, inner], tags, rests⟩

end

/-- A tree is told from its text. -/
theorem text_inj {markup other : Markup} (plain : markup.IsPlain) (isOther : other.IsPlain)
    (same : markup.text = other.text) : markup = other := by
  have characters : markup.written 0 ++ [] = other.written 0 ++ [] := by
    rw [written, written, ← text, ← text, same]
  exact (written_append_inj markup other plain isOther characters).1

end Decoding

section Plain

@[simp] theorem isPlain_ofKeyword (word : Keyword) : (ofKeyword word).IsPlain := by
  simp [ofKeyword, tags]

@[simp] theorem isPlain_ofSymbol (mark : Symbol) : (ofSymbol mark).IsPlain := by
  simp [ofSymbol, tags]

@[simp] theorem isPlain_ofName (name : String) : (ofName name).IsPlain := by
  simp [ofName, tags]

/-- Commas between plain trees are plain. -/
theorem isPlain_separated {groups : List (List Markup)}
    (each : ∀ group ∈ groups, ∀ child ∈ group, child.IsPlain) :
    ∀ child ∈ separated groups, child.IsPlain := by
  cases groups with
  | nil => exact List.forall_mem_nil _
  | cons first others =>
    rw [List.forall_mem_cons] at each
    rw [separated_cons, List.forall_mem_append]
    refine ⟨each.1, ?_⟩
    intro child member
    obtain ⟨other, among, member⟩ := List.mem_flatMap.mp member
    rcases List.mem_cons.mp member with rfl | within
    · exact isPlain_ofSymbol .comma
    · exact each.2 other among child within

end Plain

end Markup

open Markup

section Listings

/-- The leaves of a listing. -/
def tokenLeaves (tokens : List Token) : List Markup :=
  tokens.map fun token => .leaf token.kind.tag token.text

theorem TokenKind.tag_mem_tags (kind : TokenKind) : kind.tag ∈ tags := by
  cases kind <;> simp [TokenKind.tag, tags]

/-- A listing is an opening tag, its leaves without indentation, and a closing tag. -/
theorem toList_tokensText (tokens : List Token) :
    (tokensText tokens).toList =
      (openingTag "tokens").toList ++ '\n' ::
        (writtenChildren 0 (tokenLeaves tokens) ++ (closing 0 "tokens" ++ [])) := by
  have leaves : childLines 0 (tokenLeaves tokens) =
      tokens.map fun token => leafLine token.kind.tag token.text := by
    induction tokens with
    | nil => rfl
    | cons token tokens inductionHypothesis =>
      rw [tokenLeaves, List.map_cons, childLines, ← tokenLeaves, inductionHypothesis, lines]
      rfl
  simp [tokensText, writtenChildren, leaves, toList_unlines, closing_zero, closingTag]

/-- Listings are the same if and only if their leaves are. -/
theorem tokensText_eq_iff {first second : List Token} :
    tokensText first = tokensText second ↔ tokenLeaves first = tokenLeaves second := by
  rw [← String.toList_inj, toList_tokensText, toList_tokensText]
  constructor
  · intro same
    have plain : ∀ tokens, ArePlain (tokenLeaves tokens) := by
      intro tokens
      simp [tokenLeaves, TokenKind.tag_mem_tags]
    have isTag : IsTag "tokens" := by decide
    have behind := (List.cons.inj (List.append_cancel_left same)).2
    exact (writtenChildren_append_inj _ _ (plain first) (plain second) (Nat.le_refl 0) isTag isTag
      behind).1
  · intro same
    rw [same]

theorem tokenLeaves_eq_iff {first second : List Token} :
    tokenLeaves first = tokenLeaves second ↔
      first.map (fun token => (token.kind.tag, token.text)) =
        second.map (fun token => (token.kind.tag, token.text)) := by
  have leaves : ∀ tokens : List Token, tokenLeaves tokens =
      (tokens.map fun token => (token.kind.tag, token.text)).map
        fun shown => .leaf shown.1 shown.2 := by
    intro tokens
    rw [tokenLeaves, List.map_map]
    rfl
  rw [leaves, leaves]
  refine List.map_inj_right ?_
  intro one other same
  exact Prod.ext (Markup.leaf.inj same).1 (Markup.leaf.inj same).2

end Listings

end Jack
