import Jack.Markup.Tree
import Jack.Proofs.Spelling
import Jack.Proofs.Stages

/-!
# Layout does not matter

Blanks and comments may be put in front of a source and behind each of its tokens. Such a source holds
the same words, though all tokens behind the place stand somewhere else. Parsing looks at words only, and
nothing behind it knows places, so the class, its markup and its code are the same.
-/

namespace Jack

/-- Blanks, line comments together with their newline, and block comments, in any order. -/
inductive Layout : List Char → Prop where
  | nil : Layout []
  | blank {c : Char} {rest : List Char} (blank : Text.isBlank c) (further : Layout rest) :
      Layout (c :: rest)
  | lineComment {body rest : List Char} (onLine : '\n' ∉ body) (further : Layout rest) :
      Layout ('/' :: '/' :: (body ++ '\n' :: rest))
  | blockComment {body rest : List Char} (inside : ¬ ['*', '/'] <:+: body) (further : Layout rest) :
      Layout ('/' :: '*' :: (body ++ '*' :: '/' :: rest))

/-- The place behind the first characters of a source, as many as the count says, is the end of one of
its tokens. Comments are blanked character by character, so the place is behind as many characters of
the source as of what is left of it, and there the token tells by its span where it ends. -/
def EndsToken (source : String) (count : Nat) : Prop :=
  ∃ stripped tokens token, stripComments source = .ok stripped ∧ tokenize stripped = .ok tokens ∧
    token ∈ tokens ∧
    byteCount (stripped.toList.take count) = token.span.offset + token.span.size

section Words

/-- Layout stands for nothing. -/
theorem Layout.holds {text rest : List Char} {words : List (TokenKind × String)}
    (layout : Layout text) (holds : Holds rest words) : Holds (text ++ rest) words := by
  induction layout with
  | nil => exact holds
  | blank blank further inductionHypothesis => exact .blank blank inductionHypothesis
  | @lineComment body others onLine further inductionHypothesis =>
    have inside : ∀ c ∈ body, isOnLine c := by
      intro c member
      have other : c ≠ '\n' := fun newline => onLine (newline ▸ member)
      simpa [isOnLine] using other
    have behind : Holds ('\n' :: (others ++ rest)) words := .blank (by decide) inductionHypothesis
    simpa using Holds.lineComment inside (by simp [isOnLine]) behind
  | blockComment inside further inductionHypothesis =>
    simpa using Holds.blockComment inside inductionHypothesis

variable {source : String}

/-- The words that a source holds are found in it. -/
theorem Holds.exists_tokenizeSource {words : List (TokenKind × String)}
    (holds : Holds source.toList words) :
    ∃ tokens, tokenizeSource source = .ok tokens ∧ tokens.map Token.word = words := by
  obtain ⟨stripped, strips, found⟩ := holds.exists_tokens
  obtain ⟨tokens, scanned, same⟩ := found .start
  refine ⟨tokens, tokenizeSource_eq_ok_iff.mpr ⟨String.ofList stripped, ?_, ?_⟩, same⟩
  · rw [stripComments, strips]
    rfl
  · rw [tokenize, scan, String.toList_ofList]
    exact scanned

/-- A source that is cut into tokens is taken apart behind each of them. -/
theorem divides_of_tokenize {stripped : String} {tokens : List Token}
    (strips : stripComments source = .ok stripped) (found : tokenize stripped = .ok tokens) :
    Divides source.toList stripped.toList .start tokens := by
  obtain ⟨text, blanked, rfl⟩ := map_eq_ok_iff.mp strips
  rw [tokenize, scan, String.toList_ofList] at found
  rw [String.toList_ofList]
  exact Blanks.divides ⟨.start, blanked⟩ found

/-- With layout put behind a token or in front of all, a source holds the same words. -/
theorem holds_insert {tokens : List Token} (found : tokenizeSource source = .ok tokens)
    {before after layout : List Char} (whole : source.toList = before ++ after)
    (place : before = [] ∨ EndsToken source before.length) (isLayout : Layout layout) :
    Holds (before ++ ' ' :: (layout ++ after)) (tokens.map Token.word) := by
  obtain ⟨stripped, strips, scanned⟩ := tokenizeSource_eq_ok_iff.mp found
  have divides := divides_of_tokenize strips scanned
  rcases place with rfl | ⟨_, _, token, stripsAgain, scannedAgain, member, place⟩
  · rw [List.nil_append] at whole
    rw [← whole]
    exact .blank (by decide) (isLayout.holds divides.whole)
  · rw [strips] at stripsAgain
    cases stripsAgain
    rw [scanned] at scannedAgain
    cases scannedAgain
    have offset : Position.start.offset + byteCount (stripped.toList.take before.length) =
        token.span.offset + token.span.size := by
      rw [← place]
      exact Nat.zero_add _
    obtain ⟨earlier, later, words, upTo, holds⟩ :=
      divides.behind token member before after whole offset
    rw [words]
    exact upTo _ _ (isLayout.holds holds)

end Words

section Parsing

variable {tokens others : List Token}

/-- Tokens with the same words are the same terminals. -/
theorem forall₂_is_of_words {terminals : List Terminal}
    (written : List.Forall₂ Token.Is tokens terminals)
    (words : others.map Token.word = tokens.map Token.word) :
    List.Forall₂ Token.Is others terminals := by
  induction written generalizing others with
  | nil =>
    rw [List.map_nil, List.map_eq_nil_iff] at words
    rw [words]
    exact .nil
  | cons is _ inductionHypothesis =>
    obtain ⟨token, rest, rfl, word, further⟩ := List.map_eq_cons_iff.mp words
    obtain ⟨kind, text⟩ := Prod.mk.inj word
    refine .cons ?_ (inductionHypothesis further)
    unfold Token.Is at is ⊢
    rwa [kind, text]

/-- Parsing depends on the words of the tokens alone. -/
theorem parseClass_of_words {declaration : ClassDeclaration}
    (parsed : Grammar.parseClass tokens = .ok declaration)
    (words : others.map Token.word = tokens.map Token.word) :
    Grammar.parseClass others = .ok declaration := by
  obtain ⟨named, written⟩ := Grammar.forall₂_of_parseClass parsed
  exact Grammar.parseClass_of_forall₂ named (forall₂_is_of_words written words)

end Parsing

/-- Layout that begins with a space may be put in front of a source that is compiled and behind each of
its tokens: its code, its class and the markup of its class stay the same. -/
theorem compileSource_ignores_layout {options : Options} {source text : String}
    {before after layout : List Char} (compiles : compileSource options source = .ok text)
    (whole : source.toList = before ++ after)
    (place : before = [] ∨ EndsToken source before.length) (isLayout : Layout layout) :
    let spaced := String.ofList (before ++ ' ' :: (layout ++ after))
    compileSource options spaced = .ok text ∧
    (∃ declaration, parseSource source = .ok declaration ∧ parseSource spaced = .ok declaration) ∧
    (·.markup.text) <$> parseSource spaced = (·.markup.text) <$> parseSource source := by
  intro spaced
  obtain ⟨declaration, code, parsed, lowered, rfl⟩ := compileSource_eq_ok_iff.mp compiles
  obtain ⟨tokens, found, made⟩ := parseSource_eq_ok_iff.mp parsed
  have holds : Holds spaced.toList (tokens.map Token.word) := by
    rw [String.toList_ofList]
    exact holds_insert found whole place isLayout
  obtain ⟨others, foundAgain, words⟩ := holds.exists_tokenizeSource
  have parsedAgain : parseSource spaced = .ok declaration :=
    parseSource_eq_ok_iff.mpr ⟨others, foundAgain, parseClass_of_words made words⟩
  refine ⟨?_, ⟨declaration, parsed, parsedAgain⟩, ?_⟩
  · exact compileSource_eq_ok_iff.mpr ⟨declaration, code, parsedAgain, lowered, rfl⟩
  · rw [parsedAgain, parsed]

/-- A quote, an open string and marks of comments inside other comments, put behind a name. -/
theorem compileSource_ignores_layout_marks :
    let source := "class A\x7bfunction void f()\x7b\x7d\x7d//'"
    let spaced := "class A\x7bfunction void f /*\"//*/\t//'/*\n()\x7b\x7d\x7d//'"
    let text := "function A.f 0\npush constant 0\nreturn\n"
    compileSource ⟨true⟩ source = .ok text ∧
      EndsToken source "class A\x7bfunction void f".toList.length ∧
      compileSource ⟨true⟩ spaced = .ok text := by
  intro source spaced text
  let token (kind : TokenKind) (text : String) (offset : Nat) : Token :=
    ⟨kind, text, ⟨offset, text.length, 1, offset + 1⟩⟩
  let tokens : List Token :=
    [token (.keyword .class) "class" 0, token .identifier "A" 6,
      token (.symbol .leftBrace) "\x7b" 7, token (.keyword .function) "function" 8,
      token (.keyword .void) "void" 17, token .identifier "f" 22, token (.symbol .leftParen) "(" 23,
      token (.symbol .rightParen) ")" 24, token (.symbol .leftBrace) "\x7b" 25,
      token (.symbol .rightBrace) "\x7d" 26, token (.symbol .rightBrace) "\x7d" 27]
  have compiles : compileSource ⟨true⟩ source = .ok text := by decide +kernel
  have place : EndsToken source "class A\x7bfunction void f".toList.length :=
    ⟨"class A\x7bfunction void f()\x7b\x7d\x7d   ", tokens, token .identifier "f" 22,
      by decide +kernel, by decide +kernel, by decide +kernel, by decide +kernel⟩
  have whole : source.toList =
      "class A\x7bfunction void f".toList ++ "()\x7b\x7d\x7d//'".toList := by
    decide +kernel
  have onLine : '\n' ∉ ['\'', '/', '*'] := by decide
  have inside : ¬ ['*', '/'] <:+: ['"', '/', '/'] := by decide
  have layout : Layout "/*\"//*/\t//'/*\n".toList :=
    .blockComment inside (.blank (by decide) (.lineComment onLine .nil))
  exact ⟨compiles, place, (compileSource_ignores_layout compiles whole (.inr place) layout).1⟩

end Jack
