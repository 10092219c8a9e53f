import Jack.Proofs.GrammarSoundness
import Mathlib.Data.List.Forall2

/-!
# How far parsers look

What a parser does up to the token before which it stops depends on the tokens up to that one alone.
It depends neither on what comes later nor on the bound on repetition and nesting, if the bound is
at least the number of these tokens.
-/

namespace Jack

section Outcomes

variable {α : Type}

/-- The tokens that were left. -/
def Outcome.rest : Outcome α → List Token
  | .read _ rest | .refused _ rest => rest

/-- The same outcome with other tokens left. -/
def Outcome.leaving (rest : List Token) : Outcome α → Outcome α
  | .read value _ => .read value rest
  | .refused expected _ => .refused expected rest

@[simp] theorem Outcome.rest_leaving (outcome : Outcome α) (rest : List Token) :
    (outcome.leaving rest).rest = rest := by
  cases outcome <;> rfl

@[simp] theorem Outcome.leaving_leaving (outcome : Outcome α) (rest others : List Token) :
    (outcome.leaving rest).leaving others = outcome.leaving others := by
  cases outcome <;> rfl

end Outcomes

namespace Parser

section Combinators

variable {α β : Type} {size : Nat}

/-- The first parser leaves a final part of the tokens. Where it stops before the last of at most
`size` tokens, the second parser does the same, whatever follows them. -/
structure Local (size : Nat) (parser other : Parser α) : Prop where
  suffix : ∀ tokens, (parser tokens).rest <:+ tokens
  agrees : ∀ known tail seen : List Token, known.length ≤ size → seen ≠ [] →
    (parser (known ++ tail)).rest = seen ++ tail →
    ∀ more, other (known ++ more) = (parser (known ++ tail)).leaving (seen ++ more)

/-- No parser stops before the last of no tokens. -/
theorem known_ne_nil {known tail seen rest : List Token} (left : rest <:+ known ++ tail)
    (some : seen ≠ []) (stopped : rest = seen ++ tail) : known ≠ [] := by
  rintro rfl
  have shorter := left.length_le
  have positive := List.length_pos_iff.mpr some
  rw [stopped, List.nil_append, List.length_append] at shorter
  omega

theorem Local.mono {parser other : Parser α} (inside : Local size parser other) {smaller : Nat}
    (less : smaller ≤ size) : Local smaller parser other :=
  ⟨inside.suffix, fun known tail seen small =>
    inside.agrees known tail seen (Nat.le_trans small less)⟩

/-- About no tokens there is nothing to agree. -/
theorem Local.zero {parser other : Parser α} (inside : Local size parser other)
    (another : Parser α) : Local 0 parser another := by
  refine ⟨inside.suffix, ?_⟩
  intro known tail seen small some stopped
  exact absurd (List.length_eq_zero_iff.mp (Nat.le_zero.mp small))
    (known_ne_nil (inside.suffix _) some stopped)

/-- A parser that follows another one has the fewer tokens to look at the more were read. -/
theorem Local.bind_of_read {parser other : Parser α} {next follower : α → Parser β}
    (first : Local size parser other)
    (suffix : ∀ value tokens, (next value tokens).rest <:+ tokens)
    (further : ∀ token tail value rest, parser (token :: tail) = .read value rest →
      ∃ smaller, size + rest.length ≤ smaller + (tail.length + 1) ∧
        Local smaller (next value) (follower value)) :
    Local size (parser >>= next) (other >>= follower) := by
  have left : ∀ tokens, ((parser >>= next) tokens).rest <:+ tokens := by
    intro tokens
    have inside := first.suffix tokens
    cases outcome : parser tokens with
    | refused expected rest =>
      rw [bind_apply_of_refused outcome]
      rwa [outcome] at inside
    | read value rest =>
      rw [bind_apply_of_read outcome]
      rw [outcome] at inside
      exact (suffix value rest).trans inside
  refine ⟨left, ?_⟩
  intro known tail seen small some stopped more
  cases outcome : parser (known ++ tail) with
  | refused expected rest =>
    rw [bind_apply_of_refused outcome] at stopped ⊢
    have same := first.agrees known tail seen small some (by rw [outcome]; exact stopped) more
    rw [outcome] at same
    exact bind_apply_of_refused same follower
  | read value rest =>
    have nonempty := known_ne_nil (left _) some stopped
    rw [bind_apply_of_read outcome] at stopped ⊢
    -- What the first parser leaves reaches at least as far back as what is left in the end.
    obtain ⟨between, split⟩ := suffix value rest
    rw [stopped, ← List.append_assoc] at split
    have same := first.agrees known tail (between ++ seen) small (by simp [some])
      (by rw [outcome]; exact split.symm) more
    rw [outcome] at same
    rw [bind_apply_of_read same]
    obtain ⟨token, others, rfl⟩ := List.exists_cons_of_ne_nil nonempty
    obtain ⟨smaller, fewer, inside⟩ := further token (others ++ tail) value rest outcome
    subst split
    refine inside.agrees _ tail seen ?_ some stopped more
    simp only [List.length_append, List.length_cons] at fewer small ⊢
    omega

theorem Local.bind {parser other : Parser α} {next follower : α → Parser β}
    (first : Local size parser other)
    (further : ∀ value, Local size (next value) (follower value)) :
    Local size (parser >>= next) (other >>= follower) := by
  refine first.bind_of_read (fun value => (further value).suffix) ?_
  intro token tail value rest reads
  have shorter := (first.suffix (token :: tail)).length_le
  rw [reads] at shorter
  exact ⟨size, Nat.add_le_add_left shorter size, further value⟩

/-- A parser that decides by the next token, and reads that one or none, looks no further. -/
theorem local_of_cons {parser : Parser α} (ends : (parser []).rest = [])
    (decides : ∀ token, ∃ outcome : Outcome α,
      (∀ tail, parser (token :: tail) = outcome.leaving (token :: tail)) ∨
        ∀ tail, parser (token :: tail) = outcome.leaving tail) :
    Local size parser parser := by
  have left : ∀ tokens, (parser tokens).rest <:+ tokens := by
    intro tokens
    cases tokens with
    | nil => exact ⟨[], ends⟩
    | cons token tail =>
      obtain ⟨outcome, stays | moves⟩ := decides token
      · have kept : (parser (token :: tail)).rest = token :: tail := by simp [stays]
        exact ⟨[], kept⟩
      · have taken : (parser (token :: tail)).rest = tail := by simp [moves]
        exact ⟨[token], congrArg (token :: ·) taken⟩
  refine ⟨left, ?_⟩
  intro known tail seen _ some stopped more
  obtain ⟨token, others, rfl⟩ := List.exists_cons_of_ne_nil (known_ne_nil (left _) some stopped)
  simp only [List.cons_append] at stopped ⊢
  obtain ⟨outcome, stays | moves⟩ := decides token
  · rw [stays, Outcome.rest_leaving, ← List.cons_append] at stopped
    rw [stays, stays, Outcome.leaving_leaving, ← List.append_cancel_right stopped]
    rfl
  · rw [moves, Outcome.rest_leaving] at stopped
    rw [moves, moves, Outcome.leaving_leaving, ← List.append_cancel_right stopped]

theorem local_pure (value : α) : Local size (pure value) (pure value) :=
  local_of_cons rfl fun _ => ⟨.read value [], .inl fun _ => rfl⟩

theorem local_refuse (expected : Expectation) :
    Local size (refuse expected : Parser α) (refuse expected) :=
  local_of_cons rfl fun _ => ⟨.refused expected [], .inl fun _ => rfl⟩

theorem local_peek : Local size peek peek :=
  local_of_cons rfl fun token => ⟨.read (some token) [], .inl fun _ => rfl⟩

theorem local_peekKind : Local size peekKind peekKind :=
  local_of_cons rfl fun token => ⟨.read (some token.kind) [], .inl fun _ => rfl⟩

theorem local_accept (kind : TokenKind) : Local size (accept kind) (accept kind) := by
  refine local_of_cons rfl fun token => ?_
  by_cases same : token.kind = kind
  · exact ⟨.read true [], .inr fun _ => if_pos same⟩
  · exact ⟨.read false [], .inl fun _ => if_neg same⟩

theorem local_expectToken (kind : TokenKind) :
    Local size (expectToken kind) (expectToken kind) := by
  refine local_of_cons rfl fun token => ?_
  by_cases same : token.kind = kind
  · exact ⟨.read token [], .inr fun _ => if_pos same⟩
  · exact ⟨.refused (.kind kind) [], .inl fun _ => if_neg same⟩

theorem local_keyword (word : Keyword) : Local size (keyword word) (keyword word) :=
  (local_expectToken _).bind fun _ => local_pure _

theorem local_symbol (mark : Symbol) : Local size (symbol mark) (symbol mark) :=
  (local_expectToken _).bind fun _ => local_pure _

theorem local_identifier (purpose : Expectation) :
    Local size (identifier purpose) (identifier purpose) := by
  refine local_of_cons rfl fun token => ?_
  by_cases name : token.kind = .identifier
  · exact ⟨.read token.text [], .inr fun _ => if_pos name⟩
  · exact ⟨.refused purpose [], .inl fun _ => if_neg name⟩

theorem local_skip : Local size skip skip :=
  local_of_cons rfl fun _ => ⟨.read () [], .inr fun _ => rfl⟩

/-- Behind a token that is skipped there is one token less to look at. -/
theorem Local.skip {parser other : Parser α} (further : Local size parser other) :
    Local (size + 1) (do skip; parser) (do skip; other) := by
  refine local_skip.bind_of_read (fun _ => further.suffix) ?_
  intro token tail value rest skipped
  rw [skip_eq_read_iff, List.tail_cons] at skipped
  subst skipped
  exact ⟨size, by omega, further⟩

/-- A parser that nests less deep under a smaller bound does the same under all bounds that are
large enough. -/
theorem local_of_succ {parser : Nat → Parser α} (base : Local 0 (parser 0) (parser 0))
    (step : ∀ {size bound other}, Local size (parser bound) (parser other) → size ≤ bound →
      size ≤ other → Local (size + 1) (parser (bound + 1)) (parser (other + 1)))
    {bound other : Nat} (enough : size ≤ bound) (plenty : size ≤ other) :
    Local size (parser bound) (parser other) := by
  induction bound generalizing size other with
  | zero =>
    cases Nat.le_zero.mp enough
    exact base.zero _
  | succ bound inductionHypothesis =>
    cases size with
    | zero =>
      have inside := inductionHypothesis (Nat.zero_le bound) (Nat.zero_le bound)
      exact (step inside (Nat.zero_le bound) (Nat.zero_le bound)).zero _
    | succ size =>
      obtain ⟨other, rfl⟩ := Nat.exists_eq_add_one_of_ne_zero (by omega : other ≠ 0)
      rw [Nat.add_le_add_iff_right] at enough plenty
      exact step (inductionHypothesis enough plenty) enough plenty

/-- A value that yields something takes tokens. -/
theorem Sound.consumes {parser : Parser α} {yield : α → List Terminal}
    (sound : Sound parser yield) {value : α} (nonempty : yield value ≠ [])
    {tokens rest : List Token} (reads : parser tokens = .read value rest) :
    rest.length < tokens.length := by
  obtain ⟨front, rfl, each⟩ := (sound reads).exists_append
  have positive := List.length_pos_iff.mpr nonempty
  have same := each.length_eq
  rw [List.length_append]
  omega

section Choice

/-- Reads the next token and goes on as it says, unless something else was wanted. -/
def choose (absent : Expectation) (behind : Token → Except Expectation (Parser α)) : Parser α :=
  fun tokens =>
    match tokens with
    | [] => .refused absent []
    | token :: tail =>
      match behind token with
      | .ok parser => parser tail
      | .error expected => .refused expected tokens

variable {absent : Expectation} {behind other : Token → Except Expectation (Parser α)}
  {token : Token}

theorem choose_of_ok {parser : Parser α} (goesOn : behind token = .ok parser)
    (tail : List Token) : choose absent behind (token :: tail) = parser tail := by
  simp only [choose, goesOn]

theorem choose_of_error {expected : Expectation} (stops : behind token = .error expected)
    (tail : List Token) :
    choose absent behind (token :: tail) = .refused expected (token :: tail) := by
  simp only [choose, stops]

/-- Two choices that go on in the same way look at one token more. -/
theorem local_choose
    (each : ∀ token,
      (∃ parser another, behind token = .ok parser ∧ other token = .ok another ∧
        Local size parser another) ∨
      ∃ expected, behind token = .error expected ∧ other token = .error expected) :
    Local (size + 1) (choose absent behind) (choose absent other) := by
  have left : ∀ tokens, (choose absent behind tokens).rest <:+ tokens := by
    intro tokens
    cases tokens with
    | nil => exact List.suffix_rfl
    | cons token tail =>
      rcases each token with ⟨parser, _, goesOn, _, inside⟩ | ⟨expected, stops, _⟩
      · rw [choose_of_ok goesOn]
        exact (inside.suffix tail).trans (List.suffix_cons token tail)
      · rw [choose_of_error stops]
        exact List.suffix_rfl
  refine ⟨left, ?_⟩
  intro known tail seen small some stopped more
  obtain ⟨token, others, rfl⟩ := List.exists_cons_of_ne_nil (known_ne_nil (left _) some stopped)
  rw [List.cons_append] at stopped ⊢
  rw [List.cons_append]
  rcases each token with ⟨parser, another, goesOn, goesOn', inside⟩ | ⟨expected, stops, stops'⟩
  · rw [choose_of_ok goesOn] at stopped ⊢
    rw [choose_of_ok goesOn']
    exact inside.agrees others tail seen (Nat.le_of_succ_le_succ small) some stopped more
  · rw [choose_of_error stops] at stopped ⊢
    have same : token :: others = seen := List.append_cancel_right stopped
    rw [choose_of_error stops', ← same]
    rfl

end Choice

section Repetition

variable {item another : Parser (Option α)}

/-- An item that was read leaves fewer tokens to the repetition behind it. -/
theorem Local.many_step {smaller bound other : Nat}
    (first : Local size item another)
    (consumes : ∀ {tokens value rest}, item tokens = .read (some value) rest →
      rest.length < tokens.length)
    (more : Local smaller (many bound item) (many other another)) (fewer : size ≤ smaller + 1) :
    Local size (many (bound + 1) item) (many (other + 1) another) := by
  refine first.bind_of_read ?_ ?_
  · intro found tokens
    cases found with
    | none => exact (local_pure [] : Local size _ _).suffix tokens
    | some value => exact (more.bind fun _ => local_pure _).suffix tokens
  · intro token tail found rest reads
    have shorter := (first.suffix (token :: tail)).length_le
    rw [reads] at shorter
    cases found with
    | none => exact ⟨size, Nat.add_le_add_left shorter size, local_pure _⟩
    | some value =>
      have shorter : rest.length < tail.length + 1 := consumes reads
      exact ⟨smaller, by omega, more.bind fun _ => local_pure _⟩

/-- Repetition stops in the same way under every bound that is large enough. -/
theorem Local.many {bound other : Nat} (first : Local size item another)
    (consumes : ∀ {tokens value rest}, item tokens = .read (some value) rest →
      rest.length < tokens.length)
    (enough : size ≤ bound) (plenty : size ≤ other) :
    Local size (many bound item) (many other another) := by
  induction bound generalizing size other with
  | zero =>
    cases Nat.le_zero.mp enough
    exact (local_pure [] : Local 0 _ _).zero _
  | succ bound inductionHypothesis =>
    cases size with
    | zero =>
      have more := inductionHypothesis first (Nat.zero_le bound) (Nat.zero_le bound)
      exact (first.many_step consumes more (by omega)).zero _
    | succ size =>
      obtain ⟨other, rfl⟩ := Nat.exists_eq_add_one_of_ne_zero (by omega : other ≠ 0)
      have more := inductionHypothesis (first.mono (Nat.le_succ size))
        (Nat.le_of_succ_le_succ enough) (Nat.le_of_succ_le_succ plenty)
      exact first.many_step consumes more (Nat.le_refl _)

end Repetition

section Lists

variable {item another : Parser α} {bound other : Nat}

theorem Local.separated (each : Local size item another) (enough : size ≤ bound)
    (plenty : size ≤ other) : Local size (separated bound item) (separated other another) := by
  have announced : Local size
      (do if ← accept (.symbol .comma) then return some (← item) else return none)
      (do if ← accept (.symbol .comma) then return some (← another) else return none) := by
    refine (local_accept _).bind fun comma => ?_
    cases comma with
    | true => exact each.bind fun _ => local_pure _
    | false => exact local_pure _
  refine each.bind fun first => Local.bind (announced.many ?_ enough plenty) fun _ => local_pure _
  intro tokens value rest begins
  obtain ⟨comma, middle, accepted, reads⟩ := bind_eq_read_iff.mp begins
  rcases accept_eq_read_iff.mp accepted with ⟨rfl, token, _, rfl⟩ | ⟨rfl, _, rfl⟩
  · rw [if_pos rfl] at reads
    obtain ⟨found, last, next, reads⟩ := bind_eq_read_iff.mp reads
    cases reads
    have shorter := (each.suffix middle).length_le
    rw [next] at shorter
    exact Nat.lt_succ_of_le shorter
  · rw [if_neg Bool.false_ne_true] at reads
    cases reads

theorem Local.parenthesized (each : Local size item another) (enough : size ≤ bound)
    (plenty : size ≤ other) :
    Local size (parenthesized bound item) (parenthesized other another) := by
  refine local_peekKind.bind fun next => ?_
  split
  · exact local_pure _
  · exact each.separated enough plenty

end Lists

end Combinators

end Parser

namespace Grammar

open Jack.Parser

section Names

variable (expression : Parser Expression) (bound : Nat)

/-- How a call goes on behind its first name. -/
def callBehind (first : String) : Parser Call := do
  if ← accept (.symbol .dot) then
    let name ← identifier .subroutineName
    symbol .leftParen
    let arguments ← parenthesized bound expression
    symbol .rightParen
    return ⟨some first, name, arguments⟩
  else
    symbol .leftParen
    let arguments ← parenthesized bound expression
    symbol .rightParen
    return ⟨none, first, arguments⟩

theorem callOf_eq :
    callOf expression bound = identifier .calleeName >>= callBehind expression bound := rfl

/-- How a term goes on behind the name that it begins with. -/
def namedTermBehind (name : String) : Parser Term := do
  match ← peekKind with
  | some (.symbol .leftBracket) =>
    skip
    let index ← expression
    symbol .rightBracket
    return .element name index
  | some (.symbol .leftParen) | some (.symbol .dot) =>
    return .call (← callBehind expression bound name)
  | _ => return .name name

/-- Looking behind a name and then reading it is reading it and then looking at what is next. -/
theorem namedTerm_cons {token : Token} (name : token.kind = .identifier) (tail : List Token) :
    namedTerm expression bound token.text (token :: tail) =
      namedTermBehind expression bound token.text tail := by
  have second : peekSecondKind (token :: tail) = .read (nextKind tail) (token :: tail) :=
    peekSecondKind_eq_read_iff.mpr ⟨rfl, rfl⟩
  have first : identifier .calleeName (token :: tail) = .read token.text tail := if_pos name
  rw [namedTerm, bind_apply_of_read second, namedTermBehind,
    bind_apply_of_read (peekKind_apply tail)]
  have called : (do return .call (← callOf expression bound) : Parser Term) (token :: tail) =
      (do return .call (← callBehind expression bound token.text) : Parser Term) tail := by
    have reads := bind_apply_of_read first (callBehind expression bound)
    rw [callOf_eq]
    cases outcome : callBehind expression bound token.text tail with
    | read value rest =>
      rw [outcome] at reads
      rw [bind_apply_of_read reads, bind_apply_of_read outcome]
    | refused expected rest =>
      rw [outcome] at reads
      rw [bind_apply_of_refused reads, bind_apply_of_refused outcome]
  cases nextKind tail with
  | none => rfl
  | some kind =>
    cases kind with
    | symbol mark =>
      cases mark with
      | leftParen | dot => exact called
      | _ => rfl
    | _ => rfl

end Names

/-- How a term goes on behind its first token, unless no term begins with that. -/
def termBehind (bound : Nat) (token : Token) : Except Expectation (Parser Term) :=
  match token.kind with
  | .integerConstant =>
    match Text.readUnsigned? 65535 token.text with
    | some value => .ok (pure (.integer (.ofNat value)))
    | none => .error .integerConstant
  | .stringConstant => .ok (pure (.string token.text))
  | .keyword keyword =>
    match KeywordConstant.ofKeyword? keyword with
    | some constant => .ok (pure (.constant constant))
    | none => .error .term
  | .identifier => .ok (namedTermBehind (expression bound) bound token.text)
  | .symbol .leftParen => .ok do
    let inner ← expression bound
    symbol .rightParen
    return .group inner
  | .symbol mark =>
    match UnaryOperator.ofSymbol? mark with
    | some operator => .ok do return .unary operator (← term bound)
    | none => .error .term

/-- The first token tells how a term goes on. -/
theorem term_succ (bound : Nat) : term (bound + 1) = choose .term (termBehind bound) := by
  funext tokens
  cases tokens with
  | nil => rfl
  | cons token tail =>
    rw [term, bind_apply_of_read (peek_cons token tail)]
    simp only [choose, termBehind]
    cases kind : token.kind with
    | integerConstant =>
      simp only
      cases Text.readUnsigned? 65535 token.text <;> rfl
    | stringConstant => rfl
    | keyword word =>
      simp only
      cases KeywordConstant.ofKeyword? word <;> rfl
    | identifier => exact namedTerm_cons _ _ kind tail
    | symbol mark => cases mark <;> rfl

section Productions

variable {size bound other : Nat}

section Expressions

variable {term another : Parser Term}

theorem local_operation (inside : Local size term another) :
    Local (size + 1) (operation term) (operation another) := by
  refine local_peekKind.bind fun next => ?_
  cases binaryOperator? next with
  | none => exact local_pure _
  | some operator => exact (inside.bind fun _ => local_pure _).skip

theorem local_expressionOf (sound : Sound term Term.yield) (inside : Local size term another)
    (enough : size ≤ bound) (plenty : size ≤ other) :
    Local size (expressionOf term bound) (expressionOf another other) := by
  have operations : Local size (many bound (operation term)) (many other (operation another)) := by
    refine Local.many ((local_operation inside).mono (Nat.le_succ size)) ?_ enough plenty
    exact (sound_operation sound).consumes (by simp [yieldOption, yieldOperation])
  exact inside.bind fun _ => operations.bind fun _ => local_pure _

end Expressions

section Calls

variable {expression another : Parser Expression}

theorem local_arguments (inside : Local size expression another) (enough : size ≤ bound)
    (plenty : size ≤ other) (build : List Expression → Call) :
    Local size
      (do
        symbol .leftParen
        let arguments ← parenthesized bound expression
        symbol .rightParen
        return build arguments)
      (do
        symbol .leftParen
        let arguments ← parenthesized other another
        symbol .rightParen
        return build arguments) :=
  (local_symbol _).bind fun _ => (inside.parenthesized enough plenty).bind fun _ =>
    (local_symbol _).bind fun _ => local_pure _

theorem local_callBehind (inside : Local size expression another) (enough : size ≤ bound)
    (plenty : size ≤ other) (first : String) :
    Local size (callBehind expression bound first) (callBehind another other first) := by
  refine (local_accept _).bind fun dot => ?_
  cases dot with
  | true => exact (local_identifier _).bind fun _ => local_arguments inside enough plenty _
  | false => exact local_arguments inside enough plenty _

theorem local_namedTermBehind (inside : Local size expression another) (enough : size ≤ bound)
    (plenty : size ≤ other) (name : String) :
    Local size (namedTermBehind expression bound name) (namedTermBehind another other name) := by
  have called := local_callBehind inside enough plenty name
  refine local_peekKind.bind fun next => ?_
  split
  · exact local_skip.bind fun _ => inside.bind fun _ => (local_symbol _).bind fun _ => local_pure _
  · exact called.bind fun _ => local_pure _
  · exact called.bind fun _ => local_pure _
  · exact local_pure _

end Calls

theorem local_term_succ (inside : Local size (term bound) (term other)) (enough : size ≤ bound)
    (plenty : size ≤ other) : Local (size + 1) (term (bound + 1)) (term (other + 1)) := by
  have expressions := local_expressionOf (sound_term bound) inside enough plenty
  rw [term_succ, term_succ]
  refine local_choose fun token => ?_
  unfold termBehind
  cases token.kind with
  | integerConstant =>
    cases Text.readUnsigned? 65535 token.text with
    | none => exact .inr ⟨_, rfl, rfl⟩
    | some value => exact .inl ⟨_, _, rfl, rfl, local_pure _⟩
  | stringConstant => exact .inl ⟨_, _, rfl, rfl, local_pure _⟩
  | keyword word =>
    simp only
    cases KeywordConstant.ofKeyword? word with
    | none => exact .inr ⟨_, rfl, rfl⟩
    | some constant => exact .inl ⟨_, _, rfl, rfl, local_pure _⟩
  | identifier => exact .inl ⟨_, _, rfl, rfl, local_namedTermBehind expressions enough plenty _⟩
  | symbol mark =>
    by_cases parenthesis : mark = .leftParen
    · subst parenthesis
      exact .inl ⟨_, _, rfl, rfl, expressions.bind fun _ => (local_symbol _).bind fun _ =>
        local_pure _⟩
    · simp only
      cases UnaryOperator.ofSymbol? mark with
      | none => exact .inr ⟨_, rfl, rfl⟩
      | some operator => exact .inl ⟨_, _, rfl, rfl, inside.bind fun _ => local_pure _⟩

theorem local_term (enough : size ≤ bound) (plenty : size ≤ other) :
    Local size (term bound) (term other) :=
  local_of_succ (local_refuse .term) local_term_succ enough plenty

theorem local_expression (enough : size ≤ bound) (plenty : size ≤ other) :
    Local size (expression bound) (expression other) :=
  local_expressionOf (sound_term bound) (local_term enough plenty) enough plenty

theorem local_call (enough : size ≤ bound) (plenty : size ≤ other) :
    Local size (call bound) (call other) :=
  (local_identifier _).bind (local_callBehind (local_expression enough plenty) enough plenty)

section Statements

variable {statement another : Parser Statement}

theorem local_statementsOf (sound : Sound statement Statement.yield)
    (inside : Local size statement another) (enough : size ≤ bound) (plenty : size ≤ other) :
    Local size (statementsOf statement bound) (statementsOf another other) := by
  refine Local.many ?_ ?_ enough plenty
  · refine local_peekKind.bind fun next => ?_
    split
    · exact inside.bind fun _ => local_pure _
    · exact local_pure _
  · intro tokens value rest reads
    have nonempty : yieldOption Statement.yield (some value) ≠ [] := value.yield_ne_nil
    exact (sound_nextStatement sound).consumes nonempty reads

theorem local_condition (enough : size ≤ bound) (plenty : size ≤ other) :
    Local size (condition bound) (condition other) :=
  (local_symbol _).bind fun _ => (local_expression enough plenty).bind fun _ =>
    (local_symbol _).bind fun _ => local_pure _

theorem local_blockOf (sound : Sound statement Statement.yield)
    (inside : Local size statement another) (enough : size ≤ bound) (plenty : size ≤ other) :
    Local size (blockOf statement bound) (blockOf another other) :=
  (local_symbol _).bind fun _ => (local_statementsOf sound inside enough plenty).bind fun _ =>
    (local_symbol _).bind fun _ => local_pure _

theorem local_assignment (enough : size ≤ bound) (plenty : size ≤ other) :
    Local size (assignment bound) (assignment other) := by
  have value := local_expression enough plenty
  refine (local_identifier _).bind fun target => (local_accept _).bind fun bracket => ?_
  cases bracket with
  | true =>
    exact value.bind fun _ => (local_symbol _).bind fun _ => (local_symbol _).bind fun _ =>
      value.bind fun _ => (local_symbol _).bind fun _ => local_pure _
  | false =>
    exact (local_symbol _).bind fun _ => value.bind fun _ => (local_symbol _).bind fun _ =>
      local_pure _

theorem local_conditionalOf (sound : Sound statement Statement.yield)
    (inside : Local size statement another) (enough : size ≤ bound) (plenty : size ≤ other) :
    Local size (conditionalOf statement bound) (conditionalOf another other) := by
  have block := local_blockOf sound inside enough plenty
  refine (local_condition enough plenty).bind fun condition => block.bind fun body =>
    (local_accept _).bind fun alternative => ?_
  cases alternative with
  | true => exact block.bind fun _ => local_pure _
  | false => exact local_pure _

theorem local_loopOf (sound : Sound statement Statement.yield)
    (inside : Local size statement another) (enough : size ≤ bound) (plenty : size ≤ other) :
    Local size (loopOf statement bound) (loopOf another other) :=
  (local_condition enough plenty).bind fun _ =>
    (local_blockOf sound inside enough plenty).bind fun _ => local_pure _

theorem local_callStatement (enough : size ≤ bound) (plenty : size ≤ other) :
    Local size (callStatement bound) (callStatement other) :=
  (local_call enough plenty).bind fun _ => (local_symbol _).bind fun _ => local_pure _

theorem local_returnStatement (enough : size ≤ bound) (plenty : size ≤ other) :
    Local size (returnStatement bound) (returnStatement other) := by
  refine local_peekKind.bind fun next => ?_
  split
  · exact (local_symbol _).bind fun _ => local_pure _
  · exact (local_expression enough plenty).bind fun _ => (local_symbol _).bind fun _ =>
      local_pure _

end Statements

theorem local_statement_succ (inside : Local size (statement bound) (statement other))
    (enough : size ≤ bound) (plenty : size ≤ other) :
    Local (size + 1) (statement (bound + 1)) (statement (other + 1)) := by
  have sound := sound_statement bound
  refine local_peekKind.bind fun next => ?_
  split
  · exact (local_assignment enough plenty).skip
  · exact (local_conditionalOf sound inside enough plenty).skip
  · exact (local_loopOf sound inside enough plenty).skip
  · exact (local_callStatement enough plenty).skip
  · exact (local_returnStatement enough plenty).skip
  · exact local_refuse _

theorem local_statement (enough : size ≤ bound) (plenty : size ≤ other) :
    Local size (statement bound) (statement other) :=
  local_of_succ (local_refuse .statement) local_statement_succ enough plenty

theorem local_statements (enough : size ≤ bound) (plenty : size ≤ other) :
    Local size (statements bound) (statements other) :=
  local_statementsOf (sound_statement bound) (local_statement enough plenty) enough plenty

theorem local_dataType : Local size dataType dataType := by
  refine local_peek.bind fun next => ?_
  cases next with
  | none => exact local_refuse _
  | some token =>
    simp only
    split
    · exact local_skip.bind fun _ => local_pure _
    · exact local_skip.bind fun _ => local_pure _
    · exact local_skip.bind fun _ => local_pure _
    · exact local_skip.bind fun _ => local_pure _
    · exact local_refuse _

theorem local_variableGroup (enough : size ≤ bound) (plenty : size ≤ other) :
    Local size (variableGroup bound) (variableGroup other) :=
  local_dataType.bind fun _ => ((local_identifier _).separated enough plenty).bind fun _ =>
    (local_symbol _).bind fun _ => local_pure _

theorem local_classVariables (enough : size ≤ bound) (plenty : size ≤ other) :
    Local size (classVariables bound) (classVariables other) := by
  refine local_peekKind.bind fun next => ?_
  cases classVariableKind? next with
  | none => exact local_pure _
  | some kind =>
    exact local_skip.bind fun _ => (local_variableGroup enough plenty).bind fun _ => local_pure _

theorem local_localVariables (enough : size ≤ bound) (plenty : size ≤ other) :
    Local size (localVariables bound) (localVariables other) := by
  refine (local_accept _).bind fun present => ?_
  cases present with
  | true => exact (local_variableGroup enough plenty).bind fun _ => local_pure _
  | false => exact local_pure _

theorem local_subroutineBody (enough : size ≤ bound) (plenty : size ≤ other) :
    Local size (subroutineBody bound) (subroutineBody other) := by
  have groups : Local size (many bound (localVariables bound))
      (many other (localVariables other)) :=
    (local_localVariables enough plenty).many
      ((sound_localVariables bound).consumes (by simp [yieldOption, VariableGroup.yieldLocal]))
      enough plenty
  exact (local_symbol _).bind fun _ => groups.bind fun _ =>
    (local_statements enough plenty).bind fun _ => (local_symbol _).bind fun _ => local_pure _

theorem local_parameter : Local size parameter parameter :=
  local_dataType.bind fun _ => (local_identifier _).bind fun _ => local_pure _

theorem local_resultType : Local size resultType resultType := by
  refine (local_accept _).bind fun void => ?_
  cases void with
  | true => exact local_pure _
  | false => exact local_dataType.bind fun _ => local_pure _

theorem local_subroutine (enough : size ≤ bound) (plenty : size ≤ other) :
    Local size (subroutine bound) (subroutine other) := by
  refine local_peekKind.bind fun next => ?_
  cases subroutineKind? next with
  | none => exact local_pure _
  | some kind =>
    exact local_skip.bind fun _ => local_resultType.bind fun _ => (local_identifier _).bind fun _ =>
      (local_symbol _).bind fun _ => (local_parameter.parenthesized enough plenty).bind fun _ =>
      (local_symbol _).bind fun _ => (local_subroutineBody enough plenty).bind fun _ =>
      local_pure _

theorem local_classDeclaration (enough : size ≤ bound) (plenty : size ≤ other) :
    Local size (classDeclaration bound) (classDeclaration other) := by
  have groups : Local size (many bound (classVariables bound))
      (many other (classVariables other)) :=
    (local_classVariables enough plenty).many
      ((sound_classVariables bound).consumes (by simp [yieldOption, ClassVariableGroup.yield]))
      enough plenty
  have subroutines : Local size (many bound (subroutine bound)) (many other (subroutine other)) :=
    (local_subroutine enough plenty).many
      ((sound_subroutine bound).consumes (by simp [yieldOption, Subroutine.yield])) enough plenty
  exact (local_keyword _).bind fun _ => (local_identifier _).bind fun _ =>
    (local_symbol _).bind fun _ => groups.bind fun _ => subroutines.bind fun _ =>
    (local_symbol _).bind fun _ => local_pure _

theorem local_compilationUnit (enough : size ≤ bound) (plenty : size ≤ other) :
    Local size (compilationUnit bound) (compilationUnit other) := by
  refine (local_classDeclaration enough plenty).bind fun declaration =>
    local_peek.bind fun next => ?_
  cases next with
  | none => exact local_pure _
  | some token => exact local_refuse _

end Productions

end Grammar

end Jack
