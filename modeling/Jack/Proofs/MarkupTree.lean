import Jack.Proofs.GrammarCompleteness
import Jack.Proofs.MarkupText

/-!
# Trees told from their markup

Different classes have different markup, and so different texts. The leaves of statements are their
terminals, and statements are read back from these by the grammar. What a declaration adds is told from
the elements that it is written in, also where it declares nothing.
-/

namespace Jack

open Markup

section PlainTrees

mutual

theorem Expression.isPlain_operandMarkup (expression : Expression) :
    ∀ child ∈ expression.operandMarkup, child.IsPlain := by
  cases expression with
  | term only =>
    rw [Expression.operandMarkup, List.forall_mem_singleton]
    exact only.isPlain_markup
  | binary left operator right =>
    rw [Expression.operandMarkup, List.forall_mem_append]
    exact ⟨left.isPlain_operandMarkup, by simp [right.isPlain_markup]⟩

theorem Term.isPlain_markup (term : Term) : term.markup.IsPlain := by
  cases term with
  | integer | string | constant | name => simp [Term.markup, tags]
  | element array index =>
    have inside := index.isPlain_operandMarkup
    simpa [Term.markup, expressionElement, tags] using inside
  | call call =>
    have inside := call.isPlain_markup
    simpa [Term.markup, tags] using inside
  | unary operator operand =>
    have inside := operand.isPlain_markup
    simpa [Term.markup, tags] using inside
  | group inner =>
    have inside := inner.isPlain_operandMarkup
    simpa [Term.markup, expressionElement, tags] using inside

theorem Call.isPlain_markup (call : Call) : ∀ child ∈ call.markup, child.IsPlain := by
  cases call with
  | mk receiver name arguments =>
    have inside := isPlain_separated (isPlain_argumentMarkup arguments)
    cases receiver with
    | none => simpa [Call.markup, tags] using inside
    | some receiver => simpa [Call.markup, tags] using inside

theorem isPlain_argumentMarkup (arguments : List Expression) :
    ∀ group ∈ argumentMarkup arguments, ∀ child ∈ group, child.IsPlain := by
  cases arguments with
  | nil => exact List.forall_mem_nil _
  | cons argument rest =>
    have inside := argument.isPlain_operandMarkup
    rw [argumentMarkup, List.forall_mem_cons, List.forall_mem_singleton]
    refine ⟨?_, isPlain_argumentMarkup rest⟩
    simpa [expressionElement, tags] using inside

end

@[simp] theorem Expression.isPlain_markup (expression : Expression) :
    expression.markup.IsPlain := by
  have inside := expression.isPlain_operandMarkup
  simpa [Expression.markup, expressionElement, tags] using inside

mutual

theorem Statement.isPlain_markup (statement : Statement) : statement.markup.IsPlain := by
  cases statement with
  | assign | assignElement => simp [Statement.markup, tags]
  | ifThen condition body | whileLoop condition body =>
    have inside := isPlain_statementMarkup body
    simpa [Statement.markup, tags] using inside
  | ifElse condition body alternative =>
    have inside := isPlain_statementMarkup body
    have otherwise := isPlain_statementMarkup alternative
    simpa [Statement.markup, tags] using ⟨inside, otherwise⟩
  | perform call =>
    have inside := call.isPlain_markup
    rw [Statement.markup, isPlain_element, arePlain_iff, List.cons_append, List.forall_mem_cons,
      List.forall_mem_append, List.forall_mem_singleton]
    exact ⟨by simp [tags], isPlain_ofKeyword _, inside, isPlain_ofSymbol _⟩
  | «return» value => cases value <;> simp [Statement.markup, tags]

theorem isPlain_statementMarkup (statements : List Statement) :
    ∀ child ∈ statementMarkup statements, child.IsPlain := by
  cases statements with
  | nil => exact List.forall_mem_nil _
  | cons statement rest =>
    rw [statementMarkup, List.forall_mem_cons]
    exact ⟨statement.isPlain_markup, isPlain_statementMarkup rest⟩

end

theorem DataType.isPlain_markup (type : DataType) : type.markup.IsPlain := by
  cases type <;> simp [DataType.markup]

theorem VariableGroup.isPlain_markup (group : VariableGroup) :
    ∀ child ∈ group.markup, child.IsPlain := by
  have names : ∀ child ∈ separated (group.names.map fun name => [ofName name]), child.IsPlain :=
    isPlain_separated (by simp)
  rw [VariableGroup.markup, List.cons_append, List.forall_mem_cons, List.forall_mem_append,
    List.forall_mem_singleton]
  exact ⟨group.type.isPlain_markup, names, isPlain_ofSymbol _⟩

theorem SubroutineBody.isPlain_markup (body : SubroutineBody) : body.markup.IsPlain := by
  have locals : ∀ child ∈ body.locals.map VariableGroup.localMarkup, child.IsPlain := by
    intro child member
    obtain ⟨group, _, rfl⟩ := List.mem_map.mp member
    have inside := group.isPlain_markup
    simpa [VariableGroup.localMarkup, tags] using inside
  have statements := isPlain_statementMarkup body.statements
  rw [SubroutineBody.markup, isPlain_element, arePlain_iff, List.cons_append, List.forall_mem_cons,
    List.forall_mem_append]
  exact ⟨by simp [tags], isPlain_ofSymbol _, locals, by simpa [tags] using statements⟩

theorem Subroutine.isPlain_markup (subroutine : Subroutine) : subroutine.markup.IsPlain := by
  have result : (resultMarkup subroutine.result).IsPlain := by
    cases subroutine.result with
    | none => exact isPlain_ofKeyword _
    | some type => exact type.isPlain_markup
  have parameters : ∀ child ∈ separated (subroutine.parameters.map fun parameter =>
      [parameter.type.markup, ofName parameter.name]), child.IsPlain :=
    isPlain_separated (by simp [DataType.isPlain_markup])
  have body := subroutine.body.isPlain_markup
  simpa [Subroutine.markup, tags] using ⟨result, parameters, body⟩

/-- The markup of a class is plain, whatever its names and strings are. -/
theorem ClassDeclaration.isPlain_markup (declaration : ClassDeclaration) :
    declaration.markup.IsPlain := by
  have groups : ∀ group ∈ declaration.variableGroups, group.markup.IsPlain := by
    intro group _
    have inside := group.group.isPlain_markup
    simpa [ClassVariableGroup.markup, tags] using inside
  have subroutines : ∀ subroutine ∈ declaration.subroutines, subroutine.markup.IsPlain :=
    fun subroutine _ => subroutine.isPlain_markup
  simp only [ClassDeclaration.markup, isPlain_element, arePlain_iff, List.forall_mem_append,
    List.forall_mem_map]
  exact ⟨by simp [tags], ⟨⟨by simp, groups⟩, subroutines⟩, by simp⟩

end PlainTrees

section Terminals

/-- A terminal is told from its leaf. -/
theorem Terminal.leaf_injective : Function.Injective Terminal.leaf := by
  intro first second same
  obtain ⟨tags, texts⟩ := Prod.mk.inj same
  cases first with
  | keyword word =>
    cases second with
    | keyword other => rw [Keyword.spelling_injective texts]
    | _ => simp [Terminal.kind, TokenKind.tag] at tags
  | symbol mark =>
    cases second with
    | symbol other => rw [Symbol.spelling_injective texts]
    | _ => simp [Terminal.kind, TokenKind.tag] at tags
  | identifier name =>
    cases second with
    | identifier other => exact congrArg Terminal.identifier texts
    | _ => simp [Terminal.kind, TokenKind.tag] at tags
  | integer value =>
    cases second with
    | integer other =>
      have digits := congrArg (fun text => Text.readDigits? text.toList) texts
      simp only [Terminal.text, Text.readDigits?_toString, Option.some.injEq] at digits
      rw [UInt16.toNat_inj.mp digits]
    | _ => simp [Terminal.kind, TokenKind.tag] at tags
  | string text =>
    cases second with
    | string other => exact congrArg Terminal.string texts
    | _ => simp [Terminal.kind, TokenKind.tag] at tags

/-- Statements are told from their terminals, because the grammar reads them back. -/
theorem yieldStatements_injective : Function.Injective yieldStatements := by
  intro first second same
  obtain ⟨tokens, each⟩ := exists_tokens (yieldStatements first)
  have passes : Passes (tokens ++ []) (yieldStatements first) [] := Passes.of_forall₂ each
  have ends : Grammar.EndsStatements (nextKind []) := ⟨rfl, nofun⟩
  have reads := Grammar.recovers_statements _ first (Nat.le_refl _) passes ends
  rw [same] at passes reads
  rw [Grammar.recovers_statements _ second (Nat.le_refl _) passes ends] at reads
  cases reads
  rfl

end Terminals

section Trees

theorem statementMarkup_injective : Function.Injective statementMarkup := by
  intro first second same
  have leaves := congrArg childLeaves same
  rw [childLeaves_statementMarkup, childLeaves_statementMarkup] at leaves
  exact yieldStatements_injective (List.map_injective_iff.mpr Terminal.leaf_injective leaves)

/-- Parts of one size are told from their concatenation. -/
theorem flatMap_inj_of_length {α β : Type} {part : α → List β} {size : Nat}
    (sizes : ∀ value, (part value).length = size + 1) (injective : Function.Injective part)
    {first second : List α} (same : first.flatMap part = second.flatMap part) : first = second := by
  have nonempty : ∀ value, part value ≠ [] :=
    fun value => List.ne_nil_of_length_eq_add_one (sizes value)
  induction first generalizing second with
  | nil =>
    cases second with
    | nil => rfl
    | cons other others => exact absurd (List.append_eq_nil_iff.mp same.symm).1 (nonempty other)
  | cons value values inductionHypothesis =>
    cases second with
    | nil => exact absurd (List.append_eq_nil_iff.mp same).1 (nonempty value)
    | cons other others =>
      rw [List.flatMap_cons, List.flatMap_cons] at same
      obtain ⟨heads, tails⟩ := List.append_inj same ((sizes value).trans (sizes other).symm)
      rw [injective heads, inductionHypothesis tails]

/-- Groups of one size are told from what is written between commas. -/
theorem separated_map_inj {α : Type} {group : α → List Markup} (size : Nat)
    (sizes : ∀ value, (group value).length = size + 1) (injective : Function.Injective group)
    {first second : List α} (same : separated (first.map group) = separated (second.map group)) :
    first = second := by
  have nonempty : ∀ value, group value ≠ [] :=
    fun value => List.ne_nil_of_length_eq_add_one (sizes value)
  cases first with
  | nil =>
    cases second with
    | nil => rfl
    | cons other others =>
      rw [List.map_cons, separated_cons] at same
      exact absurd (List.append_eq_nil_iff.mp same.symm).1 (nonempty other)
  | cons value values =>
    rw [List.map_cons, separated_cons] at same
    cases second with
    | nil => exact absurd (List.append_eq_nil_iff.mp same).1 (nonempty value)
    | cons other others =>
      rw [List.map_cons, separated_cons, List.flatMap_map, List.flatMap_map] at same
      obtain ⟨heads, tails⟩ := List.append_inj same ((sizes value).trans (sizes other).symm)
      have behindComma : Function.Injective fun value => ofSymbol .comma :: group value :=
        fun _ _ same => injective (List.cons.inj same).2
      have longer : ∀ value, (ofSymbol .comma :: group value).length = (size + 1) + 1 :=
        fun value => congrArg (· + 1) (sizes value)
      rw [injective heads, flatMap_inj_of_length longer behindComma tails]

theorem ofName_injective : Function.Injective ofName :=
  fun _ _ same => (Markup.leaf.inj same).2

theorem ofKeyword_injective : Function.Injective ofKeyword :=
  fun _ _ same => Keyword.spelling_injective (Markup.leaf.inj same).2

/-- A type is told from its leaf, also where a class is named like a type. -/
theorem DataType.markup_injective : Function.Injective DataType.markup := by
  intro first second same
  cases first <;> cases second <;> simp_all [DataType.markup, ofKeyword, ofName, Keyword.spelling]

theorem resultMarkup_injective : Function.Injective resultMarkup := by
  intro first second same
  have absent : ∀ type : DataType, type.markup ≠ ofKeyword .void := by
    intro type same
    cases type <;> simp [DataType.markup, ofKeyword, ofName, Keyword.spelling] at same
  cases first with
  | none =>
    cases second with
    | none => rfl
    | some type => exact absurd same.symm (absent type)
  | some type =>
    cases second with
    | none => exact absurd same (absent type)
    | some other => rw [DataType.markup_injective same]

theorem ClassVariableKind.keyword_injective : Function.Injective ClassVariableKind.keyword := by
  intro first second same
  cases first <;> cases second <;> simp_all [ClassVariableKind.keyword]

theorem SubroutineKind.keyword_injective : Function.Injective SubroutineKind.keyword := by
  intro first second same
  cases first <;> cases second <;> simp_all [SubroutineKind.keyword]

theorem VariableGroup.markup_injective : Function.Injective VariableGroup.markup := by
  rintro ⟨type, names⟩ ⟨type', names'⟩ same
  obtain ⟨types, behind⟩ := List.cons.inj same
  have single : Function.Injective fun name => [ofName name] :=
    fun _ _ same => ofName_injective (List.cons.inj same).1
  rw [VariableGroup.mk.injEq]
  exact ⟨DataType.markup_injective types,
    separated_map_inj 0 (fun _ => rfl) single (List.append_cancel_right behind)⟩

theorem ClassVariableGroup.markup_injective : Function.Injective ClassVariableGroup.markup := by
  rintro ⟨kind, group⟩ ⟨kind', group'⟩ same
  obtain ⟨kinds, groups⟩ := List.cons.inj (Markup.element.inj same).2
  rw [ClassVariableGroup.mk.injEq]
  exact ⟨ClassVariableKind.keyword_injective (ofKeyword_injective kinds),
    VariableGroup.markup_injective groups⟩

theorem VariableGroup.localMarkup_injective : Function.Injective VariableGroup.localMarkup :=
  fun _ _ same => VariableGroup.markup_injective (List.cons.inj (Markup.element.inj same).2).2

theorem SubroutineBody.markup_injective : Function.Injective SubroutineBody.markup := by
  rintro ⟨locals, statements⟩ ⟨locals', statements'⟩ same
  obtain ⟨_, behind⟩ := List.cons.inj (Markup.element.inj same).2
  obtain ⟨declared, rest⟩ := List.append_inj' behind rfl
  have bodies := (Markup.element.inj (List.cons.inj rest).1).2
  rw [SubroutineBody.mk.injEq]
  exact ⟨List.map_injective_iff.mpr VariableGroup.localMarkup_injective declared,
    statementMarkup_injective bodies⟩

theorem Subroutine.markup_injective : Function.Injective Subroutine.markup := by
  rintro ⟨kind, result, name, parameters, body⟩ ⟨kind', result', name', parameters', body'⟩ same
  simp only [Subroutine.markup, Markup.element.injEq, List.cons.injEq, true_and, and_true] at same
  obtain ⟨kinds, results, names, lists, bodies⟩ := same
  have pair : Function.Injective fun parameter : Variable =>
      [parameter.type.markup, ofName parameter.name] := by
    rintro ⟨type, name⟩ ⟨type', name'⟩ same
    obtain ⟨types, rest⟩ := List.cons.inj same
    rw [Variable.mk.injEq]
    exact ⟨DataType.markup_injective types, ofName_injective (List.cons.inj rest).1⟩
  rw [Subroutine.mk.injEq]
  exact ⟨SubroutineKind.keyword_injective (ofKeyword_injective kinds),
    resultMarkup_injective results, ofName_injective names,
    separated_map_inj 1 (fun _ => rfl) pair lists, SubroutineBody.markup_injective bodies⟩

/-- Elements of two kinds that follow each other are told apart. -/
theorem map_append_map_inj {α β γ : Type} {one : α → γ} {two : β → γ}
    (apart : ∀ value other, one value ≠ two other) {first second : List α} {others more : List β}
    (same : first.map one ++ others.map two = second.map one ++ more.map two) :
    first.map one = second.map one ∧ others.map two = more.map two := by
  induction first generalizing second with
  | nil =>
    cases second with
    | nil => exact ⟨rfl, same⟩
    | cons value values =>
      cases others with
      | nil => cases same
      | cons other others => exact absurd (List.cons.inj same).1.symm (apart value other)
  | cons value values inductionHypothesis =>
    cases second with
    | nil =>
      cases more with
      | nil => cases same
      | cons other more => exact absurd (List.cons.inj same).1 (apart value other)
    | cons value' values' =>
      obtain ⟨heads, tails⟩ := List.cons.inj same
      obtain ⟨firsts, rests⟩ := inductionHypothesis tails
      exact ⟨List.cons_eq_cons.mpr ⟨heads, firsts⟩, rests⟩

/-- A class is told from its markup. -/
theorem ClassDeclaration.markup_injective : Function.Injective ClassDeclaration.markup := by
  rintro ⟨name, groups, subroutines⟩ ⟨name', groups', subroutines'⟩ same
  have children := (Markup.element.inj same).2
  have parts := List.append_cancel_right children
  rw [List.append_assoc, List.append_assoc] at parts
  obtain ⟨opening, members⟩ := List.append_inj parts rfl
  have apart : ∀ (group : ClassVariableGroup) (subroutine : Subroutine),
      group.markup ≠ subroutine.markup := by
    intro group subroutine same
    exact absurd (Markup.element.inj same).1 (by decide)
  obtain ⟨declared, defined⟩ := map_append_map_inj apart members
  have names := ofName_injective (List.cons.inj (List.cons.inj opening).2).1
  rw [ClassDeclaration.mk.injEq]
  exact ⟨names, List.map_injective_iff.mpr ClassVariableGroup.markup_injective declared,
    List.map_injective_iff.mpr Subroutine.markup_injective defined⟩

end Trees

/-- The text of its markup tells a class, whatever names and strings it has, and the text of a listing
tells the tags and the texts of its tokens and nothing else. -/
theorem markup_texts_tell_trees_and_tokens :
    (∀ first second : ClassDeclaration, first.markup.text = second.markup.text ↔ first = second) ∧
    ∀ first second : List Token, tokensText first = tokensText second ↔
      first.map (fun token => (token.kind.tag, token.text)) =
        second.map (fun token => (token.kind.tag, token.text)) := by
  constructor
  · intro first second
    constructor
    · intro same
      exact ClassDeclaration.markup_injective
        (Markup.text_inj first.isPlain_markup second.isPlain_markup same)
    · rintro rfl
      rfl
  · intro first second
    rw [tokensText_eq_iff, tokenLeaves_eq_iff]

end Jack
