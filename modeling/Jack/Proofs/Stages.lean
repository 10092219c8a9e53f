import Jack.Compiler
import Jack.Proofs.Completion
import Jack.Proofs.Lowering

/-!
# The stages of compilation

A source is compiled when it has tokens, the tokens make up a class and the class has code. Each
equivalence here says so for one part of the way. The tokens that make up a class are its yield, so
nothing that a class holds comes from anywhere else.
-/

namespace Jack

/-- Wording an error differently does not make a result. -/
theorem mapError_eq_ok_iff {ε ε' α : Type} {f : ε → ε'} {result : Except ε α} {value : α} :
    result.mapError f = .ok value ↔ result = .ok value := by
  cases result <;> simp [Except.mapError]

section Sources

variable {source : String} {declaration : ClassDeclaration} {options : Options} {text : String}

/-- The tokens of a source are those of what is left of it when its comments are blanked. -/
theorem tokenizeSource_eq_ok_iff {tokens : List Token} :
    tokenizeSource source = .ok tokens ↔
      ∃ stripped, stripComments source = .ok stripped ∧ tokenize stripped = .ok tokens :=
  bind_eq_ok_iff

theorem parsePlain_eq_ok_iff :
    parsePlain source = .ok declaration ↔
      ∃ tokens, tokenize source = .ok tokens ∧ Grammar.parseClass tokens = .ok declaration := by
  simp only [parsePlain, parseTokens, bind_eq_ok_iff, mapError_eq_ok_iff]

theorem parseSource_eq_ok_iff :
    parseSource source = .ok declaration ↔
      ∃ tokens, tokenizeSource source = .ok tokens ∧
        Grammar.parseClass tokens = .ok declaration := by
  simp only [parseSource, parseTokens, bind_eq_ok_iff, mapError_eq_ok_iff]

theorem compilePlain_eq_ok_iff :
    compilePlain options source = .ok text ↔
      ∃ declaration code, parsePlain source = .ok declaration ∧
        declaration.lower options = .ok code ∧ text = codeText code := by
  simp only [compilePlain, bind_eq_ok_iff, pure_eq_ok_iff, exists_and_left]

theorem compileSource_eq_ok_iff :
    compileSource options source = .ok text ↔
      ∃ declaration code, parseSource source = .ok declaration ∧
        declaration.lower options = .ok code ∧ text = codeText code := by
  simp only [compileSource, bind_eq_ok_iff, pure_eq_ok_iff, exists_and_left]

end Sources

namespace Grammar

open Jack.Parser

theorem reads_compilationUnit (bound : Nat) :
    Reads (compilationUnit bound) {declaration | declaration.NamesVariables} := by
  refine (reads_classDeclaration bound).bind fun declaration named => reads_bind fun next => ?_
  cases next with
  | none => exact reads_pure named
  | some token =>
    intro tokens value rest reads
    exact absurd reads refuse_ne_read

/-- The tokens of a class are its yield, and each of its declarations declares a variable. -/
theorem forall₂_of_parseClass {tokens : List Token} {declaration : ClassDeclaration}
    (parsed : parseClass tokens = .ok declaration) :
    declaration.NamesVariables ∧ List.Forall₂ Token.Is tokens declaration.yield := by
  unfold parseClass Cursor.parse at parsed
  cases outcome : run compilationUnit (Cursor.ofTokens tokens).unread with
  | refused expected rest =>
    rw [outcome] at parsed
    cases parsed
  | read result rest =>
    rw [outcome] at parsed
    cases parsed
    obtain ⟨front, split, each⟩ := (passes_of_compilationUnit outcome).exists_append
    have whole : tokens = front := split.trans (List.append_nil front)
    rw [whole]
    exact ⟨reads_compilationUnit _ outcome, each⟩

end Grammar

end Jack
