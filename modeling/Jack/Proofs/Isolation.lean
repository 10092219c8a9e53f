import Jack.Proofs.Lowering
import Mathlib.Data.List.Perm.Basic

/-!
# Subroutines are compiled in isolation

Each subroutine of a class is entered from the scope that the one before it leaves behind. That scope
differs from the scope of the class only in what entering a subroutine replaces, so the code of a
subroutine is the same as in a class that has no other. The code of a class is put together from these
pieces, and its error is the error of the first subroutine that has none.
-/

namespace Jack

section Subroutines

variable {options : Options} {scope : Scope}

/-- The code of one subroutine stands alone. -/
theorem lowerSubroutines_singleton (options : Options) (scope : Scope) (subroutine : Subroutine) :
    lowerSubroutines options scope [subroutine] = subroutine.lower options scope := by
  rw [lowerSubroutines]
  cases subroutine.lower options scope with
  | error error => rfl
  | ok block => exact congrArg Except.ok (List.append_nil block)

/-- Subroutines fail with the first of them, or when the first has code, with the others. -/
theorem lowerSubroutines_cons_eq_error_iff {subroutine : Subroutine} {rest : List Subroutine}
    {error : CompileError} :
    lowerSubroutines options scope (subroutine :: rest) = .error error ↔
      subroutine.lower options scope = .error error ∨
        (∃ block, subroutine.lower options scope = .ok block) ∧
          lowerSubroutines options (subroutine.scopeIn scope).1 rest = .error error := by
  rw [lowerSubroutines]
  cases subroutine.lower options scope with
  | error other => simp [bind, Except.bind]
  | ok block =>
    cases lowerSubroutines options (subroutine.scopeIn scope).1 rest <;>
      simp [bind, Except.bind, pure, Except.pure]

/-- Subroutines that have code have it together: the blocks one after the other. -/
theorem lowerSubroutines_of_blocks {subroutines : List Subroutine}
    {block : Subroutine → List Instruction}
    (each : ∀ subroutine ∈ subroutines, subroutine.lower options scope = .ok (block subroutine)) :
    lowerSubroutines options scope subroutines = .ok (subroutines.flatMap block) := by
  induction subroutines generalizing scope with
  | nil => rfl
  | cons subroutine rest inductionHypothesis =>
    rw [List.forall_mem_cons] at each
    refine lowerSubroutines_cons_eq_ok_iff.mpr ⟨_, _, each.1, inductionHypothesis ?_, rfl⟩
    intro other member
    rw [Subroutine.lower_scopeIn]
    exact each.2 other member

/-- When subroutines have code together, each of them has code. -/
theorem exists_block_of_mem {subroutines : List Subroutine} {code : List Instruction}
    (lowered : lowerSubroutines options scope subroutines = .ok code) :
    ∀ subroutine ∈ subroutines, ∃ block, subroutine.lower options scope = .ok block := by
  induction subroutines generalizing scope code with
  | nil => simp
  | cons subroutine rest inductionHypothesis =>
    obtain ⟨block, restCode, first, others, rfl⟩ := lowerSubroutines_cons_eq_ok_iff.mp lowered
    have later := inductionHypothesis others
    simp only [Subroutine.lower_scopeIn] at later
    rw [List.forall_mem_cons]
    exact ⟨⟨block, first⟩, later⟩

/-- When subroutines have no code together, the first that has none by itself tells why. -/
theorem exists_first_failing {subroutines : List Subroutine} {error : CompileError}
    (failed : lowerSubroutines options scope subroutines = .error error) :
    ∃ before failing after, subroutines = before ++ failing :: after ∧
      (∀ subroutine ∈ before, ∃ block, subroutine.lower options scope = .ok block) ∧
      failing.lower options scope = .error error := by
  induction subroutines generalizing scope with
  | nil => cases failed
  | cons subroutine rest inductionHypothesis =>
    obtain fails | ⟨succeeds, later⟩ := lowerSubroutines_cons_eq_error_iff.mp failed
    · exact ⟨[], subroutine, rest, rfl, by simp, fails⟩
    · obtain ⟨before, failing, after, rfl, earlier, fails⟩ := inductionHypothesis later
      simp only [Subroutine.lower_scopeIn] at earlier fails
      refine ⟨subroutine :: before, failing, after, rfl, ?_, fails⟩
      rw [List.forall_mem_cons]
      exact ⟨succeeds, earlier⟩

end Subroutines

namespace ClassDeclaration

/-- The class with the same name and variables and other subroutines. -/
def withSubroutines (declaration : ClassDeclaration) (subroutines : List Subroutine) :
    ClassDeclaration :=
  { declaration with subroutines := subroutines }

/-- When the variables of a class can be declared, its subroutines decide whether it has code. -/
theorem lower_withSubroutines {declaration : ClassDeclaration} (options : Options)
    (declared : declaration.scope.2 = .ok ()) (subroutines : List Subroutine) :
    (declaration.withSubroutines subroutines).lower options =
      lowerSubroutines options declaration.scope.1 subroutines := by
  have same : (declaration.withSubroutines subroutines).scope = declaration.scope := rfl
  unfold ClassDeclaration.lower
  rw [same]
  split
  · rename_i accepted
    rw [accepted]
    rfl
  · rename_i refused
    rw [refused] at declared
    cases declared

/-- A subroutine that is alone in its class has the code that it has there. -/
theorem lower_alone {declaration : ClassDeclaration} (options : Options)
    (declared : declaration.scope.2 = .ok ()) (subroutine : Subroutine) :
    (declaration.withSubroutines [subroutine]).lower options =
      subroutine.lower options declaration.scope.1 := by
  rw [lower_withSubroutines options declared, lowerSubroutines_singleton]

/-- The code of a class is the code of its subroutines, each compiled in a class of its own, one after
the other, and in another order of the subroutines the same blocks follow each other in that order. A
class whose variables are accepted and that has no code fails with the error of its first subroutine
that fails by itself. -/
theorem lower_isolates_subroutines (declaration : ClassDeclaration) (options : Options) :
    (∀ code, declaration.lower options = .ok code →
      ∃ block : Subroutine → List Instruction,
        (∀ subroutine ∈ declaration.subroutines,
          (declaration.withSubroutines [subroutine]).lower options = .ok (block subroutine)) ∧
        code = declaration.subroutines.flatMap block ∧
        ∀ reordered, reordered.Perm declaration.subroutines →
          (declaration.withSubroutines reordered).lower options =
            .ok (reordered.flatMap block)) ∧
    ∀ error, declaration.lower options = .error error →
      (∃ code, (declaration.withSubroutines []).lower options = .ok code) →
      ∃ before failing after, declaration.subroutines = before ++ failing :: after ∧
        (∀ subroutine ∈ before,
          ∃ block, (declaration.withSubroutines [subroutine]).lower options = .ok block) ∧
        (declaration.withSubroutines [failing]).lower options = .error error := by
  constructor
  · intro code lowered
    obtain ⟨declared, subroutinesLowered⟩ := ClassDeclaration.lower_eq_ok_iff.mp lowered
    choose! block each using exists_block_of_mem subroutinesLowered
    refine ⟨block, ?_, ?_, ?_⟩
    · intro subroutine member
      rw [lower_alone options declared]
      exact each subroutine member
    · have together := lowerSubroutines_of_blocks each
      rw [subroutinesLowered] at together
      exact Except.ok.inj together
    · intro reordered permuted
      rw [lower_withSubroutines options declared]
      exact lowerSubroutines_of_blocks fun subroutine member =>
        each subroutine (permuted.mem_iff.mp member)
  · rintro error failed ⟨code, accepted⟩
    have declared : declaration.scope.2 = .ok () := (ClassDeclaration.lower_eq_ok_iff.mp accepted).1
    have together := lower_withSubroutines options declared declaration.subroutines
    obtain ⟨before, failing, after, parts, earlier, fails⟩ :=
      exists_first_failing (together.symm.trans failed)
    simp only [lower_alone options declared]
    exact ⟨before, failing, after, parts, earlier, fails⟩

/-- A method and a function that use the same name and the same label, each for itself, and a function
behind the method that does not find the parameter of the method. -/
theorem lower_isolates_subroutines_pair :
    let test : Statement := .ifThen (.term (.name "i")) []
    let first : Subroutine := ⟨.method, none, "first", [⟨.int, "i"⟩], ⟨[], [test]⟩⟩
    let second : Subroutine := ⟨.function, none, "second", [], ⟨[⟨.int, ["i"]⟩], [test]⟩⟩
    let broken : Subroutine := ⟨.function, none, "broken", [], ⟨[], [test]⟩⟩
    let pair : ClassDeclaration := ⟨"Pair", [], [first, second]⟩
    let faulty : ClassDeclaration := ⟨"Pair", [], [first, broken]⟩
    (∃ one other, (pair.withSubroutines [first]).lower ⟨true⟩ = .ok one ∧
      (pair.withSubroutines [second]).lower ⟨true⟩ = .ok other ∧
      pair.lower ⟨true⟩ = .ok (one ++ other)) ∧
    ∃ error, faulty.lower ⟨true⟩ = .error error ∧
      (faulty.withSubroutines [broken]).lower ⟨true⟩ = .error error := by
  intro test first second broken pair faulty
  constructor
  · have succeeds : (pair.lower ⟨true⟩).isOk := by decide +kernel
    obtain ⟨code, lowered⟩ := exists_eq_ok_of_isOk succeeds
    obtain ⟨block, each, rfl, _⟩ := (lower_isolates_subroutines pair ⟨true⟩).1 code lowered
    refine ⟨block first, block second, each first ?_, each second ?_, ?_⟩
    · exact List.mem_cons_self
    · exact List.mem_cons_of_mem _ List.mem_cons_self
    · simpa [pair] using lowered
  · have alone : ((faulty.withSubroutines [first]).lower ⟨true⟩).isOk := by decide +kernel
    have fails : (faulty.lower ⟨true⟩).isOk = false := by decide +kernel
    cases failed : faulty.lower ⟨true⟩ with
    | ok code =>
      rw [failed] at fails
      cases fails
    | error error =>
      obtain ⟨before, failing, after, parts, _, reason⟩ :=
        (lower_isolates_subroutines faulty ⟨true⟩).2 error failed ⟨[], rfl⟩
      have subroutines : [first, broken] = before ++ failing :: after := parts
      -- The first subroutine does not fail, so the failing one is the second.
      cases before with
      | nil =>
        obtain ⟨rfl, _⟩ := List.cons.inj subroutines
        rw [reason] at alone
        cases alone
      | cons _ before =>
        obtain ⟨_, later⟩ := List.cons.inj subroutines
        cases before with
        | nil =>
          obtain ⟨rfl, _⟩ := List.cons.inj later
          exact ⟨error, rfl, reason⟩
        | cons _ before => simp at later

end ClassDeclaration

end Jack
