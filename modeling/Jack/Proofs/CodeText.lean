import Jack.Proofs.Names

/-!
# Reading code back

Code is text of which every line is one instruction and every word one part of it. A reader cuts the
text at newlines and the lines at spaces, and what a word means depends on its place alone. It gets back
the code that was written, as long as no name has a blank in it, and in the code of a class none has.
-/

namespace Jack

section Reader

/-- The segment of a given name. -/
def Segment.ofName? : String → Option Segment
  | "constant" => some .constant
  | "argument" => some .argument
  | "local" => some .local
  | "static" => some .static
  | "this" => some .this
  | "that" => some .that
  | "pointer" => some .pointer
  | "temp" => some .temp
  | _ => none

/-- The operation of a given name. -/
def Arithmetic.ofName? : String → Option Arithmetic
  | "add" => some .add
  | "sub" => some .sub
  | "neg" => some .neg
  | "eq" => some .eq
  | "gt" => some .gt
  | "lt" => some .lt
  | "and" => some .and
  | "or" => some .or
  | "not" => some .not
  | _ => none

/-- The instruction that consists of the given words. -/
def Instruction.ofWords? : List String → Option Instruction
  | ["push", segment, index] =>
    return .push (← Segment.ofName? segment) (← Text.readDigits? index.toList)
  | ["pop", segment, index] =>
    return .pop (← Segment.ofName? segment) (← Text.readDigits? index.toList)
  | ["label", name] => some (.label name)
  | ["goto", name] => some (.goto name)
  | ["if-goto", name] => some (.ifGoto name)
  | ["call", name, arguments] => return .call name (← Text.readDigits? arguments.toList)
  | ["function", name, locals] => return .function name (← Text.readDigits? locals.toList)
  | ["return"] => some .return
  | [name] => return .arithmetic (← Arithmetic.ofName? name)
  | _ => none

/-- Reads one line, whose words are separated by single spaces. -/
def Instruction.read? (line : List Char) : Option Instruction :=
  ofWords? ((line.splitOn ' ').map String.ofList)

/-- Reads code, of which every line ends in a newline. -/
def readCode? (text : String) : Option (List Instruction) :=
  let lines := text.toList.splitOn '\n'
  if lines.getLast? = some [] then lines.dropLast.mapM Instruction.read? else none

end Reader

section Words

/-- The words of an instruction. -/
def Instruction.words : Instruction → List String
  | .push segment index => ["push", segment.name, toString index]
  | .pop segment index => ["pop", segment.name, toString index]
  | .arithmetic operation => [operation.name]
  | .label name => ["label", name]
  | .goto name => ["goto", name]
  | .ifGoto name => ["if-goto", name]
  | .call name arguments => ["call", name, toString arguments]
  | .function name locals => ["function", name, toString locals]
  | .return => ["return"]

/-- An instruction is written as its words with a space between each two. -/
theorem Instruction.text_eq (instruction : Instruction) :
    instruction.text.toList = [' '].intercalate (instruction.words.map String.toList) := by
  cases instruction <;> simp [text, words, List.intercalate, List.intersperse]

@[simp] theorem Segment.ofName?_name (segment : Segment) : ofName? segment.name = some segment := by
  cases segment <;> rfl

/-- The words of an instruction are read as the instruction. -/
theorem Instruction.ofWords?_words (instruction : Instruction) :
    ofWords? instruction.words = some instruction := by
  cases instruction with
  | arithmetic operation => cases operation <;> rfl
  | push | pop | call | function =>
    simp only [ofWords?, words, Segment.ofName?_name, Text.readDigits?_toString]
    rfl
  | _ => rfl

/-- A text without blanks. -/
def IsSolid (text : String) : Prop := ∀ c ∈ text.toList, ¬ Text.isBlank c

instance (text : String) : Decidable (IsSolid text) :=
  decidable_of_iff (text.toList.all fun c => !Text.isBlank c) (by simp [IsSolid])

theorem isSolid_append {first second : String} :
    IsSolid (first ++ second) ↔ IsSolid first ∧ IsSolid second := by
  simp only [IsSolid, String.toList_append, List.forall_mem_append]

/-- A character of a word is no blank and no dot. -/
theorem isWordCharacter_solid {c : Char} (word : Lexeme.isWordCharacter c) :
    ¬ Text.isBlank c ∧ c ≠ '.' := by
  simp only [Lexeme.isWordCharacter, Bool.and_eq_true, Bool.not_eq_true',
    Option.isNone_iff_eq_none] at word
  obtain ⟨⟨⟨noBlank, noSymbol⟩, _⟩, _⟩ := word
  refine ⟨Bool.eq_false_iff.mp noBlank, ?_⟩
  rintro rfl
  cases noSymbol

theorem IsName.isSolid {name : String} (isName : IsName name) : IsSolid name :=
  fun c member => (isWordCharacter_solid (isName.2 c member)).1

theorem IsName.not_mem_dot {name : String} (isName : IsName name) : '.' ∉ name.toList :=
  fun member => (isWordCharacter_solid (isName.2 '.' member)).2 rfl

theorem IsQualified.isSolid {function : String} (isQualified : IsQualified function) :
    IsSolid function := by
  obtain ⟨className, name, isClass, isName, rfl⟩ := isQualified
  rw [qualified, isSolid_append, isSolid_append]
  exact ⟨⟨isClass.isSolid, by decide⟩, isName.isSolid⟩

theorem isSolid_number (number : Nat) : IsSolid (toString number) := by
  have digits := (Text.readDigits?_eq_some_iff.mp (Text.readDigits?_toString number)).2.1
  exact fun c member => (isWordCharacter_solid (isWordCharacter_of_isDigit (digits c member))).1

theorem Segment.isSolid_name (segment : Segment) : IsSolid segment.name := by
  cases segment <;> decide

theorem Arithmetic.isSolid_name (operation : Arithmetic) : IsSolid operation.name := by
  cases operation <;> decide

/-- The words of a legible instruction have no blanks. -/
theorem Instruction.isSolid_of_mem_words {instruction : Instruction}
    (legible : instruction.IsLegible) : ∀ word ∈ instruction.words, IsSolid word := by
  cases instruction with
  | push segment number | pop segment number =>
    simp only [words, List.forall_mem_cons]
    exact ⟨by decide, segment.isSolid_name, isSolid_number number, List.forall_mem_nil _⟩
  | arithmetic operation =>
    simp only [words, List.forall_mem_cons]
    exact ⟨operation.isSolid_name, List.forall_mem_nil _⟩
  | label name | goto name | ifGoto name =>
    have isName : IsName name := legible
    simp only [words, List.forall_mem_cons]
    exact ⟨by decide, isName.isSolid, List.forall_mem_nil _⟩
  | call name number | function name number =>
    have isQualified : IsQualified name := legible
    simp only [words, List.forall_mem_cons]
    exact ⟨by decide, isQualified.isSolid, isSolid_number number, List.forall_mem_nil _⟩
  | «return» =>
    simp only [words, List.forall_mem_cons]
    exact ⟨by decide, List.forall_mem_nil _⟩

end Words

section Lines

theorem IsSolid.not_mem {text : String} (solid : IsSolid text) {c : Char} (blank : Text.isBlank c) :
    c ∉ text.toList :=
  fun member => solid c member blank

/-- A legible instruction is read back from its line. -/
theorem Instruction.read?_text {instruction : Instruction} (legible : instruction.IsLegible) :
    read? instruction.text.toList = some instruction := by
  have solid := isSolid_of_mem_words legible
  have cut : instruction.text.toList.splitOn ' ' = instruction.words.map String.toList := by
    rw [text_eq]
    refine List.splitOn_intercalate ' ' ?_ (by cases instruction <;> simp [words])
    rw [List.forall_mem_map]
    exact fun word member => (solid word member).not_mem (by decide)
  simp only [read?, cut, List.map_map, Function.comp_def, String.ofList_toList, List.map_id']
  exact ofWords?_words instruction

/-- A character that is in no part and is no separator is not in the parts put together. -/
theorem not_mem_intercalate {c mark : Char} (different : c ≠ mark) {parts : List (List Char)}
    (outside : ∀ part ∈ parts, c ∉ part) : c ∉ [mark].intercalate parts := by
  induction parts with
  | nil => simp
  | cons part others inductionHypothesis =>
    rw [List.forall_mem_cons] at outside
    have later := inductionHypothesis outside.2
    cases others with
    | nil => simpa using outside.1
    | cons => simp_all

/-- A legible instruction stands on one line. -/
theorem Instruction.not_mem_text {instruction : Instruction} (legible : instruction.IsLegible) :
    '\n' ∉ instruction.text.toList := by
  have solid := isSolid_of_mem_words legible
  rw [text_eq]
  refine not_mem_intercalate (by decide) ?_
  rw [List.forall_mem_map]
  exact fun word member => (solid word member).not_mem (by decide)

/-- Code is the text of its instructions, each with a newline after it. -/
theorem toList_codeText (code : List Instruction) :
    (codeText code).toList = code.flatMap fun instruction => instruction.text.toList ++ ['\n'] := by
  simp [codeText, Text.unlines, String.toList_join, List.flatMap_map]

/-- Legible code is cut at newlines into the lines of its instructions. -/
theorem splitOn_codeText {code : List Instruction}
    (legible : ∀ instruction ∈ code, instruction.IsLegible) :
    (codeText code).toList.splitOn '\n' =
      code.map (fun instruction => instruction.text.toList) ++ [[]] := by
  rw [toList_codeText]
  induction code with
  | nil => rfl
  | cons instruction rest inductionHypothesis =>
    rw [List.forall_mem_cons] at legible
    rw [List.flatMap_cons, List.append_assoc, List.singleton_append,
      List.splitOn_append_cons_self_of_not_mem (Instruction.not_mem_text legible.1),
      inductionHypothesis legible.2]
    rfl

/-- Legible code is read back from its text. -/
theorem readCode?_codeText {code : List Instruction}
    (legible : ∀ instruction ∈ code, instruction.IsLegible) :
    readCode? (codeText code) = some code := by
  simp only [readCode?, splitOn_codeText legible, List.getLast?_concat, List.dropLast_concat,
    if_true]
  induction code with
  | nil => rfl
  | cons instruction rest inductionHypothesis =>
    rw [List.forall_mem_cons] at legible
    rw [List.map_cons, List.mapM_cons, Instruction.read?_text legible.1,
      inductionHypothesis legible.2]
    rfl

end Lines

/-- The function that a line names. -/
def Instruction.functionName? : Instruction → Option String
  | .call name _ | .function name _ => some name
  | _ => none

/-- Code can be told from its text: every instruction has a line of its own, the reader gets the code
back, and the name of every function is two parts with one dot between them. -/
structure IsReadBack (code : List Instruction) (text : String) : Prop where
  lines : text.toList = code.flatMap fun instruction => instruction.text.toList ++ ['\n']
  unbroken : ∀ instruction ∈ code, '\n' ∉ instruction.text.toList
  reads : readCode? text = some code
  dotted : ∀ instruction ∈ code, ∀ name ∈ instruction.functionName?,
    ∃ first second, name = first ++ "." ++ second ∧
      (first ≠ "" ∧ '.' ∉ first.toList) ∧ second ≠ "" ∧ '.' ∉ second.toList

/-- Legible code can be told from its text. -/
theorem isReadBack_codeText {code : List Instruction}
    (legible : ∀ instruction ∈ code, instruction.IsLegible) : IsReadBack code (codeText code) where
  lines := toList_codeText code
  unbroken instruction member := Instruction.not_mem_text (legible instruction member)
  reads := readCode?_codeText legible
  dotted instruction member name named := by
    have isQualified : IsQualified name := by
      have := legible instruction member
      cases instruction <;> cases named <;> exact this
    obtain ⟨className, part, isClass, isName, rfl⟩ := isQualified
    exact ⟨className, part, rfl, ⟨isClass.1, isClass.not_mem_dot⟩, isName.1, isName.not_mem_dot⟩

/-- The text that a source is compiled to can be read back as the code of its class. -/
theorem compiled_text_reads_back (options : Options) (source text : String) :
    (compilePlain options source = .ok text →
      ∃ declaration code, parsePlain source = .ok declaration ∧
        declaration.lower options = .ok code ∧ text = codeText code ∧ IsReadBack code text) ∧
    (compileSource options source = .ok text →
      ∃ declaration code, parseSource source = .ok declaration ∧
        declaration.lower options = .ok code ∧ text = codeText code ∧ IsReadBack code text) := by
  constructor
  · intro compiled
    obtain ⟨declaration, code, parsed, lowered, rfl⟩ := compilePlain_eq_ok_iff.mp compiled
    obtain ⟨tokens, found, read⟩ := parsePlain_eq_ok_iff.mp parsed
    have legible := ClassDeclaration.isLegible_lower (named_of_tokenize found read) lowered
    exact ⟨declaration, code, parsed, lowered, rfl, isReadBack_codeText legible⟩
  · intro compiled
    obtain ⟨declaration, code, parsed, lowered, rfl⟩ := compileSource_eq_ok_iff.mp compiled
    obtain ⟨tokens, found, read⟩ := parseSource_eq_ok_iff.mp parsed
    obtain ⟨stripped, _, found⟩ := tokenizeSource_eq_ok_iff.mp found
    have legible := ClassDeclaration.isLegible_lower (named_of_tokenize found read) lowered
    exact ⟨declaration, code, parsed, lowered, rfl, isReadBack_codeText legible⟩

/-- A loop and a call on an array, in a class whose name is not plain ASCII. -/
theorem compiled_text_reads_back_loop :
    let source := "class Über \x7b field Array cells; method int last(int size) \x7b var int at; " ++
      "while (at < size) \x7b let at = at * 2; \x7d return cells.get(at); \x7d \x7d"
    let text := "function Über.last 1\npush argument 0\npop pointer 0\nlabel WHILE_EXP0\n" ++
      "push local 0\npush argument 1\nlt\nnot\nif-goto WHILE_END0\npush local 0\n" ++
      "push constant 2\ncall Math.multiply 2\npop local 0\ngoto WHILE_EXP0\n" ++
      "label WHILE_END0\npush this 0\npush local 0\ncall Array.get 2\nreturn\n"
    compileSource {} source = .ok text ∧
      ∃ declaration code, parseSource source = .ok declaration ∧
        declaration.lower {} = .ok code ∧ text = codeText code ∧ IsReadBack code text := by
  intro source text
  have compiled : compileSource {} source = .ok text := by decide +kernel
  exact ⟨compiled, (compiled_text_reads_back {} source text).2 compiled⟩

end Jack
