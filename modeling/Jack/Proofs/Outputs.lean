import Jack.Proofs.Stages
import Jack.Proofs.Workers

/-!
# The files that a run leaves behind

Code goes to a file next to its source, and markup to two files. None of them has the extension of a
source, so no source is ever overwritten. If no two different texts go to the same file, the files do not
depend on the number of workers and the order of their steps: every output is there when all workers are
done, and every other file is as it was.
-/

namespace Jack

section Shares

variable {α : Type} {jobs size : Nat} {items : List α}

theorem length_pieces_le {bound : Nat} (small : items.length ≤ (size + 1) * bound) :
    (pieces size items).length ≤ bound := by
  fun_induction pieces size items generalizing bound with
  | case1 => exact Nat.zero_le _
  | case2 first rest inductionHypothesis =>
    cases bound with
    | zero => simp at small
    | succ bound =>
      rw [List.length_cons] at small ⊢
      have fewer : (rest.drop size).length ≤ (size + 1) * bound := by
        rw [List.length_drop]
        rw [Nat.mul_succ] at small
        omega
      exact Nat.succ_le_succ (inductionHypothesis fewer)

/-- There are no more shares than jobs. -/
theorem length_shares_le (positive : 0 < jobs) : (shares jobs items).length ≤ jobs := by
  refine length_pieces_le ?_
  have enough := Nat.lt_mul_div_succ (items.length + jobs - 1) positive
  generalize (items.length + jobs - 1) / jobs = size at enough ⊢
  rw [Nat.mul_succ, Nat.mul_comm] at enough
  calc items.length ≤ size * jobs := by omega
    _ ≤ (size - 1 + 1) * jobs := Nat.mul_le_mul_right jobs (by omega)

/-- The shares are the items in order. -/
theorem flatten_shares (jobs : Nat) (items : List α) : (shares jobs items).flatten = items :=
  flatten_pieces _ items

theorem ne_nil_of_mem_shares {share : List α} (member : share ∈ shares jobs items) :
    share ≠ [] := by
  unfold shares at member
  generalize (items.length + jobs - 1) / jobs - 1 = size at member
  fun_induction pieces size items with
  | case1 => cases member
  | case2 first rest inductionHypothesis =>
    rcases List.mem_cons.mp member with rfl | later
    · exact List.cons_ne_nil _ _
    · exact inductionHypothesis later

end Shares

section Settling

variable {files later : FileSystem} {command : Command} {sources : List String}

/-- What the files are when a command has been carried out on all sources: every output can be read,
every other place is as it was, and so is every source. -/
structure FileSystem.IsSettled (files : FileSystem) (command : Command) (sources : List String)
    (later : FileSystem) : Prop where
  workingDirectory : later.workingDirectory = files.workingDirectory
  outputs : ∀ path ∈ sources, ∀ output ∈ files.outputs command path,
    later.readText output.1 = .ok output.2 ∧
      ∃ place, files.destination output.1 = .ok place ∧
        later.node? place = some (.file output.2.toUTF8)
  others : ∀ place,
    (∀ path ∈ sources, ∀ output ∈ files.outputs command path,
      files.destination output.1 ≠ .ok place) → later.node? place = files.node? place
  kept : ∀ path ∈ sources, later.readText path = files.readText path

/-- No two outputs with different texts go to the same place. -/
def FileSystem.Agrees (files : FileSystem) (command : Command) (sources : List String) : Prop :=
  ∀ path ∈ sources, ∀ other ∈ sources, ∀ output ∈ files.outputs command path,
    ∀ second ∈ files.outputs command other, ∀ place, files.destination output.1 = .ok place →
      files.destination second.1 = .ok place → second.2 = output.2

/-- Texts that agree are all there when they have been written. -/
theorem FileSystem.IsClear.isSettled {written : List (String × String)}
    (clear : files.IsClear command sources) (agrees : files.Agrees command sources)
    (writes : files.Writes written later)
    (all : written.Perm (sources.flatMap (files.outputs command))) :
    files.IsSettled command sources later where
  workingDirectory := writes.extends.workingDirectory
  outputs path member output made := by
    obtain ⟨place, reached, directory, _⟩ := clear.writes path member output made
    have among : output ∈ written := all.mem_iff.mpr (List.mem_flatMap.mpr ⟨path, member, made⟩)
    have standing : later.node? place = some (.file output.2.toUTF8) := by
      refine writes.node?_of_mem among reached fun second within same => ?_
      obtain ⟨other, otherMember, otherMade⟩ := List.mem_flatMap.mp (all.mem_iff.mp within)
      exact agrees path member other otherMember output made second otherMade place reached same
    refine ⟨readText_of_destination (writes.extends.destination reached directory) ?_ standing,
      place, reached, standing⟩
    exact (writes.extends.directories _).mpr directory
  others place outside := by
    refine writes.node?_of_ne fun output among => ?_
    obtain ⟨path, member, made⟩ := List.mem_flatMap.mp (all.mem_iff.mp among)
    exact outside path member output made
  kept path member := clear.readText_eq writes (fun _ => all.mem_iff.mp) member

/-- Whatever the schedule, the files are settled when all workers are done. -/
theorem Pool.isSettled_of_isFinished {session : Session} {jobs : Nat} {schedule : List Nat}
    (clear : session.files.IsClear command sources) (agrees : session.files.Agrees command sources)
    (finished : ((start session (shares jobs sources)).run command schedule).isFinished) :
    session.files.IsSettled command sources
        ((start session (shares jobs sources)).run command schedule).session.files ∧
      ((start session (shares jobs sources)).run command schedule).failures =
        sources.countP (session.files.rejects command) := by
  obtain ⟨⟨written, all, writes⟩, failures⟩ :=
    written_of_isFinished (flatten_shares jobs sources) clear finished
  exact ⟨clear.isSettled agrees writes all, failures⟩

end Settling

section Sources

variable {files : FileSystem} {command : Command} {path : String} {source place : Place}

/-- The last name of a source is its stem with the extension of sources. -/
theorem fileName_of_isSourceName (named : isSourceName path) :
    Path.fileName path.toList = Path.stem path ++ ".jack".toList := by
  rw [isSourceName, decide_eq_true_eq] at named
  exact (Path.fileName_of_extension? named).1

theorem not_isIdle_of_isSourceName (named : isSourceName path) :
    ¬ Path.IsIdle (Path.fileName path.toList) ∧ Path.fileName path.toList ≠ ['.', '.'] := by
  rw [fileName_of_isSourceName named]
  constructor
  · rintro (same | same) <;> simpa using congrArg List.length same
  · intro same
    simpa using congrArg List.length same

/-- A source stands under its last name. -/
theorem FileSystem.getLast?_of_locate (named : isSourceName path)
    (located : files.locate path = .ok source) :
    source.getLast? = some (String.ofList (Path.stem path ++ ".jack".toList)) := by
  obtain ⟨notIdle, below⟩ := not_isIdle_of_isSourceName named
  have none : ∀ item ∈ ([] : List (List Char)), Path.IsIdle item := nofun
  obtain ⟨directory, _, _, rfl⟩ := exists_directory_of_locate none
    (by rw [List.append_nil, Path.splitOn_path]) notIdle below located
  rw [List.getLast?_concat, fileName_of_isSourceName named]

/-- A place is next to a source: it is in the same directory, and its name is the stem of the source
with an ending. -/
def FileSystem.IsNextTo (files : FileSystem) (path : String) (source : Place) (ending : List Char)
    (place : Place) : Prop :=
  ∃ directory, files.node? directory = some .directory ∧
    source = directory ++ [String.ofList (Path.stem path ++ ".jack".toList)] ∧
    place = directory ++ [String.ofList (Path.stem path ++ ending)]

theorem FileSystem.isNextTo_of_beside {other : String} {ending : List Char}
    (named : isSourceName path) (beside : Path.Beside path other (Path.stem path ++ ending))
    (located : files.locate path = .ok source) (reached : files.destination other = .ok place) :
    files.IsNextTo path source ending place := by
  obtain ⟨notIdle, below⟩ := not_isIdle_of_isSourceName named
  obtain ⟨_, directory, isDirectory, standing, output⟩ :=
    destination_of_beside beside notIdle below located reached
  rw [fileName_of_isSourceName named] at standing
  exact ⟨directory, isDirectory, standing, output⟩

/-- A code file is next to its source. -/
theorem FileSystem.isNextTo_codePath (named : isSourceName path)
    (located : files.locate path = .ok source)
    (reached : files.destination (codePath path) = .ok place) :
    files.IsNextTo path source ".vm".toList place := by
  obtain ⟨notIdle, below⟩ := not_isIdle_of_isSourceName named
  by_cases dot : Path.stem path = ['.']
  · -- The name would be that of the directory above.
    have above : codePath path =
        String.ofList (Path.throughLast '/' path.toList ++ ['.', '.']) := by
      simp [codePath, Path.withExtension, dot]
    rw [above] at reached
    obtain ⟨ordinary, _⟩ := destination_of_beside
      (Path.beside_throughLast path (by decide)) notIdle below located reached
    exact absurd rfl ordinary.notAbove
  · have named' : codePath path =
        String.ofList (Path.throughLast '/' path.toList ++ (Path.stem path ++ ".vm".toList)) := by
      rw [← String.toList_inj]
      simp [codePath, Path.withExtension, dot]
    rw [named'] at reached
    refine isNextTo_of_beside named (Path.beside_throughLast path ?_) located reached
    simpa using Path.not_mem_stem path

/-- The listing of a source is next to it. -/
theorem FileSystem.isNextTo_tokenMarkupPath (named : isSourceName path)
    (located : files.locate path = .ok source)
    (reached : files.destination (tokenMarkupPath path) = .ok place) :
    files.IsNextTo path source "T.xml".toList place :=
  isNextTo_of_beside named (Path.beside_sibling path (by decide)) located reached

/-- The tree of a source is next to it. -/
theorem FileSystem.isNextTo_classMarkupPath (named : isSourceName path)
    (located : files.locate path = .ok source)
    (reached : files.destination (classMarkupPath path) = .ok place) :
    files.IsNextTo path source ".xml".toList place :=
  isNextTo_of_beside named (Path.beside_sibling path (by decide)) located reached

end Sources

section Products

variable {files : FileSystem} {command : Command} {path : String} {output : String × String}

theorem FileSystem.outcome_eq_ok_iff {product : Product} :
    files.outcome command path = .ok product ↔
      ∃ text, files.readText path = .ok text ∧ command.product path text = .ok product := by
  simp only [outcome, bind_eq_ok_iff, mapError_eq_ok_iff]

theorem FileSystem.mem_outputs_iff :
    output ∈ files.outputs command path ↔
      ∃ text product, files.readText path = .ok text ∧ command.product path text = .ok product ∧
        output ∈ product.files := by
  have made : output ∈ files.outputs command path ↔
      ∃ product, files.outcome command path = .ok product ∧ output ∈ product.files := by
    unfold outputs
    split <;> simp_all
  rw [made]
  constructor
  · rintro ⟨product, outcome, member⟩
    obtain ⟨text, reads, accepted⟩ := outcome_eq_ok_iff.mp outcome
    exact ⟨text, product, reads, accepted, member⟩
  · rintro ⟨text, product, reads, accepted, member⟩
    exact ⟨product, outcome_eq_ok_iff.mpr ⟨text, reads, accepted⟩, member⟩

/-- The output of the compiler is the code of the source. -/
theorem FileSystem.mem_outputs_compile_iff :
    output ∈ files.outputs .compile path ↔
      ∃ text code, files.readText path = .ok text ∧ compileSource {} text = .ok code ∧
        output = (codePath path, code) := by
  simp only [mem_outputs_iff, Command.product, bind_eq_ok_iff, pure_eq_ok_iff]
  constructor
  · rintro ⟨text, _, reads, ⟨code, compiled, rfl⟩, member⟩
    exact ⟨text, code, reads, compiled, List.mem_singleton.mp member⟩
  · rintro ⟨text, code, reads, compiled, rfl⟩
    exact ⟨text, _, reads, ⟨code, compiled, rfl⟩, List.mem_singleton.mpr rfl⟩

/-- The outputs in markup are the listing of the tokens and the tree of the class. -/
theorem FileSystem.mem_outputs_markup_iff :
    output ∈ files.outputs .markup path ↔
      ∃ text tokens declaration, files.readText path = .ok text ∧
        tokenizeSource text = .ok tokens ∧ parseTokens tokens = .ok declaration ∧
        (output = (tokenMarkupPath path, tokensText tokens) ∨
          output = (classMarkupPath path, declaration.markup.text)) := by
  simp only [mem_outputs_iff, Command.product, bind_eq_ok_iff, pure_eq_ok_iff, mapError_eq_ok_iff]
  constructor
  · rintro ⟨text, _, reads, ⟨tokens, found, declaration, parsed, rfl⟩, member⟩
    exact ⟨text, tokens, declaration, reads, found, parsed, by simpa using member⟩
  · rintro ⟨text, tokens, declaration, reads, found, parsed, member⟩
    exact ⟨text, _, reads, ⟨tokens, found, declaration, parsed, rfl⟩, by simpa using member⟩

/-- Nothing is written for a listing. -/
theorem FileSystem.outputs_listing : files.outputs .listing path = [] := by
  refine List.eq_nil_iff_forall_not_mem.mpr fun output made => ?_
  simp only [mem_outputs_iff, Command.product, bind_eq_ok_iff, pure_eq_ok_iff] at made
  obtain ⟨_, _, _, ⟨_, _, _, _, rfl⟩, member⟩ := made
  cases member

/-- The endings of the names of output files. -/
def Command.endings : Command → List (List Char)
  | .compile => [".vm".toList]
  | .markup => ["T.xml".toList, ".xml".toList]
  | .listing => []

/-- Every output goes to a place next to its source, under one of the endings of the command. -/
theorem FileSystem.exists_ending_of_mem_outputs {source place : Place} (named : isSourceName path)
    (located : files.locate path = .ok source) (made : output ∈ files.outputs command path)
    (reached : files.destination output.1 = .ok place) :
    ∃ ending ∈ command.endings, files.IsNextTo path source ending place := by
  cases command with
  | compile =>
    obtain ⟨text, code, _, _, rfl⟩ := mem_outputs_compile_iff.mp made
    exact ⟨".vm".toList, by simp [Command.endings], isNextTo_codePath named located reached⟩
  | markup =>
    obtain ⟨text, tokens, declaration, _, _, _, rfl | rfl⟩ := mem_outputs_markup_iff.mp made
    · dsimp only at reached
      exact ⟨"T.xml".toList, by simp [Command.endings],
        isNextTo_tokenMarkupPath named located reached⟩
    · dsimp only at reached
      exact ⟨".xml".toList, by simp [Command.endings],
        isNextTo_classMarkupPath named located reached⟩
  | listing =>
    rw [outputs_listing] at made
    cases made

/-- No ending makes the name of a source. -/
theorem Command.ne_of_mem_endings {ending : List Char} (member : ending ∈ command.endings)
    (stem other : List Char) : stem ++ ending ≠ other ++ ".jack".toList := by
  have last : ending.getLast? = some 'm' ∨ ending.getLast? = some 'l' := by
    cases command with
    | compile => simp_all [endings]
    | markup => rcases List.mem_cons.mp member with rfl | member <;> simp_all
    | listing => cases member
  intro same
  have ends := congrArg List.getLast? same
  rcases last with last | last <;> simp [List.getLast?_append, last] at ends

/-- Nothing that a command does to sources gets in the way of the rest. -/
theorem FileSystem.isClear_of_isSourceName {sources : List String}
    (named : ∀ path ∈ sources, isSourceName path)
    (reads : ∀ path ∈ sources, ∃ text, files.readText path = .ok text)
    (writes : ∀ path ∈ sources, ∀ output ∈ files.outputs command path,
      ∃ later, files.writeText output.1 output.2 = .ok later) : files.IsClear command sources where
  reads := reads
  writes path member output made := by
    obtain ⟨later, wrote⟩ := writes path member output made
    obtain ⟨place, reached, _⟩ := writeText_eq_ok_iff.mp wrote
    obtain ⟨text, read⟩ := reads path member
    obtain ⟨source, _, located, _⟩ := readText_eq_ok_iff.mp read
    obtain ⟨ending, among, directory, isDirectory, _, rfl⟩ :=
      exists_ending_of_mem_outputs (named path member) located made reached
    refine ⟨_, reached, by rwa [List.dropLast_concat], fun other otherMember otherLocated => ?_⟩
    have last := getLast?_of_locate (named other otherMember) otherLocated
    rw [List.getLast?_concat, Option.some.injEq] at last
    refine Command.ne_of_mem_endings among (Path.stem path) (Path.stem other) ?_
    simpa using congrArg String.toList last

end Products

end Jack
