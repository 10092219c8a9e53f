import Jack.Proofs.Lowering
import Jack.Proofs.Paths

/-!
# Writing next to reading

Writing a text changes one place, which is no directory before and a file after. So a path that leads
somewhere leads there still when other texts have been written, and a file that is read has the text it
had unless it was written itself.
-/

namespace Jack.FileSystem

section Following

variable {files : FileSystem} {place target : Place} {name : String} {rest : List String}

/-- A name that a file or directory can have. -/
@[mk_iff] structure IsOrdinary (name : String) : Prop where
  nonempty : name ≠ ""
  notHere : name ≠ "."
  notAbove : name ≠ ".."
  short : name.utf8ByteSize ≤ maxNameBytes

/-- The ways to follow a first name. -/
theorem follow_cons_eq_ok_iff :
    files.follow place (name :: rest) = .ok target ↔
      files.node? place = some .directory ∧
        ((name = "" ∨ name = ".") ∧ files.follow place rest = .ok target ∨
          name = ".." ∧ files.follow place.dropLast rest = .ok target ∨
          IsOrdinary name ∧ (files.node? (place ++ [name])).isSome ∧
            files.follow (place ++ [name]) rest = .ok target) := by
  rw [follow]
  split
  · simp_all
  · simp_all
  · split_ifs with here above long missing
    · rcases here with rfl | rfl <;> simp_all [isOrdinary_iff]
    · simp_all [isOrdinary_iff]
    · have : ¬ IsOrdinary name := fun ordinary => absurd ordinary.short (by omega)
      simp_all
    · simp_all
    · have ordinary : IsOrdinary name :=
        ⟨fun empty => here (.inl empty), fun dot => here (.inr dot), above, by omega⟩
      have present : (files.node? (place ++ [name])).isSome := by
        simpa [Option.isSome_iff_ne_none] using missing
      simp_all

theorem follow_append (place : Place) (first second : List String) :
    files.follow place (first ++ second) =
      (files.follow place first >>= fun middle => files.follow middle second) := by
  induction first generalizing place with
  | nil => rfl
  | cons name rest inductionHypothesis =>
    simp only [List.cons_append, follow, inductionHypothesis]
    split
    · rfl
    · rfl
    · split_ifs <;> rfl

/-- Names that lead nowhere need not be followed. -/
theorem follow_idle_append {idle : List String} (idles : ∀ name ∈ idle, name = "" ∨ name = ".")
    (nonempty : rest ≠ []) : files.follow place (idle ++ rest) = files.follow place rest := by
  induction idle with
  | nil => rfl
  | cons name others inductionHypothesis =>
    rw [List.forall_mem_cons] at idles
    rw [List.cons_append, follow, inductionHypothesis idles.2, if_pos idles.1]
    obtain ⟨next, later, rfl⟩ := List.exists_cons_of_ne_nil nonempty
    split <;> simp_all [follow]

end Following

section Paths

variable {files : FileSystem} {path : String} {place : Place}

theorem hasDirectory_eq_false_iff :
    files.hasDirectory place = false ↔ files.node? place ≠ some .directory := by
  unfold hasDirectory
  split <;> simp_all

theorem pathNames_eq_ok {names : List String} (found : pathNames path = .ok names) :
    names = Path.names path := by
  unfold pathNames at found
  split_ifs at found
  exact (Except.ok.inj found).symm

/-- The place that a text goes to when it is written under a path. -/
def destination (files : FileSystem) (path : String) : Except FileError Place := do
  let names ← pathNames path
  let directory ← files.follow (files.origin path) names.dropLast
  let name := names.getLastD ""
  if files.hasFile directory then .error .notADirectory
  else if name = "" ∨ name = "." ∨ name = ".." then .error .isADirectory
  else if maxNameBytes < name.utf8ByteSize then .error .nameTooLong
  else if files.hasDirectory (directory ++ [name]) then .error .isADirectory
  else .ok (directory ++ [name])

/-- Writing puts the text at its destination. -/
theorem writeText_eq (files : FileSystem) (path text : String) :
    files.writeText path text =
      (files.destination path >>= fun place => .ok (files.put place (.file text.toUTF8))) := by
  simp only [writeText, destination, bind_assoc]
  refine bind_congr fun names => bind_congr fun directory => ?_
  split_ifs <;> rfl

theorem writeText_eq_ok_iff {text : String} {written : FileSystem} :
    files.writeText path text = .ok written ↔
      ∃ place, files.destination path = .ok place ∧
        written = files.put place (.file text.toUTF8) := by
  simp only [writeText_eq, bind_eq_ok_iff, Except.ok.injEq, @eq_comm _ written]

/-- A destination is an ordinary name in the directory that the names before it lead to. -/
theorem destination_eq_ok_iff :
    files.destination path = .ok place ↔
      ∃ names directory, pathNames path = .ok names ∧
        files.follow (files.origin path) names.dropLast = .ok directory ∧
        files.hasFile directory = false ∧ IsOrdinary (names.getLastD "") ∧
        files.hasDirectory place = false ∧ place = directory ++ [names.getLastD ""] := by
  simp only [destination, bind_eq_ok_iff]
  constructor
  · rintro ⟨names, found, directory, reached, placed⟩
    split_ifs at placed with file special long taken
    cases placed
    obtain ⟨nonempty, notHere, notAbove⟩ : names.getLastD "" ≠ "" ∧ names.getLastD "" ≠ "." ∧
        names.getLastD "" ≠ ".." := by simpa using special
    exact ⟨names, directory, found, reached, Bool.eq_false_iff.mpr file,
      ⟨nonempty, notHere, notAbove, by omega⟩, Bool.eq_false_iff.mpr taken, rfl⟩
  · rintro ⟨names, directory, found, reached, file, ordinary, taken, rfl⟩
    refine ⟨names, found, directory, reached, ?_⟩
    have special : ¬ (names.getLastD "" = "" ∨ names.getLastD "" = "." ∨
        names.getLastD "" = "..") := by
      simp only [ordinary.nonempty, ordinary.notHere, ordinary.notAbove, or_self, not_false_eq_true]
    rw [if_neg (Bool.eq_false_iff.mp file), if_neg special, if_neg (Nat.not_lt.mpr ordinary.short),
      if_neg (Bool.eq_false_iff.mp taken)]

/-- A text is read from the file that a path leads to. -/
theorem readText_eq_ok_iff {text : String} :
    files.readText path = .ok text ↔
      ∃ place contents, files.locate path = .ok place ∧
        files.node? place = some (.file contents) ∧ String.fromUTF8? contents = some text := by
  simp only [readText, bind_eq_ok_iff]
  constructor
  · rintro ⟨place, located, found⟩
    split at found
    · rename_i contents standing
      split at found
      · rename_i decoded
        cases found
        exact ⟨place, contents, located, standing, decoded⟩
      · cases found
    · cases found
    · cases found
  · rintro ⟨place, contents, located, standing, decoded⟩
    refine ⟨place, located, ?_⟩
    rw [standing]
    simp only [decoded]
    rfl

theorem destination_ne_nil (reached : files.destination path = .ok place) : place ≠ [] := by
  obtain ⟨names, directory, _, _, _, _, _, rfl⟩ := destination_eq_ok_iff.mp reached
  simp

/-- No directory stands at a destination. -/
theorem node?_destination (reached : files.destination path = .ok place) :
    files.node? place ≠ some .directory := by
  obtain ⟨names, directory, _, _, _, _, free, _⟩ := destination_eq_ok_iff.mp reached
  exact hasDirectory_eq_false_iff.mp free

end Paths

section Extending

/-- What a file system may turn into when files are written: directories are the same, and nothing is
lost. -/
structure Extends (files later : FileSystem) : Prop where
  workingDirectory : later.workingDirectory = files.workingDirectory
  directories : ∀ place, later.node? place = some .directory ↔ files.node? place = some .directory
  present : ∀ place, (files.node? place).isSome → (later.node? place).isSome

variable {files later last : FileSystem} {path : String} {place target : Place}

theorem Extends.refl (files : FileSystem) : files.Extends files :=
  ⟨rfl, fun _ => Iff.rfl, fun _ => id⟩

theorem Extends.trans (first : files.Extends later) (second : later.Extends last) :
    files.Extends last where
  workingDirectory := second.workingDirectory.trans first.workingDirectory
  directories place := (second.directories place).trans (first.directories place)
  present place standing := second.present place (first.present place standing)

/-- A file system is extended by a file at a place where no directory stands. -/
theorem extends_put {contents : ByteArray} (below : place ≠ [])
    (free : files.node? place ≠ some .directory) :
    files.Extends (files.put place (.file contents)) where
  workingDirectory := rfl
  directories other := by
    by_cases same : other = place
    · rw [same, node?_put_self _ _ below]
      simp [free]
    · rw [node?_put_of_ne _ _ same]
  present other standing := by
    by_cases same : other = place
    · rw [same, node?_put_self _ _ below]
      rfl
    · rwa [node?_put_of_ne _ _ same]

/-- Names lead where they led before. -/
theorem Extends.follow {names : List String} (extended : files.Extends later)
    (reached : files.follow place names = .ok target) :
    later.follow place names = .ok target := by
  induction names generalizing place with
  | nil => exact reached
  | cons name rest inductionHypothesis =>
    rw [follow_cons_eq_ok_iff] at reached ⊢
    obtain ⟨directory, here | above | ⟨ordinary, standing, onward⟩⟩ := reached
    · exact ⟨(extended.directories place).mpr directory, .inl ⟨here.1, inductionHypothesis here.2⟩⟩
    · exact ⟨(extended.directories place).mpr directory,
        .inr (.inl ⟨above.1, inductionHypothesis above.2⟩)⟩
    · exact ⟨(extended.directories place).mpr directory,
        .inr (.inr ⟨ordinary, extended.present _ standing, inductionHypothesis onward⟩)⟩

theorem Extends.origin (extended : files.Extends later) (path : String) :
    later.origin path = files.origin path := by
  rw [FileSystem.origin, FileSystem.origin, extended.workingDirectory]

/-- A path leads where it led before. -/
theorem Extends.locate (extended : files.Extends later) (located : files.locate path = .ok place) :
    later.locate path = .ok place := by
  obtain ⟨names, found, reached⟩ := bind_eq_ok_iff.mp located
  refine bind_eq_ok_iff.mpr ⟨names, found, ?_⟩
  rw [extended.origin]
  exact extended.follow reached

/-- A text is written where it would have been written before, if there is a directory for it. -/
theorem Extends.destination (extended : files.Extends later)
    (reached : files.destination path = .ok place)
    (directory : files.node? place.dropLast = some .directory) :
    later.destination path = .ok place := by
  rw [destination_eq_ok_iff] at reached ⊢
  obtain ⟨names, above, found, followed, _, ordinary, free, rfl⟩ := reached
  rw [List.dropLast_concat] at directory
  refine ⟨names, above, found, ?_, ?_, ordinary, ?_, rfl⟩
  · rw [extended.origin]
    exact extended.follow followed
  · rw [hasFile, (extended.directories above).mpr directory]
  · rw [hasDirectory_eq_false_iff] at free ⊢
    exact fun taken => free ((extended.directories _).mp taken)

/-- A file that has not changed is read as before. -/
theorem Extends.readText {text : String} (extended : files.Extends later)
    (reads : files.readText path = .ok text)
    (same : ∀ place, files.locate path = .ok place → later.node? place = files.node? place) :
    later.readText path = .ok text := by
  rw [readText_eq_ok_iff] at reads ⊢
  obtain ⟨place, contents, located, standing, decoded⟩ := reads
  exact ⟨place, contents, extended.locate located, (same place located).trans standing, decoded⟩

end Extending

section Reaching

variable {files : FileSystem} {path text : String} {place : Place}

theorem fromUTF8?_toUTF8 (text : String) : String.fromUTF8? text.toUTF8 = some text := by
  rw [String.fromUTF8?, dif_pos (show text.toUTF8.IsValidUTF8 from text.isValidUTF8)]
  rfl

/-- A text that stands at the destination of a path is read under that path. -/
theorem readText_of_destination (reached : files.destination path = .ok place)
    (directory : files.node? place.dropLast = some .directory)
    (standing : files.node? place = some (.file text.toUTF8)) : files.readText path = .ok text := by
  obtain ⟨names, above, found, followed, _, ordinary, _, rfl⟩ := destination_eq_ok_iff.mp reached
  rw [List.dropLast_concat] at directory
  refine readText_eq_ok_iff.mpr ⟨_, _, ?_, standing, fromUTF8?_toUTF8 text⟩
  refine bind_eq_ok_iff.mpr ⟨names, found, ?_⟩
  rcases List.eq_nil_or_concat' names with rfl | ⟨front, name, rfl⟩
  · cases ordinary.nonempty rfl
  · rw [List.dropLast_concat] at followed
    have last : (front ++ [name]).getLastD "" = name := by simp
    rw [last] at ordinary standing ⊢
    rw [follow_append, followed]
    refine follow_cons_eq_ok_iff.mpr ⟨directory, .inr (.inr ⟨ordinary, ?_, rfl⟩)⟩
    simp [standing]

/-- A path leads to its last name in the directory that the names before it lead to. -/
theorem exists_directory_of_locate {above idle : List (List Char)} {source : Place}
    (idles : ∀ item ∈ idle, Path.IsIdle item)
    (split : path.toList.splitOn '/' = above ++ idle ++ [Path.fileName path.toList])
    (named : ¬ Path.IsIdle (Path.fileName path.toList))
    (below : Path.fileName path.toList ≠ ['.', '.'])
    (located : files.locate path = .ok source) :
    ∃ directory, files.follow (files.origin path) (above.map String.ofList) = .ok directory ∧
      files.node? directory = some .directory ∧
      source = directory ++ [String.ofList (Path.fileName path.toList)] := by
  obtain ⟨names, found, followed⟩ := bind_eq_ok_iff.mp located
  rw [pathNames_eq_ok found, Path.names, split, List.map_append, List.map_append,
    List.append_assoc, follow_append] at followed
  obtain ⟨middle, reached, onward⟩ := bind_eq_ok_iff.mp followed
  have skipped : ∀ item ∈ idle.map String.ofList, item = "" ∨ item = "." := by
    rw [List.forall_mem_map]
    intro item member
    rcases idles item member with rfl | rfl
    · exact .inl rfl
    · exact .inr rfl
  rw [follow_idle_append skipped (by simp), List.map_singleton, follow_cons_eq_ok_iff] at onward
  obtain ⟨directory, idly | up | ⟨_, _, arrived⟩⟩ := onward
  · refine absurd (idly.1.imp ?_ ?_) named <;>
      exact fun same => by simpa using congrArg String.toList same
  · exact absurd (by simpa using congrArg String.toList up.1) below
  · exact ⟨middle, reached, directory, (Except.ok.inj arrived).symm⟩

/-- A file beside another one is written to the directory of that one. -/
theorem destination_of_beside {other : String} {name : List Char} {source : Place}
    (beside : Path.Beside path other name)
    (named : ¬ Path.IsIdle (Path.fileName path.toList))
    (below : Path.fileName path.toList ≠ ['.', '.'])
    (located : files.locate path = .ok source) (reached : files.destination other = .ok place) :
    IsOrdinary (String.ofList name) ∧
      ∃ directory, files.node? directory = some .directory ∧
        source = directory ++ [String.ofList (Path.fileName path.toList)] ∧
        place = directory ++ [String.ofList name] := by
  have start : files.origin other = files.origin path := by
    rw [origin, origin, beside.isAbsolute_eq]
  obtain ⟨above, idle, idles, _, here, there⟩ := beside
  obtain ⟨directory, led, isDirectory, standing⟩ :=
    exists_directory_of_locate idles here named below located
  obtain ⟨names, parent, found, followed, _, ordinary, _, rfl⟩ := destination_eq_ok_iff.mp reached
  rw [pathNames_eq_ok found, Path.names, there, List.map_append, List.map_singleton]
    at followed ordinary ⊢
  rw [List.dropLast_concat, start, led] at followed
  rw [List.getLastD_concat] at ordinary ⊢
  exact ⟨ordinary, directory, isDirectory, standing, by rw [Except.ok.inj followed]⟩

end Reaching

end Jack.FileSystem
