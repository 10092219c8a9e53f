import Jack.Command.Job
import Mathlib.Data.List.TakeWhile

/-!
# The names of output files

Output files stand next to their source. Their paths are made from the path of the source by rules
about characters; here the rules are stated about names. The path of an output has the names of the
source but for the last one, and it may leave out names that lead nowhere: empty ones and single dots.
-/

namespace Jack.Path

section Marks

/-- A text is cut in two behind the last mark. -/
theorem throughLast_append_afterLast (mark : Char) (text : List Char) :
    throughLast mark text ++ afterLast mark text = text := by
  rw [throughLast, afterLast, ← List.reverse_append, List.takeWhile_append_dropWhile,
    List.reverse_reverse]

theorem not_mem_afterLast (mark : Char) (text : List Char) : mark ∉ afterLast mark text := by
  intro member
  rw [afterLast, List.mem_reverse] at member
  simpa using List.mem_takeWhile_imp member

/-- What goes up to the last mark ends in it. -/
theorem throughLast_cases (mark : Char) (text : List Char) :
    throughLast mark text = [] ∨ ∃ front, throughLast mark text = front ++ [mark] := by
  rw [throughLast]
  cases rest : text.reverse.dropWhile (· ≠ mark) with
  | nil => exact .inl rfl
  | cons c left =>
    have stops := List.head?_dropWhile_not (· ≠ mark) text.reverse
    rw [rest] at stops
    have last : c = mark := by simpa using stops
    exact .inr ⟨left.reverse, by rw [List.reverse_cons, last]⟩

end Marks

section Stems

variable {path : String}

/-- A stem is part of the last name. -/
theorem not_mem_stem (path : String) : '/' ∉ stem path := by
  have outside := not_mem_afterLast '/' path.toList
  have split := throughLast_append_afterLast '.' (fileName path.toList)
  rw [stem, splitExtension]
  split
  · exact outside
  · intro member
    refine outside ?_
    rw [← fileName, ← split]
    exact List.mem_append_left _ (List.dropLast_subset _ member)

/-- A path with an extension has it behind a dot that follows the stem. -/
theorem fileName_of_extension? {extension : String} (has : extension? path = some extension) :
    fileName path.toList = stem path ++ '.' :: extension.toList ∧ stem path ≠ [] := by
  have split := throughLast_append_afterLast '.' (fileName path.toList)
  rw [extension?, splitExtension] at has
  rw [stem, splitExtension]
  split at has
  · cases has
  · rename_i nonempty
    have extension : String.ofList (afterLast '.' (fileName path.toList)) = extension :=
      Option.some.inj has
    rw [if_neg nonempty, ← extension, String.toList_ofList]
    refine ⟨?_, nonempty⟩
    rcases throughLast_cases '.' (fileName path.toList) with none | ⟨front, ends⟩
    · simp [none] at nonempty
    · rw [ends, List.dropLast_concat]
      rw [ends, List.append_assoc] at split
      exact split.symm

end Stems

section Directories

/-- The names of a directory. A slash at its end adds none. -/
def directoryNames (directory : List Char) : List (List Char) :=
  if directory = [] then []
  else if directory.getLast? = some '/' then directory.dropLast.splitOn '/'
  else directory.splitOn '/'

/-- A name that leads nowhere. -/
def IsIdle (name : List Char) : Prop := name = [] ∨ name = ['.']

theorem directoryNames_concat (front : List Char) :
    directoryNames (front ++ ['/']) = front.splitOn '/' := by
  simp [directoryNames]

/-- Cut at its slashes, a directory may have an idle name behind its names. -/
theorem splitOn_eq_directoryNames {directory : List Char} (nonempty : directory ≠ []) :
    ∃ idle, (∀ name ∈ idle, IsIdle name) ∧
      directory.splitOn '/' = directoryNames directory ++ idle := by
  by_cases ends : directory.getLast? = some '/'
  · obtain ⟨front, rfl⟩ := List.getLast?_eq_some_iff.mp ends
    refine ⟨[[]], by simp [IsIdle], ?_⟩
    rw [directoryNames_concat, List.splitOn_append_cons_self]
    rfl
  · exact ⟨[], nofun, by simp [directoryNames, nonempty, ends]⟩

/-- What is trimmed from a directory are idle names. -/
theorem directoryNames_trimReversed (reversed : List Char) :
    ∃ idle, (∀ name ∈ idle, IsIdle name) ∧
      directoryNames reversed.reverse =
        directoryNames (trimReversed reversed).reverse ++ idle := by
  fun_induction trimReversed reversed with
  | case1 => exact ⟨[], nofun, rfl⟩
  | case2 rest nonempty inductionHypothesis =>
    obtain ⟨idle, idles, trimmed⟩ := inductionHypothesis
    obtain ⟨more, mores, split⟩ := splitOn_eq_directoryNames (List.reverse_ne_nil_iff.mpr nonempty)
    refine ⟨idle ++ more, List.forall_mem_append.mpr ⟨idles, mores⟩, ?_⟩
    rw [List.reverse_cons, directoryNames_concat, split, trimmed, List.append_assoc]
  | case3 =>
    exact ⟨[['.']], by simp [IsIdle], by decide⟩
  | case4 rest nonempty inductionHypothesis =>
    obtain ⟨idle, idles, trimmed⟩ := inductionHypothesis
    obtain ⟨more, mores, split⟩ := splitOn_eq_directoryNames (List.reverse_ne_nil_iff.mpr nonempty)
    refine ⟨idle ++ more ++ [['.']], by simp_all [IsIdle, or_imp], ?_⟩
    have dotted : ('.' :: '/' :: rest).reverse = rest.reverse ++ '/' :: ['.'] := by simp
    have names : directoryNames (rest.reverse ++ '/' :: ['.']) =
        (rest.reverse ++ '/' :: ['.']).splitOn '/' := by
      simp [directoryNames]
    rw [dotted, names, List.splitOn_append_cons_self, split, trimmed]
    simp [List.splitOn_eq_singleton]
  | case5 => exact ⟨[], nofun, (List.append_nil _).symm⟩

theorem trimReversed_ne_nil {reversed : List Char} (nonempty : reversed ≠ []) :
    trimReversed reversed ≠ [] := by
  fun_induction trimReversed reversed <;> simp_all

theorem directoryNames_ne_nil {directory : List Char} (nonempty : directory ≠ []) :
    directoryNames directory ≠ [] := by
  rw [directoryNames, if_neg nonempty]
  split <;> exact List.splitOn_ne_nil '/' _

/-- The last of the names is the one behind the last slash. -/
theorem splitOn_append {directory name : List Char}
    (ends : directory = [] ∨ directory.getLast? = some '/') (plain : '/' ∉ name) :
    (directory ++ name).splitOn '/' = directoryNames directory ++ [name] := by
  rcases ends with rfl | ends
  · exact List.splitOn_eq_singleton plain
  · obtain ⟨front, rfl⟩ := List.getLast?_eq_some_iff.mp ends
    rw [directoryNames_concat, List.append_assoc, List.singleton_append,
      List.splitOn_append_cons_self, List.splitOn_eq_singleton plain]

/-- An entry of a directory has the names of the directory and its own. -/
theorem splitOn_join {directory name : String} (plain : '/' ∉ name.toList) :
    (join directory name).toList.splitOn '/' =
      directoryNames directory.toList ++ [name.toList] := by
  unfold join
  split
  · rename_i ends
    rw [String.toList_append]
    refine splitOn_append (ends.imp_left ?_) plain
    rintro rfl
    rfl
  · rename_i ends
    obtain ⟨nonempty, last⟩ := not_or.mp ends
    have slash : (directory ++ "/" ++ name).toList = directory.toList ++ '/' :: name.toList := by
      simp
    rw [slash, List.splitOn_append_cons_self, List.splitOn_eq_singleton plain, directoryNames,
      if_neg (by simpa using nonempty), if_neg last]

end Directories

/-- A path leads to a file of the given name in the directory of another path. Names that lead nowhere
may be left out. -/
def Beside (path other : String) (name : List Char) : Prop :=
  ∃ above idle : List (List Char), (∀ item ∈ idle, IsIdle item) ∧ (above = [] → idle = []) ∧
    path.toList.splitOn '/' = above ++ idle ++ [fileName path.toList] ∧
    other.toList.splitOn '/' = above ++ [name]

/-- A path is the part through its last slash and its last name. -/
theorem splitOn_throughLast_append {path name : List Char} (plain : '/' ∉ name) :
    (throughLast '/' path ++ name).splitOn '/' =
      directoryNames (throughLast '/' path) ++ [name] := by
  refine splitOn_append ?_ plain
  rcases throughLast_cases '/' path with none | ⟨front, ends⟩
  · exact .inl none
  · exact .inr (by simp [ends])

theorem splitOn_path (path : List Char) :
    path.splitOn '/' = directoryNames (throughLast '/' path) ++ [fileName path] := by
  rw [fileName, ← splitOn_throughLast_append (not_mem_afterLast '/' path),
    throughLast_append_afterLast]

/-- A sibling stands beside the path. -/
theorem beside_sibling (path : String) {ending : String} (plain : '/' ∉ ending.toList) :
    Beside path (sibling path ending) (stem path ++ ending.toList) := by
  obtain ⟨idle, idles, trimmed⟩ :=
    directoryNames_trimReversed (throughLast '/' path.toList).reverse
  rw [List.reverse_reverse] at trimmed
  refine ⟨directoryNames (directory path).toList, idle, idles, ?_, ?_, ?_⟩
  · intro none
    have nowhere : throughLast '/' path.toList = [] := by
      by_contra nonempty
      refine directoryNames_ne_nil ?_ none
      rw [directory, String.toList_ofList, Ne, List.reverse_eq_nil_iff]
      exact trimReversed_ne_nil (by simpa using nonempty)
    rw [nowhere] at trimmed
    exact (List.append_eq_nil_iff.mp trimmed.symm).2
  · rw [splitOn_path, trimmed, directory, String.toList_ofList]
  · rw [sibling, splitOn_join]
    · simp
    · simpa using ⟨not_mem_stem path, plain⟩

/-- Another name behind the last slash stands beside the path. -/
theorem beside_throughLast (path : String) {name : List Char} (plain : '/' ∉ name) :
    Beside path (String.ofList (throughLast '/' path.toList ++ name)) name := by
  refine ⟨directoryNames (throughLast '/' path.toList), [], nofun, fun _ => rfl, ?_, ?_⟩
  · rw [List.append_nil, splitOn_path]
  · rw [String.toList_ofList, splitOn_throughLast_append plain]

/-- A path is absolute when an empty name comes before others. -/
theorem isAbsolute_iff {path : String} :
    isAbsolute path ↔ ∃ rest, rest ≠ [] ∧ path.toList.splitOn '/' = [] :: rest := by
  rw [isAbsolute, decide_eq_true_eq]
  constructor
  · intro slash
    obtain ⟨left, whole⟩ := List.head?_eq_some_iff.mp slash
    refine ⟨left.splitOn '/', List.splitOn_ne_nil '/' left, ?_⟩
    rw [whole]
    exact List.splitOn_append_cons_self [] left
  · rintro ⟨rest, nonempty, split⟩
    obtain ⟨next, others, rfl⟩ := List.exists_cons_of_ne_nil nonempty
    have whole : ['/'].intercalate (path.toList.splitOn '/') = path.toList :=
      List.intercalate_splitOn '/'
    rw [← whole, split]
    simp

/-- What stands beside a path starts from the same place. -/
theorem Beside.isAbsolute_eq {path other : String} {name : List Char}
    (beside : Beside path other name) : isAbsolute other = isAbsolute path := by
  obtain ⟨above, idle, _, none, here, there⟩ := beside
  rw [Bool.eq_iff_iff, isAbsolute_iff, isAbsolute_iff, here, there]
  cases above with
  | nil => simp [none rfl]
  | cons first others => simp

end Jack.Path
