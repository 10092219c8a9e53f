import Jack.Proofs.Outputs

/-!
# Runs on a directory

The compiler leaves the same files behind whatever the number of workers and the order of their steps:
two sources never share a code file. Markup is different. The listing of a class has the name of the tree
of a class that is called the same with one letter `T` more, so the outputs are kept apart exactly when
there are no two such classes; if there are, one text is lost and no failure is counted.
-/

namespace Jack

section Agreement

variable {files : FileSystem} {sources : List String} {path other : String}
  {source otherSource place : Place} {ending otherEnding : List Char}

/-- Outputs at the same place have the same name, and come from the same source if the stems are the
same. -/
theorem FileSystem.IsNextTo.unique (first : files.IsNextTo path source ending place)
    (second : files.IsNextTo other otherSource otherEnding place) :
    Path.stem path ++ ending = Path.stem other ++ otherEnding ∧
      (Path.stem path = Path.stem other → source = otherSource) := by
  obtain ⟨directory, _, standing, output⟩ := first
  obtain ⟨otherDirectory, _, otherStanding, otherOutput⟩ := second
  obtain ⟨sameDirectory, sameName⟩ :=
    List.append_inj' (output.symm.trans otherOutput) (by simp only [List.length_singleton])
  rw [List.singleton_inj, String.ofList_inj] at sameName
  refine ⟨sameName, fun stems => ?_⟩
  rw [standing, otherStanding, sameDirectory, stems]

theorem FileSystem.exists_locate_of_readText {text : String} (reads : files.readText path = .ok text) :
    ∃ source, files.locate path = .ok source := by
  obtain ⟨source, _, located, _⟩ := readText_eq_ok_iff.mp reads
  exact ⟨source, located⟩

/-- Paths that lead to the same file read the same text. -/
theorem FileSystem.text_eq_of_locate {text otherText : String} (reads : files.readText path = .ok text)
    (otherReads : files.readText other = .ok otherText) (located : files.locate path = .ok source)
    (otherLocated : files.locate other = .ok source) : otherText = text := by
  have same : files.readText other = files.readText path := by
    simp only [readText, located, otherLocated]
  rw [same, reads] at otherReads
  exact (Except.ok.inj otherReads).symm

/-- Outputs of one kind at the same place come from the same text. -/
theorem FileSystem.IsNextTo.text_eq {text otherText : String}
    (first : files.IsNextTo path source ending place)
    (second : files.IsNextTo other otherSource ending place)
    (located : files.locate path = .ok source) (otherLocated : files.locate other = .ok otherSource)
    (reads : files.readText path = .ok text) (otherReads : files.readText other = .ok otherText) :
    otherText = text := by
  obtain ⟨names, sources⟩ := first.unique second
  rw [← sources (List.append_cancel_right names)] at otherLocated
  exact text_eq_of_locate reads otherReads located otherLocated

/-- A listing has the place of a tree when the stem of its source with the letter `T` is the stem of
the other source. -/
theorem FileSystem.IsNextTo.stem_eq (first : files.IsNextTo path source "T.xml".toList place)
    (second : files.IsNextTo other otherSource ".xml".toList place) :
    Path.stem other = Path.stem path ++ ['T'] := by
  have names := (first.unique second).1
  have longer : Path.stem path ++ "T.xml".toList = (Path.stem path ++ ['T']) ++ ".xml".toList := by
    simp
  rw [longer] at names
  exact (List.append_cancel_right names).symm

/-- Two sources never share a code file. -/
theorem FileSystem.text_eq_of_codePath {text otherText : String} (named : isSourceName path)
    (otherNamed : isSourceName other) (reads : files.readText path = .ok text)
    (otherReads : files.readText other = .ok otherText)
    (reached : files.destination (codePath path) = .ok place)
    (otherReached : files.destination (codePath other) = .ok place) : otherText = text := by
  obtain ⟨source, located⟩ := exists_locate_of_readText reads
  obtain ⟨otherSource, otherLocated⟩ := exists_locate_of_readText otherReads
  exact (isNextTo_codePath named located reached).text_eq
    (isNextTo_codePath otherNamed otherLocated otherReached) located otherLocated reads otherReads

theorem FileSystem.agrees_compile (named : ∀ path ∈ sources, isSourceName path) :
    files.Agrees .compile sources := by
  intro path member other otherMember output made second otherMade place reached otherReached
  obtain ⟨text, code, reads, compiled, rfl⟩ := mem_outputs_compile_iff.mp made
  obtain ⟨otherText, otherCode, otherReads, otherCompiled, rfl⟩ :=
    mem_outputs_compile_iff.mp otherMade
  dsimp only at reached otherReached ⊢
  obtain rfl := text_eq_of_codePath (named path member) (named other otherMember) reads otherReads
    reached otherReached
  exact (Except.ok.inj (compiled.symm.trans otherCompiled)).symm

/-- Sources share no markup file if no stem is that of another source with the letter `T`. -/
theorem FileSystem.agrees_markup (named : ∀ path ∈ sources, isSourceName path)
    (apart : ∀ path ∈ sources, ∀ other ∈ sources, Path.stem other ≠ Path.stem path ++ ['T']) :
    files.Agrees .markup sources := by
  intro path member other otherMember output made second otherMade place reached otherReached
  obtain ⟨text, tokens, declaration, reads, found, parsed, kind⟩ := mem_outputs_markup_iff.mp made
  obtain ⟨otherText, otherTokens, otherDeclaration, otherReads, otherFound, otherParsed, otherKind⟩ :=
    mem_outputs_markup_iff.mp otherMade
  obtain ⟨source, located⟩ := exists_locate_of_readText reads
  obtain ⟨otherSource, otherLocated⟩ := exists_locate_of_readText otherReads
  have isSource := named path member
  have otherIsSource := named other otherMember
  rcases kind with rfl | rfl <;> rcases otherKind with rfl | rfl <;>
    dsimp only at reached otherReached ⊢
  · have listing := isNextTo_tokenMarkupPath isSource located reached
    have otherListing := isNextTo_tokenMarkupPath otherIsSource otherLocated otherReached
    obtain rfl := listing.text_eq otherListing located otherLocated reads otherReads
    rw [Except.ok.inj (otherFound.symm.trans found)]
  · have listing := isNextTo_tokenMarkupPath isSource located reached
    have otherTree := isNextTo_classMarkupPath otherIsSource otherLocated otherReached
    exact absurd (listing.stem_eq otherTree) (apart path member other otherMember)
  · have tree := isNextTo_classMarkupPath isSource located reached
    have otherListing := isNextTo_tokenMarkupPath otherIsSource otherLocated otherReached
    exact absurd (otherListing.stem_eq tree) (apart other otherMember path member)
  · have tree := isNextTo_classMarkupPath isSource located reached
    have otherTree := isNextTo_classMarkupPath otherIsSource otherLocated otherReached
    obtain rfl := tree.text_eq otherTree located otherLocated reads otherReads
    obtain rfl := Except.ok.inj (otherFound.symm.trans found)
    rw [Except.ok.inj (otherParsed.symm.trans parsed)]

end Agreement

section Compiling

variable {files later : FileSystem} {sources : List String} {path text : String}

/-- What the files are when sources have been compiled: each that is accepted has its code next to it,
and nothing else has changed. Nothing is written for a source that is rejected. -/
structure FileSystem.IsCompiled (files : FileSystem) (sources : List String) (later : FileSystem) :
    Prop where
  workingDirectory : later.workingDirectory = files.workingDirectory
  code : ∀ path ∈ sources, ∀ text code, files.readText path = .ok text →
    compileSource {} text = .ok code →
      later.readText (codePath path) = .ok code ∧
        ∃ place, files.destination (codePath path) = .ok place ∧
          later.node? place = some (.file code.toUTF8)
  others : ∀ place,
    (∀ path ∈ sources, ∀ text code, files.readText path = .ok text →
      compileSource {} text = .ok code → files.destination (codePath path) ≠ .ok place) →
    later.node? place = files.node? place
  rejected : ∀ path ∈ sources, ∀ text error, files.readText path = .ok text →
    compileSource {} text = .error error →
      ∀ place, files.destination (codePath path) = .ok place →
        later.node? place = files.node? place
  kept : ∀ path ∈ sources, later.readText path = files.readText path

theorem FileSystem.IsSettled.isCompiled (settled : files.IsSettled .compile sources later)
    (named : ∀ path ∈ sources, isSourceName path) : files.IsCompiled sources later where
  workingDirectory := settled.workingDirectory
  code path member text code reads compiled := by
    have written := settled.outputs path member (codePath path, code)
      (mem_outputs_compile_iff.mpr ⟨text, code, reads, compiled, rfl⟩)
    dsimp only at written
    exact written
  others place outside := by
    refine settled.others place fun path member output made => ?_
    obtain ⟨text, code, reads, compiled, rfl⟩ := mem_outputs_compile_iff.mp made
    dsimp only
    exact outside path member text code reads compiled
  rejected path member text error reads refused place reached := by
    refine settled.others place fun other otherMember output made otherReached => ?_
    obtain ⟨otherText, code, otherReads, compiled, rfl⟩ := mem_outputs_compile_iff.mp made
    dsimp only at otherReached
    rw [text_eq_of_codePath (named path member) (named other otherMember) reads otherReads
      reached otherReached, refused] at compiled
    cases compiled
  kept := settled.kept

/-- A source that can be read is rejected when it does not compile. -/
theorem FileSystem.rejects_compile_iff (reads : files.readText path = .ok text) :
    files.rejects .compile path ↔ ∃ error, compileSource {} text = .error error := by
  cases compiled : compileSource {} text with
  | error error =>
    have refused : files.outcome .compile path = .error (.refused path error) := by
      simp [outcome, reads, Command.product, compiled, Except.mapError, bind, Except.bind]
    simp [rejects, refused]
  | ok code =>
    have accepted : files.outcome .compile path = .ok ⟨[(codePath path, code)], ""⟩ :=
      outcome_eq_ok_iff.mpr ⟨text, reads, by
        simp [Command.product, compiled, bind, Except.bind, pure, Except.pure]⟩
    simp [rejects, accepted]

end Compiling

section Runs

variable {session : Session} {defaultJobs : Nat} {words : List String} {arguments : Arguments}
  {sources : List String}

/-- A run works through the shares of its workers, and its exit code says whether a source failed. -/
theorem Session.run_of_discover (asked : Arguments.read defaultJobs words = .ok arguments)
    (found : discover session.files arguments.path = .ok sources) (nonempty : sources ≠ []) :
    (session.run defaultJobs words).1.files =
        (session.runShares arguments.command (shares arguments.workers sources)).1.files ∧
      ((session.run defaultJobs words).2 ≠ exitSuccess ↔
        (session.runShares arguments.command (shares arguments.workers sources)).2 ≠ 0) := by
  obtain ⟨first, rest, rfl⟩ := List.exists_cons_of_ne_nil nonempty
  simp only [run, asked, found]
  split_ifs with none
  · simp [none]
  · simp [none, report, exitSuccess, exitFailure]

/-- In a directory whose names are in order, the sources are found in that order. -/
theorem discover_of_sorted {files : FileSystem} {path : String} {names : List String}
    (directory : files.isFile path = false) (listed : files.entries path = .ok names)
    (sorted : names.Pairwise fun first second => !(second < first)) :
    discover files path = .ok ((names.map (Path.join path)).filter fun source =>
      files.isFile source && isSourceName source) := by
  have kept : (names.mergeSort fun first second => !(second < first)) = names :=
    List.mergeSort_of_pairwise sorted
  have whole : discover files path = .ok (((names.mergeSort fun first second =>
      !(second < first)).map (Path.join path)).filter fun source =>
        files.isFile source && isSourceName source) := by
    rw [discover, directory, listed]
    rfl
  rw [whole, kept]

/-- Compiling a directory does not depend on the number of workers and the order of their steps. The
shares are the sources in order and no more than there are jobs. Whatever the schedule, the sources that
are accepted have their code when all workers are done, nothing else has changed, and the failures are
the sources that are rejected; the exit code says whether there is one. -/
theorem compile_ignores_schedule {path : String} {jobs : Nat}
    (asked : Arguments.read defaultJobs words = .ok ⟨.compile, path, jobs⟩) (positive : 0 < jobs)
    (found : discover session.files path = .ok sources) (nonempty : sources ≠ [])
    (named : ∀ source ∈ sources, isSourceName source)
    (reads : ∀ source ∈ sources, ∃ text, session.files.readText source = .ok text)
    (writes : ∀ source ∈ sources, ∀ text code, session.files.readText source = .ok text →
      compileSource {} text = .ok code →
        ∃ later, session.files.writeText (codePath source) code = .ok later) :
    let pool := Pool.start session (shares jobs sources)
    ((shares jobs sources).length ≤ jobs ∧ (shares jobs sources).flatten = sources ∧
      ∀ share ∈ shares jobs sources, share ≠ []) ∧
    (∀ schedule, (pool.run .compile schedule).isFinished →
      session.files.IsCompiled sources (pool.run .compile schedule).session.files ∧
        (pool.run .compile schedule).failures =
          sources.countP (session.files.rejects .compile)) ∧
    (∃ schedule, (pool.run .compile schedule).isFinished ∧
      (session.run defaultJobs words).1.files = (pool.run .compile schedule).session.files) ∧
    ((session.run defaultJobs words).2 ≠ exitSuccess ↔
      ∃ source ∈ sources, ∃ text error, session.files.readText source = .ok text ∧
        compileSource {} text = .error error) := by
  intro pool
  have clear : session.files.IsClear .compile sources := by
    refine FileSystem.isClear_of_isSourceName named reads fun source member output made => ?_
    obtain ⟨text, code, read, compiled, rfl⟩ := FileSystem.mem_outputs_compile_iff.mp made
    dsimp only
    exact writes source member text code read compiled
  have settles {schedule : List Nat} (finished : (pool.run .compile schedule).isFinished) :=
    Pool.isSettled_of_isFinished clear (session.files.agrees_compile named) finished
  obtain ⟨schedule, finished, sameSession, sameFailures⟩ :=
    Pool.exists_schedule session .compile (shares jobs sources)
  obtain ⟨ran, exits⟩ := Session.run_of_discover asked found nonempty
  refine ⟨⟨length_shares_le positive, flatten_shares jobs sources, fun _ => ne_nil_of_mem_shares⟩,
    fun schedule finished => ?_, ⟨schedule, finished, ?_⟩, ?_⟩
  · exact ⟨(settles finished).1.isCompiled named, (settles finished).2⟩
  · rw [sameSession]
    exact ran
  · have failures := sameFailures.symm.trans (settles finished).2
    refine exits.trans ?_
    rw [Arguments.workers, failures, ← Nat.pos_iff_ne_zero, List.countP_pos_iff]
    constructor
    · rintro ⟨source, member, rejected⟩
      obtain ⟨text, read⟩ := reads source member
      obtain ⟨error, refused⟩ := (FileSystem.rejects_compile_iff read).mp rejected
      exact ⟨source, member, text, error, read, refused⟩
    · rintro ⟨source, member, text, error, read, refused⟩
      exact ⟨source, member, (FileSystem.rejects_compile_iff read).mpr ⟨error, refused⟩⟩

/-- Three sources for two workers. The second one is rejected. -/
theorem compile_ignores_schedule_three :
    let files : FileSystem := ⟨[], [(["A.jack"], .file "class A \x7b \x7d".toUTF8),
      (["B.jack"], .file "class B \x7b".toUTF8),
      (["C.jack"], .file "class C \x7b function int f() \x7b return 1; \x7d \x7d".toUTF8)]⟩
    let session : Session := ⟨files, "", []⟩
    let sources := ["./A.jack", "./B.jack", "./C.jack"]
    (∀ schedule, ((Pool.start session (shares 2 sources)).run .compile schedule).isFinished →
      ((Pool.start session (shares 2 sources)).run .compile schedule).failures = 1 ∧
        ((Pool.start session (shares 2 sources)).run .compile schedule).session.files.readText
          "./C.vm" = .ok "function C.f 0\npush constant 1\nreturn\n") ∧
    (session.run 1 ["compile", ".", "--jobs", "2"]).2 ≠ exitSuccess := by
  intro files session sources
  have found : discover files "." = .ok sources := by
    have listed : files.entries "." = .ok ["A.jack", "B.jack", "C.jack"] := by decide +kernel
    rw [discover_of_sorted (by decide +kernel) listed (by decide +kernel)]
    decide +kernel
  have readA : files.readText "./A.jack" = .ok "class A \x7b \x7d" := by decide +kernel
  have readB : files.readText "./B.jack" = .ok "class B \x7b" := by decide +kernel
  have readC : files.readText "./C.jack" =
      .ok "class C \x7b function int f() \x7b return 1; \x7d \x7d" := by decide +kernel
  have reads : ∀ source ∈ sources, ∃ text, session.files.readText source = .ok text := by
    simp only [sources, List.forall_mem_cons]
    exact ⟨⟨_, readA⟩, ⟨_, readB⟩, ⟨_, readC⟩, List.forall_mem_nil _⟩
  have writes : ∀ source ∈ sources, ∀ text code, session.files.readText source = .ok text →
      compileSource {} text = .ok code →
        ∃ later, session.files.writeText (codePath source) code = .ok later := by
    simp only [sources, List.forall_mem_cons, FileSystem.writeText_eq_ok_iff]
    exact ⟨fun _ _ _ _ => ⟨_, ["A.vm"], by decide +kernel, rfl⟩,
      fun _ _ _ _ => ⟨_, ["B.vm"], by decide +kernel, rfl⟩,
      fun _ _ _ _ => ⟨_, ["C.vm"], by decide +kernel, rfl⟩, List.forall_mem_nil _⟩
  have asked : Arguments.read 1 ["compile", ".", "--jobs", "2"] = .ok ⟨.compile, ".", 2⟩ := by
    decide +kernel
  obtain ⟨_, every, _, exits⟩ := compile_ignores_schedule asked (by decide) found
    (by simp [sources]) (by decide +kernel) reads writes
  refine ⟨fun schedule finished => ?_, exits.mpr ?_⟩
  · obtain ⟨compiled, failures⟩ := every schedule finished
    have path : codePath "./C.jack" = "./C.vm" := by decide +kernel
    have code : compileSource {} "class C \x7b function int f() \x7b return 1; \x7d \x7d" =
        .ok "function C.f 0\npush constant 1\nreturn\n" := by decide +kernel
    have written := (compiled.code "./C.jack" (by simp [sources]) _ _ readC code).1
    rw [path] at written
    exact ⟨failures.trans (by decide +kernel), written⟩
  · obtain ⟨error, refused⟩ :=
      (FileSystem.rejects_compile_iff readB).mp (by decide +kernel)
    exact ⟨"./B.jack", by simp [sources], _, error, readB, refused⟩

end Runs

section Markup

variable {files later : FileSystem} {sources : List String}

/-- Each source has the listing of its tokens and the tree of its class next to it. -/
def FileSystem.HasMarkup (files : FileSystem) (sources : List String) (later : FileSystem) : Prop :=
  ∀ source ∈ sources, ∀ text tokens declaration, files.readText source = .ok text →
    tokenizeSource text = .ok tokens → parseTokens tokens = .ok declaration →
      later.readText (tokenMarkupPath source) = .ok (tokensText tokens) ∧
        later.readText (classMarkupPath source) = .ok declaration.markup.text

theorem FileSystem.IsSettled.hasMarkup (settled : files.IsSettled .markup sources later) :
    files.HasMarkup sources later := by
  intro source member text tokens declaration reads found parsed
  have listing := settled.outputs source member (tokenMarkupPath source, tokensText tokens)
    (mem_outputs_markup_iff.mpr ⟨text, tokens, declaration, reads, found, parsed, .inl rfl⟩)
  have tree := settled.outputs source member (classMarkupPath source, declaration.markup.text)
    (mem_outputs_markup_iff.mpr ⟨text, tokens, declaration, reads, found, parsed, .inr rfl⟩)
  dsimp only at listing tree
  exact ⟨listing.1, tree.1⟩

/-- A listing is never a tree: they differ in the first tag. -/
theorem tokensText_ne_markup (tokens : List Token) (declaration : ClassDeclaration) :
    tokensText tokens ≠ declaration.markup.text := by
  intro same
  have second := congrArg (fun text => text.toList[1]?) same
  simp [tokensText, Markup.text, ClassDeclaration.markup, Markup.lines, Text.unlines,
    Markup.openingTag, Markup.indent, String.toList_join] at second

/-- The listing of a source has the path of the tree of the source with one letter `T` more. -/
theorem tokenMarkupPath_eq_classMarkupPath {first second : String}
    (together : Path.throughLast '/' first.toList = Path.throughLast '/' second.toList)
    (stems : Path.stem second = Path.stem first ++ ['T']) :
    tokenMarkupPath first = classMarkupPath second := by
  have same : Path.directory first = Path.directory second := by
    rw [Path.directory, Path.directory, together]
  have names : String.ofList (Path.stem first) ++ "T.xml" =
      String.ofList (Path.stem second) ++ ".xml" := by
    rw [stems, ← String.toList_inj]
    simp
  rw [tokenMarkupPath, classMarkupPath, Path.sibling, Path.sibling, same, names]

/-- A source that has tokens and a class is not rejected. -/
theorem FileSystem.rejects_markup_eq_false {source text : String} {tokens : List Token}
    {declaration : ClassDeclaration} (reads : files.readText source = .ok text)
    (found : tokenizeSource text = .ok tokens) (parsed : parseTokens tokens = .ok declaration) :
    files.rejects .markup source = false := by
  have accepted : files.outcome .markup source =
      .ok ⟨[(tokenMarkupPath source, tokensText tokens),
        (classMarkupPath source, declaration.markup.text)], ""⟩ :=
    outcome_eq_ok_iff.mpr ⟨text, reads, by
      simp only [Command.product, bind_eq_ok_iff, pure_eq_ok_iff, mapError_eq_ok_iff]
      exact ⟨tokens, found, declaration, parsed, rfl⟩⟩
  simp [rejects, accepted]

/-- The markup of a directory is complete exactly when no source is named like another one with one
letter `T` more. This does not depend on the number of workers or the order of their steps, and the run
reports success in either case. -/
theorem markup_is_complete_iff {session : Session} {defaultJobs jobs : Nat} {words : List String}
    {path : String} {directory : List Char}
    (asked : Arguments.read defaultJobs words = .ok ⟨.markup, path, jobs⟩)
    (found : discover session.files path = .ok sources) (nonempty : sources ≠ [])
    (together : ∀ source ∈ sources, Path.throughLast '/' source.toList = directory)
    (named : ∀ source ∈ sources, isSourceName source)
    (accepted : ∀ source ∈ sources, ∃ text tokens declaration,
      session.files.readText source = .ok text ∧ tokenizeSource text = .ok tokens ∧
        parseTokens tokens = .ok declaration)
    (writes : ∀ source ∈ sources, ∀ output ∈ session.files.outputs .markup source,
      ∃ later, session.files.writeText output.1 output.2 = .ok later) :
    let pool := Pool.start session (shares jobs sources)
    (∀ schedule, (pool.run .markup schedule).isFinished →
      (pool.run .markup schedule).failures = 0 ∧
        (session.files.HasMarkup sources (pool.run .markup schedule).session.files ↔
          ∀ first ∈ sources, ∀ second ∈ sources,
            Path.stem second ≠ Path.stem first ++ ['T'])) ∧
    (∃ schedule, (pool.run .markup schedule).isFinished ∧
      (session.run defaultJobs words).1.files = (pool.run .markup schedule).session.files) ∧
    (session.run defaultJobs words).2 = exitSuccess := by
  intro pool
  have reads : ∀ source ∈ sources, ∃ text, session.files.readText source = .ok text := by
    intro source member
    obtain ⟨text, _, _, read, _⟩ := accepted source member
    exact ⟨text, read⟩
  have clear := FileSystem.isClear_of_isSourceName named reads writes
  have succeeds {schedule : List Nat} (finished : (pool.run .markup schedule).isFinished) :
      (pool.run .markup schedule).failures = 0 := by
    rw [(Pool.written_of_isFinished (flatten_shares jobs sources) clear finished).2,
      List.countP_eq_zero]
    intro source member
    obtain ⟨text, tokens, declaration, read, found, parsed⟩ := accepted source member
    simp [FileSystem.rejects_markup_eq_false read found parsed]
  obtain ⟨schedule, finished, sameSession, sameFailures⟩ :=
    Pool.exists_schedule session .markup (shares jobs sources)
  obtain ⟨ran, exits⟩ := Session.run_of_discover asked found nonempty
  refine ⟨fun schedule finished => ⟨succeeds finished, fun complete => ?_, fun apart => ?_⟩,
    ⟨schedule, finished, ?_⟩, ?_⟩
  · -- A listing and a tree with the same path cannot both be there.
    intro first firstMember second secondMember stems
    obtain ⟨text, tokens, declaration, read, found, parsed⟩ := accepted first firstMember
    obtain ⟨otherText, otherTokens, otherDeclaration, otherRead, otherFound, otherParsed⟩ :=
      accepted second secondMember
    have listing := (complete first firstMember _ _ _ read found parsed).1
    have tree := (complete second secondMember _ _ _ otherRead otherFound otherParsed).2
    have path := tokenMarkupPath_eq_classMarkupPath
      ((together first firstMember).trans (together second secondMember).symm) stems
    rw [path, tree] at listing
    exact tokensText_ne_markup tokens otherDeclaration (Except.ok.inj listing).symm
  · exact (Pool.isSettled_of_isFinished clear
      (session.files.agrees_markup named apart) finished).1.hasMarkup
  · rw [sameSession]
    exact ran
  · by_contra fails
    exact exits.mp fails (sameFailures.symm.trans (succeeds finished))

/-- A source that is read as a class has tokens that make up the class. -/
theorem exists_class_of_isOk {text : String} (parses : (parseSource text).isOk) :
    ∃ tokens declaration, tokenizeSource text = .ok tokens ∧
      parseTokens tokens = .ok declaration := by
  obtain ⟨declaration, parsed⟩ := exists_eq_ok_of_isOk parses
  obtain ⟨tokens, found, made⟩ := parseSource_eq_ok_iff.mp parsed
  exact ⟨tokens, declaration, found, mapError_eq_ok_iff.mpr made⟩

/-- The outputs of a source can be written when their paths have destinations. -/
theorem FileSystem.exists_writeText_of_destination {source : String} {listing tree : Place}
    (listed : files.destination (tokenMarkupPath source) = .ok listing)
    (grown : files.destination (classMarkupPath source) = .ok tree) :
    ∀ output ∈ files.outputs .markup source,
      ∃ later, files.writeText output.1 output.2 = .ok later := by
  intro output made
  obtain ⟨_, _, _, _, _, _, rfl | rfl⟩ := mem_outputs_markup_iff.mp made
  · dsimp only
    exact ⟨_, writeText_eq_ok_iff.mpr ⟨listing, listed, rfl⟩⟩
  · dsimp only
    exact ⟨_, writeText_eq_ok_iff.mpr ⟨tree, grown, rfl⟩⟩

/-- Two sources whose outputs are kept apart. -/
theorem markup_is_complete_iff_two :
    let files : FileSystem := ⟨[], [(["A.jack"], .file "class A \x7b \x7d".toUTF8),
      (["B.jack"], .file "class B \x7b \x7d".toUTF8)]⟩
    let session : Session := ⟨files, "", []⟩
    let pool := Pool.start session (shares 2 ["./A.jack", "./B.jack"])
    (∀ schedule, (pool.run .markup schedule).isFinished →
      files.HasMarkup ["./A.jack", "./B.jack"] (pool.run .markup schedule).session.files) ∧
    (session.run 1 ["xml", ".", "--jobs", "2"]).2 = exitSuccess := by
  intro files session pool
  have found : discover files "." = .ok ["./A.jack", "./B.jack"] := by
    have listed : files.entries "." = .ok ["A.jack", "B.jack"] := by decide +kernel
    rw [discover_of_sorted (by decide +kernel) listed (by decide +kernel)]
    decide +kernel
  have asked : Arguments.read 1 ["xml", ".", "--jobs", "2"] = .ok ⟨.markup, ".", 2⟩ := by
    decide +kernel
  have together : ∀ source ∈ ["./A.jack", "./B.jack"],
      Path.throughLast '/' source.toList = "./".toList := by decide +kernel
  have reads : ∀ source ∈ ["./A.jack", "./B.jack"], ∃ text,
      session.files.readText source = .ok text ∧ (parseSource text).isOk := by
    simp only [List.forall_mem_cons]
    exact ⟨⟨"class A \x7b \x7d", by decide +kernel, by decide +kernel⟩,
      ⟨"class B \x7b \x7d", by decide +kernel, by decide +kernel⟩, List.forall_mem_nil _⟩
  have accepted : ∀ source ∈ ["./A.jack", "./B.jack"], ∃ text tokens declaration,
      session.files.readText source = .ok text ∧ tokenizeSource text = .ok tokens ∧
        parseTokens tokens = .ok declaration := by
    intro source member
    obtain ⟨text, read, parses⟩ := reads source member
    obtain ⟨tokens, declaration, found, parsed⟩ := exists_class_of_isOk parses
    exact ⟨text, tokens, declaration, read, found, parsed⟩
  have writes : ∀ source ∈ ["./A.jack", "./B.jack"],
      ∀ output ∈ session.files.outputs .markup source,
        ∃ later, session.files.writeText output.1 output.2 = .ok later := by
    have listing : session.files.destination (tokenMarkupPath "./A.jack") = .ok ["AT.xml"] := by
      decide +kernel
    have tree : session.files.destination (classMarkupPath "./A.jack") = .ok ["A.xml"] := by
      decide +kernel
    have otherListing : session.files.destination (tokenMarkupPath "./B.jack") = .ok ["BT.xml"] := by
      decide +kernel
    have otherTree : session.files.destination (classMarkupPath "./B.jack") = .ok ["B.xml"] := by
      decide +kernel
    simp only [List.forall_mem_cons]
    exact ⟨FileSystem.exists_writeText_of_destination listing tree,
      FileSystem.exists_writeText_of_destination otherListing otherTree, List.forall_mem_nil _⟩
  obtain ⟨every, _, exits⟩ := markup_is_complete_iff asked found (by simp) together
    (by decide +kernel) accepted writes
  exact ⟨fun schedule finished => (every schedule finished).2.mpr (by decide +kernel), exits⟩

/-- The listing of a class is lost when there is a class with one letter `T` more in its name. The run
reports success. -/
theorem markup_overwrites_listing :
    let files : FileSystem := ⟨[], [(["A.jack"], .file "class A \x7b \x7d".toUTF8),
      (["AT.jack"], .file "class AT \x7b \x7d".toUTF8)]⟩
    let session : Session := ⟨files, "", []⟩
    let last := session.run 1 ["xml", "."]
    last.2 = exitSuccess ∧ ¬ files.HasMarkup ["./A.jack", "./AT.jack"] last.1.files := by
  intro files session last
  have found : discover session.files "." = .ok ["./A.jack", "./AT.jack"] := by
    have listed : files.entries "." = .ok ["A.jack", "AT.jack"] := by decide +kernel
    rw [discover_of_sorted (by decide +kernel) listed (by decide +kernel)]
    decide +kernel
  have asked : Arguments.read 1 ["xml", "."] = .ok ⟨.markup, ".", 1⟩ := by decide +kernel
  obtain ⟨ran, exits⟩ := Session.run_of_discover asked found (by simp)
  have whole : shares (Arguments.workers ⟨.markup, ".", 1⟩) ["./A.jack", "./AT.jack"] =
      [["./A.jack", "./AT.jack"]] := by
    simp [Arguments.workers, shares, pieces]
  rw [whole] at ran exits
  constructor
  · by_contra fails
    exact exits.mp fails (by decide +kernel)
  · intro complete
    have reads : files.readText "./A.jack" = .ok "class A \x7b \x7d" := by decide +kernel
    have otherReads : files.readText "./AT.jack" = .ok "class AT \x7b \x7d" := by decide +kernel
    obtain ⟨_, _, found, parsed⟩ := exists_class_of_isOk
      (by decide +kernel : (parseSource "class A \x7b \x7d").isOk)
    obtain ⟨_, _, otherFound, otherParsed⟩ := exists_class_of_isOk
      (by decide +kernel : (parseSource "class AT \x7b \x7d").isOk)
    have listing := (complete "./A.jack" (by simp) _ _ _ reads found parsed).1
    have tree := (complete "./AT.jack" (by simp) _ _ _ otherReads otherFound otherParsed).2
    have path : tokenMarkupPath "./A.jack" = classMarkupPath "./AT.jack" := by decide +kernel
    rw [path, tree] at listing
    exact tokensText_ne_markup _ _ (Except.ok.inj listing).symm

end Markup

end Jack
