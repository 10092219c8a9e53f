import Jack.Command.Run
import Jack.Proofs.Files

/-!
# Workers that share the sources

Each worker works through its share in order: it reads a source, makes its outputs and writes them one
after the other. The workers take turns in any order, and a turn is one read or one write, so between
the steps of one worker the others may have changed the files. A schedule says whose turn it is; working
through the shares one after the other is one of the schedules.

The law is that what has been written and what is still due are together the outputs of all sources,
whatever the schedule. It holds as long as no output goes to the place of a source.
-/

namespace Jack

section Outcomes

variable {files : FileSystem} {command : Command} {path : String}

/-- What a command makes of the source under a path. -/
def FileSystem.outcome (files : FileSystem) (command : Command) (path : String) :
    Except JobError Product := do
  let source ← (files.readText path).mapError (.file path)
  (command.product path source).mapError (.refused path)

theorem FileSystem.outcome_congr {later : FileSystem}
    (same : later.readText path = files.readText path) :
    later.outcome command path = files.outcome command path := by
  rw [outcome, outcome, same]

/-- The paths and texts that a command writes for a source; none if it fails. -/
def FileSystem.outputs (files : FileSystem) (command : Command) (path : String) :
    List (String × String) :=
  match files.outcome command path with
  | .ok product => product.files
  | .error _ => []

/-- Whether a command fails on a source before anything is written. -/
def FileSystem.rejects (files : FileSystem) (command : Command) (path : String) : Bool :=
  match files.outcome command path with
  | .ok _ => false
  | .error _ => true

/-- Begins a source: reads it and makes its outputs, of which none is written yet. -/
def Session.begin (session : Session) (command : Command) (path : String) :
    Session × Except JobError (List (String × String)) :=
  match session.files.readText path with
  | .error error => (session, .error (.file path error))
  | .ok source =>
    let session := session.report ((command.events source).map Event.record)
    match command.product path source with
    | .error error => (session, .error (.refused path error))
    | .ok product => (session.print product.printed, .ok product.files)

/-- To carry out a command on a source is to begin the source and to write its outputs. -/
theorem Session.process_eq (session : Session) (command : Command) (path : String) :
    session.process command path =
      match session.begin command path with
      | (session, .ok files) => session.write files
      | (session, .error error) => (session, .error error) := by
  unfold process begin
  cases session.files.readText path with
  | error => rfl
  | ok source =>
    dsimp only
    cases command.product path source <;> rfl

/-- Beginning a source leaves the files as they are. -/
@[simp] theorem Session.files_begin (session : Session) (command : Command) (path : String) :
    (session.begin command path).1.files = session.files := by
  unfold begin
  cases session.files.readText path with
  | error => rfl
  | ok source =>
    dsimp only
    cases command.product path source <;> rfl

theorem Session.begin_snd (session : Session) (command : Command) (path : String) :
    (session.begin command path).2 = (session.files.outcome command path).map Product.files := by
  unfold begin FileSystem.outcome
  cases session.files.readText path with
  | error => rfl
  | ok source =>
    dsimp only [Except.mapError, bind, Except.bind]
    cases command.product path source <;> rfl

end Outcomes

/-- A worker: what it still has to write for the source at hand, the sources it has not begun, and how
many have failed. -/
structure Worker where
  pending : List (String × String)
  sources : List String
  failures : Nat

/-- One step of a worker: it writes the next output of the source at hand, or it begins the next source
if there is none. A failure ends the work on a source. -/
def Worker.step (command : Command) (session : Session) (worker : Worker) : Session × Worker :=
  match worker with
  | ⟨(path, text) :: rest, sources, failures⟩ =>
    match session.files.writeText path text with
    | .ok files =>
      ({ session with files := files }.report [wroteRecord path], ⟨rest, sources, failures⟩)
    | .error error =>
      (session.report [failureRecord (JobError.file path error).message],
        ⟨[], sources, failures + 1⟩)
  | ⟨[], path :: sources, failures⟩ =>
    match session.begin command path with
    | (session, .ok outputs) => (session, ⟨outputs, sources, failures⟩)
    | (session, .error error) =>
      (session.report [failureRecord error.message], ⟨[], sources, failures + 1⟩)
  | ⟨[], [], failures⟩ => (session, ⟨[], [], failures⟩)

/-- Whether a worker has nothing left to do. -/
def Worker.isIdle (worker : Worker) : Bool :=
  worker.pending.isEmpty && worker.sources.isEmpty

/-- The failures of workers together. -/
def totalFailures : List Worker → Nat
  | [] => 0
  | worker :: others => worker.failures + totalFailures others

theorem totalFailures_append (first second : List Worker) :
    totalFailures (first ++ second) = totalFailures first + totalFailures second := by
  induction first with
  | nil => simp [totalFailures]
  | cons worker others inductionHypothesis =>
    simp only [List.cons_append, totalFailures, inductionHypothesis]
    omega

/-- The workers and the session that they share. -/
structure Pool where
  session : Session
  workers : List Worker

namespace Pool

/-- The pool before the first step: each worker has its share. -/
def start (session : Session) (shares : List (List String)) : Pool :=
  ⟨session, shares.map fun share => ⟨[], share, 0⟩⟩

/-- One step of the worker whose turn it is. -/
def step (command : Command) (pool : Pool) (turn : Nat) : Pool :=
  match pool.workers[turn]? with
  | none => pool
  | some worker =>
    let (session, worker) := worker.step command pool.session
    ⟨session, pool.workers.set turn worker⟩

/-- The steps of a schedule, one after the other. -/
def run (command : Command) (pool : Pool) (schedule : List Nat) : Pool :=
  schedule.foldl (step command) pool

/-- Whether all workers are done. -/
def isFinished (pool : Pool) : Bool :=
  pool.workers.all Worker.isIdle

/-- The number of failures of all workers. -/
def failures (pool : Pool) : Nat :=
  totalFailures pool.workers

end Pool

section Steps

/-- What a step of a worker may do to the files and to the worker. -/
inductive Worker.Steps (command : Command) (files : FileSystem) :
    Worker → FileSystem → Worker → Prop where
  | written {path text rest sources failures later}
      (writes : files.writeText path text = .ok later) :
      Steps command files ⟨(path, text) :: rest, sources, failures⟩ later ⟨rest, sources, failures⟩
  | unwritten {path text rest sources failures error}
      (fails : files.writeText path text = .error error) :
      Steps command files ⟨(path, text) :: rest, sources, failures⟩ files
        ⟨[], sources, failures + 1⟩
  | begun {path sources failures product} (accepted : files.outcome command path = .ok product) :
      Steps command files ⟨[], path :: sources, failures⟩ files ⟨product.files, sources, failures⟩
  | rejected {path sources failures error} (refused : files.outcome command path = .error error) :
      Steps command files ⟨[], path :: sources, failures⟩ files ⟨[], sources, failures + 1⟩
  | idle {failures} : Steps command files ⟨[], [], failures⟩ files ⟨[], [], failures⟩

theorem Worker.steps_step (command : Command) (session : Session) (worker : Worker) :
    Steps command session.files worker (worker.step command session).1.files
      (worker.step command session).2 := by
  obtain ⟨pending, sources, failures⟩ := worker
  cases pending with
  | cons output rest =>
    obtain ⟨path, text⟩ := output
    cases writes : session.files.writeText path text with
    | ok later =>
      simp only [step, writes]
      exact .written writes
    | error error =>
      simp only [step, writes]
      exact .unwritten writes
  | nil =>
    cases sources with
    | nil => exact .idle
    | cons path sources =>
      have same := session.files_begin command path
      have result := session.begin_snd command path
      cases begun : session.begin command path with
      | mk next made =>
        rw [begun] at same result
        cases outcome : session.files.outcome command path with
        | ok product =>
          rw [outcome] at result
          cases result
          simp only [step, begun]
          rw [same]
          exact .begun outcome
        | error error =>
          rw [outcome] at result
          cases result
          simp only [step, begun]
          rw [Session.report, same]
          exact .rejected outcome

/-- A step of the pool is a step of one of its workers, or nothing happens. -/
theorem Pool.step_cases (command : Command) (pool : Pool) (turn : Nat) :
    pool.step command turn = pool ∨
      ∃ before worker after, pool.workers = before ++ worker :: after ∧
        pool.step command turn = ⟨(worker.step command pool.session).1,
          before ++ (worker.step command pool.session).2 :: after⟩ := by
  unfold step
  cases found : pool.workers[turn]? with
  | none => exact .inl rfl
  | some worker =>
    obtain ⟨bound, rfl⟩ := List.getElem?_eq_some_iff.mp found
    refine .inr ⟨pool.workers.take turn, pool.workers[turn], pool.workers.drop (turn + 1), ?_, ?_⟩
    · simp
    · dsimp only
      rw [List.set_eq_take_append_cons_drop, if_pos bound]

end Steps

section Writing

/-- Texts are written under paths in order, each to the place it would have had at first. -/
inductive FileSystem.Writes (files : FileSystem) :
    List (String × String) → FileSystem → Prop where
  | nil : Writes files [] files
  | snoc {written later path text place} (earlier : Writes files written later)
      (reached : files.destination path = .ok place) :
      Writes files (written ++ [(path, text)]) (later.put place (.file text.toUTF8))

variable {files later : FileSystem} {written : List (String × String)}

theorem FileSystem.Writes.extends (writes : Writes files written later) : files.Extends later := by
  induction writes with
  | nil => exact .refl files
  | snoc _ reached inductionHypothesis =>
    refine inductionHypothesis.trans (extends_put (destination_ne_nil reached) ?_)
    intro taken
    exact node?_destination reached ((inductionHypothesis.directories _).mp taken)

/-- A place that nothing is written to stays as it is. -/
theorem FileSystem.Writes.node?_of_ne (writes : Writes files written later) {place : Place}
    (outside : ∀ output ∈ written, files.destination output.1 ≠ .ok place) :
    later.node? place = files.node? place := by
  induction writes with
  | nil => rfl
  | snoc _ reached inductionHypothesis =>
    rw [List.forall_mem_append, List.forall_mem_singleton] at outside
    rw [node?_put_of_ne, inductionHypothesis outside.1]
    rintro rfl
    exact outside.2 reached

/-- A place has the text that was written to it, if no other text was. -/
theorem FileSystem.Writes.node?_of_mem (writes : Writes files written later) {place : Place}
    {output : String × String} (member : output ∈ written)
    (reached : files.destination output.1 = .ok place)
    (agree : ∀ other ∈ written, files.destination other.1 = .ok place → other.2 = output.2) :
    later.node? place = some (.file output.2.toUTF8) := by
  induction writes with
  | nil => cases member
  | @snoc written later path text last _ lastReached inductionHypothesis =>
    rw [List.forall_mem_append, List.forall_mem_singleton] at agree
    by_cases same : place = last
    · rw [same] at agree ⊢
      rw [node?_put_self _ _ (destination_ne_nil lastReached), ← agree.2 lastReached]
    · rw [node?_put_of_ne _ _ same]
      refine inductionHypothesis ?_ agree.1
      rcases List.mem_append.mp member with earlier | latest
      · exact earlier
      · rw [List.mem_singleton.mp latest, lastReached] at reached
        exact absurd (Except.ok.inj reached).symm same

end Writing

section Accounting

/-- Nothing that a command does to some sources gets in the way of the rest: the sources can be read,
each output can be written into a directory, and it does not go to the place of a source. -/
structure FileSystem.IsClear (files : FileSystem) (command : Command) (sources : List String) :
    Prop where
  reads : ∀ path ∈ sources, ∃ text, files.readText path = .ok text
  writes : ∀ path ∈ sources, ∀ output ∈ files.outputs command path,
    ∃ place, files.destination output.1 = .ok place ∧
      files.node? place.dropLast = some .directory ∧
      ∀ source ∈ sources, files.locate source ≠ .ok place

variable {files later : FileSystem} {command : Command} {sources : List String}
  {written : List (String × String)}

/-- A source is read as at first while outputs are written. -/
theorem FileSystem.IsClear.readText_eq (clear : files.IsClear command sources)
    (writes : files.Writes written later)
    (ours : ∀ output ∈ written, output ∈ sources.flatMap (files.outputs command))
    {path : String} (member : path ∈ sources) : later.readText path = files.readText path := by
  obtain ⟨text, reads⟩ := clear.reads path member
  rw [reads]
  refine writes.extends.readText reads fun place located => writes.node?_of_ne ?_
  intro output among reached
  obtain ⟨source, within, made⟩ := List.mem_flatMap.mp (ours output among)
  obtain ⟨other, otherReached, _, apart⟩ := clear.writes source within output made
  rw [otherReached] at reached
  exact apart path member (located.trans reached.symm)

/-- An output is written where it would have been written at first. -/
theorem FileSystem.IsClear.writeText_eq (clear : files.IsClear command sources)
    (writes : files.Writes written later) {path text : String}
    (due : (path, text) ∈ sources.flatMap (files.outputs command)) :
    ∃ place, files.destination path = .ok place ∧
      later.writeText path text = .ok (later.put place (.file text.toUTF8)) := by
  obtain ⟨source, within, made⟩ := List.mem_flatMap.mp due
  obtain ⟨place, reached, directory, _⟩ := clear.writes source within _ made
  exact ⟨place, reached, writeText_eq_ok_iff.mpr
    ⟨place, writes.extends.destination reached directory, rfl⟩⟩

/-- The outputs that a worker still has to write, those of sources it has not begun included. -/
def Worker.due (files : FileSystem) (command : Command) (worker : Worker) :
    List (String × String) :=
  worker.pending ++ worker.sources.flatMap (files.outputs command)

/-- The books of a pool are balanced: what has been written and what is due are the outputs of all
sources, and the failures so far and those to come are the sources that are rejected. -/
structure Pool.Accounts (files : FileSystem) (command : Command) (sources : List String)
    (pool : Pool) (written : List (String × String)) : Prop where
  writes : files.Writes written pool.session.files
  conserved : (written ++ pool.workers.flatMap (Worker.due files command)).Perm
    (sources.flatMap (files.outputs command))
  counted : pool.failures +
    (pool.workers.flatMap Worker.sources).countP (files.rejects command) =
      sources.countP (files.rejects command)
  known : ∀ path ∈ pool.workers.flatMap Worker.sources, path ∈ sources

/-- A step of a worker moves outputs from what is due to what has been written, and a rejected source
from what is waiting to what has failed. -/
theorem Worker.Steps.conserve {current : FileSystem} {worker next : Worker}
    {others : List (String × String)} (clear : files.IsClear command sources)
    (steps : Worker.Steps command current worker later next)
    (writes : files.Writes written current)
    (known : ∀ path ∈ worker.sources, path ∈ sources)
    (conserved : (written ++ (worker.due files command ++ others)).Perm
      (sources.flatMap (files.outputs command))) :
    ∃ more, files.Writes more later ∧
      (more ++ (next.due files command ++ others)).Perm
        (sources.flatMap (files.outputs command)) ∧
      next.failures + next.sources.countP (files.rejects command) =
        worker.failures + worker.sources.countP (files.rejects command) ∧
      ∀ path ∈ next.sources, path ∈ sources := by
  have ours : ∀ output ∈ written, output ∈ sources.flatMap (files.outputs command) :=
    fun output member => conserved.mem_iff.mp (List.mem_append_left _ member)
  cases steps with
  | @written path text rest waiting failures _ wrote =>
    have due : (path, text) ∈ sources.flatMap (files.outputs command) :=
      conserved.mem_iff.mp (by simp [Worker.due])
    obtain ⟨place, reached, put⟩ := clear.writeText_eq writes due
    cases put.symm.trans wrote
    exact ⟨written ++ [(path, text)], .snoc writes reached, by simpa [Worker.due] using conserved,
      rfl, known⟩
  | @unwritten path text rest waiting failures error fails =>
    have due : (path, text) ∈ sources.flatMap (files.outputs command) :=
      conserved.mem_iff.mp (by simp [Worker.due])
    obtain ⟨place, reached, put⟩ := clear.writeText_eq writes due
    cases put.symm.trans fails
  | @begun path waiting failures product accepted =>
    rw [List.forall_mem_cons] at known
    rw [FileSystem.outcome_congr (clear.readText_eq writes ours known.1)] at accepted
    have made : files.outputs command path = product.files := by
      simp only [FileSystem.outputs, accepted]
    have kept : files.rejects command path = false := by
      simp only [FileSystem.rejects, accepted]
    refine ⟨written, writes, ?_, ?_, known.2⟩
    · simpa [Worker.due, made] using conserved
    · rw [List.countP_cons_of_neg (by simp [kept])]
  | @rejected path waiting failures error refused =>
    rw [List.forall_mem_cons] at known
    rw [FileSystem.outcome_congr (clear.readText_eq writes ours known.1)] at refused
    have made : files.outputs command path = [] := by
      simp only [FileSystem.outputs, refused]
    have fails : files.rejects command path = true := by
      simp only [FileSystem.rejects, refused]
    refine ⟨written, writes, ?_, ?_, known.2⟩
    · simpa [Worker.due, made] using conserved
    · dsimp only
      rw [List.countP_cons_of_pos fails]
      omega
  | idle => exact ⟨written, writes, conserved, rfl, known⟩

/-- The books stay balanced whoever takes a turn. -/
theorem Pool.Accounts.step {pool : Pool} (clear : files.IsClear command sources)
    (accounts : Accounts files command sources pool written) (turn : Nat) :
    ∃ more, Accounts files command sources (pool.step command turn) more := by
  rcases pool.step_cases command turn with same | ⟨before, worker, after, split, stepped⟩
  · rw [same]
    exact ⟨written, accounts⟩
  · obtain ⟨writes, conserved, counted, known⟩ := accounts
    rw [split] at conserved known
    rw [Pool.failures, split] at counted
    simp only [List.flatMap_append, List.flatMap_cons, List.forall_mem_append] at known
    -- The share of the worker whose turn it is comes to the front.
    have front (who : Worker) : ((before ++ who :: after).flatMap (Worker.due files command)).Perm
        (who.due files command ++ (before.flatMap (Worker.due files command) ++
          after.flatMap (Worker.due files command))) := by
      rw [List.flatMap_append, List.flatMap_cons]
      exact List.perm_append_comm_assoc ..
    obtain ⟨more, wrote, balanced, failed, still⟩ :=
      (worker.steps_step command pool.session).conserve clear writes known.2.1
        (((front worker).symm.append_left written).trans conserved)
    rw [stepped]
    refine ⟨more, wrote, ((front _).append_left more).trans balanced, ?_, ?_⟩
    · simp only [Pool.failures, totalFailures_append, totalFailures, List.flatMap_append,
        List.flatMap_cons, List.countP_append] at counted ⊢
      omega
    · simp only [List.flatMap_append, List.flatMap_cons, List.forall_mem_append]
      exact ⟨known.1, still, known.2.2⟩

/-- The books stay balanced along every schedule. -/
theorem Pool.Accounts.run {pool : Pool} (clear : files.IsClear command sources)
    (accounts : Accounts files command sources pool written) (schedule : List Nat) :
    ∃ more, Accounts files command sources (pool.run command schedule) more := by
  induction schedule generalizing pool written with
  | nil => exact ⟨written, accounts⟩
  | cons turn rest inductionHypothesis =>
    obtain ⟨more, next⟩ := accounts.step clear turn
    exact inductionHypothesis next

theorem Pool.failures_start (session : Session) (shares : List (List String)) :
    (start session shares).failures = 0 := by
  induction shares with
  | nil => rfl
  | cons share rest inductionHypothesis =>
    simpa [start, Pool.failures, totalFailures] using inductionHypothesis

theorem Pool.due_start (session : Session) (shares : List (List String)) :
    (start session shares).workers.flatMap (Worker.due files command) =
      shares.flatten.flatMap (files.outputs command) := by
  induction shares with
  | nil => rfl
  | cons share rest inductionHypothesis =>
    simpa [start, Worker.due] using inductionHypothesis

theorem Pool.sources_start (session : Session) (shares : List (List String)) :
    (start session shares).workers.flatMap Worker.sources = shares.flatten := by
  induction shares with
  | nil => rfl
  | cons share rest inductionHypothesis => simpa [start] using inductionHypothesis

/-- At the start everything is due. -/
theorem Pool.accounts_start (session : Session) (command : Command) (shares : List (List String)) :
    Accounts session.files command shares.flatten (start session shares) [] := by
  refine ⟨.nil, ?_, ?_, ?_⟩
  · rw [due_start, List.nil_append]
  · rw [sources_start, failures_start, Nat.zero_add]
  · rw [sources_start]
    exact fun _ => id

theorem Pool.due_of_isFinished {pool : Pool} (finished : pool.isFinished) :
    pool.workers.flatMap (Worker.due files command) = [] ∧
      pool.workers.flatMap Worker.sources = [] := by
  simp only [isFinished, List.all_eq_true, Worker.isIdle, Bool.and_eq_true, List.isEmpty_iff]
    at finished
  simp only [List.flatMap_eq_nil_iff]
  refine ⟨fun worker member => ?_, fun worker member => (finished worker member).2⟩
  simp [Worker.due, finished worker member]

/-- When all workers are done, all outputs have been written, and the failures are the sources that are
rejected. -/
theorem Pool.written_of_isFinished {session : Session} {shares : List (List String)}
    (flat : shares.flatten = sources) (clear : session.files.IsClear command sources)
    {schedule : List Nat} (finished : ((start session shares).run command schedule).isFinished) :
    (∃ written, written.Perm (sources.flatMap (session.files.outputs command)) ∧
      session.files.Writes written ((start session shares).run command schedule).session.files) ∧
    ((start session shares).run command schedule).failures =
      sources.countP (session.files.rejects command) := by
  subst flat
  obtain ⟨written, writes, conserved, counted, _⟩ :=
    (accounts_start session command shares).run clear schedule
  obtain ⟨due, waiting⟩ := due_of_isFinished finished
  rw [due, List.append_nil] at conserved
  rw [waiting] at counted
  exact ⟨⟨written, conserved, writes⟩, counted⟩

end Accounting

section Schedules

variable {command : Command} {session : Session} {before after : List Worker}

/-- What comes of a source: the session with a failure logged, and the number of failures. -/
def Session.settle : Session × Except JobError Unit → Session × Nat
  | (session, .ok ()) => (session, 0)
  | (session, .error error) => (session.report [failureRecord error.message], 1)

theorem Session.attempt_eq (session : Session) (command : Command) (path : String) :
    session.attempt command path = settle (session.process command path) := by
  unfold attempt settle
  split <;> simp_all

/-- Some schedule leads from one pool to another. -/
def Pool.Reaches (command : Command) (pool later : Pool) : Prop :=
  ∃ schedule, pool.run command schedule = later

theorem Pool.Reaches.refl (pool : Pool) : Reaches command pool pool := ⟨[], rfl⟩

theorem Pool.Reaches.trans {pool later last : Pool} (first : Reaches command pool later)
    (second : Reaches command later last) : Reaches command pool last := by
  obtain ⟨schedule, rfl⟩ := first
  obtain ⟨others, rfl⟩ := second
  exact ⟨schedule ++ others, List.foldl_append⟩

/-- Each worker can be given the next turn. -/
theorem Pool.reaches_step (session : Session) (before : List Worker) (worker : Worker)
    (after : List Worker) :
    Reaches command ⟨session, before ++ worker :: after⟩
      ⟨(worker.step command session).1, before ++ (worker.step command session).2 :: after⟩ :=
  ⟨[before.length], by simp [run, step]⟩

/-- A worker that is given enough turns writes its outputs. -/
theorem Pool.reaches_write (session : Session) (outputs : List (String × String))
    (sources : List String) (failures : Nat) :
    Reaches command ⟨session, before ++ ⟨outputs, sources, failures⟩ :: after⟩
      ⟨(Session.settle (session.write outputs)).1,
        before ++ ⟨[], sources, failures + (Session.settle (session.write outputs)).2⟩ :: after⟩ := by
  induction outputs generalizing session with
  | nil => exact .refl _
  | cons output rest inductionHypothesis =>
    obtain ⟨path, text⟩ := output
    refine (reaches_step ..).trans ?_
    cases writes : session.files.writeText path text with
    | ok files =>
      simp only [Worker.step, Session.write, writes]
      exact inductionHypothesis _
    | error error =>
      simp only [Worker.step, Session.write, writes]
      exact .refl _

/-- A worker that is given enough turns is done with its next source. -/
theorem Pool.reaches_attempt (session : Session) (path : String) (sources : List String)
    (failures : Nat) :
    Reaches command ⟨session, before ++ ⟨[], path :: sources, failures⟩ :: after⟩
      ⟨(session.attempt command path).1,
        before ++ ⟨[], sources, failures + (session.attempt command path).2⟩ :: after⟩ := by
  rw [Session.attempt_eq, Session.process_eq]
  refine (reaches_step ..).trans ?_
  simp only [Worker.step]
  cases session.begin command path with
  | mk next made =>
    cases made with
    | ok outputs => exact reaches_write next outputs sources failures
    | error error => exact .refl _

/-- A worker that is given enough turns is done with its share. -/
theorem Pool.reaches_attemptAll (session : Session) (sources : List String) (failures : Nat) :
    Reaches command ⟨session, before ++ ⟨[], sources, failures⟩ :: after⟩
      ⟨(session.attemptAll command sources).1,
        before ++ ⟨[], [], failures + (session.attemptAll command sources).2⟩ :: after⟩ := by
  induction sources generalizing session failures with
  | nil => exact .refl _
  | cons path rest inductionHypothesis =>
    refine (reaches_attempt session path rest failures).trans ?_
    have onward := inductionHypothesis (session.attempt command path).1
      (failures + (session.attempt command path).2)
    rw [Nat.add_assoc] at onward
    exact onward

/-- Working through the shares one after the other is one of the schedules. -/
theorem Pool.exists_workers_of_runShares (command : Command) (session : Session)
    (before : List Worker) (shares : List (List String)) :
    ∃ workers, (∀ worker ∈ workers, worker.isIdle) ∧
      totalFailures workers = (session.runShares command shares).2 ∧
      Reaches command ⟨session, before ++ (start session shares).workers⟩
        ⟨(session.runShares command shares).1, before ++ workers⟩ := by
  induction shares generalizing session before with
  | nil => exact ⟨[], nofun, rfl, .refl _⟩
  | cons share rest inductionHypothesis =>
    obtain ⟨workers, idle, failures, reaches⟩ :=
      inductionHypothesis (session.attemptAll command share).1
        (before ++ [⟨[], [], 0 + (session.attemptAll command share).2⟩])
    refine ⟨⟨[], [], 0 + (session.attemptAll command share).2⟩ :: workers, ?_, ?_, ?_⟩
    · rw [List.forall_mem_cons]
      exact ⟨rfl, idle⟩
    · rw [totalFailures, failures, Nat.zero_add]
      rfl
    · refine (reaches_attemptAll session share 0).trans ?_
      simpa [start, Session.runShares] using reaches

/-- Some schedule does what working through the shares one after the other does. -/
theorem Pool.exists_schedule (session : Session) (command : Command)
    (shares : List (List String)) :
    ∃ schedule, ((start session shares).run command schedule).isFinished ∧
      ((start session shares).run command schedule).session =
        (session.runShares command shares).1 ∧
      ((start session shares).run command schedule).failures =
        (session.runShares command shares).2 := by
  obtain ⟨workers, idle, failures, schedule, ran⟩ :=
    exists_workers_of_runShares command session [] shares
  refine ⟨schedule, ?_⟩
  rw [show start session shares = ⟨session, [] ++ (start session shares).workers⟩ from rfl, ran]
  exact ⟨List.all_eq_true.mpr idle, rfl, failures⟩

end Schedules

end Jack
