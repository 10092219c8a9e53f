import Jack.Proofs.Declarations
import Jack.Proofs.Labels
import Jack.Proofs.WellScoped

/-!
# The rules of scope

The variables that a subroutine can name are numbered in tables: its locals, its parameters, the fields and
the statics of its class and the predefined variables. A name stands for the variable that the first of
these tables has under it, at its place in the table, as long as no table has more slots than words can
number. Variables can be declared as long as no name is repeated among the locals, among the parameters and
among the class variables; otherwise the first repetition is the error, and the names before it are declared.
-/

namespace Jack

/-- Variables in the order of their slots, with the slot of the first of them. -/
structure Table where
  kind : SlotKind
  first : Nat
  items : List Variable

/-- The slots of a table, with those that are kept in front of it, can be counted by a word. -/
def Table.Fits (table : Table) : Prop := table.first + table.items.length ≤ 65535

instance (table : Table) : Decidable table.Fits :=
  inferInstanceAs (Decidable (_ ≤ _))

/-- What a name stands for when tables are searched one after the other: the variable of the name in the
first table that has one, with its place in the table. -/
inductive FirstFound (name : String) : List Table → Option Slot → Prop where
  | here {table : Table} {tables : List Table} {slot : Slot} {place : Nat}
      (stands : table.items[place]? = some slot.item) (named : slot.item.name = name)
      (kind : slot.kind = table.kind) (index : slot.index.toNat = table.first + place) :
      FirstFound name (table :: tables) (some slot)
  | later {table : Table} {tables : List Table} {result : Option Slot}
      (absent : name ∉ table.items.map (·.name)) (further : FirstFound name tables result) :
      FirstFound name (table :: tables) result
  | nowhere : FirstFound name [] none

/-- A name that the first table has is found there, at its place. -/
theorem FirstFound.exists_place {name : String} {table : Table} {tables : List Table} {slot : Slot}
    (found : FirstFound name (table :: tables) (some slot))
    (member : name ∈ table.items.map (·.name)) :
    ∃ place, table.items[place]? = some slot.item ∧ slot.index.toNat = table.first + place := by
  cases found with
  | here stands _ _ index => exact ⟨_, stands, index⟩
  | later absent => exact absurd member absent

/-- The tables of a subroutine of a class, those first that hide the others. The parameters of a method
stand behind the object that it is called on. -/
def scopeTables (className : String) (members : List (ClassVariableKind × Variable))
    (kind : SubroutineKind) (parameters locals : List Variable) : List Table :=
  [⟨.local, 0, locals⟩, ⟨.argument, if kind = .method then 1 else 0, parameters⟩,
    ⟨.field, 0, variablesOfKind .field members⟩, ⟨.static, 0, variablesOfKind .static members⟩,
    ⟨.predefined, 0, [⟨.object className, "this"⟩, ⟨.object "Array", "that"⟩]⟩]

/-- The item is the first in a list that has the name of one before it. -/
structure StopsAt {α : Type} (name : α → String) (items before : List α) (item : α) : Prop where
  stands : ∃ after, items = before ++ item :: after
  fresh : (before.map name).Nodup
  repeated : name item ∈ before.map name

section Repetition

variable {α : Type} {name : α → String} {items before : List α} {item : α}

/-- Where names are repeated, there is a first repetition. -/
theorem exists_stopsAt (repeats : ¬ (items.map name).Nodup) :
    ∃ before item, StopsAt name items before item := by
  induction items using List.reverseRecOn with
  | nil => exact absurd List.nodup_nil repeats
  | append_singleton items last inductionHypothesis =>
    by_cases fresh : (items.map name).Nodup
    · refine ⟨items, last, ⟨[], rfl⟩, fresh, ?_⟩
      by_contra other
      apply repeats
      rw [List.map_append, List.map_singleton, ← List.concat_eq_append]
      exact fresh.concat other
    · obtain ⟨before, item, ⟨after, rfl⟩, distinct, repeated⟩ := inductionHypothesis fresh
      exact ⟨before, item, ⟨after ++ [last], by simp⟩, distinct, repeated⟩

/-- The items before the first repetition are kept, and the repetition is reported. -/
theorem untilRepetition_append {taken : List String} (after : List α)
    (fresh : (taken ++ before.map name).Nodup) (repeated : name item ∈ taken ++ before.map name) :
    untilRepetition name taken (before ++ item :: after) = before ∧
      (repetitions taken ((before ++ item :: after).map name)).head? = some (name item) := by
  induction before generalizing taken with
  | nil =>
    have member : name item ∈ taken := by simpa using repeated
    simp [untilRepetition, repetitions, member]
  | cons first rest inductionHypothesis =>
    have other : name first ∉ taken := by
      intro member
      rw [List.map_cons, List.nodup_append] at fresh
      exact fresh.2.2 _ member _ List.mem_cons_self rfl
    have longer : (taken ++ [name first] ++ rest.map name).Nodup := by simpa using fresh
    obtain ⟨kept, reported⟩ := inductionHypothesis longer (by simpa using repeated)
    constructor
    · rw [List.cons_append, untilRepetition, if_neg other, kept]
    · rw [List.cons_append, List.map_cons, repetitions, if_neg other, List.nil_append, reported]

theorem StopsAt.untilRepetition (stops : StopsAt name items before item) :
    untilRepetition name [] items = before := by
  obtain ⟨⟨after, rfl⟩, fresh, repeated⟩ := stops
  exact (untilRepetition_append after fresh repeated).1

theorem StopsAt.head?_repetitions (stops : StopsAt name items before item) :
    (repetitions [] (items.map name)).head? = some (name item) := by
  obtain ⟨⟨after, rfl⟩, fresh, repeated⟩ := stops
  exact (untilRepetition_append after fresh repeated).2

/-- A request that reports errors succeeds exactly when there are none. -/
theorem Reports.eq_ok_iff {ε : Type} {errors : List ε} {result : Except ε Unit}
    (reports : Reports errors result) : result = .ok () ↔ errors = [] :=
  ⟨fun accepted => reports.exists_ok_iff.mp ⟨(), accepted⟩,
    fun none => (reports.exists_ok_iff.mpr none).choose_spec⟩

theorem repetitions_nil_eq_nil_iff {names : List String} :
    repetitions [] names = [] ↔ names.Nodup := by
  simp [repetitions_eq_nil_iff]

/-- A request that reports repeated names fails at the first of them. -/
theorem StopsAt.eq_error {part : ScopePart} {result : Except ResolutionError Unit}
    (stops : StopsAt name items before item)
    (reports : Reports ((repetitions [] (items.map name)).map (.redeclared · part)) result) :
    result = .error (.redeclared (name item) part) := by
  rw [reports.eq_error_iff, List.head?_map, stops.head?_repetitions]
  rfl

/-- Variables that cannot all be declared are declared up to the first repetition. -/
theorem StopsAt.holds_declare {items before : List Variable} {item : Variable}
    (stops : StopsAt (·.name) items before item) (first : UInt16) (part : ScopePart) :
    ((SlotTable.startingAt first).declare part items).1.Holds first.toNat before := by
  have holds := (SlotTable.holds_startingAt first).declare part items
  rw [List.map_nil, stops.untilRepetition] at holds
  exact holds

end Repetition

/-- The table of a kind of variables. -/
def VariableLists.table (lists : VariableLists) (kind : SlotKind) : Table :=
  ⟨kind, lists.first kind, lists.items kind⟩

theorem map_table_subroutineLists (className : String) (members : List (ClassVariableKind × Variable))
    (kind : SubroutineKind) (parameters locals : List Variable) :
    SlotKind.searched.map (subroutineLists className members kind parameters locals).table =
      scopeTables className members kind parameters locals := by
  cases kind <;> rfl

namespace Scope

section Declarations

theorem reports_declareClassVariables_ofClass (className : String)
    (members : List (ClassVariableKind × Variable)) :
    Reports ((repetitions [] (members.map (·.2.name))).map (.redeclared · .class))
      ((ofClass className).declareClassVariables members).2 :=
  reports_declareClassVariables _ [] members (by simp [declaresInClass_ofClass])

theorem declareClassVariables_eq_ok_iff (className : String)
    (members : List (ClassVariableKind × Variable)) :
    ((ofClass className).declareClassVariables members).2 = .ok () ↔
      (members.map (·.2.name)).Nodup := by
  rw [(reports_declareClassVariables_ofClass className members).eq_ok_iff, List.map_eq_nil_iff,
    repetitions_nil_eq_nil_iff]

theorem enterSubroutine_eq_ok_iff (scope : Scope) (kind : SubroutineKind)
    (parameters locals : List Variable) :
    (scope.enterSubroutine kind parameters locals).2 = .ok () ↔
      (parameters.map (·.name)).Nodup ∧ (locals.map (·.name)).Nodup := by
  rw [(scope.reports_enterSubroutine kind parameters locals).eq_ok_iff, List.append_eq_nil_iff,
    List.map_eq_nil_iff, List.map_eq_nil_iff, repetitions_nil_eq_nil_iff,
    repetitions_nil_eq_nil_iff]

/-- Class variables that cannot all be declared are declared up to the first repetition. -/
theorem exists_stopsAt_of_declareClassVariables {className : String}
    {members : List (ClassVariableKind × Variable)} {error : ResolutionError}
    (fails : ((ofClass className).declareClassVariables members).2 = .error error) :
    ∃ before item, StopsAt (·.2.name) members before item ∧
      error = .redeclared item.2.name .class ∧
      ((ofClass className).declareClassVariables members).1.Holds
        ⟨className, variablesOfKind .static before, variablesOfKind .field before, 0, [], []⟩ := by
  have repeats : ¬ (members.map (·.2.name)).Nodup := by
    rw [← declareClassVariables_eq_ok_iff className, fails]
    nofun
  obtain ⟨before, item, stops⟩ := exists_stopsAt repeats
  refine ⟨before, item, stops, ?_, ?_⟩
  · rw [stops.eq_error (reports_declareClassVariables_ofClass className members)] at fails
    exact (Except.error.inj fails).symm
  · have holds := (holds_ofClass className).declareClassVariables members
    rw [show VariableLists.classNames _ = [] from rfl, stops.untilRepetition] at holds
    exact holds

/-- Parameters that cannot all be declared are declared up to the first repetition, and then no local is
declared. -/
theorem exists_stopsAt_of_arguments {scope : Scope} {kind : SubroutineKind}
    {parameters locals : List Variable} {error : ResolutionError}
    (repeats : ¬ (parameters.map (·.name)).Nodup)
    (fails : (scope.enterSubroutine kind parameters locals).2 = .error error) :
    ∃ before item, StopsAt (·.name) parameters before item ∧
      error = .redeclared item.name .argument ∧
      (scope.enterSubroutine kind parameters locals).1.Enters scope kind before [] := by
  obtain ⟨before, item, stops⟩ := exists_stopsAt repeats
  have reported := stops.eq_error
    (SlotTable.reports_declare_startingAt kind.receivers .argument parameters)
  rw [scope.enterSubroutine_of_arguments_error reported] at fails ⊢
  exact ⟨before, item, stops, (Except.error.inj fails).symm, rfl, rfl, rfl,
    stops.holds_declare _ _, SlotTable.holds_startingAt 0⟩

/-- Behind parameters that can all be declared, locals are declared up to the first repetition. -/
theorem exists_stopsAt_of_locals {scope : Scope} {kind : SubroutineKind}
    {parameters locals : List Variable} {error : ResolutionError}
    (fresh : (parameters.map (·.name)).Nodup)
    (fails : (scope.enterSubroutine kind parameters locals).2 = .error error) :
    ∃ before item, StopsAt (·.name) locals before item ∧ error = .redeclared item.name .local ∧
      (scope.enterSubroutine kind parameters locals).1.Enters scope kind parameters before := by
  have repeats : ¬ (locals.map (·.name)).Nodup := by
    intro others
    rw [(scope.enterSubroutine_eq_ok_iff kind parameters locals).mpr ⟨fresh, others⟩] at fails
    cases fails
  obtain ⟨before, item, stops⟩ := exists_stopsAt repeats
  have accepted : ((SlotTable.startingAt kind.receivers).declare .argument parameters).2 = .ok () := by
    rw [(SlotTable.reports_declare_startingAt kind.receivers .argument parameters).eq_ok_iff,
      List.map_eq_nil_iff]
    exact repetitions_nil_eq_nil_iff.mpr fresh
  have reported := stops.eq_error (SlotTable.reports_declare_startingAt 0 .local locals)
  rw [scope.enterSubroutine_of_arguments_ok accepted] at fails ⊢
  exact ⟨before, item, stops, Except.error.inj (fails.symm.trans reported), rfl, rfl, rfl,
    (SlotTable.holds_startingAt kind.receivers).declare_of_ok accepted, stops.holds_declare _ _⟩

end Declarations

section Resolution

variable {scope : Scope} {lists : VariableLists} {name : String}

/-- Where a table has a name, it is found there, in the slot that the scope has for it. -/
theorem Holds.firstFound_cons_iff (holds : scope.Holds lists) {kind : SlotKind} {slot : Slot}
    (fits : (lists.table kind).Fits) (entry : scope.slotOf? kind name = some slot)
    (tables : List Table) (result : Option Slot) :
    FirstFound name (lists.table kind :: tables) result ↔ some slot = result := by
  constructor
  · intro found
    cases found with
    | @here _ _ other place stands named same index =>
      have word : other.index = .ofNat (lists.first kind + place) := by
        rw [← @UInt16.ofNat_toNat other.index, index]
        rfl
      have again := holds.slotOf?_iff.mpr ⟨named, same, place, stands, word⟩
      exact entry.symm.trans again
    | later absent =>
      rw [holds.slotOf?_eq_none_iff.mpr absent] at entry
      cases entry
  · rintro rfl
    obtain ⟨named, same, _⟩ := holds.slotOf?_iff.mp entry
    obtain ⟨place, stands, index⟩ := holds.exists_place (holds.fits_iff.mpr fits) entry
    exact .here stands named same index

/-- Searching the tables of some kinds finds what a scope has in them. -/
theorem Holds.firstFound_iff (holds : scope.Holds lists) {kinds : List SlotKind}
    (fit : ∀ kind ∈ kinds, (lists.table kind).Fits) (result : Option Slot) :
    FirstFound name (kinds.map lists.table) result ↔
      kinds.findSome? (scope.slotOf? · name) = result := by
  induction kinds with
  | nil =>
    constructor
    · rintro ⟨⟩
      rfl
    · rintro rfl
      exact .nowhere
  | cons kind kinds inductionHypothesis =>
    rw [List.forall_mem_cons] at fit
    rw [List.map_cons, List.findSome?_cons]
    cases entry : scope.slotOf? kind name with
    | some slot => exact holds.firstFound_cons_iff fit.1 entry _ result
    | none =>
      have absent := holds.slotOf?_eq_none_iff.mp entry
      rw [← inductionHypothesis fit.2]
      refine ⟨?_, .later absent⟩
      rintro (⟨stands, named, _, _⟩ | ⟨_, further⟩)
      · exact absurd (List.mem_map.mpr ⟨_, List.mem_of_getElem? stands, named⟩) absent
      · exact further

/-- A name stands for what is found first in the tables of a scope. -/
theorem Holds.resolve?_eq_iff (holds : scope.Holds lists)
    (fit : ∀ kind ∈ SlotKind.searched, (lists.table kind).Fits) (result : Option Slot) :
    scope.resolve? name = result ↔
      FirstFound name (SlotKind.searched.map lists.table) result :=
  (holds.firstFound_iff fit result).symm

/-- A local stands for itself, with its place as a word. -/
theorem Holds.resolve?_local (holds : scope.Holds lists) {item : Variable} {place : Nat}
    (stands : lists.locals[place]? = some item) :
    scope.resolve? item.name = some ⟨item, .local, .ofNat place⟩ := by
  have entry : scope.slotOf? .local item.name = some ⟨item, .local, .ofNat (0 + place)⟩ :=
    holds.slotOf?_iff.mpr ⟨rfl, rfl, place, stands, rfl⟩
  rw [resolve?, SlotKind.searched, List.findSome?_cons, entry, Nat.zero_add]

end Resolution

/-- The variables of a class and those of one of its subroutines can be declared exactly when no name is
repeated among the class variables, among the parameters and among the locals. Then a name stands for what
is found first in the tables of the subroutine, provided that none of them has more than 65535 slots. A
declaration that fails names the first repetition, in the parameters before the locals, and what stands
before it is declared and nothing else. -/
theorem declarations_follow_scope_rules (className : String) (groups : List ClassVariableGroup)
    (kind : SubroutineKind) (parameters : List Variable) (localGroups : List VariableGroup) :
    let members := groups.flatMap ClassVariableGroup.members
    let locals := localGroups.flatMap VariableGroup.members
    let tables := scopeTables className members kind parameters locals
    let declared := (ofClass className).declare (.classVariables groups)
    let entered := declared.1.declare (.subroutine kind parameters localGroups)
    (declared.2 = .ok () ↔ (members.map (·.2.name)).Nodup) ∧
    (entered.2 = .ok () ↔ (parameters.map (·.name)).Nodup ∧ (locals.map (·.name)).Nodup) ∧
    (declared.2 = .ok () → entered.2 = .ok () → (∀ table ∈ tables, table.Fits) → ∀ name result,
      entered.1.resolve? name = result ↔ FirstFound name tables result) ∧
    (∀ error, declared.2 = .error error → ∃ before item,
      StopsAt (·.2.name) members before item ∧ error = .redeclared item.2.name .class ∧
        declared.1.Holds ⟨className, variablesOfKind .static before, variablesOfKind .field before,
          0, [], []⟩) ∧
    ∀ error, entered.2 = .error error →
      (∃ before item, StopsAt (·.name) parameters before item ∧
        error = .redeclared item.name .argument ∧ entered.1.Enters declared.1 kind before []) ∨
      (parameters.map (·.name)).Nodup ∧
        ∃ before item, StopsAt (·.name) locals before item ∧
          error = .redeclared item.name .local ∧
          entered.1.Enters declared.1 kind parameters before := by
  intro members locals tables declared entered
  refine ⟨declareClassVariables_eq_ok_iff className members,
    declared.1.enterSubroutine_eq_ok_iff kind parameters locals, ?_, ?_, ?_⟩
  · intro declares enters fit name result
    have holds : entered.1.Holds (subroutineLists className members kind parameters locals) :=
      holds_enterSubroutine declares enters
    have same := map_table_subroutineLists className members kind parameters locals
    simp only [tables, ← same, List.forall_mem_map] at fit
    rw [holds.resolve?_eq_iff fit, same]
  · intro error fails
    exact exists_stopsAt_of_declareClassVariables fails
  · intro error fails
    by_cases fresh : (parameters.map (·.name)).Nodup
    · exact .inr ⟨fresh, exists_stopsAt_of_locals fresh fails⟩
    · exact .inl (exists_stopsAt_of_arguments fresh fails)

/-- A local hides a field of its name, and so does a parameter, whose slots in a method begin behind the
object. A static hides a predefined variable. -/
theorem declarations_follow_scope_rules_hidden :
    let scope := (ofClass "A").declareAll
      [.classVariables [⟨.static, ⟨.int, ["that"]⟩⟩, ⟨.field, ⟨.char, ["z", "y", "x"]⟩⟩],
        .subroutine .method [⟨.int, "y"⟩, ⟨.int, "x"⟩] [⟨.boolean, ["w", "x"]⟩]]
    scope.resolve? "x" = some ⟨⟨.boolean, "x"⟩, .local, 1⟩ ∧
      scope.resolve? "y" = some ⟨⟨.int, "y"⟩, .argument, 1⟩ ∧
      scope.resolve? "that" = some ⟨⟨.int, "that"⟩, .static, 0⟩ ∧ scope.resolve? "u" = none := by
  have rules := (declarations_follow_scope_rules "A"
    [⟨.static, ⟨.int, ["that"]⟩⟩, ⟨.field, ⟨.char, ["z", "y", "x"]⟩⟩] .method
    [⟨.int, "y"⟩, ⟨.int, "x"⟩] [⟨.boolean, ["w", "x"]⟩]).2.2.1 (by decide) (by decide) (by decide)
  refine ⟨(rules "x" _).mpr ?_, (rules "y" _).mpr ?_, (rules "that" _).mpr ?_, (rules "u" _).mpr ?_⟩
  · exact @FirstFound.here _ _ _ _ 1 rfl rfl rfl rfl
  · exact .later (by decide) (@FirstFound.here _ _ _ _ 0 rfl rfl rfl rfl)
  · exact .later (by decide) (.later (by decide) (.later (by decide)
      (@FirstFound.here _ _ _ _ 0 rfl rfl rfl rfl)))
  · exact .later (by decide) (.later (by decide) (.later (by decide) (.later (by decide)
      (.later (by decide) .nowhere))))

/-- Of 65537 locals the last has the index of the first, and not its own place. -/
theorem resolve?_of_too_many_locals :
    let names := (List.range 65537).map fun number => "v" ++ toString number
    let locals := VariableGroup.members ⟨.int, names⟩
    let declared := (ofClass "A").declare (.classVariables [])
    let entered := declared.1.declare (.subroutine .function [] [⟨.int, names⟩])
    declared.2 = .ok () ∧ entered.2 = .ok () ∧
      entered.1.resolve? "v0" = some ⟨⟨.int, "v0"⟩, .local, 0⟩ ∧
      entered.1.resolve? "v65536" = some ⟨⟨.int, "v65536"⟩, .local, 0⟩ ∧
      ¬ FirstFound "v65536" (scopeTables "A" [] .function [] locals)
        (entered.1.resolve? "v65536") := by
  intro names locals declared entered
  have distinct : (locals.map (·.name)).Nodup := by
    have all : locals.map (·.name) = names := by
      simp [locals, VariableGroup.members, Function.comp_def]
    rw [all]
    refine List.nodup_range.map fun first second same => ?_
    exact toString_injective ((String.append_right_inj _).mp same)
  have flat : [⟨.int, names⟩].flatMap VariableGroup.members = locals := List.flatMap_singleton ..
  have accepted : entered.2 = .ok () := by
    refine (declared.1.enterSubroutine_eq_ok_iff .function [] _).mpr ⟨List.nodup_nil, ?_⟩
    rw [flat]
    exact distinct
  have holds : entered.1.Holds (subroutineLists "A" [] .function [] locals) :=
    flat ▸ @holds_enterSubroutine .function [] _ "A" [] rfl accepted
  have stands (number : Nat) (inside : number < 65537) :
      locals[number]? = some ⟨.int, "v" ++ toString number⟩ := by
    simp [locals, names, VariableGroup.members, inside]
  -- Only the places of the locals matter from here on. The list is too long to be written out.
  clear_value entered locals
  have last : "v" ++ toString 65536 = "v65536" := by decide
  have standing := stands 65536 (by decide)
  rw [last] at standing
  have wraps : UInt16.ofNat 65536 = 0 := by decide
  have found : entered.1.resolve? "v65536" = some ⟨⟨.int, "v65536"⟩, .local, 0⟩ := by
    rw [← wraps]
    exact holds.resolve?_local standing
  refine ⟨rfl, accepted, holds.resolve?_local (stands 0 (by decide)), found, ?_⟩
  rw [found]
  intro search
  -- The index that was found is the place of another local.
  obtain ⟨place, there, index⟩ :=
    search.exists_place (List.mem_map_of_mem (List.mem_of_getElem? standing))
  have zero : 0 = place := index.trans (Nat.zero_add place)
  rw [← zero] at there
  have same := congrArg (Option.map (·.name)) ((stands 0 (by decide)).symm.trans there)
  exact absurd same (by decide)

end Scope

end Jack
