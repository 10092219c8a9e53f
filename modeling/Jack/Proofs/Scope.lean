import Jack.Scope
import Mathlib.Data.List.Nodup

/-!
# What the tables of a scope hold

A table is searched by name and numbered by words. `SlotTable.Holds` relates it to the plain list of its
variables in the order of declaration: what is found under a name is the variable of that name, and its
index is its place in the list as a word. Adding one variable keeps the relation, and so does a whole
declaration, which adds what stands before the first name that is taken.

Entering a subroutine fills the tables of arguments and locals with exactly what the subroutine declares,
whatever subroutine was entered before.
-/

namespace Jack

/-- The variable of a given name and its place in the list. -/
def lookup? (list : List Variable) (name : String) : Option (Variable × Nat) :=
  list.zipIdx.find? (·.1.name = name)

section Lists

variable {list : List Variable} {name : String}

/-- What is found under a name has that name and stands at the place given. -/
theorem getElem?_of_lookup? {item : Variable} {place : Nat}
    (found : lookup? list name = some (item, place)) :
    list[place]? = some item ∧ item.name = name := by
  have named := List.find?_some found
  have member := List.mem_of_find?_eq_some found
  exact ⟨List.mk_mem_zipIdx_iff_getElem?.mp member, by simpa using named⟩

theorem lookup?_eq_none_iff : lookup? list name = none ↔ name ∉ list.map (·.name) := by
  rw [lookup?, List.find?_eq_none]
  constructor
  · intro absent member
    obtain ⟨item, among, named⟩ := List.mem_map.mp member
    obtain ⟨place, stands⟩ := List.mem_iff_getElem?.mp among
    exact absent (item, place) (List.mk_mem_zipIdx_iff_getElem?.mpr stands) (by simpa using named)
  · rintro absent ⟨item, place⟩ numbered named
    have stands := List.mk_mem_zipIdx_iff_getElem?.mp numbered
    exact absent (List.mem_map.mpr ⟨item, List.mem_of_getElem? stands, by simpa using named⟩)

/-- A variable that is added is found behind all others. -/
theorem lookup?_concat (list : List Variable) (item : Variable) (name : String) :
    lookup? (list ++ [item]) name =
      (lookup? list name).or (if item.name = name then some (item, list.length) else none) := by
  unfold lookup?
  rw [List.zipIdx_append, List.find?_append]
  by_cases named : item.name = name <;> simp [named]

/-- Where names are distinct, a name is looked up at the place where it stands. -/
theorem lookup?_eq_some_iff (distinct : (list.map (·.name)).Nodup) {item : Variable} {place : Nat} :
    lookup? list name = some (item, place) ↔ list[place]? = some item ∧ item.name = name := by
  constructor
  · exact getElem?_of_lookup?
  · rintro ⟨present, rfl⟩
    cases found : lookup? list item.name with
    | none =>
      exact absurd (List.mem_map_of_mem (List.mem_of_getElem? present))
        (lookup?_eq_none_iff.mp found)
    | some entry =>
      obtain ⟨stands, named⟩ := getElem?_of_lookup? found
      have inside := (List.getElem?_eq_some_iff.mp present).1
      have places : entry.2 = place := by
        have same : (list.map (·.name))[place]? = (list.map (·.name))[entry.2]? := by
          simp only [List.getElem?_map, present, stands, Option.map_some, named]
        exact ((List.getElem?_inj (by simpa using inside) distinct).mp same).symm
      rw [places, present] at stands
      rw [Option.some.inj stands, ← places]

end Lists

/-- The items before the first one whose name is taken, either from the beginning or by an item that
stands before it. -/
def untilRepetition {α : Type} (name : α → String) (taken : List String) : List α → List α
  | [] => []
  | item :: rest =>
    if name item ∈ taken then [] else item :: untilRepetition name (taken ++ [name item]) rest

/-- It does not matter in which order names were taken. -/
theorem untilRepetition_congr {α : Type} {name : α → String} {taken other : List String}
    (same : ∀ text, text ∈ taken ↔ text ∈ other) (items : List α) :
    untilRepetition name taken items = untilRepetition name other items := by
  induction items generalizing taken other with
  | nil => rfl
  | cons item rest inductionHypothesis =>
    have extended : ∀ text, text ∈ taken ++ [name item] ↔ text ∈ other ++ [name item] := by
      intro text
      rw [List.mem_append, List.mem_append, same]
    rw [untilRepetition, untilRepetition, inductionHypothesis extended]
    simp only [same]

namespace SlotTable

/-- The table has the given variables, which were given the indices from `first` on in order. -/
structure Holds (table : SlotTable) (first : Nat) (items : List Variable) : Prop where
  distinct : (items.map (·.name)).Nodup
  size : table.entries.size = items.length
  count : table.count = .ofNat (first + items.length)
  find : ∀ name, table.find? name =
    (lookup? items name).map fun found => ⟨found.1, .ofNat (first + found.2)⟩

theorem holds_startingAt (first : UInt16) : (startingAt first).Holds first.toNat [] where
  distinct := List.nodup_nil
  size := rfl
  count := UInt16.ofNat_toNat.symm
  find _ := rfl

/-- A variable that is added has the next index, and the other entries stay. -/
theorem find?_add (table : SlotTable) (item : Variable) (name : String) :
    (table.add item).find? name =
      if name = item.name then some ⟨item, table.count⟩ else table.find? name :=
  NameMap.find?_insert ..

/-- A name is declared once it was added. -/
theorem declares_add (table : SlotTable) (item : Variable) (name : String) :
    (table.add item).declares name = true ↔ table.declares name = true ∨ name = item.name := by
  rw [declares, find?_add, declares]
  split <;> simp_all

section Declarations

variable {table : SlotTable} {first : Nat} {items : List Variable}

theorem Holds.declares_iff (holds : table.Holds first items) {name : String} :
    table.declares name = true ↔ name ∈ items.map (·.name) := by
  rw [declares, holds.find, Option.isSome_map, ← not_iff_not, Bool.not_eq_true,
    Option.isSome_eq_false_iff, Option.isNone_iff_eq_none, lookup?_eq_none_iff]

/-- A variable of a new name is added behind the others. -/
theorem Holds.add (holds : table.Holds first items) {item : Variable}
    (fresh : item.name ∉ items.map (·.name)) : (table.add item).Holds first (items ++ [item]) where
  distinct := by
    rw [List.map_append, List.map_singleton, ← List.concat_eq_append]
    exact holds.distinct.concat fresh
  size := by
    have absent : table.find? item.name = none := by
      rw [holds.find, lookup?_eq_none_iff.mpr fresh, Option.map_none]
    rw [SlotTable.add, NameMap.size_insert absent, holds.size, List.length_append,
      List.length_singleton]
  count := by
    rw [List.length_append, List.length_singleton, ← Nat.add_assoc, UInt16.ofNat_add, ← holds.count]
    rfl
  find := by
    intro name
    rw [find?_add, lookup?_concat]
    by_cases named : item.name = name
    · rw [if_pos named.symm, if_pos named, ← named, lookup?_eq_none_iff.mpr fresh, Option.none_or,
        Option.map_some, holds.count]
    · rw [if_neg (Ne.symm named), if_neg named, Option.or_none, holds.find]

/-- Variables are added up to the first that is taken. -/
theorem Holds.declare (holds : table.Holds first items) (part : ScopePart) (more : List Variable) :
    (table.declare part more).1.Holds first
      (items ++ untilRepetition (·.name) (items.map (·.name)) more) := by
  induction more generalizing table items with
  | nil => simpa [SlotTable.declare, untilRepetition] using holds
  | cons item rest inductionHypothesis =>
    unfold SlotTable.declare untilRepetition
    by_cases taken : item.name ∈ items.map (·.name)
    · rw [if_pos (holds.declares_iff.mpr taken), if_pos taken, List.append_nil]
      exact holds
    · rw [if_neg (holds.declares_iff.not.mpr taken), if_neg taken]
      simpa using inductionHypothesis (holds.add taken)

/-- Variables that can all be declared are added in order. -/
theorem Holds.declare_of_ok (holds : table.Holds first items) {part : ScopePart}
    {more : List Variable} (declared : (table.declare part more).2 = .ok ()) :
    (table.declare part more).1.Holds first (items ++ more) := by
  induction more generalizing table items with
  | nil => simpa [SlotTable.declare] using holds
  | cons item rest inductionHypothesis =>
    unfold SlotTable.declare at declared ⊢
    split at declared
    · cases declared
    · rename_i fresh
      rw [if_neg fresh]
      simpa using inductionHypothesis (holds.add (holds.declares_iff.not.mp fresh)) declared

end Declarations

end SlotTable

/-- The variables of one kind among class variables, in order. -/
def variablesOfKind (kind : ClassVariableKind) (items : List (ClassVariableKind × Variable)) :
    List Variable :=
  (items.filter (·.1 = kind)).map (·.2)

/-- The variables that every subroutine of a class can name. -/
def predefinedVariables (className : String) : List Variable :=
  [⟨.object className, "this"⟩, ⟨.object "Array", "that"⟩]

/-- The variables of a scope in the order of declaration, and the number of argument slots that are kept
for the current object. -/
structure VariableLists where
  className : String
  statics : List Variable
  fields : List Variable
  receivers : Nat
  arguments : List Variable
  locals : List Variable

namespace VariableLists

/-- The names of the class variables. -/
def classNames (lists : VariableLists) : List String := (lists.statics ++ lists.fields).map (·.name)

/-- The lists with class variables added, each behind the others of its kind. -/
def withClassVariables (lists : VariableLists) (items : List (ClassVariableKind × Variable)) :
    VariableLists :=
  { lists with
    statics := lists.statics ++ variablesOfKind .static items
    fields := lists.fields ++ variablesOfKind .field items }

/-- The variables of a kind. -/
def items (lists : VariableLists) : SlotKind → List Variable
  | .static => lists.statics
  | .field => lists.fields
  | .argument => lists.arguments
  | .local => lists.locals
  | .predefined => predefinedVariables lists.className

/-- The index that the first variable of a kind is given. -/
def first (lists : VariableLists) : SlotKind → Nat
  | .argument => lists.receivers
  | .static | .field | .local | .predefined => 0

theorem withClassVariables_nil (lists : VariableLists) : lists.withClassVariables [] = lists := by
  simp [withClassVariables, variablesOfKind]

theorem withClassVariables_cons (lists : VariableLists) (kind : ClassVariableKind) (item : Variable)
    (rest : List (ClassVariableKind × Variable)) :
    lists.withClassVariables ((kind, item) :: rest) =
      (lists.withClassVariables [(kind, item)]).withClassVariables rest := by
  cases kind <;> simp [withClassVariables, variablesOfKind]

theorem withClassVariables_static (lists : VariableLists) (item : Variable) :
    lists.withClassVariables [(.static, item)] =
      { lists with statics := lists.statics ++ [item] } := by
  simp [withClassVariables, variablesOfKind]

theorem withClassVariables_field (lists : VariableLists) (item : Variable) :
    lists.withClassVariables [(.field, item)] = { lists with fields := lists.fields ++ [item] } := by
  simp [withClassVariables, variablesOfKind]

/-- A static is put in front of the fields, so the names come in another order. -/
theorem classNames_withClassVariables_perm (lists : VariableLists) (kind : ClassVariableKind)
    (item : Variable) :
    (lists.withClassVariables [(kind, item)]).classNames.Perm (lists.classNames ++ [item.name]) := by
  cases kind with
  | static =>
    rw [withClassVariables_static]
    simpa [classNames] using List.perm_middle.trans (List.perm_append_singleton _ _).symm
  | field =>
    rw [withClassVariables_field]
    simp [classNames]

end VariableLists

/-- The variables that a subroutine of a class can name, in the order of declaration. -/
def subroutineLists (className : String) (members : List (ClassVariableKind × Variable))
    (kind : SubroutineKind) (parameters locals : List Variable) : VariableLists where
  className := className
  statics := variablesOfKind .static members
  fields := variablesOfKind .field members
  receivers := kind.receivers.toNat
  arguments := parameters
  locals := locals

namespace Scope

/-- The tables of the scope have the given variables. -/
structure Holds (scope : Scope) (lists : VariableLists) : Prop where
  className : scope.className = lists.className
  statics : scope.statics.Holds 0 lists.statics
  fields : scope.fields.Holds 0 lists.fields
  arguments : scope.arguments.Holds lists.receivers lists.arguments
  locals : scope.locals.Holds 0 lists.locals
  shared : lists.classNames.Nodup

theorem holds_ofClass (className : String) :
    (ofClass className).Holds ⟨className, [], [], 0, [], []⟩ where
  className := rfl
  statics := SlotTable.holds_startingAt 0
  fields := SlotTable.holds_startingAt 0
  arguments := SlotTable.holds_startingAt 0
  locals := SlotTable.holds_startingAt 0
  shared := List.nodup_nil

/-- The predefined variables do not depend on what is declared. -/
theorem holds_predefined (scope : Scope) :
    scope.predefined.Holds 0 (predefinedVariables scope.className) := by
  have first : SlotTable.Holds _ 0 [⟨.object scope.className, "this"⟩] :=
    (SlotTable.holds_startingAt 0).add List.not_mem_nil
  exact first.add (by simp)

theorem Holds.table {scope : Scope} {lists : VariableLists} (holds : scope.Holds lists)
    (kind : SlotKind) : (scope.table kind).Holds (lists.first kind) (lists.items kind) := by
  cases kind with
  | static => exact holds.statics
  | field => exact holds.fields
  | argument => exact holds.arguments
  | «local» => exact holds.locals
  | predefined =>
    have predefined := scope.holds_predefined
    rw [holds.className] at predefined
    exact predefined

theorem declaresInClass_ofClass (className name : String) :
    (ofClass className).declaresInClass name = false := rfl

theorem declaresInClass_addClassVariable (scope : Scope) (kind : ClassVariableKind) (item : Variable)
    (name : String) :
    (scope.addClassVariable kind item).declaresInClass name = true ↔
      scope.declaresInClass name = true ∨ name = item.name := by
  simp only [declaresInClass, Bool.or_eq_true]
  cases kind <;> simp only [addClassVariable, SlotTable.declares_add] <;> tauto

section ClassVariables

variable {scope : Scope} {lists : VariableLists}

theorem Holds.declaresInClass_iff (holds : scope.Holds lists) {name : String} :
    scope.declaresInClass name = true ↔ name ∈ lists.classNames := by
  rw [declaresInClass, Bool.or_eq_true, holds.statics.declares_iff, holds.fields.declares_iff,
    VariableLists.classNames, List.map_append, List.mem_append]

/-- A class variable of a new name is added behind the others of its kind. -/
theorem Holds.addClassVariable (holds : scope.Holds lists) (kind : ClassVariableKind)
    {item : Variable} (fresh : item.name ∉ lists.classNames) :
    (scope.addClassVariable kind item).Holds (lists.withClassVariables [(kind, item)]) := by
  have shared : (lists.withClassVariables [(kind, item)]).classNames.Nodup := by
    rw [(lists.classNames_withClassVariables_perm kind item).nodup_iff, ← List.concat_eq_append]
    exact holds.shared.concat fresh
  rw [VariableLists.classNames, List.map_append, List.mem_append, not_or] at fresh
  cases kind with
  | static =>
    rw [VariableLists.withClassVariables_static] at shared ⊢
    exact ⟨holds.className, holds.statics.add fresh.1, holds.fields, holds.arguments, holds.locals,
      shared⟩
  | field =>
    rw [VariableLists.withClassVariables_field] at shared ⊢
    exact ⟨holds.className, holds.statics, holds.fields.add fresh.2, holds.arguments, holds.locals,
      shared⟩

/-- Class variables are added up to the first that is taken. -/
theorem Holds.declareClassVariables (holds : scope.Holds lists)
    (items : List (ClassVariableKind × Variable)) :
    (scope.declareClassVariables items).1.Holds
      (lists.withClassVariables (untilRepetition (·.2.name) lists.classNames items)) := by
  induction items generalizing scope lists with
  | nil =>
    rw [untilRepetition, VariableLists.withClassVariables_nil]
    exact holds
  | cons item rest inductionHypothesis =>
    obtain ⟨kind, item⟩ := item
    unfold Scope.declareClassVariables untilRepetition
    by_cases taken : item.name ∈ lists.classNames
    · rw [if_pos (holds.declaresInClass_iff.mpr taken), if_pos taken,
        VariableLists.withClassVariables_nil]
      exact holds
    · have names (text : String) : text ∈ (lists.withClassVariables [(kind, item)]).classNames ↔
          text ∈ lists.classNames ++ [item.name] :=
        (lists.classNames_withClassVariables_perm kind item).mem_iff
      rw [if_neg (holds.declaresInClass_iff.not.mpr taken), if_neg taken,
        VariableLists.withClassVariables_cons, ← untilRepetition_congr names]
      exact inductionHypothesis (holds.addClassVariable kind taken)

/-- Class variables that can all be declared are added in order. -/
theorem Holds.declareClassVariables_of_ok (holds : scope.Holds lists)
    {items : List (ClassVariableKind × Variable)}
    (declared : (scope.declareClassVariables items).2 = .ok ()) :
    (scope.declareClassVariables items).1.Holds (lists.withClassVariables items) := by
  induction items generalizing scope lists with
  | nil =>
    rw [VariableLists.withClassVariables_nil]
    exact holds
  | cons item rest inductionHypothesis =>
    obtain ⟨kind, item⟩ := item
    unfold Scope.declareClassVariables at declared ⊢
    split at declared
    · cases declared
    · rename_i fresh
      rw [if_neg fresh, VariableLists.withClassVariables_cons]
      have added := holds.addClassVariable kind (holds.declaresInClass_iff.not.mp fresh)
      exact inductionHypothesis added declared

/-- Declaring class variables changes neither the class nor the variables of a subroutine. -/
theorem declareClassVariables_frame (scope : Scope) (items : List (ClassVariableKind × Variable)) :
    let extended := (scope.declareClassVariables items).1
    extended.className = scope.className ∧ extended.arguments = scope.arguments ∧
      extended.locals = scope.locals := by
  induction items generalizing scope with
  | nil => exact ⟨rfl, rfl, rfl⟩
  | cons item rest inductionHypothesis =>
    obtain ⟨kind, item⟩ := item
    unfold Scope.declareClassVariables
    split
    · exact ⟨rfl, rfl, rfl⟩
    · have later := inductionHypothesis (scope.addClassVariable kind item)
      cases kind <;> exact later

end ClassVariables

section Subroutines

/-- The scope is the outer one but for the variables of a subroutine of the given kind. -/
structure Enters (scope outer : Scope) (kind : SubroutineKind) (arguments locals : List Variable) :
    Prop where
  className : scope.className = outer.className
  statics : scope.statics = outer.statics
  fields : scope.fields = outer.fields
  arguments : scope.arguments.Holds kind.receivers.toNat arguments
  locals : scope.locals.Holds 0 locals

variable {scope outer : Scope} {kind : SubroutineKind} {parameters locals : List Variable}

/-- In a subroutine the class variables are those of the scope around it. -/
theorem Enters.holds (enters : scope.Enters outer kind parameters locals) {lists : VariableLists}
    (holds : outer.Holds lists) :
    scope.Holds { lists with
      receivers := kind.receivers.toNat, arguments := parameters, locals := locals } where
  className := enters.className.trans holds.className
  statics := enters.statics ▸ holds.statics
  fields := enters.fields ▸ holds.fields
  arguments := enters.arguments
  locals := enters.locals
  shared := holds.shared

/-- Where the arguments can be declared, it depends on the locals whether a subroutine can be entered. -/
theorem enterSubroutine_of_arguments_ok (scope : Scope)
    (declared : ((SlotTable.startingAt kind.receivers).declare .argument parameters).2 = .ok ()) :
    scope.enterSubroutine kind parameters locals =
      ({ scope with
        arguments := ((SlotTable.startingAt kind.receivers).declare .argument parameters).1
        locals := ((SlotTable.startingAt 0).declare .local locals).1 },
        ((SlotTable.startingAt 0).declare .local locals).2) := by
  unfold enterSubroutine
  split
  · rename_i fails
    rw [fails] at declared
    cases declared
  · rename_i accepted
    rw [accepted]

/-- Where the arguments cannot all be declared, there are no locals. -/
theorem enterSubroutine_of_arguments_error (scope : Scope) {error : ResolutionError}
    (fails : ((SlotTable.startingAt kind.receivers).declare .argument parameters).2 = .error error) :
    scope.enterSubroutine kind parameters locals =
      ({ scope with
        arguments := ((SlotTable.startingAt kind.receivers).declare .argument parameters).1
        locals := .startingAt 0 }, .error error) := by
  unfold enterSubroutine
  split
  · rename_i stops
    rw [stops] at fails ⊢
    cases fails
    rfl
  · rename_i accepted
    rw [accepted] at fails
    cases fails

/-- A subroutine can be entered when first its arguments and then its locals can be declared. -/
theorem enterSubroutine_snd (scope : Scope) (kind : SubroutineKind)
    (parameters locals : List Variable) :
    (scope.enterSubroutine kind parameters locals).2 =
      ((SlotTable.startingAt kind.receivers).declare .argument parameters).2 >>= fun _ =>
        ((SlotTable.startingAt 0).declare .local locals).2 := by
  cases declared : ((SlotTable.startingAt kind.receivers).declare .argument parameters).2 with
  | error error =>
    rw [scope.enterSubroutine_of_arguments_error declared]
    rfl
  | ok =>
    rw [scope.enterSubroutine_of_arguments_ok declared]
    rfl

/-- Entering a subroutine adds its parameters up to the first that is repeated. Locals are only added,
in the same way, when no parameter is repeated. -/
theorem enters_enterSubroutine (scope : Scope) (kind : SubroutineKind)
    (parameters locals : List Variable) :
    ∃ considered, (considered = [] ∨ considered = locals) ∧
      (scope.enterSubroutine kind parameters locals).1.Enters scope kind
        (untilRepetition (·.name) [] parameters) (untilRepetition (·.name) [] considered) := by
  have arguments := (SlotTable.holds_startingAt kind.receivers).declare .argument parameters
  cases declared : ((SlotTable.startingAt kind.receivers).declare .argument parameters).2 with
  | error error =>
    rw [scope.enterSubroutine_of_arguments_error declared]
    exact ⟨[], .inl rfl, rfl, rfl, rfl, arguments, SlotTable.holds_startingAt 0⟩
  | ok =>
    rw [scope.enterSubroutine_of_arguments_ok declared]
    exact ⟨locals, .inr rfl, rfl, rfl, rfl, arguments,
      (SlotTable.holds_startingAt 0).declare .local locals⟩

/-- A subroutine that can be entered has the variables of its class, its parameters and its own
locals, and no others. -/
theorem enters_of_ok (entered : (scope.enterSubroutine kind parameters locals).2 = .ok ()) :
    (scope.enterSubroutine kind parameters locals).1.Enters scope kind parameters locals := by
  cases declared : ((SlotTable.startingAt kind.receivers).declare .argument parameters).2 with
  | error error =>
    rw [scope.enterSubroutine_of_arguments_error declared] at entered
    cases entered
  | ok =>
    rw [scope.enterSubroutine_of_arguments_ok declared] at entered ⊢
    exact ⟨rfl, rfl, rfl, (SlotTable.holds_startingAt kind.receivers).declare_of_ok declared,
      (SlotTable.holds_startingAt 0).declare_of_ok entered⟩

/-- Where the variables of a class and those of a subroutine can all be declared, the scope of the
subroutine has these. -/
theorem holds_enterSubroutine {className : String} {members : List (ClassVariableKind × Variable)}
    (declared : ((ofClass className).declareClassVariables members).2 = .ok ())
    (entered : (((ofClass className).declareClassVariables members).1.enterSubroutine kind parameters
      locals).2 = .ok ()) :
    (((ofClass className).declareClassVariables members).1.enterSubroutine kind parameters
      locals).1.Holds (subroutineLists className members kind parameters locals) :=
  (enters_of_ok entered).holds ((holds_ofClass className).declareClassVariables_of_ok declared)

/-- What a subroutine sees does not depend on the subroutine that was entered before it. -/
theorem enterSubroutine_enterSubroutine (scope : Scope) (kind other : SubroutineKind)
    (parameters locals parameters' locals' : List Variable) :
    (scope.enterSubroutine kind parameters locals).1.enterSubroutine other parameters' locals' =
      scope.enterSubroutine other parameters' locals' := by
  obtain ⟨_, _, entered⟩ := scope.enters_enterSubroutine kind parameters locals
  unfold enterSubroutine at entered ⊢
  rw [entered.className, entered.statics, entered.fields]

end Subroutines

section Resolution

variable {scope : Scope} {name : String} {slot : Slot}

/-- The entry that a list of variables tells about a name, in a table that holds the list. -/
theorem Holds.slotOf?_eq {lists : VariableLists} (holds : scope.Holds lists) (kind : SlotKind)
    (name : String) :
    scope.slotOf? kind name =
      (lookup? (lists.items kind) name).map fun found =>
        ⟨found.1, kind, .ofNat (lists.first kind + found.2)⟩ := by
  rw [slotOf?, (holds.table kind).find, Option.map_map]
  rfl

/-- A table has nothing under the names of no variable. -/
theorem Holds.slotOf?_eq_none_iff {lists : VariableLists} (holds : scope.Holds lists)
    {kind : SlotKind} :
    scope.slotOf? kind name = none ↔ name ∉ (lists.items kind).map (·.name) := by
  rw [holds.slotOf?_eq, Option.map_eq_none_iff, lookup?_eq_none_iff]

/-- What a name stands for is the entry of a table. -/
theorem slotOf?_of_resolve? (resolves : scope.resolve? name = some slot) :
    scope.slotOf? slot.kind name = some slot := by
  obtain ⟨kind, _, found⟩ := List.exists_of_findSome?_eq_some resolves
  obtain ⟨entry, _, rfl⟩ := Option.map_eq_some_iff.mp found
  exact found

/-- A predefined variable is found among the predefined variables of the class. -/
theorem lookup?_predefined (resolves : scope.resolve? name = some slot)
    (predefined : slot.kind = .predefined) :
    ∃ place, lookup? (predefinedVariables scope.className) name = some (slot.item, place) ∧
      slot.index = .ofNat place := by
  have found := slotOf?_of_resolve? resolves
  rw [predefined, slotOf?, table, scope.holds_predefined.find, Option.map_map,
    Option.map_eq_some_iff] at found
  obtain ⟨⟨item, place⟩, listed, rfl⟩ := found
  exact ⟨place, listed, by simp⟩

/-- There are two predefined variables. -/
theorem index_lt_two_of_predefined (resolves : scope.resolve? name = some slot)
    (predefined : slot.kind = .predefined) : slot.index.toNat < 2 := by
  obtain ⟨place, listed, index⟩ := lookup?_predefined resolves predefined
  obtain ⟨bound, _⟩ := List.getElem?_eq_some_iff.mp (getElem?_of_lookup? listed).1
  have bound : place < 2 := bound
  rw [index, UInt16.toNat_ofNat']
  omega

/-- The second predefined variable is the current array. -/
theorem name_eq_that (resolves : scope.resolve? name = some slot)
    (predefined : slot.kind = .predefined) (second : slot.index = 1) : name = "that" := by
  obtain ⟨place, listed, index⟩ := lookup?_predefined resolves predefined
  obtain ⟨stands, named⟩ := getElem?_of_lookup? listed
  have bound : place < 2 := (List.getElem?_eq_some_iff.mp stands).1
  obtain rfl | rfl : place = 0 ∨ place = 1 := by omega
  · rw [index] at second
    exact absurd second (by decide)
  · have item : ⟨.object "Array", "that"⟩ = slot.item := Option.some.inj stands
    rw [← named, ← item]

end Resolution

end Scope

end Jack
