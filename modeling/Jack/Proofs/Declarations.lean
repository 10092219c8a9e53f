import Jack.Proofs.Scope
import Mathlib.Data.List.Induction

/-!
# What declarations leave in a scope

A scope is filled by requests to declare the variables of a class or those of a subroutine. A request
stops at the first name that is taken, and what stands before that name stays declared. So what a scope
holds is known after every request, whether it succeeds or not.

From this follows what holds after any number of requests in any order. In each kind of variable the
slots are numbered without gaps, and no two variables share a place in memory, as long as the kind has
no more slots than words can number.
-/

namespace Jack

/-- A request to declare variables. -/
inductive DeclarationRequest where
  | classVariables (groups : List ClassVariableGroup)
  | subroutine (kind : SubroutineKind) (parameters : List Variable) (locals : List VariableGroup)

/-- The kind of subroutine whose variables a request declares. -/
def DeclarationRequest.subroutineKind? : DeclarationRequest → Option SubroutineKind
  | .classVariables _ => none
  | .subroutine kind _ _ => some kind

/-- The kind of the subroutine that was entered last. -/
def lastSubroutineKind? (requests : List DeclarationRequest) : Option SubroutineKind :=
  (requests.filterMap DeclarationRequest.subroutineKind?).getLast?

/-- The first slot that variables of a kind have after some requests. In a method the first argument
slot is kept for the current object. -/
def firstSlot (requests : List DeclarationRequest) : SlotKind → Nat
  | .argument => if lastSubroutineKind? requests = some .method then 1 else 0
  | .static | .field | .local | .predefined => 0

namespace Scope

/-- Carries out a request. -/
def declare (scope : Scope) : DeclarationRequest → Scope × Except ResolutionError Unit
  | .classVariables groups =>
    scope.declareClassVariables (groups.flatMap ClassVariableGroup.members)
  | .subroutine kind parameters locals =>
    scope.enterSubroutine kind parameters (locals.flatMap VariableGroup.members)

/-- The scope that requests lead to, whether they succeed or not. -/
def declareAll (scope : Scope) (requests : List DeclarationRequest) : Scope :=
  requests.foldl (fun scope request => (scope.declare request).1) scope

@[simp] theorem declareAll_nil (scope : Scope) : scope.declareAll [] = scope := rfl

@[simp] theorem declareAll_concat (scope : Scope) (requests : List DeclarationRequest)
    (request : DeclarationRequest) :
    scope.declareAll (requests ++ [request]) = ((scope.declareAll requests).declare request).1 := by
  rw [declareAll, List.foldl_append]
  rfl

/-- After any requests a scope holds some lists of variables, whose first slots are known. -/
theorem exists_holds_declareAll (className : String) (requests : List DeclarationRequest) :
    ∃ lists, ((ofClass className).declareAll requests).Holds lists ∧
      lists.first = firstSlot requests := by
  induction requests using List.reverseRecOn with
  | nil =>
    refine ⟨_, holds_ofClass className, ?_⟩
    ext kind
    cases kind <;> rfl
  | append_singleton requests request inductionHypothesis =>
    obtain ⟨lists, holds, first⟩ := inductionHypothesis
    rw [declareAll_concat]
    cases request with
    | classVariables groups =>
      refine ⟨_, holds.declareClassVariables _, ?_⟩
      have others : firstSlot (requests ++ [.classVariables groups]) = firstSlot requests := by
        ext kind
        cases kind <;> simp [firstSlot, lastSubroutineKind?, DeclarationRequest.subroutineKind?]
      rw [others, ← first]
      ext kind
      cases kind <;> rfl
    | subroutine kind parameters locals =>
      obtain ⟨_, _, enters⟩ := enters_enterSubroutine ((ofClass className).declareAll requests) kind
        parameters (locals.flatMap VariableGroup.members)
      refine ⟨_, enters.holds holds, ?_⟩
      ext slotKind
      cases slotKind with
      | argument =>
        cases kind <;> simp [VariableLists.first, firstSlot, lastSubroutineKind?,
          DeclarationRequest.subroutineKind?, SubroutineKind.receivers]
      | _ => rfl

/-- How many variables of a kind there are. -/
def entryCount (scope : Scope) (kind : SlotKind) : Nat := (scope.table kind).entries.size

/-- How many slots of a kind are in use, as far as the scope has counted them. -/
def slotCount (scope : Scope) (kind : SlotKind) : Nat := (scope.table kind).count.toNat

/-- A kind of variables whose slots have been numbered from `first` on fits into the numbers that the scope
has for them. -/
def Fits (scope : Scope) (first : SlotKind → Nat) (kind : SlotKind) : Prop :=
  first kind + scope.entryCount kind ≤ 65535

/-- The tables of a scope are in order. An entry has the name it is found under and the kind of its
table, and no name is both a static and a field. The entries of a kind that fits take up its slots without
a gap, and none of them shares its place in memory with another entry. -/
structure WellNumbered (scope : Scope) (first : SlotKind → Nat) : Prop where
  entries : ∀ kind name slot, scope.slotOf? kind name = some slot →
    slot.item.name = name ∧ slot.kind = kind
  apart : ∀ name, scope.slotOf? .static name = none ∨ scope.slotOf? .field name = none
  counts : ∀ kind, scope.Fits first kind → scope.slotCount kind = first kind + scope.entryCount kind
  slots : ∀ kind, scope.Fits first kind → ∀ index,
    (∃ name slot, scope.slotOf? kind name = some slot ∧ slot.index.toNat = index) ↔
      first kind ≤ index ∧ index < scope.slotCount kind
  places : ∀ kind, scope.Fits first kind → ∀ name slot kind' name' slot',
    scope.slotOf? kind name = some slot → scope.slotOf? kind' name' = some slot' →
    slot.segment = slot'.segment → slot.index = slot'.index → kind = kind' ∧ name = name'

/-- Different kinds of variables are held in different segments. -/
theorem segment_injective : Function.Injective SlotKind.segment := by
  intro kind other same
  cases kind <;> cases other <;> cases same <;> rfl

section Numbering

variable {scope : Scope} {lists : VariableLists}

/-- An entry tells its name, its kind and the place where it was declared. -/
theorem Holds.slotOf?_iff (holds : scope.Holds lists) {kind : SlotKind} {name : String} {slot : Slot} :
    scope.slotOf? kind name = some slot ↔
      slot.item.name = name ∧ slot.kind = kind ∧
        ∃ place, (lists.items kind)[place]? = some slot.item ∧
          slot.index = .ofNat (lists.first kind + place) := by
  have look {item : Variable} {place : Nat} :=
    @lookup?_eq_some_iff _ name (holds.table kind).distinct item place
  rw [holds.slotOf?_eq, Option.map_eq_some_iff]
  constructor
  · rintro ⟨⟨item, place⟩, found, rfl⟩
    obtain ⟨stands, named⟩ := look.mp found
    exact ⟨named, rfl, place, stands, rfl⟩
  · rintro ⟨named, rfl, place, stands, index⟩
    refine ⟨(slot.item, place), look.mpr ⟨stands, named⟩, ?_⟩
    rw [← index]

/-- A kind fits if its first slot and the number of its variables do. -/
theorem Holds.fits_iff (holds : scope.Holds lists) {kind : SlotKind} :
    scope.Fits lists.first kind ↔ lists.first kind + (lists.items kind).length ≤ 65535 := by
  rw [Fits, entryCount, (holds.table kind).size]

/-- In a kind that fits, an index is the place of its variable behind the first slot. -/
theorem Holds.toNat_ofNat (holds : scope.Holds lists) {kind : SlotKind}
    (fits : scope.Fits lists.first kind) {place : Nat} (inside : place ≤ (lists.items kind).length) :
    (UInt16.ofNat (lists.first kind + place)).toNat = lists.first kind + place := by
  rw [holds.fits_iff] at fits
  rw [UInt16.toNat_ofNat']
  exact Nat.mod_eq_of_lt (by omega)

/-- In a kind that fits, a variable has its place behind the first slot as its index. -/
theorem Holds.exists_place (holds : scope.Holds lists) {kind : SlotKind}
    (fits : scope.Fits lists.first kind) {name : String} {slot : Slot}
    (found : scope.slotOf? kind name = some slot) :
    ∃ place, (lists.items kind)[place]? = some slot.item ∧
      slot.index.toNat = lists.first kind + place := by
  obtain ⟨_, _, place, stands, index⟩ := holds.slotOf?_iff.mp found
  have inside := (List.getElem?_eq_some_iff.mp stands).1
  exact ⟨place, stands, by rw [index, holds.toNat_ofNat fits (Nat.le_of_lt inside)]⟩

theorem Holds.slotCount_eq (holds : scope.Holds lists) {kind : SlotKind}
    (fits : scope.Fits lists.first kind) :
    scope.slotCount kind = lists.first kind + (lists.items kind).length := by
  rw [slotCount, (holds.table kind).count, holds.toNat_ofNat fits (Nat.le_refl _)]

/-- Tables that hold lists of variables are in order. -/
theorem Holds.wellNumbered (holds : scope.Holds lists) : scope.WellNumbered lists.first where
  entries := by
    intro kind name slot found
    obtain ⟨named, same, _⟩ := holds.slotOf?_iff.mp found
    exact ⟨named, same⟩
  apart := by
    intro name
    have shared := holds.shared
    rw [VariableLists.classNames, List.map_append, List.nodup_append] at shared
    rw [holds.slotOf?_eq_none_iff, holds.slotOf?_eq_none_iff]
    by_contra both
    rw [not_or, not_not, not_not] at both
    exact shared.2.2 name both.1 name both.2 rfl
  counts := by
    intro kind fits
    rw [holds.slotCount_eq fits, entryCount, (holds.table kind).size]
  slots := by
    intro kind fits index
    rw [holds.slotCount_eq fits]
    constructor
    · rintro ⟨name, slot, found, rfl⟩
      obtain ⟨place, stands, index⟩ := holds.exists_place fits found
      have inside := (List.getElem?_eq_some_iff.mp stands).1
      omega
    · rintro ⟨lower, upper⟩
      obtain ⟨place, rfl⟩ := Nat.exists_eq_add_of_le lower
      have inside : place < (lists.items kind).length := by omega
      let item := (lists.items kind)[place]
      refine ⟨item.name, ⟨item, kind, .ofNat (lists.first kind + place)⟩, ?_,
        holds.toNat_ofNat fits (Nat.le_of_lt inside)⟩
      exact holds.slotOf?_iff.mpr ⟨rfl, rfl, place, List.getElem?_eq_getElem inside, rfl⟩
  places := by
    intro kind fits name slot kind' name' slot' found found' segments indices
    obtain ⟨rfl, rfl, _⟩ := holds.slotOf?_iff.mp found
    obtain ⟨rfl, rfl, _⟩ := holds.slotOf?_iff.mp found'
    have kinds : slot.kind = slot'.kind := segment_injective segments
    rw [← kinds] at found'
    obtain ⟨place, stands, index⟩ := holds.exists_place fits found
    obtain ⟨place', stands', index'⟩ := holds.exists_place fits found'
    have same : place = place' := by
      rw [indices] at index
      omega
    rw [← same, stands] at stands'
    exact ⟨kinds, congrArg (·.name) (Option.some.inj stands')⟩

/-- Later declarations do not change what is found under a name. -/
theorem lookup?_append {list : List Variable} {name : String} {found : Variable × Nat}
    (first : lookup? list name = some found) (more : List Variable) :
    lookup? (list ++ more) name = some found := by
  unfold lookup? at first ⊢
  rw [List.zipIdx_append, List.find?_append, first, Option.some_or]

/-- Declaring class variables changes no entry, since what is added stands behind it. -/
theorem Holds.slotOf?_declareClassVariables (holds : scope.Holds lists) {kind : SlotKind}
    {name : String} {slot : Slot} (found : scope.slotOf? kind name = some slot)
    (items : List (ClassVariableKind × Variable)) :
    (scope.declareClassVariables items).1.slotOf? kind name = some slot := by
  rw [(holds.declareClassVariables items).slotOf?_eq, Option.map_eq_some_iff]
  rw [holds.slotOf?_eq, Option.map_eq_some_iff] at found
  obtain ⟨entry, listed, rfl⟩ := found
  refine ⟨entry, ?_, by cases kind <;> rfl⟩
  cases kind with
  | static | field => exact lookup?_append listed _
  | argument | «local» | predefined => exact listed

end Numbering

/-- After any requests, successful or not and in any order, the tables are in order, and the arguments
begin at the second slot exactly when the last subroutine was a method. A further request for a
subroutine leaves statics and fields as they are. One for class variables leaves arguments and locals as
they are, and it changes no entry. -/
theorem declarations_number_tables (className : String) (requests : List DeclarationRequest) :
    let scope := (ofClass className).declareAll requests
    scope.WellNumbered (firstSlot requests) ∧
      (∀ kind parameters locals,
        let entered := (scope.declare (.subroutine kind parameters locals)).1
        entered.statics = scope.statics ∧ entered.fields = scope.fields) ∧
      ∀ groups,
        let extended := (scope.declare (.classVariables groups)).1
        extended.arguments = scope.arguments ∧ extended.locals = scope.locals ∧
          ∀ kind name slot, scope.slotOf? kind name = some slot →
            extended.slotOf? kind name = some slot := by
  intro scope
  obtain ⟨lists, holds, first⟩ := exists_holds_declareAll className requests
  refine ⟨first ▸ holds.wellNumbered, ?_, ?_⟩
  · intro kind parameters locals
    obtain ⟨_, _, enters⟩ := enters_enterSubroutine scope kind parameters
      (locals.flatMap VariableGroup.members)
    exact ⟨enters.statics, enters.fields⟩
  · intro groups extended
    obtain ⟨_, arguments, locals⟩ := scope.declareClassVariables_frame
      (groups.flatMap ClassVariableGroup.members)
    refine ⟨arguments, locals, ?_⟩
    intro kind name slot found
    exact holds.slotOf?_declareClassVariables found _

/-- A method that repeats a parameter keeps the parameters before it, and a class can be given variables
after that, up to a name that it has already. -/
example :
    let scope := (ofClass "Point").declareAll [.classVariables [⟨.field, ⟨.int, ["x", "y"]⟩⟩],
      .subroutine .method [⟨.int, "dx"⟩, ⟨.int, "dy"⟩, ⟨.int, "dx"⟩] [⟨.int, ["old"]⟩],
      .classVariables [⟨.static, ⟨.int, ["count", "x", "last"]⟩⟩]]
    ["x", "y", "dx", "dy", "old", "count", "last"].map (fun name =>
        (scope.resolve? name).map fun slot => (slot.kind, slot.index)) =
      [some (.field, 0), some (.field, 1), some (.argument, 1), some (.argument, 2), none,
        some (.static, 0), none] := by
  decide

end Scope

end Jack
