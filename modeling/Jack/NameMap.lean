/-!
# Maps from names

A map from names to values is a search tree. Under a node stand the smaller names to the left and all
others to the right.
-/

namespace Jack

/-- A search tree of names with a value for each. -/
inductive NameMap (α : Type) where
  | empty
  | node (left : NameMap α) (name : String) (value : α) (right : NameMap α)

namespace NameMap

variable {α : Type}

/-- The value that the map has under a name. -/
def find? (map : NameMap α) (name : String) : Option α :=
  match map with
  | .empty => none
  | .node left key value right =>
    if name = key then some value
    else if name < key then left.find? name
    else right.find? name

/-- Gives a name a value, in place of the one it may have. -/
def insert (map : NameMap α) (name : String) (value : α) : NameMap α :=
  match map with
  | .empty => .node .empty name value .empty
  | .node left key kept right =>
    if name = key then .node left key value right
    else if name < key then .node (left.insert name value) key kept right
    else .node left key kept (right.insert name value)

/-- The number of names that have a value. -/
def size : NameMap α → Nat
  | .empty => 0
  | .node left _ _ right => left.size + right.size + 1

@[simp] theorem find?_empty (name : String) : (empty : NameMap α).find? name = none := rfl

@[simp] theorem size_empty : (empty : NameMap α).size = 0 := rfl

/-- A name has the value that it was given last. -/
theorem find?_insert (map : NameMap α) (name other : String) (value : α) :
    (map.insert name value).find? other = if other = name then some value else map.find? other := by
  induction map with
  | empty =>
    simp only [insert, find?]
    split <;> simp
  | node left key kept right leftHypothesis rightHypothesis =>
    -- A name that is not the one inserted takes the same way as before.
    unfold insert
    split
    · subst_vars
      simp only [find?]
      split <;> rfl
    · split
      all_goals
        simp only [find?, leftHypothesis, rightHypothesis]
        grind

/-- A name without a value makes the map larger by one. -/
theorem size_insert {map : NameMap α} {name : String} (fresh : map.find? name = none) (value : α) :
    (map.insert name value).size = map.size + 1 := by
  induction map with
  | empty => rfl
  | node left key kept right leftHypothesis rightHypothesis =>
    unfold find? at fresh
    unfold insert
    split at fresh
    · cases fresh
    · rename_i other
      rw [if_neg other]
      split at fresh
      · rename_i less
        rw [if_pos less, size, size, leftHypothesis fresh]
        omega
      · rename_i notLess
        rw [if_neg notLess, size, size, rightHypothesis fresh]
        omega

end NameMap

end Jack
