/-!
# Sets of names

A set of names is its list of members in increasing order of code points, each
once. Two sets with the same members are therefore equal.
-/

namespace Fieldmap

/-- Put a name into an increasing list, once. -/
def insertName (name : String) : List String → List String
  | [] => [name]
  | first :: rest =>
      if name < first then name :: first :: rest
      else if name = first then first :: rest
      else first :: insertName name rest

@[simp] theorem mem_insertName {name other : String} {names : List String} :
    other ∈ insertName name names ↔ other = name ∨ other ∈ names := by
  induction names with
  | nil => simp [insertName]
  | cons first rest ih =>
      simp only [insertName]
      split
      · simp
      · split
        · rename_i equal
          subst equal
          simp
        · simp only [List.mem_cons, ih]
          exact or_left_comm

private theorem lt_of_not_lt_of_ne {left right : String} (notLess : ¬ left < right)
    (different : ¬ left = right) : right < left := by
  apply Classical.byContradiction
  intro notGreater
  exact different (String.le_antisymm (String.not_lt.mp notGreater) (String.not_lt.mp notLess))

theorem pairwise_insertName {name : String} {names : List String}
    (increasing : names.Pairwise (· < ·)) : (insertName name names).Pairwise (· < ·) := by
  induction increasing with
  | nil => simp [insertName]
  | @cons first rest before restIncreasing ih =>
      simp only [insertName]
      split
      · rename_i less
        refine .cons ?_ (.cons before restIncreasing)
        intro other member
        rcases List.mem_cons.mp member with rfl | member
        · exact less
        · exact String.lt_trans less (before other member)
      · split
        · exact .cons before restIncreasing
        · rename_i notLess different
          refine .cons ?_ ih
          intro other member
          rcases mem_insertName.mp member with rfl | member
          · exact lt_of_not_lt_of_ne notLess different
          · exact before other member

/-- A finite set of names. -/
structure NameSet where
  names : List String
  increasing : names.Pairwise (· < ·)
  deriving DecidableEq

namespace NameSet

/-- The set without members. -/
def empty : NameSet := ⟨[], .nil⟩

instance : Inhabited NameSet := ⟨empty⟩

/-- Add a name. -/
def insert (set : NameSet) (name : String) : NameSet :=
  ⟨insertName name set.names, pairwise_insertName set.increasing⟩

/-- The set of the names in a list. -/
def ofList (names : List String) : NameSet :=
  names.foldl insert empty

instance : Membership String NameSet := ⟨fun set name => name ∈ set.names⟩

instance (name : String) (set : NameSet) : Decidable (name ∈ set) :=
  inferInstanceAs (Decidable (name ∈ set.names))

/-- Two increasing lists with the same members are equal. -/
private theorem eq_of_same_members {left right : List String}
    (leftIncreasing : left.Pairwise (· < ·)) (rightIncreasing : right.Pairwise (· < ·))
    (same : ∀ name, name ∈ left ↔ name ∈ right) : left = right := by
  induction left generalizing right with
  | nil =>
      cases right with
      | nil => rfl
      | cons first rest => exact absurd ((same first).mpr (by simp)) (by simp)
  | cons first rest ih =>
      obtain ⟨firstLess, restIncreasing⟩ := List.pairwise_cons.mp leftIncreasing
      cases right with
      | nil => exact absurd ((same first).mp (by simp)) (by simp)
      | cons other others =>
          obtain ⟨otherLess, othersIncreasing⟩ := List.pairwise_cons.mp rightIncreasing
          have equal : first = other := by
            rcases List.mem_cons.mp ((same first).mp (by simp)) with equal | firstMem
            · exact equal
            · rcases List.mem_cons.mp ((same other).mpr (by simp)) with equal | otherMem
              · exact equal.symm
              · exact absurd (String.lt_trans (firstLess other otherMem) (otherLess first firstMem))
                  (String.lt_irrefl first)
          subst equal
          have tails : rest = others := by
            apply ih restIncreasing othersIncreasing
            intro name
            constructor
            · intro member
              rcases List.mem_cons.mp ((same name).mp (by simp [member])) with rfl | member'
              · exact absurd (firstLess name member) (String.lt_irrefl name)
              · exact member'
            · intro member
              rcases List.mem_cons.mp ((same name).mpr (by simp [member])) with rfl | member'
              · exact absurd (otherLess name member) (String.lt_irrefl name)
              · exact member'
          rw [tails]

@[simp] theorem mem_names {name : String} {set : NameSet} : name ∈ set.names ↔ name ∈ set :=
  Iff.rfl

@[ext] theorem ext {left right : NameSet} (same : ∀ name, name ∈ left ↔ name ∈ right) :
    left = right := by
  cases left with
  | mk left leftIncreasing =>
      cases right with
      | mk right rightIncreasing =>
          congr
          exact eq_of_same_members leftIncreasing rightIncreasing same

@[simp] theorem not_mem_empty (name : String) : ¬ name ∈ empty := by
  rw [← mem_names]
  simp [empty]

@[simp] theorem mem_insert {set : NameSet} {name other : String} :
    other ∈ set.insert name ↔ other = name ∨ other ∈ set := by
  rw [← mem_names, insert, mem_insertName, mem_names]

@[simp] theorem mem_ofList {names : List String} {name : String} :
    name ∈ ofList names ↔ name ∈ names := by
  suffices general : ∀ set : NameSet, name ∈ names.foldl insert set ↔ name ∈ set ∨ name ∈ names by
    simpa [ofList] using general empty
  induction names with
  | nil => simp
  | cons first rest ih =>
      intro set
      rw [List.foldl_cons, ih, mem_insert, List.mem_cons]
      grind

end NameSet

end Fieldmap
