/-!
# Scopes: the variables declared so far

A scope holds names in the order in which they were declared, each of them once. The order is
what a reference is drawn by, so it is part of the scope and not only of how it is shown.
-/

namespace RandomInstant

/-- The names that are declared, in order of declaration. -/
structure Scope where
  /-- The names. -/
  names : Array String := #[]
  deriving DecidableEq, Repr, Inhabited

namespace Scope

/-- The number of declared names. -/
def size (s : Scope) : Nat := s.names.size

/-- Whether a name is declared. -/
def declares (s : Scope) (name : String) : Bool := s.names.contains name

/-- Declares a name after all others, unless it is declared already. -/
def declare? (s : Scope) (name : String) : Option Scope :=
  if s.declares name then none else some ⟨s.names.push name⟩

/-- Declares a name after all others; a name that is declared already keeps its place. -/
def declare (s : Scope) (name : String) : Scope := (s.declare? name).getD s

/-- A scope declares the names that are in it. -/
theorem declares_iff {s : Scope} {name : String} : s.declares name ↔ name ∈ s.names := by
  simp [declares]

/-- Declaring succeeds exactly for new names, and puts them after all others. -/
theorem declare?_eq_some_iff {s t : Scope} {name : String} :
    s.declare? name = some t ↔ name ∉ s.names ∧ t.names = s.names.push name := by
  obtain ⟨names⟩ := t
  rw [declare?, ← declares_iff]
  by_cases h : s.declares name
  · simp [h]
  · simp [h, eq_comm]

/-- Declaring fails exactly for names that are declared. -/
theorem declare?_eq_none_iff {s : Scope} {name : String} :
    s.declare? name = none ↔ name ∈ s.names := by
  rw [declare?, ← declares_iff]
  by_cases h : s.declares name <;> simp [h]

/-- The scope of a list of names, of which repeated ones keep their first place. -/
def ofList (names : List String) : Scope := names.foldl declare {}

/-- The name that is declared next: the number of declared names tells it from those that were
made from the same stem. -/
def freshName (s : Scope) (stem : String) : String := stem ++ s.size.repr

end Scope

end RandomInstant
