/-!
# Faults: why a run stops without a result

A run of a random decision can fail for the reasons listed here and for no other. Each reason is a
constructor that carries the numbers it is about; `Fault.message` is the one place where a reason
is put into words.
-/

namespace RandomInstant

/-- The reasons for which a run stops without a result. -/
inductive Fault where
  /-- A choice among no options at all. -/
  | nothingToChoose
  /-- A choice from a range whose lower end exceeds its upper end. -/
  | emptyRange (lo hi : UInt64)
  /-- A choice from a range that has more elements than a word can count. -/
  | rangeTooLarge (lo hi : UInt64)
  /-- An answer that names no element of the sequence it was asked for. -/
  | outOfBounds (index length : Nat)
  /-- A scripted source that has no answer left. -/
  | scriptExhausted
  /-- A scripted answer that is not below the bound it was asked for. -/
  | notBelow (answer bound : Nat)
  /-- A fresh name that is already declared. -/
  | declaredTwice
  /-- A reference where no variable is declared. -/
  | nothingDeclared
  deriving DecidableEq, Repr

/-- The wording of a fault. -/
def Fault.message : Fault → String
  | .nothingToChoose => "cannot choose from nothing"
  | .emptyRange lo hi => "empty range " ++ lo.toNat.repr ++ "..=" ++ hi.toNat.repr
  | .rangeTooLarge lo hi => "range " ++ lo.toNat.repr ++ "..=" ++ hi.toNat.repr ++ " too large"
  | .outOfBounds index length =>
    "index out of bounds: the len is " ++ length.repr ++ " but the index is " ++ index.repr
  | .scriptExhausted => "script exhausted"
  | .notBelow answer bound =>
    "scripted choice " ++ answer.repr ++ " not below " ++ bound.repr
  | .declaredTwice => "identifier declared twice"
  | .nothingDeclared => "reference without declared variables"

end RandomInstant
