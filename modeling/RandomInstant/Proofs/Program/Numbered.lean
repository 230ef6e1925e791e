import RandomInstant.Proofs.Program.Drawn

/-!
# Numbered names

The names that assignments declare are numbered from zero behind a stem. A scope in which nothing
else is declared is `Scope.numbered stem k` for the number `k` of its names; such scopes are the
only ones that occur while a program is drawn.

* `nthName_injective`: names of one stem with different numbers differ, also where the stem itself
  ends in digits.
* `freshName_numbered`, `freshName_not_mem_numbered`: the next name of a numbered scope is the next
  one by number and is not declared in it.
* `Statement.Drawn.scope_eq_numbered`, `Statement.Series.scope_eq_numbered`: numbered scopes stay
  numbered, and each assignment takes the next number.
-/

namespace RandomInstant

/-- The name with a number behind a stem. -/
def nthName (stem : String) (k : Nat) : String := stem ++ k.repr

/-- Different numbers make different names of one stem. -/
lemma nthName_injective (stem : String) {i j : Nat} (h : nthName stem i = nthName stem j) :
    i = j := by
  have hrepr : i.repr = j.repr := (String.append_right_inj stem).mp h
  have hdigits : Nat.toDigits 10 i = Nat.toDigits 10 j := by
    simpa only [Nat.toList_repr] using congrArg String.toList hrepr
  simpa using congrArg (fun cs => Nat.ofDigitChars 10 cs 0) hdigits

namespace Scope

variable {stem : String} {k : Nat}

/-- The scope in which the first `k` names of a stem are declared, in order. -/
def numbered (stem : String) (k : Nat) : Scope := ⟨((List.range k).map (nthName stem)).toArray⟩

/-- The next name is numbered by the size of the scope. -/
lemma freshName_eq_nthName (scope : Scope) (stem : String) :
    scope.freshName stem = nthName stem scope.names.size := rfl

/-- In a numbered scope the next name takes the next number. -/
@[simp]
lemma freshName_numbered (stem : String) (k : Nat) :
    (numbered stem k).freshName stem = nthName stem k := by
  rw [freshName_eq_nthName]
  simp [numbered]

/-- A numbered scope declares the names of the numbers below its size. -/
lemma mem_numbered_iff {name : String} :
    name ∈ (numbered stem k).names ↔ ∃ i < k, nthName stem i = name := by
  simp [numbered]

/-- Declaring the next name gives the next numbered scope. -/
lemma push_numbered (stem : String) (k : Nat) :
    (⟨(numbered stem k).names.push (nthName stem k)⟩ : Scope) = numbered stem (k + 1) := by
  simp [numbered, List.range_succ]

/-- A numbered scope does not declare the name it would declare next. -/
lemma freshName_not_mem_numbered (stem : String) (k : Nat) :
    (numbered stem k).freshName stem ∉ (numbered stem k).names := by
  rw [freshName_numbered, mem_numbered_iff]
  rintro ⟨i, hi, h⟩
  exact absurd (nthName_injective stem h) (Nat.ne_of_lt hi)

/-- The next name can be declared, and leads to the next numbered scope. -/
lemma declare?_numbered (stem : String) (k : Nat) :
    (numbered stem k).declare? (nthName stem k) = some (numbered stem (k + 1)) := by
  have hnew := freshName_not_mem_numbered stem k
  rw [freshName_numbered] at hnew
  rw [← push_numbered]
  exact declare?_eq_some_iff.mpr ⟨hnew, rfl⟩

end Scope

/-- The first names of a stem are pairwise distinct. -/
lemma nodup_map_nthName (stem : String) {ks : List Nat} (h : ks.Nodup) :
    (ks.map (nthName stem)).Nodup :=
  List.Pairwise.map _ (fun _ _ hne heq => hne (nthName_injective stem heq)) h

namespace Statement

open Scope (numbered)

variable {c : Config} {k : Nat} {scope' : Scope} {r : List (Happening Remark)}

/-- An assignment drawn in a numbered scope takes the next number. -/
lemma Drawn.scope_eq_numbered {s : Statement} (h : Drawn c (numbered c.stem k) r s scope') :
    scope' = numbered c.stem (k + s.assigned?.toList.length) ∧
      s.assigned?.toList = (List.range' k s.assigned?.toList.length).map (nthName c.stem) := by
  cases h with
  | expression _ he => exact ⟨rfl, rfl⟩
  | assignment he _ =>
      rw [Scope.freshName_numbered]
      exact ⟨Scope.push_numbered c.stem k, rfl⟩

/-- The name of the first statement, if it has one, comes before those of the others. -/
lemma filterMap_assigned?_cons (s : Statement) (ss : List Statement) :
    (s :: ss).filterMap assigned? = s.assigned?.toList ++ ss.filterMap assigned? := by
  cases s <;> rfl

/-- The assignments of a series drawn in a numbered scope take the next numbers, in order. -/
theorem Series.scope_eq_numbered {place : Nat} {ss : List Statement}
    (h : Series c place (numbered c.stem k) r ss scope') :
    scope' = numbered c.stem (k + (ss.filterMap assigned?).length) ∧
      ss.filterMap assigned? =
        (List.range' k (ss.filterMap assigned?).length).map (nthName c.stem) := by
  generalize hscope : numbered c.stem k = scope at h
  induction h generalizing k with
  | nil place scope => exact ⟨hscope.symm, rfl⟩
  | @cons place scope scope₁ scope₂ r r' s ss h rest ih =>
      subst hscope
      obtain ⟨rfl, hs⟩ := h.scope_eq_numbered
      obtain ⟨rfl, hss⟩ := ih rfl
      rw [filterMap_assigned?_cons, List.length_append, ← Nat.add_assoc, ← List.range'_append_1,
        List.map_append, ← hs, ← hss]
      exact ⟨rfl, rfl⟩

end Statement

end RandomInstant
