import RandomInstant.Proofs.Session.Step

/-!
# Steps that change the scope in place

`Session.step` chooses the scope after a step by how the step has ended. A program that keeps one
scope and changes it in place has no such choice: what it has inserted stays inserted, also where
the step fails later. This file shows that there is no difference.

A name is noted immediately before it is inserted, so the names that a step inserts can be read
from what it has noted, whether or not it came to a result (`Step.inserted`).

* `Statement.insert_notes`: on every course of a statement, also on one that ends in the middle of
  an expression or with a name declared twice, inserting in place leads to the scope that
  `Session.step` chooses.
* **`Session.scope_step_eq_insert`**: so it is for every step.
-/

namespace RandomInstant

open Draw (Course course_ask_cases course_bind_cases course_note_iff)

variable {c : Config} {scope scope' : Scope}

/-- The name that a remark says is about to be declared. -/
def Remark.declared? : Remark → Option String
  | declared x => some x
  | _ => none

/-- The names that a step inserts into the scope of a session, in order, given what it noted. A
program inserts into a scope of its own. -/
def Step.inserted : Step → List Remark → List String
  | statement, notes => notes.filterMap Remark.declared?
  | declare x, _ => [x]
  | _, _ => []

/-- A scope after names are inserted in place, one after the other. -/
def Scope.insert (scope : Scope) (names : List String) : Scope := names.foldl declare scope

/-! ## What is inserted -/

namespace Statement

variable {r : List (Happening Remark)} {o : Outcome (Statement × Scope)}

/-- Before the expression of a statement is drawn nothing is inserted. -/
lemma insert_notes_bind {k : Expr → Draw Remark (Statement × Scope)}
    (h : Course (Expr.random c scope 1 >>= k) r o)
    (hk : ∀ e r', Course (k e) r' o →
      scope.insert ((r'.filterMap Happening.note?).filterMap Remark.declared?) =
        o.scopeAfter scope) :
    scope.insert ((r.filterMap Happening.note?).filterMap Remark.declared?) =
      o.scopeAfter scope := by
  have hsilent := Expr.silent c scope 1
  rcases course_bind_cases h with ⟨o', ho', -, hne⟩ | ⟨e, r₁, r₂, rfl, h₁, h₂⟩
  · rw [hsilent.notes_eq_nil ho', Outcome.scopeAfter_of_ne_done hne]
    rfl
  · rw [List.filterMap_append, hsilent.notes_eq_nil h₁]
    exact hk e r₂ h₂

/-- **Statements change their scope in place.** On every course, however it ends, inserting the
names that were noted leads to the scope after the statement. -/
theorem insert_notes (h : Course (random c scope) r o) :
    scope.insert ((r.filterMap Happening.note?).filterMap Remark.declared?) =
      o.scopeAfter scope := by
  rw [random_def, Draw.oneIn_bind] at h
  rcases course_ask_cases h with ⟨f, rfl, rfl⟩ | ⟨x, r₁, rfl, h₁⟩
  · rfl
  · rw [List.filterMap_cons_none rfl]
    by_cases hx : x = 0
    · rw [if_pos (by simpa using hx)] at h₁
      apply insert_notes_bind h₁
      intro e r₂ h₂
      obtain ⟨r₃, rfl, h₃⟩ := course_note_iff.mp h₂
      -- inserting a declared name changes nothing, and failing is what follows
      cases hdeclare : scope.declare? (scope.freshName c.stem) with
      | some scope' =>
          rw [hdeclare] at h₃
          cases h₃
          show scope.declare (scope.freshName c.stem) = scope'
          rw [Scope.declare, hdeclare]
          rfl
      | none =>
          rw [hdeclare] at h₃
          cases h₃
          show scope.declare (scope.freshName c.stem) = scope
          rw [Scope.declare, hdeclare]
          rfl
    · rw [if_neg (by simpa using hx)] at h₁
      apply insert_notes_bind h₁
      intro e r₂ h₂
      cases h₂
      rfl

end Statement

/-! ## Steps -/

/-- A step that draws a statement inserts what the statement inserts. -/
lemma Step.insert_notes_statement {r : List (Happening Remark)}
    {o : Outcome (StepResult × Scope)} (h : Course (statement.draw c scope) r o) :
    scope.insert ((r.filterMap Happening.note?).filterMap Remark.declared?) =
      o.scopeAfter scope := by
  rcases course_bind_cases h with ⟨o', ho', hne, hne'⟩ | ⟨⟨s, scope'⟩, r₁, r₂, rfl, h₁, h₂⟩
  · rw [Statement.insert_notes ho', Outcome.scopeAfter_of_ne_done hne,
      Outcome.scopeAfter_of_ne_done hne']
  · cases h₂
    rw [List.append_nil]
    exact Statement.insert_notes h₁

/-- Steps of the other kinds leave the scope as it is. -/
lemma Step.scopeAfter_map {α : Type} {d : Draw Remark α} {g : α → StepResult}
    {r : List (Happening Remark)} {o : Outcome (StepResult × Scope)}
    (h : Course (d >>= fun a => .done (g a, scope)) r o) : o.scopeAfter scope = scope := by
  cases o with
  | done a =>
      obtain ⟨b, -, rfl⟩ := Draw.course_map_done_iff.mp h
      rfl
  | fault f => rfl
  | unfinished => rfl

/-- **Steps change the scope in place.** The scope after a step, failed or not, is the one before it
after the names are inserted that the step noted on the way. -/
theorem Session.scope_step_eq_insert {σ : Type} (c : Config) (source : Source σ)
    (session : Session σ) (step : Step) :
    (session.step c source step).2.scope =
      session.scope.insert (step.inserted (session.step c source step).1.notes) := by
  have hcourse := Draw.course_run source (step.draw c session.scope) session.state
  rw [Session.scope_step]
  cases step with
  | program => exact Step.scopeAfter_map hcourse
  | statement => exact (Step.insert_notes_statement hcourse).symm
  | expression depth => exact Step.scopeAfter_map hcourse
  | value => exact Step.scopeAfter_map hcourse
  | freshName => rfl
  | declare x => rfl

end RandomInstant
