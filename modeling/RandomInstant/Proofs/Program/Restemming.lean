import RandomInstant.Program.Generate
import RandomInstant.Proofs.Program.Totality
import RandomInstant.Proofs.Program.Traced

/-!
# Programs under another stem

The stem of a configuration only names variables. No question depends on it, and the scopes in which
the statements of a program are drawn are numbered under every stem; so two programs that differ in
the stem alone are drawn in step, and each is the other one with its variables renamed.

* `Program.inStep_restem`: programs under two stems are in step.
* **`program_restemmed`**: what follows for runs.
-/

namespace RandomInstant

open Draw (InStep)
open Scope (numbered)

/-- A remark is noted under another stem as it is renamed. -/
def Remark.restem? (old new : String) (e : Remark) : Option Remark :=
  some (e.rename (restem old new))

/-- Expressions in numbered scopes are in step under two stems. -/
lemma Expr.inStep_restem (c : Config) (stem : String) (k : Nat) (depth : UInt64) :
    (random c (numbered c.stem k) depth).InStep (Remark.restem? c.stem stem) {}
      (fun e e' => e' = e.rename (restem c.stem stem))
      (random { c with stem } (numbered stem k) depth) := by
  have hsingle (depth : UInt64) : (single .remarks c depth).InStep (Remark.restem? c.stem stem) {}
      (fun s s' => s' = s) (single .remarks { c with stem } depth) :=
    (InStep.relator _ _).mono (inStep_single .remarks _ c {} depth) fun s s' hs => hs.symm
  rw [← Scope.rename_numbered c.stem stem k]
  exact related_add (m := levels c) (n := 0) (InStep.covers _ _ c) hsingle fun _ => .unfinished

namespace Program

/-- **Programs are in step under two stems.** -/
theorem inStep_restem (c : Config) (stem : String) :
    (random c).InStep (Remark.restem? c.stem stem) {}
      (fun p p' => p' = p.rename (restem c.stem stem))
      (random { c with stem }) :=
  related (InStep.covers _ _ c) (Draw.inStep_inRange c.fewest c.most)
    (fun _ => Draw.inStep_tell_any _) fun k => Expr.inStep_restem c stem k 1

/-- A run that draws a program is another one under a new stem. -/
structure RestemmedRun {σ : Type} (old new : String) (r r' : Run Remark σ Program) : Prop where
  /-- It asks the same questions in the same order, and gets the same answers or refusals. -/
  questions : r'.questions = r.questions
  /-- It leaves the source in the same state. -/
  state : r'.state = r.state
  /-- It notes the same, with variables renamed. -/
  notes : r'.notes = r.notes.map (Remark.rename (restem old new))
  /-- It fails if the other one fails, and for the same reason; and if the other one comes to a
  program it comes to the same tokens with variables renamed. -/
  ends : (∃ f, r.outcome = .fault f ∧ r'.outcome = .fault f) ∨
    ∃ p p', r.outcome = .done p ∧ r'.outcome = .done p' ∧
      p'.tokens = p.tokens.map (Token.rename (restem old new))

/-- The runs of programs in step that come to an end are those of two stems. -/
lemma restemmedRun_of_inStep {σ : Type} {old new : String} {r r' : Run Remark σ Program}
    (h : r.InStep (Remark.restem? old new) (fun p p' => p' = p.rename (restem old new)) r')
    (hends : r.outcome ≠ .unfinished) : RestemmedRun old new r r' := by
  have hnotes : r'.notes = r.notes.map (Remark.rename (restem old new)) := by
    rw [h.notes_eq]
    exact congrFun List.filterMap_eq_map r.notes
  refine ⟨h.questions_eq, h.state, hnotes, ?_⟩
  have houtcome := h.outcome
  generalize r.outcome = o at houtcome hends ⊢
  generalize r'.outcome = o' at houtcome ⊢
  cases houtcome with
  | @done p p' hp =>
      subst hp
      exact .inr ⟨p, _, rfl, rfl, p.tokens_rename _⟩
  | fault f => exact .inl ⟨f, rfl, rfl⟩
  | unfinished => exact absurd rfl hends

end Program

open Program (RestemmedRun)

/-- **A stem only names variables.** Two configurations that differ in their stems alone, whatever
the stems are, ask a source the same questions from every state. Both fail, and for the same
reason, or both come to a program, and the tokens of the one are those of the other with the
numbered names of the old stem replaced by the names of the new stem with the same numbers. So it
is, in particular, for the programs of a seed. -/
theorem program_restemmed {c : Config} (hc : c.maxDepth < 0xFFFFFFFFFFFFFFFF) (stem : String) :
    (∀ (σ : Type) (source : Source σ) (s : σ),
      RestemmedRun c.stem stem ((Program.random c).run source s)
        ((Program.random { c with stem }).run source s)) ∧
    ∀ seed, RestemmedRun c.stem stem (generate c seed) (generate { c with stem } seed) := by
  have hrun : ∀ (σ : Type) (source : Source σ) (s : σ),
      RestemmedRun c.stem stem ((Program.random c).run source s)
        ((Program.random { c with stem }).run source s) := by
    intro σ source s
    apply Program.restemmedRun_of_inStep ((Program.inStep_restem c stem).run_of_kept source s)
    exact (Program.finishes hc).outcome_ne source s
  exact ⟨hrun, fun seed => hrun Keystream Source.seeded _⟩

/-- One stem may end in digits that make it longer than the other. -/
theorem program_restemmed_digits :
    RestemmedRun "x" "x1" ((Program.random { stem := "x" }).run Source.first ())
      ((Program.random { stem := "x1" }).run Source.first ()) :=
  (program_restemmed (c := { stem := "x" }) (by decide) "x1").1 Unit Source.first ()

end RandomInstant
