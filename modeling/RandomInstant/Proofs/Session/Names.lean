import RandomInstant.Proofs.Session.InPlace

/-!
# The names of a session

A session may take steps of all kinds in any order, on any source, and go on after a step that
failed. Its scope starts from arbitrary names, and names can be declared in it by hand at any time,
also such as a statement is going to declare. What holds of its names all the same:

* `Session.StepSound`: what a single step does to them. `Session.stepSound` shows it for every
  session, whatever led to it.
* `Session.prefix_after`, `Session.nodup_after`: names are only added at the end, and none twice.
* `Session.exists_numbered_after`: as long as no name is declared by hand, the names are numbered,
  so that statements never declare a name twice.
* **`session_names`**: all of this after any steps, together with the exact condition under which a
  statement declares a name twice.
-/

namespace RandomInstant

variable {c : Config} {σ : Type} {source : Source σ} {session : Session σ} {step : Step}

namespace Session

open Scope (numbered)
open Statement (AssignsOn)

/-- The names that are declared in a session, in the order of their declaration. -/
def names (session : Session σ) : List String := session.scope.names.toList

/-- A session after a number of steps. -/
def after (c : Config) (source : Source σ) (session : Session σ) : List Step → Session σ
  | [] => session
  | step :: steps => after c source (session.step c source step).2 steps

/-! ## One step -/

/-- What a step does to the names of a session. -/
structure StepSound (c : Config) (source : Source σ) (session : Session σ) (step : Step) :
    Prop where
  /-- The step comes to an end. -/
  ends : (session.step c source step).1.outcome ≠ .unfinished
  /-- The names after it are those before it and at most one more, after all others: the next one
  by number where an assignment is drawn, or one that is declared by hand. -/
  grows : (session.step c source step).2.names = session.names ++
    (step.added? c.stem session.names (session.step c source step).1.outcome).toList
  /-- An assignment that is drawn assigns to the next name by number. -/
  assigns : ∀ x e scope', (session.step c source step).1.outcome =
    .done (.statement (.assignment x e), scope') → x = nthName c.stem session.names.length
  /-- A name that is added is new. -/
  new : ∀ x ∈ step.added? c.stem session.names (session.step c source step).1.outcome,
    x ∉ session.names
  /-- A step that fails leaves all names as they are. -/
  atomic : ∀ f, (session.step c source step).1.outcome = .fault f →
    (session.step c source step).2.scope = session.scope
  /-- This takes no undoing: what the step inserts on its way makes the scope after it. -/
  inPlace : (session.step c source step).2.scope =
    session.scope.insert (step.inserted (session.step c source step).1.notes)
  /-- Values, and the expressions of statements, refer to names before the step. -/
  refers : ∀ result scope', (session.step c source step).1.outcome = .done (result, scope') →
    ∀ x, .ident x ∈ result.referring → x ∈ session.names

/-- A step comes to something that is drawn, with the scope after it, or it leaves the scope as it
is and adds no name. -/
lemma step_cases (hc : c.maxDepth < 0xFFFFFFFFFFFFFFFF) (source : Source σ) (session : Session σ)
    (step : Step) :
    (∃ r result scope', step.Drawn c session.scope r result scope' ∧
      (session.step c source step).1.outcome = .done (result, scope') ∧
      (session.step c source step).2.scope = scope') ∨
    (∀ result, (session.step c source step).1.outcome ≠ .done result) ∧
      step.added? c.stem session.names (session.step c source step).1.outcome = none ∧
      (session.step c source step).2.scope = session.scope := by
  have hscope := scope_step c source session step
  cases ho : (session.step c source step).1.outcome with
  | done result =>
      rw [ho] at hscope
      exact .inl ⟨_, _, _, (Step.course_draw_iff hc).mp (Draw.course_of_outcome_eq ho), rfl, hscope⟩
  | fault f =>
      rw [ho] at hscope
      exact .inr ⟨nofun, by cases step <;> rfl, hscope⟩
  | unfinished =>
      rw [ho] at hscope
      exact .inr ⟨nofun, by cases step <;> rfl, hscope⟩

/-- **Every step is sound**, from every session. -/
theorem stepSound (hc : c.maxDepth < 0xFFFFFFFFFFFFFFFF) (source : Source σ)
    (session : Session σ) (step : Step) : StepSound c source session step where
  ends := (Step.finishes hc session.scope step).outcome_ne source session.state
  grows := by
    rcases step_cases hc source session step with ⟨r, result, scope', hr, ho, hscope⟩ |
      ⟨-, hadded, hscope⟩
    · rw [names, hscope, ho]
      exact hr.names_eq
    · rw [hadded, names, hscope]
      exact (List.append_nil _).symm
  assigns x e scope' h := by
    have hdrawn := (Step.course_draw_iff hc).mp (Draw.course_of_outcome_eq h)
    exact hdrawn.target_eq
  new x hx := by
    rcases step_cases hc source session step with ⟨r, result, scope', hr, ho, -⟩ | ⟨-, hadded, -⟩
    · rw [ho] at hx
      exact hr.added_not_mem hx
    · rw [hadded] at hx
      cases hx
  atomic f hf := by
    rw [scope_step, hf]
    rfl
  inPlace := scope_step_eq_insert c source session step
  refers result scope' h x hx := by
    have hdrawn := (Step.course_draw_iff hc).mp (Draw.course_of_outcome_eq h)
    exact hdrawn.mem_names_of_ident hx

/-- A step leads from distinct names to distinct names. -/
lemma StepSound.nodup (h : StepSound c source session step) (nodup : session.names.Nodup) :
    (session.step c source step).2.names.Nodup := by
  rw [h.grows, List.nodup_append]
  refine ⟨nodup, ?_, fun x hx y hy heq => h.new y (Option.mem_toList.mp hy) (heq ▸ hx)⟩
  cases step.added? c.stem session.names (session.step c source step).1.outcome with
  | none => exact List.nodup_nil
  | some x => exact List.pairwise_singleton _ x

/-- Steps other than declarations by hand lead from numbered names to numbered names. -/
lemma StepSound.exists_numbered (h : StepSound c source session step)
    (hstep : ∀ x, step ≠ .declare x) {k : Nat} (hk : session.scope = numbered c.stem k) :
    ∃ k', (session.step c source step).2.scope = numbered c.stem k' := by
  have hnames : session.names = (List.range k).map (nthName c.stem) := by
    rw [names, hk]
    exact List.toList_toArray
  have hscope {n : Nat}
      (hn : (session.step c source step).2.names = (List.range n).map (nthName c.stem)) :
      (session.step c source step).2.scope = numbered c.stem n :=
    congrArg Scope.mk (Array.toList_inj.mp (hn.trans List.toList_toArray.symm))
  have hgrows := h.grows
  cases hadded : step.added? c.stem session.names (session.step c source step).1.outcome with
  | none =>
      rw [hadded, Option.toList_none, List.append_nil, hnames] at hgrows
      exact ⟨k, hscope hgrows⟩
  | some x =>
      obtain rfl : x = nthName c.stem session.names.length := by
        revert hadded
        unfold Step.added?
        split
        · exact fun h => (Option.some.inj h).symm
        · next y _ _ => exact absurd rfl (hstep y)
        · exact nofun
      refine ⟨k + 1, hscope ?_⟩
      rw [hgrows, hadded, hnames, List.length_map, List.length_range, List.range_succ,
        List.map_append]
      rfl

/-! ## Any number of steps -/

/-- The names of a session are the first names of every session that it leads to. -/
theorem prefix_after (hc : c.maxDepth < 0xFFFFFFFFFFFFFFFF) (source : Source σ)
    (session : Session σ) (steps : List Step) :
    session.names <+: (session.after c source steps).names := by
  induction steps generalizing session with
  | nil => exact List.prefix_refl _
  | cons step steps ih =>
      have hstep : session.names <+: (session.step c source step).2.names :=
        ⟨_, (stepSound hc source session step).grows.symm⟩
      exact hstep.trans (ih _)

/-- No steps lead from distinct names to a name that is declared twice. -/
theorem nodup_after (hc : c.maxDepth < 0xFFFFFFFFFFFFFFFF) (source : Source σ)
    (session : Session σ) (nodup : session.names.Nodup) (steps : List Step) :
    (session.after c source steps).names.Nodup := by
  induction steps generalizing session with
  | nil => exact nodup
  | cons step steps ih => exact ih _ ((stepSound hc source session step).nodup nodup)

/-- Where no name is declared by hand, numbered names stay numbered. -/
theorem exists_numbered_after (hc : c.maxDepth < 0xFFFFFFFFFFFFFFFF) (source : Source σ)
    (session : Session σ) {k : Nat} (hk : session.scope = numbered c.stem k) {steps : List Step}
    (hsteps : ∀ x, .declare x ∉ steps) :
    ∃ k', (session.after c source steps).scope = numbered c.stem k' := by
  induction steps generalizing session k with
  | nil => exact ⟨k, hk⟩
  | cons step steps ih =>
      have hstep : ∀ x, step ≠ .declare x := fun x heq => hsteps x (heq ▸ .head _)
      obtain ⟨k', hk'⟩ := (stepSound hc source session step).exists_numbered hstep hk
      exact ih _ hk' fun x hmem => hsteps x (.tail _ hmem)

end Session

open Session (StepSound)

/-- **The names of a session**, after any steps from distinct names, on any source, with failed
steps among them:

* they are distinct, and those from which the session has started come first;
* whatever the next step is, it is sound;
* on a lawful source and with positive odds, a statement fails exactly if it is to be an assignment
  and the name it would declare is declared, and it is then this fault that it ends with;
* which never is the case if the session has started from numbered names, such as none, and no name
  has been declared by hand. -/
theorem session_names {c : Config} (hc : c.maxDepth < 0xFFFFFFFFFFFFFFFF) {σ : Type}
    (source : Source σ) (start : Session σ) (nodup : start.names.Nodup) (steps : List Step) :
    let before := start.after c source steps
    (before.names.Nodup ∧ start.names <+: before.names) ∧
    (∀ step, StepSound c source before step) ∧
    ((∀ choice, 0 < c.odds choice) → source.Lawful → ∀ f,
      ((before.step c source .statement).1.outcome = .fault f ↔
        f = .declaredTwice ∧ Statement.AssignsOn c source before.state ∧
          nthName c.stem before.names.length ∈ before.names)) ∧
    ((∃ k, start.scope = Scope.numbered c.stem k) → (∀ x, .declare x ∉ steps) →
      nthName c.stem before.names.length ∉ before.names) := by
  refine ⟨⟨Session.nodup_after hc source start nodup steps,
    Session.prefix_after hc source start steps⟩, fun step => Session.stepSound hc source _ step,
    fun odds lawful f => ?_, ?_⟩
  · rw [Session.names, Array.mem_toList_iff]
    exact (Draw.outcome_run_map_eq_fault_iff _).trans (Statement.fault_iff hc odds lawful)
  · rintro ⟨k, hk⟩ hsteps
    obtain ⟨k', hk'⟩ := Session.exists_numbered_after hc source start hk hsteps
    rw [Session.names, Array.mem_toList_iff, hk']
    exact Scope.freshName_not_mem_numbered c.stem k'

/-- The second name of the stem is declared by hand, and then wanted by a statement. -/
theorem session_names_collision :
    ((Session.after {} Source.first ⟨{}, ()⟩ [.declare "asdASD1231"]).step {} Source.first
      .statement).1.outcome = .fault .declaredTwice := by
  have hdeclare : Scope.declare? {} "asdASD1231" = some ⟨#["asdASD1231"]⟩ :=
    Scope.declare?_eq_some_iff.mpr ⟨Array.not_mem_empty _, rfl⟩
  have hafter : (Session.after {} Source.first ⟨{}, ()⟩ [.declare "asdASD1231"]).scope =
      ⟨#["asdASD1231"]⟩ := by
    show Scope.declare {} "asdASD1231" = _
    rw [Scope.declare, hdeclare]
    rfl
  refine ((session_names (c := {}) (by decide) Source.first ⟨{}, ()⟩ List.nodup_nil
    [.declare "asdASD1231"]).2.2.1 (by rintro (_ | _ | _) <;> decide) Source.first_lawful _).mpr
    ⟨rfl, rfl, ?_⟩
  rw [Session.names, hafter]
  decide

end RandomInstant
