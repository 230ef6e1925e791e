import RandomInstant.Program.Session
import RandomInstant.Proofs.Program.Scoping
import RandomInstant.Proofs.Program.Totality

/-!
# What one step of a session does

The steps of a session as relations, and what follows for a single step from any scope.

* `Step.course_draw_iff`: the results of a step, with the scope after it.
* `Step.Drawn.names_eq`: the names of that scope are those before the step and at most one more,
  `Step.added?`, at their end. `Step.Drawn.added_not_mem`: it is new.
* `Step.Drawn.mem_names_of_ident`: what is drawn refers to names of the scope before the step.
* `Step.finishes`: a step comes to an end.
* `Statement.fault_iff`: on a lawful source and with positive odds, a statement fails exactly if it
  is to be an assignment and the name it would declare is declared.
-/

namespace RandomInstant

open Draw (Course course_done_iff course_map_done_iff)
open Grammar (Derives)

variable {c : Config} {scope scope' : Scope} {r : List (Happening Remark)}

/-- Declaring adds a name at the end, unless it is declared. -/
lemma Scope.names_declare (scope : Scope) (x : String) :
    (scope.declare x).names.toList =
      scope.names.toList ++ (if x ∈ scope.names.toList then none else some x).toList := by
  rw [declare, declare?]
  by_cases hmem : x ∈ scope.names
  · simp [hmem, declares_iff.mpr hmem]
  · simp [hmem, mt declares_iff.mp hmem]

namespace Step

/-- The results that a step can come to, each with the scope after it. -/
inductive Drawn (c : Config) (scope : Scope) :
    Step → List (Happening Remark) → StepResult → Scope → Prop where
  /-- A program, which has a scope of its own. -/
  | program {r : List (Happening Remark)} {p : Program} (h : p.Drawn c r) :
      Drawn c scope .program r (.program p) scope
  /-- A statement, and what it declares. -/
  | statement {r : List (Happening Remark)} {s : Statement} {scope' : Scope}
      (h : s.Drawn c scope r scope') : Drawn c scope .statement r (.statement s) scope'
  /-- An expression. -/
  | expression {r : List (Happening Remark)} {depth : UInt64} {e : Expr}
      (h : e.Drawn c scope depth r) : Drawn c scope (.expression depth) r (.expression e) scope
  /-- A value. -/
  | value {r : List (Happening Remark)} {v : Value} (h : v.Drawn c scope r) :
      Drawn c scope .value r (.value v) scope
  /-- A name, of which nothing is asked. -/
  | freshName : Drawn c scope .freshName [] (.name (scope.freshName c.stem)) scope
  /-- A name declared by hand. -/
  | declare (x : String) :
      Drawn c scope (.declare x) [] (.declared (!scope.declares x)) (scope.declare x)

/-- **The courses of steps.** -/
theorem course_draw_iff (hc : c.maxDepth < 0xFFFFFFFFFFFFFFFF) {step : Step} {result : StepResult} :
    Course (step.draw c scope) r (.done (result, scope')) ↔ Drawn c scope step r result scope' := by
  cases step with
  | program =>
      refine (course_map_done_iff (g := fun p => (StepResult.program p, scope))).trans ?_
      simp only [Program.course_random_iff hc, Prod.mk.injEq]
      constructor
      · rintro ⟨p, h, rfl, rfl⟩
        exact .program h
      · rintro ⟨⟩
        exact ⟨_, ‹_›, rfl, rfl⟩
  | statement =>
      refine (course_map_done_iff
        (g := fun x : Statement × Scope => (StepResult.statement x.1, x.2))).trans ?_
      simp only [Prod.exists, Statement.course_random_iff hc, Prod.mk.injEq]
      constructor
      · rintro ⟨s, _, h, rfl, rfl⟩
        exact .statement h
      · rintro ⟨⟩
        exact ⟨_, _, ‹_›, rfl, rfl⟩
  | expression depth =>
      refine (course_map_done_iff (g := fun e => (StepResult.expression e, scope))).trans ?_
      simp only [Expr.course_random_iff hc, Prod.mk.injEq]
      constructor
      · rintro ⟨e, h, rfl, rfl⟩
        exact .expression h
      · rintro ⟨⟩
        exact ⟨_, ‹_›, rfl, rfl⟩
  | value =>
      refine (course_map_done_iff (g := fun v => (StepResult.value v, scope))).trans ?_
      simp only [Value.course_random_iff, Prod.mk.injEq]
      constructor
      · rintro ⟨v, h, rfl, rfl⟩
        exact .value h
      · rintro ⟨⟩
        exact ⟨_, ‹_›, rfl, rfl⟩
  | freshName =>
      refine course_done_iff.trans ?_
      rw [Prod.mk.injEq]
      constructor
      · rintro ⟨rfl, rfl, rfl⟩
        exact .freshName
      · rintro ⟨⟩
        exact ⟨rfl, rfl, rfl⟩
  | declare x =>
      refine course_done_iff.trans ?_
      rw [Prod.mk.injEq]
      constructor
      · rintro ⟨rfl, rfl, rfl⟩
        exact .declare x
      · rintro ⟨⟩
        exact ⟨rfl, rfl, rfl⟩

/-! ## Names before and after -/

/-- The name that a step adds to given names by the way it ends: where an assignment is drawn, the
one behind the stem whose number is how many names there are; and a name declared by hand, if it is
not among them. -/
def added? (stem : String) (names : List String) :
    Step → Outcome (StepResult × Scope) → Option String
  | statement, .done (.statement (.assignment _ _), _) => some (nthName stem names.length)
  | declare x, .done _ => if x ∈ names then none else some x
  | _, _ => none

/-- The scope after a step has the name that the step adds after all others. -/
lemma Drawn.names_eq {step : Step} {result : StepResult}
    (h : Drawn c scope step r result scope') :
    scope'.names.toList =
      scope.names.toList ++
        (step.added? c.stem scope.names.toList (.done (result, scope'))).toList := by
  cases h with
  | program h => exact (List.append_nil _).symm
  | statement h =>
      cases h with
      | expression hx he => exact (List.append_nil _).symm
      | assignment he fresh => exact Array.toList_push
  | expression h => exact (List.append_nil _).symm
  | value h => exact (List.append_nil _).symm
  | freshName => exact (List.append_nil _).symm
  | declare x => exact Scope.names_declare scope x

/-- An assignment is to the next name by number. -/
lemma Drawn.target_eq {step : Step} {x : String} {e : Expr}
    (h : Drawn c scope step r (.statement (.assignment x e)) scope') :
    x = nthName c.stem scope.names.toList.length := by
  cases h with
  | statement h =>
      cases h with
      | assignment he fresh => rfl

/-- A name is added to a scope only if it is new. -/
lemma Drawn.added_not_mem {step : Step} {result : StepResult}
    (h : Drawn c scope step r result scope') {x : String}
    (hx : step.added? c.stem scope.names.toList (.done (result, scope')) = some x) :
    x ∉ scope.names.toList := by
  cases h with
  | statement h =>
      cases h with
      | expression _ he => cases hx
      | assignment he fresh =>
          cases hx
          exact fun hmem => fresh (Array.mem_toList_iff.mp hmem)
  | declare y =>
      have hx : (if y ∈ scope.names.toList then none else some y) = some x := hx
      split at hx
      · cases hx
      · next hmem =>
          cases hx
          exact hmem
  | _ => cases hx

end Step

/-- The tokens of a result that may refer to the scope it was drawn in. -/
def StepResult.referring : StepResult → Tokens
  | statement s => s.expr.tokens
  | expression e => e.tokens
  | value v => [v.token]
  | _ => []

/-- What a step draws refers to names of the scope before it. -/
lemma Step.Drawn.mem_names_of_ident {step : Step} {result : StepResult}
    (h : Drawn c scope step r result scope') {x : String} (hx : .ident x ∈ result.referring) :
    x ∈ scope.names.toList := by
  have hexpr : ∀ {e : Expr}, e.Over (· ∈ scope.names.toList) (fun _ => True) →
      .ident x ∈ e.tokens → x ∈ scope.names.toList :=
    fun hover hmem => (Expr.derives_tokens hover).of_ident_mem hmem
  cases h with
  | statement h => exact hexpr (h.over fun _ _ => trivial) hx
  | expression h =>
      refine hexpr ?_ hx
      simpa only [Array.mem_toList_iff] using h.over (I := fun _ => True) fun _ _ => trivial
  | value h =>
      refine hexpr (e := .value _ false) (?_ : Value.Over _ _ _) hx
      simpa only [Array.mem_toList_iff] using h.over (I := fun _ => True) fun _ _ => trivial
  | _ => cases hx

/-! ## How steps end -/

/-- The scope after a decision that ended in some way: the one it came to, or else the one before
it. -/
def Outcome.scopeAfter {α : Type} (before : Scope) : Outcome (α × Scope) → Scope
  | done (_, after) => after
  | fault _ => before
  | unfinished => before

/-- Without a result the scope stays as it was. -/
lemma Outcome.scopeAfter_of_ne_done {α : Type} {o : Outcome (α × Scope)}
    (h : ∀ result, o ≠ .done result) (before : Scope) : o.scopeAfter before = before := by
  cases o with
  | done result => exact absurd rfl (h result)
  | fault f => rfl
  | unfinished => rfl

/-- The scope after a step is the one that its decision has left. -/
lemma Session.scope_step {σ : Type} (c : Config) (source : Source σ) (session : Session σ)
    (step : Step) : (session.step c source step).2.scope =
      (session.step c source step).1.outcome.scopeAfter session.scope := by
  simp only [Session.step]
  cases (Draw.run source (step.draw c session.scope) session.state).outcome with
  | done result => rfl
  | fault f => rfl
  | unfinished => rfl

/-- A step comes to an end. -/
lemma Step.finishes (hc : c.maxDepth < 0xFFFFFFFFFFFFFFFF) (scope : Scope) (step : Step) :
    (step.draw c scope).Finishes := by
  cases step with
  | program => exact (Program.finishes hc).bind fun _ _ _ => Draw.finishes_done _
  | statement => exact (Statement.finishes hc scope).bind fun _ _ _ => Draw.finishes_done _
  | expression depth => exact (Expr.finishes hc scope depth).bind fun _ _ _ => Draw.finishes_done _
  | value => exact (Value.finishes c scope).bind fun _ _ _ => Draw.finishes_done _
  | freshName => exact Draw.finishes_done _
  | declare x => exact Draw.finishes_done _

section

variable {σ : Type} {source : Source σ} {s : σ}

/-- Whether the statement that is drawn next from a state of a source is to be an assignment. -/
def Statement.AssignsOn (c : Config) (source : Source σ) (s : σ) : Prop :=
  ((Draw.oneIn c.assignOdds : Draw Remark Bool).run source s).outcome = .done true

/-- An assignment whose name is declared comes to nothing, once its expression is drawn. -/
lemma Statement.outcome_of_assignsOn (hc : c.maxDepth < 0xFFFFFFFFFFFFFFFF)
    (odds : ∀ choice, 0 < c.odds choice) (lawful : source.Lawful) (h : AssignsOn c source s)
    (hmem : scope.freshName c.stem ∈ scope.names) :
    ((random c scope).run source s).outcome = .fault .declaredTwice := by
  rw [random_def, Draw.outcome_run_bind_of_done h, if_pos rfl]
  obtain ⟨e, he, -⟩ := (Expr.takes (c.settledBy_lawful odds) hc scope 1).outcome_run
    lawful.follows ((Draw.oneIn c.assignOdds : Draw Remark Bool).run source s).state
  rw [Draw.outcome_run_bind_of_done he, Draw.remark_bind, Draw.run_note,
    Scope.declare?_eq_none_iff.mpr hmem]
  rfl

/-- **When a statement fails.** On a lawful source and with positive odds it fails exactly if it
is to be an assignment and the name it would declare is declared. -/
theorem Statement.fault_iff (hc : c.maxDepth < 0xFFFFFFFFFFFFFFFF)
    (odds : ∀ choice, 0 < c.odds choice) (lawful : source.Lawful) {f : Fault} :
    ((random c scope).run source s).outcome = .fault f ↔
      f = .declaredTwice ∧ AssignsOn c source s ∧ scope.freshName c.stem ∈ scope.names := by
  have hsettled := c.settledBy_lawful odds
  constructor
  · intro hf
    by_cases hmem : scope.freshName c.stem ∈ scope.names
    · obtain ⟨assigns, hassigns, -⟩ := (Draw.takes_oneIn (hsettled.odds .assignment)).outcome_run
        lawful.follows s (d := (Draw.oneIn c.assignOdds : Draw Remark Bool))
      cases assigns with
      | true =>
          rw [outcome_of_assignsOn hc odds lawful hassigns hmem] at hf
          cases hf
          exact ⟨rfl, hassigns, hmem⟩
      | false =>
          rw [random_def, Draw.outcome_run_bind_of_done hassigns, if_neg Bool.false_ne_true] at hf
          have hf := (Draw.outcome_run_map_eq_fault_iff fun e => (expression e, scope)).mp hf
          obtain ⟨e, he, -⟩ := (Expr.takes hsettled hc scope 1).outcome_run lawful.follows
            ((Draw.oneIn c.assignOdds : Draw Remark Bool).run source s).state
          rw [he] at hf
          cases hf
    · obtain ⟨result, hresult, -⟩ := (takes hsettled hc hmem).outcome_run lawful.follows s
      rw [hresult] at hf
      cases hf
  · rintro ⟨rfl, hassigns, hmem⟩
    exact outcome_of_assignsOn hc odds lawful hassigns hmem

end

end RandomInstant
