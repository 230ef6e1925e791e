import RandomInstant.Proofs.Choice.Replay
import RandomInstant.Proofs.Choice.Seeded
import RandomInstant.Proofs.Session.InPlace
import RandomInstant.Program.Generate

/-!
# Replaying a step of a session

All that a step draws it draws through questions to its source, so the answers that it was given say
everything about it: read from a script, they lead to the same result and the same scope. This needs
no condition on the configuration, not even on its greatest depth, as long as the step that is
replayed has come to a result.

On a script that breaks off, a step leaves the scope as it was. It would do so too if it changed the
scope in place, because a statement notes the name it is going to declare after its last question.

* `Statement.notes_eq_nil_of_refused`: a statement that fails by a question has declared nothing.
* **`session_replays`**: replay, for all steps of all sessions and for the programs of seeds.
-/

namespace RandomInstant

open Draw (Course course_ask_cases course_bind_cases course_note_iff)

variable {c : Config} {scope : Scope} {σ : Type} {source : Source σ} {session : Session σ}
  {step : Step}

namespace Statement

variable {r : List (Happening Remark)} {o : Outcome (Statement × Scope)} {bound : Nat} {f : Fault}

/-- What asks nothing after an expression has noted nothing where a question is refused. -/
lemma notes_eq_nil_of_refused_bind {k : Expr → Draw Remark (Statement × Scope)}
    (h : Course (Expr.random c scope 1 >>= k) r o) (hf : .refused bound f ∈ r)
    (hk : ∀ e r', Course (k e) r' o → .refused bound f ∉ r') :
    r.filterMap Happening.note? = [] := by
  rcases course_bind_cases h with ⟨o', ho', -, -⟩ | ⟨e, r₁, r₂, rfl, h₁, h₂⟩
  · exact (Expr.silent c scope 1).notes_eq_nil ho'
  · rcases List.mem_append.mp hf with hf | hf
    · exact absurd hf (h₁.not_mem_refused bound f)
    · exact absurd hf (hk e r₂ h₂)

/-- **A statement declares after its last question**: one that fails by a question has noted
nothing. -/
theorem notes_eq_nil_of_refused (h : Course (random c scope) r o) (hf : .refused bound f ∈ r) :
    r.filterMap Happening.note? = [] := by
  rw [random_def, Draw.oneIn_bind] at h
  rcases course_ask_cases h with ⟨g, rfl, -⟩ | ⟨x, r₁, rfl, h₁⟩
  · rfl
  · rw [List.filterMap_cons_none rfl]
    have hf : .refused bound f ∈ r₁ := by simpa using hf
    by_cases hx : x = 0
    · rw [if_pos (by simpa using hx)] at h₁
      apply notes_eq_nil_of_refused_bind h₁ hf
      intro e r₂ h₂
      obtain ⟨r₃, rfl, h₃⟩ := course_note_iff.mp h₂
      split at h₃ <;> cases h₃ <;> simp
    · rw [if_neg (by simpa using hx)] at h₁
      apply notes_eq_nil_of_refused_bind h₁ hf
      intro e r₂ h₂
      cases h₂
      simp

end Statement

/-- A step that fails by a question has inserted nothing into the scope of its session. -/
lemma Step.inserted_eq_nil_of_refused {r : List (Happening Remark)}
    {o : Outcome (StepResult × Scope)} (h : Course (step.draw c scope) r o) {bound : Nat}
    {f : Fault} (hf : .refused bound f ∈ r) : step.inserted (r.filterMap Happening.note?) = [] := by
  cases step with
  | statement =>
      have hnotes : r.filterMap Happening.note? = [] := by
        rcases course_bind_cases h with ⟨o', ho', -, -⟩ | ⟨⟨s, scope'⟩, r₁, r₂, rfl, h₁, h₂⟩
        · exact Statement.notes_eq_nil_of_refused ho' hf
        · -- a statement that is drawn has had all its questions answered
          cases h₂
          rw [List.append_nil] at hf
          exact absurd hf (h₁.not_mem_refused bound f)
      rw [hnotes]
      rfl
  | declare x =>
      cases h
      cases hf
  | _ => rfl

/-- A step of a session is replayed by its answers. -/
structure Session.StepReplays (c : Config) (source : Source σ) (session : Session σ)
    (step : Step) : Prop where
  /-- All its questions were answered. -/
  answered : (session.step c source step).1.answers.length =
    (session.step c source step).1.bounds.length
  /-- Its answers lead to its result and its scope by the same happenings, and nothing more is
  read. -/
  whole : ∀ rest, Session.step c .scripted
      ⟨session.scope, (session.step c source step).1.answers ++ rest⟩ step =
    (⟨(session.step c source step).1.outcome, rest, (session.step c source step).1.record⟩,
      ⟨(session.step c source step).2.scope, rest⟩)
  /-- On fewer of its answers the same happens until one is missing. Then the script is exhausted,
  nothing has been inserted into the scope, and it is left as it was. -/
  cutShort : ∀ script, script <+: (session.step c source step).1.answers →
    script ≠ (session.step c source step).1.answers →
    ∃ before bound x after,
      (session.step c source step).1.record.toList = before ++ .answered bound x :: after ∧
      step.inserted (before.filterMap Happening.note?) = [] ∧
      Session.step c .scripted ⟨session.scope, script⟩ step =
        (⟨.fault .scriptExhausted, [], (before ++ [.refused bound .scriptExhausted]).toArray⟩,
          ⟨session.scope, []⟩)

/-- What a step makes of a session, given the run of its decision. -/
lemma Session.step_eq_of_run (session : Session σ) {run : Run Remark σ (StepResult × Scope)}
    (h : (step.draw c session.scope).run source session.state = run) :
    session.step c source step = (run, ⟨run.outcome.scopeAfter session.scope, run.state⟩) := by
  subst h
  exact Prod.ext rfl (congrArg (Session.mk · _) (scope_step c source session step))

/-- **Replay of steps.** A step that has come to a result, on a source that answers below its
bounds, is replayed by its answers. -/
theorem Session.stepReplays (hs : source.Follows .bounded) {result : StepResult × Scope}
    (h : (session.step c source step).1.outcome = .done result) :
    StepReplays c source session step := by
  have hreplays : (step.draw c session.scope).Replays (session.step c source step).1 :=
    Draw.replays hs h
  refine ⟨hreplays.answered, fun rest => ?_, fun script hprefix hne => ?_⟩
  · rw [step_eq_of_run ⟨session.scope, _⟩ (hreplays.whole rest), scope_step]
  · obtain ⟨before, bound, x, after, hrecord, hrun⟩ := hreplays.cutShort script hprefix hne
    refine ⟨before, bound, x, after, hrecord, ?_, step_eq_of_run ⟨session.scope, script⟩ hrun⟩
    have hcourse := Draw.course_run .scripted (step.draw c session.scope) script
    rw [hrun] at hcourse
    have hinserted := Step.inserted_eq_nil_of_refused hcourse (List.mem_append_right _ (.head _))
    rwa [List.filterMap_append, List.filterMap_cons_none rfl, List.filterMap_nil,
      List.append_nil] at hinserted

open Session (StepReplays)

/-- **Replay.** Whatever the configuration is: if a step of a session has come to a result, on a
source that answers below its bounds, such as any strict one, then the answers that it was given
lead to the same result and the same scope when they are read from a script, by the same questions
and notes, and the rest of the script is left. On a script that breaks off before the last of them
the step fails, because the script is exhausted, and leaves the scope as it was.

So the program of a seed is determined by what was drawn for it. -/
theorem session_replays (c : Config) :
    (∀ (σ : Type) (source : Source σ), source.Follows .bounded →
      ∀ (session : Session σ) (step : Step) (result : StepResult × Scope),
        (session.step c source step).1.outcome = .done result →
          StepReplays c source session step) ∧
    (∀ seed p, (generate c seed).outcome = .done p →
      (Program.random c).Replays (generate c seed)) ∧
    Fault.scriptExhausted.message = "script exhausted" := by
  refine ⟨fun σ source hs session step result h => Session.stepReplays hs h, fun seed p hp => ?_,
    rfl⟩
  exact Draw.replays Source.seeded_strict.follows_bounded hp

/-- The first assignment of a session, drawn from least numbers. Four answers lead to it, and three
do not. -/
theorem session_replays_assignment :
    (Session.step {} .scripted ⟨{}, [0, 0, 0, 0, 7]⟩ .statement).2 = ⟨⟨#["asdASD1230"]⟩, [7]⟩ ∧
      (Session.step {} .scripted ⟨{}, [0, 0, 0]⟩ .statement).2 = ⟨{}, []⟩ := by
  have houtcome : (Session.step {} Source.first ⟨{}, ()⟩ .statement).1.outcome =
      .done (.statement (.assignment "asdASD1230" (.value (.literal 0) true)),
        ⟨#["asdASD1230"]⟩) := by decide +kernel
  have hanswers : (Session.step {} Source.first ⟨{}, ()⟩ .statement).1.answers = [0, 0, 0, 0] := by
    decide +kernel
  have hreplays := (session_replays {}).1 Unit Source.first Source.first_strict.follows_bounded
    ⟨{}, ()⟩ .statement _ houtcome
  constructor
  · have hwhole := congrArg Prod.snd (hreplays.whole [7])
    rwa [hanswers, Session.scope_step, houtcome] at hwhole
  · obtain ⟨before, bound, x, after, -, -, hcut⟩ := hreplays.cutShort [0, 0, 0]
      (by rw [hanswers]; decide) (by rw [hanswers]; decide)
    exact congrArg Prod.snd hcut

end RandomInstant
