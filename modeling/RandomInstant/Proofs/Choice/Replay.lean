import RandomInstant.Proofs.Choice.Conduct

/-!
# Replaying a run from its answers

A run that came to a result is determined by the answers it was given. Read from a script, they lead
to the same result by the same happenings, and whatever follows them in the script is left. Where
the script breaks off before them, the run asks the same questions up to the first one whose answer
is missing, and fails there.

* `Draw.run_scripted_of_missing`: a course on a script that lacks some of its answers.
* `Draw.answers_append_state`: what a script that led to a result consists of.
* **`Draw.replays`**: both together, for the runs of every source whose answers stay below their
  bounds.
-/

namespace RandomInstant

variable {ε σ α : Type}

/-- A strict source answers below its bounds, where it answers. -/
lemma Source.Strict.follows_bounded {source : Source σ} (h : source.Strict) :
    source.Follows .bounded := by
  intro bound s
  have hstrict := h.follows bound s
  revert hstrict
  cases (source.answer bound s).1 with
  | ok x => exact id
  | error f => exact fun _ => trivial

namespace Draw

/-- Questions that come to a result are answered. -/
lemma Course.not_mem_refused {d : Draw ε α} {r : List (Happening ε)} {a : α}
    (h : Course d r (.done a)) (bound : Nat) (f : Fault) : .refused bound f ∉ r :=
  fun hmem => absurd (h.eq_fault_of_refused hmem) nofun

/-- There are as many answers as questions on the way to a result. -/
lemma Course.length_answers {d : Draw ε α} {r : List (Happening ε)} {a : α}
    (h : Course d r (.done a)) :
    (r.filterMap Happening.answer?).length = (r.filterMap Happening.bound?).length := by
  have hrefused := h.not_mem_refused
  clear h
  induction r with
  | nil => rfl
  | cons e r ih =>
      have ih := ih fun bound f hmem => hrefused bound f (.tail _ hmem)
      cases e with
      | answered bound x => simp [Happening.answer?, Happening.bound?, ih]
      | refused bound f => exact absurd (.head _) (hrefused bound f)
      | noted e => rwa [List.filterMap_cons_none rfl, List.filterMap_cons_none rfl]

/-- **A script that breaks off.** Where some answers of a course are missing from its script, the
same happens as on the course up to the question of the first missing answer, which is refused. -/
theorem run_scripted_of_missing {d : Draw ε α} {r : List (Happening ε)} {o : Outcome α}
    (h : Course d r o) (below : ∀ bound x, .answered bound x ∈ r → x < bound) {script : List Nat}
    {x : Nat} {missing : List Nat} (hr : r.filterMap Happening.answer? = script ++ x :: missing) :
    ∃ r₁ bound r₂, r = r₁ ++ .answered bound x :: r₂ ∧
      run Source.scripted d script =
        ⟨.fault .scriptExhausted, [], (r₁ ++ [.refused bound .scriptExhausted]).toArray⟩ := by
  induction h generalizing script with
  | done a => simp at hr
  | fault f => simp at hr
  | unfinished => simp at hr
  | @note e rest r o h ih =>
      obtain ⟨r₁, bound, r₂, rfl, hrun⟩ := ih (fun bound y hy => below bound y (.tail _ hy)) hr
      exact ⟨.noted e :: r₁, bound, r₂, rfl, by simp [hrun]⟩
  | @answered bound next r o y h ih =>
      have hy : y < bound := below bound y (.head _)
      obtain _ | ⟨z, script⟩ := script
      · -- the script has nothing for this question
        obtain ⟨rfl, -⟩ := List.cons.inj hr
        exact ⟨[], bound, r, rfl, run_ask_error rfl next⟩
      · obtain ⟨rfl, hr'⟩ := List.cons.inj hr
        obtain ⟨r₁, bound', r₂, rfl, hrun⟩ :=
          ih (fun bound z hz => below bound z (.tail _ hz)) hr'
        have hanswer : Source.scripted.answer bound (y :: script) = (.ok y, script) := by
          simp [Source.scripted, hy]
        refine ⟨.answered bound y :: r₁, bound', r₂, rfl, ?_⟩
        rw [run_ask_ok hanswer, hrun]
        simp
  | refused f => exact absurd hr.symm (List.append_ne_nil_of_right_ne_nil _ (List.cons_ne_nil _ _))

/-- A script that leads to a result is the answers that are read, and what is left of it. -/
lemma answers_append_state {d : Draw ε α} {script : List Nat} {a : α}
    (h : (run Source.scripted d script).outcome = .done a) :
    (run Source.scripted d script).answers ++ (run Source.scripted d script).state = script := by
  induction d generalizing script with
  | done a => rfl
  | fault f => cases h
  | unfinished => cases h
  | note e rest ih =>
      rw [run_note] at h ⊢
      simpa [Run.answers, List.filterMap_cons, Happening.answer?] using ih h
  | ask bound next ih =>
      obtain _ | ⟨x, script⟩ := script
      · cases h
      · by_cases hx : x < bound
        · have hanswer : Source.scripted.answer bound (x :: script) = (.ok x, script) := by
            simp [Source.scripted, hx]
          rw [run_ask_ok hanswer] at h ⊢
          simpa [Run.answers, List.filterMap_cons, Happening.answer?] using ih x h
        · have hanswer : Source.scripted.answer bound (x :: script) =
              (.error (.notBelow x bound), script) := by
            simp [Source.scripted, hx]
          rw [run_ask_error hanswer] at h
          cases h

/-- A run of a decision is replayed by its answers. -/
structure Replays (d : Draw ε α) (r : Run ε σ α) : Prop where
  /-- All its questions were answered. -/
  answered : r.answers.length = r.bounds.length
  /-- Its answers lead to where it ended, by the same happenings, and nothing more is read. -/
  whole : ∀ rest, d.run Source.scripted (r.answers ++ rest) = ⟨r.outcome, rest, r.record⟩
  /-- On fewer of its answers the same happens until one is missing, and then the script is
  exhausted. -/
  cutShort : ∀ script, script <+: r.answers → script ≠ r.answers →
    ∃ before bound x after, r.record.toList = before ++ .answered bound x :: after ∧
      d.run Source.scripted script =
        ⟨.fault .scriptExhausted, [], (before ++ [.refused bound .scriptExhausted]).toArray⟩

/-- **Replay.** A run that came to a result on a source that answers below its bounds is replayed by
its answers. -/
theorem replays {source : Source σ} (hs : source.Follows .bounded) {d : Draw ε α} {s : σ} {a : α}
    (h : (d.run source s).outcome = .done a) : d.Replays (d.run source s) := by
  have hcourse := course_of_outcome_eq h
  have hkeeps := hs.keeps d s
  have hbelow : ∀ bound x, .answered bound x ∈ (d.run source s).record.toList → x < bound :=
    fun bound x hx => hkeeps _ hx
  refine ⟨hcourse.length_answers, fun rest => ?_, fun script hprefix hne => ?_⟩
  · rw [Run.answers, run_scripted hcourse hbelow rest, h]
  · obtain ⟨missing, hmissing⟩ := hprefix
    obtain _ | ⟨x, missing⟩ := missing
    · exact absurd (by rw [← hmissing, List.append_nil]) hne
    · obtain ⟨before, bound, after, hrecord, hrun⟩ :=
        run_scripted_of_missing hcourse hbelow hmissing.symm
      exact ⟨before, bound, x, after, hrecord, hrun⟩

end Draw

end RandomInstant
