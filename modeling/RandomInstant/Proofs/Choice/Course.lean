import Mathlib.Tactic.Lemma
import RandomInstant.Choice.Source

/-!
# Courses: the ways through a decision tree

A **course** of a decision is one way through its tree: what happens on it, in order, and how it
ends. Every answer and every refusal is a possible happening, so the courses of a tree do not
depend on a source; a source only selects one of them.

* `course_run`: the record and the outcome of every run are a course of the tree.
* `course_bind_done_iff`: a course of two decisions in sequence that comes to a result is a course
  of the first followed by a course of the second. With the equations for single nodes this opens
  every `do` block, and no proof beyond this file looks at `Draw.run`.
* `run_scripted`: conversely, a course whose answers are below their bounds is what happens when
  these answers are read from a script, and nothing else of the script is used up.
-/

namespace RandomInstant.Draw

variable {ε σ α β : Type}

/-! ## One run from its start -/

/-- On a decision that is taken nothing happens. -/
@[simp]
lemma run_done (source : Source σ) (a : α) (s : σ) :
    run source (done a : Draw ε α) s = ⟨.done a, s, #[]⟩ := rfl

/-- Nothing happens on a decision that fails. -/
@[simp]
lemma run_fault (source : Source σ) (f : Fault) (s : σ) :
    run source (fault f : Draw ε α) s = ⟨.fault f, s, #[]⟩ := rfl

/-- Nothing happens on a decision that has run out of its allowance. -/
@[simp]
lemma run_unfinished (source : Source σ) (s : σ) :
    run source (unfinished : Draw ε α) s = ⟨.unfinished, s, #[]⟩ := rfl

/-- A note is the first thing that happens. -/
@[simp]
lemma run_note (source : Source σ) (e : ε) (rest : Draw ε α) (s : σ) :
    run source (note e rest) s =
      { run source rest s with record := #[.noted e] ++ (run source rest s).record } :=
  runOnto_eq source rest s #[.noted e]

/-- An answer is the first thing that happens, and the rest is what it leads to. -/
lemma run_ask_ok {source : Source σ} {bound x : Nat} {s s' : σ}
    (h : source.answer bound s = (.ok x, s')) (next : Nat → Draw ε α) :
    run source (ask bound next) s =
      { run source (next x) s' with
        record := #[.answered bound x] ++ (run source (next x) s').record } := by
  rw [run, runOnto_ask_ok h, runOnto_eq]
  rfl

/-- A refusal is all that happens. -/
lemma run_ask_error {source : Source σ} {bound : Nat} {f : Fault} {s s' : σ}
    (h : source.answer bound s = (.error f, s')) (next : Nat → Draw ε α) :
    run source (ask bound next) s = ⟨.fault f, s', #[.refused bound f]⟩ := by
  rw [run, runOnto_ask_error h]
  rfl

/-- Where the first of two decisions is taken, the second is run from the state it leaves, and
onto its record. -/
lemma run_bind_of_run_eq_done {source : Source σ} {d : Draw ε α} {s s' : σ} {a : α}
    {r : Array (Happening ε)} (h : run source d s = ⟨.done a, s', r⟩) (k : α → Draw ε β) :
    run source (d >>= k) s = runOnto source (k a) s' r := by
  rw [run, runOnto_bind, show runOnto source d s #[] = _ from h]

/-- The second of two decisions comes to what it comes to from the state that the first leaves. -/
lemma outcome_run_bind_of_done {source : Source σ} {d : Draw ε α} {s : σ} {a : α}
    (h : (run source d s).outcome = .done a) (k : α → Draw ε β) :
    (run source (d >>= k) s).outcome =
      (run source (k a) (run source d s).state).outcome := by
  rcases hd : run source d s with ⟨o, s', r⟩
  rw [hd] at h
  obtain rfl : o = .done a := h
  rw [run_bind_of_run_eq_done hd, runOnto_eq]

/-- Of the first of two decisions, only its result counts for the second. -/
lemma run_bind_congr {source : Source σ} {d : Draw ε α} {k k' : α → Draw ε β} {s : σ} {a : α}
    (h : (run source d s).outcome = .done a) (hk : k a = k' a) :
    run source (d >>= k) s = run source (d >>= k') s := by
  rcases hd : run source d s with ⟨o, s', r⟩
  rw [hd] at h
  obtain rfl : o = .done a := h
  rw [run_bind_of_run_eq_done hd, run_bind_of_run_eq_done hd, hk]

/-- Two decisions come to a result only if the first of them does. -/
lemma exists_outcome_of_run_bind_done {source : Source σ} {d : Draw ε α} {k : α → Draw ε β} {s : σ}
    {b : β} (h : (run source (d >>= k) s).outcome = .done b) :
    ∃ a, (run source d s).outcome = .done a ∧
      (run source (k a) (run source d s).state).outcome = .done b := by
  rcases hd : run source d s with ⟨a | f | _, s', r⟩
  · refine ⟨a, rfl, ?_⟩
    rw [run_bind_of_run_eq_done hd, runOnto_eq] at h
    exact h
  all_goals
    rw [run, runOnto_bind, show runOnto source d s #[] = _ from hd] at h
    cases h

/-- A decision fails as often as its result is only rewritten. -/
lemma outcome_run_map_eq_fault_iff {source : Source σ} {d : Draw ε α} {s : σ} (g : α → β)
    {f : Fault} : (run source (d >>= fun a => done (g a)) s).outcome = .fault f ↔
      (run source d s).outcome = .fault f := by
  rcases hd : run source d s with ⟨a | f' | _, s', r⟩ <;>
    rw [run, runOnto_bind, show runOnto source d s #[] = _ from hd] <;> simp

/-! ## Courses -/

/-- The courses of a decision, each with what happens on it and how it ends. -/
inductive Course : Draw ε α → List (Happening ε) → Outcome α → Prop where
  /-- A decision that is taken. -/
  | done (a : α) : Course (.done a) [] (.done a)
  /-- A decision that fails. -/
  | fault (f : Fault) : Course (.fault f) [] (.fault f)
  /-- A decision that ran out of its allowance. -/
  | unfinished : Course .unfinished [] .unfinished
  /-- A note, and what comes after it. -/
  | note {e : ε} {rest : Draw ε α} {r : List (Happening ε)} {o : Outcome α}
      (h : Course rest r o) : Course (.note e rest) (.noted e :: r) o
  /-- An answer, and what it leads to. -/
  | answered {bound : Nat} {next : Nat → Draw ε α} {r : List (Happening ε)} {o : Outcome α}
      (x : Nat) (h : Course (next x) r o) : Course (.ask bound next) (.answered bound x :: r) o
  /-- A refusal, after which there is nothing. -/
  | refused {bound : Nat} {next : Nat → Draw ε α} (f : Fault) :
      Course (.ask bound next) [.refused bound f] (.fault f)

/-- **Every run is a course.** -/
theorem course_run (source : Source σ) (d : Draw ε α) (s : σ) :
    Course d (run source d s).record.toList (run source d s).outcome := by
  induction d generalizing s with
  | done a => exact .done a
  | fault f => exact .fault f
  | unfinished => exact .unfinished
  | note e rest ih =>
      rw [run_note]
      simpa using (ih s).note
  | ask bound next ih =>
      rcases h : source.answer bound s with ⟨x | x, s'⟩
      · rw [run_ask_error h]
        exact .refused x
      · rw [run_ask_ok h]
        simpa using (ih x s').answered x

/-- The run of a source that came to a result is a course that comes to this result. -/
lemma course_of_outcome_eq {source : Source σ} {d : Draw ε α} {s : σ} {o : Outcome α}
    (h : (run source d s).outcome = o) : Course d (run source d s).record.toList o :=
  h ▸ course_run source d s

/-- The only course of a decision that is taken is empty. -/
@[simp]
lemma course_done_iff {a b : α} {r : List (Happening ε)} :
    Course (.done a) r (.done b) ↔ r = [] ∧ a = b := by
  constructor
  · intro h
    cases h
    exact ⟨rfl, rfl⟩
  · rintro ⟨rfl, rfl⟩
    exact .done a

/-- A decision that fails comes to no result. -/
@[simp]
lemma not_course_fault_done {f : Fault} {b : α} {r : List (Happening ε)} :
    ¬ Course (.fault f) r (.done b) := nofun

/-- A decision that has run out of its allowance comes to no result. -/
@[simp]
lemma not_course_unfinished_done {b : α} {r : List (Happening ε)} :
    ¬ Course .unfinished r (.done b) := nofun

/-- A course starts with the note, if there is one. -/
@[simp]
lemma course_note_iff {e : ε} {rest : Draw ε α} {r : List (Happening ε)} {o : Outcome α} :
    Course (.note e rest) r o ↔ ∃ r', r = .noted e :: r' ∧ Course rest r' o := by
  constructor
  · intro h
    cases h with
    | note h => exact ⟨_, rfl, h⟩
  · rintro ⟨r', rfl, h⟩
    exact h.note

/-- A question is refused, or it is answered and leads on. -/
lemma course_ask_cases {bound : Nat} {next : Nat → Draw ε α} {r : List (Happening ε)}
    {o : Outcome α} (h : Course (.ask bound next) r o) :
    (∃ f, r = [.refused bound f] ∧ o = .fault f) ∨
      ∃ x r', r = .answered bound x :: r' ∧ Course (next x) r' o := by
  cases h with
  | answered x h => exact .inr ⟨x, _, rfl, h⟩
  | refused f => exact .inl ⟨f, rfl, rfl⟩

/-- A question on the way to a result is an answer and what it leads to. -/
@[simp]
lemma course_ask_done_iff {bound : Nat} {next : Nat → Draw ε α} {r : List (Happening ε)} {b : α} :
    Course (.ask bound next) r (.done b) ↔
      ∃ x r', r = .answered bound x :: r' ∧ Course (next x) r' (.done b) := by
  constructor
  · intro h
    cases h with
    | answered x h => exact ⟨x, _, rfl, h⟩
  · rintro ⟨x, r', rfl, h⟩
    exact h.answered x

/-- **Sequencing.** A course of two decisions that comes to a result is one of the first that
comes to a result, followed by one of the second. -/
theorem course_bind_done_iff {d : Draw ε α} {k : α → Draw ε β} {r : List (Happening ε)} {b : β} :
    Course (d >>= k) r (.done b) ↔
      ∃ a r₁ r₂, r = r₁ ++ r₂ ∧ Course d r₁ (.done a) ∧ Course (k a) r₂ (.done b) := by
  induction d generalizing r with
  | done a =>
      constructor
      · intro h
        exact ⟨a, [], r, rfl, .done a, h⟩
      · rintro ⟨a', r₁, r₂, rfl, h₁, h₂⟩
        obtain ⟨rfl, rfl⟩ := course_done_iff.mp h₁
        exact h₂
  | fault f => simp
  | unfinished => simp
  | note e rest ih =>
      simp only [note_bind, course_note_iff, ih]
      constructor
      · rintro ⟨r', rfl, a, r₁, r₂, rfl, h₁, h₂⟩
        exact ⟨a, .noted e :: r₁, r₂, rfl, ⟨r₁, rfl, h₁⟩, h₂⟩
      · rintro ⟨a, _, r₂, rfl, ⟨r₁, rfl, h₁⟩, h₂⟩
        exact ⟨r₁ ++ r₂, rfl, a, r₁, r₂, rfl, h₁, h₂⟩
  | ask bound next ih =>
      simp only [ask_bind, course_ask_done_iff, ih]
      constructor
      · rintro ⟨x, r', rfl, a, r₁, r₂, rfl, h₁, h₂⟩
        exact ⟨a, .answered bound x :: r₁, r₂, rfl, ⟨x, r₁, rfl, h₁⟩, h₂⟩
      · rintro ⟨a, _, r₂, rfl, ⟨x, r₁, rfl, h₁⟩, h₂⟩
        exact ⟨x, r₁ ++ r₂, rfl, a, r₁, r₂, rfl, h₁, h₂⟩

/-- A decision whose result is only rewritten has the same courses. -/
lemma course_map_done_iff {d : Draw ε α} {g : α → β} {r : List (Happening ε)} {b : β} :
    Course (d >>= fun a => .done (g a)) r (.done b) ↔ ∃ a, Course d r (.done a) ∧ g a = b := by
  rw [course_bind_done_iff]
  constructor
  · rintro ⟨a, r₁, r₂, rfl, h₁, h₂⟩
    obtain ⟨rfl, rfl⟩ := course_done_iff.mp h₂
    exact ⟨a, by rwa [List.append_nil], rfl⟩
  · rintro ⟨a, h, rfl⟩
    exact ⟨a, r, [], (List.append_nil r).symm, h, .done _⟩

/-- However it ends, a course of two decisions ends within the first of them without a result, or
it is a course of the first that comes to a result, followed by one of the second. -/
lemma course_bind_cases {d : Draw ε α} {k : α → Draw ε β} {r : List (Happening ε)}
    {o : Outcome β} (h : Course (d >>= k) r o) :
    (∃ o', Course d r o' ∧ (∀ a, o' ≠ .done a) ∧ ∀ b, o ≠ .done b) ∨
      ∃ a r₁ r₂, r = r₁ ++ r₂ ∧ Course d r₁ (.done a) ∧ Course (k a) r₂ o := by
  induction d generalizing r with
  | done a => exact .inr ⟨a, [], r, rfl, .done a, h⟩
  | fault f =>
      cases h
      exact .inl ⟨_, .fault f, nofun, nofun⟩
  | unfinished =>
      cases h
      exact .inl ⟨_, .unfinished, nofun, nofun⟩
  | note e rest ih =>
      obtain ⟨r', rfl, h'⟩ := course_note_iff.mp h
      rcases ih h' with ⟨o', ho', hne⟩ | ⟨a, r₁, r₂, rfl, h₁, h₂⟩
      · exact .inl ⟨o', ho'.note, hne⟩
      · exact .inr ⟨a, _, r₂, rfl, h₁.note, h₂⟩
  | ask bound next ih =>
      rw [ask_bind] at h
      cases h with
      | answered x h' =>
          rcases ih x h' with ⟨o', ho', hne⟩ | ⟨a, r₁, r₂, rfl, h₁, h₂⟩
          · exact .inl ⟨o', ho'.answered x, hne⟩
          · exact .inr ⟨a, _, r₂, rfl, h₁.answered x, h₂⟩
      | refused f => exact .inl ⟨_, .refused f, nofun, nofun⟩

/-- A refusal is what the course that meets it ends with. -/
lemma Course.eq_fault_of_refused {d : Draw ε α} {r : List (Happening ε)} {o : Outcome α}
    (h : Course d r o) {bound : Nat} {f : Fault} (hf : .refused bound f ∈ r) : o = .fault f := by
  induction h with
  | done a => cases hf
  | fault f => cases hf
  | unfinished => cases hf
  | note h ih => exact ih (by simpa using hf)
  | answered x h ih => exact ih (by simpa using hf)
  | refused g =>
      obtain ⟨-, rfl⟩ : bound = _ ∧ f = g := by simpa using hf
      rfl

/-! ### The ways to draw -/

/-- A note is left before the decision goes on. -/
lemma course_remark_bind_iff {e : ε} {k : Unit → Draw ε α} {r : List (Happening ε)}
    {o : Outcome α} :
    Course (remark e >>= k) r o ↔ ∃ r', r = .noted e :: r' ∧ Course (k ()) r' o :=
  course_note_iff

/-- A note is left if there is one. -/
lemma course_tell_done_iff {e? : Option ε} {r : List (Happening ε)} {u : Unit} :
    Course (tell e?) r (.done u) ↔ r = e?.toList.map .noted := by
  cases e? with
  | none => simp [tell]
  | some e => simp [tell, remark]

/-- One answer decides a choice with odds. -/
lemma course_oneIn_done_iff {n : UInt64} {r : List (Happening ε)} {b : Bool} :
    Course (oneIn n) r (.done b) ↔ ∃ x, r = [.answered n.toNat x] ∧ (x == 0) = b := by
  constructor
  · intro h
    obtain ⟨x, r', rfl, h'⟩ := course_ask_done_iff.mp h
    obtain ⟨rfl, rfl⟩ := course_done_iff.mp h'
    exact ⟨x, rfl, rfl⟩
  · rintro ⟨x, rfl, rfl⟩
    exact .answered x (.done _)

/-- One answer picks an element, and only an answer that names one. -/
lemma course_pick_done_iff {xs : Array α} {r : List (Happening ε)} {a : α} :
    Course (pick xs) r (.done a) ↔
      ∃ i, ∃ h : i < xs.size, r = [.answered xs.size i] ∧ xs[i] = a := by
  rw [pick_def, course_ask_done_iff]
  constructor
  · rintro ⟨i, r', rfl, h⟩
    by_cases hi : i < xs.size
    · rw [dif_pos hi] at h
      obtain ⟨rfl, rfl⟩ := course_done_iff.mp h
      exact ⟨i, hi, rfl, rfl⟩
    · rw [dif_neg hi] at h
      exact absurd h not_course_fault_done
  · rintro ⟨i, hi, rfl, rfl⟩
    refine ⟨i, [], rfl, ?_⟩
    rw [dif_pos hi]
    exact .done _

/-! ## Courses from scripts -/

/-- **Replay.** A course that comes to a result by answers below their bounds is what happens when
its answers are read from a script, and the rest of the script is left. -/
theorem run_scripted {d : Draw ε α} {r : List (Happening ε)} {a : α} (h : Course d r (.done a))
    (below : ∀ bound x, .answered bound x ∈ r → x < bound) (rest : List Nat) :
    run Source.scripted d (r.filterMap Happening.answer? ++ rest) =
      ⟨.done a, rest, r.toArray⟩ := by
  generalize ho : Outcome.done a = o at h
  induction h with
  | done a =>
      cases ho
      rfl
  | fault f => cases ho
  | unfinished => cases ho
  | @note e d r o h ih =>
      have ih := ih (fun bound x hx => below bound x (.tail _ hx)) ho
      have hanswers : (Happening.noted e :: r).filterMap Happening.answer? =
          r.filterMap Happening.answer? := rfl
      rw [hanswers, run_note, ih]
      simp
  | @answered bound next r o x h ih =>
      have ih := ih (fun bound x hx => below bound x (.tail _ hx)) ho
      have hx : x < bound := below bound x (.head _)
      have hans : ∀ script, Source.scripted.answer bound (x :: script) = (.ok x, script) := by
        intro script
        simp [Source.scripted, hx]
      have hanswers : (Happening.answered bound x :: r).filterMap Happening.answer? =
          x :: r.filterMap Happening.answer? := rfl
      rw [hanswers, List.cons_append, run_ask_ok (hans _), ih]
      simp
  | refused f => cases ho

end RandomInstant.Draw
