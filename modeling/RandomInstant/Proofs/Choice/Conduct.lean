import RandomInstant.Proofs.Choice.Relator

/-!
# Conducts: what is known of a source

A **conduct** says which reactions to a bound are possible, and a source follows it if it never
reacts otherwise. What a decision comes to under a conduct is shown on its tree, once, and then
holds of the runs of every source that follows the conduct, from every state.

* `Draw.Ensures`: every course on which the conduct is kept ends as required (`Ensures.of_course`,
  `Ensures.outcome_run`), with the rules `Ensures.mono` and `Ensures.bind`.
* `Draw.Takes`: every such course comes to a result, and the result is as required. This includes
  that no question is refused, so it needs bounds that the conduct settles.
* `Draw.Faultless`: no such course fails. It may still run out of its allowance of nested calls.
* `Draw.Finishes`: the allowance of nested calls never runs out, whatever the answers are.
* `Source.Strict`: a source that answers every positive bound below it and refuses the bound zero.
  `Takes.done_or_refused`: what is taken whenever all questions are answered below their bounds
  is taken from a strict source unless that refuses a bound of zero.
-/

namespace RandomInstant

variable {ε σ α β : Type}

/-- Which reactions to a bound are possible. -/
abbrev Conduct := Nat → Except Fault Nat → Prop

namespace Conduct

/-- Positive bounds are answered, below the bound; nothing is known of the bound zero. -/
def lawful : Conduct := fun bound reaction => 0 < bound → ∃ x < bound, reaction = .ok x

/-- All bounds are answered, below the bound. -/
def answering : Conduct := fun bound reaction => ∃ x < bound, reaction = .ok x

/-- Bounds may be refused, but answers are below them. -/
def bounded : Conduct
  | bound, .ok x => x < bound
  | _, .error _ => True

/-- Positive bounds are answered, below the bound, and the bound zero is refused. -/
def strict : Conduct
  | bound, .ok x => x < bound
  | bound, .error _ => bound = 0

/-- Positive bounds are answered with the greatest number below them. -/
def greatest : Conduct := fun bound reaction => 0 < bound → reaction = .ok (bound - 1)

/-- Nothing is known. -/
def anything : Conduct := fun _ _ => True

/-- A conduct settles a bound if this is always answered, and below the bound. -/
def Settles (H : Conduct) (bound : Nat) : Prop :=
  ∀ reaction, H bound reaction → ∃ x < bound, reaction = .ok x

/-- Lawful sources settle positive bounds. -/
lemma lawful_settles {bound : Nat} (h : 0 < bound) : lawful.Settles bound :=
  fun _ hr => hr h

/-- Where all bounds are answered, all are settled. -/
lemma answering_settles (bound : Nat) : answering.Settles bound := fun _ hr => hr

/-- The greatest answers settle positive bounds. -/
lemma greatest_settles {bound : Nat} (h : 0 < bound) : greatest.Settles bound :=
  fun _ hr => ⟨bound - 1, Nat.sub_lt h Nat.one_pos, hr h⟩

/-- The greatest answer is the least one exactly where there is no other. -/
lemma eq_zero_iff_of_greatest {bound x : Nat} (hb : 0 < bound) (h : greatest bound (.ok x)) :
    x = 0 ↔ bound = 1 := by
  have hx : x = bound - 1 := Except.ok.inj (h hb)
  omega

end Conduct

/-! ## Sources and records that follow a conduct -/

/-- A source follows a conduct if it never reacts otherwise. -/
def Source.Follows (source : Source σ) (H : Conduct) : Prop :=
  ∀ bound s, H bound (source.answer bound s).1

/-- A source is strict if it is lawful and refuses the bound zero. -/
structure Source.Strict (source : Source σ) : Prop where
  /-- Positive bounds are answered, below the bound. -/
  lawful : source.Lawful
  /-- The bound zero is refused. -/
  refuses : ∀ s, ∃ f next, source.answer 0 s = (.error f, next)

/-- A lawful source follows the conduct of that name. -/
lemma Source.Lawful.follows {source : Source σ} (h : source.Lawful) :
    source.Follows .lawful := by
  intro bound s hb
  obtain ⟨x, hx, next, hans⟩ := h bound s hb
  exact ⟨x, hx, by rw [hans]⟩

/-- A strict source follows the conduct of that name. -/
lemma Source.Strict.follows {source : Source σ} (h : source.Strict) :
    source.Follows .strict := by
  intro bound s
  rcases Nat.eq_zero_or_pos bound with rfl | hb
  · obtain ⟨f, next, hans⟩ := h.refuses s
    rw [hans]
    rfl
  · obtain ⟨x, hx, next, hans⟩ := h.lawful bound s hb
    rw [hans]
    exact hx

/-- The source of least numbers is strict. -/
lemma Source.first_strict : Source.first.Strict where
  lawful := first_lawful
  refuses s := ⟨.nothingToChoose, s, rfl⟩

/-- The source of greatest numbers. -/
lemma Source.last_follows : Source.last.Follows .greatest := by
  intro bound s hb
  exact if_neg (Nat.ne_of_gt hb)

/-- A script answers below the bound or not at all. -/
lemma Source.scripted_follows : Source.scripted.Follows .bounded := by
  rintro bound (_ | ⟨x, script⟩)
  · trivial
  · show Conduct.bounded bound (if x < bound then .ok x else .error (.notBelow x bound))
    split
    · assumption
    · trivial

/-- Of every source nothing is known. -/
lemma Source.follows_anything (source : Source σ) : source.Follows .anything :=
  fun _ _ => trivial

/-- A happening keeps to a conduct if it is no question or its reaction is possible. -/
def Happening.Keeps (H : Conduct) : Happening ε → Prop
  | answered bound x => H bound (.ok x)
  | refused bound f => H bound (.error f)
  | noted _ => True

/-- Everything that happens on a source that follows a conduct keeps to the conduct. -/
theorem Source.Follows.keeps {source : Source σ} {H : Conduct} (h : source.Follows H)
    (d : Draw ε α) (s : σ) : ∀ e ∈ (d.run source s).record.toList, e.Keeps H := by
  induction d generalizing s with
  | done a => simp
  | fault f => simp
  | unfinished => simp
  | note e rest ih =>
      rw [Draw.run_note]
      simpa [Happening.Keeps] using ih s
  | ask bound next ih =>
      have hans := h bound s
      rcases ha : source.answer bound s with ⟨x | x, s'⟩
      · rw [ha] at hans
        rw [Draw.run_ask_error ha]
        intro e he
        obtain rfl : e = .refused bound x := by simpa using he
        exact hans
      · rw [ha] at hans
        rw [Draw.run_ask_ok ha]
        intro e he
        obtain rfl | he : e = .answered bound x ∨ e ∈ (Draw.run source (next x) s').record := by
          simpa using he
        · exact hans
        · exact ih x s' e (by simpa using he)

namespace Draw

/-! ## What a decision ensures -/

/-- Every course on which a conduct is kept ends as required. -/
def Ensures (H : Conduct) (Q : Outcome α → Prop) : Draw ε α → Prop
  | done a => Q (.done a)
  | fault f => Q (.fault f)
  | unfinished => Q .unfinished
  | note _ rest => rest.Ensures H Q
  | ask bound next =>
    (∀ f, H bound (.error f) → Q (.fault f)) ∧ ∀ x, H bound (.ok x) → (next x).Ensures H Q

variable {H : Conduct} {P Q : Outcome α → Prop} {R S : α → Prop} {d : Draw ε α}

/-- What is ensured under a conduct holds of the end of every course on which the conduct is kept.
-/
lemma Ensures.of_course (h : d.Ensures H Q) {r : List (Happening ε)} {o : Outcome α}
    (hc : Course d r o) (keeps : ∀ e ∈ r, e.Keeps H) : Q o := by
  induction hc with
  | done a => exact h
  | fault f => exact h
  | unfinished => exact h
  | note hc ih => exact ih h fun e he => keeps e (.tail _ he)
  | answered x hc ih => exact ih (h.2 x (keeps _ (.head _))) fun e he => keeps e (.tail _ he)
  | refused f => exact h.1 f (keeps _ (.head _))

/-- What is ensured under a conduct holds of the runs of all sources that follow it. -/
theorem Ensures.outcome_run (h : d.Ensures H Q) {source : Source σ} (hs : source.Follows H)
    (s : σ) : Q (d.run source s).outcome :=
  h.of_course (course_run source d s) (hs.keeps d s)

/-- Less may be required of the end. -/
lemma Ensures.mono (h : d.Ensures H P) (imp : ∀ o, P o → Q o) : d.Ensures H Q := by
  induction d with
  | done a => exact imp _ h
  | fault f => exact imp _ h
  | unfinished => exact imp _ h
  | note e rest ih => exact ih h
  | ask bound next ih => exact ⟨fun f hf => imp _ (h.1 f hf), fun x hx => ih x (h.2 x hx)⟩

/-- The end of a decision is that of a course. -/
lemma Ensures.with_course (h : d.Ensures H Q) :
    d.Ensures H fun o => Q o ∧ ∃ r, Course d r o := by
  induction d with
  | done a => exact ⟨h, [], .done a⟩
  | fault f => exact ⟨h, [], .fault f⟩
  | unfinished => exact ⟨h, [], .unfinished⟩
  | note e rest ih =>
      refine Ensures.mono (ih h) ?_
      rintro o ⟨ho, r, hr⟩
      exact ⟨ho, _, hr.note⟩
  | ask bound next ih =>
      refine ⟨fun f hf => ⟨h.1 f hf, _, .refused f⟩, fun x hx => ?_⟩
      refine Ensures.mono (ih x (h.2 x hx)) ?_
      rintro o ⟨ho, r, hr⟩
      exact ⟨ho, _, hr.answered x⟩

/-- Two decisions in sequence ensure what the second ensures for the results of the first, where
an end of the first without a result is already as required. -/
lemma Ensures.bind {Q : Outcome β → Prop} {k : α → Draw ε β} (h : d.Ensures H P)
    (hdone : ∀ a, P (.done a) → (k a).Ensures H Q) (hfault : ∀ f, P (.fault f) → Q (.fault f))
    (hunfinished : P .unfinished → Q .unfinished) : (d >>= k).Ensures H Q := by
  induction d with
  | done a => exact hdone a h
  | fault f => exact hfault f h
  | unfinished => exact hunfinished h
  | note e rest ih => exact ih h
  | ask bound next ih => exact ⟨fun f hf => hfault f (h.1 f hf), fun x hx => ih x (h.2 x hx)⟩

/-- With the greatest answers a question leads on in one way only. -/
lemma ensures_ask_of_greatest {bound : Nat} {next : Nat → Draw ε α} (hb : 0 < bound)
    (h : (next (bound - 1)).Ensures .greatest Q) : (ask bound next).Ensures .greatest Q := by
  refine ⟨fun f hf => absurd (hf hb) nofun, fun x hx => ?_⟩
  obtain rfl : x = bound - 1 := Except.ok.inj (hx hb)
  exact h

/-! ## Decisions that are taken -/

/-- Every course on which a conduct is kept comes to a result, and one that is as required. -/
def Takes (H : Conduct) (R : α → Prop) (d : Draw ε α) : Prop :=
  d.Ensures H fun o => ∃ a, o = .done a ∧ R a

/-- A decision that is taken has to have a result as required. -/
@[simp]
lemma takes_done {a : α} : (done a : Draw ε α).Takes H R ↔ R a := by
  simp [Takes, Ensures]

/-- A note makes no difference to what is taken. -/
@[simp]
lemma takes_note {e : ε} : (note e d).Takes H R ↔ d.Takes H R := Iff.rfl

/-- A question whose bound is settled is taken if its answers below the bound lead to that. -/
lemma takes_ask {bound : Nat} {next : Nat → Draw ε α} (hb : H.Settles bound)
    (h : ∀ x < bound, (next x).Takes H R) : (ask bound next).Takes H R := by
  refine ⟨fun f hf => ?_, fun x hx => ?_⟩
  · obtain ⟨x, -, hx⟩ := hb _ hf
    cases hx
  · obtain ⟨y, hy, hxy⟩ := hb _ hx
    cases hxy
    exact h x hy

/-- Less may be required of the result. -/
lemma Takes.mono (h : d.Takes H R) (imp : ∀ a, R a → S a) : d.Takes H S :=
  Ensures.mono h fun _ ⟨a, ho, ha⟩ => ⟨a, ho, imp a ha⟩

/-- Two decisions in sequence are taken if the first is, and the second is for its results. -/
lemma Takes.bind {S : β → Prop} {k : α → Draw ε β} (h : d.Takes H R)
    (hk : ∀ a, R a → (k a).Takes H S) : (d >>= k).Takes H S := by
  refine Ensures.bind h ?_ ?_ ?_
  · rintro a ⟨b, hb, hR⟩
    cases hb
    exact hk a hR
  · rintro f ⟨b, hb, -⟩
    cases hb
  · rintro ⟨b, hb, -⟩
    cases hb

/-- The result of a decision that is taken lies at the end of a course. -/
lemma Takes.with_course (h : d.Takes H R) :
    d.Takes H fun a => R a ∧ ∃ r, Course d r (.done a) := by
  refine Ensures.mono (Ensures.with_course h) ?_
  rintro _ ⟨⟨a, rfl, ha⟩, r, hr⟩
  exact ⟨a, rfl, ha, r, hr⟩

/-- Being taken, whatever the result is, is kept by sequencing. -/
def Takes.property (H : Conduct) (ε : Type) : Property ε where
  Holds d := d.Takes H fun _ => True
  done _ := takes_done.mpr trivial
  bind h hk := h.with_course.bind fun a ⟨_, r, hr⟩ => hk a r hr

/-- A decision that is taken under a conduct is taken by all sources that follow it. -/
theorem Takes.outcome_run (h : d.Takes H R) {source : Source σ} (hs : source.Follows H) (s : σ) :
    ∃ a, (d.run source s).outcome = .done a ∧ R a :=
  Ensures.outcome_run h hs s

/-- What is taken whenever questions are answered below their bounds is taken from a strict
source, unless that refuses a bound of zero, and then the run ends there. -/
theorem Takes.done_or_refused (h : d.Takes .answering R) {source : Source σ}
    (hs : source.Strict) (s : σ) :
    (∃ a, (d.run source s).outcome = .done a ∧ R a) ∨
      ∃ f, .refused 0 f ∈ (d.run source s).record.toList ∧
        (d.run source s).outcome = .fault f := by
  have hcourse := course_run source d s
  have hkeeps := hs.follows.keeps d s
  by_cases href : ∃ bound f, .refused bound f ∈ (d.run source s).record.toList
  · obtain ⟨bound, f, hf⟩ := href
    obtain rfl : bound = 0 := hkeeps _ hf
    exact .inr ⟨f, hf, hcourse.eq_fault_of_refused hf⟩
  · refine .inl (Ensures.of_course h hcourse fun e he => ?_)
    cases e with
    | answered bound x => exact ⟨x, hkeeps _ he, rfl⟩
    | refused bound f => exact absurd ⟨bound, f, he⟩ href
    | noted e => trivial

/-! ## Decisions that do not fail -/

/-- No course on which a conduct is kept ends with a fault. -/
def Faultless (H : Conduct) (d : Draw ε α) : Prop := d.Ensures H fun o => ∀ f, o ≠ .fault f

/-- A decision that has run out of its allowance has not failed. -/
lemma faultless_unfinished : (unfinished : Draw ε α).Faultless H := nofun

/-- A decision that is taken does not fail. -/
lemma Takes.faultless (h : d.Takes H R) : d.Faultless H := by
  refine Ensures.mono h ?_
  rintro o ⟨a, rfl, -⟩
  exact nofun

/-- Decisions in sequence do not fail if neither of them does. -/
lemma Faultless.bind {k : α → Draw ε β} (h : d.Faultless H)
    (hk : ∀ a r, Course d r (.done a) → (k a).Faultless H) : (d >>= k).Faultless H := by
  refine Ensures.bind (Ensures.with_course h) ?_ (fun f hf => absurd rfl (hf.1 f)) fun _ => nofun
  rintro a ⟨-, r, hr⟩
  exact hk a r hr

/-- Not to fail is kept by sequencing. -/
def Faultless.property (H : Conduct) (ε : Type) : Property ε where
  Holds d := d.Faultless H
  done _ := (takes_done.mpr trivial : Takes H (fun _ => True) _).faultless
  bind := Faultless.bind

/-! ## Decisions that end -/

/-- The allowance of nested calls never runs out, whatever the answers are. -/
def Finishes (d : Draw ε α) : Prop := d.Ensures .anything (· ≠ .unfinished)

/-- A decision that is taken has ended. -/
lemma finishes_done (a : α) : (done a : Draw ε α).Finishes := nofun

/-- A decision that fails has ended. -/
lemma finishes_fault (f : Fault) : (fault f : Draw ε α).Finishes := nofun

/-- A note makes no difference to whether a decision ends. -/
@[simp]
lemma finishes_note {e : ε} : (note e d).Finishes ↔ d.Finishes := Iff.rfl

/-- A question ends if what all its answers lead to does. -/
lemma finishes_ask {bound : Nat} {next : Nat → Draw ε α} (h : ∀ x, (next x).Finishes) :
    (ask bound next).Finishes :=
  ⟨fun _ _ => nofun, fun x _ => h x⟩

/-- Decisions in sequence end if each of them does. -/
lemma Finishes.bind {k : α → Draw ε β} (h : d.Finishes)
    (hk : ∀ a r, Course d r (.done a) → (k a).Finishes) : (d >>= k).Finishes := by
  refine Ensures.bind (Ensures.with_course h) ?_ (fun _ _ => nofun) fun h' => absurd rfl h'.1
  rintro a ⟨-, r, hr⟩
  exact hk a r hr

/-- To end is kept by sequencing. -/
def Finishes.property (ε : Type) : Property ε where
  Holds := Finishes
  done := finishes_done
  bind := Finishes.bind

/-- No run of a decision that ends exceeds its allowance. -/
theorem Finishes.outcome_ne (h : d.Finishes) (source : Source σ) (s : σ) :
    (d.run source s).outcome ≠ .unfinished :=
  h.outcome_run source.follows_anything s

end Draw

end RandomInstant
