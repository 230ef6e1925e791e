import RandomInstant.Choice.Draw

/-!
# Sources and runs: a decision tree meets its answers

A source answers the questions of a tree, one after the other, and may refuse one. The run of a
tree on a source is what came of it: the outcome, the state in which the source is left, and a
record of everything that happened in order, questions and notes alike. A source that refused a
question keeps the state it was left in, so that later runs on it go on from there.

* `Source`, and `Source.Lawful` for a source that always answers below its bound;
* `Draw.run`, with one equation for each kind of node (`runOnto_ask_ok` and so on);
  `runOnto_eq`, which says that a record is only ever added to; and `runOnto_bind`, which runs a
  sequence of two decisions one after the other;
* the sources that need no randomness: `scripted`, `cyclic`, `first` and `last`.
-/

namespace RandomInstant

/-- A source of numbers with states in `σ`. Asked for a number below a bound, it answers or
refuses, and moves to its next state in either case. -/
structure Source (σ : Type) where
  /-- The answer to one question. -/
  answer : Nat → σ → Except Fault Nat × σ

/-- A source is lawful if it never refuses a positive bound and always stays below it. -/
def Source.Lawful {σ : Type} (source : Source σ) : Prop :=
  ∀ (bound : Nat) (state : σ), 0 < bound →
    ∃ x < bound, ∃ next, source.answer bound state = (.ok x, next)

/-- How a run ends. -/
inductive Outcome (α : Type) where
  /-- The decision was taken. -/
  | done (a : α)
  /-- The decision failed, or a question was refused. -/
  | fault (f : Fault)
  /-- The allowance of nested calls ran out. -/
  | unfinished
  deriving DecidableEq, Repr

/-- One thing that happens in a run. -/
inductive Happening (ε : Type) where
  /-- A question was answered. -/
  | answered (bound answer : Nat)
  /-- A question was refused. -/
  | refused (bound : Nat) (f : Fault)
  /-- A note was left. -/
  | noted (e : ε)
  deriving DecidableEq, Repr

/-- The bound that was asked for, if the happening is a question. -/
def Happening.bound? {ε : Type} : Happening ε → Option Nat
  | answered bound _ => some bound
  | refused bound _ => some bound
  | noted _ => none

/-- The answer that was given, if there was one. -/
def Happening.answer? {ε : Type} : Happening ε → Option Nat
  | answered _ x => some x
  | refused _ _ => none
  | noted _ => none

/-- The note that was left, if the happening is one. -/
def Happening.note? {ε : Type} : Happening ε → Option ε
  | answered _ _ => none
  | refused _ _ => none
  | noted e => some e

/-- What came of a run. -/
structure Run (ε σ α : Type) where
  /-- How the run ended. -/
  outcome : Outcome α
  /-- The state the source was left in. -/
  state : σ
  /-- What happened, in order. -/
  record : Array (Happening ε)

namespace Run

variable {ε σ α : Type}

/-- The bounds of all questions, refused ones included. -/
def bounds (r : Run ε σ α) : List Nat := r.record.toList.filterMap Happening.bound?

/-- The answers of all questions that were answered. -/
def answers (r : Run ε σ α) : List Nat := r.record.toList.filterMap Happening.answer?

/-- The notes of a run. -/
def notes (r : Run ε σ α) : List ε := r.record.toList.filterMap Happening.note?

end Run

/-! ## Running a tree -/

namespace Draw

variable {ε σ α : Type}

/-- Runs a tree, adding what happens to a record kept so far. -/
def runOnto (source : Source σ) :
    Draw ε α → σ → Array (Happening ε) → Run ε σ α
  | done a, s, r => ⟨.done a, s, r⟩
  | fault f, s, r => ⟨.fault f, s, r⟩
  | unfinished, s, r => ⟨.unfinished, s, r⟩
  | note e rest, s, r => runOnto source rest s (r.push (.noted e))
  | ask bound next, s, r =>
    match source.answer bound s with
    | (.ok x, s') => runOnto source (next x) s' (r.push (.answered bound x))
    | (.error f, s') => ⟨.fault f, s', r.push (.refused bound f)⟩

/-- Runs a tree from a state of the source. -/
def run (source : Source σ) (d : Draw ε α) (s : σ) : Run ε σ α :=
  runOnto source d s #[]

/-- A decision that is taken adds nothing to a record. -/
@[simp]
theorem runOnto_done (source : Source σ) (a : α) (s : σ) (r : Array (Happening ε)) :
    runOnto source (done a) s r = ⟨.done a, s, r⟩ := rfl

/-- A decision that fails adds nothing to a record. -/
@[simp]
theorem runOnto_fault (source : Source σ) (f : Fault) (s : σ) (r : Array (Happening ε)) :
    runOnto source (fault f : Draw ε α) s r = ⟨.fault f, s, r⟩ := rfl

/-- A decision that has run out of its allowance adds nothing to a record. -/
@[simp]
theorem runOnto_unfinished (source : Source σ) (s : σ) (r : Array (Happening ε)) :
    runOnto source (unfinished : Draw ε α) s r = ⟨.unfinished, s, r⟩ := rfl

/-- A note is recorded before the run goes on. -/
@[simp]
theorem runOnto_note (source : Source σ) (e : ε) (rest : Draw ε α) (s : σ)
    (r : Array (Happening ε)) :
    runOnto source (note e rest) s r = runOnto source rest s (r.push (.noted e)) := rfl

/-- An answer is recorded, and the run goes on as it says. -/
theorem runOnto_ask_ok {source : Source σ} {bound x : Nat} {s s' : σ}
    (h : source.answer bound s = (.ok x, s')) (next : Nat → Draw ε α)
    (r : Array (Happening ε)) :
    runOnto source (ask bound next) s r =
      runOnto source (next x) s' (r.push (.answered bound x)) := by
  rw [runOnto, h]

/-- A refusal is recorded, and the run ends with its reason. -/
theorem runOnto_ask_error {source : Source σ} {bound : Nat} {f : Fault} {s s' : σ}
    (h : source.answer bound s = (.error f, s')) (next : Nat → Draw ε α)
    (r : Array (Happening ε)) :
    runOnto source (ask bound next) s r = ⟨.fault f, s', r.push (.refused bound f)⟩ := by
  rw [runOnto, h]

/-- The record kept so far has no influence on a run: the run adds to it what it would have
recorded from the start. -/
theorem runOnto_eq (source : Source σ) (d : Draw ε α) (s : σ) (r : Array (Happening ε)) :
    runOnto source d s r =
      { run source d s with record := r ++ (run source d s).record } := by
  suffices h : ∀ (r r' : Array (Happening ε)), runOnto source d s (r ++ r') =
      { runOnto source d s r' with record := r ++ (runOnto source d s r').record } by
    simpa [run] using h r #[]
  induction d generalizing s with
  | done a => intro r r'; rfl
  | fault f => intro r r'; rfl
  | unfinished => intro r r'; rfl
  | note e rest ih =>
    intro r r'
    rw [runOnto_note, runOnto_note, ← Array.append_push, ih]
  | ask bound next ih =>
    intro r r'
    rcases h : source.answer bound s with ⟨x | x, s'⟩
    · rw [runOnto_ask_error h, runOnto_ask_error h, ← Array.append_push]
    · rw [runOnto_ask_ok h, runOnto_ask_ok h, ← Array.append_push, ih]

/-- A decision that is gone on with runs as its first part and then, if that part was taken, as
its second part from the state reached and onto the record reached. -/
theorem runOnto_bind {β : Type} (source : Source σ) (d : Draw ε α) (k : α → Draw ε β) (s : σ)
    (r : Array (Happening ε)) :
    runOnto source (d >>= k) s r =
      match runOnto source d s r with
      | ⟨.done a, s', r'⟩ => runOnto source (k a) s' r'
      | ⟨.fault f, s', r'⟩ => ⟨.fault f, s', r'⟩
      | ⟨.unfinished, s', r'⟩ => ⟨.unfinished, s', r'⟩ := by
  induction d generalizing s r with
  | done a => rfl
  | fault f => rfl
  | unfinished => rfl
  | note e rest ih => rw [note_bind, runOnto_note, runOnto_note, ih]
  | ask bound next ih =>
    rw [ask_bind]
    rcases h : source.answer bound s with ⟨x | x, s'⟩
    · rw [runOnto_ask_error h, runOnto_ask_error h]
    · rw [runOnto_ask_ok h, runOnto_ask_ok h, ih]

end Draw

/-! ## Sources without randomness -/

namespace Source

/-- Answers from a list, front first. An answer that is not below its bound is refused, and is
used up all the same; that is how every answer to the bound zero ends. -/
def scripted : Source (List Nat) where
  answer
    | _, [] => (.error .scriptExhausted, [])
    | bound, x :: rest => (if x < bound then .ok x else .error (.notBelow x bound), rest)

/-- Answers from a list that is repeated without end, each number reduced modulo the bound. The
state is the list turned so that the next number stands in front. The bound zero is refused and
turns nothing. -/
def cyclic : Source (List Nat) where
  answer
    | _, [] => (.error .nothingToChoose, [])
    | bound, x :: rest =>
      if bound = 0 then (.error .nothingToChoose, x :: rest)
      else (.ok (x % bound), rest ++ [x])

/-- Always answers with the least number. -/
def first : Source Unit where
  answer bound s := (if bound = 0 then .error .nothingToChoose else .ok 0, s)

/-- Always answers with the greatest number. -/
def last : Source Unit where
  answer bound s := (if bound = 0 then .error .nothingToChoose else .ok (bound - 1), s)

/-- Nought is below every positive bound. -/
theorem first_lawful : first.Lawful := fun bound s h =>
  ⟨0, h, s, by simp [first, Nat.ne_of_gt h]⟩

/-- The greatest number below a positive bound is below it. -/
theorem last_lawful : last.Lawful := fun bound s h =>
  ⟨bound - 1, by omega, s, by simp [last, Nat.ne_of_gt h]⟩

end Source

end RandomInstant
