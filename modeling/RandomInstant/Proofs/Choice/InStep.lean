import RandomInstant.Proofs.Choice.Notes
import RandomInstant.Proofs.Choice.Relator

/-!
# Decisions in step

Two decisions are **in step** if they ask the same questions and fail in the same places, whatever
the answers are. They may differ in what they note and in what they come to: of the notes of the
first some are changed and the others dropped, which gives those of the second; and the results are
related.

The second decision may be left free in some places, where it need not go on as the first does:
behind some notes of the first, and where the first runs out of its allowance of nested calls
(`Leave`). So a decision is in step with the same decision with a larger allowance, and two
decisions that differ only once something out of the ordinary is noted are in step as well.

What is shown of two trees here holds of two runs on one source: they ask the same questions and
get the same answers, so they cannot drift apart.

* `Draw.InStep`, which is a `Draw.Relator`; each way to draw is in step with itself.
* **`Draw.InStep.run`**: decisions in step have runs in step, `Run.InStep`, where the first run does
  not come to a place that leaves the second free. So the runs have the same questions
  (`Run.InStep.questions_eq`), and they are the same if the results are
  (`Run.InStep.eq_filterNotes`).
-/

namespace RandomInstant

variable {ε ε' σ α α' β β' : Type}

/-- The question that was asked, with its answer or the reason for which it was refused. -/
def Happening.question? : Happening ε → Option (Nat × Except Fault Nat)
  | answered bound x => some (bound, .ok x)
  | refused bound g => some (bound, .error g)
  | noted _ => none

/-- All questions of a run, each with its answer or the reason for which it was refused. -/
def Run.questions (r : Run ε σ α) : List (Nat × Except Fault Nat) :=
  r.record.toList.filterMap Happening.question?

/-- Two ends are alike: with results that are related, or without one and for the same reason. -/
inductive Outcome.Related (R : α → α' → Prop) : Outcome α → Outcome α' → Prop where
  /-- Both decisions are taken. -/
  | done {a : α} {a' : α'} (h : R a a') : Related R (.done a) (.done a')
  /-- Both decisions fail. -/
  | fault (g : Fault) : Related R (.fault g) (.fault g)
  /-- Both allowances run out. -/
  | unfinished : Related R .unfinished .unfinished

/-- Ends with the same result are the same. -/
lemma Outcome.Related.eq {o o' : Outcome α} (h : Related Eq o o') : o' = o := by
  cases h with
  | done h => rw [h]
  | fault g => rfl
  | unfinished => rfl

/-- Two runs are in step. -/
structure Run.InStep (f : ε → Option ε') (R : α → α' → Prop) (r : Run ε σ α) (r' : Run ε' σ α') :
    Prop where
  /-- They end alike. -/
  outcome : Outcome.Related R r.outcome r'.outcome
  /-- They leave the source in the same state. -/
  state : r'.state = r.state
  /-- The same happens in both, in the same order, except that notes are changed or dropped. -/
  record : r'.record = r.record.filterMap (Happening.filterNote f)

namespace Run.InStep

variable {f : ε → Option ε'} {R : α → α' → Prop} {r : Run ε σ α} {r' : Run ε' σ α'}

/-- Runs in step ask the same questions, and get the same answers. -/
lemma questions_eq (h : r.InStep f R r') : r'.questions = r.questions := by
  have hquestion (e : Happening ε) :
      (e.filterNote f).bind Happening.question? = e.question? := by
    cases e with
    | answered bound x => rfl
    | refused bound g => rfl
    | noted e => cases hf : f e <;> simp [Happening.filterNote, Happening.question?, hf]
  simp only [questions, h.record, Array.toList_filterMap, List.filterMap_filterMap, hquestion]

/-- Runs in step note the same but for the notes that are changed or dropped. -/
lemma notes_eq (h : r.InStep f R r') : r'.notes = r.notes.filterMap f := by
  rw [← Run.notes_filterNotes, Run.notes, Run.notes, h.record]
  rfl

/-- Runs in step that come to the same differ in their notes only. -/
lemma eq_filterNotes {r' : Run ε' σ α} (h : r.InStep f Eq r') : r' = r.filterNotes f := by
  rw [Run.filterNotes, ← h.outcome.eq, ← h.state, ← h.record]

end Run.InStep

namespace Draw

/-- Where the second of two decisions is left free. -/
structure Leave (ε : Type) where
  /-- Behind these notes of the first. -/
  behind : ε → Prop := fun _ => False
  /-- Where the first is unfinished. -/
  unfinished : Prop := False

/-- Two decisions are in step. -/
inductive InStep (f : ε → Option ε') (l : Leave ε) (R : α → α' → Prop) :
    Draw ε α → Draw ε' α' → Prop where
  /-- Both are taken, with results that are related. -/
  | done {a : α} {a' : α'} (h : R a a') : InStep f l R (.done a) (.done a')
  /-- Both fail for the same reason. -/
  | fault (g : Fault) : InStep f l R (.fault g) (.fault g)
  /-- Both run out of their allowance. -/
  | unfinished : InStep f l R .unfinished .unfinished
  /-- The first runs out of its allowance, which leaves the second free. -/
  | free (h : l.unfinished) (d' : Draw ε' α') : InStep f l R .unfinished d'
  /-- Both leave a note, the second one that of the first as it is changed. They stay in step unless
  the note leaves the second free. -/
  | note {e : ε} {e' : ε'} {rest : Draw ε α} {rest' : Draw ε' α'} (hf : f e = some e')
      (h : ¬ l.behind e → InStep f l R rest rest') : InStep f l R (.note e rest) (.note e' rest')
  /-- The first leaves a note that the second drops. -/
  | drop {e : ε} {rest : Draw ε α} {d' : Draw ε' α'} (hf : f e = none)
      (h : ¬ l.behind e → InStep f l R rest d') : InStep f l R (.note e rest) d'
  /-- Both ask for a number below the same bound, and stay in step after every answer. -/
  | ask (bound : Nat) {next : Nat → Draw ε α} {next' : Nat → Draw ε' α'}
      (h : ∀ x, InStep f l R (next x) (next' x)) : InStep f l R (.ask bound next) (.ask bound next')

variable {f : ε → Option ε'} {l : Leave ε} {R : α → α' → Prop} {S : β → β' → Prop} {d : Draw ε α}
  {d' : Draw ε' α'}

/-- Decisions in step stay in step if related results are gone on with in step. -/
lemma InStep.bind {k : α → Draw ε β} {k' : α' → Draw ε' β'} (h : d.InStep f l R d')
    (hk : ∀ a a', R a a' → (k a).InStep f l S (k' a')) : (d >>= k).InStep f l S (d' >>= k') := by
  induction h with
  | done h => exact hk _ _ h
  | fault g => exact .fault g
  | unfinished => exact .unfinished
  | free h d' => exact .free h _
  | note hf h ih => exact .note hf ih
  | drop hf h ih => exact .drop hf ih
  | ask bound h ih => exact .ask bound ih

/-- Decisions in step that keep all notes and come to the same are the same. -/
lemma InStep.eq {d d' : Draw ε α} (h : d.InStep some {} Eq d') : d' = d := by
  induction h with
  | done h => rw [h]
  | fault g => rfl
  | unfinished => rfl
  | free h d' => exact h.elim
  | note hf h ih => rw [Option.some.inj hf, ih id]
  | drop hf h ih => cases hf
  | ask bound h ih => exact congrArg (Draw.ask bound) (funext ih)

/-- Being in step is kept by sequencing. -/
def InStep.relator (f : ε → Option ε') (l : Leave ε) : Relator ε ε' where
  Holds := InStep f l
  done := .done
  bind := InStep.bind

/-! ## The ways to draw -/

/-- Two tellings of the same are in step, and where the first one leaves the second free nothing is
asked of what comes after. -/
lemma inStep_tell (o : Option ε) :
    (tell o).InStep f l (fun _ _ => ∀ e ∈ o, ¬ l.behind e) (tell (o.bind f)) := by
  cases o with
  | none => exact .done nofun
  | some e =>
      have hrest (h : ¬ l.behind e) : (Draw.done () : Draw ε Unit).InStep f l
          (fun _ _ => ∀ e' ∈ some e, ¬ l.behind e') (Draw.done () : Draw ε' Unit) := by
        refine .done fun e' he' => ?_
        cases he'
        exact h
      cases hf : f e with
      | none =>
          rw [Option.bind_some, hf]
          exact .drop hf hrest
      | some e' =>
          rw [Option.bind_some, hf]
          exact .note hf hrest

/-- So they are where nothing is asked of what comes after anyway. -/
lemma inStep_tell_any (o : Option ε) : (tell o).InStep f l (fun _ _ => True) (tell (o.bind f)) :=
  (InStep.relator f l).mono (inStep_tell o) fun _ _ _ => trivial

/-- A choice with odds is in step with itself. -/
lemma inStep_oneIn (n : UInt64) :
    (oneIn n : Draw ε Bool).InStep f l Eq (oneIn n : Draw ε' Bool) :=
  .ask _ fun _ => .done rfl

/-- Drawing from a range is in step with itself. -/
lemma inStep_inRange (lo hi : UInt64) :
    (inRange lo hi : Draw ε UInt64).InStep f l Eq (inRange lo hi : Draw ε' UInt64) := by
  unfold inRange
  split
  · exact .fault _
  · split
    · exact .fault _
    · exact .ask _ fun _ => .done rfl

/-- A pick is in step with a pick from the elements as they are changed. -/
lemma inStep_pick (g : α → α') (xs : Array α) :
    (pick xs : Draw ε α).InStep f l (fun a a' => a' = g a) (pick (xs.map g) : Draw ε' α') := by
  have hmap : (pick (xs.map g) : Draw ε' α') = .ask xs.size fun i =>
      if h : i < xs.size then .done (g xs[i]) else .fault (.outOfBounds i xs.size) := by
    simp [pick_def]
  rw [pick_def, hmap]
  refine .ask _ fun i => ?_
  split
  · exact .done rfl
  · exact .fault _

/-! ## Runs -/

/-- **Decisions in step have runs in step**, on every source and from every state, where the first
run does not leave the second one free. -/
theorem InStep.run (h : d.InStep f l R d') (source : Source σ) (s : σ)
    (hnotes : ∀ e, .noted e ∈ (d.run source s).record.toList → ¬ l.behind e)
    (hends : l.unfinished → (d.run source s).outcome ≠ .unfinished) :
    (d.run source s).InStep f R (d'.run source s) := by
  induction h generalizing s with
  | done h => exact ⟨.done h, rfl, rfl⟩
  | fault g => exact ⟨.fault g, rfl, rfl⟩
  | unfinished => exact ⟨.unfinished, rfl, rfl⟩
  | free h d' => exact absurd rfl (hends h)
  | note hf h ih =>
      rw [run_note] at hnotes hends
      obtain ⟨houtcome, hstate, hrecord⟩ :=
        ih (hnotes _ (by simp)) s (fun e he => hnotes e (by simp [he])) hends
      rw [run_note, run_note]
      exact ⟨houtcome, hstate, by simp [hrecord, Happening.filterNote, hf]⟩
  | drop hf h ih =>
      rw [run_note] at hnotes hends
      obtain ⟨houtcome, hstate, hrecord⟩ :=
        ih (hnotes _ (by simp)) s (fun e he => hnotes e (by simp [he])) hends
      rw [run_note]
      exact ⟨houtcome, hstate, by simp [hrecord, Happening.filterNote, hf]⟩
  | ask bound h ih =>
      rcases ha : source.answer bound s with ⟨x | x, s'⟩
      · rw [run_ask_error ha, run_ask_error ha]
        exact ⟨.fault x, rfl, by simp [Happening.filterNote]⟩
      · rw [run_ask_ok ha] at hnotes hends
        obtain ⟨houtcome, hstate, hrecord⟩ :=
          ih x s' (fun e he => hnotes e (by simp [he])) hends
        rw [run_ask_ok ha, run_ask_ok ha]
        exact ⟨houtcome, hstate, by simp [hrecord, Happening.filterNote]⟩

/-- Nothing is left free: decisions in step have runs in step. -/
theorem InStep.run_of_kept (h : d.InStep f {} R d') (source : Source σ) (s : σ) :
    (d.run source s).InStep f R (d'.run source s) :=
  h.run source s (fun _ _ => id) False.elim

end Draw

end RandomInstant
