import RandomInstant.Proofs.Choice.Relator

/-!
# Notes

Notes decide nothing. A run can therefore be read with some of its notes changed or left out, and
what the notes of a decision say is said of all its courses.

* `Run.filterNotes`: a run with its notes changed or dropped.
* `Draw.NotesAll`: what all notes of a decision satisfy, those of its courses satisfy
  (`NotesAll.of_course`). It is a `Draw.Property`.
* `Draw.Silent`: a decision without notes; nothing is noted on its courses
  (`Silent.notes_eq_nil`).
-/

namespace RandomInstant

variable {ε ε' σ α β : Type}

/-- A happening with its note changed. One whose note is dropped is dropped with it. -/
def Happening.filterNote (f : ε → Option ε') : Happening ε → Option (Happening ε')
  | answered bound x => some (answered bound x)
  | refused bound g => some (refused bound g)
  | noted e => (f e).map noted

/-- What came of a run, with its notes changed or dropped. -/
def Run.filterNotes (f : ε → Option ε') (r : Run ε σ α) : Run ε' σ α where
  outcome := r.outcome
  state := r.state
  record := r.record.filterMap (Happening.filterNote f)

/-- Nothing changes where all notes are kept. -/
lemma Run.filterNotes_some (r : Run ε σ α) : r.filterNotes some = r := by
  have hsome : (Happening.filterNote some : Happening ε → _) = some := by
    funext e
    cases e <;> rfl
  simp [filterNotes, hsome]

/-- The notes of a run that are kept are those that were noted, changed. -/
lemma Run.notes_filterNotes (f : ε → Option ε') (r : Run ε σ α) :
    (r.filterNotes f).notes = r.notes.filterMap f := by
  have hnote (h : Happening ε) :
      (h.filterNote f).bind Happening.note? = h.note?.bind f := by
    cases h with
    | answered bound x => rfl
    | refused bound g => rfl
    | noted e => cases hf : f e <;> simp [Happening.filterNote, Happening.note?, hf]
  simp only [notes, filterNotes, Array.toList_filterMap, List.filterMap_filterMap, hnote]

namespace Draw

/-- All notes of a decision are as required, whatever the answers are. -/
def NotesAll (P : ε → Prop) : Draw ε α → Prop
  | done _ => True
  | fault _ => True
  | unfinished => True
  | note e rest => P e ∧ rest.NotesAll P
  | ask _ next => ∀ x, (next x).NotesAll P

variable {P Q : ε → Prop} {d : Draw ε α}

/-- Less may be required of notes. -/
lemma NotesAll.mono (h : d.NotesAll P) (imp : ∀ e, P e → Q e) : d.NotesAll Q := by
  induction d with
  | done a => trivial
  | fault g => trivial
  | unfinished => trivial
  | note e rest ih => exact ⟨imp e h.1, ih h.2⟩
  | ask bound next ih => exact fun x => ih x (h x)

/-- The notes of two decisions in sequence are those of the first and those of the second. -/
lemma NotesAll.bind {k : α → Draw ε β} (h : d.NotesAll P)
    (hk : ∀ a r, Course d r (.done a) → (k a).NotesAll P) : (d >>= k).NotesAll P := by
  induction d with
  | done a => exact hk a [] (.done a)
  | fault g => trivial
  | unfinished => trivial
  | note e rest ih => exact ⟨h.1, ih h.2 fun a r hr => hk a _ hr.note⟩
  | ask bound next ih => exact fun x => ih x (h x) fun a r hr => hk a _ (hr.answered x)

/-- What is required of all notes is kept by sequencing. -/
def NotesAll.property (P : ε → Prop) : Property ε where
  Holds := NotesAll P
  done _ := trivial
  bind := NotesAll.bind

/-- A note is as required if it is left at all. -/
lemma notesAll_tell {o : Option ε} (h : ∀ e ∈ o, P e) : (tell o).NotesAll P := by
  cases o with
  | none => trivial
  | some e => exact ⟨h e rfl, trivial⟩

/-- A choice with odds leaves no note. -/
lemma notesAll_oneIn (n : UInt64) : (oneIn n : Draw ε Bool).NotesAll P := fun _ => trivial

/-- A pick leaves no note. -/
lemma notesAll_pick (xs : Array α) : (pick xs : Draw ε α).NotesAll P := by
  intro i
  show NotesAll P (if h : i < xs.size then done xs[i] else fault (.outOfBounds i xs.size))
  split <;> trivial

/-- Drawing from a range leaves no note. -/
lemma notesAll_inRange (lo hi : UInt64) : (inRange lo hi : Draw ε UInt64).NotesAll P := by
  unfold inRange
  split
  · trivial
  · split
    · trivial
    · exact fun _ => trivial

/-- What all notes of a decision satisfy, those of its courses satisfy. -/
theorem NotesAll.of_course (h : d.NotesAll P) {r : List (Happening ε)} {o : Outcome α}
    (hr : Course d r o) {e : ε} (he : .noted e ∈ r) : P e := by
  induction hr with
  | done a => cases he
  | fault f => cases he
  | unfinished => cases he
  | note hr ih =>
      obtain he | he := List.mem_cons.mp he
      · cases he
        exact h.1
      · exact ih h.2 he
  | answered x hr ih => exact ih (h x) (by simpa using he)
  | refused f => simp at he

/-- A decision is silent if it leaves no notes. -/
def Silent (d : Draw ε α) : Prop := d.NotesAll fun _ => False

/-- Nothing is noted on the courses of a silent decision. -/
lemma Silent.notes_eq_nil (h : d.Silent) {r : List (Happening ε)} {o : Outcome α}
    (hr : Course d r o) : r.filterMap Happening.note? = [] := by
  rw [List.filterMap_eq_nil_iff]
  intro e he
  cases e with
  | noted e => exact (NotesAll.of_course h hr he).elim
  | answered bound x => rfl
  | refused bound f => rfl

end Draw

end RandomInstant
