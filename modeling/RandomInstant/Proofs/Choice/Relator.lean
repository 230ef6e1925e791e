import RandomInstant.Proofs.Choice.Course

/-!
# What sequencing keeps

Decisions are put together from questions and notes by sequencing and in no other way. So what holds
of the questions and notes holds of a decision that is made of them, if sequencing keeps it. Two
kinds of such statements are told apart: those on two decisions, relative to a relation of their
results, and those on one.

* `Draw.Relator`: a relation between decisions that sequencing keeps.
* `Draw.Property`: a property of decisions that sequencing keeps. What comes second need only have
  it for the results that a course of the first leads to.
* `Draw.Property.relator`: a property is a relation that looks at the first decision only. What is
  shown for every relation is thereby shown for every property.
-/

namespace RandomInstant.Draw

variable {ε ε' α α' : Type}

/-- A relation between decisions, relative to a relation of their results, that sequencing keeps. -/
structure Relator (ε ε' : Type) where
  /-- Two decisions are related, and so are their results. -/
  Holds : ∀ {α α' : Type}, (α → α' → Prop) → Draw ε α → Draw ε' α' → Prop
  /-- Decisions that are taken are related if their results are. -/
  done : ∀ {α α' : Type} {R : α → α' → Prop} {a : α} {a' : α'},
    R a a' → Holds R (.done a) (.done a')
  /-- Related decisions stay related if they are gone on with in a related way wherever their
  results are related. -/
  bind : ∀ {α α' β β' : Type} {R : α → α' → Prop} {S : β → β' → Prop} {d : Draw ε α}
    {d' : Draw ε' α'} {k : α → Draw ε β} {k' : α' → Draw ε' β'}, Holds R d d' →
      (∀ a a', R a a' → Holds S (k a) (k' a')) → Holds S (d >>= k) (d' >>= k')

/-- Less may be asked of the results. -/
lemma Relator.mono (rel : Relator ε ε') {R S : α → α' → Prop} {d : Draw ε α} {d' : Draw ε' α'}
    (h : rel.Holds R d d') (imp : ∀ a a', R a a' → S a a') : rel.Holds S d d' := by
  rw [← bind_done d, ← bind_done d']
  exact rel.bind h fun a a' ha => rel.done (imp a a' ha)

/-- A property of decisions that sequencing keeps. -/
structure Property (ε : Type) where
  /-- A decision has the property. -/
  Holds : ∀ {α : Type}, Draw ε α → Prop
  /-- Decisions that are taken have it. -/
  done : ∀ {α : Type} (a : α), Holds (.done a)
  /-- Two decisions in sequence have it if the first does, and the second does for the results that
  the first can come to. -/
  bind : ∀ {α β : Type} {d : Draw ε α} {k : α → Draw ε β}, Holds d →
    (∀ a r, Course d r (.done a) → Holds (k a)) → Holds (d >>= k)

/-- A property as a relation that looks at the first decision only: of the second one it is only
required that it could have related results. -/
def Property.relator (p : Property ε) : Relator ε ε where
  Holds R d _ := p.Holds d ∧ ∀ a r, Course d r (.done a) → ∃ a', R a a'
  done {_ _ _ a a'} h := by
    refine ⟨p.done a, fun b r hb => ?_⟩
    obtain ⟨-, rfl⟩ := course_done_iff.mp hb
    exact ⟨a', h⟩
  bind h hk := by
    refine ⟨p.bind h.1 fun a r ha => ?_, fun b r hb => ?_⟩
    · obtain ⟨a', haa'⟩ := h.2 a r ha
      exact (hk a a' haa').1
    · obtain ⟨a, r₁, r₂, -, ha, hb⟩ := course_bind_done_iff.mp hb
      obtain ⟨a', haa'⟩ := h.2 a r₁ ha
      exact (hk a a' haa').2 b r₂ hb

end RandomInstant.Draw
