import RandomInstant.Proofs.Program.Scoping
import RandomInstant.Proofs.Program.Totality

/-!
# Soundness of whole programs

A drawn program is a sequence of phrases with separators between them. This file reads it as
tokens only: what a phrase looks like, which names the phrases assign to, and what the grammar
derives in the place of their expressions.

* `Phrase`: an expression, or an assignment that ends with the name it has assigned to.
* `WellScoped`: the names that are assigned to are numbered from zero, and each expression is a
  phrase of the grammar over the names that were assigned to before, never over its own.
* **`program_sound`**: on a lawful source, with positive odds and a range to draw from, there
  always is a program. It has as many phrases as its count says, they are well scoped, and each
  literal is a number that was answered, at its full value and up to the greatest one.
-/

namespace RandomInstant

open Grammar (Derives)

/-- What stands between two separators of a program. -/
structure Phrase where
  /-- The name that is assigned to, if there is one. -/
  target : Option String
  /-- The expression. -/
  expr : Tokens

/-- The tokens of a phrase. -/
def Phrase.tokens : Phrase → Tokens
  | ⟨none, ts⟩ => ts
  | ⟨some x, ts⟩ => [.ident x, .assign] ++ ts ++ [.semi, .ident x]

/-- Phrases over given numbers are well scoped if their names are declared in order and before
they are used. -/
structure WellScoped (stem : String) (I : UInt32 → Prop) (phrases : List Phrase) : Prop where
  /-- The assignments take the names of the stem in the order of their numbers. -/
  numbered : ∃ k, phrases.filterMap Phrase.target = (List.range k).map (nthName stem)
  /-- No name is assigned to twice. -/
  distinct : (phrases.filterMap Phrase.target).Nodup
  /-- Expressions refer to names that phrases before their own assign to. -/
  earlier : ∀ i (hi : i < phrases.length),
    Derives (· ∈ (phrases.take i).filterMap Phrase.target) I .expr phrases[i].expr

namespace Statement

/-- A statement as a phrase. -/
def phrase (s : Statement) : Phrase := ⟨s.assigned?, s.expr.tokens⟩

/-- A statement has the tokens of its phrase. -/
@[simp]
lemma tokens_phrase (s : Statement) : s.phrase.tokens = s.tokens := by
  cases s <;> rfl

/-- The targets of the phrases are the names that are assigned to. -/
lemma filterMap_target_phrase (ss : List Statement) :
    (ss.map phrase).filterMap Phrase.target = ss.filterMap assigned? := by
  rw [List.filterMap_map]
  rfl

/-- A series of statements that starts from nothing is well scoped. -/
theorem Series.wellScoped {c : Config} {I : UInt32 → Prop} {place : Nat}
    {r : List (Happening Remark)} {ss : List Statement} {scope' : Scope}
    (h : Series c place {} r ss scope')
    (hI : ∀ x, .answered (c.maxLiteral.toNat + 1) x ∈ r → I x.toUInt64.toUInt32) :
    WellScoped c.stem I (ss.map phrase) := by
  have htargets := (Series.scope_eq_numbered (k := 0) h).2
  rw [← filterMap_target_phrase, ← List.range_eq_range'] at htargets
  refine ⟨⟨_, htargets⟩, ?_, fun i hi => ?_⟩
  · rw [htargets]
    exact nodup_map_nthName c.stem List.nodup_range
  · rw [List.length_map] at hi
    rw [← List.map_take, filterMap_target_phrase, List.getElem_map]
    exact Expr.derives_tokens (h.over hI hi)

end Statement

/-- **Soundness of programs.** From every state of a lawful source a program is drawn. It consists
of as many phrases as belong to the number that is drawn from the range, the phrases are well
scoped, and their literals are numbers that the source has answered: up to the greatest literal,
and never cut off on the way into 32 bits. -/
theorem program_sound {c : Config} (hc : c.maxDepth < 0xFFFFFFFFFFFFFFFF)
    (range : c.fewest ≤ c.most) (span : c.most - c.fewest ≠ 0xFFFFFFFFFFFFFFFF)
    (odds : ∀ choice, 0 < c.odds choice) {σ : Type} {source : Source σ} (lawful : source.Lawful)
    (s : σ) :
    ∃ p drawn phrases,
      ((Program.random c).run source s).outcome = .done p ∧
      ((Draw.inRange c.fewest c.most : Draw Remark UInt64).run source s).outcome = .done drawn ∧
      (c.fewest ≤ drawn ∧ drawn ≤ c.most) ∧
      p.tokens = [.semi, .newline].intercalate (phrases.map Phrase.tokens) ∧
      phrases.length = (c.statementCount drawn).toNat ∧
      WellScoped c.stem (fun i => i ≤ c.maxLiteral ∧ .answered (c.maxLiteral.toNat + 1) i.toNat ∈
        ((Program.random c).run source s).record.toList) phrases := by
  have hfollows := lawful.follows
  have htakes := Program.takes (c.settledBy_lawful odds) hc range span
  obtain ⟨p, hp, -⟩ := htakes.outcome_run hfollows s
  obtain ⟨drawn, hdrawn, hbounds⟩ := (Draw.takes_inRange range span
    (Conduct.lawful_settles (Nat.succ_pos _))).outcome_run hfollows s
  have hlength := Program.length_of_counted hc hdrawn hp
  have hkeeps := hfollows.keeps (Program.random c) s
  have hprogram := (Program.course_random_iff hc).mp (Draw.course_of_outcome_eq hp)
  obtain ⟨r, scope', series, hsub⟩ := hprogram.exists_series
  refine ⟨p, drawn, p.statements.map Statement.phrase, hp, hdrawn, hbounds, ?_, ?_, ?_⟩
  · rw [Program.tokens, List.map_map]
    exact congrArg Tokens.joined (List.map_congr_left fun s _ => s.tokens_phrase.symm)
  · rw [List.length_map, hlength]
  · apply series.wellScoped
    intro x hx
    have hlt : x < c.maxLiteral.toNat + 1 := by
      obtain ⟨y, hy, heq⟩ := hkeeps _ (hsub hx) (Nat.succ_pos _)
      cases heq
      exact hy
    exact ⟨Config.literal_le hlt, by rw [Config.toNat_literal hlt]; exact hsub hx⟩

/-- The default configuration on the source that answers with the least numbers. -/
theorem program_sound_first :
    ∃ p drawn phrases,
      ((Program.random {}).run Source.first ()).outcome = .done p ∧
      ((Draw.inRange 5 10 : Draw Remark UInt64).run Source.first ()).outcome = .done drawn ∧
      (5 ≤ drawn ∧ drawn ≤ 10) ∧
      p.tokens = [.semi, .newline].intercalate (phrases.map Phrase.tokens) ∧
      phrases.length = 20 ∧
      WellScoped "asdASD123" (fun i => i ≤ 20 ∧ .answered 21 i.toNat ∈
        ((Program.random {}).run Source.first ()).record.toList) phrases :=
  program_sound (c := {}) (by decide) (by decide) (by decide) (by rintro (_ | _ | _) <;> decide)
    Source.first_lawful ()

end RandomInstant
