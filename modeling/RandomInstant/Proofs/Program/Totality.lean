import RandomInstant.Proofs.Choice.Conduct
import RandomInstant.Proofs.Program.Related

/-!
# Drawing comes to an end, and to a result

Two questions about each decision of `Program.Random`, asked of the tree and so of every run.

* **Does it come to a result?** Under a conduct that settles all positive bounds and the odds of
  the configuration (`Config.SettledBy`) it does: `Expr.takes`, `Statement.takes` where the fresh
  name is new, and `Program.takes` for a range that can be drawn from. No answer names an element
  that is not there, no name is declared twice, and none is referred to where none is declared. A
  lawful source settles positive bounds, so positive odds suffice for it.
* **Does it end?** Below the greatest depth it does, whatever the answers are: `Value.finishes`,
  `Expr.finishes`, `Statement.finishes` and `Program.finishes`.

Each is a property of decisions that sequencing keeps, so it is shown of the ways to draw and
follows for the rest. `Program.length_of_counted`: a program that is drawn has as many statements as
its count says.
-/

namespace RandomInstant

open Draw (Finishes Takes)

variable {ε α : Type} {H : Conduct} {c : Config} {scope : Scope}

/-! ## The ways to draw -/

namespace Draw

/-- A note is left whatever the answers are. -/
lemma takes_tell (o : Option ε) : (tell o).Takes H fun _ => True := by
  cases o with
  | none => exact takes_done.mpr trivial
  | some e => exact takes_note.mpr (takes_done.mpr trivial)

/-- A choice with odds is taken if its odds are settled. -/
lemma takes_oneIn {n : UInt64} (h : H.Settles n.toNat) :
    (oneIn n : Draw ε Bool).Takes H fun _ => True :=
  takes_ask h fun _ _ => takes_done.mpr trivial

/-- A pick is taken if the number of elements is settled. -/
lemma takes_pick {xs : Array α} (h : H.Settles xs.size) :
    (pick xs : Draw ε α).Takes H fun _ => True := by
  rw [pick_def]
  apply takes_ask h
  intro i hi
  rw [dif_pos hi]
  exact takes_done.mpr trivial

/-- Drawing from a range stays within it. -/
lemma takes_inRange {lo hi : UInt64} (range : lo ≤ hi) (span : hi - lo ≠ 0xFFFFFFFFFFFFFFFF)
    (h : H.Settles (hi.toNat - lo.toNat + 1)) :
    (inRange lo hi : Draw ε UInt64).Takes H fun x => lo ≤ x ∧ x ≤ hi := by
  rw [inRange_of_le range span]
  refine takes_ask h fun x hx => takes_done.mpr ?_
  have hsum := toNat_inRange_sum range hx
  have hlo : lo.toNat ≤ hi.toNat := UInt64.le_iff_toNat_le.mp range
  rw [UInt64.le_iff_toNat_le, UInt64.le_iff_toNat_le, hsum]
  omega

/-- Leaving a note ends. -/
lemma finishes_tell (o : Option ε) : (tell o).Finishes := by
  cases o with
  | none => exact finishes_done ()
  | some e => exact finishes_note.mpr (finishes_done ())

/-- A choice with odds ends. -/
lemma finishes_oneIn (n : UInt64) : (oneIn n : Draw ε Bool).Finishes :=
  finishes_ask fun _ => finishes_done _

/-- A pick ends, with an element or with a fault. -/
lemma finishes_pick (xs : Array α) : (pick xs : Draw ε α).Finishes := by
  rw [pick_def]
  apply finishes_ask
  intro i
  split
  · exact finishes_done _
  · exact finishes_fault _

/-- Drawing from a range ends, with a number or with a fault. -/
lemma finishes_inRange (lo hi : UInt64) : (inRange lo hi : Draw ε UInt64).Finishes := by
  unfold inRange
  split
  · exact finishes_fault _
  · split
    · exact finishes_fault _
    · exact finishes_ask fun _ => finishes_done _

end Draw

/-- A conduct settles a configuration if it settles its odds and all positive bounds. -/
structure Config.SettledBy (c : Config) (H : Conduct) : Prop where
  /-- Positive bounds are settled. -/
  positive : ∀ bound, 0 < bound → H.Settles bound
  /-- The odds of all choices are settled. -/
  odds : ∀ choice, H.Settles (c.odds choice).toNat

/-- Lawful sources settle configurations with positive odds. -/
lemma Config.settledBy_lawful (h : ∀ choice, 0 < c.odds choice) : c.SettledBy .lawful where
  positive _ hb := Conduct.lawful_settles hb
  odds choice := Conduct.lawful_settles (by simpa [UInt64.lt_iff_toNat_lt] using h choice)

/-- Answers below all bounds settle every configuration. -/
lemma Config.settledBy_answering (c : Config) : c.SettledBy .answering where
  positive bound _ := Conduct.answering_settles bound
  odds choice := Conduct.answering_settles (c.odds choice).toNat

/-! ## Coming to a result -/

namespace Config.SettledBy

/-- A conduct that settles a configuration has everything taken that the configuration has drawn. -/
lemma covers (h : c.SettledBy H) : (Takes.property H ε).Covers c where
  half := Draw.takes_oneIn (h.positive 2 Nat.two_pos)
  odds choice := Draw.takes_oneIn (h.odds choice)
  literal := by
    rw [Value.inRange_literal]
    exact Draw.takes_ask (h.positive _ (Nat.succ_pos _)) fun x _ => Draw.takes_done.mpr trivial
  pick _ hxs := Draw.takes_pick (h.positive _ hxs)

/-- So is the decision whether an expression is a single value. -/
lemma takes_single (h : c.SettledBy H) (t : Telling ε) (depth : UInt64) :
    (Expr.single t c depth).Takes H fun _ => True :=
  Draw.takes_ask (h.odds .leaf) fun _ _ =>
    (Draw.takes_tell _).bind fun _ _ => Draw.takes_done.mpr trivial

end Config.SettledBy

/-- **Expressions come to a result.** -/
theorem Expr.takes (h : c.SettledBy H) (hc : c.maxDepth < 0xFFFFFFFFFFFFFFFF) (scope : Scope)
    (depth : UInt64) : (random c scope depth).Takes H fun _ => True :=
  h.covers.toldWithin_of_height hc (h.takes_single _) (height_le_levels c depth)

/-- **Statements come to a result** where the name that they would declare is new. -/
theorem Statement.takes (h : c.SettledBy H) (hc : c.maxDepth < 0xFFFFFFFFFFFFFFFF)
    (fresh : scope.freshName c.stem ∉ scope.names) :
    (random c scope).Takes H fun _ => True := by
  have hdeclare := Scope.declare?_eq_some_iff
    (t := ⟨scope.names.push (scope.freshName c.stem)⟩).mpr ⟨fresh, rfl⟩
  refine h.covers.statement (fun e => Draw.takes_tell _) (Expr.takes h hc scope 1) fun hnone => ?_
  exact absurd (hdeclare.symm.trans hnone) nofun

/-- **Programs come to a result**, where there is a range to draw their length from. Each fresh name
is new, since the scope stays numbered. -/
theorem Program.takes (h : c.SettledBy H) (hc : c.maxDepth < 0xFFFFFFFFFFFFFFFF)
    (range : c.fewest ≤ c.most) (span : c.most - c.fewest ≠ 0xFFFFFFFFFFFFFFFF) :
    (random c).Takes H fun _ => True := by
  have hrange := (Draw.takes_inRange (ε := Remark) range span (h.positive _ (Nat.succ_pos _))).mono
    fun _ _ => trivial
  exact h.covers.program hrange (fun e => Draw.takes_tell _) fun k => Expr.takes h hc _ 1

/-! ## Coming to an end -/

/-- Everything that a configuration has drawn ends. -/
lemma Draw.Finishes.covers (c : Config) : (property ε).Covers c where
  half := finishes_oneIn 2
  odds choice := finishes_oneIn (c.odds choice)
  literal := finishes_inRange 0 c.maxLiteral.toUInt64
  pick xs _ := finishes_pick xs

/-- **Values end.** -/
theorem Value.finishes (c : Config) (scope : Scope) : (random c scope : Draw ε Value).Finishes :=
  (Finishes.covers c).value scope

/-- **Expressions end.** -/
theorem Expr.finishes (hc : c.maxDepth < 0xFFFFFFFFFFFFFFFF) (scope : Scope) (depth : UInt64) :
    (random c scope depth).Finishes := by
  refine (Finishes.covers c).toldWithin_of_height hc (fun depth => ?_) (height_le_levels c depth)
  exact Draw.finishes_ask fun x => (Draw.finishes_tell _).bind fun _ _ _ => Draw.finishes_done _

/-- **Statements end.** -/
theorem Statement.finishes (hc : c.maxDepth < 0xFFFFFFFFFFFFFFFF) (scope : Scope) :
    (random c scope).Finishes :=
  (Finishes.covers c).statement (fun _ => Draw.finishes_tell _) (Expr.finishes hc scope 1)
    fun _ _ => Draw.finishes_fault (ε := Remark) .declaredTwice

/-- **Drawing a program ends**, whatever the answers are. -/
theorem Program.finishes (hc : c.maxDepth < 0xFFFFFFFFFFFFFFFF) : (random c).Finishes :=
  (Finishes.covers c).program (Draw.finishes_inRange _ _) (fun _ => Draw.finishes_tell _)
    fun _ => Expr.finishes hc _ 1

/-! ## The length of a program -/

namespace Program

variable {σ : Type} {source : Source σ} {s : σ} {drawn : UInt64}

/-- Once its statement count is drawn, a program is a draft extended by as many statements. -/
lemma outcome_run_of_counted
    (h : ((Draw.inRange c.fewest c.most : Draw Remark UInt64).run source s).outcome = .done drawn) :
    ∃ s', ((random c).run source s).outcome =
      ((Draft.extend c (c.statementCount drawn).toNat {} >>= fun d =>
        (.done d.program : Draw Remark Program)).run source s').outcome := by
  refine ⟨((Draw.inRange c.fewest c.most : Draw Remark UInt64).run source s).state, ?_⟩
  rw [random_def, Draw.outcome_run_bind_of_done h, Draw.remark_bind, Draw.run_note]
  rfl

/-- A program has as many statements as its count says. -/
lemma length_of_counted (hc : c.maxDepth < 0xFFFFFFFFFFFFFFFF)
    (h : ((Draw.inRange c.fewest c.most : Draw Remark UInt64).run source s).outcome = .done drawn)
    {p : Program} (hp : ((random c).run source s).outcome = .done p) :
    p.statements.length = (c.statementCount drawn).toNat := by
  obtain ⟨s', hs'⟩ := outcome_run_of_counted h
  have hcourse := Draw.course_of_outcome_eq (hs'.symm.trans hp)
  obtain ⟨d, r₁, r₂, -, hd, h₁⟩ := Draw.course_bind_done_iff.mp hcourse
  obtain ⟨-, rfl⟩ := Draw.course_done_iff.mp h₁
  obtain ⟨ss, scope', -, hlength, rfl⟩ := (course_extend_iff hc).mp hd
  simpa [Draft.program] using hlength

end Program

end RandomInstant
