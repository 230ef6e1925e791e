import Mathlib.Tactic.SplitIfs
import RandomInstant.Program.Generate
import RandomInstant.Proofs.Choice.Seeded
import RandomInstant.Proofs.Program.Totality

/-!
# When the drawing of a program fails

A program can fail to be drawn in two ways: the range of its statement count cannot be drawn from,
and then nothing is asked at all; or the source refuses the bound zero, and then some odds are zero
and there is at least one statement. The other faults of the decisions never come up.

* `Statement.Series.asked`: a series with a statement in it asks about each choice that has odds.
* `Config.of_validate_eq_error`, `Config.of_validate_eq_ok`: what `Config.validate` finds out.
* **`program_faults_iff`**: the exact condition on a strict source, and what it says of
  configurations that `Config.validate` accepts or refuses. It accepts only those whose programs
  never fail; the stem plays no part in that.
-/

namespace RandomInstant

variable {c : Config} {scope scope' : Scope} {r : List (Happening Remark)}

/-! ## Questions that are always asked -/

/-- Every expression asks whether it is a single value and whether it stands in parentheses. -/
lemma Expr.Drawn.asked {depth : UInt64} {e : Expr} (h : e.Drawn c scope depth r) :
    (∃ x, .answered c.leafOdds.toNat x ∈ r) ∧ ∃ y, .answered c.parenOdds.toNat y ∈ r := by
  cases h with
  | value hx hv y => exact ⟨⟨_, .head _⟩, y, by simp⟩
  | binary hx hd hi hl hr y => exact ⟨⟨_, .head _⟩, y, by simp⟩

namespace Statement

/-- Every statement asks about each choice that has odds. -/
lemma Drawn.asked {s : Statement} (h : Drawn c scope r s scope') (choice : OddsOf) :
    ∃ x, .answered (c.odds choice).toNat x ∈ r := by
  have hexpr : ∀ {r' : List (Happening Remark)} {e : Expr}, e.Drawn c scope 1 r' → r' ⊆ r →
      choice ≠ .assignment → ∃ x, .answered (c.odds choice).toNat x ∈ r := by
    intro r' e he hsub hne
    obtain ⟨⟨x, hx⟩, y, hy⟩ := he.asked
    cases choice with
    | assignment => exact absurd rfl hne
    | leaf => exact ⟨x, hsub hx⟩
    | parenthesization => exact ⟨y, hsub hy⟩
  by_cases hchoice : choice = .assignment
  · subst hchoice
    cases h with
    | expression hx he => exact ⟨_, .head _⟩
    | assignment he fresh => exact ⟨_, .head _⟩
  · cases h with
    | expression hx he => exact hexpr he (by simp) hchoice
    | assignment he fresh => exact hexpr he (by simp) hchoice

/-- So does a series in which there is a statement. -/
lemma Series.asked {place : Nat} {ss : List Statement} (h : Series c place scope r ss scope')
    (hss : ss ≠ []) (choice : OddsOf) : ∃ x, .answered (c.odds choice).toNat x ∈ r := by
  cases h with
  | nil => exact absurd rfl hss
  | cons h rest =>
      obtain ⟨x, hx⟩ := h.asked choice
      exact ⟨x, List.mem_append_left _ hx⟩

end Statement

/-! ## What validation finds out -/

/-- What an error says of a configuration that it is the first error of. -/
def ConfigError.Describes (c : Config) : ConfigError → Prop
  | emptyStem => c.stem = ""
  | malformedStem stem => stem = c.stem ∧ Config.isName c.stem = false
  | emptyRange lo hi => (lo = c.fewest ∧ hi = c.most) ∧ c.most < c.fewest
  | rangeTooLarge lo hi => (lo = c.fewest ∧ hi = c.most) ∧ c.fewest ≤ c.most ∧
      c.most - c.fewest = 0xFFFFFFFFFFFFFFFF
  | zeroOdds choice => c.odds choice = 0 ∧ c.fewest ≤ c.most ∧
      c.most - c.fewest ≠ 0xFFFFFFFFFFFFFFFF

namespace Config

/-- A configuration is refused for the first problem it has. -/
lemma validate_eq_error_iff {e : ConfigError} :
    c.validate = .error e ↔ c.problem? = some e := by
  unfold validate
  cases c.problem? <;> simp

/-- A configuration is accepted if it has no problem. -/
lemma validate_eq_ok_iff : c.validate = .ok () ↔ c.problem? = none := by
  unfold validate
  cases c.problem? <;> simp

/-- The error of a refused configuration describes it. -/
lemma of_validate_eq_error {e : ConfigError} (h : c.validate = .error e) : e.Describes c := by
  have hproblem := validate_eq_error_iff.mp h
  unfold problem? at hproblem
  split_ifs at hproblem with hstem hname hrange hspan hassign hleaf hparen <;> cases hproblem
  · exact hstem
  · exact ⟨rfl, by simpa using hname⟩
  · exact ⟨⟨rfl, rfl⟩, hrange⟩
  · exact ⟨⟨rfl, rfl⟩, UInt64.not_lt.mp hrange, hspan⟩
  · exact ⟨hassign, UInt64.not_lt.mp hrange, hspan⟩
  · exact ⟨hleaf, UInt64.not_lt.mp hrange, hspan⟩
  · exact ⟨hparen, UInt64.not_lt.mp hrange, hspan⟩

/-- There is nothing wrong with a configuration whose names can be told from numbers, whose range
can be drawn from, and whose odds are positive. -/
lemma problem?_eq_none_iff :
    c.problem? = none ↔
      isName c.stem ∧ (c.fewest ≤ c.most ∧ c.most - c.fewest ≠ 0xFFFFFFFFFFFFFFFF) ∧
        ∀ choice, 0 < c.odds choice := by
  constructor
  · intro h
    unfold problem? at h
    split_ifs at h with hstem hname hrange hspan hassign hleaf hparen
    refine ⟨by simpa using hname, ⟨UInt64.not_lt.mp hrange, hspan⟩, fun choice => ?_⟩
    apply UInt64.pos_iff_ne_zero.mpr
    cases choice with
    | assignment => exact hassign
    | leaf => exact hleaf
    | parenthesization => exact hparen
  · rintro ⟨hname, ⟨hrange, hspan⟩, hodds⟩
    have hstem : c.stem ≠ "" := by
      intro hempty
      rw [hempty] at hname
      exact absurd hname (by decide)
    have hassign : c.assignOdds ≠ 0 := UInt64.pos_iff_ne_zero.mp (hodds .assignment)
    have hleaf : c.leafOdds ≠ 0 := UInt64.pos_iff_ne_zero.mp (hodds .leaf)
    have hparen : c.parenOdds ≠ 0 := UInt64.pos_iff_ne_zero.mp (hodds .parenthesization)
    unfold problem?
    rw [if_neg hstem, if_neg (by simp [hname]), if_neg (UInt64.not_lt.mpr hrange), if_neg hspan,
      if_neg hassign, if_neg hleaf, if_neg hparen]

/-- An accepted configuration has a range that can be drawn from, and positive odds. -/
lemma of_validate_eq_ok (h : c.validate = .ok ()) :
    (c.fewest ≤ c.most ∧ c.most - c.fewest ≠ 0xFFFFFFFFFFFFFFFF) ∧
      ∀ choice, 0 < c.odds choice :=
  (problem?_eq_none_iff.mp (validate_eq_ok_iff.mp h)).2

end Config

/-! ## The faults of programs -/

namespace Program

variable {σ : Type} {source : Source σ} {s : σ}

/-- A program is drawn from a state of a source. -/
def DrawnOn (c : Config) (source : Source σ) (s : σ) : Prop :=
  ∃ p, ((random c).run source s).outcome = .done p

/-- The drawing of a program from a state of a source fails. -/
def FaultsOn (c : Config) (source : Source σ) (s : σ) : Prop :=
  ∃ f, ((random c).run source s).outcome = .fault f

/-- The statement count that belongs to the number drawn first from a state of a source. -/
def CountsOn (c : Config) (source : Source σ) (s : σ) (count : UInt64) : Prop :=
  ∃ drawn, ((Draw.inRange c.fewest c.most : Draw Remark UInt64).run source s).outcome =
    .done drawn ∧ count = c.statementCount drawn

/-- The fault of a range that cannot be drawn from. -/
def rangeFault (c : Config) : Fault :=
  if c.most < c.fewest then .emptyRange c.fewest c.most else .rangeTooLarge c.fewest c.most

/-- Where the range cannot be drawn from, the decision is a fault and nothing else. -/
lemma random_eq_fault
    (h : c.most < c.fewest ∨ c.most - c.fewest = 0xFFFFFFFFFFFFFFFF) :
    random c = .fault (rangeFault c) := by
  rw [random_def, Draw.inRange, rangeFault]
  by_cases hrange : c.most < c.fewest
  · rw [if_pos hrange, if_pos hrange]
    rfl
  · rw [if_neg hrange, if_neg hrange, if_pos (h.resolve_left hrange)]
    rfl

/-- Drawing ends with a program or with a fault, and not with both. -/
lemma drawnOn_iff_not_faultsOn (hc : c.maxDepth < 0xFFFFFFFFFFFFFFFF) :
    DrawnOn c source s ↔ ¬ FaultsOn c source s := by
  have hfinishes := (finishes hc).outcome_ne source s
  unfold DrawnOn FaultsOn
  cases ho : ((random c).run source s).outcome with
  | done p => simp
  | fault f => simp
  | unfinished => exact absurd ho hfinishes

/-- A program without statements comes of every source that draws its count. -/
lemma drawnOn_of_count_zero (h : CountsOn c source s 0) : DrawnOn c source s := by
  obtain ⟨drawn, hdrawn, hcount⟩ := h
  obtain ⟨s', hs'⟩ := outcome_run_of_counted hdrawn
  rw [← hcount] at hs'
  exact ⟨_, hs'⟩

/-- A strict source does not come to a program with statements where some odds are zero. -/
lemma not_drawnOn_of_odds_eq_zero (hc : c.maxDepth < 0xFFFFFFFFFFFFFFFF)
    (strict : source.Strict) {count : UInt64} (h : CountsOn c source s count) (hpos : 0 < count)
    {choice : OddsOf} (hchoice : c.odds choice = 0) : ¬ DrawnOn c source s := by
  rintro ⟨p, hp⟩
  obtain ⟨drawn, hdrawn, rfl⟩ := h
  have hlength := length_of_counted hc hdrawn hp
  have hkeeps := strict.follows.keeps (random c) s
  have hprogram := (course_random_iff hc).mp (Draw.course_of_outcome_eq hp)
  obtain ⟨r, scope', series, hsub⟩ := hprogram.exists_series
  have hne : p.statements ≠ [] := by
    intro hnil
    rw [hnil] at hlength
    rw [UInt64.lt_iff_toNat_lt, ← hlength] at hpos
    exact absurd hpos (Nat.lt_irrefl 0)
  obtain ⟨x, hx⟩ := series.asked hne choice
  have hlt : x < (c.odds choice).toNat := hkeeps _ (hsub hx)
  rw [hchoice] at hlt
  exact absurd hlt (Nat.not_lt_zero x)

end Program

open Program (DrawnOn FaultsOn CountsOn rangeFault)

/-- A lawful source comes to a program where the range can be drawn from and the odds are
positive. -/
lemma Program.drawnOn_of_lawful (hc : c.maxDepth < 0xFFFFFFFFFFFFFFFF)
    (range : c.fewest ≤ c.most ∧ c.most - c.fewest ≠ 0xFFFFFFFFFFFFFFFF)
    (odds : ∀ choice, 0 < c.odds choice) {σ : Type} {source : Source σ} (lawful : source.Lawful)
    (s : σ) : DrawnOn c source s := by
  have htakes := takes (c.settledBy_lawful odds) hc range.1 range.2
  obtain ⟨p, hp, -⟩ := htakes.outcome_run lawful.follows s
  exact ⟨p, hp⟩

/-- Where all odds are positive and there is a range, strict sources draw a program. -/
lemma Program.drawnOn_of_positive (hc : c.maxDepth < 0xFFFFFFFFFFFFFFFF)
    (range : c.fewest ≤ c.most ∧ c.most - c.fewest ≠ 0xFFFFFFFFFFFFFFFF)
    (odds : ∀ choice, 0 < c.odds choice) {σ : Type} {source : Source σ} (strict : source.Strict)
    (s : σ) : DrawnOn c source s :=
  drawnOn_of_lawful hc range odds strict.lawful s

/-- The condition under which a strict source does not come to a program. -/
lemma Program.faultsOn_iff (hc : c.maxDepth < 0xFFFFFFFFFFFFFFFF) {σ : Type} {source : Source σ}
    (strict : source.Strict) (s : σ) :
    FaultsOn c source s ↔
      c.most < c.fewest ∨ c.most - c.fewest = 0xFFFFFFFFFFFFFFFF ∨
        ∃ count, CountsOn c source s count ∧ 0 < count ∧ ∃ choice, c.odds choice = 0 := by
  by_cases hrange : c.most < c.fewest ∨ c.most - c.fewest = 0xFFFFFFFFFFFFFFFF
  · have hfault : FaultsOn c source s := ⟨rangeFault c, by rw [random_eq_fault hrange]; rfl⟩
    exact iff_of_true hfault (hrange.elim .inl fun h => .inr (.inl h))
  · obtain ⟨hle, hspan⟩ := not_or.mp hrange
    have hle := UInt64.not_lt.mp hle
    constructor
    · intro hfault
      obtain ⟨drawn, hdrawn, -⟩ := (Draw.takes_inRange hle hspan
        (Conduct.lawful_settles (Nat.succ_pos _))).outcome_run strict.lawful.follows s
      refine .inr (.inr ⟨_, ⟨drawn, hdrawn, rfl⟩, ?_, ?_⟩)
      · apply UInt64.pos_iff_ne_zero.mpr
        intro hzero
        exact (drawnOn_iff_not_faultsOn hc).mp
          (drawnOn_of_count_zero ⟨drawn, hdrawn, hzero.symm⟩) hfault
      · by_cases hodds : ∃ choice, c.odds choice = 0
        · exact hodds
        · have hodds : ∀ choice, 0 < c.odds choice := fun choice =>
            UInt64.pos_iff_ne_zero.mpr fun hzero => hodds ⟨choice, hzero⟩
          exact absurd hfault ((drawnOn_iff_not_faultsOn hc).mp
            (drawnOn_of_positive hc ⟨hle, hspan⟩ hodds strict s))
    · rintro (h | h | ⟨count, hcount, hpos, choice, hchoice⟩)
      · exact absurd (.inl h) hrange
      · exact absurd (.inr h) hrange
      · have hnot := not_drawnOn_of_odds_eq_zero hc strict hcount hpos hchoice
        rw [drawnOn_iff_not_faultsOn hc] at hnot
        exact Classical.not_not.mp hnot

/-- Where the range can be drawn from, a fault is that of a refused bound zero: no decision comes
to a fault of its own. -/
lemma Program.refused_of_fault (hc : c.maxDepth < 0xFFFFFFFFFFFFFFFF)
    (range : c.fewest ≤ c.most ∧ c.most - c.fewest ≠ 0xFFFFFFFFFFFFFFFF) {σ : Type}
    {source : Source σ} (strict : source.Strict) {s : σ} {f : Fault}
    (hf : ((random c).run source s).outcome = .fault f) :
    .refused 0 f ∈ ((random c).run source s).record.toList := by
  have htakes := takes c.settledBy_answering hc range.1 range.2
  rcases htakes.done_or_refused strict s with ⟨p, hp, -⟩ | ⟨g, hg, hfault⟩
  · rw [hp] at hf
    cases hf
  · rw [hfault] at hf
    cases hf
    exact hg

/-- **When the drawing of a program fails.** On a strict source, from every state:

* there is a program or a fault, and a fault exactly if the range cannot be drawn from, or if
  there is at least one statement and some odds are zero;
* the fault of the range comes before anything is asked, whether or not a count is fixed; every
  other fault is that of the refused bound zero, which is the last thing that happens.

If `Config.validate` accepts a configuration, with its own stem or with another, its programs never
fail, in particular not from any seed. If it refuses the range, they always fail; if it refuses
odds, they fail exactly if there is at least one statement. -/
theorem program_faults_iff {c : Config} (hc : c.maxDepth < 0xFFFFFFFFFFFFFFFF) :
    (∀ (σ : Type) (source : Source σ), source.Strict → ∀ s : σ,
      (DrawnOn c source s ↔ ¬ FaultsOn c source s) ∧
      (FaultsOn c source s ↔
        c.most < c.fewest ∨ c.most - c.fewest = 0xFFFFFFFFFFFFFFFF ∨
          ∃ count, CountsOn c source s count ∧ 0 < count ∧ ∃ choice, c.odds choice = 0) ∧
      (c.most < c.fewest ∨ c.most - c.fewest = 0xFFFFFFFFFFFFFFFF →
        (Program.random c).run source s = ⟨.fault (rangeFault c), s, #[]⟩) ∧
      (¬ (c.most < c.fewest ∨ c.most - c.fewest = 0xFFFFFFFFFFFFFFFF) → ∀ f,
        ((Program.random c).run source s).outcome = .fault f →
        .refused 0 f ∈ ((Program.random c).run source s).record.toList)) ∧
    (∀ stem, { c with stem := stem }.validate = .ok () →
      (∀ (σ : Type) (source : Source σ), source.Strict → ∀ s : σ, DrawnOn c source s) ∧
      ∀ seed, ∃ p, (generate c seed).outcome = .done p) ∧
    (∀ lo hi, c.validate = .error (.emptyRange lo hi) ∨ c.validate = .error (.rangeTooLarge lo hi) →
      ∀ (σ : Type) (source : Source σ), source.Strict → ∀ s : σ, FaultsOn c source s) ∧
    (∀ choice, c.validate = .error (.zeroOdds choice) →
      ∀ (σ : Type) (source : Source σ), source.Strict → ∀ s : σ,
        (FaultsOn c source s ↔ ∃ count, CountsOn c source s count ∧ 0 < count)) := by
  refine ⟨fun σ source strict s => ⟨Program.drawnOn_iff_not_faultsOn hc,
    Program.faultsOn_iff hc strict s, fun hrange => ?_, fun hrange f hf => ?_⟩,
    fun stem hok => ?_, fun lo hi herror σ source strict s => ?_,
    fun choice herror σ source strict s => ?_⟩
  · rw [Program.random_eq_fault hrange]
    rfl
  · obtain ⟨hle, hspan⟩ := not_or.mp hrange
    exact Program.refused_of_fault hc ⟨UInt64.not_lt.mp hle, hspan⟩ strict hf
  · obtain ⟨hrange, hodds⟩ := Config.of_validate_eq_ok hok
    have hodds : ∀ choice, 0 < c.odds choice := fun choice => by
      cases choice with
      | assignment => exact hodds .assignment
      | leaf => exact hodds .leaf
      | parenthesization => exact hodds .parenthesization
    have hdrawn : ∀ (σ : Type) (source : Source σ), source.Strict → ∀ s : σ, DrawnOn c source s :=
      fun σ source strict s => Program.drawnOn_of_positive hc hrange hodds strict s
    exact ⟨hdrawn, fun seed => hdrawn Keystream Source.seeded Source.seeded_strict _⟩
  · refine (Program.faultsOn_iff hc strict s).mpr ?_
    rcases herror with herror | herror
    · exact .inl (Config.of_validate_eq_error herror).2
    · exact .inr (.inl (Config.of_validate_eq_error herror).2.2)
  · obtain ⟨hzero, hle, hspan⟩ := Config.of_validate_eq_error herror
    rw [Program.faultsOn_iff hc strict s]
    constructor
    · rintro (h | h | ⟨count, hcount, hpos, -⟩)
      · exact absurd h (UInt64.not_lt.mpr hle)
      · exact absurd h hspan
      · exact ⟨count, hcount, hpos⟩
    · rintro ⟨count, hcount, hpos⟩
      exact .inr (.inr ⟨count, hcount, hpos, choice, hzero⟩)

/-- By default no seed fails. Odds of zero fail once there is a statement, and an empty range fails
even where no statement is wanted. -/
theorem program_faults_default :
    (∀ seed, ∃ p, (generate {} seed).outcome = .done p) ∧
    FaultsOn { statements := some 1, leafOdds := 0 } Source.first () ∧
    ¬ FaultsOn { statements := some 0, leafOdds := 0 } Source.first () ∧
    (Program.random { fewest := 1, most := 0, statements := some 0 }).run Source.seeded
        (Keystream.ofSeed 0) = ⟨.fault (.emptyRange 1 0), Keystream.ofSeed 0, #[]⟩ := by
  refine ⟨?_, ?_, ?_, ?_⟩
  · have hvalid : ({} : Config).validate = .ok () := Config.validate_eq_ok_iff.mpr (by decide)
    exact ((program_faults_iff (c := {}) (by decide)).2.1 "asdASD123" hvalid).2
  · have hiff := ((program_faults_iff (c := { statements := some 1, leafOdds := 0 })
      (by decide)).1 Unit Source.first Source.first_strict ()).2.1
    exact hiff.mpr (.inr (.inr ⟨1, ⟨5, rfl, rfl⟩, by decide, .leaf, rfl⟩))
  · have hiff := ((program_faults_iff (c := { statements := some 0, leafOdds := 0 })
      (by decide)).1 Unit Source.first Source.first_strict ()).2.1
    rw [hiff]
    rintro (h | h | ⟨count, ⟨drawn, -, rfl⟩, hpos, -⟩)
    · exact absurd h (by decide)
    · exact absurd h (by decide)
    · exact absurd hpos (UInt64.lt_irrefl 0)
  · exact ((program_faults_iff (c := { fewest := 1, most := 0, statements := some 0 })
      (by decide)).1 _ _ Source.seeded_strict _).2.2.1 (.inl (by decide))

end RandomInstant
