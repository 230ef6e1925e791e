import RandomInstant.Command.Run
import RandomInstant.Proofs.Program.Faults

/-!
# What a run comes to

Where the standard output is taken, the exit code of a run and what it writes there are determined
by its arguments, and by the clock where no seed is given. The log has no influence on them.

The odds are as by default on every command line, so a configuration is refused only for its stem
or for its range of statement counts, and what is not refused is generated to its end. So a run
whose greatest depth is not the greatest word neither faults nor breaks off.

* `Options.problem?_config_eq_none_iff`: the options whose configurations are accepted.
* **`run_contract`**: exit codes and outputs of all runs.
-/

namespace RandomInstant

namespace Command

variable {o : Options} {i : Invocation}

/-- A text that names can begin with: an ASCII letter followed by ASCII letters and digits. -/
def WellFormed (stem : String) : Prop :=
  ∃ c rest, stem.toList = c :: rest ∧ c.isAlpha ∧ ∀ d ∈ rest, d.isAlphanum

/-- What is checked of a stem is that it is well-formed. -/
lemma isName_iff {stem : String} : Config.isName stem ↔ WellFormed stem := by
  unfold Config.isName WellFormed
  split
  · next h => simp [h]
  · next c rest h =>
      rw [Bool.and_eq_true, List.all_eq_true]
      constructor
      · rintro ⟨hc, hrest⟩
        exact ⟨c, rest, h, hc, hrest⟩
      · rintro ⟨c', rest', h', hc, hrest⟩
        cases h.symm.trans h'
        exact ⟨hc, hrest⟩

namespace Options

/-- The least number of statements that is drawn. -/
def fewest (o : Options) : UInt64 := o.minStatements.getD 5

/-- The greatest number of statements that is drawn. -/
def most (o : Options) : UInt64 := o.maxStatements.getD 10

/-- Options whose configuration is refused. The range counts even where the number of statements is
fixed. -/
inductive Refused (o : Options) : Prop
  /-- Names cannot begin with the stem that is given. -/
  | stem (stem : String) (given : o.stem = some stem) (malformed : ¬WellFormed stem)
  /-- There is no number of statements in the range. -/
  | range (empty : o.most < o.fewest)
  /-- All words are in the range. -/
  | span (large : o.most.toNat - o.fewest.toNat = 0xFFFFFFFFFFFFFFFF)

/-- Options that do not give the greatest word as the greatest depth. -/
def Shallow (o : Options) : Prop := ∀ depth, o.maxDepth = some depth → depth < 0xFFFFFFFFFFFFFFFF

/-- What is given goes into the configuration, and what is not given is as by default. -/
lemma config_eq (o : Options) : o.config =
    { stem := o.stem.getD "asdASD123"
      fewest := o.minStatements.getD 5
      most := o.maxStatements.getD 10
      statements := if o.drawnStatements then none else some (o.statements.getD 20)
      maxDepth := o.maxDepth.getD 10
      maxLiteral := o.maxLiteral.getD 20
      assignOdds := 3
      leafOdds := 3
      parenOdds := 4 } := by
  have hstatements : o.statements.or (some 20) = some (o.statements.getD 20) := by
    cases o.statements <;> rfl
  rw [← hstatements]
  rfl

/-- The depth of shallow options stays below the greatest word in the configuration. -/
lemma Shallow.maxDepth_config_lt (h : o.Shallow) : o.config.maxDepth < 0xFFFFFFFFFFFFFFFF := by
  show o.maxDepth.getD 10 < 0xFFFFFFFFFFFFFFFF
  cases hdepth : o.maxDepth with
  | none => decide
  | some depth => exact h depth hdepth

/-- No option changes the odds, and they are positive by default. -/
lemma odds_config_pos (o : Options) (choice : OddsOf) : 0 < o.config.odds choice := by
  have hodds : o.config.odds choice = ({} : Config).odds choice := by
    cases choice <;> rfl
  rw [hodds]
  cases choice <;> decide

/-- The stem is the default one, with which names can begin, or the one that is given. -/
lemma isName_stem_config_iff :
    Config.isName o.config.stem ↔ ∀ stem, o.stem = some stem → WellFormed stem := by
  show Config.isName (o.stem.getD "asdASD123") ↔ _
  cases o.stem with
  | none => exact iff_of_true (by decide) (by simp)
  | some stem => simp [isName_iff]

/-- The range has as many words as there are if its bounds are that far apart. -/
lemma span_iff {lo hi : UInt64} (h : lo ≤ hi) :
    hi - lo = 0xFFFFFFFFFFFFFFFF ↔ hi.toNat - lo.toNat = 0xFFFFFFFFFFFFFFFF := by
  rw [← UInt64.toNat_inj, UInt64.toNat_sub_of_le _ _ h]
  rfl

/-- **A configuration is accepted if its options are not refused.** -/
lemma problem?_config_eq_none_iff : o.config.problem? = none ↔ ¬o.Refused := by
  have hfewest : o.config.fewest = o.fewest := rfl
  have hmost : o.config.most = o.most := rfl
  rw [Config.problem?_eq_none_iff, hfewest, hmost, isName_stem_config_iff]
  constructor
  · rintro ⟨hstem, ⟨hrange, hspan⟩, _⟩ hrefused
    cases hrefused with
    | stem stem given malformed => exact malformed (hstem stem given)
    | range empty => exact UInt64.not_lt.mpr hrange empty
    | span large => exact hspan ((span_iff hrange).mpr large)
  · intro h
    have hrange : o.fewest ≤ o.most := UInt64.not_lt.mp fun hempty => h (.range hempty)
    refine ⟨?_, ⟨hrange, ?_⟩, o.odds_config_pos⟩
    · intro stem given
      exact Classical.not_not.mp fun malformed => h (.stem stem given malformed)
    · intro hspan
      exact h (.span ((span_iff hrange).mp hspan))

/-- **Options that are not refused generate a program**, whatever the seed. -/
lemma exists_outcome_generate (h : ¬o.Refused) (hshallow : o.Shallow) (seed : UInt64) :
    ∃ p, (generate o.config seed).outcome = .done p := by
  obtain ⟨-, hrange, hodds⟩ := Config.problem?_eq_none_iff.mp (problem?_config_eq_none_iff.mpr h)
  exact Program.drawnOn_of_positive hshallow.maxDepth_config_lt hrange hodds Source.seeded_strict _

/-- A seed that is given is the one that is used. -/
lemma seedAt_of_seed {seed : UInt64} (h : o.seed = some seed) (clock : Nat) :
    o.seedAt clock = seed := by
  rw [seedAt, h]
  rfl

/-- Where no seed is given it is what a word holds of the time. -/
lemma seedAt_of_no_seed (h : o.seed = none) (clock : Nat) : o.seedAt clock = clock.toUInt64 := by
  rw [seedAt, h]
  rfl

end Options

/-! ## Runs -/

section

variable {clock : Nat} {f : Log.Filter}

/-- Options that are refused exit with 3, before anything is written. -/
lemma runOptions_of_refused (h : o.Refused) :
    (runOptions o clock f .open).exit = 3 ∧ (runOptions o clock f .open).stdout = "" := by
  unfold runOptions
  split
  · exact ⟨rfl, rfl⟩
  · next hnone => exact absurd h (Options.problem?_config_eq_none_iff.mp hnone)

/-- Options that are not refused write the text of their program. -/
lemma runOptions_of_not_refused (h : ¬o.Refused) {p : Program}
    (hp : (generate o.config (o.seedAt clock)).outcome = .done p) :
    (runOptions o clock f .open).exit = 0 ∧
      (runOptions o clock f .open).stdout = p.text ++ "\n" := by
  unfold runOptions
  rw [Options.problem?_config_eq_none_iff.mpr h]
  simp only [generateAndWrite, hp, and_self]

/-- There is such a program below the greatest depth, whichever seed it is that is used. -/
lemma exists_runOptions_of_not_refused (h : ¬o.Refused) (hshallow : o.Shallow) {seed : UInt64}
    (hseed : o.seedAt clock = seed) :
    (runOptions o clock f .open).exit = 0 ∧
      ∃ p, (generate o.config seed).outcome = .done p ∧
        (runOptions o clock f .open).stdout = p.text ++ "\n" := by
  obtain ⟨p, hp⟩ := Options.exists_outcome_generate h hshallow (o.seedAt clock)
  obtain ⟨hexit, hstdout⟩ := runOptions_of_not_refused (f := f) h hp
  rw [hseed] at hp
  exact ⟨hexit, p, hp, hstdout⟩

/-- The log and, where a seed is given, the clock are of no influence. -/
lemma runOptions_of_seed {clock' : Nat} {f' : Log.Filter} {seed : UInt64} (h : o.seed = some seed)
    (output : Sink) :
    (runOptions o clock f output).exit = (runOptions o clock' f' output).exit ∧
      (runOptions o clock f output).stdout = (runOptions o clock' f' output).stdout := by
  have hseed : ∀ clock, o.seedAt clock = seed := fun clock => Options.seedAt_of_seed h clock
  unfold runOptions
  split
  · exact ⟨rfl, rfl⟩
  · simp only [generateAndWrite, hseed]
    split
    · exact ⟨rfl, rfl⟩
    · exact ⟨rfl, rfl⟩
    · cases output <;> exact ⟨rfl, rfl⟩

end

/-- What a run comes to whose output is taken. -/
structure Contract (i : Invocation) (r : Report) : Prop where
  /-- Misuse exits with 2, and nothing is written. -/
  misuse : ∀ e, Options.ofArguments i.arguments = .error (.misuse e) → r.exit = 2 ∧ r.stdout = ""
  /-- A request for help is no error. -/
  help : ∀ full, Options.ofArguments i.arguments = .error (.help full) → r.exit = 0
  /-- A request for the version is no error. -/
  version : Options.ofArguments i.arguments = .error .version → r.exit = 0
  /-- Options exit with 3 and nothing is written exactly if they are refused. -/
  refused : ∀ o, Options.ofArguments i.arguments = .ok o → o.Shallow →
    (r.exit = 3 ∧ r.stdout = "" ↔ o.Refused)
  /-- Otherwise the program of the seed that is given is generated and written, and a line end. -/
  seeded : ∀ o, Options.ofArguments i.arguments = .ok o → o.Shallow → ¬o.Refused →
    ∀ seed, o.seed = some seed → r.exit = 0 ∧
      ∃ p, (generate o.config seed).outcome = .done p ∧ r.stdout = p.text ++ "\n"
  /-- Where no seed is given it is the time in nanoseconds, of which only a word is left. -/
  unseeded : ∀ o, Options.ofArguments i.arguments = .ok o → o.Shallow → ¬o.Refused →
    o.seed = none → r.exit = 0 ∧
      ∃ p, (generate o.config i.clock.toUInt64).outcome = .done p ∧ r.stdout = p.text ++ "\n"

/-- The warnings about the specification of the log go to the standard error output only. -/
lemma run_of_ofArguments {read : Except Interruption Options}
    (h : Options.ofArguments i.arguments = read) :
    ∃ f, (run i).exit = (runRead read i.clock f i.output).exit ∧
      (run i).stdout = (runRead read i.clock f i.output).stdout := by
  subst h
  exact ⟨_, rfl, rfl⟩

/-- Every run whose output is taken keeps the contract. -/
lemma contract_run (hi : i.output = .open) : Contract i (run i) where
  misuse e he := by
    obtain ⟨f, hexit, hstdout⟩ := run_of_ofArguments he
    exact ⟨hexit, hstdout⟩
  help full hfull := by
    obtain ⟨f, hexit, -⟩ := run_of_ofArguments hfull
    exact hexit
  version hversion := by
    obtain ⟨f, hexit, -⟩ := run_of_ofArguments hversion
    exact hexit
  refused o ho hshallow := by
    obtain ⟨f, hexit, hstdout⟩ := run_of_ofArguments ho
    rw [hexit, hstdout, hi]
    constructor
    · rintro ⟨hthree, -⟩
      refine Classical.not_not.mp fun h => ?_
      have hzero := (@exists_runOptions_of_not_refused o i.clock f h hshallow _ rfl).1
      exact absurd (hzero.symm.trans hthree) (by decide)
    · exact runOptions_of_refused
  seeded o ho hshallow h seed hseed := by
    obtain ⟨f, hexit, hstdout⟩ := run_of_ofArguments ho
    rw [hexit, hstdout, hi]
    exact exists_runOptions_of_not_refused h hshallow (Options.seedAt_of_seed hseed i.clock)
  unseeded o ho hshallow h hnone := by
    obtain ⟨f, hexit, hstdout⟩ := run_of_ofArguments ho
    rw [hexit, hstdout, hi]
    exact exists_runOptions_of_not_refused h hshallow (Options.seedAt_of_no_seed hnone i.clock)

/-- What keeps the contract exits with one of three codes. -/
lemma Contract.exit_cases {r : Report} (h : Contract i r)
    (hshallow : ∀ o, Options.ofArguments i.arguments = .ok o → o.Shallow) :
    r.exit = 0 ∨ r.exit = 2 ∨ r.exit = 3 := by
  cases hread : Options.ofArguments i.arguments with
  | error interruption =>
      cases interruption with
      | help full => exact .inl (h.help full hread)
      | version => exact .inl (h.version hread)
      | misuse e => exact .inr (.inl (h.misuse e hread).1)
  | ok o =>
      by_cases hrefused : o.Refused
      · exact .inr (.inr ((h.refused o hread (hshallow o hread)).mpr hrefused).1)
      · cases hseed : o.seed with
        | some seed => exact .inl (h.seeded o hread (hshallow o hread) hrefused seed hseed).1
        | none => exact .inl (h.unseeded o hread (hshallow o hread) hrefused hseed).1

end Command

open Command

/-- **What a run comes to whose output is taken.** Misuse exits with 2, help and the version with
0, refused options with 3 and other options with 0; the latter write the program of the seed that
is given, or else of the time, and nothing is written where there is an error. The configuration has
the values that are given, and the default ones where none is given. With a seed the output depends
on the options only, whatever the log and the clock are. Below the greatest depth there is no other
exit code, so no fault and no generation that breaks off. The odds of a configuration from the
command line are never zero. -/
theorem run_contract {i : Invocation} (hi : i.output = .open) :
    Contract i (run i) ∧
      (∀ o : Options, o.config =
        { stem := o.stem.getD "asdASD123"
          fewest := o.minStatements.getD 5
          most := o.maxStatements.getD 10
          statements := if o.drawnStatements then none else some (o.statements.getD 20)
          maxDepth := o.maxDepth.getD 10
          maxLiteral := o.maxLiteral.getD 20
          assignOdds := 3
          leafOdds := 3
          parenOdds := 4 }) ∧
      (∀ j : Invocation, j.output = .open → ∀ o seed, o.seed = some seed →
        Options.ofArguments i.arguments = .ok o → Options.ofArguments j.arguments = .ok o →
          (run j).exit = (run i).exit ∧ (run j).stdout = (run i).stdout) ∧
      ((∀ o, Options.ofArguments i.arguments = .ok o → o.Shallow) →
        (run i).exit = 0 ∨ (run i).exit = 2 ∨ (run i).exit = 3) ∧
      ∀ (o : Options) (choice : OddsOf), o.config.validate ≠ .error (.zeroOdds choice) := by
  refine ⟨contract_run hi, Options.config_eq, ?_, (contract_run hi).exit_cases, ?_⟩
  · intro j hj o seed hseed hi' hj'
    obtain ⟨f, hexit, hstdout⟩ := run_of_ofArguments hi'
    obtain ⟨f', hexit', hstdout'⟩ := run_of_ofArguments hj'
    rw [hexit, hstdout, hexit', hstdout', hi, hj]
    exact runOptions_of_seed hseed .open
  · intro o choice herror
    have hpos := o.odds_config_pos choice
    rw [(Config.of_validate_eq_error herror).1] at hpos
    exact absurd hpos (by decide)

/-- A range that is empty because the least count is the default one is refused even where the
number of statements is fixed. A number of statements alone is not, and then the time decides. With
a seed and a depth the program is known. -/
theorem run_contract_range :
    ((run { arguments := ["--max-statements", "4", "-n3"].map Text.utf8 }).exit = 3 ∧
      (run { arguments := ["--max-statements", "4", "-n3"].map Text.utf8 }).stdout = "") ∧
    ((run { arguments := ["-n3"].map Text.utf8, logSpec := some "trace", clock := 7 }).exit = 0 ∧
      ∃ p, (generate { statements := some 3 } 7).outcome = .done p ∧
        (run { arguments := ["-n3"].map Text.utf8, logSpec := some "trace", clock := 7 }).stdout =
          p.text ++ "\n") ∧
    (run { arguments := ["--seed", "7", "-n3", "-d", "1"].map Text.utf8, clock := 8 }).exit = 0 ∧
      (run { arguments := ["--seed", "7", "-n3", "-d", "1"].map Text.utf8, clock := 8 }).stdout =
        "asdASD1230 = ( 6 ) ; asdASD1230 ; \n " ++
          "asdASD1231 = asdASD1230 - asdASD1230 ; asdASD1231 ; \n " ++
          "asdASD1232 = ( 8 ) * asdASD1230 ; asdASD1232\n" := by
  refine ⟨?_, ?_, ?_⟩
  · have hread : Options.ofArguments (["--max-statements", "4", "-n3"].map Text.utf8) =
        .ok { maxStatements := some 4, statements := some 3 } := rfl
    have hcontract := run_contract
      (i := { arguments := ["--max-statements", "4", "-n3"].map Text.utf8 }) rfl
    exact (hcontract.1.refused _ hread nofun).mpr (.range (by decide))
  · have hread : Options.ofArguments (["-n3"].map Text.utf8) = .ok { statements := some 3 } := rfl
    have hcontract := run_contract
      (i := { arguments := ["-n3"].map Text.utf8, logSpec := some "trace", clock := 7 }) rfl
    refine hcontract.1.unseeded _ hread nofun ?_ rfl
    rw [← Options.problem?_config_eq_none_iff]
    decide
  · have hread : Options.ofArguments (["--seed", "7", "-n3", "-d", "1"].map Text.utf8) =
        .ok { seed := some 7, statements := some 3, maxDepth := some 1 } := rfl
    have hcontract := run_contract
      (i := { arguments := ["--seed", "7", "-n3", "-d", "1"].map Text.utf8, clock := 8 }) rfl
    obtain ⟨hexit, p, hp, hstdout⟩ := hcontract.1.seeded _ hread
      (by rintro depth ⟨⟩; decide) (by rw [← Options.problem?_config_eq_none_iff]; decide) 7 rfl
    have hgenerate : (generate { statements := some 3, maxDepth := 1 } 7).outcome = .done
        ⟨[.assignment "asdASD1230" (.value (.literal 6) true),
          .assignment "asdASD1231" (.binary .sub (.value (.variable "asdASD1230") false)
            (.value (.variable "asdASD1230") false) false),
          .assignment "asdASD1232" (.binary .mul (.value (.literal 8) true)
            (.value (.variable "asdASD1230") false) false)]⟩ := by decide +kernel
    rw [hcontract.2.1] at hp
    obtain rfl := Outcome.done.inj (hp.symm.trans hgenerate)
    exact ⟨hexit, hstdout.trans (by decide +kernel)⟩

end RandomInstant
