import RandomInstant.Program.Generate
import RandomInstant.Proofs.Program.Traced
import RandomInstant.Proofs.Token.Cutting

/-!
# Programs of different length

From one state of a source, programs of all lengths begin alike: the number of statements is drawn
before anything else, whether or not it is used, and a statement does not depend on how many are to
come after it. So a program of few statements is the beginning of every program of more, in its
tokens as well as in its statements; and fixing the count at the number that is drawn changes
nothing.

* `Program.ofCount`, `Program.random_withCount`: what is left of drawing a program once its count
  is known. No part of it looks at a configuration's count.
* `Program.Draft.extend_add`: more statements are drawn after fewer. `Program.outcome_ofCount_take`:
  so from one state a program of fewer statements is the beginning of one of more.
* **`program_extends`**: what follows for runs.
-/

namespace RandomInstant

open Draw (InStep)

/-! ## What does not depend on the count -/

/-- A statement does not depend on how many are to be drawn. -/
lemma Statement.random_withCount (c : Config) (count : Option UInt64) (scope : Scope) :
    random { c with statements := count } scope = random c scope := by
  have hexpr : (Expr.random c scope 1).InStep some {} Eq
      (Expr.random { c with statements := count } scope 1) :=
    Expr.related_add_same (m := Expr.levels c) (n := 0) (InStep.covers some {} c)
      (Expr.inStep_single .remarks some c {}) fun _ => .unfinished
  have hstatement : (random c scope).InStep some {} Eq
      (random { c with statements := count } scope) :=
    related_same (InStep.covers some {} c) (fun _ => Draw.inStep_tell_any _) hexpr
      fun _ _ _ _ => .fault _
  exact hstatement.eq

namespace Program

/-- Neither do the statements of a draft. -/
lemma Draft.extend_withCount (c : Config) (count : Option UInt64) (n : Nat) (d : Draft) :
    Draft.extend { c with statements := count } n d = Draft.extend c n d := by
  induction n generalizing d with
  | zero => rfl
  | succ n ih =>
      rw [Draft.extend_succ, Draft.extend_succ, Statement.random_withCount]
      simp only [ih]

/-- A program of a given number of statements, once a number is drawn. -/
def ofCount (c : Config) (drawn count : UInt64) : Draw Remark Program := do
  Draw.remark (.counted drawn count)
  let d ← Draft.extend c count.toNat {}
  return d.program

/-- Drawing a program is drawing a number and then a program of as many statements as the number or
the fixed count says. -/
lemma random_withCount (c : Config) (count : Option UInt64) :
    random { c with statements := count } =
      Draw.inRange c.fewest c.most >>= fun drawn => ofCount c drawn (count.getD drawn) := by
  rw [random_def]
  simp only [Draft.extend_withCount]
  rfl

/-! ## More statements after fewer -/

/-- Statements are drawn one after the other. -/
lemma Draft.extend_add (c : Config) (m n : Nat) (d : Draft) :
    Draft.extend c (m + n) d = Draft.extend c m d >>= Draft.extend c n := by
  induction m generalizing d with
  | zero => rw [Nat.zero_add, Draft.extend_zero, Draw.done_bind]
  | succ m ih =>
      rw [Nat.succ_add, Draft.extend_succ, Draft.extend_succ, Draw.bind_bind]
      simp only [Draw.bind_bind, ih]

variable {σ : Type} {source : Source σ} {s : σ} {c : Config} {drawn m n : UInt64}

/-- A program of some statements is a draft that was extended by as many. -/
lemma outcome_run_ofCount_eq_done_iff {p : Program} :
    ((ofCount c drawn n).run source s).outcome = .done p ↔
      ∃ d, ((Draft.extend c n.toNat {}).run source s).outcome = .done d ∧ p = d.program := by
  rw [ofCount, Draw.remark_bind, Draw.run_note]
  constructor
  · intro h
    obtain ⟨d, hd, hp⟩ := Draw.exists_outcome_of_run_bind_done h
    cases hp
    exact ⟨d, hd, rfl⟩
  · rintro ⟨d, hd, rfl⟩
    exact Draw.outcome_run_bind_of_done hd _

/-- Extending a draft adds as many statements, after those it has. -/
lemma Draft.exists_statements_of_outcome_extend (hc : c.maxDepth < 0xFFFFFFFFFFFFFFFF) {k : Nat}
    {d d' : Draft} (h : ((Draft.extend c k d).run source s).outcome = .done d') :
    ∃ ss : List Statement, ss.length = k ∧ d'.statements.toList = d.statements.toList ++ ss := by
  have hcourse := Draw.course_of_outcome_eq h
  obtain ⟨ss, scope, -, hlength, rfl⟩ := (course_extend_iff hc).mp hcourse
  exact ⟨ss, hlength, by simp⟩

/-- A program has as many statements as it is to have. -/
lemma length_of_outcome_ofCount (hc : c.maxDepth < 0xFFFFFFFFFFFFFFFF) {p : Program}
    (h : ((ofCount c drawn n).run source s).outcome = .done p) :
    p.statements.length = n.toNat := by
  obtain ⟨d, hd, rfl⟩ := outcome_run_ofCount_eq_done_iff.mp h
  obtain ⟨ss, hlength, hss⟩ := Draft.exists_statements_of_outcome_extend hc hd
  rw [Draft.program, hss]
  simpa using hlength

/-- From one state, where a program of more statements is drawn, one of fewer is drawn that is its
beginning. -/
lemma outcome_ofCount_take (hc : c.maxDepth < 0xFFFFFFFFFFFFFFFF) (h : n ≤ m) {p : Program}
    (hp : ((ofCount c drawn m).run source s).outcome = .done p) :
    ((ofCount c drawn n).run source s).outcome = .done ⟨p.statements.take n.toNat⟩ := by
  have hle : n.toNat ≤ m.toNat := UInt64.le_iff_toNat_le.mp h
  obtain ⟨d, hd, rfl⟩ := outcome_run_ofCount_eq_done_iff.mp hp
  rw [← Nat.add_sub_cancel' hle, Draft.extend_add] at hd
  obtain ⟨d₁, hd₁, hd₂⟩ := Draw.exists_outcome_of_run_bind_done hd
  obtain ⟨ss, hlength, hss⟩ := Draft.exists_statements_of_outcome_extend hc hd₁
  obtain ⟨ss', -, hss'⟩ := Draft.exists_statements_of_outcome_extend hc hd₂
  have hsize : d₁.statements.toList.length = n.toNat := by
    rw [hss]
    simpa using hlength
  have htake : d.statements.toList.take n.toNat = d₁.statements.toList := by
    rw [hss', ← hsize, List.take_left]
  refine outcome_run_ofCount_eq_done_iff.mpr ⟨d₁, hd₁, ?_⟩
  rw [Draft.program, Draft.program, htake]

/-- The runs that draw programs of one configuration, for each fixed count and for none, extend
each other; `first` is what comes of drawing a number. -/
structure ExtendEachOther (runs : Option UInt64 → Run Remark σ Program)
    (first : Outcome UInt64) : Prop where
  /-- Where a program of more statements is drawn, one of fewer is drawn. Its tokens are the
  beginning of those of the other, and its statements are the first ones of the other. -/
  shorter : ∀ n m : UInt64, n ≤ m → ∀ p, (runs (some m)).outcome = .done p →
    ∃ q, (runs (some n)).outcome = .done q ∧ q.tokens <+: p.tokens ∧
      q.tokens.statements = p.tokens.statements.take n.toNat ∧
      p.tokens.statements.length = m.toNat
  /-- Fixing the count at the number that is drawn changes nothing. -/
  fixed : ∀ drawn, first = .done drawn → runs none = runs (some drawn)

/-- The beginning of a program is a beginning in tokens and in statements. -/
lemma tokens_take (p : Program) (n : Nat) :
    (⟨p.statements.take n⟩ : Program).tokens <+: p.tokens ∧
      (⟨p.statements.take n⟩ : Program).tokens.statements = p.tokens.statements.take n := by
  constructor
  · rw [tokens, tokens, List.map_take]
    exact Tokens.joined_take_prefix n _
  · rw [statements_tokens, statements_tokens, List.map_take]

end Program

open Program (ExtendEachOther ofCount)

/-- **Programs of one source extend each other**, from every state, and so do the programs of a
seed. Where one of `m` statements is drawn, so is one of `n` for every smaller `n`. Its tokens are
the beginning of the others, and it has the first `n` of the `m` statements that are found there.
A program without a fixed count is the one whose count is fixed at the number drawn first. -/
theorem program_extends {c : Config} (hc : c.maxDepth < 0xFFFFFFFFFFFFFFFF) :
    (∀ (σ : Type) (source : Source σ) (s : σ),
      ExtendEachOther (fun count => (Program.random { c with statements := count }).run source s)
        ((Draw.inRange c.fewest c.most : Draw Remark UInt64).run source s).outcome) ∧
    ∀ seed, ExtendEachOther (fun count => generate { c with statements := count } seed)
      ((Draw.inRange c.fewest c.most : Draw Remark UInt64).run Source.seeded
        (Keystream.ofSeed seed)).outcome := by
  have hextend : ∀ (σ : Type) (source : Source σ) (s : σ),
      ExtendEachOther (fun count => (Program.random { c with statements := count }).run source s)
        ((Draw.inRange c.fewest c.most : Draw Remark UInt64).run source s).outcome := by
    intro σ source s
    constructor
    · intro n m hnm p hp
      simp only [Program.random_withCount, Option.getD_some] at hp ⊢
      obtain ⟨drawn, hdrawn, hp⟩ := Draw.exists_outcome_of_run_bind_done hp
      obtain ⟨htokens, hstatements⟩ := p.tokens_take n.toNat
      refine ⟨⟨p.statements.take n.toNat⟩, ?_, htokens, hstatements, ?_⟩
      · rw [Draw.outcome_run_bind_of_done hdrawn]
        exact Program.outcome_ofCount_take hc hnm hp
      · rw [Program.statements_tokens, List.length_map]
        exact Program.length_of_outcome_ofCount hc hp
    · intro drawn hdrawn
      simp only [Program.random_withCount]
      exact Draw.run_bind_congr hdrawn rfl
  exact ⟨hextend, fun seed => hextend Keystream Source.seeded _⟩

/-- The programs of the default configuration on the source that answers with the least numbers,
which draws the count five. -/
theorem program_extends_first :
    ExtendEachOther (fun count => (Program.random { statements := count }).run Source.first ())
      (.done 5) :=
  (program_extends (c := {}) (by decide)).1 Unit Source.first ()

end RandomInstant
