import Mathlib.Algebra.Group.Nat.Defs
import RandomInstant.Proofs.Program.Totality

/-!
# The size of expressions

How many tokens of each kind a drawn expression has. Its shape settles all counts but two: an
expression with `L` operands has `L - 1` operators, and with `P` opening parentheses it has `P`
closing ones, whatever was drawn (`Expr.countP_tokens`, one induction for all kinds of tokens). The
depth bounds `L`, since each level above the greatest depth at most doubles it, and the number of
nodes bounds `P`.

* `Expr.Drawn.leaves_le`, `Expr.Drawn.leaves_eq_one`: the bounds on operands.
* `Expr.Drawn.leaves_eq_two_pow`, `Expr.Drawn.groups_of_greatest`: the greatest answers attain them,
  with no parentheses or with all of them as the odds have it.
* **`expression_size`**: all of this for the runs of lawful sources, and of `Source.last`.
-/

namespace RandomInstant

variable {c : Config} {scope : Scope} {depth : UInt64} {r : List (Happening Remark)} {e : Expr}

/-! ## Counting tokens -/

/-- Whether a token is an operator. -/
def Token.isOperator : Token → Bool
  | .op _ => true
  | _ => false

namespace Tokens

/-- The number of names and integer literals in a sequence. -/
def operands (ts : Tokens) : Nat := ts.countP Token.isOperand

/-- The number of operators in a sequence. -/
def operators (ts : Tokens) : Nat := ts.countP Token.isOperator

/-- The number of opening parentheses in a sequence. -/
def openings (ts : Tokens) : Nat := ts.count .lparen

/-- The number of closing parentheses in a sequence. -/
def closings (ts : Tokens) : Nat := ts.count .rparen

/-- A token is counted in front of the others. -/
lemma countP_cons_eq_add (p : Token → Bool) (t : Token) (ts : Tokens) :
    (t :: ts).countP p = ts.countP p + (p t).toNat := by
  rw [List.countP_cons]
  cases p t <;> rfl

end Tokens

namespace Expr

open Tokens (countP_cons_eq_add)

/-- A mark adds the two parentheses to what is counted. -/
lemma countP_enclose (p : Token → Bool) (parens : Bool) (ts : Tokens) :
    (enclose parens ts).countP p =
      ts.countP p + ((p .lparen).toNat + (p .rparen).toNat) * parens.toNat := by
  cases parens with
  | false => rfl
  | true =>
      rw [enclose, if_pos rfl, Tokens.parenthesize, List.countP_append, countP_cons_eq_add,
        countP_cons_eq_add, List.countP_nil, Bool.toNat_true]
      omega

/-- **Counting the tokens of a tree.** What counts all operands alike, and all operators, comes to
one operator less than there are operands, and to each pair of parentheses once. -/
theorem countP_tokens (p : Token → Bool) (operand operator pair : Nat)
    (hoperand : ∀ v : Value, (p v.token).toNat = operand)
    (hoperator : ∀ o, (p (.op o)).toNat = operator)
    (hpair : (p .lparen).toNat + (p .rparen).toNat = pair) (e : Expr) :
    e.tokens.countP p + operator = (operand + operator) * e.leaves + pair * e.groups := by
  induction e with
  | value v parens =>
      rw [tokens, countP_enclose, hpair, countP_cons_eq_add, hoperand, List.countP_nil, leaves,
        groups]
      omega
  | binary o left right parens ihl ihr =>
      rw [tokens, countP_enclose, hpair, List.countP_append, countP_cons_eq_add, hoperator, leaves,
        groups, Nat.mul_add, Nat.mul_add, Nat.mul_add]
      omega

/-- The operands are the leaves of the tree. -/
lemma operands_tokens (e : Expr) : e.tokens.operands = e.leaves := by
  have h := countP_tokens Token.isOperand 1 0 0 (fun v => by cases v <;> rfl) (fun _ => rfl) rfl e
  simpa [Tokens.operands] using h

/-- There is one operator less than there are leaves. -/
lemma operators_tokens (e : Expr) : e.tokens.operators + 1 = e.leaves := by
  have h := countP_tokens Token.isOperator 0 1 0 (fun v => by cases v <;> rfl) (fun _ => rfl) rfl e
  simpa [Tokens.operators] using h

/-- There is an opening parenthesis for each group. -/
lemma openings_tokens (e : Expr) : e.tokens.openings = e.groups := by
  have h := countP_tokens (· == .lparen) 0 0 1 (fun v => by cases v <;> rfl) (fun _ => rfl) rfl e
  simpa [Tokens.openings, List.count] using h

/-- There is a closing parenthesis for each group. -/
lemma closings_tokens (e : Expr) : e.tokens.closings = e.groups := by
  have h := countP_tokens (· == .rparen) 0 0 1 (fun v => by cases v <;> rfl) (fun _ => rfl) rfl e
  simpa [Tokens.closings, List.count] using h

/-- The length of an expression is that of its operands, its operators and its parentheses. -/
lemma length_tokens (e : Expr) : e.tokens.length + 1 = 2 * e.leaves + 2 * e.groups := by
  have h := countP_tokens (fun _ => true) 1 1 2 (fun _ => rfl) (fun _ => rfl) rfl e
  simpa using h

/-- There are fewer nodes than twice the leaves, so there are not more groups. -/
lemma groups_lt (e : Expr) : e.groups < 2 * e.leaves := by
  induction e with
  | value v parens =>
      have hmark := parens.toNat_le
      rw [groups, leaves]
      omega
  | binary o left right parens ihl ihr =>
      have hmark := parens.toNat_le
      rw [groups, leaves]
      omega

/-! ## Bounds by the depth -/

/-- One level deeper is one doubling less to go. -/
lemma rise_succ (hc : c.maxDepth < 0xFFFFFFFFFFFFFFFF) (hd : ¬ c.maxDepth < depth) :
    c.maxDepth.toNat + 1 - depth.toNat = c.maxDepth.toNat + 1 - (depth + 1).toNat + 1 := by
  have hheight := height_succ hc hd
  unfold height at hheight
  omega

/-- There is a leaf in every tree. -/
lemma leaves_pos (e : Expr) : 0 < e.leaves := by
  have h := e.operators_tokens
  omega

/-- Every level up to the greatest depth at most doubles the leaves. -/
theorem Drawn.leaves_le (hc : c.maxDepth < 0xFFFFFFFFFFFFFFFF) (h : e.Drawn c scope depth r) :
    e.leaves ≤ 2 ^ (c.maxDepth.toNat + 1 - depth.toNat) := by
  induction h with
  | value hx hv y => exact Nat.one_le_two_pow
  | binary hx hd hi hl hr y ihl ihr =>
      rw [rise_succ hc hd, pow_succ, leaves]
      omega

/-- Beyond the greatest depth there is one leaf. -/
lemma Drawn.leaves_eq_one (hd : c.maxDepth < depth) (h : e.Drawn c scope depth r) :
    e.leaves = 1 := by
  cases h with
  | value hx hv y => rfl
  | binary hx hd' hi hl hr y => exact absurd hd hd'

/-! ## The greatest answers -/

/-- With the greatest answers only the depth makes leaves, and every level doubles them. -/
theorem Drawn.leaves_eq_two_pow (hc : c.maxDepth < 0xFFFFFFFFFFFFFFFF) (leaf : 2 ≤ c.leafOdds)
    (h : e.Drawn c scope depth r) (keeps : ∀ a ∈ r, a.Keeps .greatest) :
    e.leaves = 2 ^ (c.maxDepth.toNat + 1 - depth.toNat) := by
  induction h with
  | @value depth r v x hx hv y =>
      have hleaf : 2 ≤ c.leafOdds.toNat := UInt64.le_iff_toNat_le.mp leaf
      have hx0 : x ≠ 0 := by
        rw [Ne, Conduct.eq_zero_iff_of_greatest (Nat.lt_of_lt_of_le Nat.two_pos hleaf)
          (keeps _ (.head _))]
        omega
      have hd : c.maxDepth.toNat < depth.toNat :=
        UInt64.lt_iff_toNat_lt.mp (hx.resolve_left hx0)
      rw [Nat.sub_eq_zero_of_le hd, pow_zero, leaves]
  | binary hx hd hi hl hr y ihl ihr =>
      rw [rise_succ hc hd, pow_succ, leaves, ihl fun a ha => keeps a (by simp [ha]),
        ihr fun a ha => keeps a (by simp [ha])]
      omega

/-- Where all marks are drawn alike, all nodes stand in parentheses or none does. -/
lemma Drawn.groups_add_eq (h : e.Drawn c scope depth r) {mark : Bool}
    (hmark : ∀ y, .answered c.parenOdds.toNat y ∈ r → (y == 0) = mark) :
    e.groups + mark.toNat = 2 * (mark.toNat * e.leaves) := by
  induction h with
  | value hx hv y =>
      rw [groups, leaves, hmark y (by simp)]
      omega
  | binary hx hd hi hl hr y ihl ihr =>
      have hleft := ihl fun y hy => hmark y (by simp [hy])
      have hright := ihr fun y hy => hmark y (by simp [hy])
      rw [groups, leaves, hmark y (by simp), Nat.mul_add]
      omega

/-- With the greatest answers all nodes stand in parentheses if the odds are one. -/
lemma Drawn.groups_of_greatest (paren : 0 < c.parenOdds) (h : e.Drawn c scope depth r)
    (keeps : ∀ a ∈ r, a.Keeps .greatest) :
    (2 ≤ c.parenOdds → e.groups = 0) ∧ (c.parenOdds = 1 → e.groups + 1 = 2 * e.leaves) := by
  have hpos : 0 < c.parenOdds.toNat := UInt64.lt_iff_toNat_lt.mp paren
  have hmark : ∀ y, .answered c.parenOdds.toNat y ∈ r →
      (y == 0) = decide (c.parenOdds.toNat = 1) := fun y hy =>
    (Bool.eq_iff_iff.mpr (by
      rw [beq_iff_eq, decide_eq_true_iff]
      exact Conduct.eq_zero_iff_of_greatest hpos (keeps _ hy)))
  have hgroups := h.groups_add_eq hmark
  constructor
  · intro hodds
    have hne : c.parenOdds.toNat ≠ 1 := Nat.ne_of_gt (UInt64.le_iff_toNat_le.mp hodds)
    simpa [hne] using hgroups
  · intro hodds
    simpa [hodds] using hgroups

end Expr

/-- What the tokens of an expression drawn at a depth count up to. -/
structure Tokens.Sized (c : Config) (depth : UInt64) (ts : Tokens) : Prop where
  /-- There is an operand. -/
  one_le : 1 ≤ ts.operands
  /-- Up to the greatest depth each level doubles the number of operands at most. -/
  le_two_pow : depth ≤ c.maxDepth → ts.operands ≤ 2 ^ (c.maxDepth.toNat + 1 - depth.toNat)
  /-- Beyond the greatest depth there is one operand. -/
  capped : c.maxDepth < depth → ts.operands = 1
  /-- From depth one there are as many doublings as the greatest depth says. -/
  top : depth = 1 → ts.operands ≤ 2 ^ c.maxDepth.toNat
  /-- An operator stands between every two operands. -/
  operators_eq : ts.operators = ts.operands - 1
  /-- Each parenthesis that is opened is closed. -/
  closings_eq : ts.closings = ts.openings
  /-- Each node of the tree is parenthesized at most once. -/
  openings_le : ts.openings ≤ 2 * ts.operands - 1
  /-- There are no tokens of other kinds. -/
  length_eq : ts.length = 2 * ts.operands - 1 + 2 * ts.openings

/-- The tokens of a drawn expression are of the size that its depth allows. -/
lemma Expr.Drawn.sized (hc : c.maxDepth < 0xFFFFFFFFFFFFFFFF) (h : e.Drawn c scope depth r) :
    e.tokens.Sized c depth := by
  have hleaves := h.leaves_le hc
  have hoperands := e.operands_tokens
  have hoperators := e.operators_tokens
  have hgroups := e.groups_lt
  have hlength := e.length_tokens
  have hopenings := e.openings_tokens
  refine ⟨?_, fun _ => ?_, fun hd => ?_, ?_, ?_, ?_, ?_, ?_⟩
  · rw [hoperands]
    exact e.leaves_pos
  · rwa [hoperands]
  · rw [hoperands]
    exact h.leaves_eq_one hd
  · rintro rfl
    rwa [hoperands]
  · omega
  · rw [hopenings, e.closings_tokens]
  · omega
  · omega

/-- **The size of expressions.** From every state of a lawful source, with positive odds, an
expression is drawn. The counts of its tokens follow from that of its operands and that of its
parentheses, the operands are bounded by the depth, and the parentheses by the operands. The bounds
are attained, at every depth and whatever is declared: with the greatest answers, and where the
odds do not make every expression a leaf, the operands are as many as the depth allows, and either
no or every operand and operation stands in parentheses. -/
theorem expression_size {c : Config} (hc : c.maxDepth < 0xFFFFFFFFFFFFFFFF)
    (odds : ∀ choice, 0 < c.odds choice) (scope : Scope) (depth : UInt64) :
    (∀ {σ : Type} (source : Source σ), source.Lawful → ∀ s, ∃ e,
      ((Expr.random c scope depth).run source s).outcome = .done e ∧ e.tokens.Sized c depth) ∧
    (2 ≤ c.leafOdds → ∃ e, ((Expr.random c scope depth).run Source.last ()).outcome = .done e ∧
      e.tokens.operands = 2 ^ (c.maxDepth.toNat + 1 - depth.toNat) ∧
      (2 ≤ c.parenOdds → e.tokens.openings = 0) ∧
      (c.parenOdds = 1 → e.tokens.openings = 2 * e.tokens.operands - 1)) := by
  have hdraws : ∀ {σ : Type} {source : Source σ}, source.Lawful → ∀ s, ∃ e,
      ((Expr.random c scope depth).run source s).outcome = .done e ∧
        e.Drawn c scope depth ((Expr.random c scope depth).run source s).record.toList := by
    intro σ source lawful s
    obtain ⟨e, he, -⟩ := (Expr.takes (c.settledBy_lawful odds) hc scope depth).outcome_run
      lawful.follows s
    exact ⟨e, he, (Expr.course_random_iff hc).mp (Draw.course_of_outcome_eq he)⟩
  refine ⟨fun source lawful s => ?_, fun leaf => ?_⟩
  · obtain ⟨e, he, hdrawn⟩ := hdraws lawful s
    exact ⟨e, he, hdrawn.sized hc⟩
  · obtain ⟨e, he, hdrawn⟩ := hdraws Source.last_lawful ()
    have hkeeps := Source.last_follows.keeps (Expr.random c scope depth) ()
    obtain ⟨hnone, hall⟩ := hdrawn.groups_of_greatest (odds .parenthesization) hkeeps
    refine ⟨e, he, ?_, fun paren => ?_, fun paren => ?_⟩
    · rw [e.operands_tokens]
      exact hdrawn.leaves_eq_two_pow hc leaf hkeeps
    · rw [e.openings_tokens]
      exact hnone paren
    · have hgroups := hall paren
      rw [e.openings_tokens, e.operands_tokens]
      omega

/-- The default configuration draws 1024 operands at most from depth one, and can draw them. -/
theorem expression_size_greatest :
    ∃ e, ((Expr.random {} {} 1).run Source.last ()).outcome = .done e ∧
      e.tokens.operands = 2 ^ 10 ∧ e.tokens.openings = 0 := by
  obtain ⟨e, he, hoperands, hnone, -⟩ := (expression_size (c := {}) (by decide)
    (by rintro (_ | _ | _) <;> decide) {} 1).2 (by decide)
  exact ⟨e, he, hoperands, hnone (by decide)⟩

end RandomInstant
