import Mathlib.Algebra.BigOperators.Fin
import RandomInstant.Proofs.Program.Scoping
import RandomInstant.Proofs.Program.Size

/-!
# How many questions are asked

The number of questions that an expression takes can be read off the expression: three for each
node, and one or two more for each value, as there are variables that it could refer to or not.
Neither parentheses nor literals nor the depth make a difference, because whether an expression is
a single value is asked also where the depth leaves no choice.

* `Expr.Drawn.questionCount_eq`: six questions for each operand where nothing is declared, seven
  where something is, and in both cases three less.
* `Statement.Series.questionCount_eq`: in a series each statement asks as its place makes it. What
  counts is declared by the statements before it, and never by the statement itself.
* **`question_count`**: both for the runs of lawful sources.
-/

namespace RandomInstant

variable {c : Config} {scope scope' : Scope} {r r' : List (Happening Remark)}

/-- The number of questions among what happens. -/
def questionCount (r : List (Happening Remark)) : Nat := (r.filterMap Happening.bound?).length

/-- Where nothing happens nothing is asked. -/
@[simp]
lemma questionCount_nil : questionCount [] = 0 := rfl

/-- An answer is one question more. -/
@[simp]
lemma questionCount_answered (bound x : Nat) (r : List (Happening Remark)) :
    questionCount (.answered bound x :: r) = questionCount r + 1 := rfl

/-- A note is no question. -/
@[simp]
lemma questionCount_noted (e : Remark) (r : List (Happening Remark)) :
    questionCount (.noted e :: r) = questionCount r := rfl

/-- Questions add up. -/
@[simp]
lemma questionCount_append (r r' : List (Happening Remark)) :
    questionCount (r ++ r') = questionCount r + questionCount r' := by
  unfold questionCount
  rw [List.filterMap_append, List.length_append]

/-! ## Values and expressions -/

/-- A value is one question where nothing is declared, and two where something is. -/
lemma Value.Drawn.questionCount_eq {v : Value} (h : v.Drawn c scope r) :
    questionCount r = if scope.size = 0 then 1 else 2 := by
  cases h with
  | onlyLiteral empty x =>
      rw [if_pos empty]
      rfl
  | literal nonempty hy x =>
      rw [if_neg nonempty]
      rfl
  | «variable» hi =>
      have hne : scope.size ≠ 0 := Nat.ne_of_gt (Nat.zero_lt_of_lt hi)
      rw [if_neg hne]
      rfl

/-- If each value of a scope is `n` questions, each operand of an expression is five more, for its
node and for the operator before it, and the first operand has no operator before it. -/
lemma Expr.Drawn.questionCount_add {n : Nat}
    (hn : ∀ {r : List (Happening Remark)} {v : Value}, v.Drawn c scope r → questionCount r = n)
    {depth : UInt64} {e : Expr} (h : e.Drawn c scope depth r) :
    questionCount r + 3 = (n + 5) * e.leaves := by
  induction h with
  | value hx hv y =>
      simp only [questionCount_answered, questionCount_append, questionCount_nil, hn hv, leaves]
      omega
  | binary hx hd hi hl hr y ihl ihr =>
      simp only [questionCount_answered, questionCount_append, questionCount_nil, leaves,
        Nat.mul_add]
      omega

/-- The number of questions for an expression with given tokens, where a number of names is
declared. -/
def Tokens.questions (declared : Nat) (ts : Tokens) : Nat :=
  (if declared = 0 then 6 else 7) * ts.operands - 3

/-- **The questions of an expression** are counted by its operands. -/
theorem Expr.Drawn.questionCount_eq {depth : UInt64} {e : Expr} (h : e.Drawn c scope depth r) :
    questionCount r = e.tokens.questions scope.size := by
  have hcount := h.questionCount_add Value.Drawn.questionCount_eq
  unfold Tokens.questions
  rw [e.operands_tokens]
  by_cases hs : scope.size = 0
  · rw [if_pos hs] at hcount ⊢
    omega
  · rw [if_neg hs] at hcount ⊢
    omega

/-! ## Statements -/

namespace Statement

/-- The number of names that statements declare. -/
def declarations (ss : List Statement) : Nat := (ss.filterMap assigned?).length

/-- The first statement declares a name or not, and the others declare theirs. -/
lemma declarations_cons (s : Statement) (ss : List Statement) :
    declarations (s :: ss) = s.assigned?.toList.length + declarations ss := by
  unfold declarations
  rw [filterMap_assigned?_cons, List.length_append]

/-- A statement asks one question more than its expression. -/
lemma Drawn.questionCount_eq {s : Statement} (h : Drawn c scope r s scope') :
    questionCount r = 1 + s.expr.tokens.questions scope.size := by
  cases h with
  | expression hx he =>
      rw [questionCount_answered, he.questionCount_eq, Nat.add_comm]
      rfl
  | assignment he fresh =>
      rw [questionCount_answered, questionCount_append, he.questionCount_eq, Nat.add_comm]
      rfl

/-- The scope after a statement is larger by the name that it declares. -/
lemma Drawn.size_eq {s : Statement} (h : Drawn c scope r s scope') :
    scope'.size = scope.size + s.assigned?.toList.length := by
  have hnames := congrArg List.length h.names_eq
  rwa [List.length_append, Array.length_toList, Array.length_toList] at hnames

/-- **The questions of a series**: each statement is drawn where the statements before it have
declared their names. -/
theorem Series.questionCount_eq {place : Nat} {ss : List Statement}
    (h : Series c place scope r ss scope') :
    questionCount r = ∑ i : Fin ss.length,
      (1 + ss[i].expr.tokens.questions (scope.size + declarations (ss.take i))) := by
  induction h with
  | nil place scope => rfl
  | @cons place scope scope₁ scope₂ r r' s ss h rest ih =>
      show _ = ∑ i : Fin (ss.length + 1),
        (1 + (s :: ss)[i].expr.tokens.questions (scope.size + declarations ((s :: ss).take i)))
      rw [questionCount_append, questionCount_noted, h.questionCount_eq, ih, h.size_eq,
        Fin.sum_univ_succ]
      refine congrArg₂ (· + ·) rfl (Finset.sum_congr rfl fun i _ => ?_)
      show _ = 1 + ss[i].expr.tokens.questions (scope.size + declarations (s :: ss.take i))
      rw [declarations_cons s (ss.take i), Nat.add_assoc]

end Statement

open Statement (declarations)

/-- A program asks one question before its statements. -/
lemma Program.Drawn.questionCount_eq {p : Program} (h : p.Drawn c r) :
    questionCount r = 1 + ∑ i : Fin p.statements.length,
      (1 + p.statements[i].expr.tokens.questions (declarations (p.statements.take i))) := by
  cases h with
  | intro range span hdrawn series length =>
      have hseries := series.questionCount_eq
      have hempty : ({} : Scope).size = 0 := rfl
      simp only [hempty, Nat.zero_add] at hseries
      rw [questionCount_answered, questionCount_noted, hseries, Nat.add_comm]

/-- **The number of questions is a function of what is drawn.** On a lawful source and with positive
odds, an expression with `L` operands has asked `6 * L - 3` questions if nothing is declared, and
`7 * L - 3` if something is. A program has asked one question for its count, and for each statement
one question and those of its expression, which are as many as the statements before it make them:
there is a variable to refer to once one of them is an assignment. -/
theorem question_count {c : Config} (hc : c.maxDepth < 0xFFFFFFFFFFFFFFFF)
    (odds : ∀ choice, 0 < c.odds choice) {σ : Type} {source : Source σ} (lawful : source.Lawful)
    (s : σ) :
    (∀ scope depth, ∃ e, ((Expr.random c scope depth).run source s).outcome = .done e ∧
      ((Expr.random c scope depth).run source s).bounds.length =
        e.tokens.questions scope.size) ∧
    (c.fewest ≤ c.most → c.most - c.fewest ≠ 0xFFFFFFFFFFFFFFFF →
      ∃ p, ((Program.random c).run source s).outcome = .done p ∧
        ((Program.random c).run source s).bounds.length = 1 + ∑ i : Fin p.statements.length,
          (1 + p.statements[i].expr.tokens.questions (declarations (p.statements.take i)))) := by
  have hsettled := c.settledBy_lawful odds
  refine ⟨fun scope depth => ?_, fun range span => ?_⟩
  · obtain ⟨e, he, -⟩ := (Expr.takes hsettled hc scope depth).outcome_run lawful.follows s
    have hdrawn := (Expr.course_random_iff hc).mp (Draw.course_of_outcome_eq he)
    exact ⟨e, he, hdrawn.questionCount_eq⟩
  · obtain ⟨p, hp, -⟩ := (Program.takes hsettled hc range span).outcome_run lawful.follows s
    have hdrawn := (Program.course_random_iff hc).mp (Draw.course_of_outcome_eq hp)
    exact ⟨p, hp, hdrawn.questionCount_eq⟩

/-- The questions of the program that the least answers draw by default. -/
theorem question_count_first :
    ∃ p, ((Program.random {}).run Source.first ()).outcome = .done p ∧
      ((Program.random {}).run Source.first ()).bounds.length = 1 + ∑ i : Fin p.statements.length,
        (1 + p.statements[i].expr.tokens.questions (declarations (p.statements.take i))) :=
  (question_count (c := {}) (by decide) (by rintro (_ | _ | _) <;> decide) Source.first_lawful
    ()).2 (by decide) (by decide)

end RandomInstant
