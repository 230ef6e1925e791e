import RandomInstant.Proofs.Program.Scoping

/-!
# The language of drawn expressions

Which token sequences can an expression come out as? All that the grammar derives over the names
of the scope and the literals up to the greatest, except those in which a group consists of just
another group; and, below a given greatest depth, certainly all that are not longer than it.

A sequence is said to come from a script if the script, read by the drawing of an expression at
depth one, leads to it and is used up (`Expr.FromScript`).

* `Expr.exists_drawn`: every tree over the scope that is not too high is drawn by answers below
  their bounds, where the odds leave both ways of every choice open.
* **`expression_fromScript_iff`**: the language.
-/

namespace RandomInstant

open Grammar (Derives DoublesNoGroup)

variable {c : Config} {scope : Scope}

/-- A name of the scope and a literal up to the greatest can be drawn. -/
lemma Value.exists_drawn {v : Value} (h : v.Over (· ∈ scope.names) (· ≤ c.maxLiteral)) :
    ∃ r, v.Drawn c scope r ∧ ∀ bound x, .answered bound x ∈ r → x < bound := by
  cases v with
  | «variable» name =>
      obtain ⟨i, hi, rfl⟩ := Array.mem_iff_getElem.mp h
      refine ⟨_, .variable hi, fun bound x hx => ?_⟩
      obtain ⟨rfl, rfl⟩ | ⟨rfl, rfl⟩ : (bound = 2 ∧ x = 0) ∨ (bound = scope.size ∧ x = i) := by
        simpa using hx
      · exact Nat.two_pos
      · exact hi
  | literal value =>
      have hvalue : value.toNat < c.maxLiteral.toNat + 1 :=
        Nat.lt_succ_of_le (UInt32.le_iff_toNat_le.mp h)
      have hliteral : value.toNat.toUInt64.toUInt32 = value :=
        UInt32.toNat_inj.mp (Config.toNat_literal hvalue)
      by_cases hs : scope.size = 0
      · have hdrawn := Drawn.onlyLiteral (c := c) hs value.toNat
        rw [hliteral] at hdrawn
        refine ⟨_, hdrawn, fun bound x hx => ?_⟩
        obtain ⟨rfl, rfl⟩ : bound = c.maxLiteral.toNat + 1 ∧ x = value.toNat := by
          simpa using hx
        exact hvalue
      · have hdrawn := Drawn.literal (c := c) hs Nat.one_ne_zero value.toNat
        rw [hliteral] at hdrawn
        refine ⟨_, hdrawn, fun bound x hx => ?_⟩
        obtain ⟨rfl, rfl⟩ | ⟨rfl, rfl⟩ :
            (bound = 2 ∧ x = 1) ∨ (bound = c.maxLiteral.toNat + 1 ∧ x = value.toNat) := by
          simpa using hx
        · exact Nat.one_lt_two
        · exact hvalue

namespace Expr

/-- Both marks of a node can be drawn where the odds are not one. -/
lemma exists_mark {n : UInt64} (h : 2 ≤ n) (parens : Bool) :
    ∃ y < n.toNat, (y == 0) = parens := by
  have hn : 2 ≤ n.toNat := UInt64.le_iff_toNat_le.mp h
  cases parens with
  | false => exact ⟨1, hn, rfl⟩
  | true => exact ⟨0, Nat.lt_of_lt_of_le Nat.two_pos hn, rfl⟩

/-- Every tree over the scope whose operators are not too deep can be drawn. -/
theorem exists_drawn (hc : c.maxDepth < 0xFFFFFFFFFFFFFFFF) (leaf : 2 ≤ c.leafOdds)
    (paren : 2 ≤ c.parenOdds) {e : Expr} (h : e.Over (· ∈ scope.names) (· ≤ c.maxLiteral))
    {depth : UInt64} (hdepth : depth.toNat + e.treeHeight ≤ c.maxDepth.toNat + 1) :
    ∃ r, e.Drawn c scope depth r ∧ ∀ bound x, .answered bound x ∈ r → x < bound := by
  have hleaf : 2 ≤ c.leafOdds.toNat := UInt64.le_iff_toNat_le.mp leaf
  induction e generalizing depth with
  | value v parens =>
      obtain ⟨r, hv, hr⟩ := Value.exists_drawn h
      obtain ⟨y, hy, rfl⟩ := exists_mark paren parens
      refine ⟨_, .value (.inl rfl) hv y, fun bound x hx => ?_⟩
      obtain ⟨rfl, rfl⟩ | hx | ⟨rfl, rfl⟩ : (bound = c.leafOdds.toNat ∧ x = 0) ∨
          .answered bound x ∈ r ∨ (bound = c.parenOdds.toNat ∧ x = y) := by simpa using hx
      · omega
      · exact hr bound x hx
      · exact hy
  | binary o left right parens ihl ihr =>
      have hheight : treeHeight (.binary o left right parens) =
          max left.treeHeight right.treeHeight + 1 := rfl
      have hmax : c.maxDepth.toNat < 0xFFFFFFFFFFFFFFFF := UInt64.lt_iff_toNat_lt.mp hc
      have hd : ¬ c.maxDepth < depth := by
        rw [UInt64.lt_iff_toNat_lt]
        omega
      have hsucc : (depth + 1).toNat = depth.toNat + 1 := by
        rw [UInt64.toNat_add, UInt64.toNat_one]
        exact Nat.mod_eq_of_lt (by omega)
      have hleft : (depth + 1).toNat + left.treeHeight ≤ c.maxDepth.toNat + 1 := by omega
      have hright : (depth + 1).toNat + right.treeHeight ≤ c.maxDepth.toNat + 1 := by omega
      obtain ⟨r₁, hl, hr₁⟩ := ihl h.1 hleft
      obtain ⟨r₂, hr, hr₂⟩ := ihr h.2 hright
      obtain ⟨i, hi, rfl⟩ := Array.mem_iff_getElem.mp (Operator.mem_all o)
      obtain ⟨y, hy, rfl⟩ := exists_mark paren parens
      refine ⟨_, .binary Nat.one_ne_zero hd hi hl hr y, fun bound x hx => ?_⟩
      obtain ⟨rfl, rfl⟩ | ⟨rfl, rfl⟩ | hx | hx | ⟨rfl, rfl⟩ :
          (bound = c.leafOdds.toNat ∧ x = 1) ∨ (bound = Operator.all.size ∧ x = i) ∨
          .answered bound x ∈ r₁ ∨ .answered bound x ∈ r₂ ∨
          (bound = c.parenOdds.toNat ∧ x = y) := by simpa using hx
      · exact hleaf
      · exact hi
      · exact hr₁ bound x hx
      · exact hr₂ bound x hx
      · exact hy

/-- A sequence comes from a script if the script leads to it and is used up. -/
def FromScript (c : Config) (scope : Scope) (w : Tokens) : Prop :=
  ∃ script e, ((random c scope 1).run Source.scripted script).outcome = .done e ∧
    ((random c scope 1).run Source.scripted script).state = [] ∧ e.tokens = w

end Expr

/-- **The language of drawn expressions.** Where the odds leave both ways of every choice open,
the sequences that come from scripts are derived by the grammar, over the names of the scope and
the literals up to the greatest, and hold no group that consists of just another group; and such
a sequence comes from a script if it is not longer than the greatest depth. -/
theorem expression_fromScript_iff {c : Config} (hc : c.maxDepth < 0xFFFFFFFFFFFFFFFF)
    (leaf : 2 ≤ c.leafOdds) (paren : 2 ≤ c.parenOdds) (scope : Scope) (w : Tokens) :
    (Expr.FromScript c scope w →
      Derives (· ∈ scope.names) (· ≤ c.maxLiteral) .expr w ∧
        DoublesNoGroup (· ∈ scope.names) (· ≤ c.maxLiteral) w) ∧
    (w.length ≤ c.maxDepth.toNat →
      (Expr.FromScript c scope w ↔
        Derives (· ∈ scope.names) (· ≤ c.maxLiteral) .expr w ∧
          DoublesNoGroup (· ∈ scope.names) (· ≤ c.maxLiteral) w)) := by
  have honly : Expr.FromScript c scope w →
      Derives (· ∈ scope.names) (· ≤ c.maxLiteral) .expr w ∧
        DoublesNoGroup (· ∈ scope.names) (· ≤ c.maxLiteral) w := by
    rintro ⟨script, e, hdone, -, rfl⟩
    have hdrawn := (Expr.course_random_iff hc).mp (Draw.course_of_outcome_eq hdone)
    have hkeeps := Source.scripted_follows.keeps (Expr.random c scope 1) script
    exact Expr.tokens_eq_iff.mp
      ⟨e, hdrawn.over_literals fun bound x _ hx => hkeeps _ hx, rfl⟩
  refine ⟨honly, fun hlength => ⟨honly, fun h => ?_⟩⟩
  obtain ⟨e, hover, rfl⟩ := Expr.tokens_eq_iff.mpr h
  have hheight := e.treeHeight_lt_length
  have hdepth : (1 : UInt64).toNat + e.treeHeight ≤ c.maxDepth.toNat + 1 := by
    rw [UInt64.toNat_one]
    omega
  obtain ⟨r, hdrawn, hr⟩ := Expr.exists_drawn hc leaf paren hover hdepth
  have hrun := Draw.run_scripted ((Expr.course_random_iff hc).mpr hdrawn) hr []
  exact ⟨_, e, by rw [hrun], by rw [hrun], rfl⟩

/-- By default, and where nothing is declared, a literal comes in one pair of parentheses and
never in two. -/
theorem expression_fromScript_parenthesized :
    Expr.FromScript {} {} [.lparen, .int 3, .rparen] ∧
      ¬ Expr.FromScript {} {} [.lparen, .lparen, .int 3, .rparen, .rparen] := by
  have hint : Derives (· ∈ (#[] : Array String)) (· ≤ (20 : UInt32)) .expr [.int 3] :=
    .single (.int (by decide))
  refine ⟨?_, fun h => ?_⟩
  · refine ((expression_fromScript_iff (c := {}) (by decide) (by decide) (by decide) {} _).2
      (by decide)).mpr ⟨.single (.group hint), fun u hu hpart => ?_⟩
    have hlength := hpart.length_le
    simp only [List.length_cons, List.length_append, List.length_nil] at hlength
    omega
  · have hdoubles := ((expression_fromScript_iff (c := {}) (by decide) (by decide) (by decide)
      {} _).1 h).2
    exact hdoubles _ hint (List.infix_refl _)

end RandomInstant
