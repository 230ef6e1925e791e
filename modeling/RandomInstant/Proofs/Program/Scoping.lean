import RandomInstant.Proofs.Choice.Conduct
import RandomInstant.Proofs.Grammar.Derivation
import RandomInstant.Proofs.Program.Numbered

/-!
# Scoping and literals

What is drawn in a scope refers to names of the scope only, whatever the answers are, and its
literals are up to the greatest one as long as the answers are below their bounds.

* `Value.Drawn.over`, `Expr.Drawn.over`, `Statement.Drawn.over`: values and expressions are over
  the names of the scope, and over all literals that the answers stand for.
* `Statement.Series.over`: in a series, each statement's scope is that of the series and what the
  statements before it have declared.
* `Config.toNat_literal`, `Config.literal_le`: a number below the count of literals stands for the
  literal of the same value. Nothing is cut off by the 32 bits of a literal, also where the
  greatest literal is the greatest word.
-/

namespace RandomInstant

variable {c : Config} {scope : Scope} {r : List (Happening Remark)} {I : UInt32 → Prop}

namespace Config

/-- The literal for a number below the count of literals has the value of that number. -/
lemma toNat_literal {x : Nat} (h : x < c.maxLiteral.toNat + 1) :
    x.toUInt64.toUInt32.toNat = x := by
  have hmax := c.maxLiteral.toNat_lt
  rw [Nat.toUInt64_eq, UInt64.toUInt32_ofNat', UInt32.toNat_ofNat']
  exact Nat.mod_eq_of_lt (by omega)

/-- An answer to the question for a literal is not cut off, and not above the greatest literal. -/
lemma literal_le {x : Nat} (h : x < c.maxLiteral.toNat + 1) :
    x.toUInt64.toUInt32 ≤ c.maxLiteral := by
  rw [UInt32.le_iff_toNat_le, toNat_literal h]
  exact Nat.le_of_lt_succ h

end Config

/-- A drawn value is a name of the scope or the literal for an answer. -/
lemma Value.Drawn.over {v : Value} (h : v.Drawn c scope r)
    (hI : ∀ x, .answered (c.maxLiteral.toNat + 1) x ∈ r → I x.toUInt64.toUInt32) :
    v.Over (· ∈ scope.names) I := by
  cases h with
  | onlyLiteral _ x => exact hI x (by simp)
  | literal _ _ x => exact hI x (by simp)
  | «variable» hi => exact Array.getElem_mem hi

/-- All values of a drawn expression are names of the scope or literals for answers. -/
theorem Expr.Drawn.over {depth : UInt64} {e : Expr} (h : e.Drawn c scope depth r)
    (hI : ∀ x, .answered (c.maxLiteral.toNat + 1) x ∈ r → I x.toUInt64.toUInt32) :
    e.Over (· ∈ scope.names) I := by
  induction h with
  | value hx hv y => exact hv.over fun x hmem => hI x (by simp [hmem])
  | binary hx hd hi hl hr y ihl ihr =>
      exact ⟨ihl fun x hmem => hI x (by simp [hmem]), ihr fun x hmem => hI x (by simp [hmem])⟩

/-- Under a conduct that answers below bounds, the literals are up to the greatest one. -/
lemma Expr.Drawn.over_literals {depth : UInt64} {e : Expr} (h : e.Drawn c scope depth r)
    (below : ∀ bound x, 0 < bound → .answered bound x ∈ r → x < bound) :
    e.Over (· ∈ scope.names) (· ≤ c.maxLiteral) :=
  h.over fun _ hx => Config.literal_le (below _ _ (Nat.succ_pos _) hx)

namespace Statement

variable {scope' : Scope} {s : Statement} {ss : List Statement}

/-- A statement declares the name that it assigns to, after all others. -/
lemma Drawn.names_eq (h : Drawn c scope r s scope') :
    scope'.names.toList = scope.names.toList ++ s.assigned?.toList := by
  cases h with
  | expression hx he => simp [assigned?]
  | assignment he fresh => simp [assigned?]

/-- The expression of a statement is over the scope before the statement. -/
lemma Drawn.over (h : Drawn c scope r s scope')
    (hI : ∀ x, .answered (c.maxLiteral.toNat + 1) x ∈ r → I x.toUInt64.toUInt32) :
    s.expr.Over (· ∈ scope.names.toList) I := by
  simp only [Array.mem_toList_iff]
  cases h with
  | expression hx he => exact he.over fun x hmem => hI x (by simp [hmem])
  | assignment he fresh => exact he.over fun x hmem => hI x (by simp [hmem])

/-- **Scoping of a series**: each expression is over the scope before the series and the names
that the statements before its own assign to. -/
theorem Series.over {place : Nat} (h : Series c place scope r ss scope')
    (hI : ∀ x, .answered (c.maxLiteral.toNat + 1) x ∈ r → I x.toUInt64.toUInt32) {i : Nat}
    (hi : i < ss.length) :
    ss[i].expr.Over (· ∈ scope.names.toList ++ (ss.take i).filterMap assigned?) I := by
  induction h generalizing i with
  | nil place scope => exact absurd hi (Nat.not_lt_zero i)
  | @cons place scope scope₁ scope₂ r r' s ss h rest ih =>
      obtain _ | i := i
      · simpa using h.over fun x hmem => hI x (by simp [hmem])
      · have hrest := ih (fun x hmem => hI x (by simp [hmem])) (Nat.lt_of_succ_lt_succ hi)
        rw [h.names_eq, List.append_assoc] at hrest
        rw [List.take_succ_cons, filterMap_assigned?_cons]
        exact hrest

end Statement

end RandomInstant
