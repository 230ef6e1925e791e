import RandomInstant.Program.Expr
import RandomInstant.Proofs.Grammar.Nesting

/-!
# The grammar of expressions

An expression is a chain of atoms with operators between them, and an atom is a name, a number or
an expression in parentheses: `Expr = Atom (Op Atom)*`, `Atom = Ident | Int | LParen Expr RParen`.
The grammar is one of token sequences and knows nothing of trees, of depth or of how a chain is
grouped. Which names and which numbers may stand in it are parameters.

The trees of `Program.Expr` have fewer words than the grammar, because a node stands in
parentheses once or not at all.

* `Expr.derives_tokens`: the tokens of every tree are derived.
* `Expr.doublesNoGroup_tokens`: they hold no group that consists of just another group.
* `Expr.exists_tokens_eq`: conversely, every derived sequence without such a group is that of some
  tree. **`Expr.tokens_eq_iff`** puts the three together.
* `Expr.treeHeight_lt_length`: the tree is less high than the sequence is long.
-/

namespace RandomInstant

namespace Grammar

open Tokens (parenthesize Balanced)

/-- The two kinds of phrases. -/
inductive Symbol where
  /-- A phrase that an operator may stand next to. -/
  | atom
  /-- A chain of atoms. -/
  | expr
  deriving DecidableEq, Repr

/-- The phrases over given names and numbers. -/
inductive Derives (V : String → Prop) (I : UInt32 → Prop) : Symbol → Tokens → Prop where
  /-- A name. -/
  | ident {x : String} (h : V x) : Derives V I .atom [.ident x]
  /-- A number. -/
  | int {i : UInt32} (h : I i) : Derives V I .atom [.int i]
  /-- An expression in parentheses. -/
  | group {ts : Tokens} (h : Derives V I .expr ts) : Derives V I .atom (.lparen :: ts ++ [.rparen])
  /-- A chain of one atom. -/
  | single {ts : Tokens} (h : Derives V I .atom ts) : Derives V I .expr ts
  /-- An atom and an operator before a chain. -/
  | chain {ts us : Tokens} (o : Operator) (h : Derives V I .atom ts)
      (rest : Derives V I .expr us) : Derives V I .expr (ts ++ .op o :: us)

variable {V : String → Prop} {I : UInt32 → Prop} {s : Symbol} {ts us : Tokens}

namespace Derives

/-- Phrases are balanced. -/
lemma balanced (h : Derives V I s ts) : Balanced ts := by
  induction h with
  | ident h => exact .singleton rfl
  | int h => exact .singleton rfl
  | group h ih => exact ih.parenthesize
  | single h ih => exact ih
  | @chain ts us o h rest ih ihrest =>
      have hop : Balanced [.op o] := .singleton rfl
      exact ih.append (hop.append ihrest)

/-- Two chains with an operator between them are a chain. -/
lemma op (o : Operator) (h : Derives V I .expr ts) (rest : Derives V I .expr us) :
    Derives V I .expr (ts ++ .op o :: us) := by
  generalize hs : Symbol.expr = s at h
  induction h with
  | ident h => cases hs
  | int h => cases hs
  | group h ih => cases hs
  | single h ih => exact .chain o h rest
  | chain o' h _ _ ih =>
      rw [List.append_assoc, List.cons_append]
      exact .chain o' h (ih rfl)

/-- All names in a phrase are among the given ones. -/
lemma of_ident_mem (h : Derives V I s ts) {x : String} (hx : .ident x ∈ ts) : V x := by
  induction h with
  | ident h =>
      obtain rfl : x = _ := by simpa using hx
      exact h
  | int h => simp at hx
  | group h ih => exact ih (by simpa using hx)
  | single h ih => exact ih hx
  | chain o h rest ih ihrest =>
      obtain hx | hx : Token.ident x ∈ _ ∨ Token.ident x ∈ _ := by simpa using hx
      · exact ih hx
      · exact ihrest hx

end Derives

/-- No group in a sequence consists of just another group. -/
def DoublesNoGroup (V : String → Prop) (I : UInt32 → Prop) (w : Tokens) : Prop :=
  ∀ u, Derives V I .expr u → ¬ (.lparen :: .lparen :: u ++ [.rparen, .rparen]) <:+: w

/-- A group that consists of just another group is a sequence that is put in parentheses twice. -/
lemma doublesNoGroup_iff {w : Tokens} : DoublesNoGroup V I w ↔
    ∀ u, Derives V I .expr u → ¬ parenthesize (parenthesize u) <:+: w := by
  simp [DoublesNoGroup, parenthesize]

/-- What doubles no group does so in none of its parts. -/
lemma DoublesNoGroup.mono {w w' : Tokens} (h : DoublesNoGroup V I w) (hw : w' <:+: w) :
    DoublesNoGroup V I w' :=
  fun u hu hpart => h u hu (hpart.trans hw)

end Grammar

open Grammar

variable {V : String → Prop} {I : UInt32 → Prop}

/-! ## Trees over names and numbers -/

/-- A value is over given names and numbers if it is one of them. -/
def Value.Over (V : String → Prop) (I : UInt32 → Prop) : Value → Prop
  | «variable» name => V name
  | literal value => I value

namespace Expr

/-- A tree is over given names and numbers if all its values are. -/
def Over (V : String → Prop) (I : UInt32 → Prop) : Expr → Prop
  | value v _ => v.Over V I
  | binary _ left right _ => left.Over V I ∧ right.Over V I

/-- The number of operators above the deepest values of a tree. -/
def treeHeight : Expr → Nat
  | value _ _ => 0
  | binary _ left right _ => max left.treeHeight right.treeHeight + 1

/-- An expression is derived whether or not it stands in parentheses. -/
lemma derives_enclose {parens : Bool} {ts : Tokens} (h : Derives V I .expr ts) :
    Derives V I .expr (enclose parens ts) := by
  cases parens with
  | false => exact h
  | true => exact .single (.group h)

/-- **Soundness of trees for the grammar.** -/
theorem derives_tokens {e : Expr} (h : e.Over V I) : Derives V I .expr e.tokens := by
  induction e with
  | value v parens =>
      apply derives_enclose
      cases v with
      | «variable» name => exact .single (.ident h)
      | literal value => exact .single (.int h)
  | binary o left right parens ihl ihr =>
      exact derives_enclose ((ihl h.1).op o (ihr h.2))

/-- No node of a tree stands in parentheses twice. -/
theorem doublesNoGroup_tokens {e : Expr} (h : e.Over V I) : DoublesNoGroup V I e.tokens := by
  rw [doublesNoGroup_iff]
  intro u hu
  have hbalanced := hu.balanced.parenthesize
  induction e with
  | value v parens =>
      intro hpart
      have hlength := hpart.length_le
      have htokens : (value v parens).tokens.length ≤ 3 := by
        cases parens with
        | false => exact Nat.le_add_left 1 2
        | true => exact Nat.le_refl 3
      rw [Tokens.length_parenthesize, Tokens.length_parenthesize] at hlength
      omega
  | binary o left right parens ihl ihr =>
      have hleft := (derives_tokens h.1).balanced
      have hbare : ¬ (u.parenthesize).parenthesize <:+: left.tokens ++ .op o :: right.tokens := by
        intro hpart
        rcases Tokens.infix_append_op hbalanced hleft hpart with hpart | hpart
        · exact ihl h.1 hpart
        · exact ihr h.2 hpart
      cases parens with
      | false => exact hbare
      | true =>
          intro hpart
          have hbody := ((derives_tokens h.1).op o (derives_tokens h.2)).balanced
          rcases Tokens.infix_parenthesize hbalanced hbody hpart with heq | hpart
          · exact Tokens.append_op_ne_parenthesize hu.balanced hleft heq.symm
          · exact hbare hpart

/-- A tree either stands in parentheses, around another tree, or can be put in parentheses. -/
lemma exists_parenthesize {e : Expr} (h : e.Over V I) :
    (∃ e' : Expr, e'.Over V I ∧ e.tokens = e'.tokens.parenthesize) ∨
      ∃ e' : Expr, e'.Over V I ∧ e'.tokens = e.tokens.parenthesize := by
  cases e with
  | value v parens =>
      cases parens with
      | false => exact .inr ⟨.value v true, h, rfl⟩
      | true => exact .inl ⟨.value v false, h, rfl⟩
  | binary o left right parens =>
      cases parens with
      | false => exact .inr ⟨.binary o left right true, h, rfl⟩
      | true => exact .inl ⟨.binary o left right false, h, rfl⟩

/-- **Completeness of trees**, by induction on the derivation. A chain is grouped to the right; a
group takes its parentheses as the mark of the node inside, which has none yet. -/
theorem exists_tokens_eq {s : Symbol} {w : Tokens} (h : Derives V I s w)
    (hdouble : DoublesNoGroup V I w) : ∃ e : Expr, e.Over V I ∧ e.tokens = w := by
  induction h with
  | @ident x h => exact ⟨.value (.variable x) false, h, rfl⟩
  | @int i h => exact ⟨.value (.literal i) false, h, rfl⟩
  | @group ts h ih =>
      have hts : ts <:+: ts.parenthesize := ⟨[.lparen], [.rparen], rfl⟩
      obtain ⟨e, he, rfl⟩ := ih (hdouble.mono hts)
      rcases exists_parenthesize he with ⟨e', he', heq⟩ | he'
      · rw [heq] at hdouble
        have hnot := doublesNoGroup_iff.mp hdouble e'.tokens (derives_tokens he')
        exact absurd (List.infix_refl _) hnot
      · exact he'
  | single h ih => exact ih hdouble
  | @chain ts us o h rest ih ihrest =>
      obtain ⟨left, hleft, rfl⟩ := ih (hdouble.mono ⟨[], .op o :: us, rfl⟩)
      obtain ⟨right, hright, rfl⟩ := ihrest (hdouble.mono ⟨left.tokens ++ [.op o], [], by simp⟩)
      exact ⟨.binary o left right false, ⟨hleft, hright⟩, rfl⟩

/-- **The words of trees**: those of the grammar without a group in a group. -/
theorem tokens_eq_iff {w : Tokens} :
    (∃ e : Expr, e.Over V I ∧ e.tokens = w) ↔
      Derives V I .expr w ∧ DoublesNoGroup V I w := by
  constructor
  · rintro ⟨e, he, rfl⟩
    exact ⟨derives_tokens he, doublesNoGroup_tokens he⟩
  · rintro ⟨h, hdouble⟩
    exact exists_tokens_eq h hdouble

/-- Parentheses make nothing shorter. -/
lemma length_le_length_enclose (parens : Bool) (ts : Tokens) :
    ts.length ≤ (enclose parens ts).length := by
  cases parens with
  | false => exact Nat.le_refl _
  | true =>
      rw [enclose, if_pos rfl, Tokens.length_parenthesize]
      exact Nat.le_add_right _ 2

/-- Each level of a tree has an operator of its own, and there is one value more. -/
lemma treeHeight_lt_length (e : Expr) : e.treeHeight < e.tokens.length := by
  induction e with
  | value v parens =>
      exact Nat.lt_of_lt_of_le Nat.one_pos (length_le_length_enclose parens [v.token])
  | binary o left right parens ihl ihr =>
      have hlength := length_le_length_enclose parens (left.tokens ++ .op o :: right.tokens)
      rw [List.length_append, List.length_cons] at hlength
      have hmax : max left.treeHeight right.treeHeight + 1 ≤
          left.tokens.length + right.tokens.length := by
        omega
      exact Nat.lt_of_lt_of_le (Nat.lt_succ_of_le hmax) hlength

end Expr

end RandomInstant
