import RandomInstant.Token.Sequence

/-!
# Values and expressions

An expression is a value or an operator between two expressions, and either may stand in
parentheses, once. The parentheses are a mark on the node and not nodes of their own: so a pair
of parentheses directly within another cannot be written down at all.

What an expression means when it is read is another matter. Its tokens stand in the order of the
tree, but nothing marks the tree's grouping where there are no parentheses, and a reader's rules of
precedence may group the same tokens differently.
-/

namespace RandomInstant

/-! ## Values -/

/-- The operands of expressions. -/
inductive Value where
  /-- A reference to a variable. -/
  | variable (name : String)
  /-- An integer literal. -/
  | literal (value : UInt32)
  deriving DecidableEq, Repr

/-- A value as a token. -/
def Value.token : Value → Token
  | .variable name => .ident name
  | .literal value => .int value

/-! ## Expressions -/

/-- Expressions, each with a mark that says whether it stands in parentheses. -/
inductive Expr where
  /-- A single value. -/
  | value (v : Value) (parens : Bool)
  /-- An operator between two operands. -/
  | binary (o : Operator) (left right : Expr) (parens : Bool)
  deriving DecidableEq, Repr

namespace Expr

/-- A sequence, put between parentheses if the mark says so. -/
def enclose (parens : Bool) (ts : Tokens) : Tokens := if parens then ts.parenthesize else ts

/-- The tokens of an expression. -/
def tokens : Expr → Tokens
  | value v parens => enclose parens [v.token]
  | binary o left right parens => enclose parens (left.tokens ++ .op o :: right.tokens)

/-- The number of values in an expression. -/
def leaves : Expr → Nat
  | value _ _ => 1
  | binary _ left right _ => left.leaves + right.leaves

/-- The number of nodes of an expression that stand in parentheses. -/
def groups : Expr → Nat
  | value _ parens => parens.toNat
  | binary _ left right parens => left.groups + right.groups + parens.toNat

end Expr

end RandomInstant
