import RandomInstant.Program.Expr

/-!
# Statements and programs

A statement is an expression, or an assignment that ends with the variable it has just assigned: a
program that shows the value of every expression thus shows that of every variable, too. A program
is a sequence of statements.
-/

namespace RandomInstant

/-- The statements of a program. -/
inductive Statement where
  /-- An expression. -/
  | expression (e : Expr)
  /-- An assignment of an expression to a variable. -/
  | assignment (name : String) (e : Expr)
  deriving DecidableEq, Repr

namespace Statement

/-- The tokens of a statement. -/
def tokens : Statement → Tokens
  | expression e => e.tokens
  | assignment name e => .ident name :: .assign :: e.tokens ++ [.semi, .ident name]

/-- The expression in a statement. -/
def expr : Statement → Expr
  | expression e => e
  | assignment _ e => e

/-- The name that a statement assigns to. -/
def assigned? : Statement → Option String
  | expression _ => none
  | assignment name _ => some name

end Statement

/-- A program: its statements in order. -/
structure Program where
  /-- The statements. -/
  statements : List Statement
  deriving DecidableEq, Repr

namespace Program

/-- The tokens of a program: those of its statements, with a separator between every two. -/
def tokens (p : Program) : Tokens := Tokens.joined (p.statements.map Statement.tokens)

/-- The text of a program. -/
def text (p : Program) : String := p.tokens.text

end Program

end RandomInstant
