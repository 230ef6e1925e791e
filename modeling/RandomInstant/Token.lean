import RandomInstant.Text.Field
import RandomInstant.Text.Quoted

/-!
# Tokens of Instant programs

The smallest parts of a program's text: names, numbers, operators and punctuation. A line break
counts as a token, since it takes part in separating statements.

Each token has a text, which is what stands in a program, and a label, which names its kind and
shows what it holds.
-/

namespace RandomInstant

/-! ## Operators -/

/-- The binary operators of arithmetic. -/
inductive Operator where
  /-- Addition. -/
  | add
  /-- Subtraction. -/
  | sub
  /-- Multiplication. -/
  | mul
  deriving DecidableEq, Repr

namespace Operator

/-- All operators, in the order in which one is picked. -/
def all : Array Operator := #[.add, .sub, .mul]

/-- The sign of an operator. -/
def text : Operator → String
  | .add => "+"
  | .sub => "-"
  | .mul => "*"

/-- The name of an operator. -/
def label : Operator → String
  | .add => "Add"
  | .sub => "Sub"
  | .mul => "Mul"

/-- No operator is missing from the list of them. -/
theorem mem_all (o : Operator) : o ∈ all := by cases o <;> simp [all]

end Operator

/-! ## Tokens -/

/-- The tokens of a program. -/
inductive Token where
  /-- The name of a variable. -/
  | ident (name : String)
  /-- An integer literal. -/
  | int (value : UInt32)
  /-- An operator. -/
  | op (o : Operator)
  /-- The sign of an assignment. -/
  | assign
  /-- The mark after a statement or after the expression of an assignment. -/
  | semi
  /-- A line break. -/
  | newline
  /-- An opening parenthesis. -/
  | lparen
  /-- A closing parenthesis. -/
  | rparen
  deriving DecidableEq, Repr

namespace Token

/-- The text of a token. -/
def text : Token → String
  | .ident name => name
  | .int value => value.toNat.repr
  | .op o => o.text
  | .assign => "="
  | .semi => ";"
  | .newline => "\n"
  | .lparen => "("
  | .rparen => ")"

/-- The label of a token. -/
def label : Token → String
  | .ident name => "Ident(" ++ Text.quoted name ++ ")"
  | .int value => "Int(" ++ value.toNat.repr ++ ")"
  | .op o => "Op(" ++ o.label ++ ")"
  | .assign => "Assign"
  | .semi => "Semi"
  | .newline => "Newline"
  | .lparen => "LParen"
  | .rparen => "RParen"

/-- A token laid out in a field: a literal as a number, everything else as a text. -/
def inField (f : Text.Field) : Token → String
  | .int value => f.number value.toNat
  | t => f.text t.text

/-- The name that a token holds. -/
def ident? : Token → Option String
  | .ident name => some name
  | _ => none

/-- The number that a token holds. -/
def int? : Token → Option UInt32
  | .int value => some value
  | _ => none

/-- Whether a token is an operand, that is, a name or a number. -/
def isOperand : Token → Bool
  | .ident _ => true
  | .int _ => true
  | _ => false

end Token

end RandomInstant
