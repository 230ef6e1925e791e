import RandomInstant.Token

/-!
# Sequences of tokens

The text of a program is the texts of its tokens with single spaces between them. Statements are
separated by a semicolon that a line break directly follows; the semicolon inside an assignment is
followed by a name and separates nothing.

`Tokens.statements` cuts a sequence at its separators and `Tokens.joined` puts separators between
pieces. Cutting loses nothing, so the empty sequence, which could be no piece or one empty piece,
is cut into no piece at all.
-/

namespace RandomInstant

/-- A sequence of tokens. -/
abbrev Tokens := List Token

namespace Tokens

/-- The text of a sequence. -/
def text (ts : Tokens) : String := " ".intercalate (ts.map Token.text)

/-- The label of a sequence: the labels of its tokens between brackets. -/
def label (ts : Tokens) : String :=
  "Tokens([" ++ ", ".intercalate (ts.map Token.label) ++ "])"

/-- The names in a sequence, in order. -/
def idents (ts : Tokens) : List String := ts.filterMap Token.ident?

/-- The numbers in a sequence, in order. -/
def literals (ts : Tokens) : List UInt32 := ts.filterMap Token.int?

/-- A sequence between parentheses. -/
def parenthesize (ts : Tokens) : Tokens := .lparen :: ts ++ [.rparen]

/-- What stands between two statements. -/
def separator : Tokens := [.semi, .newline]

/-- The pieces between the separators of a sequence. There is always at least one, and it may be
empty. -/
def cut : Tokens → List Tokens
  | [] => [[]]
  | .semi :: .newline :: rest => [] :: cut rest
  | t :: rest =>
    match cut rest with
    | [] => [[t]]
    | piece :: pieces => (t :: piece) :: pieces

/-- The statements of a sequence: its pieces, of which the empty sequence has none. -/
def statements : Tokens → List Tokens
  | [] => []
  | t :: rest => cut (t :: rest)

/-- The pieces with a separator between every two of them. -/
def joined (pieces : List Tokens) : Tokens := separator.intercalate pieces

/-- Nothing is cut into one empty piece. -/
@[simp]
theorem cut_nil : cut [] = [[]] := by rw [cut]

/-- Before a separator a piece ends. -/
@[simp]
theorem cut_separator (rest : Tokens) : cut (.semi :: .newline :: rest) = [] :: cut rest := by
  rw [cut]

/-- There is always a piece. -/
theorem cut_ne_nil (ts : Tokens) : cut ts ≠ [] := by
  fun_cases cut ts with
  | case1 => simp
  | case2 rest => simp
  | case3 t rest _ h => simp
  | case4 t rest _ piece pieces h => simp

/-- A token that does not begin a separator goes to the front of the first piece. -/
theorem cut_cons {t : Token} {rest : Tokens}
    (h : ∀ rest', t = .semi → rest = .newline :: rest' → False) :
    cut (t :: rest) = (t :: (cut rest).head (cut_ne_nil rest)) :: (cut rest).tail := by
  rw [cut.eq_3 t rest h]
  split
  · next h' => exact absurd h' (cut_ne_nil rest)
  · next piece pieces h' => simp [h']

end Tokens

end RandomInstant
