import Mathlib.Tactic.Lemma
import RandomInstant.Program.Statement

/-!
# Cutting what was joined

Pieces that hold no separator come back when their sequence is cut, whatever else they hold: they
may be empty, and they may end in a semicolon or begin with a line break next to a separator. A
statement holds no separator, because it holds no line break; so the statements of a program can be
told from its tokens.

* `Tokens.joined_cons`, `Tokens.joined_append`: sequences of one piece more, or of more pieces.
* **`Tokens.cut_joined`**: cutting undoes joining.
* **`Program.statements_tokens`**: the statements that the tokens of a program are cut into are the
  tokens of its statements.
-/

namespace RandomInstant

namespace Tokens

variable {piece ts : Tokens} {pieces : List Tokens}

/-! ## Joining -/

/-- No pieces are joined to nothing. -/
@[simp]
lemma joined_nil : joined [] = [] := rfl

/-- One piece is joined to itself. -/
@[simp]
lemma joined_singleton (piece : Tokens) : joined [piece] = piece := List.intercalate_singleton

/-- A piece before others is followed by a separator. -/
lemma joined_cons (h : pieces ≠ []) :
    joined (piece :: pieces) = piece ++ separator ++ joined pieces :=
  List.intercalate_cons_of_ne_nil h

/-- Pieces before others are followed by a separator. -/
lemma joined_append {pieces' : List Tokens} (h : pieces ≠ []) (h' : pieces' ≠ []) :
    joined (pieces ++ pieces') = joined pieces ++ separator ++ joined pieces' := by
  induction pieces with
  | nil => exact absurd rfl h
  | cons piece pieces ih =>
      by_cases hp : pieces = []
      · subst hp
        rw [List.singleton_append, joined_cons h', joined_singleton]
      · have happend : pieces ++ pieces' ≠ [] := List.append_ne_nil_of_left_ne_nil hp pieces'
        rw [List.cons_append, joined_cons happend, joined_cons hp, ih hp]
        simp only [List.append_assoc]

/-- The first of some pieces, joined, are the beginning of all of them, joined. -/
lemma joined_take_prefix (n : Nat) (pieces : List Tokens) :
    joined (pieces.take n) <+: joined pieces := by
  by_cases htake : pieces.take n = []
  · rw [htake]
    exact List.nil_prefix
  · by_cases hdrop : pieces.drop n = []
    · have hall : pieces.take n = pieces := List.take_of_length_le (List.drop_eq_nil_iff.mp hdrop)
      simp only [hall, List.prefix_refl]
    · have hall : joined pieces =
          joined (pieces.take n) ++ separator ++ joined (pieces.drop n) := by
        rw [← joined_append htake hdrop, List.take_append_drop]
      rw [hall, List.append_assoc]
      exact List.prefix_append _ _

/-- Changing the tokens of joined pieces, separators apart, is changing them in each piece. -/
lemma joined_map {f : Token → Token} (hf : separator.map f = separator) (pieces : List Tokens) :
    joined (pieces.map (List.map f)) = (joined pieces).map f := by
  induction pieces with
  | nil => rfl
  | cons piece pieces ih =>
      by_cases hp : pieces = []
      · subst hp
        rw [List.map_singleton, joined_singleton, joined_singleton]
      · have hmap : pieces.map (List.map f) ≠ [] := by simpa using hp
        rw [List.map_cons, joined_cons hmap, joined_cons hp, ih, List.map_append, List.map_append,
          hf]

/-- The pieces of a sequence that is not empty are all joined into it. -/
lemma joined_ne_nil (h : pieces ≠ []) (hpieces : ∀ piece ∈ pieces, piece ≠ []) :
    joined pieces ≠ [] := by
  obtain ⟨piece, pieces, rfl⟩ := List.exists_cons_of_ne_nil h
  have hpiece := hpieces piece (.head _)
  by_cases hp : pieces = []
  · subst hp
    rwa [joined_singleton]
  · rw [joined_cons hp, List.append_assoc]
    exact List.append_ne_nil_of_left_ne_nil hpiece _

/-! ## Cutting -/

/-- A sequence is unbroken if there is no separator in it. -/
def Unbroken (ts : Tokens) : Prop := ¬ separator <:+: ts

/-- What has no line break in it is unbroken. -/
lemma unbroken_of_newline_not_mem (h : .newline ∉ ts) : Unbroken ts :=
  fun hpart => h (hpart.subset (by simp [separator]))

/-- A token that does not begin a separator goes to the front of the first piece. -/
lemma cut_cons_of_cut_eq {t : Token} (h : ∀ rest, t = .semi → ts = .newline :: rest → False)
    (hcut : cut ts = piece :: pieces) : cut (t :: ts) = (t :: piece) :: pieces := by
  rw [cut_cons h]
  simp only [hcut, List.head_cons, List.tail_cons]

/-- An unbroken sequence is one piece. -/
lemma cut_of_unbroken (h : Unbroken piece) : cut piece = [piece] := by
  induction piece with
  | nil => exact cut_nil
  | cons t piece ih =>
      refine cut_cons_of_cut_eq ?_ (ih fun hpart => h (hpart.trans (List.suffix_cons t _).isInfix))
      rintro rest rfl rfl
      exact h (List.prefix_append separator rest).isInfix

/-- The first piece is what stands before the first separator. -/
lemma cut_append_separator (h : Unbroken piece) (ts : Tokens) :
    cut (piece ++ separator ++ ts) = piece :: cut ts := by
  induction piece with
  | nil => exact cut_separator ts
  | cons t piece ih =>
      refine cut_cons_of_cut_eq ?_ (ih fun hpart => h (hpart.trans (List.suffix_cons t _).isInfix))
      intro rest ht hrest
      -- the separator begins with a semicolon, so the line break is one of the piece
      cases piece with
      | nil => cases hrest
      | cons t' piece =>
          obtain rfl : t' = .newline := (List.cons.inj hrest).1
          subst ht
          exact h (List.prefix_append separator piece).isInfix

/-- **Cutting undoes joining** of unbroken pieces. -/
theorem cut_joined (h : pieces ≠ []) (unbroken : ∀ piece ∈ pieces, Unbroken piece) :
    cut (joined pieces) = pieces := by
  induction pieces with
  | nil => exact absurd rfl h
  | cons piece pieces ih =>
      have hpiece := unbroken piece (.head _)
      by_cases hp : pieces = []
      · subst hp
        rw [joined_singleton, cut_of_unbroken hpiece]
      · rw [joined_cons hp, cut_append_separator hpiece,
          ih hp fun p hmem => unbroken p (.tail _ hmem)]

/-- A sequence with tokens in it has its pieces for statements. -/
lemma statements_of_ne_nil (h : ts ≠ []) : statements ts = cut ts := by
  obtain ⟨t, ts, rfl⟩ := List.exists_cons_of_ne_nil h
  rfl

end Tokens

/-! ## Statements of programs -/

/-- There is no line break in an expression. -/
lemma Expr.newline_not_mem_tokens (e : Expr) : .newline ∉ e.tokens := by
  have henclose : ∀ {parens : Bool} {ts : Tokens},
      .newline ∉ ts → .newline ∉ enclose parens ts := by
    intro parens ts h
    cases parens with
    | false => exact h
    | true => simpa [enclose, Tokens.parenthesize] using h
  induction e with
  | value v parens =>
      apply henclose
      cases v <;> simp [Value.token]
  | binary o left right parens ihl ihr =>
      apply henclose
      simp [ihl, ihr]

/-- An expression is not empty. -/
lemma Expr.tokens_ne_nil (e : Expr) : e.tokens ≠ [] := by
  cases e with
  | value v parens => cases parens <;> simp [tokens, enclose, Tokens.parenthesize]
  | binary o left right parens => cases parens <;> simp [tokens, enclose, Tokens.parenthesize]

namespace Statement

/-- Line breaks stand only between statements. -/
lemma newline_not_mem_tokens (s : Statement) : .newline ∉ s.tokens := by
  cases s with
  | expression e => exact e.newline_not_mem_tokens
  | assignment name e => simpa [tokens] using e.newline_not_mem_tokens

/-- A statement is not empty. -/
lemma tokens_ne_nil (s : Statement) : s.tokens ≠ [] := by
  cases s with
  | expression e => exact e.tokens_ne_nil
  | assignment name e => simp [tokens]

end Statement

/-- **The statements of a program** are found in its tokens: the semicolon inside an assignment is
taken for no separator. -/
theorem Program.statements_tokens (p : Program) :
    p.tokens.statements = p.statements.map Statement.tokens := by
  by_cases h : p.statements.map Statement.tokens = []
  · rw [tokens, h]
    rfl
  · have hne : ∀ piece ∈ p.statements.map Statement.tokens, piece ≠ [] := by
      simpa using fun s _ => s.tokens_ne_nil
    have hunbroken : ∀ piece ∈ p.statements.map Statement.tokens, Tokens.Unbroken piece := by
      simpa using fun s _ => Tokens.unbroken_of_newline_not_mem s.newline_not_mem_tokens
    rw [tokens, Tokens.statements_of_ne_nil (Tokens.joined_ne_nil h hne),
      Tokens.cut_joined h hunbroken]

end RandomInstant
