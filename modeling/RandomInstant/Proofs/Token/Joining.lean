import Mathlib.Data.Set.Function
import RandomInstant.Proofs.Token.Cutting

/-!
# Joining what was cut

Cutting a sequence loses nothing: joined, its pieces are the sequence again. It also leaves no
separator behind, because a token that goes to the front of a piece does not begin a separator in
the sequence, and a piece begins as the sequence does. Together with what cutting makes of joined
pieces, this is a bijection between all sequences and the lists of unbroken pieces, with one
exception: the list of one empty piece is joined to the empty sequence, and so is the list of none.
`Tokens.statements` chooses the latter.

* `Tokens.joined_statements`, `Tokens.unbroken_of_mem_statements`: any sequence, cut and joined.
* `Tokens.statements_joined`: unbroken pieces, joined and cut.
* **`statements_bijOn`**: the bijection.
-/

namespace RandomInstant

namespace Tokens

variable {piece ts : Tokens} {pieces : List Tokens}

/-! ## Pieces of any sequence -/

/-- A token before joined pieces is one before the first of them. -/
lemma joined_cons_cons (t : Token) (piece : Tokens) (pieces : List Tokens) :
    joined ((t :: piece) :: pieces) = t :: joined (piece :: pieces) := by
  by_cases hp : pieces = []
  · simp [hp]
  · simp [joined_cons hp]

/-- **Joining undoes cutting.** -/
theorem joined_cut (ts : Tokens) : joined (cut ts) = ts := by
  fun_induction cut ts with
  | case1 => rfl
  | case2 rest ih =>
      rw [joined_cons (cut_ne_nil rest), ih]
      rfl
  | case3 t rest _ hcut => exact absurd hcut (cut_ne_nil rest)
  | case4 t rest _ piece pieces hcut ih => rw [joined_cons_cons, ← hcut, ih]

/-- The first piece is a beginning of the sequence. -/
lemma prefix_of_cut_eq (h : cut ts = piece :: pieces) : piece <+: ts := by
  have hjoined : joined (piece :: pieces) = ts := h ▸ joined_cut ts
  have hfirst := joined_take_prefix 1 (piece :: pieces)
  rwa [hjoined, List.take_succ_cons, List.take_zero, joined_singleton] at hfirst

/-- A token before an unbroken sequence leaves it unbroken, unless it begins a separator. -/
lemma Unbroken.cons {t : Token} (h : Unbroken ts)
    (ht : ∀ rest, t = .semi → ts = .newline :: rest → False) : Unbroken (t :: ts) := by
  intro hpart
  rcases List.infix_cons_iff.mp hpart with hbegin | hpart
  · obtain ⟨rest, hrest⟩ := hbegin
    obtain ⟨rfl, rfl⟩ := List.cons.inj hrest
    exact ht rest rfl rfl
  · exact h hpart

/-- **No separator is left in a piece.** -/
theorem unbroken_of_mem_cut (ts : Tokens) : ∀ piece ∈ cut ts, Unbroken piece := by
  have hnil : Unbroken [] := by simp [Unbroken, separator]
  fun_induction cut ts with
  | case1 => simpa using hnil
  | case2 rest ih => simpa using ⟨hnil, ih⟩
  | case3 t rest _ hcut => exact absurd hcut (cut_ne_nil rest)
  | case4 t rest ht piece pieces hcut ih =>
      rw [hcut, List.forall_mem_cons] at ih
      refine List.forall_mem_cons.mpr ⟨ih.1.cons ?_, ih.2⟩
      rintro _ rfl rfl
      -- the piece begins with a line break, so the rest of the sequence does
      obtain ⟨rest', rfl⟩ := prefix_of_cut_eq hcut
      exact ht _ rfl rfl

/-! ## Statements -/

/-- Joining undoes cutting, also where the empty sequence has no piece. -/
theorem joined_statements (ts : Tokens) : joined (statements ts) = ts := by
  by_cases h : ts = []
  · simp [h, statements]
  · rw [statements_of_ne_nil h, joined_cut]

/-- Statements are unbroken, as the pieces of a cut are. -/
lemma unbroken_of_mem_statements (ts : Tokens) : ∀ piece ∈ statements ts, Unbroken piece := by
  by_cases h : ts = []
  · simp [h, statements]
  · rw [statements_of_ne_nil h]
    exact unbroken_of_mem_cut ts

/-- Only no piece, or one that is empty, is joined to nothing. -/
lemma joined_eq_nil_iff : joined pieces = [] ↔ pieces = [] ∨ pieces = [[]] := by
  rcases pieces with _ | ⟨piece, pieces⟩
  · simp
  · by_cases hp : pieces = []
    · simp [hp]
    · simp [joined_cons hp, separator, hp]

/-- No sequence has one empty piece for its statements: it would be the empty one. -/
lemma statements_ne_singleton_nil (ts : Tokens) : statements ts ≠ [[]] := by
  intro h
  have hnil : ts = [] := by rw [← joined_statements ts, h, joined_singleton]
  rw [hnil] at h
  exact absurd h (by simp [statements])

/-- **Cutting undoes joining** of unbroken pieces, one empty piece apart. -/
theorem statements_joined (h : pieces ≠ [[]]) (unbroken : ∀ piece ∈ pieces, Unbroken piece) :
    statements (joined pieces) = pieces := by
  by_cases hp : pieces = []
  · simp [hp, statements]
  · have hne : joined pieces ≠ [] := fun hnil => (joined_eq_nil_iff.mp hnil).elim hp h
    rw [statements_of_ne_nil hne, cut_joined hp unbroken]

end Tokens

open Tokens

/-- **Statements are a bijection**, with joining as its inverse, from all sequences to the lists of
unbroken pieces other than that of one empty piece. The pieces may be empty, and they may end with a
semicolon or begin with a line break. The empty sequence has no statement. -/
theorem statements_bijOn :
    (∀ ts, joined (statements ts) = ts ∧ ∀ piece ∈ statements ts, Unbroken piece) ∧
    (∀ pieces, pieces ≠ [[]] → (∀ piece ∈ pieces, Unbroken piece) →
      statements (joined pieces) = pieces) ∧
    Set.BijOn statements Set.univ {pieces | pieces ≠ [[]] ∧ ∀ piece ∈ pieces, Unbroken piece} ∧
    statements [] = [] := by
  refine ⟨fun ts => ⟨joined_statements ts, unbroken_of_mem_statements ts⟩,
    fun pieces => statements_joined, ?_, rfl⟩
  have hinverse : Set.InvOn joined statements Set.univ
      {pieces | pieces ≠ [[]] ∧ ∀ piece ∈ pieces, Unbroken piece} :=
    ⟨fun ts _ => joined_statements ts, fun pieces h => statements_joined h.1 h.2⟩
  apply hinverse.bijOn
  · exact fun ts _ => ⟨statements_ne_singleton_nil ts, unbroken_of_mem_statements ts⟩
  · exact fun pieces _ => Set.mem_univ _

/-- Semicolons and line breaks next to a separator stay with their pieces, and empty pieces stay
where they are. -/
theorem statements_bijOn_overlaps :
    statements [.semi, .semi, .newline, .newline, .semi, .newline] = [[.semi], [.newline], []] :=
  statements_bijOn.2.1 [[.semi], [.newline], []] (by decide) (by
    simp [Unbroken, separator, List.infix_cons_iff])

end RandomInstant
