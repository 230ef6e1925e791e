import Mathlib.Tactic.Lemma
import RandomInstant.Token.Sequence

/-!
# Nesting of parentheses

The nesting of a sequence is the number of its opening parentheses less that of its closing ones.
A sequence is **balanced** if its nesting is zero and that of no beginning of it is negative. What
makes parentheses readable is that a balanced sequence in parentheses is closed by its last token
and by none before (`one_le_nesting_of_append_eq`).

Hence a group cannot straddle the tokens around it. Where a group occurs in two balanced sequences
with an operator between them, it occurs in one of the two (`infix_append_op`); where it occurs in
a balanced sequence in parentheses, it is all of that or occurs inside (`infix_parenthesize`).
-/

namespace RandomInstant

/-- What a token adds to the nesting. -/
def Token.nesting : Token → Int
  | lparen => 1
  | rparen => -1
  | _ => 0

namespace Tokens

variable {ts us p q : Tokens}

/-- The number of opening parentheses less that of closing ones. -/
def nesting : Tokens → Int
  | [] => 0
  | t :: ts => t.nesting + nesting ts

/-- Nothing opens no group. -/
@[simp]
lemma nesting_nil : nesting [] = 0 := rfl

/-- The first token counts, and so do the others. -/
@[simp]
lemma nesting_cons (t : Token) (ts : Tokens) : nesting (t :: ts) = t.nesting + nesting ts := rfl

/-- The groups that two sequences leave open add up. -/
@[simp]
lemma nesting_append (ts us : Tokens) : nesting (ts ++ us) = nesting ts + nesting us := by
  induction ts with
  | nil => exact (Int.zero_add _).symm
  | cons t ts ih => rw [List.cons_append, nesting_cons, nesting_cons, ih, Int.add_assoc]

/-- Parentheses come before and behind. -/
lemma parenthesize_def (ts : Tokens) : parenthesize ts = .lparen :: (ts ++ [.rparen]) := rfl

/-- Parentheses are two tokens more. -/
lemma length_parenthesize (ts : Tokens) : (parenthesize ts).length = ts.length + 2 := by
  rw [parenthesize_def, List.length_cons, List.length_append]
  rfl

/-- Every parenthesis that is opened is closed, and none is closed before. -/
structure Balanced (ts : Tokens) : Prop where
  /-- As many parentheses are opened as are closed. -/
  nesting_eq : nesting ts = 0
  /-- Nowhere have more been closed than opened. -/
  nesting_nonneg : ∀ p q, p ++ q = ts → 0 ≤ nesting p

namespace Balanced

/-- A token that is no parenthesis is balanced. -/
lemma singleton {t : Token} (h : t.nesting = 0) : Balanced [t] where
  nesting_eq := by simp [h]
  nesting_nonneg p q hpq := by
    obtain ⟨rfl, -⟩ | ⟨rfl, -⟩ := List.append_eq_singleton_iff.mp hpq <;> simp [h]

/-- Two balanced sequences are balanced one after the other. -/
lemma append (ht : Balanced ts) (hu : Balanced us) : Balanced (ts ++ us) where
  nesting_eq := by simp [ht.nesting_eq, hu.nesting_eq]
  nesting_nonneg p q hpq := by
    obtain ⟨r, rfl, -⟩ | ⟨r, rfl, hr⟩ := List.append_eq_append_iff.mp hpq
    · exact ht.nesting_nonneg p r rfl
    · have := hu.nesting_nonneg r q hr.symm
      simpa [ht.nesting_eq] using this

/-- An end of a balanced sequence closes at least what it opens. -/
lemma nesting_nonpos (h : Balanced ts) (hpq : p ++ q = ts) : nesting q ≤ 0 := by
  have hsum : nesting p + nesting q = 0 := by
    rw [← nesting_append, hpq, h.nesting_eq]
  have hp := h.nesting_nonneg p q hpq
  omega

/-- A balanced sequence in parentheses is not closed before its end. -/
lemma one_le_nesting_of_append_eq (h : Balanced ts) (hpq : p ++ q = parenthesize ts)
    (hp : p ≠ []) (hq : q ≠ []) : 1 ≤ nesting p := by
  obtain _ | ⟨t, p⟩ := p
  · exact absurd rfl hp
  · rw [parenthesize_def, List.cons_append, List.cons_eq_cons] at hpq
    obtain ⟨rfl, hpq⟩ := hpq
    have hp : 0 ≤ nesting p := by
      obtain ⟨r, rfl, -⟩ | ⟨r, rfl, hr⟩ := List.append_eq_append_iff.mp hpq
      · exact h.nesting_nonneg p r rfl
      · -- The closing parenthesis is left for the rest, so nothing of it is in `p`.
        obtain ⟨rfl, -⟩ | ⟨-, hnil⟩ := List.append_eq_singleton_iff.mp hr.symm
        · simp [h.nesting_eq]
        · exact absurd hnil hq
    simp only [nesting_cons, Token.nesting]
    omega

/-- A balanced sequence in parentheses leaves no group open. -/
lemma nesting_parenthesize (h : Balanced ts) : nesting (parenthesize ts) = 0 := by
  simp [parenthesize_def, Token.nesting, h.nesting_eq]

/-- A balanced sequence in parentheses is balanced. -/
protected lemma parenthesize (h : Balanced ts) : Balanced (parenthesize ts) where
  nesting_eq := h.nesting_parenthesize
  nesting_nonneg p q hpq := by
    by_cases hp : p = []
    · simp [hp]
    · by_cases hq : q = []
      · have hp : p = parenthesize ts := by simpa [hq] using hpq
        simp [hp, h.nesting_parenthesize]
      · have := h.one_le_nesting_of_append_eq hpq hp hq
        omega

end Balanced

/-! ## Where groups occur -/

/-- A group begins with no operator. -/
lemma op_cons_ne_parenthesize_append {o : Operator} :
    Token.op o :: p ≠ parenthesize ts ++ q := by
  simp [parenthesize_def]

/-- A group is no chain: its first parenthesis is open up to its end, and at the operator of a
chain nothing is. -/
lemma append_op_ne_parenthesize {o : Operator} {u : Tokens} (hu : Balanced u)
    (ht : Balanced ts) : ts ++ .op o :: us ≠ parenthesize u := by
  intro h
  by_cases hnil : ts = []
  · rw [hnil, List.nil_append] at h
    exact op_cons_ne_parenthesize_append (q := []) (by rw [List.append_nil, h])
  · have hopen := hu.one_le_nesting_of_append_eq h hnil (by simp)
    have hzero := ht.nesting_eq
    omega

/-- A group in two balanced sequences with an operator between them lies in one of the two: if
it reached over the operator, it would be open there, and the first sequence is not. -/
theorem infix_append_op {o : Operator} {u : Tokens} (hu : Balanced u) (ht : Balanced ts)
    (h : parenthesize u <:+: ts ++ .op o :: us) :
    parenthesize u <:+: ts ∨ parenthesize u <:+: us := by
  obtain ⟨p, q, h⟩ := h
  rw [List.append_assoc] at h
  obtain ⟨r, hr, hrest⟩ | ⟨r, hr, hrest⟩ := List.append_eq_append_iff.mp h
  · -- The group begins in `ts`, after `p`.
    obtain ⟨v, hv, hrest⟩ | ⟨v, hv, hrest⟩ := List.append_eq_append_iff.mp hrest
    · exact .inl ⟨p, v, by rw [hr, hv, List.append_assoc]⟩
    · obtain _ | ⟨t, v⟩ := v
      · exact .inl ⟨p, [], by rw [hr, hv]; simp⟩
      · exfalso
        by_cases hnil : r = []
        · obtain ⟨rfl, -⟩ := List.cons_eq_cons.mp hrest
          rw [hnil, List.nil_append] at hv
          exact op_cons_ne_parenthesize_append (q := []) (by rw [List.append_nil, hv])
        · have hopen := hu.one_le_nesting_of_append_eq hv.symm hnil (by simp)
          have hclosed := ht.nesting_nonpos hr.symm
          omega
  · -- The group begins after `ts`.
    obtain _ | ⟨t, r⟩ := r
    · exact absurd hrest op_cons_ne_parenthesize_append
    · rw [List.cons_append, List.cons_eq_cons] at hrest
      exact .inr ⟨r, q, by rw [hrest.2, List.append_assoc]⟩

/-- A group in a balanced sequence in parentheses is all of that or lies inside. -/
theorem infix_parenthesize {u : Tokens} (hu : Balanced u) (ht : Balanced ts)
    (h : parenthesize u <:+: parenthesize ts) : u = ts ∨ parenthesize u <:+: ts := by
  obtain ⟨p, q, h⟩ := h
  obtain _ | ⟨t, p⟩ := p
  · by_cases hq : q = []
    · left
      simpa [hq, parenthesize_def] using h
    · -- The group would be closed before the whole is.
      have hopen := ht.one_le_nesting_of_append_eq h (by simp [parenthesize_def]) hq
      rw [List.nil_append, hu.nesting_parenthesize] at hopen
      omega
  · rw [parenthesize_def ts, List.cons_append, List.cons_append, List.cons_eq_cons] at h
    obtain ⟨rfl, h⟩ := h
    rcases List.eq_nil_or_concat q with rfl | ⟨q, t, rfl⟩
    · -- The group would close the parenthesis before it.
      exfalso
      have hlast : p ++ .lparen :: u = ts := by
        have h : (p ++ .lparen :: u) ++ [.rparen] = ts ++ [.rparen] := by
          simpa [parenthesize_def] using h
        exact List.append_cancel_right h
      have hclosed := ht.nesting_nonneg p _ hlast
      have hsum := congrArg nesting hlast
      simp only [nesting_append, nesting_cons, Token.nesting, hu.nesting_eq, ht.nesting_eq] at hsum
      omega
    · right
      refine ⟨p, q, ?_⟩
      have h : (p ++ parenthesize u ++ q) ++ [t] = ts ++ [.rparen] := by
        simpa [List.append_assoc] using h
      exact (List.append_inj' h rfl).1

end Tokens

end RandomInstant
