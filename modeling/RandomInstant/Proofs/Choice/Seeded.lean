import RandomInstant.Choice.Seeded
import RandomInstant.Proofs.Choice.Conduct

/-!
# The seeded source is strict

Every bound is reduced to from words of a width of their own, and the reduction stays below the
bound: one wide multiplication cannot reach it (`Reduction.leading_lt`), and where a second word is
asked for the first result is not the last one yet (`Reduction.leading_add_one_lt`), so the carry
stays below the bound, too. Bounds beyond the words are no exception.

* **`Source.seeded_strict`**: the seeded source answers every positive bound below it, from every
  state of the keystream, and refuses the bound zero.
-/

namespace RandomInstant

namespace Reduction

variable {w x y n : Nat}

/-- A bound is read from a whole word or from half of one. -/
lemma width_eq (n : Nat) : width n = 32 ∨ width n = 64 := by
  unfold width
  split
  · exact .inl rfl
  · exact .inr rfl

/-- What a word gives is below the bound. -/
lemma leading_lt (hx : x < wordCount w) (hn : 0 < n) : leading w x n < n :=
  Nat.div_lt_of_lt_mul (Nat.mul_lt_mul_of_pos_right hx hn)

/-- A word that leaves the answer open gives less than the last one. -/
lemma leading_add_one_lt (hx : x < wordCount w) (h : isOpen w x n = true) :
    leading w x n + 1 < n := by
  have hopen : wordCount w - n < leftOver w x n := of_decide_eq_true h
  have hsplit := leading_mul_add_leftOver w x n
  have hword : (x + 1) * n ≤ wordCount w * n := Nat.mul_le_mul_right n hx
  rw [Nat.succ_mul] at hword
  -- were it the last one, the step above it would not leave room for what is left over
  apply Nat.lt_of_not_le
  intro hlast
  have hstep : wordCount w * n ≤ wordCount w * (leading w x n + 1) := Nat.mul_le_mul_left _ hlast
  rw [Nat.mul_succ] at hstep
  omega

/-- A second word does not carry the answer beyond the bound. -/
lemma refined_lt (hx : x < wordCount w) (h : isOpen w x n = true) : refined w x y n < n := by
  have hlt := leading_add_one_lt hx h
  unfold refined
  split
  · exact hlt
  · omega

end Reduction

namespace Keystream

/-- A word of a width is one of the words of this width. -/
lemma wide_lt {w : Nat} (hw : w = 32 ∨ w = 64) (s : Keystream) :
    (s.wide w).1 < Reduction.wordCount w := by
  rcases hw with rfl | rfl
  · exact s.word.1.toNat_lt
  · have hlow := s.word.1.toNat_lt
    have hhigh := s.word.2.word.1.toNat_lt
    show s.word.2.word.1.toNat * 4294967296 + s.word.1.toNat < 18446744073709551616
    omega

end Keystream

namespace Source

/-- Answers are below their bounds. -/
lemma reduced_lt {bound : Nat} (hb : 0 < bound) (s : Keystream) : (reduced bound s).1 < bound := by
  have hword := Keystream.wide_lt (Reduction.width_eq bound) s
  unfold reduced
  show (if Reduction.isOpen _ (s.wide (Reduction.width bound)).1 bound then _ else _ :
    Nat × Keystream).1 < bound
  split
  · next hopen => exact Reduction.refined_lt hword hopen
  · exact Reduction.leading_lt hword hb

/-- **The seeded source is strict.** -/
theorem seeded_strict : seeded.Strict where
  lawful bound s hb :=
    ⟨(reduced bound s).1, reduced_lt hb s, (reduced bound s).2, if_neg (Nat.ne_of_gt hb)⟩
  refuses s := ⟨.nothingToChoose, s, rfl⟩

end Source

end RandomInstant
