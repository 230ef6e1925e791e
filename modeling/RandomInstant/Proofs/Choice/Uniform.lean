import Mathlib.Algebra.Order.Floor.Div
import Mathlib.Data.Finset.Prod
import Mathlib.Data.Nat.ModEq
import Mathlib.Order.Interval.Finset.Nat
import RandomInstant.Proofs.Choice.Seeded

/-!
# The seeded source is as uniform as words allow

A number below a bound is reduced from one word or from two, and yet it is always the number that
the double word of the two gives by one wide multiplication: where the second word is not drawn it
could not have carried. The double words that give one number are an interval, and the intervals of
all numbers are equally long up to one, so no number is preferred by more than what is left when the
double words are divided among the numbers.

* `Reduction.reduce_eq`: one wide multiplication instead of two.
* `isShare_card_filter`: a wide multiplication takes to each of its results as many numbers as to
  the others, or one more.
* `Keystream.nextTwo`, and `Keystream.nextTwo_ofPair`: the next two words can be any two words.
* `Source.reduced_fst_eq`: the seeded source multiplies the next two words.
* `Draw.pairsTo`: the pairs of words with which a decision takes a result, counted for a number
  below a bound (`Draw.isShare_pairsTo_number`) and carried over to ranges (`Draw.pairsTo_inRange`).
* **`seeded_uniform`**: the answers of the seeded source, and what is drawn from a range with them.
-/

namespace RandomInstant

open Finset

variable {w x y n v : Nat}

/-! ## One wide multiplication -/

namespace Reduction

/-- The double word of two words, reduced in two steps: what the first gives, and what the rest of
it and the second together carry. -/
lemma double_div (hword : 0 < wordCount w) :
    (x * wordCount w + y) * n / (wordCount w * wordCount w) =
      leading w x n + (leftOver w x n + leading w y n) / wordCount w := by
  calc (x * wordCount w + y) * n / (wordCount w * wordCount w)
      = (wordCount w * (x * n) + y * n) / wordCount w / wordCount w := by
        rw [Nat.div_div_eq_div_mul, Nat.add_mul, Nat.mul_right_comm, Nat.mul_comm (x * n)]
    _ = (x * n + leading w y n) / wordCount w := by rw [Nat.mul_add_div hword, leading]
    _ = (wordCount w * leading w x n + (leftOver w x n + leading w y n)) / wordCount w := by
        rw [← leading_mul_add_leftOver w x n, Nat.add_assoc]
    _ = leading w x n + (leftOver w x n + leading w y n) / wordCount w := Nat.mul_add_div hword _ _

/-- **Reduction is one wide multiplication**, whether or not the second word is drawn. -/
theorem reduce_eq (hn : 0 < n) (hle : n ≤ wordCount w) (hy : y < wordCount w) :
    reduce w x y n = (x * wordCount w + y) * n / (wordCount w * wordCount w) := by
  have hword : 0 < wordCount w := Nat.zero_lt_of_lt hy
  have hleft : leftOver w x n < wordCount w := Nat.mod_lt _ hword
  have hsecond : leading w y n < n := leading_lt hy hn
  rw [double_div hword]
  unfold reduce refined
  split
  · split
    · next hcarry =>
        -- the two parts are less than two steps
        rw [Nat.div_eq_of_lt_le (by omega) (by omega : _ < (1 + 1) * wordCount w)]
    · next hcarry => rw [Nat.div_eq_of_lt (Nat.lt_of_not_le hcarry), Nat.add_zero]
  · next hopen =>
      have hroom : ¬ wordCount w - n < leftOver w x n := fun h => hopen (decide_eq_true h)
      rw [Nat.div_eq_of_lt (by omega), Nat.add_zero]

/-- A bound fits in the words of its width. -/
lemma le_wordCount_width (hn : n ≤ wordCount 64) : n ≤ wordCount (width n) := by
  unfold width
  split
  · next h => exact Nat.le_of_lt h
  · exact hn

/-- Half a word is enough for the bounds that fit into one. -/
lemma width_eq_ite (n : Nat) : width n = if n ≤ 2 ^ 32 - 1 then 32 else 64 :=
  if_congr (Nat.lt_iff_le_pred (Nat.two_pow_pos 32)) rfl rfl

end Reduction

/-! ## Shares -/

/-- A share of a quantity that is divided among parts as evenly as whole numbers allow. -/
def IsShare (quantity parts share : Nat) : Prop :=
  share = quantity / parts ∨ share = quantity ⌈/⌉ parts

/-- From one number to that which is a quantity later there are a share of it many multiples. -/
lemma isShare_ceilDiv_sub {N a : Nat} (hn : 0 < n) :
    IsShare N n ((a + N) ⌈/⌉ n - a ⌈/⌉ n) := by
  have hstep : (a + N) ⌈/⌉ n =
      a ⌈/⌉ n + (N / n + if n ≤ (a + n - 1) % n + N % n then 1 else 0) := by
    rw [Nat.ceilDiv_eq_add_pred_div, Nat.ceilDiv_eq_add_pred_div, ← Nat.add_assoc,
      ← Nat.add_div hn]
    congr 1
    omega
  rw [hstep, Nat.add_sub_cancel_left]
  split
  · next hcarry =>
      have hrest : (a + n - 1) % n < n := Nat.mod_lt _ hn
      have hpred : n - 1 < n := Nat.sub_lt hn Nat.one_pos
      refine .inr ?_
      rw [Nat.ceilDiv_eq_add_pred_div, Nat.add_sub_assoc hn, Nat.add_div hn, Nat.div_eq_of_lt hpred,
        Nat.mod_eq_of_lt hpred, if_pos (by omega), Nat.add_zero]
  · exact .inl rfl

/-- The numbers that a wide multiplication takes to a result are an interval. -/
lemma mul_div_eq_iff {N z : Nat} (hN : 0 < N) (hn : 0 < n) :
    z * n / N = v ↔ v * N ⌈/⌉ n ≤ z ∧ z < (v * N + N) ⌈/⌉ n := by
  rw [ceilDiv_le_iff_le_mul hn, lt_iff_lt_of_le_iff_le (ceilDiv_le_iff_le_mul hn),
    Nat.div_eq_iff hN, Nat.mul_comm n z]
  omega

/-- **A wide multiplication takes a share of all numbers to each of its results.** -/
theorem isShare_card_filter {N : Nat} (hN : 0 < N) (hv : v < n) :
    IsShare N n #{z ∈ range N | z * n / N = v} := by
  have hn : 0 < n := Nat.zero_lt_of_lt hv
  have hinterval : {z ∈ range N | z * n / N = v} = Ico (v * N ⌈/⌉ n) ((v * N + N) ⌈/⌉ n) := by
    ext z
    rw [mem_filter, mem_range, mem_Ico, ← mul_div_eq_iff hN hn, and_iff_right_iff_imp]
    rintro rfl
    -- beyond the numbers the results are beyond the bound
    apply Nat.lt_of_not_le
    intro hz
    exact Nat.not_le_of_lt hv ((Nat.le_div_iff_mul_le hN).mpr (by
      rw [Nat.mul_comm]
      exact Nat.mul_le_mul_right n hz))
  rw [hinterval, Nat.card_Ico]
  exact isShare_ceilDiv_sub hn

/-- Pairs of words are counted as double words. -/
lemma card_filter_pairs (w : Nat) (P : Nat → Prop) [DecidablePred P] :
    #{p ∈ range (2 ^ w) ×ˢ range (2 ^ w) | P (p.1 * 2 ^ w + p.2)} =
      #{z ∈ range (2 ^ (2 * w)) | P z} := by
  have hsquare : 2 ^ (2 * w) = 2 ^ w * 2 ^ w := by rw [Nat.two_mul, Nat.pow_add]
  have hword : 0 < 2 ^ w := Nat.two_pow_pos w
  refine card_nbij' (fun p => p.1 * 2 ^ w + p.2) (fun z => (z / 2 ^ w, z % 2 ^ w)) ?_ ?_ ?_ ?_
  · rintro ⟨x, y⟩ hp
    obtain ⟨⟨hx, hy⟩, hP⟩ : (x < 2 ^ w ∧ y < 2 ^ w) ∧ P (x * 2 ^ w + y) := by simpa using hp
    have hdouble : x * 2 ^ w + y < 2 ^ w * 2 ^ w := by
      rw [Nat.mul_comm x]
      exact Nat.mul_add_lt_mul_of_lt_of_lt hx hy
    simpa [hsquare] using ⟨hdouble, hP⟩
  · intro z hz
    obtain ⟨hz, hP⟩ : z < 2 ^ w * 2 ^ w ∧ P z := by simpa [hsquare] using hz
    simpa [Nat.div_add_mod', Nat.mod_lt _ hword] using ⟨Nat.div_lt_of_lt_mul hz, hP⟩
  · rintro ⟨x, y⟩ hp
    obtain ⟨⟨-, hy⟩, -⟩ : (x < 2 ^ w ∧ y < 2 ^ w) ∧ P (x * 2 ^ w + y) := by simpa using hp
    simp [Nat.mul_add_div, Nat.mul_comm x, hword, Nat.div_eq_of_lt hy, Nat.mod_eq_of_lt hy]
  · exact fun z _ => Nat.div_add_mod' z (2 ^ w)

/-! ## The next two words -/

namespace Keystream

/-- The next two words of a width. -/
def nextTwo (w : Nat) (s : Keystream) : Nat × Nat := ((s.wide w).1, ((s.wide w).2.wide w).1)

/-- A keystream put after a word of a width. -/
def after (w x : Nat) (s : Keystream) : Keystream where
  key := s.key
  counter := s.counter
  left := if w = 32 then x.toUInt32 :: s.left else x.toUInt32 :: (x / 2 ^ 32).toUInt32 :: s.left

/-- A keystream that begins with two words of a width. -/
def ofPair (w : Nat) (p : Nat × Nat) : Keystream := ((ofSeed 0).after w p.2).after w p.1

/-- After a number is put before a keystream, it is read first. -/
lemma wide_after (hw : w = 32 ∨ w = 64) (hx : x < 2 ^ w) (s : Keystream) :
    (s.after w x).wide w = (x, s) := by
  rcases hw with rfl | rfl
  · have hword : x.toUInt32.toNat = x := Nat.mod_eq_of_lt hx
    simp [wide, after, word, hword]
  · have hlow : x.toUInt32.toNat = x % 4294967296 := rfl
    have hhigh : (x / 4294967296).toUInt32.toNat = x / 4294967296 := Nat.mod_eq_of_lt (by omega)
    simp [wide, doubleWord, after, word, hlow, hhigh, UInt32.size, Nat.div_add_mod']

/-- What is read is below the number of words of its width. -/
lemma nextTwo_lt (hw : w = 32 ∨ w = 64) (s : Keystream) :
    (s.nextTwo w).1 < 2 ^ w ∧ (s.nextTwo w).2 < 2 ^ w :=
  ⟨wide_lt hw s, wide_lt hw (s.wide w).2⟩

/-- **Any two words can come next.** -/
lemma nextTwo_ofPair (hw : w = 32 ∨ w = 64) (hx : x < 2 ^ w) (hy : y < 2 ^ w) :
    (ofPair w (x, y)).nextTwo w = (x, y) := by
  simp [nextTwo, ofPair, wide_after hw, hx, hy]

end Keystream

/-! ## Answers -/

namespace Source

/-- The seeded source reduces the next two words of its keystream. -/
lemma reduced_fst (n : Nat) (s : Keystream) : (reduced n s).1 = Reduction.reduce
    (Reduction.width n) (s.nextTwo (Reduction.width n)).1 (s.nextTwo (Reduction.width n)).2 n := by
  unfold reduced Reduction.reduce
  show (if Reduction.isOpen _ (s.wide (Reduction.width n)).1 n then _ else _ :
    Nat × Keystream).1 = _
  split
  · next hopen => exact (if_pos hopen).symm
  · next hopen => exact (if_neg hopen).symm

/-- **Answers are wide multiplications of double words.** -/
theorem reduced_fst_eq (hn : 0 < n) (hword : n ≤ 2 ^ 64) (hw : w = Reduction.width n)
    (s : Keystream) :
    (reduced n s).1 = ((s.nextTwo w).1 * 2 ^ w + (s.nextTwo w).2) * n / 2 ^ (2 * w) := by
  obtain ⟨-, hsecond⟩ := s.nextTwo_lt (Reduction.width_eq n)
  have hsquare : 2 ^ (2 * w) = 2 ^ w * 2 ^ w := by rw [Nat.two_mul, Nat.pow_add]
  rw [reduced_fst, Reduction.reduce_eq hn (Reduction.le_wordCount_width hword) hsecond, hsquare, hw]
  rfl

end Source

namespace Draw

variable {ε α : Type}

/-- A number is what the reduction makes of the keystream. -/
lemma outcome_run_number (hn : 0 < n) (s : Keystream) :
    ((number n : Draw ε Nat).run .seeded s).outcome = .done (Source.reduced n s).1 := by
  have hanswer : Source.seeded.answer n s = (.ok (Source.reduced n s).1, (Source.reduced n s).2) :=
    if_neg (Nat.ne_of_gt hn)
  rw [number, run_ask_ok hanswer]
  rfl

/-- What is drawn from a range lies as far above its lower end as the answer says. -/
lemma outcome_run_inRange {lo hi : UInt64} (range : lo ≤ hi) (span : hi - lo ≠ 0xFFFFFFFFFFFFFFFF)
    (hn : n = hi.toNat - lo.toNat + 1) (s : Keystream) :
    ((inRange lo hi : Draw ε UInt64).run .seeded s).outcome =
      .done (lo + (Source.reduced n s).1.toUInt64) := by
  have hanswer : Source.seeded.answer n s = (.ok (Source.reduced n s).1, (Source.reduced n s).2) :=
    if_neg (by omega)
  rw [inRange_of_le range span, ← hn, run_ask_ok hanswer]
  rfl

/-- It is in the range, and no sum wraps. -/
lemma exists_outcome_run_inRange {lo hi : UInt64} (range : lo ≤ hi)
    (span : hi - lo ≠ 0xFFFFFFFFFFFFFFFF) (hn : n = hi.toNat - lo.toNat + 1) (s : Keystream) :
    ∃ r, ((inRange lo hi : Draw ε UInt64).run .seeded s).outcome = .done r ∧ lo ≤ r ∧ r ≤ hi ∧
      r.toNat = lo.toNat + (Source.reduced n s).1 := by
  have hlt : (Source.reduced n s).1 < n := Source.reduced_lt (by omega) s
  have hsum := toNat_inRange_sum range (hlt.trans_eq hn)
  have hle : lo.toNat ≤ hi.toNat := UInt64.le_iff_toNat_le.mp range
  refine ⟨_, outcome_run_inRange range span hn s, ?_, ?_, hsum⟩
  · rw [UInt64.le_iff_toNat_le]
    omega
  · rw [UInt64.le_iff_toNat_le]
    omega

/-- The size of a range is a word, unless it is the range of all words. -/
lemma toNat_size {lo hi : UInt64} (range : lo ≤ hi) (span : hi - lo < 0xFFFFFFFFFFFFFFFF) :
    (hi - lo + 1).toNat = hi.toNat - lo.toNat + 1 := by
  have hlt : (hi - lo).toNat < 18446744073709551615 := UInt64.lt_iff_toNat_lt.mp span
  rw [UInt64.toNat_add, UInt64.toNat_one, ← UInt64.toNat_sub_of_le hi lo range]
  exact Nat.mod_eq_of_lt (by omega)

/-! ## How often each result is drawn -/

/-- The pairs of words of a width with which, coming next, a decision takes a result. -/
def pairsTo [DecidableEq α] (w : Nat) (d : Draw ε α) (a : α) : Finset (Nat × Nat) :=
  {p ∈ range (2 ^ w) ×ˢ range (2 ^ w) | (d.run .seeded (.ofPair w p)).outcome = .done a}

/-- Which pairs of words take a number below a bound to a result. -/
lemma pairsTo_number (hn : 0 < n) (hword : n ≤ 2 ^ 64) (hw : w = Reduction.width n) :
    (number n : Draw ε Nat).pairsTo w v =
      {p ∈ range (2 ^ w) ×ˢ range (2 ^ w) | (p.1 * 2 ^ w + p.2) * n / 2 ^ (2 * w) = v} := by
  have hwidth : w = 32 ∨ w = 64 := hw ▸ Reduction.width_eq n
  refine filter_congr fun p hp => ?_
  obtain ⟨hx, hy⟩ : p.1 < 2 ^ w ∧ p.2 < 2 ^ w := by simpa using hp
  rw [outcome_run_number hn, Source.reduced_fst_eq hn hword hw,
    Keystream.nextTwo_ofPair hwidth hx hy, Outcome.done.injEq]

/-- **Numbers below a bound are equally frequent** but for what words leave over. -/
theorem isShare_pairsTo_number (hword : n ≤ 2 ^ 64) (hw : w = Reduction.width n) (hv : v < n) :
    IsShare (2 ^ (2 * w)) n #((number n : Draw ε Nat).pairsTo w v) := by
  rw [pairsTo_number (Nat.zero_lt_of_lt hv) hword hw,
    card_filter_pairs w fun z => z * n / 2 ^ (2 * w) = v]
  exact isShare_card_filter (Nat.two_pow_pos _) hv

/-- A number of a range is drawn with the words that give its distance from the lower end. -/
lemma pairsTo_inRange {lo hi r : UInt64} (range : lo ≤ hi) (span : hi - lo ≠ 0xFFFFFFFFFFFFFFFF)
    (hn : n = hi.toNat - lo.toNat + 1) (hlo : lo ≤ r) :
    (inRange lo hi : Draw ε UInt64).pairsTo w r =
      (number n : Draw ε Nat).pairsTo w (r.toNat - lo.toNat) := by
  have hpos : 0 < n := by omega
  have hle : lo.toNat ≤ r.toNat := UInt64.le_iff_toNat_le.mp hlo
  refine filter_congr fun p _ => ?_
  have hsum := toNat_inRange_sum range ((Source.reduced_lt hpos (.ofPair w p)).trans_eq hn)
  rw [outcome_run_number hpos, outcome_run_inRange range span hn, Outcome.done.injEq,
    Outcome.done.injEq, ← UInt64.toNat_inj, hsum]
  omega

end Draw

/-- **The seeded source is as uniform as words allow.** An answer is one wide multiplication of the
next two words, of which any two can come; each answer has its share of the pairs of words. What is
drawn from a range is its lower end and an answer about its size, with no sum that wraps. -/
theorem seeded_uniform {ε : Type} :
    (∀ n w, 1 ≤ n → n ≤ 2 ^ 64 - 1 → w = (if n ≤ 2 ^ 32 - 1 then 32 else 64) →
      (∀ s : Keystream, (s.nextTwo w).1 < 2 ^ w ∧ (s.nextTwo w).2 < 2 ^ w ∧
        ∃ v < n, ((Draw.number n : Draw ε Nat).run .seeded s).outcome = .done v ∧
          v = ((s.nextTwo w).1 * 2 ^ w + (s.nextTwo w).2) * n / 2 ^ (2 * w)) ∧
      (∀ x < 2 ^ w, ∀ y < 2 ^ w, (Keystream.ofPair w (x, y)).nextTwo w = (x, y)) ∧
      ∀ v < n, IsShare (2 ^ (2 * w)) n #((Draw.number n : Draw ε Nat).pairsTo w v)) ∧
    ∀ lo hi : UInt64, lo ≤ hi → hi - lo < 0xFFFFFFFFFFFFFFFF →
      (hi - lo + 1).toNat = hi.toNat - lo.toNat + 1 ∧
      ∀ n w, n = (hi - lo + 1).toNat → w = (if n ≤ 2 ^ 32 - 1 then 32 else 64) →
        (∀ s, ∃ v < n, ((Draw.number n : Draw ε Nat).run .seeded s).outcome = .done v ∧
          ∃ r, ((Draw.inRange lo hi : Draw ε UInt64).run .seeded s).outcome = .done r ∧
            lo ≤ r ∧ r ≤ hi ∧ r.toNat = lo.toNat + v) ∧
        ∀ r, lo ≤ r → r ≤ hi →
          IsShare (2 ^ (2 * w)) n #((Draw.inRange lo hi : Draw ε UInt64).pairsTo w r) := by
  refine ⟨fun n w hn hword hw => ?_, fun lo hi range hspan => ?_⟩
  · have hword : n ≤ 2 ^ 64 := Nat.le_trans hword (Nat.sub_le _ _)
    have hw : w = Reduction.width n := hw.trans (Reduction.width_eq_ite n).symm
    have hwidth : w = 32 ∨ w = 64 := hw ▸ Reduction.width_eq n
    refine ⟨fun s => ?_, fun x hx y hy => Keystream.nextTwo_ofPair hwidth hx hy,
      fun v hv => Draw.isShare_pairsTo_number hword hw hv⟩
    obtain ⟨hx, hy⟩ := s.nextTwo_lt hwidth
    exact ⟨hx, hy, _, Source.reduced_lt hn s, Draw.outcome_run_number hn s,
      Source.reduced_fst_eq hn hword hw s⟩
  · have hsize := Draw.toNat_size range hspan
    refine ⟨hsize, fun n w hn hw => ?_⟩
    have hword : n ≤ 2 ^ 64 := hn ▸ Nat.le_of_lt (UInt64.toNat_lt _)
    have hw : w = Reduction.width n := hw.trans (Reduction.width_eq_ite n).symm
    have hn : n = hi.toNat - lo.toNat + 1 := hn.trans hsize
    have hpos : 0 < n := by omega
    have span : hi - lo ≠ 0xFFFFFFFFFFFFFFFF := UInt64.ne_of_lt hspan
    refine ⟨fun s => ?_, fun r hlo hhi => ?_⟩
    · exact ⟨_, Source.reduced_lt hpos s, Draw.outcome_run_number hpos s,
        Draw.exists_outcome_run_inRange range span hn s⟩
    · have hle : lo.toNat ≤ r.toNat := UInt64.le_iff_toNat_le.mp hlo
      have hge : r.toNat ≤ hi.toNat := UInt64.le_iff_toNat_le.mp hhi
      rw [Draw.pairsTo_inRange range span hn hlo]
      exact Draw.isShare_pairsTo_number hword hw (by omega)

/-- Numbers from five to ten are drawn from single words, positive ones from double words. -/
theorem seeded_uniform_ranges :
    (∀ r, 5 ≤ r → r ≤ 10 →
      IsShare (2 ^ (2 * 32)) 6 #((Draw.inRange 5 10 : Draw Remark UInt64).pairsTo 32 r)) ∧
    (∀ r, 1 ≤ r → r ≤ 0xFFFFFFFFFFFFFFFF → IsShare (2 ^ (2 * 64)) (2 ^ 64 - 1)
      #((Draw.inRange 1 0xFFFFFFFFFFFFFFFF : Draw Remark UInt64).pairsTo 64 r)) ∧
    ∀ v < 2 ^ 32, IsShare (2 ^ (2 * 64)) (2 ^ 32)
      #((Draw.number (2 ^ 32) : Draw Remark Nat).pairsTo 64 v) := by
  obtain ⟨hnumber, hrange⟩ := seeded_uniform (ε := Remark)
  refine ⟨?_, ?_, ?_⟩
  · exact ((hrange 5 10 (by decide) (by decide)).2 6 32 (by decide) (by decide)).2
  · exact ((hrange 1 0xFFFFFFFFFFFFFFFF (by decide) (by decide)).2 (2 ^ 64 - 1) 64 (by decide)
      (by decide)).2
  · exact (hnumber (2 ^ 32) 64 (by decide) (by decide) (by decide)).2.2

end RandomInstant
