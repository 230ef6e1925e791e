import Mathlib.Tactic.Lemma
import RandomInstant.Command.Options

/-!
# What the numerals are

A numeral is one digit at least, after a plus sign or none; a signed numeral may have a minus sign
instead. Every number has many numerals, because leading zeros mean nothing, and zero has signed
ones with a minus. Reading takes exactly the numerals of the numbers within its limit.

* `readNat_eq_ok_iff`, `readInt64_eq_ok_iff`: what is read, and as which number.
* `readWord_eq_ok_iff`, `readHalfWord_eq_ok_iff`: words are what their numerals stand for. The two
  kinds of words do not have the same numerals.
-/

namespace Except

variable {ε α β : Type}

/-- What is made of a result comes of a result. -/
lemma map_eq_ok_iff {e : Except ε α} {f : α → β} {b : β} :
    f <$> e = .ok b ↔ ∃ a, e = .ok a ∧ f a = b := by
  cases e <;> simp [Functor.map, Except.map]

/-- Two steps in sequence succeed if the first does, and the second does with its result. -/
lemma bind_eq_ok_iff {e : Except ε α} {f : α → Except ε β} {b : β} :
    e >>= f = .ok b ↔ ∃ a, e = .ok a ∧ f a = .ok b := by
  cases e <;> simp [Bind.bind, Except.bind]

end Except

namespace RandomInstant

namespace Text

/-- Digits, one at least, and the number that they are in decimal. -/
structure Digits (cs : List Char) (n : Nat) : Prop where
  /-- There is a digit. -/
  ne_nil : cs ≠ []
  /-- There are only digits. -/
  isDigit : ∀ c ∈ cs, c.isDigit
  /-- They are the number in decimal. -/
  value : n = Nat.ofDigitChars 10 cs 0

/-- The numerals of a natural number. -/
inductive Numeral : List Char → Nat → Prop
  /-- Digits alone. -/
  | bare {cs n} : Digits cs n → Numeral cs n
  /-- Digits after a plus sign. -/
  | plus {cs n} : Digits cs n → Numeral ('+' :: cs) n

/-- The numerals of an integer. -/
inductive SignedNumeral : List Char → Int → Prop
  /-- A numeral of a natural number. -/
  | nonneg {cs n} : Numeral cs n → SignedNumeral cs (Int.ofNat n)
  /-- Digits after a minus sign. -/
  | minus {cs n} : Digits cs n → SignedNumeral ('-' :: cs) (-Int.ofNat n)

variable {s : String} {cs : List Char} {n : Nat}

/-- Some digits are read if they are digits and their number is within the limit. -/
lemma readSomeDigits_eq_ok_iff_digits {limit : Nat} {beyond : NumeralError} :
    readSomeDigits limit beyond cs = .ok n ↔ Digits cs n ∧ n ≤ limit := by
  rw [readSomeDigits_eq_ok_iff]
  constructor
  · rintro ⟨hne, hdigit, hvalue, hlimit⟩
    exact ⟨⟨hne, hdigit, hvalue⟩, hlimit⟩
  · rintro ⟨⟨hne, hdigit, hvalue⟩, hlimit⟩
    exact ⟨hne, hdigit, hvalue, hlimit⟩

/-- Digits do not begin with a sign. -/
lemma Digits.head_ne {c sign : Char} (h : Digits (c :: cs) n) (hsign : sign.isDigit = false) :
    c ≠ sign := by
  rintro rfl
  have := h.isDigit c List.mem_cons_self
  rw [hsign] at this
  exact Bool.false_ne_true this

/-- Behind a plus sign there are digits. -/
lemma numeral_plus_iff : Numeral ('+' :: cs) n ↔ Digits cs n := by
  constructor
  · intro h
    cases h with
    | bare h => exact absurd rfl (h.head_ne rfl)
    | plus h => exact h
  · exact .plus

/-- Without a plus sign a numeral is its digits. -/
lemma numeral_iff_digits (h : cs.head? ≠ some '+') : Numeral cs n ↔ Digits cs n := by
  constructor
  · intro hn
    cases hn with
    | bare hn => exact hn
    | plus hn => exact absurd rfl h
  · exact .bare

/-- A numeral is not empty. -/
lemma Numeral.ne_nil (h : Numeral cs n) : cs ≠ [] := by
  cases h with
  | bare h => exact h.ne_nil
  | plus h => exact List.cons_ne_nil _ _

/-- **A natural number is read from its numerals**, if it is within the limit, and from nothing
else. -/
theorem readNat_eq_ok_iff {limit : Nat} :
    readNat limit s = .ok n ↔ Numeral s.toList n ∧ n ≤ limit := by
  unfold readNat
  split
  · next h =>
      rw [h]
      simp only [reduceCtorEq, false_iff, not_and]
      intro hn
      exact absurd rfl hn.ne_nil
  · next rest h => rw [h, numeral_plus_iff, readSomeDigits_eq_ok_iff_digits]
  · next cs hne hplus =>
      have hhead : s.toList.head? ≠ some '+' := by
        intro hhead
        obtain ⟨rest, hrest⟩ := List.head?_eq_some_iff.mp hhead
        exact hplus rest hrest
      rw [numeral_iff_digits hhead, readSomeDigits_eq_ok_iff_digits]

/-- What begins with no sign has the same digits as natural number and as integer. -/
lemma signedNumeral_iff_numeral {z : Int} (h : cs.head? ≠ some '-') :
    SignedNumeral cs z ↔ ∃ n, Numeral cs n ∧ z = Int.ofNat n := by
  constructor
  · intro hz
    cases hz with
    | nonneg hn => exact ⟨_, hn, rfl⟩
    | minus hn => exact absurd rfl h
  · rintro ⟨n, hn, rfl⟩
    exact .nonneg hn

/-- Behind a minus sign there are digits, and their number is negative. -/
lemma signedNumeral_minus_iff {z : Int} :
    SignedNumeral ('-' :: cs) z ↔ ∃ n, Digits cs n ∧ z = -Int.ofNat n := by
  constructor
  · intro hz
    cases hz with
    | nonneg hn =>
        rw [numeral_iff_digits (by simp)] at hn
        exact absurd rfl (hn.head_ne rfl)
    | minus hn => exact ⟨_, hn, rfl⟩
  · rintro ⟨n, hn, rfl⟩
    exact .minus hn

/-- Without a minus sign an integer is read as a natural number is. -/
lemma readInt64_eq_map_readNat (h : s.toList.head? ≠ some '-') :
    readInt64 s = Int.ofNat <$> readNat 0x7fffffffffffffff s := by
  unfold readInt64 readNat
  split
  · next hs => rw [hs]; rfl
  · next rest hs => rw [hs]; rfl
  · next rest hs => rw [hs] at h; exact absurd rfl h
  · next hne hplus _ =>
      split
      · next hs => exact absurd hs hne
      · next rest hs => exact absurd hs (hplus rest)
      · rfl

/-- **An integer is read from its signed numerals**, if it fits in 64 bits, and from nothing
else. -/
theorem readInt64_eq_ok_iff {z : Int} :
    readInt64 s = .ok z ↔
      SignedNumeral s.toList z ∧ -0x8000000000000000 ≤ z ∧ z ≤ 0x7fffffffffffffff := by
  by_cases hminus : s.toList.head? = some '-'
  · obtain ⟨rest, hrest⟩ := List.head?_eq_some_iff.mp hminus
    simp only [readInt64, hrest, Except.map_eq_ok_iff, signedNumeral_minus_iff,
      readSomeDigits_eq_ok_iff_digits]
    constructor
    · rintro ⟨n, ⟨hn, hlimit⟩, rfl⟩
      exact ⟨⟨n, hn, rfl⟩, by simp only [Int.ofNat_eq_natCast]; omega⟩
    · rintro ⟨⟨n, hn, rfl⟩, hleast, -⟩
      exact ⟨n, ⟨hn, by simp only [Int.ofNat_eq_natCast] at hleast; omega⟩, rfl⟩
  · rw [readInt64_eq_map_readNat hminus, Except.map_eq_ok_iff, signedNumeral_iff_numeral hminus]
    simp only [readNat_eq_ok_iff]
    constructor
    · rintro ⟨n, ⟨hn, hlimit⟩, rfl⟩
      exact ⟨⟨n, hn, rfl⟩, by simp only [Int.ofNat_eq_natCast]; omega⟩
    · rintro ⟨⟨n, hn, rfl⟩, -, hmost⟩
      exact ⟨n, ⟨hn, by simp only [Int.ofNat_eq_natCast] at hmost; omega⟩, rfl⟩

end Text

namespace Command

open Text

/-- **A word is read from its numerals.** -/
theorem readWord_eq_ok_iff {s : String} {w : UInt64} :
    readWord s = .ok w ↔ Numeral s.toList w.toNat := by
  have hread : ∀ n, readNat (UInt64.size - 1) s = .ok n ↔ Numeral s.toList n ∧ n < UInt64.size := by
    intro n
    rw [readNat_eq_ok_iff, Nat.le_sub_one_iff_lt (by decide)]
  unfold readWord
  constructor
  · split
    · next n hn =>
        rintro ⟨⟩
        obtain ⟨hn, hlimit⟩ := (hread n).mp hn
        rwa [Nat.toUInt64, UInt64.toNat_ofNat_of_lt' hlimit]
    · rintro ⟨⟩
  · intro hw
    rw [(hread w.toNat).mpr ⟨hw, w.toNat_lt⟩]
    simp

/-- **A half word is read from its signed numerals**, the one of zero with a minus included. -/
theorem readHalfWord_eq_ok_iff {s : String} {w : UInt32} :
    readHalfWord s = .ok w ↔ SignedNumeral s.toList w.toNat := by
  unfold readHalfWord
  constructor
  · split
    · next z hz =>
        split
        · next hrange =>
            rintro ⟨⟩
            simp only [Bool.and_eq_true, decide_eq_true_eq] at hrange
            have hvalue : (z.toNat.toUInt32.toNat : Int) = z := by
              rw [Nat.toUInt32, UInt32.toNat_ofNat_of_lt' (by simp only [UInt32.size]; omega)]
              omega
            rw [hvalue]
            exact (readInt64_eq_ok_iff.mp hz).1
        · rintro ⟨⟩
    · rintro ⟨⟩
  · intro hw
    have hlt := w.toNat_lt
    rw [readInt64_eq_ok_iff.mpr ⟨hw, by omega, by omega⟩]
    have hrange : (w.toNat : Int) ≤ 0xffffffff := by omega
    simp [hrange]

end Command

end RandomInstant
