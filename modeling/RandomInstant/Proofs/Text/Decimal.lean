import RandomInstant.Proofs.Text.Numeral

/-!
# Numbers as they are printed

A number has many numerals and is printed as one of them: digits without a sign, of which the first
is zero only if there is no other.

* `decimal?`: the word that is printed as a text. It reads the digits, and refuses a leading zero
  that could be left out.
* `toDigits_eq_of_digits`: digits without such a zero are those that are printed.
* **`decimal?_eq_some_iff`**: a text is read as a word exactly if the word is printed so.
-/

namespace RandomInstant

namespace Text

variable {cs : List Char} {n : Nat}

/-- Whether digits begin with a zero that could be left out. -/
def hasLeadingZero : List Char → Bool
  | '0' :: _ :: _ => true
  | _ => false

/-- Reads a number of 32 bits from its digits, if they are neither signed nor more than needed. -/
def decimal? (s : String) : Option UInt32 :=
  match readSomeDigits 0xFFFFFFFF .tooLarge s.toList with
  | .ok n => if hasLeadingZero s.toList then none else some n.toUInt32
  | .error _ => none

/-- A digit is the one that its number is printed as. -/
lemma digitChar_of_isDigit {c : Char} (h : c.isDigit) :
    c.toNat - '0'.toNat < 10 ∧ (c.toNat - '0'.toNat).digitChar = c := by
  obtain ⟨hlow, hhigh⟩ : 48 ≤ c.toNat ∧ c.toNat ≤ 57 := by
    simpa [Char.isDigit, UInt32.le_iff_toNat_le] using h
  have hlt : c.toNat - '0'.toNat < 10 := by
    show c.toNat - 48 < 10
    omega
  refine ⟨hlt, Char.toNat_inj.mp ?_⟩
  rw [Nat.toNat_digitChar_of_lt_ten hlt]
  show 48 + (c.toNat - 48) = c.toNat
  omega

/-- Digits are no letters. -/
lemma isAlpha_of_isDigit {c : Char} (h : c.isDigit) : c.isAlpha = false := by
  have hdigits : ∀ k < 10, (Nat.digitChar k).isAlpha = false := by decide
  obtain ⟨hlt, hchar⟩ := digitChar_of_isDigit h
  rw [← hchar]
  exact hdigits _ hlt

/-- Digits behind those of a positive number are printed behind them. Zero is left out, since its
digit does not stand before others. -/
lemma toDigits_append (hn : 0 < n) (h : ∀ c ∈ cs, c.isDigit) :
    Nat.toDigits 10 n ++ cs = Nat.toDigits 10 (Nat.ofDigitChars 10 cs n) := by
  induction cs generalizing n with
  | nil => simp
  | cons c cs ih =>
      obtain ⟨hc, hcs⟩ := List.forall_mem_cons.mp h
      obtain ⟨hlt, hchar⟩ := digitChar_of_isDigit hc
      have hpos : 0 < 10 * n + (c.toNat - '0'.toNat) := by omega
      have hnext : Nat.toDigits 10 n ++ [c] = Nat.toDigits 10 (10 * n + (c.toNat - '0'.toNat)) := by
        have happend := Nat.toDigits_append_toDigits (by decide : 1 < 10) hn hlt
        rwa [Nat.toDigits_of_lt_base hlt, hchar] at happend
      calc Nat.toDigits 10 n ++ c :: cs = Nat.toDigits 10 n ++ [c] ++ cs := by simp
        _ = Nat.toDigits 10 (Nat.ofDigitChars 10 (c :: cs) n) := by
          rw [hnext, ih hpos hcs, Nat.ofDigitChars_cons]

/-- Digits without a superfluous zero are those that are printed. -/
lemma toDigits_eq_of_digits (h : Digits cs n) (hzero : hasLeadingZero cs = false) :
    Nat.toDigits 10 n = cs := by
  obtain ⟨c, cs, rfl⟩ := List.exists_cons_of_ne_nil h.ne_nil
  obtain ⟨hc, hcs⟩ := List.forall_mem_cons.mp h.isDigit
  obtain ⟨hlt, hchar⟩ := digitChar_of_isDigit hc
  have hfirst : Nat.toDigits 10 (c.toNat - '0'.toNat) = [c] := by
    rw [Nat.toDigits_of_lt_base hlt, hchar]
  have hvalue : n = Nat.ofDigitChars 10 cs (c.toNat - '0'.toNat) := by
    rw [h.value, Nat.ofDigitChars_cons, Nat.mul_zero, Nat.zero_add]
  by_cases hpos : 0 < c.toNat - '0'.toNat
  · rw [hvalue, ← toDigits_append hpos hcs, hfirst, List.singleton_append]
  · -- a zero comes first, so it is the only digit
    have hc0 : c = '0' := by
      rw [← hchar, Nat.eq_zero_of_not_pos hpos]
      rfl
    subst hc0
    cases cs with
    | nil => rw [hvalue, Nat.ofDigitChars_nil, hfirst]
    | cons c' cs => cases hzero

/-- Positive numbers are not printed with a zero first. -/
lemma head?_toDigits_ne_zero (hn : 0 < n) : (Nat.toDigits 10 n).head? ≠ some '0' := by
  induction n using Nat.strongRecOn with
  | ind n ih =>
      by_cases hten : n < 10
      · rw [Nat.toDigits_of_lt_base hten, List.head?_singleton]
        intro h
        exact absurd (Nat.digitChar_eq_zero.mp (Option.some.inj h)) (Nat.ne_of_gt hn)
      · have hle : 10 ≤ n := Nat.not_lt.mp hten
        have hhead := ih (n / 10) (Nat.div_lt_self hn (by decide)) (Nat.div_pos hle (by decide))
        obtain ⟨c, cs, hcs⟩ : ∃ c cs, Nat.toDigits 10 (n / 10) = c :: cs :=
          List.exists_cons_of_ne_nil Nat.toDigits_ne_nil
        rw [Nat.toDigits_of_base_le (by decide) hle, hcs]
        rwa [hcs] at hhead

/-- What is printed has no superfluous zero. -/
lemma hasLeadingZero_toDigits (n : Nat) : hasLeadingZero (Nat.toDigits 10 n) = false := by
  obtain rfl | hn := Nat.eq_zero_or_pos n
  · rfl
  · have hhead := head?_toDigits_ne_zero hn
    unfold hasLeadingZero
    split
    · next c cs h =>
        rw [h] at hhead
        exact absurd rfl hhead
    · rfl

/-- A number is printed as its digits. -/
lemma digits_toDigits (n : Nat) : Digits (Nat.toDigits 10 n) n where
  ne_nil := Nat.toDigits_ne_nil
  isDigit _ hc := Nat.isDigit_of_mem_toDigits (by decide) (by decide) hc
  value := Nat.ofDigitChars_ten_toDigits.symm

/-- **A text is read as the word that is printed so**, and is not read where there is none. -/
theorem decimal?_eq_some_iff {s : String} {i : UInt32} :
    decimal? s = some i ↔ i.toNat.repr = s := by
  constructor
  · intro h
    unfold decimal? at h
    split at h
    · next n hread =>
        obtain ⟨hdigits, hlimit⟩ := readSomeDigits_eq_ok_iff_digits.mp hread
        obtain ⟨hzero, hi⟩ := Option.ite_none_left_eq_some.mp h
        have hn : i.toNat = n := by
          rw [← Option.some.inj hi, Nat.toUInt32_eq, UInt32.toNat_ofNat']
          exact Nat.mod_eq_of_lt (by omega)
        apply String.toList_inj.mp
        rw [Nat.toList_repr, hn]
        exact toDigits_eq_of_digits hdigits (Bool.not_eq_true _ ▸ hzero)
    · cases h
  · rintro rfl
    have hlimit : i.toNat ≤ 0xFFFFFFFF := Nat.le_of_lt_succ i.toNat_lt
    have hread : readSomeDigits 0xFFFFFFFF .tooLarge (Nat.toDigits 10 i.toNat) = .ok i.toNat :=
      readSomeDigits_eq_ok_iff_digits.mpr ⟨digits_toDigits i.toNat, hlimit⟩
    rw [decimal?, Nat.toList_repr, hread]
    simp [hasLeadingZero_toDigits]

example : decimal? "4294967295" = some 4294967295 := by decide

example : decimal? "007" = none := by decide

/-- Every half word is read back from its digits. -/
@[simp]
lemma decimal?_repr (i : UInt32) : decimal? i.toNat.repr = some i := decimal?_eq_some_iff.mpr rfl

end Text

end RandomInstant
