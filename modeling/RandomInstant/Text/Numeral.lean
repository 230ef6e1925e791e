/-!
# Decimal numerals

Numbers are read from ASCII digits, after at most one sign. Leading zeros mean nothing. Reading
goes from left to right and fails at the first character that makes it: a character that is no
digit, or a digit that takes the number beyond its limit. `readSomeDigits_eq_ok_iff` says what is
read: digits and nothing else, one at least, with their number in decimal within the limit.
-/

namespace RandomInstant.Text

/-- Why a text is no numeral of a number that fits. -/
inductive NumeralError where
  /-- There is no text. -/
  | empty
  /-- There is a character that is no digit, or no digit at all. -/
  | invalidDigit
  /-- The number is beyond the greatest that fits. -/
  | tooLarge
  /-- The number is beyond the least that fits. -/
  | tooSmall
  deriving DecidableEq, Repr

/-- The wording of a refusal. -/
def NumeralError.message : NumeralError → String
  | .empty => "cannot parse integer from empty string"
  | .invalidDigit => "invalid digit found in string"
  | .tooLarge => "number too large to fit in target type"
  | .tooSmall => "number too small to fit in target type"

/-- The number of an ASCII digit. -/
def digit? (c : Char) : Option Nat := if c.isDigit then some (c.toNat - '0'.toNat) else none

/-- Reads digits onto a number read so far, as long as it stays within the limit; `beyond` is the
refusal where it does not. -/
def readDigits (limit : Nat) (beyond : NumeralError) : Nat → List Char → Except NumeralError Nat
  | n, [] => .ok n
  | n, c :: rest =>
    match digit? c with
    | none => .error .invalidDigit
    | some d =>
      if limit < n * 10 + d then .error beyond
      else readDigits limit beyond (n * 10 + d) rest

/-- Reads digits, of which there has to be one at least. -/
def readSomeDigits (limit : Nat) (beyond : NumeralError) : List Char → Except NumeralError Nat
  | [] => .error .invalidDigit
  | cs => readDigits limit beyond 0 cs

/-- More digits never make a number smaller. -/
theorem le_ofDigitChars (cs : List Char) (n : Nat) : n ≤ Nat.ofDigitChars 10 cs n := by
  induction cs generalizing n with
  | nil => simp
  | cons c rest ih =>
    rw [Nat.ofDigitChars_cons]
    exact Nat.le_trans (by omega) (ih _)

/-- Digits are read exactly if there is nothing else and their number stays within the limit. -/
theorem readDigits_eq_ok_iff {limit n m : Nat} {beyond : NumeralError} {cs : List Char}
    (h : n ≤ limit) :
    readDigits limit beyond n cs = .ok m ↔
      (∀ c ∈ cs, c.isDigit) ∧ m = Nat.ofDigitChars 10 cs n ∧ m ≤ limit := by
  induction cs generalizing n with
  | nil =>
    simp only [readDigits, Except.ok.injEq, Nat.ofDigitChars_nil]
    constructor
    · rintro rfl
      simp [h]
    · rintro ⟨_, rfl, _⟩
      rfl
  | cons c rest ih =>
    by_cases hc : c.isDigit
    · have hv : 10 * n + (c.toNat - '0'.toNat) = n * 10 + (c.toNat - '0'.toNat) := by omega
      simp only [readDigits, digit?, if_pos hc, Nat.ofDigitChars_cons, hv]
      split
      · next hl =>
        have := le_ofDigitChars rest (n * 10 + (c.toNat - '0'.toNat))
        simp only [reduceCtorEq, false_iff, not_and]
        rintro _ rfl
        omega
      · next hl =>
        rw [ih (by omega)]
        simp [hc]
    · simp [readDigits, digit?, hc]

/-- A numeral is one digit at least, and digits only. -/
theorem readSomeDigits_eq_ok_iff {limit m : Nat} {beyond : NumeralError} {cs : List Char} :
    readSomeDigits limit beyond cs = .ok m ↔
      cs ≠ [] ∧ (∀ c ∈ cs, c.isDigit) ∧ m = Nat.ofDigitChars 10 cs 0 ∧ m ≤ limit := by
  cases cs with
  | nil => simp [readSomeDigits]
  | cons c rest => simp only [readSomeDigits, readDigits_eq_ok_iff (Nat.zero_le _), ne_eq,
      reduceCtorEq, not_false_eq_true, true_and]

/-- Reads a natural number up to a limit, with a plus sign or none. -/
def readNat (limit : Nat) (s : String) : Except NumeralError Nat :=
  match s.toList with
  | [] => .error .empty
  | '+' :: rest => readSomeDigits limit .tooLarge rest
  | cs => readSomeDigits limit .tooLarge cs

/-- Reads an integer of 64 bits, with a sign or none. There is one negative number more than there
are positive ones. -/
def readInt64 (s : String) : Except NumeralError Int :=
  match s.toList with
  | [] => .error .empty
  | '+' :: rest => Int.ofNat <$> readSomeDigits 0x7fffffffffffffff .tooLarge rest
  | '-' :: rest => (fun n => -Int.ofNat n) <$> readSomeDigits 0x8000000000000000 .tooSmall rest
  | cs => Int.ofNat <$> readSomeDigits 0x7fffffffffffffff .tooLarge cs

end RandomInstant.Text
