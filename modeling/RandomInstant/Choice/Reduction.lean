/-!
# Reduction of random words to a range

A uniform word `x` of `w` bits is reduced to a number below `n` by one wide multiplication: the
result is the whole part of `x * n / 2 ^ w`. The part left over, `x * n % 2 ^ w`, says where in
its step the word fell. If it fell so close to the next step that a finer word could have crossed
it, a second word `y` is drawn to refine the first, and the result is one more when the sum of the
two parts reaches the next step. The outcome is that of the double word `x * 2 ^ w + y`.

All quantities are natural numbers, so nothing here overflows.
-/

namespace RandomInstant.Reduction

/-- The number of words of `w` bits. -/
def wordCount (w : Nat) : Nat := Nat.pow 2 w

/-- The width of the words from which a number below `n` is drawn: 32 bits if `n` itself fits in
them, 64 bits otherwise. -/
def width (n : Nat) : Nat := if n < wordCount 32 then 32 else 64

/-- The result that the first word gives on its own. -/
def leading (w x n : Nat) : Nat := x * n / wordCount w

/-- How far the first word reaches into the step above its own result. -/
def leftOver (w x n : Nat) : Nat := x * n % wordCount w

/-- Whether a second word could still carry the first one over to the next result. -/
def isOpen (w x n : Nat) : Bool := decide (wordCount w - n < leftOver w x n)

/-- The result once a second word `y` refines the first. -/
def refined (w x y n : Nat) : Nat :=
  if wordCount w ≤ leftOver w x n + leading w y n then leading w x n + 1 else leading w x n

/-- The result, `y` being the word that is drawn second if there is need for one. -/
def reduce (w x y n : Nat) : Nat :=
  if isOpen w x n then refined w x y n else leading w x n

/-- The first word splits into what it gives and what it leaves over. -/
theorem leading_mul_add_leftOver (w x n : Nat) :
    wordCount w * leading w x n + leftOver w x n = x * n := Nat.div_add_mod _ _

end RandomInstant.Reduction
