import RandomInstant.Choice.Keystream
import RandomInstant.Choice.Reduction
import RandomInstant.Choice.Source

/-!
# The seeded source

Questions are answered from a keystream: each answer reduces one word of it to the range, or two
words where the first leaves the answer open. A question with only one possible answer uses a word
like any other. The bound zero is refused before a word is drawn.
-/

namespace RandomInstant.Source

/-- The answer below a positive bound, from as many words as it takes. -/
def reduced (bound : Nat) (s : Keystream) : Nat × Keystream :=
  let w := Reduction.width bound
  let (x, s) := s.wide w
  if Reduction.isOpen w x bound then
    let (y, s) := s.wide w
    (Reduction.refined w x y bound, s)
  else (Reduction.leading w x bound, s)

/-- Answers from a keystream. -/
def seeded : Source Keystream where
  answer bound s :=
    if bound = 0 then (.error .nothingToChoose, s)
    else
      let (x, s) := reduced bound s
      (.ok x, s)

end RandomInstant.Source
