/-!
# The keystream of random words

The words of a seeded source are a ChaCha keystream of twelve rounds with nonce zero and a 64-bit
block counter from zero. The key is not the seed itself: its eight words are the first eight
outputs of a small permuted congruential generator that starts from the seed.

A keystream is kept as what is left of it: the key, the number of the next block, and the words of
the current block that have not been drawn. `Keystream.word` draws 32 bits, `Keystream.doubleWord`
64 bits, the low word first.
-/

namespace RandomInstant

/-! ## The block function -/

namespace Keystream

/-- The sixteen words of a block or of the state that it is computed from. -/
abbrev Block := Vector UInt32 16

/-- Rotation of a word to the left, for amounts from 1 to 31. -/
def rotateLeft (x amount : UInt32) : UInt32 := (x <<< amount) ||| (x >>> (32 - amount))

/-- Rotation of a word to the right, the amount taken modulo 32. -/
def rotateRight (x amount : UInt32) : UInt32 := (x >>> amount) ||| (x <<< (32 - amount))

/-- One quarter round, on the words at the four given places. -/
def quarterRound (b : Block) (i j k l : Fin 16) : Block :=
  let x := b[i]; let y := b[j]; let z := b[k]; let w := b[l]
  let x := x + y; let w := rotateLeft (w ^^^ x) 16
  let z := z + w; let y := rotateLeft (y ^^^ z) 12
  let x := x + y; let w := rotateLeft (w ^^^ x) 8
  let z := z + w; let y := rotateLeft (y ^^^ z) 7
  (((b.set i x).set j y).set k z).set l w

/-- A round on the four columns of the block, then one on its four diagonals. -/
def doubleRound (b : Block) : Block :=
  let b := quarterRound b 0 4 8 12
  let b := quarterRound b 1 5 9 13
  let b := quarterRound b 2 6 10 14
  let b := quarterRound b 3 7 11 15
  let b := quarterRound b 0 5 10 15
  let b := quarterRound b 1 6 11 12
  let b := quarterRound b 2 7 8 13
  quarterRound b 3 4 9 14

/-- The state that a block is computed from: four constants, the key, the block's number as two
words with the low one first, and the nonce. -/
def start (key : Vector UInt32 8) (counter : UInt64) : Block :=
  #v[0x61707865, 0x3320646e, 0x79622d32, 0x6b206574,
    key[0], key[1], key[2], key[3], key[4], key[5], key[6], key[7],
    counter.toUInt32, (counter >>> 32).toUInt32, 0, 0]

/-- The block with a given number: twelve rounds, after which the start is added to the result
word by word. -/
def block (key : Vector UInt32 8) (counter : UInt64) : Block :=
  let initial := start key counter
  let mixed := Nat.repeat doubleRound 6 initial
  mixed.zipWith (· + ·) initial

/-! ## The key of a seed -/

/-- The state of the key generator after one step. -/
def advance (state : UInt64) : UInt64 := state * 6364136223846793005 + 11634580027462260723

/-- The output that belongs to a state of the key generator: the state is folded to 32 bits, which
its five highest bits then rotate. -/
def permuted (state : UInt64) : UInt32 :=
  rotateRight (((state >>> 18) ^^^ state) >>> 27).toUInt32 (state >>> 59).toUInt32

/-- The first `n` outputs of the key generator, each taken after a step. -/
def outputs : (n : Nat) → UInt64 → List UInt32
  | 0, _ => []
  | n + 1, state => permuted (advance state) :: outputs n (advance state)

/-- There are as many outputs as are asked for. -/
theorem length_outputs (n : Nat) (state : UInt64) : (outputs n state).length = n := by
  induction n generalizing state with
  | zero => rfl
  | succ n ih => rw [outputs, List.length_cons, ih]

/-- The key that belongs to a seed. -/
def keyOfSeed (seed : UInt64) : Vector UInt32 8 :=
  ⟨(outputs 8 seed).toArray, by rw [List.size_toArray, length_outputs]⟩

end Keystream

/-! ## Drawing words -/

/-- What is left of a keystream. -/
structure Keystream where
  /-- The key of all blocks. -/
  key : Vector UInt32 8
  /-- The number of the next block. -/
  counter : UInt64 := 0
  /-- The words of the current block that have not been drawn. -/
  left : List UInt32 := []

namespace Keystream

/-- The whole keystream of a seed. -/
def ofSeed (seed : UInt64) : Keystream where
  key := keyOfSeed seed

/-- The next word. -/
def word (s : Keystream) : UInt32 × Keystream :=
  match s.left with
  | x :: rest => (x, { s with left := rest })
  | [] =>
    let b := block s.key s.counter
    (b[0], { s with counter := s.counter + 1, left := b.toList.tail })

/-- The next two words as one number, the first of them being the low half. -/
def doubleWord (s : Keystream) : Nat × Keystream :=
  let (low, s) := s.word
  let (high, s) := s.word
  (high.toNat * UInt32.size + low.toNat, s)

/-- The next word of the given width: a single word for 32, a double one for any other. -/
def wide (w : Nat) (s : Keystream) : Nat × Keystream :=
  if w = 32 then
    let (x, s) := s.word
    (x.toNat, s)
  else s.doubleWord

end Keystream

end RandomInstant
