import RandomInstant.Fault

/-!
# Draws: random decisions as trees

A random decision is written down as a tree before any randomness is spent on it. An inner node
asks for a number below a bound and goes on as the answer says; a leaf is a result, a fault, or a
computation that ran out of its allowance of nested calls. On the way a tree may leave notes,
which a reader of the run sees in order and which decide nothing.

Two trees that are equal ask the same questions in the same order, whatever answers them. A
statement about every source of randomness is therefore a statement about a tree, and a statement
about two runs is an equation between two trees.

* `Draw` with its sequencing `Draw.bind`, and `Monad`/`LawfulMonad` instances;
* `number`, `oneIn`, `inRange` and `pick`, the four ways in which a decision is drawn.
-/

namespace RandomInstant

/-- A random decision with result in `α` and notes in `ε`. -/
inductive Draw (ε α : Type) where
  /-- The decision is taken. -/
  | done (a : α)
  /-- The decision fails. -/
  | fault (f : Fault)
  /-- The allowance of nested calls ran out before a decision was reached. -/
  | unfinished
  /-- A note for the reader of the run, after which the decision goes on. -/
  | note (e : ε) (rest : Draw ε α)
  /-- A number below `bound` is asked for, and `next` goes on with the answer. -/
  | ask (bound : Nat) (next : Nat → Draw ε α)

namespace Draw

variable {ε α β γ : Type}

/-! ## Sequencing -/

/-- Takes one decision and goes on with its result. What the first decision asks, notes or fails
with comes first; an unfinished or failed decision is never continued. -/
protected def bind : Draw ε α → (α → Draw ε β) → Draw ε β
  | done a, k => k a
  | fault f, _ => fault f
  | unfinished, _ => unfinished
  | note e rest, k => note e (rest.bind k)
  | ask bound next, k => ask bound fun x => (next x).bind k

/-- Decisions are a monad, with sequencing for their bind. -/
instance : Monad (Draw ε) where
  pure := done
  bind := Draw.bind

/-- To come to a result at once is to be done. -/
@[simp]
theorem pure_eq (a : α) : (pure a : Draw ε α) = done a := rfl

/-- A decision that is taken is gone on with. -/
@[simp]
theorem done_bind (a : α) (k : α → Draw ε β) : (done a >>= k) = k a := rfl

/-- After a fault nothing is gone on with. -/
@[simp]
theorem fault_bind (f : Fault) (k : α → Draw ε β) : (fault f >>= k) = fault f := rfl

/-- Where the allowance has run out nothing is gone on with. -/
@[simp]
theorem unfinished_bind (k : α → Draw ε β) : (unfinished >>= k) = unfinished := rfl

/-- A note of the first decision is a note of both. -/
@[simp]
theorem note_bind (e : ε) (rest : Draw ε α) (k : α → Draw ε β) :
    (note e rest >>= k) = note e (rest >>= k) := rfl

/-- A question of the first decision is a question of both. -/
@[simp]
theorem ask_bind (bound : Nat) (next : Nat → Draw ε α) (k : α → Draw ε β) :
    (ask bound next >>= k) = ask bound fun x => next x >>= k := rfl

/-- A decision that is continued by nothing is the decision itself. -/
theorem bind_done (d : Draw ε α) : (d >>= done) = d := by
  induction d with
  | done a => rfl
  | fault f => rfl
  | unfinished => rfl
  | note e rest ih => rw [note_bind, ih]
  | ask bound next ih =>
    rw [ask_bind]
    exact congrArg (ask bound) (funext ih)

/-- It does not matter in which order three decisions are put together. -/
theorem bind_bind (d : Draw ε α) (k : α → Draw ε β) (l : β → Draw ε γ) :
    (d >>= k >>= l) = d >>= fun a => k a >>= l := by
  induction d with
  | done a => rfl
  | fault f => rfl
  | unfinished => rfl
  | note e rest ih => rw [note_bind, note_bind, note_bind, ih]
  | ask bound next ih =>
    rw [ask_bind, ask_bind, ask_bind]
    exact congrArg (ask bound) (funext ih)

/-- It does not matter in which order decisions are put together. -/
instance : LawfulMonad (Draw ε) :=
  LawfulMonad.mk' (Draw ε) bind_done (fun _ _ => rfl) bind_bind

/-! ## The ways to draw -/

/-- A number below `n`. -/
def number (n : Nat) : Draw ε Nat := ask n done

/-- Leaves a note. -/
def remark (e : ε) : Draw ε Unit := note e (done ())

/-- Leaves a note, if there is one. -/
def tell : Option ε → Draw ε Unit
  | some e => remark e
  | none => done ()

/-- True for one of `n` answers, the first. -/
def oneIn (n : UInt64) : Draw ε Bool := do
  let x ← number n.toNat
  return x == 0

/-- A number in `lo..=hi`. A range that is empty, or whose size is not a word, is refused before
anything is asked. The sum wraps like every word, which no answer below the size makes it do. -/
def inRange (lo hi : UInt64) : Draw ε UInt64 :=
  if hi < lo then fault (.emptyRange lo hi)
  else if hi - lo = 0xFFFFFFFFFFFFFFFF then fault (.rangeTooLarge lo hi)
  else do
    let x ← number ((hi - lo).toNat + 1)
    return lo + x.toUInt64

/-- An element of `xs`, each place of the sequence being one answer. -/
def pick (xs : Array α) : Draw ε α := do
  let i ← number xs.size
  if h : i < xs.size then return xs[i] else fault (.outOfBounds i xs.size)

/-- A number that is drawn and gone on with is a question. -/
@[simp]
theorem number_bind (n : Nat) (k : Nat → Draw ε α) : (number n >>= k) = ask n k := rfl

/-- A note that is left and gone on from is a note. -/
@[simp]
theorem remark_bind (e : ε) (k : Unit → Draw ε α) : (remark e >>= k) = note e (k ()) := rfl

/-- A choice with odds is a question, and its first answer is the one that counts. -/
@[simp]
theorem oneIn_bind (n : UInt64) (k : Bool → Draw ε α) :
    (oneIn n >>= k) = ask n.toNat fun x => k (x == 0) := rfl

/-- An empty range is refused. -/
theorem inRange_of_lt {lo hi : UInt64} (h : hi < lo) :
    inRange lo hi = (fault (.emptyRange lo hi) : Draw ε UInt64) := if_pos h

/-- Any other range is one question, about its size. -/
theorem inRange_of_le {lo hi : UInt64} (h : lo ≤ hi) (size : hi - lo ≠ 0xFFFFFFFFFFFFFFFF) :
    inRange lo hi = (ask (hi.toNat - lo.toNat + 1) fun x => done (lo + x.toUInt64) :
      Draw ε UInt64) := by
  have h' : ¬ hi < lo := by simpa using h
  rw [inRange, if_neg h', if_neg size, UInt64.toNat_sub_of_le hi lo h]
  rfl

/-- The sum of the lower end of a range and an answer about it does not wrap. -/
theorem toNat_inRange_sum {lo hi : UInt64} (h : lo ≤ hi) {x : Nat}
    (hx : x < hi.toNat - lo.toNat + 1) : (lo + x.toUInt64).toNat = lo.toNat + x := by
  have hlo : lo.toNat ≤ hi.toNat := UInt64.le_iff_toNat_le.mp h
  have hhi := hi.toNat_lt
  rw [UInt64.toNat_add, Nat.toUInt64_eq, UInt64.toNat_ofNat', Nat.add_mod_mod]
  exact Nat.mod_eq_of_lt (by omega)

/-- A pick is one question, about the number of elements. -/
theorem pick_def (xs : Array α) :
    pick xs = (ask xs.size fun i =>
      if h : i < xs.size then done xs[i] else fault (.outOfBounds i xs.size) : Draw ε α) := rfl

end Draw

end RandomInstant
