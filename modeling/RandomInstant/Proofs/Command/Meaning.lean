import RandomInstant.Command.UsageError
import RandomInstant.Proofs.Text.Numeral

/-!
# What options mean

The options that were given are a mapping from the options that can be given to what they mean:
a number, a text, or nothing beyond being given. Setting one changes that one and no other.

* `Options.ext_meaning`: options are told apart by what they mean.
* **`Options.set_eq_ok_iff`**: a setting is set with the texts that denote a value of it, to what
  they denote.
-/

namespace RandomInstant.Command

open Text (Numeral SignedNumeral)

/-- What an option that is given means. -/
inductive Meaning where
  /-- A number. -/
  | number (n : Nat)
  /-- A text. -/
  | text (s : String)
  /-- That it is given. -/
  | on
  deriving DecidableEq, Repr

/-- What an option means, if it was given. -/
def Options.meaning? (o : Options) : Key → Option Meaning
  | .setting .seed => o.seed.map fun w => .number w.toNat
  | .setting .statements => o.statements.map fun w => .number w.toNat
  | .setting .minStatements => o.minStatements.map fun w => .number w.toNat
  | .setting .maxStatements => o.maxStatements.map fun w => .number w.toNat
  | .setting .maxDepth => o.maxDepth.map fun w => .number w.toNat
  | .setting .maxLiteral => o.maxLiteral.map fun w => .number w.toNat
  | .setting .stem => o.stem.map .text
  | .drawnStatements => if o.drawnStatements then some .on else none

/-- What a text denotes as the value of a setting: the number of which it is a numeral, if that is
a word, and for the stem the text itself. Only the greatest literal has signed numerals. -/
def Setting.Denotes (s : Setting) (text : String) (m : Meaning) : Prop :=
  match s with
  | .stem => m = .text text
  | .maxLiteral => ∃ w : UInt32, SignedNumeral text.toList w.toNat ∧ m = .number w.toNat
  | _ => ∃ w : UInt64, Numeral text.toList w.toNat ∧ m = .number w.toNat

namespace Options

variable {o o' o'' : Options} {k : Key} {m : Meaning}

/-- A count of statements has a meaning if it is given. -/
@[simp]
lemma isSome_meaning?_statements :
    (o.meaning? (.setting .statements)).isSome = o.statements.isSome :=
  Option.isSome_map

/-- The switch for a drawn count has a meaning if it is on. -/
@[simp]
lemma isSome_meaning?_drawnStatements :
    (o.meaning? .drawnStatements).isSome = o.drawnStatements := by
  simp [meaning?, apply_ite Option.isSome]

/-- Options are told apart by what they mean. -/
lemma ext_meaning (h : ∀ k, o.meaning? k = o'.meaning? k) : o = o' := by
  have hword : Function.Injective fun w : UInt64 => Meaning.number w.toNat := by
    intro w w' hw
    exact UInt64.toNat_inj.mp (Meaning.number.inj hw)
  have hhalf : Function.Injective fun w : UInt32 => Meaning.number w.toNat := by
    intro w w' hw
    exact UInt32.toNat_inj.mp (Meaning.number.inj hw)
  have htext : Function.Injective Meaning.text := fun s s' hs => Meaning.text.inj hs
  have hswitch : o.drawnStatements = o'.drawnStatements := by
    rw [← isSome_meaning?_drawnStatements, ← isSome_meaning?_drawnStatements, h]
  obtain ⟨⟩ := o
  obtain ⟨⟩ := o'
  simp only [Options.mk.injEq]
  exact ⟨Option.map_injective hword (h (.setting .seed)),
    Option.map_injective hword (h (.setting .statements)), hswitch,
    Option.map_injective hword (h (.setting .minStatements)),
    Option.map_injective hword (h (.setting .maxStatements)),
    Option.map_injective hword (h (.setting .maxDepth)),
    Option.map_injective hhalf (h (.setting .maxLiteral)),
    Option.map_injective htext (h (.setting .stem))⟩

/-- The second options are the first ones but that one option is given and means something. -/
structure With (o : Options) (k : Key) (m : Meaning) (o' : Options) : Prop where
  /-- The option is given and means it. -/
  given : o'.meaning? k = some m
  /-- The others are as they were. -/
  others : ∀ k', k' ≠ k → o'.meaning? k' = o.meaning? k'

/-- There is one way to give an option a meaning. -/
lemma With.unique (h : o.With k m o') (h' : o.With k m o'') : o' = o'' := by
  apply ext_meaning
  intro k'
  by_cases hk : k' = k
  · rw [hk, h.given, h'.given]
  · rw [h.others k' hk, h'.others k' hk]

/-- The switch can be given, and nothing else changes with it. -/
lemma with_drawnStatements (o : Options) :
    o.With .drawnStatements .on { o with drawnStatements := true } where
  given := rfl
  others := by
    rintro (s | _) hs
    · cases s <;> rfl
    · exact absurd rfl hs

/-- What a text denotes can be set. -/
lemma exists_set_of_denotes {s : Setting} {text : String} (h : s.Denotes text m) (o : Options) :
    ∃ o', o.set s text = .ok o' ∧ o.With (.setting s) m o' := by
  unfold set
  cases s
  case' stem =>
    refine ⟨_, rfl, congrArg some h.symm, ?_⟩
  case' maxLiteral =>
    obtain ⟨w, hw, rfl⟩ := h
    refine ⟨_, Except.bind_eq_ok_iff.mpr ⟨w, readHalfWord_eq_ok_iff.mpr hw, rfl⟩, rfl, ?_⟩
  case' seed | statements | minStatements | maxStatements | maxDepth =>
    obtain ⟨w, hw, rfl⟩ := h
    refine ⟨_, Except.bind_eq_ok_iff.mpr ⟨w, readWord_eq_ok_iff.mpr hw, rfl⟩, rfl, ?_⟩
  all_goals
    rintro (s | _) hs
    · cases s <;> first | rfl | exact absurd rfl hs
    · rfl

/-- Only what a text denotes can be set. -/
lemma exists_denotes_of_set {s : Setting} {text : String} (h : o.set s text = .ok o') :
    ∃ m, s.Denotes text m := by
  unfold set at h
  cases s
  case stem => exact ⟨_, rfl⟩
  case maxLiteral =>
    obtain ⟨w, hw, -⟩ := Except.bind_eq_ok_iff.mp h
    exact ⟨_, w, readHalfWord_eq_ok_iff.mp hw, rfl⟩
  all_goals
    obtain ⟨w, hw, -⟩ := Except.bind_eq_ok_iff.mp h
    exact ⟨_, w, readWord_eq_ok_iff.mp hw, rfl⟩

/-- **A setting is set with the texts that denote a value of it**, and to what they denote. -/
theorem set_eq_ok_iff {s : Setting} {text : String} :
    o.set s text = .ok o' ↔ ∃ m, s.Denotes text m ∧ o.With (.setting s) m o' := by
  constructor
  · intro h
    obtain ⟨m, hm⟩ := exists_denotes_of_set h
    obtain ⟨o'', hset, hwith⟩ := exists_set_of_denotes hm o
    obtain rfl := Except.ok.inj (hset.symm.trans h)
    exact ⟨m, hm, hwith⟩
  · rintro ⟨m, hm, hwith⟩
    obtain ⟨o'', hset, hwith'⟩ := exists_set_of_denotes hm o
    rw [hset, hwith'.unique hwith]

end Options

end RandomInstant.Command
