import Mathlib.Data.List.Nodup
import RandomInstant.Proofs.Command.Spelling

/-!
# Arguments are read group by group

A value in an argument of its own is held back until the next option, but this only decides which
complaint comes first: where there is none, a value that is held back might as well be settled at
once. So the arguments are taken group by group, and each group adds the option that it spells.

* `Reader.Adds`: what settling one option more makes of a reader.
* **`Reader.readAll_eq_ok_iff_settle`**: holding back makes no difference where nothing is wrong.
* `Reader.Ready.readAll_of_spelling`, `Reader.Ready.exists_group_of_readAll`: a group adds the
  option that it spells, and arguments that are read to their end begin with a group.
-/

namespace RandomInstant

namespace Command

open Text (Bytes utf8)

namespace Reader

/-- Reads arguments and comes to the end. -/
def readAll (r : Reader) (arguments : List Bytes) : Except Interruption Options := do
  let r ← arguments.foldlM read r
  r.finish

/-- A reader for which nothing is pending and options have not come to an end. -/
structure Ready (r : Reader) : Prop where
  /-- Nothing is pending. -/
  pending : r.pending = .nothing
  /-- More options may come. -/
  ended : r.ended = false
  /-- No option was given twice. -/
  distinct : r.given.Nodup
  /-- The options that were given are those that mean something. -/
  given : ∀ k, k ∈ r.given ↔ (r.options.meaning? k).isSome

/-- The second reader is the first one with an option more settled. -/
structure Adds (r : Reader) (k : Key) (m : Meaning) (r' : Reader) : Prop where
  /-- The option was not given before. -/
  fresh : k ∉ r.given
  /-- It means something now. -/
  options : r.options.With k m r'.options
  /-- It was given last. -/
  given : r'.given = r.given ++ [k]
  /-- The same is pending. -/
  pending : r'.pending = r.pending
  /-- Options have come to an end or not, as before. -/
  ended : r'.ended = r.ended

variable {r r' r'' : Reader} {s : Setting} {k : Key} {m : Meaning} {o : Options}
  {argument value : Bytes} {arguments rest : List Bytes}

/-! ## Settling -/

/-- Only the options that are settled are different, and which they are. -/
lemma Adds.eq_with (h : r.Adds k m r') :
    { r with options := r'.options, given := r.given ++ [k] } = r' := by
  rw [← h.given, ← h.pending, ← h.ended]

/-- What adds an option leaves the reader ready. -/
lemma Adds.ready (h : r.Adds k m r') (hr : r.Ready) : r'.Ready where
  pending := h.pending.trans hr.pending
  ended := h.ended.trans hr.ended
  distinct := by
    rw [h.given, ← List.concat_eq_append]
    exact hr.distinct.concat h.fresh
  given := by
    intro k'
    rw [h.given, List.mem_append, List.mem_singleton]
    by_cases hk : k' = k
    · simp [hk, h.options.given]
    · simp [hk, h.options.others k' hk, hr.given]

/-- **A value is settled if it is a text that denotes something**, and the setting was not given
before. -/
lemma assign_eq_ok_iff :
    r.assign s value = .ok r' ↔
      ∃ text m, value = utf8 text ∧ s.Denotes text m ∧ r.Adds (.setting s) m r' := by
  constructor
  · intro h
    unfold assign at h
    split at h
    · cases h
    · next hfresh =>
        split at h
        · cases h
        · next text htext =>
            split at h
            · cases h
            · next options hset =>
                cases h
                obtain ⟨m, hm, hwith⟩ := Options.set_eq_ok_iff.mp hset
                exact ⟨text, m, Text.ofUtf8?_eq_some_iff.mp htext, hm,
                  hfresh, hwith, rfl, rfl, rfl⟩
  · rintro ⟨text, m, rfl, hm, hadds⟩
    have hset := Options.set_eq_ok_iff.mpr ⟨m, hm, hadds.options⟩
    simp only [assign, if_neg hadds.fresh, Text.ofUtf8?_utf8, hset, hadds.eq_with]

/-- A reader that waits for nothing is settled. -/
lemma settle_of_nothing (hr : r.pending = .nothing) : r.settle = .ok r := by
  simp only [settle, hr]

/-- The switch is settled if it was not given before. -/
lemma onSwitch_eq_ok_iff {full : Bool} (hr : r.pending = .nothing) :
    r.onSwitch .drawnStatements full = .ok r' ↔ r.Adds .drawnStatements .on r' := by
  simp only [onSwitch, settle_of_nothing hr]
  constructor
  · intro h
    rw [Except.bind_eq_ok_iff] at h
    obtain ⟨_, ⟨⟩, h⟩ := h
    split at h
    · cases h
    · next hfresh =>
        cases h
        exact ⟨hfresh, r.options.with_drawnStatements, rfl, rfl, rfl⟩
  · intro h
    have hoptions := r.options.with_drawnStatements.unique h.options
    rw [Except.bind_eq_ok_iff]
    refine ⟨r, rfl, ?_⟩
    simp only [if_neg h.fresh, hoptions]
    exact congrArg Except.ok h.eq_with

/-! ## Holding back -/

/-- Settling leaves nothing pending, and options have come to an end or not, as before. -/
lemma of_settle (h : r.settle = .ok r') : r'.pending = .nothing ∧ r'.ended = r.ended := by
  unfold settle at h
  split at h
  · next hr =>
      cases h
      exact ⟨hr, rfl⟩
  · cases h
  · obtain ⟨_, _, _, _, hadds⟩ := assign_eq_ok_iff.mp h
    exact ⟨hadds.pending, hadds.ended⟩

/-- What settles first might as well go on from what was settled. -/
lemma bind_settle_eq_ok_iff {α : Type} {f : Reader → Except Interruption α} {a : α} :
    r.settle >>= f = .ok a ↔ ∃ r', r.settle = .ok r' ∧ r'.settle >>= f = .ok a := by
  rw [Except.bind_eq_ok_iff]
  constructor
  · rintro ⟨r', hr', h⟩
    refine ⟨r', hr', ?_⟩
    rw [settle_of_nothing (of_settle hr').1]
    exact h
  · rintro ⟨r', hr', h⟩
    rw [settle_of_nothing (of_settle hr').1] at h
    exact ⟨r', hr', h⟩

/-- It makes no difference to the end whether options have come to an end before. -/
lemma finish_ended (r : Reader) : ({ r with ended := true } : Reader).finish = r.finish := by
  obtain ⟨options, given, pending, ended⟩ := r
  cases pending with
  | nothing => rfl
  | waiting s => rfl
  | held s value =>
      simp only [finish, settle, assign]
      split
      · rfl
      · split
        · rfl
        · split <;> rfl

/-- At the end of the arguments the reader finishes. -/
lemma readAll_nil (r : Reader) : r.readAll [] = r.finish := rfl

/-- Arguments are read one after the other. -/
lemma readAll_cons_eq_ok_iff :
    r.readAll (argument :: rest) = .ok o ↔
      ∃ r', r.read argument = .ok r' ∧ r'.readAll rest = .ok o := by
  rw [readAll, List.foldlM_cons, bind_assoc, Except.bind_eq_ok_iff]
  rfl

/-- Once the first argument is read, the rest is read by what it has led to. -/
lemma readAll_cons_of_read (h : r.read argument = .ok r') :
    r.readAll (argument :: rest) = r'.readAll rest := by
  simp only [readAll, List.foldlM_cons, h]
  rfl

/-- After the terminator there is nothing. -/
lemma readAll_terminator (hr : r.ended = false) :
    r.readAll (utf8 "--" :: rest) = .ok o ↔ rest = [] ∧ r.finish = .ok o := by
  have hread : r.read (utf8 "--") = .ok { r with ended := true } :=
    (read_eq_ok_iff hr).mpr .terminator
  rw [readAll_cons_eq_ok_iff]
  constructor
  · rintro ⟨r', hr', h⟩
    cases hread.symm.trans hr'
    cases rest with
    | nil => exact ⟨rfl, by rwa [readAll_nil, finish_ended] at h⟩
    | cons argument rest =>
        obtain ⟨r'', hr'', -⟩ := readAll_cons_eq_ok_iff.mp h
        cases hr''
  · rintro ⟨rfl, h⟩
    exact ⟨_, hread, by rwa [readAll_nil, finish_ended]⟩

/-- Where nothing waits for a value, every argument but the terminator settles what is pending
first. -/
lemma read_eq_ok_iff_settle (hr : r.ended = false) (hwaiting : ∀ s, r.pending ≠ .waiting s)
    (hargument : argument ≠ utf8 "--") :
    r.read argument = .ok r' ↔ ∃ r'', r.settle = .ok r'' ∧ r''.read argument = .ok r' := by
  constructor
  · intro h
    cases (read_eq_ok_iff hr).mp h with
    | terminator => exact absurd rfl hargument
    | setting hopening h =>
        obtain ⟨r'', hsettle, h⟩ := bind_settle_eq_ok_iff.mp h
        refine ⟨r'', hsettle, ?_⟩
        rw [read_of_opening ((of_settle hsettle).2.trans hr) hopening]
        exact h
    | switch h =>
        obtain ⟨r'', hsettle, h⟩ := bind_settle_eq_ok_iff.mp h
        refine ⟨r'', hsettle, ?_⟩
        rw [read_switch ((of_settle hsettle).2.trans hr)]
        exact h
    | value hwaits => exact absurd hwaits (hwaiting _)
  · rintro ⟨r'', hsettle, h⟩
    cases (read_eq_ok_iff ((of_settle hsettle).2.trans hr)).mp h with
    | terminator => exact absurd rfl hargument
    | setting hopening h =>
        rw [read_of_opening hr hopening]
        exact bind_settle_eq_ok_iff.mpr ⟨r'', hsettle, h⟩
    | switch h =>
        rw [read_switch hr]
        exact bind_settle_eq_ok_iff.mpr ⟨r'', hsettle, h⟩
    | value hwaits =>
        rw [(of_settle hsettle).1] at hwaits
        cases hwaits

/-- **A value that is held back might as well be settled at once.** -/
theorem readAll_eq_ok_iff_settle (hr : r.ended = false) (hwaiting : ∀ s, r.pending ≠ .waiting s) :
    r.readAll arguments = .ok o ↔ ∃ r', r.settle = .ok r' ∧ r'.readAll arguments = .ok o := by
  have hended : ∀ {r'}, r.settle = .ok r' → r'.ended = false := fun h =>
    (of_settle h).2.trans hr
  cases arguments with
  | nil => exact bind_settle_eq_ok_iff
  | cons argument rest =>
      by_cases hargument : argument = utf8 "--"
      · subst hargument
        rw [readAll_terminator hr, finish, bind_settle_eq_ok_iff]
        constructor
        · rintro ⟨hrest, r', hr', h⟩
          exact ⟨r', hr', (readAll_terminator (hended hr')).mpr ⟨hrest, h⟩⟩
        · rintro ⟨r', hr', h⟩
          obtain ⟨hrest, h⟩ := (readAll_terminator (hended hr')).mp h
          exact ⟨hrest, r', hr', h⟩
      · simp only [readAll_cons_eq_ok_iff, read_eq_ok_iff_settle hr hwaiting hargument]
        constructor
        · rintro ⟨r'', ⟨r', hr', h⟩, hrest⟩
          exact ⟨r', hr', r'', h, hrest⟩
        · rintro ⟨r', hr', r'', h, hrest⟩
          exact ⟨r'', ⟨r', hr', h⟩, hrest⟩

/-! ## Group by group -/

/-- A setting without a value has the reader wait for one. -/
lemma onSetting_none (hr : r.pending = .nothing) :
    r.onSetting s none = .ok { r with pending := .waiting s } := by
  rw [onSetting, settle_of_nothing hr]
  rfl

/-- A setting with a value is assigned. -/
lemma onSetting_some (hr : r.pending = .nothing) :
    r.onSetting s (some value) = r.assign s value := by
  rw [onSetting, settle_of_nothing hr]
  rfl

/-- An option can be given a meaning that has a spelling. -/
lemma exists_adds_of_spelling {group : List Bytes} (h : Spelling k m group) (hk : k ∉ r.given) :
    ∃ r', r.Adds k m r' := by
  have hwith : ∃ o', r.options.With k m o' := by
    cases k with
    | drawnStatements =>
        cases h
        exact ⟨_, r.options.with_drawnStatements⟩
    | setting s =>
        obtain ⟨text, _, hm, -⟩ := h.exists_opening
        obtain ⟨o', -, ho'⟩ := Options.exists_set_of_denotes hm r.options
        exact ⟨o', ho'⟩
  obtain ⟨o', ho'⟩ := hwith
  exact ⟨{ r with options := o', given := r.given ++ [k] }, hk, ho', rfl, rfl, rfl⟩

/-- What waits for a value cannot be settled without it. -/
lemma settle_ne_ok_of_waiting (hr : r.pending = .waiting s) : r.settle ≠ .ok r' := by
  intro h
  rw [settle, hr] at h
  cases h

/-- The next argument is held back by a setting that waits, if it is a value. -/
lemma read_of_waiting (hended : r.ended = false) (hr : r.pending = .waiting s)
    (hargument : argument ≠ utf8 "--") :
    r.read argument = .ok r' ↔
      Form.ofArgument argument = .value ∧ r' = { r with pending := .held s argument } := by
  rw [read_eq_ok_iff hended]
  constructor
  · intro h
    cases h with
    | terminator => exact absurd rfl hargument
    | setting _ h =>
        obtain ⟨_, hsettle, _⟩ := Except.bind_eq_ok_iff.mp h
        exact absurd hsettle (settle_ne_ok_of_waiting hr)
    | switch h =>
        obtain ⟨_, hsettle, _⟩ := Except.bind_eq_ok_iff.mp h
        exact absurd hsettle (settle_ne_ok_of_waiting hr)
    | value hwaiting hvalue =>
        cases hr.symm.trans hwaiting
        exact ⟨hvalue, rfl⟩
  · rintro ⟨hvalue, rfl⟩
    exact .value hr hvalue

/-- **A setting that waits for its value is settled with the next argument**, if that is a value
that denotes something. -/
lemma readAll_of_waiting (hended : r.ended = false) (hr : r.pending = .waiting s) :
    r.readAll arguments = .ok o ↔
      ∃ text m rest r', arguments = utf8 text :: rest ∧ Form.ofArgument (utf8 text) = .value ∧
        s.Denotes text m ∧ ({ r with pending := .nothing } : Reader).Adds (.setting s) m r' ∧
        r'.readAll rest = .ok o := by
  have hheld : ∀ argument rest,
      ({ r with pending := .held s argument } : Reader).readAll rest = .ok o ↔
        ∃ r', ({ r with pending := .nothing } : Reader).assign s argument = .ok r' ∧
          r'.readAll rest = .ok o := by
    intro argument rest
    exact readAll_eq_ok_iff_settle (r := { r with pending := .held s argument }) hended (by simp)
  constructor
  · intro h
    cases arguments with
    | nil =>
        obtain ⟨_, hsettle, _⟩ := Except.bind_eq_ok_iff.mp ((readAll_nil r).symm.trans h)
        exact absurd hsettle (settle_ne_ok_of_waiting hr)
    | cons argument rest =>
        by_cases hargument : argument = utf8 "--"
        · subst hargument
          obtain ⟨-, h⟩ := (readAll_terminator hended).mp h
          obtain ⟨_, hsettle, _⟩ := Except.bind_eq_ok_iff.mp h
          exact absurd hsettle (settle_ne_ok_of_waiting hr)
        · obtain ⟨_, hread, h⟩ := readAll_cons_eq_ok_iff.mp h
          obtain ⟨hvalue, rfl⟩ := (read_of_waiting hended hr hargument).mp hread
          obtain ⟨r', hassign, hrest⟩ := (hheld argument rest).mp h
          obtain ⟨text, m, rfl, hm, hadds⟩ := assign_eq_ok_iff.mp hassign
          exact ⟨text, m, rest, r', rfl, hvalue, hm, hadds, hrest⟩
  · rintro ⟨text, m, rest, r', rfl, hvalue, hm, hadds, h⟩
    have hargument : utf8 text ≠ utf8 "--" := by
      intro heq
      rw [heq] at hvalue
      exact absurd hvalue (by decide)
    have hread := (read_of_waiting hended hr hargument).mpr ⟨hvalue, rfl⟩
    have hassign := assign_eq_ok_iff.mpr ⟨text, m, rfl, hm, hadds⟩
    exact readAll_cons_eq_ok_iff.mpr ⟨_, hread, (hheld _ _).mpr ⟨r', hassign, h⟩⟩

/-- The next argument after a setting that opens is its value. -/
lemma Ready.readAll_of_opening_none (hr : r.Ready) (h : s.Opening argument none) :
    r.readAll (argument :: arguments) = .ok o ↔
      ∃ text m rest r', arguments = utf8 text :: rest ∧ Form.ofArgument (utf8 text) = .value ∧
        s.Denotes text m ∧ r.Adds (.setting s) m r' ∧ r'.readAll rest = .ok o := by
  have hread : r.read argument = .ok { r with pending := .waiting s } := by
    rw [read_of_opening hr.ended h, onSetting_none hr.pending]
  have hsame : ({ r with pending := .nothing } : Reader) = r := by
    rw [← hr.pending]
  rw [readAll_cons_of_read hread,
    readAll_of_waiting (r := { r with pending := .waiting s }) hr.ended rfl]
  simp only [hsame]

/-- Reading a group adds the option that it spells. -/
lemma Ready.readAll_of_spelling {group : List Bytes} (hr : r.Ready) (h : Spelling k m group)
    (hadds : r.Adds k m r') (hrest : r'.readAll rest = .ok o) :
    r.readAll (group ++ rest) = .ok o := by
  cases k with
  | drawnStatements =>
      cases h
      have hread : r.read (utf8 "--drawn-statements") = .ok r' := by
        rw [read_switch hr.ended, onSwitch_eq_ok_iff hr.pending]
        exact hadds
      rw [List.singleton_append, readAll_cons_of_read hread, hrest]
  | setting s =>
      obtain ⟨text, argument, hm, ⟨hopening, rfl⟩ | ⟨hopening, hvalue, rfl⟩⟩ := h.exists_opening
      · have hread : r.read argument = .ok r' := by
          rw [read_of_opening hr.ended hopening, onSetting_some hr.pending, assign_eq_ok_iff]
          exact ⟨text, m, rfl, hm, hadds⟩
        rw [List.singleton_append, readAll_cons_of_read hread, hrest]
      · exact (hr.readAll_of_opening_none hopening).mpr
          ⟨text, m, rest, r', rfl, hvalue, hm, hadds, hrest⟩

/-- Arguments that are read to their end begin with a group, unless there are none or only the
terminator is left. -/
lemma Ready.exists_group_of_readAll (hr : r.Ready) (hargument : argument ≠ utf8 "--")
    (h : r.readAll (argument :: rest) = .ok o) :
    ∃ k m group rest' r', argument :: rest = group ++ rest' ∧ Spelling k m group ∧
      r.Adds k m r' ∧ r'.readAll rest' = .ok o := by
  obtain ⟨r', hread, hrest⟩ := readAll_cons_eq_ok_iff.mp h
  cases (read_eq_ok_iff hr.ended).mp hread with
  | terminator => exact absurd rfl hargument
  | @setting s _ value? _ hopening hsetting =>
      cases value? with
      | none =>
          obtain ⟨text, m, rest', r'', rfl, hvalue, hm, hadds, hrest'⟩ :=
            (hr.readAll_of_opening_none hopening).mp h
          exact ⟨_, m, [argument, utf8 text], rest', r'', rfl,
            .of_opening_none hopening hvalue hm, hadds, hrest'⟩
      | some value =>
          rw [onSetting_some hr.pending, assign_eq_ok_iff] at hsetting
          obtain ⟨text, m, hvalue, hm, hadds⟩ := hsetting
          exact ⟨_, m, [argument], rest, r', rfl,
            .of_opening_some hopening hvalue hm, hadds, hrest⟩
  | switch hswitch =>
      exact ⟨_, _, [_], rest, r', rfl, .switch, (onSwitch_eq_ok_iff hr.pending).mp hswitch, hrest⟩
  | value hwaiting =>
      rw [hr.pending] at hwaiting
      cases hwaiting

end Reader

end Command

end RandomInstant
