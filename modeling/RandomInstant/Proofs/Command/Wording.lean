import RandomInstant.Proofs.Command.Reading

/-!
# What command lines are

The arguments that are read without a complaint are the groups that spell options, one for each
option that is given and in any order, and the terminator behind them if there is one. Only two
options exclude each other, which is looked at when all groups have been read.

* `Reader.Words`: groups that spell what options have beyond those that a reader has settled.
* `Reader.Ready.readAll_eq_ok_iff`: what is read from the state that a reader is in.
* **`commandLine_iff`**: the options of a command line, and when there are any.
-/

namespace RandomInstant

namespace Command

open Text (Bytes utf8)

namespace Reader

variable {r : Reader} {k : Key} {o : Options} {arguments : List Bytes}

/-- Of options that are given once, two exclude each other where both of them are given. -/
lemma conflict_iff {given : List Key} (hgiven : given.Nodup) :
    (∃ k other rest,
      given.filter (fun k => k = .setting .statements || k = .drawnStatements) =
        k :: other :: rest) ↔
      .setting .statements ∈ given ∧ .drawnStatements ∈ given := by
  have hmem : ∀ k, k ∈ given.filter (fun k => k = .setting .statements || k = .drawnStatements) ↔
      k ∈ given ∧ (k = .setting .statements ∨ k = .drawnStatements) := by
    simp
  have hnodup := hgiven.filter fun k => k = .setting .statements || k = .drawnStatements
  generalize given.filter (fun k => k = .setting .statements || k = .drawnStatements) = both
    at hmem hnodup
  constructor
  · rintro ⟨k, other, rest, rfl⟩
    have hne : k ≠ other := by
      rintro rfl
      simp at hnodup
    obtain ⟨hk, hk'⟩ := (hmem k).mp (by simp)
    obtain ⟨hother, hother'⟩ := (hmem other).mp (by simp)
    rcases hk' with rfl | rfl <;> rcases hother' with rfl | rfl
    · exact absurd rfl hne
    · exact ⟨hk, hother⟩
    · exact ⟨hother, hk⟩
    · exact absurd rfl hne
  · rintro ⟨hstatements, hswitch⟩
    have hstatements := (hmem _).mpr ⟨hstatements, .inl rfl⟩
    have hswitch := (hmem _).mpr ⟨hswitch, .inr rfl⟩
    match both, hstatements, hswitch with
    | [k], hstatements, hswitch =>
        rw [List.mem_singleton] at hstatements hswitch
        cases hstatements.trans hswitch.symm
    | k :: other :: rest, _, _ => exact ⟨k, other, rest, rfl⟩

/-- Coming to the end refuses options that exclude each other, and nothing else. -/
lemma Ready.finish_eq_ok_iff (hr : r.Ready) :
    r.finish = .ok o ↔ o = r.options ∧ ¬(o.statements.isSome ∧ o.drawnStatements) := by
  have hconflict := conflict_iff hr.distinct
  rw [hr.given, hr.given, Options.isSome_meaning?_statements,
    Options.isSome_meaning?_drawnStatements] at hconflict
  rw [finish, settle_of_nothing hr.pending, Except.bind_eq_ok_iff]
  constructor
  · rintro ⟨_, ⟨⟩, h⟩
    split at h
    · cases h
    · next hfilter =>
        cases h
        refine ⟨rfl, ?_⟩
        intro hboth
        obtain ⟨k, other, rest, hkeys⟩ := hconflict.mpr hboth
        exact hfilter k other rest hkeys
  · rintro ⟨rfl, hboth⟩
    refine ⟨r, rfl, ?_⟩
    split
    · next k other rest hkeys => exact absurd (hconflict.mp ⟨k, other, rest, hkeys⟩) hboth
    · rfl

/-- The groups spell the options that are given beyond those that a reader has settled. -/
structure Words (r : Reader) (groups : List (Key × List Bytes)) (o : Options) : Prop where
  /-- No option is given twice. -/
  distinct : (r.given ++ groups.map Prod.fst).Nodup
  /-- A group spells what its option means. -/
  spelled : ∀ g ∈ groups, ∃ m, o.meaning? g.1 = some m ∧ Spelling g.1 m g.2
  /-- Options without a group are as they were. -/
  others : ∀ k, k ∉ groups.map Prod.fst → o.meaning? k = r.options.meaning? k

/-- No arguments word the options that there are. -/
lemma Ready.words_nil_iff (hr : r.Ready) : r.Words [] o ↔ o = r.options := by
  constructor
  · intro h
    exact Options.ext_meaning fun k => h.others k List.not_mem_nil
  · rintro rfl
    exact ⟨by simpa using hr.distinct, by simp, fun _ _ => rfl⟩

/-- The first group gives one option, and the others give the rest. -/
lemma words_cons_iff {group : List Bytes} {groups : List (Key × List Bytes)} :
    r.Words ((k, group) :: groups) o ↔
      ∃ m r', Spelling k m group ∧ r.Adds k m r' ∧ r'.Words groups o := by
  constructor
  · intro h
    obtain ⟨m, hmeaning, hm⟩ := h.spelled _ List.mem_cons_self
    have hk := (List.nodup_cons.mp (List.nodup_middle.mp h.distinct)).1
    rw [List.mem_append, not_or] at hk
    obtain ⟨r', hadds⟩ := exists_adds_of_spelling hm hk.1
    refine ⟨m, r', hm, hadds, ?_, ?_, ?_⟩
    · rw [hadds.given, List.append_assoc, List.singleton_append]
      exact h.distinct
    · intro g hg
      exact h.spelled g (List.mem_cons_of_mem _ hg)
    · intro k' hk'
      by_cases hsame : k' = k
      · rw [hsame, hadds.options.given, hmeaning]
      · rw [hadds.options.others k' hsame]
        exact h.others k' (List.not_mem_cons_of_ne_of_not_mem hsame hk')
  · rintro ⟨m, r', hm, hadds, h⟩
    have hdistinct := h.distinct
    rw [hadds.given, List.append_assoc, List.singleton_append] at hdistinct
    have hk := (List.nodup_cons.mp (List.nodup_middle.mp hdistinct)).1
    rw [List.mem_append, not_or] at hk
    constructor
    · exact hdistinct
    · intro g hg
      rcases List.mem_cons.mp hg with rfl | hg
      · exact ⟨m, (h.others k hk.2).trans hadds.options.given, hm⟩
      · exact h.spelled g hg
    · intro k' hk'
      rw [List.map_cons, List.mem_cons, not_or] at hk'
      rw [h.others k' hk'.2, hadds.options.others k' hk'.1]

/-- **Arguments are read to their end if they are groups that spell options**, the terminator
behind them or not, and the options do not exclude each other. -/
theorem Ready.readAll_eq_ok_iff (hr : r.Ready) :
    r.readAll arguments = .ok o ↔
      (∃ groups tail, r.Words groups o ∧ (tail = [] ∨ tail = [utf8 "--"]) ∧
        arguments = (groups.map Prod.snd).flatten ++ tail) ∧
        ¬(o.statements.isSome ∧ o.drawnStatements) := by
  constructor
  · intro h
    induction hlength : arguments.length using Nat.strongRecOn generalizing r arguments with
    | ind length ih =>
        cases arguments with
        | nil =>
            obtain ⟨ho, hconflict⟩ := hr.finish_eq_ok_iff.mp h
            exact ⟨⟨[], [], hr.words_nil_iff.mpr ho, .inl rfl, rfl⟩, hconflict⟩
        | cons argument rest =>
            by_cases hargument : argument = utf8 "--"
            · subst hargument
              obtain ⟨rfl, hfinish⟩ := (readAll_terminator hr.ended).mp h
              obtain ⟨ho, hconflict⟩ := hr.finish_eq_ok_iff.mp hfinish
              exact ⟨⟨[], _, hr.words_nil_iff.mpr ho, .inr rfl, rfl⟩, hconflict⟩
            · obtain ⟨k, m, group, rest', r', hcut, hm, hadds, h⟩ :=
                hr.exists_group_of_readAll hargument h
              have hshorter : rest'.length < length := by
                rw [← hlength, hcut, List.length_append]
                have := List.length_pos_iff.mpr hm.ne_nil
                omega
              obtain ⟨⟨groups, tail, hwords, htail, rfl⟩, hconflict⟩ :=
                ih _ hshorter (hadds.ready hr) h rfl
              have hwords := words_cons_iff.mpr ⟨m, r', hm, hadds, hwords⟩
              refine ⟨⟨(k, group) :: groups, tail, hwords, htail, ?_⟩, hconflict⟩
              rw [hcut, List.map_cons, List.flatten_cons, List.append_assoc]
  · rintro ⟨⟨groups, tail, hwords, htail, rfl⟩, hconflict⟩
    induction groups generalizing r with
    | nil =>
        have hfinish := hr.finish_eq_ok_iff.mpr ⟨hr.words_nil_iff.mp hwords, hconflict⟩
        rcases htail with rfl | rfl
        · exact hfinish
        · exact (readAll_terminator hr.ended).mpr ⟨rfl, hfinish⟩
    | cons g groups ih =>
        obtain ⟨m, r', hm, hadds, hwords⟩ := words_cons_iff.mp hwords
        rw [List.map_cons, List.flatten_cons, List.append_assoc]
        exact hr.readAll_of_spelling hm hadds (ih (hadds.ready hr) hwords)

/-- A reader that has read nothing is ready. -/
lemma ready_empty : ({} : Reader).Ready where
  pending := rfl
  ended := rfl
  distinct := List.nodup_nil
  given := by
    rintro (s | _)
    · cases s <;> simp [Options.meaning?]
    · simp

end Reader

/-- Groups that spell options: one for each option that is given, in any order. -/
structure Options.Wording (o : Options) (groups : List (Key × List Bytes)) : Prop where
  /-- No option has two groups. -/
  distinct : (groups.map Prod.fst).Nodup
  /-- The options that have a group are those that are given. -/
  given : ∀ k, k ∈ groups.map Prod.fst ↔ (o.meaning? k).isSome
  /-- A group spells what its option means. -/
  spelled : ∀ g ∈ groups, ∃ m, o.meaning? g.1 = some m ∧ Spelling g.1 m g.2

/-- To it, words are a wording of the options. -/
lemma Reader.words_empty_iff {o : Options} {groups : List (Key × List Bytes)} :
    ({} : Reader).Words groups o ↔ o.Wording groups := by
  have hnone : ∀ k, ({} : Options).meaning? k = none := by
    intro k
    rw [← Option.not_isSome_iff_eq_none, ← ready_empty.given]
    exact List.not_mem_nil
  constructor
  · intro h
    refine ⟨h.distinct, ?_, h.spelled⟩
    intro k
    constructor
    · intro hk
      obtain ⟨g, hg, rfl⟩ := List.mem_map.mp hk
      obtain ⟨m, hm, -⟩ := h.spelled g hg
      rw [hm]
      rfl
    · intro hk
      by_contra hnot
      rw [h.others k hnot, hnone] at hk
      cases hk
  · intro h
    refine ⟨h.distinct, h.spelled, ?_⟩
    intro k hk
    rw [h.given, Option.not_isSome_iff_eq_none] at hk
    rw [hk, hnone]

end Command

open Command

/-- **The options of a command line are what its groups of arguments spell.** Arguments are read
as options if they are groups that spell them, one for each that is given and in any order, with
the terminator behind them or not, and if the number of statements and the switch for drawn
statement counts are not given both. No other options are read from them. -/
theorem commandLine_iff {arguments : List Text.Bytes} {o : Options} :
    Options.ofArguments arguments = .ok o ↔
      (∃ groups tail, o.Wording groups ∧ (tail = [] ∨ tail = [Text.utf8 "--"]) ∧
        arguments = (groups.map Prod.snd).flatten ++ tail) ∧
        ¬(o.statements.isSome ∧ o.drawnStatements) := by
  simp only [← Reader.words_empty_iff]
  exact Reader.ready_empty.readAll_eq_ok_iff

/-- A letter with its value, a value that is a hyphen, and the zero with a minus sign. -/
example : Options.ofArguments
    (["-n3", "--prefix", "-", "--max-literal=-0", "--"].map Text.utf8) =
      .ok { statements := some 3, stem := some "-", maxLiteral := some 0 } := rfl

end RandomInstant
