import RandomInstant.Proofs.Program.Printed
import RandomInstant.Proofs.Program.Size
import RandomInstant.Proofs.Program.Traced
import RandomInstant.Proofs.Session.InPlace

/-!
# The log as an account of the program

A program is told of three times. A name is announced before it is declared, a statement is put in
words before it is joined to the program, and the program is put in words as a whole once it is
finished. What the first two say can be read off the third: the log of a seed is what
`Tokens.accounts` makes of the statements in the finished program, after two records about the seed
and the count.

* `Statement.assigned?_tokens`: that a statement assigns, and to which name, shows in how its tokens
  begin.
* `Statement.Series.log_eq`: what is noted about a series of statements is their account.
* `eq_nthName_of_filter_announces`: the number of a name is the number of announcements before its
  own.
* `generateUpTo_eq`: letting through what was noted, or noting only what is let through, comes to
  the same.
* **`log_accounts_for_program`**: all of this for the programs of seeds.
-/

namespace RandomInstant

open Draw (course_of_outcome_eq)

variable {c : Config} {scope scope' : Scope} {stem : String} {r : List (Happening Remark)}

/-! ## Accounts -/

/-- The record that names the seed of a program. -/
def seedNotice (seed : UInt64) : Log.Record :=
  ⟨.debug, "instgen_core", "generating program with seed " ++ seed.toNat.repr⟩

/-- The record that names the count that was drawn and the count that is used. -/
def countNotice (drawn count : UInt64) : Log.Record :=
  ⟨.debug, "instgen_core::generator", "drew statement count " ++ drawn.toNat.repr ++
    ", generating " ++ count.toNat.repr ++ " statements"⟩

/-- The record that announces a name. -/
def announcement (name : String) : Log.Record :=
  ⟨.trace, "instgen_core::generator", "declared " ++ name⟩

/-- The record that holds the text of a statement at a place of a program. -/
def transcript (place : Nat) (text : String) : Log.Record :=
  ⟨.trace, "instgen_core::generator", "statement " ++ place.repr ++ ": " ++ text⟩

/-- Whether a record announces a name. -/
def Log.Record.announces (r : Log.Record) : Bool :=
  "declared ".toList.isPrefixOf r.message.toList

/-- The name that a sequence of tokens assigns to, which it begins with. -/
def Tokens.assigned? : Tokens → Option String
  | .ident x :: .assign :: _ => some x
  | _ => none

/-- What is to be said of a statement at a place of a program: the name that it declares, if it
is an assignment, and then its text. -/
def Tokens.account (place : Nat) (ts : Tokens) : List Log.Record :=
  ts.assigned?.toList.map announcement ++ [transcript place ts.text]

/-- What is to be said of the statements from a place of a program on. -/
def Tokens.accounts (place : Nat) (slices : List Tokens) : List Log.Record :=
  (slices.mapIdx fun i ts => ts.account (place + i)).flatten

/-- The first statement is accounted for before the others. -/
lemma Tokens.accounts_cons (place : Nat) (ts : Tokens) (slices : List Tokens) :
    accounts place (ts :: slices) = ts.account place ++ accounts (place + 1) slices := by
  simp [accounts, List.mapIdx_cons, Nat.add_assoc, Nat.add_comm 1]

/-- All records in an account matter as little as possible. -/
lemma Tokens.level_of_mem_account {place : Nat} {ts : Tokens} {r : Log.Record}
    (h : r ∈ ts.account place) : r.level = .trace := by
  obtain ⟨x, -, rfl⟩ | rfl := by simpa [account] using h
  · rfl
  · rfl

/-! ## Assignments -/

/-- There is no assignment in an expression. -/
lemma Expr.assign_not_mem_tokens (e : Expr) : .assign ∉ e.tokens := by
  have h := countP_tokens (· == .assign) 0 0 0 (fun v => by cases v <;> rfl) (fun _ => rfl) rfl e
  have hzero : e.tokens.count .assign = 0 := by simpa [List.count] using h
  exact List.count_eq_zero.mp hzero

/-- What has no sign of assignment assigns to no name. -/
lemma Tokens.assigned?_eq_none {ts : Tokens} (h : .assign ∉ ts) : ts.assigned? = none := by
  unfold assigned?
  split
  · simp at h
  · rfl

/-- What a statement assigns to shows in its tokens. -/
lemma Statement.assigned?_tokens (s : Statement) : s.tokens.assigned? = s.assigned? := by
  cases s with
  | expression e => exact Tokens.assigned?_eq_none e.assign_not_mem_tokens
  | assignment name e => rfl

/-! ## Announcements -/

/-- The record that announces a name does so. -/
lemma announces_announcement (name : String) : (announcement name).announces = true := by
  simp [Log.Record.announces, announcement]

/-- Different names are announced differently. -/
lemma announcement_injective {x y : String} (h : announcement x = announcement y) : x = y :=
  (String.append_right_inj "declared ").mp (congrArg Log.Record.message h)

/-- What begins in another way announces no name. -/
lemma announces_eq_false {r : Log.Record} (opening : String)
    (hlength : "declared ".toList.length ≤ opening.toList.length)
    (hopening : ¬ "declared ".toList <+: opening.toList)
    (hmessage : opening.toList <+: r.message.toList) : r.announces = false := by
  rw [Log.Record.announces, Bool.eq_false_iff, ne_eq, List.isPrefixOf_iff_prefix]
  exact fun hprefix => hopening (List.prefix_of_prefix_length_le hprefix hmessage hlength)

/-- The record of the seed announces no name. -/
lemma announces_seedNotice (seed : UInt64) : (seedNotice seed).announces = false :=
  announces_eq_false "generating " (by decide) (by decide) (by simp [seedNotice])

/-- The record of the counts announces no name. -/
lemma announces_countNotice (drawn count : UInt64) :
    (countNotice drawn count).announces = false :=
  announces_eq_false "drew statement " (by decide) (by decide) (by simp [countNotice])

/-- The records that announce a name are those of the remarks that declare one. -/
lemma announces_logRecord (e : Remark) : e.logRecord.announces = e.declared?.isSome := by
  cases e with
  | counted drawn count => exact announces_countNotice drawn count
  | declared name => exact announces_announcement name
  | drew place s =>
      exact announces_eq_false "statement " (by decide) (by decide) (by simp [Remark.logRecord])

/-- A remark that declares a name is recorded as its announcement. -/
lemma logRecord_of_declared {e : Remark} {x : String} (h : e.declared? = some x) :
    e.logRecord = announcement x := by
  cases e with
  | counted drawn count => cases h
  | declared name =>
      cases h
      rfl
  | drew place s => cases h

/-- The announcements among the records of remarks are those of the names that are declared. -/
lemma filter_announces_map_logRecord (es : List Remark) :
    (es.map Remark.logRecord).filter Log.Record.announces =
      (es.filterMap Remark.declared?).map announcement := by
  induction es with
  | nil => rfl
  | cons e es ih =>
      have he := announces_logRecord e
      cases hx : e.declared? with
      | none =>
          rw [hx] at he
          rw [List.map_cons, List.filter_cons_of_neg (by simp [he]),
            List.filterMap_cons_none hx, ih]
      | some x =>
          rw [hx] at he
          rw [List.map_cons, List.filter_cons_of_pos he, List.filterMap_cons_some hx, List.map_cons,
            ih, logRecord_of_declared hx]

/-- The account of a statement words what is noted about it. -/
lemma Statement.account_tokens (place : Nat) (s : Statement) :
    s.tokens.account place =
      (s.assigned?.toList.map Remark.declared ++ [Remark.drew place s]).map Remark.logRecord := by
  rw [Tokens.account, assigned?_tokens, List.map_append, List.map_map]
  rfl

/-- The announcement in the account of a statement is that of the name it assigns to. -/
lemma Statement.filter_announces_account (place : Nat) (s : Statement) :
    (s.tokens.account place).filter Log.Record.announces =
      s.assigned?.toList.map announcement := by
  rw [account_tokens, filter_announces_map_logRecord]
  cases s <;> rfl

/-- The announcements in the accounts of statements are the names they assign to, in order. -/
lemma filter_announces_accounts (place : Nat) (ss : List Statement) :
    (Tokens.accounts place (ss.map Statement.tokens)).filter Log.Record.announces =
      (ss.filterMap Statement.assigned?).map announcement := by
  induction ss generalizing place with
  | nil => rfl
  | cons s ss ih =>
      rw [List.map_cons, Tokens.accounts_cons, List.filter_append, ih,
        Statement.filter_announces_account, Statement.filterMap_assigned?_cons, List.map_append]

/-- **The number of a name is the number of announcements before its own**, where the names are
announced in the order of their numbers. -/
theorem eq_nthName_of_filter_announces {log before after : List Log.Record} {n : Nat} {x : String}
    (hnames : log.filter Log.Record.announces =
      (List.range n).map fun k => announcement (nthName stem k))
    (hlog : log = before ++ announcement x :: after) :
    x = nthName stem (before.countP Log.Record.announces) := by
  -- as many announcements stand before this one as the number of its place among them says
  have hplace : (log.filter Log.Record.announces)[before.countP Log.Record.announces]? =
      some (announcement x) := by
    rw [hlog, List.filter_append, List.filter_cons_of_pos (announces_announcement x),
      List.countP_eq_length_filter, List.getElem?_append_right (Nat.le_refl _), Nat.sub_self]
    rfl
  rw [hnames, List.getElem?_map, Option.map_eq_some_iff] at hplace
  obtain ⟨k, hk, hannouncement⟩ := hplace
  obtain ⟨hlt, rfl⟩ := List.getElem?_eq_some_iff.mp hk
  rw [List.getElem_range] at hannouncement
  exact (announcement_injective hannouncement).symm

/-! ## Notes -/

/-- A statement notes the name that it assigns to, if there is one, and nothing else. -/
lemma Statement.Drawn.notes_eq (hc : c.maxDepth < 0xFFFFFFFFFFFFFFFF) {s : Statement}
    (h : Drawn c scope r s scope') :
    r.filterMap Happening.note? = s.assigned?.toList.map Remark.declared := by
  have hexpr {r : List (Happening Remark)} {e : Expr} (he : e.Drawn c scope 1 r) :
      r.filterMap Happening.note? = [] :=
    (Expr.silent c scope 1).notes_eq_nil ((Expr.course_random_iff hc).mpr he)
  cases h with
  | expression _ he =>
      rw [List.filterMap_cons_none rfl, hexpr he]
      rfl
  | assignment he _ =>
      rw [List.filterMap_cons_none rfl, List.filterMap_append, hexpr he]
      rfl

/-- **What is noted about a series of statements is their account.** -/
theorem Statement.Series.log_eq (hc : c.maxDepth < 0xFFFFFFFFFFFFFFFF) {place : Nat}
    {ss : List Statement} (h : Series c place scope r ss scope') :
    (r.filterMap Happening.note?).map Remark.logRecord =
      Tokens.accounts place (ss.map tokens) := by
  induction h with
  | nil place scope => rfl
  | @cons place scope scope₁ scope₂ r r' s ss h rest ih =>
      have hnotes : (r ++ .noted (.drew place s) :: r').filterMap Happening.note? =
          s.assigned?.toList.map Remark.declared ++ [.drew place s] ++
            r'.filterMap Happening.note? := by
        rw [List.filterMap_append, h.notes_eq hc, List.append_assoc]
        rfl
      rw [hnotes, List.map_append, ← account_tokens, ih, List.map_cons, Tokens.accounts_cons]

/-! ## Levels -/

/-- The last level lets everything through. -/
lemma admits_all (level : Log.Level) : Log.Threshold.admits (some .trace) level = true := by
  cases level <;> rfl

/-- What matters least is let through by the last level only. -/
lemma admits_trace_iff {threshold : Log.Threshold} :
    threshold.admits .trace = true ↔ threshold = some .trace := by
  obtain _ | _ | _ | _ | _ | _ := threshold <;> decide

/-- What matters a little more is let through by the last two. -/
lemma admits_debug_iff {threshold : Log.Threshold} :
    threshold.admits .debug = true ↔ threshold = some .debug ∨ threshold = some .trace := by
  obtain _ | _ | _ | _ | _ | _ := threshold <;> decide

/-- A remark, if its record is let through. -/
def Remark.upTo (threshold : Log.Threshold) : Remark → Option Remark :=
  Option.guard fun e => threshold.admits e.logRecord.level

/-- Only those remarks are noted whose records are let through. -/
def Telling.upTo (threshold : Log.Threshold) : Telling Remark where
  remark := Remark.upTo threshold
  call _ := none

/-- The program of a seed, where only that is noted whose record is let through. -/
def generateUpTo (threshold : Log.Threshold) (c : Config) (seed : UInt64) : Generation :=
  (Program.told (.upTo threshold) c).run Source.seeded (Keystream.ofSeed seed)

/-- It makes no difference to the program, nor to what is let through of the log: only that is noted
what is let through, and all of it. -/
theorem generateUpTo_eq (threshold : Log.Threshold) (c : Config) (seed : UInt64) :
    (generateUpTo threshold c seed).outcome = (generate c seed).outcome ∧
      (generateUpTo threshold c seed).notes.map Remark.logRecord =
        ((generate c seed).notes.map Remark.logRecord).filter (fun r => threshold.admits r.level) ∧
      (generateUpTo threshold c seed).logUpTo threshold seed =
        (generate c seed).logUpTo threshold seed := by
  have hrun : generateUpTo threshold c seed =
      (generate c seed).filterNotes (Remark.upTo threshold) :=
    ((Program.inStep_told .remarks (Remark.upTo threshold) c).run_of_kept Source.seeded
      (Keystream.ofSeed seed)).eq_filterNotes
  have hnotes : (generateUpTo threshold c seed).notes.map Remark.logRecord =
      ((generate c seed).notes.map Remark.logRecord).filter fun r =>
        threshold.admits r.level := by
    rw [hrun, Run.notes_filterNotes, Remark.upTo, List.filterMap_eq_filter, List.filter_map]
    rfl
  refine ⟨by rw [hrun]; rfl, hnotes, ?_⟩
  unfold Generation.logUpTo Generation.log
  rw [hnotes, List.filter_cons, List.filter_cons, List.filter_filter]
  simp only [Bool.and_self]

/-- The accounts of statements are let through by the last level only. -/
lemma filter_admits_accounts {threshold : Log.Threshold} (h : threshold ≠ some .trace) (place : Nat)
    (slices : List Tokens) :
    ((Tokens.accounts place slices).filter fun r => threshold.admits r.level) = [] := by
  induction slices generalizing place with
  | nil => rfl
  | cons ts slices ih =>
      have haccount : ((ts.account place).filter fun r => threshold.admits r.level) = [] := by
        rw [List.filter_eq_nil_iff]
        intro r hr hadmitted
        rw [Tokens.level_of_mem_account hr] at hadmitted
        exact h (admits_trace_iff.mp hadmitted)
      rw [Tokens.accounts_cons, List.filter_append, haccount, ih, List.append_nil]

/-! ## The log of a seed -/

/-- The log of a seed accounts for a program, where `drawn` was drawn for its count. -/
structure AccountsFor (c : Config) (seed drawn : UInt64) (g : Generation) (p : Program) : Prop where
  /-- The number that was drawn is in the range. -/
  drawn_mem : c.fewest ≤ drawn ∧ drawn ≤ c.most
  /-- The program has as many statements as it says, unless their count is fixed. -/
  length : p.tokens.statements.length = (c.statements.getD drawn).toNat
  /-- The statements that begin like assignments are the assignments. -/
  assigned : p.tokens.statements.map Tokens.assigned? = p.statements.map Statement.assigned?
  /-- Up to the last level, the accounts of the statements come after the seed and the counts. -/
  trace : g.logUpTo (some .trace) seed =
    seedNotice seed :: countNotice drawn (c.statements.getD drawn) ::
      Tokens.accounts 0 p.tokens.statements
  /-- The number of a name is the number of names announced before it. -/
  numbers : ∀ before x after,
    g.logUpTo (some .trace) seed = before ++ announcement x :: after →
      x = nthName c.stem (before.countP Log.Record.announces)
  /-- The level before the last has the seed and the counts. -/
  debug : g.logUpTo (some .debug) seed =
    [seedNotice seed, countNotice drawn (c.statements.getD drawn)]
  /-- All other levels let nothing through. -/
  others : ∀ threshold : Log.Threshold, threshold ≠ some .debug → threshold ≠ some .trace →
    g.logUpTo threshold seed = []
  /-- Every level has what it lets through of what the last one has. -/
  part : ∀ threshold, g.logUpTo threshold seed =
    (g.logUpTo (some .trace) seed).filter fun r => threshold.admits r.level
  /-- The texts of the statements, joined by separators, are the text of the program. -/
  text : " ; \n ".intercalate (p.tokens.statements.map Tokens.text) = p.tokens.text

namespace Program

variable {g : Generation} {p : Program} {seed : UInt64}

/-- The assignments of a drawn program take the numbers from zero, in order. -/
lemma Drawn.exists_filterMap_assigned?_eq (h : Drawn c r p) :
    ∃ n, p.statements.filterMap Statement.assigned? = (List.range n).map (nthName c.stem) := by
  obtain ⟨r', scope', hseries, -⟩ := h.exists_series
  obtain ⟨-, hnumbered⟩ := Statement.Series.scope_eq_numbered (k := 0) hseries
  exact ⟨_, List.range_eq_range' ▸ hnumbered⟩

/-- The log of a drawn program: the seed, the counts, and the accounts of the statements. -/
lemma Drawn.exists_log_eq (hc : c.maxDepth < 0xFFFFFFFFFFFFFFFF) (h : Drawn c g.record.toList p)
    (hkeeps : ∀ bound x, .answered bound x ∈ g.record.toList → x < bound) (seed : UInt64) :
    ∃ drawn, (c.fewest ≤ drawn ∧ drawn ≤ c.most) ∧
      p.statements.length = (c.statements.getD drawn).toNat ∧
      g.log seed = seedNotice seed :: countNotice drawn (c.statements.getD drawn) ::
        Tokens.accounts 0 p.tokens.statements := by
  generalize hrecord : g.record.toList = r at h hkeeps
  cases h with
  | @intro range span x drawn hdrawn r ss scope' series length =>
      have hx : x < c.most.toNat - c.fewest.toNat + 1 := hkeeps _ x (.head _)
      have hsum := Draw.toNat_inRange_sum range hx
      have hle := UInt64.le_iff_toNat_le.mp range
      refine ⟨drawn, ?_, length, ?_⟩
      · rw [hdrawn, UInt64.le_iff_toNat_le, UInt64.le_iff_toNat_le, hsum]
        omega
      · rw [statements_tokens, ← series.log_eq hc, Generation.log, Run.notes, hrecord]
        rfl

/-- **A log that is the seed, the counts and the accounts of the statements** accounts for a drawn
program on all levels, and its announcements are numbered. -/
theorem Drawn.accountsFor (h : Drawn c r p) {drawn : UInt64}
    (hmem : c.fewest ≤ drawn ∧ drawn ≤ c.most)
    (hlength : p.statements.length = (c.statements.getD drawn).toNat)
    (hlog : g.log seed = seedNotice seed :: countNotice drawn (c.statements.getD drawn) ::
      Tokens.accounts 0 p.tokens.statements) :
    AccountsFor c seed drawn g p := by
  have htrace : g.logUpTo (some .trace) seed = g.log seed :=
    List.filter_eq_self.mpr fun r _ => admits_all r.level
  refine ⟨hmem, ?_, ?_, htrace.trans hlog, ?_, ?_, ?_, ?_, (text_eq p).symm⟩
  · rw [statements_tokens, List.length_map, hlength]
  · rw [statements_tokens, List.map_map]
    exact List.map_congr_left fun s _ => s.assigned?_tokens
  · intro before x after hsplit
    obtain ⟨n, hassigned⟩ := h.exists_filterMap_assigned?_eq
    refine eq_nthName_of_filter_announces (n := n) ?_ (htrace.symm.trans hsplit)
    rw [hlog, List.filter_cons_of_neg (by simp [announces_seedNotice]),
      List.filter_cons_of_neg (by simp [announces_countNotice]), statements_tokens,
      filter_announces_accounts, hassigned, List.map_map]
    rfl
  · rw [Generation.logUpTo, hlog, List.filter_cons_of_pos rfl, List.filter_cons_of_pos rfl,
      filter_admits_accounts (by decide)]
  · intro threshold hdebug htrace
    have hrefused : ¬ threshold.admits .debug = true := by simp [admits_debug_iff, hdebug, htrace]
    rw [Generation.logUpTo, hlog, List.filter_cons_of_neg (by exact hrefused),
      List.filter_cons_of_neg (by exact hrefused), filter_admits_accounts htrace]
  · intro threshold
    rw [htrace, Generation.logUpTo]

end Program

/-- **The log accounts for the program.** For a valid configuration below the greatest word of depth
every seed has a program. Its log names the seed and the counts. Then it goes through the statements
in order, and says of each the name that it declares, if it is an assignment, and its text. The
names are numbered by the announcements before them, and the texts make up that of the program. A
lower level shows part of this, whether the rest was never noted or is left out afterwards. -/
theorem log_accounts_for_program {c : Config} (valid : c.validate = .ok ())
    (hc : c.maxDepth < 0xFFFFFFFFFFFFFFFF) (seed : UInt64) :
    ∃ p drawn, (generate c seed).outcome = .done p ∧
      AccountsFor c seed drawn (generate c seed) p ∧
      ∀ threshold, (generateUpTo threshold c seed).outcome = .done p ∧
        (generateUpTo threshold c seed).notes.map Remark.logRecord =
          ((generate c seed).notes.map Remark.logRecord).filter
            (fun r => threshold.admits r.level) ∧
        (generateUpTo threshold c seed).logUpTo threshold seed =
          (generate c seed).logUpTo threshold seed := by
  have hstrict := Source.seeded_strict
  obtain ⟨p, hp, -⟩ :=
    Program.exists_named_of_valid valid hc hstrict.lawful (Keystream.ofSeed seed)
  have hprogram := (Program.course_random_iff hc).mp (course_of_outcome_eq hp)
  have hkeeps := hstrict.follows.keeps (Program.random c) (Keystream.ofSeed seed)
  obtain ⟨drawn, hmem, hlength, hlog⟩ :=
    Program.Drawn.exists_log_eq (g := generate c seed) hc hprogram (fun _ _ hx => hkeeps _ hx) seed
  refine ⟨p, drawn, hp, hprogram.accountsFor hmem hlength hlog, fun threshold => ?_⟩
  obtain ⟨houtcome, hlog⟩ := generateUpTo_eq threshold c seed
  exact ⟨houtcome.trans hp, hlog⟩

/-- Three assignments, with operands on one level only. The third of them gets the number two. -/
theorem log_accounts_for_program_three : ∃ (p : Program) (drawn : UInt64),
    (generate { statements := some 3, maxDepth := 1 } 7).outcome = .done p ∧
      p.tokens.statements.length = 3 ∧ 5 ≤ drawn ∧ drawn ≤ 10 ∧
      (generate { statements := some 3, maxDepth := 1 } 7).logUpTo (some .trace) 7 =
        [⟨.debug, "instgen_core", "generating program with seed 7"⟩,
          ⟨.debug, "instgen_core::generator", "drew statement count 7, generating 3 statements"⟩,
          ⟨.trace, "instgen_core::generator", "declared asdASD1230"⟩,
          ⟨.trace, "instgen_core::generator", "statement 0: asdASD1230 = ( 6 ) ; asdASD1230"⟩,
          ⟨.trace, "instgen_core::generator", "declared asdASD1231"⟩,
          ⟨.trace, "instgen_core::generator",
            "statement 1: asdASD1231 = asdASD1230 - asdASD1230 ; asdASD1231"⟩,
          ⟨.trace, "instgen_core::generator", "declared asdASD1232"⟩,
          ⟨.trace, "instgen_core::generator",
            "statement 2: asdASD1232 = ( 8 ) * asdASD1230 ; asdASD1232"⟩] ∧
      "asdASD1232" = nthName "asdASD123" 2 ∧
      (generate { statements := some 3, maxDepth := 1 } 7).logUpTo (some .debug) 7 =
        [⟨.debug, "instgen_core", "generating program with seed 7"⟩,
          ⟨.debug, "instgen_core::generator",
            "drew statement count 7, generating 3 statements"⟩] := by
  obtain ⟨p, drawn, hp, haccount, -⟩ :=
    log_accounts_for_program (c := { statements := some 3, maxDepth := 1 }) (by decide)
      (by decide) 7
  have hlog : (generate { statements := some 3, maxDepth := 1 } 7).logUpTo (some .trace) 7 =
      [seedNotice 7, countNotice 7 3,
        announcement "asdASD1230", transcript 0 "asdASD1230 = ( 6 ) ; asdASD1230",
        announcement "asdASD1231",
        transcript 1 "asdASD1231 = asdASD1230 - asdASD1230 ; asdASD1231"] ++
      announcement "asdASD1232" ::
        [transcript 2 "asdASD1232 = ( 8 ) * asdASD1230 ; asdASD1232"] := by decide +kernel
  have hnumber := haccount.numbers _ _ _ hlog
  refine ⟨p, drawn, hp, haccount.length, haccount.drawn_mem.1, haccount.drawn_mem.2,
    hlog.trans (by decide +kernel), hnumber.trans (by decide +kernel), ?_⟩
  rw [haccount.part, hlog]
  decide +kernel

end RandomInstant
