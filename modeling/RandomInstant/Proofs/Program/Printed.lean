import Mathlib.Data.Set.Function
import RandomInstant.Proofs.Command.Contract
import RandomInstant.Proofs.Program.Soundness
import RandomInstant.Proofs.Token.Printed

/-!
# Programs in print

All names of a program are numbered behind the stem of its configuration. Where the configuration
is valid the stem is a letter followed by letters and digits, and so is each of the names. So a
program can be read back from its text, and also from what a run of the program writes.

The statements of a program show in its text, too: they are what stands between occurrences of
` ; `, a line break and a space. That is so because no statement is empty and none holds a line
break; the semicolon inside an assignment has a name behind it, and adjacent separators, which
would share a space, do not occur.

* `Program.Drawn.named`: the names of a drawn program are such names.
* **`text_determines_tokens`**: sequences, and with them programs, are read back from their texts.
* **`program_text_statements`**: the statements of a program in its text.
-/

namespace RandomInstant

open Grammar (Derives)
open Program (CountsOn)

variable {c : Config} {stem x : String} {I : UInt32 → Prop}

/-! ## Names in programs -/

/-- A number behind a name makes a name. -/
lemma isName_nthName (h : Config.isName stem) (k : Nat) : Config.isName (nthName stem k) := by
  obtain ⟨first, rest, hstem, hletter, hword⟩ := Config.exists_cons_of_isName h
  rw [hstem, List.forall_mem_cons] at hword
  have hdigits := (Text.digits_toDigits k).isDigit
  unfold Config.isName nthName
  rw [String.toList_append, hstem, Nat.toList_repr]
  simp only [List.cons_append, hletter, List.all_append, Bool.true_and, Bool.and_eq_true,
    List.all_eq_true]
  exact ⟨hword.2, fun d hd => by simp [Char.isAlphanum, hdigits d hd]⟩

/-- The names in a phrase are the name it assigns to and the names in its expression. -/
lemma Phrase.of_ident_mem {V : String → Prop} {phrase : Phrase}
    (h : Derives V I .expr phrase.expr) (hx : .ident x ∈ phrase.tokens) :
    V x ∨ phrase.target = some x := by
  obtain ⟨target, ts⟩ := phrase
  cases target with
  | none => exact .inl (h.of_ident_mem hx)
  | some name =>
      obtain rfl | hx : x = name ∨ .ident x ∈ ts := by
        simpa [Phrase.tokens, or_comm, or_assoc] using hx
      · exact .inr rfl
      · exact .inl (h.of_ident_mem hx)

/-- All names in well scoped phrases are numbered behind the stem. -/
lemma WellScoped.exists_nthName {phrases : List Phrase} (h : WellScoped stem I phrases)
    {phrase : Phrase} (hphrase : phrase ∈ phrases) (hx : .ident x ∈ phrase.tokens) :
    ∃ k, nthName stem k = x := by
  obtain ⟨n, hnumbered⟩ := h.numbered
  have htarget : x ∈ phrases.filterMap Phrase.target := by
    obtain ⟨i, hi, rfl⟩ := List.mem_iff_getElem.mp hphrase
    obtain hearlier | htarget := Phrase.of_ident_mem (h.earlier i hi) hx
    · exact ((List.take_sublist i phrases).filterMap _).subset hearlier
    · exact List.mem_filterMap.mpr ⟨_, hphrase, htarget⟩
  rw [hnumbered, List.mem_map] at htarget
  obtain ⟨k, -, hk⟩ := htarget
  exact ⟨k, hk⟩

namespace Program

variable {r : List (Happening Remark)} {p : Program}

/-- A program all of whose names are a letter followed by letters and digits. -/
def Named (p : Program) : Prop := ∀ s ∈ p.statements, s.tokens.Named

/-- The tokens of a program whose names are names are such too. -/
lemma Named.named_tokens (h : p.Named) : p.tokens.Named := by
  apply Tokens.named_joined
  intro piece hpiece
  obtain ⟨s, hs, rfl⟩ := List.mem_map.mp hpiece
  exact h s hs

/-- The names in a drawn program are such names if the stem is one. -/
lemma Drawn.named (h : Drawn c r p) (hstem : Config.isName c.stem) : p.Named := by
  obtain ⟨r', scope', hseries, -⟩ := h.exists_series
  have hscoped := hseries.wellScoped (I := fun _ => True) fun _ _ => trivial
  intro s hs x hx
  rw [Tokens.mem_idents_iff, ← Statement.tokens_phrase] at hx
  obtain ⟨k, rfl⟩ := hscoped.exists_nthName (List.mem_map_of_mem hs) hx
  exact isName_nthName hstem k

/-- On every lawful source a valid configuration has a program, with such names. -/
lemma exists_named_of_valid (valid : c.validate = .ok ()) (hc : c.maxDepth < 0xFFFFFFFFFFFFFFFF)
    {σ : Type} {source : Source σ} (lawful : source.Lawful) (s : σ) :
    ∃ p, ((random c).run source s).outcome = .done p ∧ p.Named := by
  obtain ⟨hstem, hrange, hodds⟩ :=
    Config.problem?_eq_none_iff.mp (Config.validate_eq_ok_iff.mp valid)
  obtain ⟨p, hp⟩ := drawnOn_of_lawful hc hrange hodds lawful s
  exact ⟨p, hp, ((course_random_iff hc).mp (Draw.course_of_outcome_eq hp)).named hstem⟩

/-! ## Statements in the text -/

/-- The text of a program: the texts of its statements, with separators in between. -/
lemma text_eq (p : Program) :
    p.text = " ; \n ".intercalate (p.tokens.statements.map Tokens.text) := by
  rw [statements_tokens]
  apply Tokens.text_joined
  intro piece hpiece
  obtain ⟨s, -, rfl⟩ := List.mem_map.mp hpiece
  exact s.tokens_ne_nil

/-- The text of a statement is neither empty nor broken over lines. -/
lemma Named.text_statement (h : p.Named) {text : String}
    (htext : text ∈ p.tokens.statements.map Tokens.text) : text ≠ "" ∧ '\n' ∉ text.toList := by
  rw [statements_tokens, List.map_map] at htext
  obtain ⟨s, hs, rfl⟩ := List.mem_map.mp htext
  exact ⟨(h s hs).text_ne_empty s.tokens_ne_nil,
    (h s hs).newline_not_mem_text s.newline_not_mem_tokens⟩

/-- Between its separators the text of a program is the texts of its statements. -/
lemma Named.pieces_text (h : p.Named) (hne : p.statements ≠ []) :
    Text.pieces " ; \n " p.text = p.tokens.statements.map Tokens.text := by
  have hstatements : p.tokens.statements.map Tokens.text ≠ [] := by
    simpa [statements_tokens] using hne
  rw [text_eq]
  exact Text.pieces_intercalate (by decide) (fun _ htext => (h.text_statement htext).2) hstatements

end Program

/-- **The text determines the tokens.** Let all names in a sequence be a letter followed by letters
and digits. Between its spaces the text of the sequence is the texts of its tokens, if there are
any, and from these the tokens are read back; so no two such sequences have the same text. The
programs of a valid configuration on lawful sources are such sequences. So is what a run of the
program writes, and it is read back but for the line end behind it. -/
theorem text_determines_tokens :
    (∀ ts : Tokens, ts.Named →
      (ts ≠ [] → Text.pieces " " ts.text = ts.map Token.text ∧
        (Text.pieces " " ts.text).map Token.ofText = ts) ∧
      Tokens.ofText ts.text = ts) ∧
    Set.InjOn Tokens.text {ts | ts.Named} ∧
    (∀ c : Config, c.validate = .ok () → c.maxDepth < 0xFFFFFFFFFFFFFFFF →
      ∀ (σ : Type) (source : Source σ), source.Lawful → ∀ s, ∃ p,
        ((Program.random c).run source s).outcome = .done p ∧ p.tokens.Named ∧
          Tokens.ofText p.text = p.tokens) ∧
    ∀ (i : Command.Invocation) (o : Command.Options), i.output = .open →
      Command.Options.ofArguments i.arguments = .ok o → o.config.validate = .ok () →
        o.config.maxDepth < 0xFFFFFFFFFFFFFFFF → ∃ p,
          (generate o.config (o.seedAt i.clock)).outcome = .done p ∧
            (Command.run i).stdout = p.text ++ "\n" ∧ Tokens.ofText p.text = p.tokens := by
  refine ⟨fun ts h => ⟨fun hne => ?_, h.ofText_text⟩, ?_, ?_, ?_⟩
  · have hpieces := h.pieces_text hne
    exact ⟨hpieces, by rw [hpieces, h.map_ofText]⟩
  · intro ts h us h' htext
    calc ts = Tokens.ofText ts.text := h.ofText_text.symm
      _ = Tokens.ofText us.text := congrArg Tokens.ofText htext
      _ = us := Tokens.Named.ofText_text h'
  · intro c valid hc σ source lawful s
    obtain ⟨p, hp, hnamed⟩ := Program.exists_named_of_valid valid hc lawful s
    exact ⟨p, hp, hnamed.named_tokens, hnamed.named_tokens.ofText_text⟩
  · intro i o hi ho valid hc
    have haccepted := Command.Options.problem?_config_eq_none_iff.mp
      (Config.validate_eq_ok_iff.mp valid)
    obtain ⟨p, hp, hnamed⟩ := Program.exists_named_of_valid valid hc Source.seeded_strict.lawful
      (Keystream.ofSeed (o.seedAt i.clock))
    obtain ⟨f, -, hstdout⟩ := Command.run_of_ofArguments ho
    refine ⟨p, hp, ?_, hnamed.named_tokens.ofText_text⟩
    rw [hstdout, hi]
    exact (Command.runOptions_of_not_refused haccepted hp).2

/-- A sequence of all kinds of tokens, the default configuration on the source that answers with the
least numbers, and a run with a number of statements. -/
theorem text_determines_tokens_kinds :
    (Text.pieces " " "a1 = 10 * 0 ; a1 ; \n ( a1 )" =
        ["a1", "=", "10", "*", "0", ";", "a1", ";", "\n", "(", "a1", ")"] ∧
      Tokens.ofText "a1 = 10 * 0 ; a1 ; \n ( a1 )" =
        [.ident "a1", .assign, .int 10, .op .mul, .int 0, .semi, .ident "a1", .semi, .newline,
          .lparen, .ident "a1", .rparen]) ∧
    Tokens.text [.ident "a1"] ≠ Tokens.text [.ident "a", .int 1] ∧
    (∃ p, ((Program.random {}).run Source.first ()).outcome = .done p ∧ p.tokens.Named ∧
      Tokens.ofText p.text = p.tokens) ∧
    ∃ p, (generate { statements := some 3 } 0).outcome = .done p ∧
      (Command.run { arguments := ["-n3"].map Text.utf8 }).stdout = p.text ++ "\n" ∧
        Tokens.ofText p.text = p.tokens := by
  obtain ⟨hsequences, hinjective, hprograms, hruns⟩ := text_determines_tokens
  refine ⟨?_, ?_, ?_, ?_⟩
  · obtain ⟨hpieces, htokens⟩ := hsequences
      [.ident "a1", .assign, .int 10, .op .mul, .int 0, .semi, .ident "a1", .semi, .newline,
        .lparen, .ident "a1", .rparen] (by decide)
    exact ⟨(hpieces (List.cons_ne_nil _ _)).1, htokens⟩
  · have hone : Tokens.Named [.ident "a1"] := by decide
    have htwo : Tokens.Named [.ident "a", .int 1] := by decide
    exact hinjective.ne hone htwo (by decide)
  · exact hprograms {} (by decide) (by decide) Unit Source.first Source.first_lawful ()
  · exact hruns { arguments := ["-n3"].map Text.utf8 } { statements := some 3 } rfl rfl (by decide)
      (by decide)

/-- **The statements of a program in its text.** Where the program that a valid configuration has
on a lawful source is to have statements, as many as it is to have stand in its text between the
separators, each of them on one line. -/
theorem program_text_statements {c : Config} (valid : c.validate = .ok ())
    (hc : c.maxDepth < 0xFFFFFFFFFFFFFFFF) {σ : Type} {source : Source σ} (lawful : source.Lawful)
    (s : σ) {count : UInt64} (counted : CountsOn c source s count) (positive : 1 ≤ count) :
    ∃ p, ((Program.random c).run source s).outcome = .done p ∧
      p.tokens.statements.length = count.toNat ∧
      Text.pieces " ; \n " p.text = p.tokens.statements.map Tokens.text ∧
      ∀ piece ∈ Text.pieces " ; \n " p.text, piece ≠ "" ∧ '\n' ∉ piece.toList := by
  obtain ⟨p, hp, hnamed⟩ := Program.exists_named_of_valid valid hc lawful s
  obtain ⟨drawn, hdrawn, rfl⟩ := counted
  have hlength := Program.length_of_counted hc hdrawn hp
  have hpos : 1 ≤ (c.statementCount drawn).toNat := UInt64.le_iff_toNat_le.mp positive
  have hne : p.statements ≠ [] := List.length_pos_iff.mp (by omega)
  have hpieces := hnamed.pieces_text hne
  refine ⟨p, hp, ?_, hpieces, ?_⟩
  · rw [Program.statements_tokens, List.length_map, hlength]
  · rw [hpieces]
    exact fun piece hpiece => hnamed.text_statement hpiece

/-- The default configuration on the source that answers with the least numbers. -/
theorem program_text_statements_first :
    ∃ p, ((Program.random {}).run Source.first ()).outcome = .done p ∧
      p.tokens.statements.length = 20 ∧
      Text.pieces " ; \n " p.text = p.tokens.statements.map Tokens.text ∧
      ∀ piece ∈ Text.pieces " ; \n " p.text, piece ≠ "" ∧ '\n' ∉ piece.toList :=
  program_text_statements (c := {}) (by decide) (by decide) Source.first_lawful () ⟨5, rfl, rfl⟩
    (by decide)

end RandomInstant
