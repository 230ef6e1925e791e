import RandomInstant.Command.Arguments
import RandomInstant.Proofs.Command.Meaning

/-!
# How options are spelled

A setting has a name of two hyphens and a word, and some have one of a hyphen and a letter. Its
value is the next argument, or it follows the name in the same argument: after a sign of equality,
or directly where the name is a letter. So an argument that begins with a hyphen opens a setting,
with its value or still without it.

* `Spelling`: the groups of arguments that give an option a meaning.
* `Setting.Opening`: the arguments that open a setting.
* **`Reader.read_eq_ok_iff`**: what reading an argument comes to, by what the argument is.
-/

namespace RandomInstant

namespace Text

/-- The bytes of two strings are those of the first and those of the second. -/
lemma utf8_append (s t : String) : utf8 (s ++ t) = utf8 s ++ utf8 t := by
  simp [utf8]

/-- A text that begins with an ASCII character begins with its byte. -/
lemma head?_utf8_of_ascii {c : Char} {s : String} (hs : s.toList.head? = some c)
    (hc : c.val ≤ 127) : (utf8 s).head? = some c.val.toUInt8 := by
  obtain ⟨cs, hcs⟩ := List.head?_eq_some_iff.mp hs
  have hsize : c.utf8Size = 1 := Char.utf8Size_eq_one_iff.mpr hc
  rw [← String.ofList_toList (s := s), hcs, utf8, String.toByteArray_ofList, List.utf8Encode_cons,
    List.utf8Encode_singleton, String.utf8EncodeChar_eq_singleton hsize]
  simp

/-- A numeral begins with a digit or a plus sign. -/
lemma Numeral.exists_head {cs : List Char} {n : Nat} (h : Numeral cs n) :
    ∃ c, cs.head? = some c ∧ (c.isDigit ∨ c = '+') := by
  cases h with
  | plus h => exact ⟨'+', rfl, .inr rfl⟩
  | bare h =>
      obtain ⟨c, rest, rfl⟩ := List.exists_cons_of_ne_nil h.ne_nil
      exact ⟨c, rfl, .inl (h.isDigit c List.mem_cons_self)⟩

/-- The bytes of a numeral do not begin with a sign of equality. -/
lemma Numeral.exists_utf8_eq_cons {s : String} {n : Nat} (h : Numeral s.toList n) :
    ∃ b rest, utf8 s = b :: rest ∧ b ≠ Command.equality := by
  obtain ⟨c, hc, hchar⟩ := h.exists_head
  have hbounds : c.val ≤ 57 := by
    rcases hchar with hdigit | rfl
    · simp only [Char.isDigit, Bool.and_eq_true, decide_eq_true_eq] at hdigit
      exact hdigit.2
    · decide
  have hbyte : c.val.toNat ≤ 57 := UInt32.le_iff_toNat_le.mp hbounds
  obtain ⟨rest, hrest⟩ := List.head?_eq_some_iff.mp
    (head?_utf8_of_ascii hc (UInt32.le_trans hbounds (by decide)))
  refine ⟨_, rest, hrest, ?_⟩
  intro heq
  have := congrArg UInt8.toNat heq
  rw [UInt32.toNat_toUInt8, Command.equality] at this
  change c.val.toNat % 256 = 61 at this
  omega

end Text

namespace Command

open Text (Bytes utf8 utf8_append)

/-- The words that settings are called by. -/
inductive Setting.Word : Setting → String → Prop
  | seed : Word .seed "seed"
  | statements : Word .statements "statements"
  | minStatements : Word .minStatements "min-statements"
  | maxStatements : Word .maxStatements "max-statements"
  | maxDepth : Word .maxDepth "max-depth"
  | maxLiteral : Word .maxLiteral "max-literal"
  | stem : Word .stem "prefix"

/-- The letters that two settings are called by. -/
inductive Setting.Letter : Setting → Char → Prop
  | statements : Letter .statements 'n'
  | maxDepth : Letter .maxDepth 'd'

/-- The names of a setting. -/
inductive Setting.Name (s : Setting) : String → Prop
  /-- Two hyphens and a word. -/
  | long {word : String} : s.Word word → s.Name ("--" ++ word)
  /-- A hyphen and a letter. -/
  | short {c : Char} : s.Letter c → s.Name ("-" ++ String.singleton c)

/-- The groups of arguments that give an option a meaning. -/
inductive Spelling : Key → Meaning → List Bytes → Prop
  /-- A setting by name, and its value in an argument of its own. That argument does not begin with
  a hyphen, unless it is one. -/
  | apart {s name text m} : s.Name name → s.Denotes text m →
      (utf8 text).head? ≠ some hyphen ∨ utf8 text = [hyphen] →
      Spelling (.setting s) m [utf8 name, utf8 text]
  /-- A setting by name, a sign of equality and its value. -/
  | joined {s name text m} : s.Name name → s.Denotes text m →
      Spelling (.setting s) m [utf8 (name ++ "=" ++ text)]
  /-- A setting by a letter and its value. -/
  | attached {s c text m} : s.Letter c → s.Denotes text m →
      Spelling (.setting s) m [utf8 ("-" ++ String.singleton c ++ text)]
  /-- The switch. -/
  | switch : Spelling .drawnStatements .on [utf8 "--drawn-statements"]

/-- The arguments that open a setting, with its value if it is already there. -/
inductive Setting.Opening (s : Setting) : Bytes → Option Bytes → Prop
  /-- A name alone. -/
  | bare {name} : s.Name name → s.Opening (utf8 name) none
  /-- A name and a value after a sign of equality. -/
  | joined {name value} : s.Name name → s.Opening (utf8 name ++ equality :: value) (some value)
  /-- A letter and a value that does not begin with a sign of equality. -/
  | attached {c b rest} : s.Letter c → b ≠ equality →
      s.Opening (utf8 ("-" ++ String.singleton c) ++ b :: rest) (some (b :: rest))

/-- What reading an argument comes to where options have not come to an end. -/
inductive Reader.Reads (r : Reader) : Bytes → Reader → Prop
  /-- Options come to an end. -/
  | terminator : r.Reads (utf8 "--") { r with ended := true }
  /-- The reading goes on to a setting. -/
  | setting {s argument value? r'} :
      s.Opening argument value? → r.onSetting s value? = .ok r' → r.Reads argument r'
  /-- The reading goes on to the switch. -/
  | switch {r'} : r.onSwitch .drawnStatements true = .ok r' →
      r.Reads (utf8 "--drawn-statements") r'
  /-- A setting that waits for its value has it. -/
  | value {s argument} : r.pending = .waiting s → Form.ofArgument argument = .value →
      r.Reads argument { r with pending := .held s argument }

/-! ## Looking options up -/

namespace Setting

variable {s : Setting} {c : Char} {b : UInt8}

/-- A setting is looked up by its word. -/
lemma word_iff {word : String} : s.Word word ↔ word = s.longName := by
  constructor
  · rintro ⟨⟩ <;> rfl
  · rintro rfl
    cases s <;> constructor

/-- A setting is looked up by its letter. -/
lemma letter_iff : s.Letter c ↔ s.shortName? = some c := by
  constructor
  · rintro ⟨⟩ <;> rfl
  · intro h
    cases s <;> cases h <;> constructor

/-- A setting is found by the bytes of its word, and by no others. -/
lemma ofLongName?_eq_some_iff {name : Bytes} :
    ofLongName? name = some s ↔ name = utf8 s.longName := by
  constructor
  · intro h
    have := List.find?_some h
    exact (eq_of_beq this).symm
  · rintro rfl
    cases s <;> decide

/-- There is no sign of equality in a word. -/
lemma equality_not_mem_longName (s : Setting) : equality ∉ utf8 s.longName := by
  cases s <;> decide

/-- No word is empty. -/
lemma longName_ne_nil (s : Setting) : utf8 s.longName ≠ [] := by
  cases s <;> decide

/-- A letter is the byte that it is written as. -/
lemma Letter.utf8_eq (h : s.Letter c) : utf8 (String.singleton c) = [c.toNat.toUInt8] := by
  cases h <;> decide

/-- A setting is found by the byte of its letter. -/
lemma Letter.ofLetter?_eq (h : s.Letter c) : ofLetter? c.toNat.toUInt8 = some s := by
  cases h <;> decide

/-- A setting that is found by a byte has the letter that is written as the byte. -/
lemma exists_letter_of_ofLetter? (h : ofLetter? b = some s) :
    ∃ c, s.Letter c ∧ b = c.toNat.toUInt8 := by
  have hletter := List.find?_some h
  refine ⟨_, letter_iff.mpr (eq_of_beq hletter), ?_⟩
  have hvalid : b.toNat.isValidChar := .inl (Nat.lt_trans b.toNat_lt (by decide))
  rw [Char.ofNat, dif_pos hvalid]
  exact UInt8.ofNat_toNat.symm

/-- No letter is a hyphen. -/
lemma Letter.ne_hyphen (h : s.Letter c) : c.toNat.toUInt8 ≠ hyphen := by
  cases h <;> decide

/-- The bytes of a name that is a word. -/
lemma utf8_long (s : Setting) :
    utf8 ("--" ++ s.longName) = hyphen :: hyphen :: utf8 s.longName := by
  rw [utf8_append]
  rfl

/-- The bytes of a name that is a letter, before others. -/
lemma Letter.utf8_append_eq (h : s.Letter c) (bs : Bytes) :
    utf8 ("-" ++ String.singleton c) ++ bs = hyphen :: c.toNat.toUInt8 :: bs := by
  rw [utf8_append, h.utf8_eq]
  rfl

end Setting

/-! ## Reading one argument -/

namespace Reader

variable {r r' : Reader} {s : Setting} {argument body rest : Bytes} {value? : Option Bytes}
  {b : UInt8}

/-- A name ends where a sign of equality or nothing follows it. -/
lemma name_of_append (name rest : Bytes) (hname : equality ∉ name)
    (hrest : ∀ b ∈ rest.head?, b = equality) :
    (name ++ rest).takeWhile (· != equality) = name ∧
      (name ++ rest).dropWhile (· != equality) = rest := by
  have hall : ∀ b ∈ name, (b != equality) = true := by
    intro b hb
    exact bne_iff_ne.mpr fun h => hname (h ▸ hb)
  rw [List.takeWhile_append_of_pos hall, List.dropWhile_append_of_pos hall]
  cases rest with
  | nil => simp
  | cons b rest => simp [hrest b (by simp)]

/-- A setting takes what follows its letter, less a sign of equality. -/
lemma read_letter {c : Char} (hended : r.ended = false) (hc : s.Letter c) (bs : Bytes) :
    r.read (utf8 ("-" ++ String.singleton c) ++ bs) = r.onSetting s (attached bs) := by
  rw [hc.utf8_append_eq]
  simp [read, hended, Form.ofArgument_short hc.ne_hyphen, readShort, hc.ofLetter?_eq]

/-- A setting takes what follows its word and a sign of equality. -/
lemma read_word {word : String} (hended : r.ended = false) (hword : s.Word word) {bs : Bytes}
    (hbs : ∀ b ∈ bs.head?, b = equality) :
    r.read (utf8 ("--" ++ word) ++ bs) = r.onSetting s (attached bs) := by
  obtain rfl := Setting.word_iff.mp hword
  obtain ⟨htake, hdrop⟩ := name_of_append _ bs s.equality_not_mem_longName hbs
  have hbody := List.append_ne_nil_of_left_ne_nil s.longName_ne_nil bs
  rw [s.utf8_long, List.cons_append, List.cons_append]
  simp only [read, hended, Form.ofArgument_long hbody, readLong, htake, hdrop,
    Setting.ofLongName?_eq_some_iff.mpr rfl]
  cases bs with
  | nil => rfl
  | cons b value => simp [attached, hbs b (by simp)]

/-- An argument that opens a setting is read as that setting. -/
lemma read_of_opening (hended : r.ended = false) (h : s.Opening argument value?) :
    r.read argument = r.onSetting s value? := by
  rcases h with ⟨hword | hc⟩ | ⟨hword | hc⟩ | ⟨hc, hb⟩
  · rw [← List.append_nil (utf8 _), read_word hended hword (by simp), attached]
  · rw [← List.append_nil (utf8 _), read_letter hended hc, attached]
  · rw [read_word hended hword (by simp), attached, if_pos rfl]
  · rw [read_letter hended hc, attached, if_pos rfl]
  · rw [read_letter hended hc, attached, if_neg hb]

/-- The switch that is kept is the only one with which the reading goes on. -/
lemma switch_of_onSwitch {s : Switch} {full : Bool} (h : r.onSwitch s full = .ok r') :
    s = .drawnStatements := by
  obtain ⟨settled, -, h⟩ := Except.bind_eq_ok_iff.mp h
  cases s with
  | drawnStatements => rfl
  | help => cases h
  | version => cases h

/-- What can be read after two hyphens is a setting or the switch. -/
lemma readLong_cases (h : r.readLong body = .ok r') :
    (∃ s value?, s.Opening (hyphen :: hyphen :: body) value? ∧ r.onSetting s value? = .ok r') ∨
      body = utf8 Switch.drawnStatements.longName ∧ r.onSwitch .drawnStatements true = .ok r' := by
  have hbody : body.takeWhile (· != equality) ++ body.dropWhile (· != equality) = body :=
    List.takeWhile_append_dropWhile
  have hrest := List.head?_dropWhile_not (· != equality) body
  unfold readLong at h
  generalize body.takeWhile (· != equality) = name at h hbody
  generalize body.dropWhile (· != equality) = rest at h hbody hrest
  subst hbody
  dsimp only at h
  split at h
  · next s hs =>
      obtain rfl := Setting.ofLongName?_eq_some_iff.mp hs
      refine .inl ⟨s, _, ?_, h⟩
      cases rest with
      | nil =>
          rw [List.append_nil, ← s.utf8_long]
          exact .bare (.long (Setting.word_iff.mpr rfl))
      | cons b value =>
          have hb : b = equality := by simpa using hrest
          rw [hb, ← List.cons_append, ← List.cons_append, ← s.utf8_long]
          exact .joined (.long (Setting.word_iff.mpr rfl))
  · split at h
    · cases h
    · next s hs =>
        split at h
        · cases h
        · next hnone =>
            obtain rfl := switch_of_onSwitch h
            have hname := List.find?_some hs
            refine .inr ⟨?_, h⟩
            cases rest with
            | nil => rw [List.append_nil, eq_of_beq hname]
            | cons b value => cases hnone

/-- What can be read after one hyphen is a setting. -/
lemma readShort_cases (h : r.readShort b rest = .ok r') :
    ∃ s value?, s.Opening (hyphen :: b :: rest) value? ∧ r.onSetting s value? = .ok r' := by
  unfold readShort at h
  split at h
  · next s hs =>
      obtain ⟨c, hc, rfl⟩ := Setting.exists_letter_of_ofLetter? hs
      refine ⟨s, _, ?_, h⟩
      rw [← hc.utf8_append_eq]
      cases rest with
      | nil =>
          rw [List.append_nil]
          exact .bare (.short hc)
      | cons b value =>
          by_cases hb : b = equality
          · subst hb
            exact .joined (.short hc)
          · simp only [attached, if_neg hb]
            exact .attached hc hb
  · split at h
    · next s hs =>
        obtain rfl := switch_of_onSwitch h
        have hletter := List.find?_some hs
        cases hletter
    · cases h

/-- An argument with hyphens at its beginning is made of them and of what follows. -/
lemma argument_of_form (argument : Bytes) :
    match Form.ofArgument argument with
    | .terminator => argument = utf8 "--"
    | .long body => argument = hyphen :: hyphen :: body
    | .short letter rest => argument = hyphen :: letter :: rest
    | .value => True := by
  fun_cases Form.ofArgument argument with
  | case1 => rfl
  | case2 => rfl
  | case3 => rfl
  | case4 => trivial
  | case5 => trivial

/-- The switch is read as what it is. -/
lemma read_switch (hended : r.ended = false) :
    r.read (utf8 "--drawn-statements") = r.onSwitch .drawnStatements true := by
  have hform : Form.ofArgument (utf8 "--drawn-statements") =
      .long (utf8 Switch.drawnStatements.longName) := by
    decide
  have hsetting : Setting.ofLongName? (utf8 Switch.drawnStatements.longName) = none := by
    decide
  have hswitch : Switch.ofLongName? (utf8 Switch.drawnStatements.longName) =
      some .drawnStatements := by
    decide
  obtain ⟨htake, hdrop⟩ :=
    name_of_append (utf8 Switch.drawnStatements.longName) [] (by decide) (by simp)
  rw [List.append_nil] at htake hdrop
  simp [read, hended, hform, readLong, htake, hdrop, hsetting, hswitch]

/-- **An argument is read as what it is**: the terminator, what opens a setting, the switch, or a
value that was waited for. -/
theorem read_eq_ok_iff (hended : r.ended = false) :
    r.read argument = .ok r' ↔ r.Reads argument r' := by
  constructor
  · intro h
    have hargument := argument_of_form argument
    simp only [read, hended, Bool.false_eq_true, if_false] at h
    split at h
    · next hform =>
        simp only [hform] at hargument
        subst hargument
        cases h
        exact .terminator
    · next body hform =>
        simp only [hform] at hargument
        subst hargument
        rcases readLong_cases h with ⟨s, value?, hopening, h⟩ | ⟨rfl, h⟩
        · exact .setting hopening h
        · exact .switch h
    · next letter rest hform =>
        simp only [hform] at hargument
        subst hargument
        obtain ⟨s, value?, hopening, h⟩ := readShort_cases h
        exact .setting hopening h
    · next hform =>
        unfold readValue at h
        split at h
        · next s hwaiting =>
            cases h
            exact .value hwaiting hform
        · cases h
  · intro h
    cases h with
    | terminator => simp [read, hended, show Form.ofArgument (utf8 "--") = .terminator by decide]
    | setting hopening h => rw [read_of_opening hended hopening, h]
    | switch h => rw [read_switch hended, h]
    | value hwaiting hvalue => simp [read, hended, hvalue, readValue, hwaiting]

end Reader

/-! ## Groups and what opens them -/

namespace Spelling

variable {s : Setting} {m : Meaning} {text : String} {argument value : Bytes}
  {group : List Bytes}

/-- A group is one argument at least. -/
lemma ne_nil {k : Key} (h : Spelling k m group) : group ≠ [] := by
  cases h <;> exact List.cons_ne_nil _ _

/-- The bytes of a name and a value with a sign of equality in between. -/
lemma utf8_joined (name text : String) :
    utf8 (name ++ "=" ++ text) = utf8 name ++ equality :: utf8 text := by
  rw [utf8_append, utf8_append, List.append_assoc]
  rfl

/-- An argument that opens a setting with its value spells what the value denotes. -/
lemma of_opening_some (h : s.Opening argument (some value)) (htext : value = utf8 text)
    (hm : s.Denotes text m) : Spelling (.setting s) m [argument] := by
  cases h with
  | joined hname =>
      rw [htext, ← utf8_joined]
      exact .joined hname hm
  | attached hc _ =>
      rw [htext, ← utf8_append]
      exact .attached hc hm

/-- An argument that opens a setting without its value, and the value, spell what it denotes. -/
lemma of_opening_none (h : s.Opening argument none)
    (hvalue : Form.ofArgument (utf8 text) = .value) (hm : s.Denotes text m) :
    Spelling (.setting s) m [argument, utf8 text] := by
  cases h with
  | bare hname => exact .apart hname hm (Form.ofArgument_eq_value_iff.mp hvalue)

/-- A setting that has a letter takes numerals, which do not begin with a sign of equality. -/
lemma exists_utf8_eq_cons {c : Char} (hc : s.Letter c) (hm : s.Denotes text m) :
    ∃ b rest, utf8 text = b :: rest ∧ b ≠ equality := by
  cases hc with
  | statements | maxDepth =>
      obtain ⟨w, hw, -⟩ := hm
      exact hw.exists_utf8_eq_cons

/-- A group begins with an argument that opens the setting. The value is in it or after it. -/
lemma exists_opening (h : Spelling (.setting s) m group) :
    ∃ text argument, s.Denotes text m ∧
      (s.Opening argument (some (utf8 text)) ∧ group = [argument] ∨
        s.Opening argument none ∧ Form.ofArgument (utf8 text) = .value ∧
          group = [argument, utf8 text]) := by
  cases h with
  | apart hname hm hvalue =>
      exact ⟨_, _, hm, .inr ⟨.bare hname, Form.ofArgument_eq_value_iff.mpr hvalue, rfl⟩⟩
  | @joined _ name text _ hname hm =>
      exact ⟨text, _, hm, .inl ⟨.joined hname, congrArg (fun a => [a]) (utf8_joined name text)⟩⟩
  | @attached _ c text _ hc hm =>
      obtain ⟨b, rest, hbytes, hb⟩ := exists_utf8_eq_cons hc hm
      refine ⟨text, _, hm, .inl ⟨?_, congrArg (fun a => [a]) (utf8_append _ _)⟩⟩
      rw [hbytes]
      exact .attached hc hb

end Spelling

end Command

end RandomInstant
