import RandomInstant.Config
import RandomInstant.Proofs.Text.Decimal
import RandomInstant.Proofs.Text.Splitting
import RandomInstant.Proofs.Token.Cutting

/-!
# Reading tokens back

The text of a sequence is cut at its spaces, and each piece is the text of one token: of a sign, of
a number as it is printed, or else of a name. That gives the sequence back if its names are what
names of programs are, a letter followed by letters and digits. A name of another kind could hold a
space, or be taken for a sign or for a number.

* `Token.ofText`: the token with a given text. `Token.Named.ofText_text`: it is the only one of the
  tokens whose names are such.
* **`Tokens.Named.ofText_text`**: sequences are read back from their texts.
* `Tokens.text_append`, `Tokens.text_joined`: the texts of sequences put together.
-/

namespace RandomInstant

/-- A name begins with a letter and holds letters and digits only. -/
lemma Config.exists_cons_of_isName {name : String} (h : isName name) :
    ∃ c rest, name.toList = c :: rest ∧ c.isAlpha ∧ ∀ d ∈ name.toList, d.isAlphanum := by
  unfold isName at h
  split at h
  · cases h
  · next c rest hname =>
      obtain ⟨hc, hrest⟩ := (Bool.and_eq_true _ _).mp h
      refine ⟨c, rest, hname, hc, ?_⟩
      rw [hname, List.forall_mem_cons]
      exact ⟨by simp [Char.isAlphanum, hc], List.all_eq_true.mp hrest⟩

namespace Token

/-! ## Single tokens -/

/-- The tokens that are neither names nor numbers. -/
def signs : List Token :=
  [.op .add, .op .sub, .op .mul, .assign, .semi, .newline, .lparen, .rparen]

/-- The token with a given text: a sign if there is one, else a number if one is printed so, and
else a name. -/
def ofText (s : String) : Token :=
  match signs.find? (·.text == s) with
  | some t => t
  | none =>
    match Text.decimal? s with
    | some i => .int i
    | none => .ident s

/-- A token holds no name but one that names of programs can be. -/
def Named (t : Token) : Prop := ∀ name, t = .ident name → Config.isName name

variable {t : Token}

/-- A token is a sign, or else a name or a number. -/
lemma mem_signs_or_isOperand (t : Token) : t ∈ signs ∨ t.isOperand := by
  cases t with
  | ident name => exact .inr rfl
  | int i => exact .inr rfl
  | op o => exact .inl (by cases o <;> decide)
  | _ => exact .inl (by decide)

/-- The texts of names and numbers are words: there are only letters and digits in them. -/
lemma Named.word_text (h : t.Named) (ht : t.isOperand) :
    t.text ≠ "" ∧ ∀ c ∈ t.text.toList, c.isAlphanum := by
  cases t with
  | ident name =>
      obtain ⟨c, rest, hname, -, hword⟩ := Config.exists_cons_of_isName (h name rfl)
      refine ⟨?_, hword⟩
      rintro rfl
      simp at hname
  | int i =>
      have hdigits := Text.digits_toDigits i.toNat
      rw [text, ne_eq, ← String.toList_eq_nil_iff, Nat.toList_repr]
      exact ⟨hdigits.ne_nil, fun c hc => by simp [Char.isAlphanum, hdigits.isDigit c hc]⟩
  | _ => cases ht

/-- A character that is in no word and not in a given sign is not in a token. -/
lemma Named.not_mem_text (h : t.Named) {c : Char} (hc : c.isAlphanum = false)
    (hsign : t ∈ signs → c ∉ t.text.toList) : c ∉ t.text.toList := by
  obtain hmem | ht := mem_signs_or_isOperand t
  · exact hsign hmem
  · intro hmem
    rw [(h.word_text ht).2 c hmem] at hc
    cases hc

/-- There is no space in a token. -/
lemma Named.space_not_mem_text (h : t.Named) : ' ' ∉ t.text.toList := by
  have hsigns : ∀ t ∈ signs, ' ' ∉ t.text.toList := by decide
  exact h.not_mem_text rfl (hsigns t)

/-- There is no line break in a token that is none. -/
lemma Named.newline_not_mem_text (h : t.Named) (hne : t ≠ .newline) : '\n' ∉ t.text.toList := by
  have hsigns : ∀ t ∈ signs, t ≠ .newline → '\n' ∉ t.text.toList := by decide
  exact h.not_mem_text rfl fun hmem => hsigns t hmem hne

/-- The text of a token is not empty. -/
lemma Named.text_ne_empty (h : t.Named) : t.text ≠ "" := by
  have hsigns : ∀ t ∈ signs, t.text ≠ "" := by decide
  obtain hmem | ht := mem_signs_or_isOperand t
  · exact hsigns t hmem
  · exact (h.word_text ht).1

/-- A word is not taken for a sign. -/
lemma find?_signs_eq_none {s : String} (hne : s ≠ "") (hword : ∀ c ∈ s.toList, c.isAlphanum) :
    signs.find? (·.text == s) = none := by
  have hsigns : ∀ t ∈ signs, t.text.toList.any Char.isAlphanum = false := by decide
  obtain ⟨c, hc⟩ := List.exists_mem_of_ne_nil _ (String.toList_eq_nil_iff.not.mpr hne)
  rw [List.find?_eq_none]
  intro t ht htext
  obtain rfl := eq_of_beq htext
  have hany : t.text.toList.any Char.isAlphanum = true :=
    List.any_eq_true.mpr ⟨c, hc, hword c hc⟩
  rw [hsigns t ht] at hany
  cases hany

/-- A name is not taken for a number: it begins with a letter, and numbers are printed with a digit
first. -/
lemma decimal?_of_isName {name : String} (h : Config.isName name) : Text.decimal? name = none := by
  obtain ⟨c, rest, hname, hletter, -⟩ := Config.exists_cons_of_isName h
  rw [Option.eq_none_iff_forall_ne_some]
  intro i hi
  have hdigits := Text.digits_toDigits i.toNat
  rw [← Nat.toList_repr, Text.decimal?_eq_some_iff.mp hi, hname] at hdigits
  have hdigit := Text.isAlpha_of_isDigit (hdigits.isDigit c List.mem_cons_self)
  rw [hletter] at hdigit
  cases hdigit

/-- **A token is read back from its text.** -/
theorem Named.ofText_text (h : t.Named) : ofText t.text = t := by
  have hsigns : ∀ t ∈ signs, ofText t.text = t := by decide
  obtain hmem | ht := mem_signs_or_isOperand t
  · exact hsigns t hmem
  · obtain ⟨hne, hword⟩ := h.word_text ht
    have hfind := find?_signs_eq_none hne hword
    unfold ofText
    rw [hfind]
    cases t with
    | ident name => simp [text, decimal?_of_isName (h name rfl)]
    | int i => simp [text]
    | _ => cases ht

end Token

namespace Tokens

variable {ts us : Tokens}

/-! ## Texts put together -/

/-- One token has its own text. -/
@[simp]
lemma text_singleton (t : Token) : text [t] = t.text := String.intercalate_singleton

/-- The text of the first token and that of the others have a space between them. -/
lemma text_cons (t : Token) (h : ts ≠ []) : text (t :: ts) = t.text ++ " " ++ text ts :=
  String.intercalate_cons_of_ne_nil (by simpa using h)

/-- A space stands between the texts of two sequences that follow each other. -/
lemma text_append (h : ts ≠ []) (h' : us ≠ []) :
    text (ts ++ us) = text ts ++ " " ++ text us := by
  unfold text
  rw [List.map_append, String.intercalate_append_of_ne_nil (by simpa using h) (by simpa using h')]

/-- The characters of a text are spaces and the characters of tokens. -/
lemma eq_space_or_exists_mem_text {c : Char} (h : c ∈ ts.text.toList) :
    c = ' ' ∨ ∃ t ∈ ts, c ∈ t.text.toList := by
  have hne : ts ≠ [] := by
    rintro rfl
    simp [text] at h
  induction ts, hne using List.recNeNil with
  | singleton t => exact .inr ⟨t, .head _, by simpa using h⟩
  | cons t ts hne ih =>
      rw [text_cons t hne] at h
      obtain h | h | h : c ∈ t.text.toList ∨ c = ' ' ∨ c ∈ (text ts).toList := by
        simpa using h
      · exact .inr ⟨t, .head _, h⟩
      · exact .inl h
      · exact (ih h).imp_right fun ⟨t', ht', hc⟩ => ⟨t', .tail _ ht', hc⟩

/-- The text of joined pieces that are not empty: the texts of the pieces, with the text of a
separator and the spaces around it in between. -/
lemma text_joined {pieces : List Tokens} (h : ∀ piece ∈ pieces, piece ≠ []) :
    (joined pieces).text = " ; \n ".intercalate (pieces.map text) := by
  obtain rfl | hne := eq_or_ne pieces []
  · rfl
  induction pieces, hne using List.recNeNil with
  | singleton piece => simp
  | cons piece pieces hne ih =>
      obtain ⟨hpiece, hpieces⟩ := List.forall_mem_cons.mp h
      have hjoined : joined pieces ≠ [] := joined_ne_nil hne hpieces
      have hrest : separator ++ joined pieces ≠ [] := List.append_ne_nil_of_right_ne_nil _ hjoined
      have hsep : separator ≠ [] := List.cons_ne_nil _ _
      have hseparator : " " ++ separator.text ++ " " = " ; \n " := by decide
      calc (joined (piece :: pieces)).text
          = text (piece ++ (separator ++ joined pieces)) := by
            rw [joined_cons hne, List.append_assoc]
        _ = piece.text ++ (" " ++ separator.text ++ " ") ++ (joined pieces).text := by
            rw [text_append hpiece hrest, text_append hsep hjoined]
            simp only [String.append_assoc]
        _ = " ; \n ".intercalate ((piece :: pieces).map text) := by
            rw [hseparator, ih hpieces, List.map_cons,
              String.intercalate_cons_of_ne_nil (by simpa using hne)]

/-! ## Sequences read back -/

/-- A sequence all of whose names are a letter followed by letters and digits. -/
def Named (ts : Tokens) : Prop := ∀ name ∈ ts.idents, Config.isName name

/-- Whether a sequence is named can be told from its tokens. -/
instance (ts : Tokens) : Decidable ts.Named :=
  inferInstanceAs (Decidable (∀ name ∈ ts.idents, Config.isName name))

/-- The sequence with a given text. The empty text is that of no token. -/
def ofText (s : String) : Tokens := if s = "" then [] else (Text.pieces " " s).map Token.ofText

/-- The names in a sequence are those of its tokens. -/
lemma mem_idents_iff {name : String} : name ∈ ts.idents ↔ .ident name ∈ ts := by
  unfold idents
  rw [List.mem_filterMap]
  constructor
  · rintro ⟨t, ht, hname⟩
    cases t with
    | ident name' => exact Option.some.inj hname ▸ ht
    | _ => cases hname
  · intro h
    exact ⟨_, h, rfl⟩

/-- The tokens of a named sequence are named. -/
lemma Named.of_mem (h : ts.Named) {t : Token} (ht : t ∈ ts) : t.Named := by
  rintro name rfl
  exact h name (mem_idents_iff.mpr ht)

/-- The names in joined pieces are the names in the pieces. -/
lemma idents_joined (pieces : List Tokens) : (joined pieces).idents = pieces.flatMap idents := by
  obtain rfl | hne := eq_or_ne pieces []
  · rfl
  induction pieces, hne using List.recNeNil with
  | singleton piece => simp
  | cons piece pieces hne ih =>
      have hseparator : separator.filterMap Token.ident? = [] := rfl
      rw [joined_cons hne, List.flatMap_cons, ← ih]
      unfold idents
      rw [List.filterMap_append, List.filterMap_append, hseparator, List.append_nil]

/-- Named pieces are joined to a named sequence. -/
lemma named_joined {pieces : List Tokens} (h : ∀ piece ∈ pieces, piece.Named) :
    (joined pieces).Named := by
  intro name hname
  rw [idents_joined] at hname
  obtain ⟨piece, hpiece, hname⟩ := List.mem_flatMap.mp hname
  exact h piece hpiece name hname

/-- There is no line break in the text of a sequence without one. -/
lemma Named.newline_not_mem_text (h : ts.Named) (hts : .newline ∉ ts) :
    '\n' ∉ ts.text.toList := by
  intro hmem
  obtain hspace | ⟨t, ht, hmem⟩ := eq_space_or_exists_mem_text hmem
  · exact absurd hspace (by decide)
  · have hne : t ≠ .newline := fun heq => hts (heq ▸ ht)
    exact (h.of_mem ht).newline_not_mem_text hne hmem

/-- Between its spaces a text is the texts of the tokens. -/
lemma Named.pieces_text (h : ts.Named) (hne : ts ≠ []) :
    Text.pieces " " ts.text = ts.map Token.text := by
  have hspaces : ∀ piece ∈ ts.map Token.text, ' ' ∉ piece.toList := by
    simpa using fun t ht => (h.of_mem ht).space_not_mem_text
  exact Text.pieces_intercalate (by decide) hspaces (by simpa using hne)

/-- A sequence with tokens in it does not have the empty text. -/
lemma Named.text_ne_empty (h : ts.Named) (hne : ts ≠ []) : ts.text ≠ "" := by
  obtain ⟨t, ts, rfl⟩ := List.exists_cons_of_ne_nil hne
  by_cases hts : ts = []
  · subst hts
    simpa using (h.of_mem (.head _)).text_ne_empty
  · rw [text_cons t hts]
    simp

/-- The tokens that are read from their texts are those that have them. -/
lemma Named.map_ofText (h : ts.Named) : (ts.map Token.text).map Token.ofText = ts := by
  have hread : ∀ t ∈ ts, (Token.ofText ∘ Token.text) t = id t :=
    fun t ht => (h.of_mem ht).ofText_text
  rw [List.map_map, List.map_congr_left hread, List.map_id]

/-- **A sequence is read back from its text.** -/
theorem Named.ofText_text (h : ts.Named) : ofText ts.text = ts := by
  by_cases hne : ts = []
  · subst hne
    rfl
  · rw [ofText, if_neg (h.text_ne_empty hne), h.pieces_text hne, h.map_ofText]

end Tokens

end RandomInstant
