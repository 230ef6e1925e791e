import RandomInstant.Proofs.Program.Numbered
import RandomInstant.Proofs.Token.Cutting

/-!
# Renaming what is drawn

The stem of a configuration is what the names of its programs begin with. A name under another stem
keeps its number; this holds of every two stems, also of those that end in digits, where one name
can be numbered behind both.

* `restem`: a name under another stem.
* `Value.rename`, `Expr.rename`, `Statement.rename`, `Program.rename`, `Scope.rename`: a renaming
  carried to all that is drawn, and `Program.tokens_rename` to tokens.
-/

namespace RandomInstant

/-! ## Names under another stem -/

/-- The number of a name behind a stem, if it is a numbered name of the stem. -/
def number? (stem name : String) : Option Nat :=
  let k := Nat.ofDigitChars 10 (name.toList.drop stem.toList.length) 0
  if nthName stem k = name then some k else none

/-- The numbered names of a stem are those that have a number behind it. -/
lemma number?_eq_some_iff {stem name : String} {k : Nat} :
    number? stem name = some k ↔ nthName stem k = name := by
  constructor
  · intro h
    obtain ⟨hname, hk⟩ := Option.ite_none_right_eq_some.mp h
    rwa [Option.some.inj hk] at hname
  · rintro rfl
    have hdigits : (nthName stem k).toList.drop stem.toList.length = Nat.toDigits 10 k := by
      rw [nthName, String.toList_append, List.drop_left, Nat.toList_repr]
    simp [number?, hdigits]

/-- A name under another stem: a numbered name of the old stem becomes that of the new stem with
the same number, and every other name stays as it is. -/
def restem (old new name : String) : String :=
  match number? old name with
  | some k => nthName new k
  | none => name

/-- A numbered name keeps its number. -/
@[simp]
lemma restem_nthName (old new : String) (k : Nat) :
    restem old new (nthName old k) = nthName new k := by
  rw [restem, number?_eq_some_iff.mpr rfl]

/-- Under its own stem every name stays as it is. -/
lemma restem_self (stem : String) : restem stem stem = id := by
  funext name
  unfold restem
  split
  · next k hk => exact number?_eq_some_iff.mp hk
  · rfl

example : restem "x" "x1" "x10" = "x110" := by decide

example : restem "x" "x1" "y10" = "y10" := by decide

/-! ## Renaming what is drawn -/

variable (ρ : String → String)

/-- A token with its name changed, if it is one. -/
def Token.rename : Token → Token
  | ident name => ident (ρ name)
  | t => t

/-- A value with its name changed, if it is one. -/
def Value.rename : Value → Value
  | «variable» name => «variable» (ρ name)
  | literal value => literal value

/-- An expression with all its names changed. -/
def Expr.rename : Expr → Expr
  | value v parens => value (v.rename ρ) parens
  | binary o left right parens => binary o left.rename right.rename parens

/-- A statement with all its names changed. -/
def Statement.rename : Statement → Statement
  | expression e => expression (e.rename ρ)
  | assignment name e => assignment (ρ name) (e.rename ρ)

/-- A program with all its names changed. -/
def Program.rename (p : Program) : Program := ⟨p.statements.map (Statement.rename ρ)⟩

/-- A remark with all its names changed. -/
def Remark.rename : Remark → Remark
  | counted drawn count => counted drawn count
  | declared name => declared (ρ name)
  | drew place s => drew place (s.rename ρ)

/-- A scope with all its names changed. -/
def Scope.rename (scope : Scope) : Scope := ⟨scope.names.map ρ⟩

/-- A draft with all its names changed. -/
def Program.Draft.rename (d : Draft) : Draft :=
  ⟨d.statements.map (Statement.rename ρ), d.scope.rename ρ⟩

/-! ### Nothing changes where no name does -/

/-- A value stays the same if its name does. -/
@[simp]
lemma Value.rename_id (v : Value) : v.rename id = v := by
  cases v <;> rfl

/-- An expression stays the same if all its names do. -/
@[simp]
lemma Expr.rename_id (e : Expr) : e.rename id = e := by
  induction e with
  | value v parens => rw [rename, Value.rename_id]
  | binary o left right parens ihl ihr => rw [rename, ihl, ihr]

/-- A statement stays the same if all its names do. -/
@[simp]
lemma Statement.rename_id (s : Statement) : s.rename id = s := by
  cases s <;> simp [rename]

/-- A program stays the same if all its names do. -/
@[simp]
lemma Program.rename_id (p : Program) : p.rename id = p := by
  have hid : Statement.rename id = id := funext Statement.rename_id
  rw [rename, hid, List.map_id]

/-- A remark stays the same if all its names do. -/
@[simp]
lemma Remark.rename_id (e : Remark) : e.rename id = e := by
  cases e <;> simp [rename]

/-- A scope stays the same if all its names do. -/
@[simp]
lemma Scope.rename_id (scope : Scope) : scope.rename id = scope := by
  rw [rename, Array.map_id]

/-! ### Scopes -/

/-- A renamed scope has as many names. -/
lemma Scope.size_rename (scope : Scope) : (scope.rename ρ).size = scope.size := by
  simp [Scope.rename, Scope.size]

/-- Numbered scopes of two stems are renamings of each other. -/
lemma Scope.rename_numbered (old new : String) (k : Nat) :
    (numbered old k).rename (restem old new) = numbered new k := by
  simp [rename, numbered, Function.comp_def]

/-! ## Tokens -/

/-- The token of a value is renamed with it. -/
lemma Value.token_rename (v : Value) : (v.rename ρ).token = v.token.rename ρ := by
  cases v <;> rfl

/-- Parentheses are not renamed. -/
lemma Expr.enclose_map (parens : Bool) (ts : Tokens) :
    enclose parens (ts.map (Token.rename ρ)) = (enclose parens ts).map (Token.rename ρ) := by
  cases parens with
  | false => rfl
  | true => simp [enclose, Tokens.parenthesize, Token.rename]

/-- The tokens of an expression are renamed with it. -/
lemma Expr.tokens_rename (e : Expr) : (e.rename ρ).tokens = e.tokens.map (Token.rename ρ) := by
  induction e with
  | value v parens =>
      rw [rename, tokens, tokens, ← enclose_map, Value.token_rename]
      rfl
  | binary o left right parens ihl ihr =>
      rw [rename, tokens, tokens, ← enclose_map, ihl, ihr, List.map_append]
      rfl

/-- The tokens of a statement are renamed with it. -/
lemma Statement.tokens_rename (s : Statement) :
    (s.rename ρ).tokens = s.tokens.map (Token.rename ρ) := by
  cases s with
  | expression e => exact e.tokens_rename ρ
  | assignment name e => simp [rename, tokens, Expr.tokens_rename, Token.rename]

/-- The tokens of a program are renamed with it. -/
lemma Program.tokens_rename (p : Program) :
    (p.rename ρ).tokens = p.tokens.map (Token.rename ρ) := by
  have hstatements : p.statements.map (Statement.tokens ∘ Statement.rename ρ) =
      (p.statements.map Statement.tokens).map (List.map (Token.rename ρ)) := by
    rw [List.map_map]
    exact List.map_congr_left fun s _ => s.tokens_rename ρ
  rw [tokens, rename, List.map_map, hstatements, Tokens.joined_map rfl, tokens]

end RandomInstant
