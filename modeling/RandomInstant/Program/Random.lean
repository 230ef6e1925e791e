import RandomInstant.Choice.Draw
import RandomInstant.Config
import RandomInstant.Program.Scope
import RandomInstant.Program.Statement

/-!
# Random programs

How a program is drawn, from the inside out: a value, an expression, a statement, a program. What
is asked, in which order, is part of the meaning of a seed, so each decision says when its
questions come.

* A value is a reference half of the time, but only where a variable is declared; where none is,
  that question is not asked.
* An expression asks whether it is a single value before it looks at its depth, so that the answer
  is used up even where the depth leaves no choice. It then asks for its operator before its
  operands, and for its parentheses last.
* A statement asks whether it is an assignment. The new name is declared after the expression is
  drawn, so the expression never refers to it, and a scope changes only with a whole statement.
* A program asks for a statement count even where the count is fixed.

## Depth and termination

Expressions count their depth upwards in words, which wrap, towards the depth of the
configuration. Below the greatest word that ends: an expression needs no more levels of nested
calls than `Expr.levels`. At the greatest word no depth is ever too deep, and an expression ends
only if the answers end it. `Expr.toldWithin` therefore takes an allowance of levels, and a
decision that would exceed it is unfinished.

## What is told

A decision leaves notes for a reader of the run. Which notes these are is a parameter, `Telling`,
and no part of the decision: a program notes its remarks (`Telling.remarks`), and a reader who
wants to know more has the same program told with a note of each call that draws an expression.
-/

namespace RandomInstant

/-- What is noted while a program is drawn. -/
inductive Remark where
  /-- The count that was drawn and the count that is used. -/
  | counted (drawn count : UInt64)
  /-- A name that is about to be declared. -/
  | declared (name : String)
  /-- A statement and its place in the program. -/
  | drew (place : Nat) (s : Statement)
  deriving DecidableEq, Repr

/-- A call that draws an expression, on its own or as an operand. -/
structure Expr.Call where
  /-- The depth at which the expression is drawn. -/
  depth : UInt64
  /-- The answer to the question whether it is a single value. -/
  answer : Nat
  deriving DecidableEq, Repr

/-- How the drawing of a program is told: which notes are left of it. -/
structure Telling (ε : Type) where
  /-- The note of a remark, if it is noted. -/
  remark : Remark → Option ε
  /-- The note of a call, if it is noted. -/
  call : Expr.Call → Option ε

/-- Of a program that is only to be drawn, remarks are noted and no calls. -/
def Telling.remarks : Telling Remark := ⟨some, fun _ => none⟩

variable {ε : Type}

/-! ## Values -/

namespace Value

/-- A reference to a declared variable. -/
def randomReference (scope : Scope) : Draw ε Value :=
  if scope.size = 0 then .fault .nothingDeclared
  else do
    let name ← Draw.pick scope.names
    return .variable name

/-- A literal. -/
def randomLiteral (c : Config) : Draw ε Value := do
  let n ← Draw.inRange 0 c.maxLiteral.toUInt64
  return .literal n.toUInt32

/-- A reference to a declared variable or a literal; always a literal where nothing is declared. -/
def random (c : Config) (scope : Scope) : Draw ε Value :=
  if scope.size = 0 then randomLiteral c
  else do
    let refers ← Draw.oneIn 2
    if refers then randomReference scope else randomLiteral c

/-- Where nothing is declared a value is a literal, and nothing else is asked. -/
theorem random_of_size_eq_zero (c : Config) {scope : Scope} (h : scope.size = 0) :
    (random c scope : Draw ε Value) = randomLiteral c := if_pos h

/-- Where something is declared it is asked first whether the value refers to it. -/
theorem random_of_size_ne_zero (c : Config) {scope : Scope} (h : scope.size ≠ 0) :
    (random c scope : Draw ε Value) = .ask 2 fun x =>
      if x == 0 then randomReference scope else randomLiteral c := if_neg h

/-- There are fewer literals than words. -/
theorem inRange_literal (c : Config) :
    (Draw.inRange 0 c.maxLiteral.toUInt64 : Draw ε UInt64) =
      .ask (c.maxLiteral.toNat + 1) fun x => .done x.toUInt64 := by
  have hlt := c.maxLiteral.toNat_lt
  have hspan : c.maxLiteral.toUInt64 - 0 ≠ 0xFFFFFFFFFFFFFFFF := by
    intro hall
    have hword : c.maxLiteral.toNat = 18446744073709551615 := by
      simpa using congrArg UInt64.toNat hall
    omega
  rw [Draw.inRange_of_le UInt64.zero_le hspan]
  simp

/-- A literal is one question, about as many numbers as there are literals. -/
theorem randomLiteral_def (c : Config) :
    (randomLiteral c : Draw ε Value) = .ask (c.maxLiteral.toNat + 1) fun x =>
      .done (.literal x.toUInt64.toUInt32) := by
  rw [randomLiteral, inRange_literal]
  rfl

/-- A reference is one question, about as many numbers as there are declared names. -/
theorem randomReference_of_size_ne_zero {scope : Scope} (h : scope.size ≠ 0) :
    (randomReference scope : Draw ε Value) = .ask scope.size fun i =>
      if h : i < scope.names.size then .done (.variable scope.names[i])
      else .fault (.outOfBounds i scope.size) := by
  simp only [randomReference, if_neg h, Draw.pick, Draw.number_bind, Draw.ask_bind]
  refine congrArg (Draw.ask scope.size) (funext fun i => ?_)
  by_cases hi : i < scope.names.size <;> simp [hi, Scope.size]

end Value

/-! ## Expressions -/

namespace Expr

/-- Whether an expression at a depth is a single value: because it was asked for, or because the
depth leaves no choice. -/
def single (t : Telling ε) (c : Config) (depth : UInt64) : Draw ε Bool := do
  let x ← Draw.number c.leafOdds.toNat
  Draw.tell (t.call ⟨depth, x⟩)
  return x == 0 || c.maxDepth < depth

/-- What is left of an expression once it is known whether it is a single value. If it is not, it
is an operation on two operands, which are drawn one after the other. -/
def proceed (c : Config) (scope : Scope) (operand : Draw ε Expr) (isSingle : Bool) :
    Draw ε Expr :=
  if isSingle then do
    let v ← Value.random c scope
    let parens ← Draw.oneIn c.parenOdds
    return .value v parens
  else do
    let o ← Draw.pick Operator.all
    let left ← operand
    let right ← operand
    let parens ← Draw.oneIn c.parenOdds
    return .binary o left right parens

/-- An expression at a given depth, told in a given way and drawn with an allowance of levels of
nested calls. -/
def toldWithin (t : Telling ε) (c : Config) (scope : Scope) :
    (levels : Nat) → (depth : UInt64) → Draw ε Expr
  | 0, _ => .unfinished
  | levels + 1, depth => do
    let isSingle ← single t c depth
    proceed c scope (toldWithin t c scope levels (depth + 1)) isSingle

/-- An expression at a given depth, drawn with an allowance of levels of nested calls. -/
def randomWithin (c : Config) (scope : Scope) (levels : Nat) (depth : UInt64) :
    Draw Remark Expr :=
  toldWithin .remarks c scope levels depth

/-- An allowance of levels that suffices for every depth: one level for each depth up to the
greatest, and one for the values beyond it. -/
def levels (c : Config) : Nat := c.maxDepth.toNat + 2

/-- An expression at a given depth, told in a given way. -/
def told (t : Telling ε) (c : Config) (scope : Scope) (depth : UInt64) : Draw ε Expr :=
  toldWithin t c scope (levels c) depth

/-- An expression at a given depth. -/
def random (c : Config) (scope : Scope) (depth : UInt64) : Draw Remark Expr :=
  told .remarks c scope depth

/-- Operands are drawn one level deeper, with one level less. -/
theorem toldWithin_succ (t : Telling ε) (c : Config) (scope : Scope) (levels : Nat)
    (depth : UInt64) :
    toldWithin t c scope (levels + 1) depth =
      single t c depth >>= proceed c scope (toldWithin t c scope levels (depth + 1)) := rfl

/-- Whether an expression is a single value is asked first, and the call is told. -/
theorem single_bind (t : Telling ε) (c : Config) (depth : UInt64) {α : Type}
    (k : Bool → Draw ε α) :
    (single t c depth >>= k) = .ask c.leafOdds.toNat fun x =>
      Draw.tell (t.call ⟨depth, x⟩) >>= fun _ => k (x == 0 || c.maxDepth < depth) := by
  simp [single]

/-- The number of levels from a depth to the values beyond the greatest depth. -/
def height (c : Config) (depth : UInt64) : Nat := c.maxDepth.toNat + 1 - depth.toNat + 1

/-- The allowance that suffices for every depth suffices for each. -/
theorem height_le_levels (c : Config) (depth : UInt64) : height c depth ≤ levels c := by
  unfold height levels
  omega

/-- Below the greatest word the depth of an operand does not wrap. -/
theorem toNat_depth_succ {c : Config} {depth : UInt64} (hc : c.maxDepth < 0xFFFFFFFFFFFFFFFF)
    (h : ¬ c.maxDepth < depth) : (depth + 1).toNat = depth.toNat + 1 := by
  have hmax : c.maxDepth.toNat < 18446744073709551615 := UInt64.lt_iff_toNat_lt.mp hc
  have hle : depth.toNat ≤ c.maxDepth.toNat := UInt64.le_iff_toNat_le.mp (UInt64.not_lt.mp h)
  rw [UInt64.toNat_add, UInt64.toNat_one]
  exact Nat.mod_eq_of_lt (by omega)

/-- One level deeper is one level less to go. -/
theorem height_succ {c : Config} {depth : UInt64} (hc : c.maxDepth < 0xFFFFFFFFFFFFFFFF)
    (h : ¬ c.maxDepth < depth) : height c (depth + 1) + 1 = height c depth := by
  have hle : depth.toNat ≤ c.maxDepth.toNat := UInt64.le_iff_toNat_le.mp (UInt64.not_lt.mp h)
  have hsucc := toNat_depth_succ hc h
  unfold height
  omega

end Expr

/-! ## Statements -/

namespace Statement

/-- A statement, with the scope that holds after it, told in a given way. -/
def told (t : Telling ε) (c : Config) (scope : Scope) : Draw ε (Statement × Scope) := do
  let assigns ← Draw.oneIn c.assignOdds
  if assigns then
    let e ← Expr.told t c scope 1
    let name := scope.freshName c.stem
    Draw.tell (t.remark (.declared name))
    match scope.declare? name with
    | some scope => return (.assignment name e, scope)
    | none => .fault .declaredTwice
  else
    let e ← Expr.told t c scope 1
    return (.expression e, scope)

/-- A statement, with the scope that holds after it. -/
def random (c : Config) (scope : Scope) : Draw Remark (Statement × Scope) :=
  told .remarks c scope

/-- A statement asks first whether it is an assignment. -/
theorem random_def (c : Config) (scope : Scope) :
    random c scope = (do
      let assigns ← Draw.oneIn c.assignOdds
      if assigns then
        let e ← Expr.random c scope 1
        Draw.remark (.declared (scope.freshName c.stem))
        match scope.declare? (scope.freshName c.stem) with
        | some scope' => return (.assignment (scope.freshName c.stem) e, scope')
        | none => .fault .declaredTwice
      else
        let e ← Expr.random c scope 1
        return (.expression e, scope)) := rfl

end Statement

/-! ## Programs -/

namespace Program

/-- A program that is being drawn: the statements so far and the scope after them. -/
structure Draft where
  /-- The statements so far. -/
  statements : Array Statement := #[]
  /-- The variables they declare. -/
  scope : Scope := {}

/-- The program that a draft amounts to. -/
def Draft.program (d : Draft) : Program := ⟨d.statements.toList⟩

/-- Extends a draft by a number of statements, told in a given way. -/
def Draft.extendTold (t : Telling ε) (c : Config) : (count : Nat) → Draft → Draw ε Draft
  | 0, d => return d
  | count + 1, d => do
    let (s, scope) ← Statement.told t c d.scope
    Draw.tell (t.remark (.drew d.statements.size s))
    extendTold t c count { statements := d.statements.push s, scope }

/-- Extends a draft by a number of statements. -/
def Draft.extend (c : Config) (count : Nat) (d : Draft) : Draw Remark Draft :=
  extendTold .remarks c count d

/-- The first of the statements, and those after it. -/
theorem Draft.extendTold_succ (t : Telling ε) (c : Config) (count : Nat) (d : Draft) :
    Draft.extendTold t c (count + 1) d = (do
      let (s, scope) ← Statement.told t c d.scope
      Draw.tell (t.remark (.drew d.statements.size s))
      Draft.extendTold t c count { statements := d.statements.push s, scope }) := rfl

/-- No statement leaves a draft as it is. -/
@[simp]
theorem Draft.extend_zero (c : Config) (d : Draft) : Draft.extend c 0 d = .done d := rfl

/-- So are they drawn where only remarks are noted. -/
theorem Draft.extend_succ (c : Config) (count : Nat) (d : Draft) :
    Draft.extend c (count + 1) d = (do
      let (s, scope) ← Statement.random c d.scope
      Draw.remark (.drew d.statements.size s)
      Draft.extend c count { statements := d.statements.push s, scope }) := rfl

/-- A program, told in a given way. -/
def told (t : Telling ε) (c : Config) : Draw ε Program := do
  let drawn ← Draw.inRange c.fewest c.most
  let count := c.statementCount drawn
  Draw.tell (t.remark (.counted drawn count))
  let d ← Draft.extendTold t c count.toNat {}
  return d.program

/-- A program. -/
def random (c : Config) : Draw Remark Program := told .remarks c

/-- A program asks first for a number of statements, and notes it. -/
theorem random_def (c : Config) :
    random c = (do
      let drawn ← Draw.inRange c.fewest c.most
      Draw.remark (.counted drawn (c.statementCount drawn))
      let d ← Draft.extend c (c.statementCount drawn).toNat {}
      return d.program) := rfl

end Program

end RandomInstant
