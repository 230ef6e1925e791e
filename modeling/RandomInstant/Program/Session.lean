import RandomInstant.Choice.Source
import RandomInstant.Program.Random

/-!
# Sessions: drawing step by step

A session draws programs and parts of programs one after the other, from one source. Whole
programs have a scope of their own; all other steps share the scope of the session, and names can
also be declared in it by hand. A step that fails leaves the scope as it was, while the answers it
has used up remain used.
-/

namespace RandomInstant

/-- The steps of a session. -/
inductive Step where
  /-- Draws a program. -/
  | program
  /-- Draws a statement and declares what it declares. -/
  | statement
  /-- Draws an expression at a depth. -/
  | expression (depth : UInt64)
  /-- Draws a value. -/
  | value
  /-- Asks for the name that would be declared next. -/
  | freshName
  /-- Declares a name by hand. -/
  | declare (name : String)
  deriving DecidableEq, Repr

/-- The results of steps. -/
inductive StepResult where
  /-- The program that was drawn. -/
  | program (p : Program)
  /-- The statement that was drawn. -/
  | statement (s : Statement)
  /-- The expression that was drawn. -/
  | expression (e : Expr)
  /-- The value that was drawn. -/
  | value (v : Value)
  /-- The name that would be declared next. -/
  | name (x : String)
  /-- Whether the name declared by hand was new. -/
  | declared (fresh : Bool)
  deriving DecidableEq, Repr

/-- A step as a decision, with the scope that holds after it. -/
def Step.draw (c : Config) (scope : Scope) : Step → Draw Remark (StepResult × Scope)
  | .program => do
    let p ← Program.random c
    return (.program p, scope)
  | .statement => do
    let (s, scope) ← Statement.random c scope
    return (.statement s, scope)
  | .expression depth => do
    let e ← Expr.random c scope depth
    return (.expression e, scope)
  | .value => do
    let v ← Value.random c scope
    return (.value v, scope)
  | .freshName => return (.name (scope.freshName c.stem), scope)
  | .declare name => return (.declared (!scope.declares name), scope.declare name)

/-- What lasts from one step to the next. -/
structure Session (σ : Type) where
  /-- The variables declared so far. -/
  scope : Scope := {}
  /-- The state of the source. -/
  state : σ

/-- Takes a step. The session after it has the new scope if the step came to its end and the old
one if not. -/
def Session.step {σ : Type} (c : Config) (source : Source σ) (session : Session σ) (step : Step) :
    Run Remark σ (StepResult × Scope) × Session σ :=
  let run := (step.draw c session.scope).run source session.state
  let scope := match run.outcome with
    | .done (_, scope) => scope
    | .fault _ => session.scope
    | .unfinished => session.scope
  (run, ⟨scope, run.state⟩)

end RandomInstant
