import RandomInstant.Proofs.Program.Related

/-!
# Programs with a note of each call

What is said of nested calls is said of a program that is told with a note of each call that draws
an expression: `Expr.tracedWithin`, `Expr.traced`, `Statement.traced` and `Program.traced`.

Of two tellings where one notes what the other does, with some notes changed and the others dropped
(`Telling.filterNotes`), the decisions are in step: `Expr.inStep_toldWithin`,
`Statement.inStep_told` and `Program.inStep_told`. So the runs are the same but for these notes; in
particular a program with a note of each call is the program itself once these notes are dropped.
-/

namespace RandomInstant

open Draw (InStep)
open RandomInstant.Expr (Call)

variable {ε ε' σ : Type}

/-! ## The same told in two ways -/

/-- A telling with its notes changed or dropped. -/
def Telling.filterNotes (f : ε → Option ε') (t : Telling ε) : Telling ε' where
  remark e := (t.remark e).bind f
  call k := (t.call k).bind f

variable (t : Telling ε) (f : ε → Option ε') (c : Config) (scope : Scope)

namespace Expr

/-- Whether an expression is a single value is the same however it is told. -/
lemma inStep_single (l : Draw.Leave ε) (depth : UInt64) :
    (single t c depth).InStep f l Eq (single (t.filterNotes f) c depth) :=
  .ask _ fun _ => (Draw.inStep_tell _).bind fun _ _ _ => .done rfl

/-- **An expression is the same however it is told.** -/
theorem inStep_toldWithin (levels : Nat) (depth : UInt64) :
    (toldWithin t c scope levels depth).InStep f {} Eq
      (toldWithin (t.filterNotes f) c scope levels depth) :=
  related_add_same (m := levels) (n := 0) (InStep.covers f {} c) (inStep_single t f c {})
    fun _ => .unfinished

end Expr

/-- **A statement is the same however it is told.** -/
theorem Statement.inStep_told : (told t c scope).InStep f {} Eq (told (t.filterNotes f) c scope) :=
  related_same (InStep.covers f {} c)
    (fun e => Draw.inStep_tell_any (t.remark e)) (Expr.inStep_toldWithin t f c scope _ _)
    fun _ _ _ _ => .fault _

/-- **A program is the same however it is told.** -/
theorem Program.inStep_told : (told t c).InStep f {} Eq (told (t.filterNotes f) c) :=
  related_same (InStep.covers f {} c) (Draw.inStep_inRange c.fewest c.most)
    (fun e => Draw.inStep_tell_any (t.remark e)) fun _ => Expr.inStep_toldWithin t f c _ _ _

/-! ## A note of each call -/

/-- Remarks and calls are noted. -/
def Telling.calls : Telling (Remark ⊕ Call) := ⟨fun e => some (.inl e), fun k => some (.inr k)⟩

namespace Expr

/-- The decision of an expression, with a note of each call once it knows whether it is a single
value. -/
def tracedWithin (levels : Nat) (depth : UInt64) : Draw (Remark ⊕ Call) Expr :=
  toldWithin .calls c scope levels depth

/-- The decision of an expression, with a note of each call. -/
def traced (depth : UInt64) : Draw (Remark ⊕ Call) Expr := told .calls c scope depth

/-- The run of an expression is the run with notes of calls, without these notes. -/
lemma filterNotes_run_tracedWithin (levels : Nat) (depth : UInt64) (source : Source σ) (s : σ) :
    ((tracedWithin c scope levels depth).run source s).filterNotes Sum.getLeft? =
      (randomWithin c scope levels depth).run source s :=
  ((inStep_toldWithin .calls Sum.getLeft? c scope levels depth).run_of_kept
    source s).eq_filterNotes.symm

end Expr

/-- The decision of a statement, with a note of each call. -/
def Statement.traced : Draw (Remark ⊕ Call) (Statement × Scope) := told .calls c scope

/-- The run of a statement is the run with notes of calls, without these notes. -/
lemma Statement.filterNotes_run_traced (source : Source σ) (s : σ) :
    ((traced c scope).run source s).filterNotes Sum.getLeft? = (random c scope).run source s :=
  ((inStep_told .calls Sum.getLeft? c scope).run_of_kept source s).eq_filterNotes.symm

/-- The decision of a program, with a note of each call. -/
def Program.traced : Draw (Remark ⊕ Call) Program := told .calls c

/-- The run of a program is the run with notes of calls, without these notes. -/
lemma Program.filterNotes_run_traced (source : Source σ) (s : σ) :
    ((traced c).run source s).filterNotes Sum.getLeft? = (random c).run source s :=
  ((inStep_told .calls Sum.getLeft? c).run_of_kept source s).eq_filterNotes.symm

end RandomInstant
