import RandomInstant.Proofs.Choice.Replay
import RandomInstant.Proofs.Program.Termination

/-!
# What the greatest depth decides

An expression asks whether it is a single value before it looks at its depth. So the greatest depth
changes nothing about the questions; all it does is overrule answers of expressions that are too
deep for operands. Two things follow. Where each of these expressions is a single value of its own
accord, nothing is overruled, and a greater depth leads to the same. And an answer that is overruled
might as well have been any other.

* `Expr.inStep_deeper`, `Statement.inStep_deeper`, `Program.inStep_deeper`: under a greater depth
  the same is decided until a call is overruled.
* `Draw.TellsCalls`: a shape of decisions, in which the note of a call comes directly after the
  answer that it is about, and a call that is too deep goes on in one way only.
* `Draw.TellsCalls.exists_answer`: on a course of such a decision, the answer to a call that is too
  deep can be changed. `Draw.TellsCalls.run_scripted_set`: so it can in a script.
* **`depth_acts_by_overruling`**: both for runs.
-/

namespace RandomInstant

open Draw (Course InStep Property course_ask_cases course_note_iff)
open RandomInstant.Expr (Call calls)

variable {c : Config} {scope : Scope} {depth maxDepth : UInt64} {σ α β : Type}

/-! ## A greater depth -/

/-- A note tells of a call that is overruled: it is too deep for operands, but was not answered to
be a single value. -/
def Overruled (c : Config) (e : Remark ⊕ Call) : Prop :=
  ∃ call, e = .inr call ∧ c.maxDepth < call.depth ∧ call.answer ≠ 0

namespace Expr

/-- Under a greater depth the same expressions are single values until an answer is overruled, and
the others are too deep under neither depth. -/
lemma inStep_single_deeper (hle : c.maxDepth ≤ maxDepth) (depth : UInt64) :
    (single .calls c depth).InStep Sum.getLeft? { behind := Overruled c }
      (fun s s' => s' = s ∧ (s = false → ¬ c.maxDepth < depth))
      (single .remarks { c with maxDepth } depth) := by
  refine .ask _ fun x => (Draw.inStep_tell _).bind fun _ _ hstands => .done ?_
  by_cases hx : x = 0
  · simp [hx]
  · have hd : ¬ c.maxDepth < depth := fun hd => hstands _ rfl ⟨_, rfl, hd, hx⟩
    have hd' : ¬ maxDepth < depth := fun hd' => hd (Std.lt_of_le_of_lt hle hd')
    simp [hx, hd, hd']

/-- Under a greater depth the same expression is drawn until an answer is overruled. -/
lemma inStep_deeper (hle : c.maxDepth ≤ maxDepth) (hmax : maxDepth < 0xFFFFFFFFFFFFFFFF)
    (scope : Scope) (depth : UInt64) :
    (traced c scope depth).InStep Sum.getLeft? { behind := Overruled c } Eq
      (random { c with maxDepth } scope depth) := by
  have hlevels : levels c ≤ levels { c with maxDepth } :=
    Nat.add_le_add_right (UInt64.le_iff_toNat_le.mp hle) 2
  have hheight := height_le_levels c depth
  exact related_of_height_same (Std.lt_of_le_of_lt hle hmax) (InStep.covers _ _ c)
    (inStep_single_deeper hle) hheight (Nat.le_trans hheight hlevels)

end Expr

/-- Under a greater depth the same statement is drawn until an answer is overruled. -/
lemma Statement.inStep_deeper (hle : c.maxDepth ≤ maxDepth) (hmax : maxDepth < 0xFFFFFFFFFFFFFFFF)
    (scope : Scope) :
    (traced c scope).InStep Sum.getLeft? { behind := Overruled c } Eq
      (random { c with maxDepth } scope) :=
  related_same (InStep.covers _ _ c) (fun _ => Draw.inStep_tell_any _)
    (Expr.inStep_deeper hle hmax scope 1) fun _ _ _ _ => .fault _

/-- Under a greater depth the same program is drawn until an answer is overruled. -/
lemma Program.inStep_deeper (hle : c.maxDepth ≤ maxDepth) (hmax : maxDepth < 0xFFFFFFFFFFFFFFFF) :
    (traced c).InStep Sum.getLeft? { behind := Overruled c } Eq (random { c with maxDepth }) :=
  related_same (InStep.covers _ _ c) (Draw.inStep_inRange c.fewest c.most)
    (fun _ => Draw.inStep_tell_any _) fun _ => Expr.inStep_deeper hle hmax _ 1

/-- The run of a decision under a greatest depth and its run under a greater one. -/
structure SameUnlessOverruled (c : Config) (source : Source σ) (s : σ)
    (traced : Draw (Remark ⊕ Call) α) (d d' : Draw Remark α) : Prop where
  /-- Without the notes of calls, the run that notes them is the run of the decision. -/
  erased : (traced.run source s).filterNotes Sum.getLeft? = d.run source s
  /-- If each call that is too deep for operands is a single value of its own accord, a greater
  depth leads to the same result by the same questions, answers and notes. -/
  same : (∀ call ∈ calls (traced.run source s).record.toList,
    c.maxDepth < call.depth → call.answer = 0) → d'.run source s = d.run source s

/-- Decisions that are in step until an answer is overruled have the same runs if none is. -/
lemma sameUnlessOverruled_of_inStep {traced : Draw (Remark ⊕ Call) α} {d d' : Draw Remark α}
    {source : Source σ} {s : σ} (erased : (traced.run source s).filterNotes Sum.getLeft? =
      d.run source s)
    (h : traced.InStep Sum.getLeft? { behind := Overruled c } Eq d') :
    SameUnlessOverruled c source s traced d d' := by
  refine ⟨erased, fun hstands => ?_⟩
  have hkept : ∀ e, .noted e ∈ (traced.run source s).record.toList → ¬ Overruled c e := by
    rintro e he ⟨call, rfl, hd, hx⟩
    exact hx (hstands call (Expr.mem_calls_iff.mpr he) hd)
  rw [← erased]
  exact (h.run source s hkept False.elim).eq_filterNotes

/-! ## Answers that are overruled -/

namespace Draw

/-- A decision tells its calls if each of them is noted directly after the question whether it is a
single value, and one that is too deep for operands goes on in the same way after every answer. -/
inductive TellsCalls (c : Config) : Draw (Remark ⊕ Call) α → Prop where
  /-- The decision is taken. -/
  | done (a : α) : TellsCalls c (.done a)
  /-- The decision fails. -/
  | fault (f : Fault) : TellsCalls c (.fault f)
  /-- The allowance has run out. -/
  | unfinished : TellsCalls c .unfinished
  /-- A remark is left. -/
  | note (e : Remark) {rest : Draw (Remark ⊕ Call) α} (h : TellsCalls c rest) :
      TellsCalls c (.note (.inl e) rest)
  /-- A question of any kind is asked. -/
  | ask (bound : Nat) {next : Nat → Draw (Remark ⊕ Call) α} (h : ∀ x, TellsCalls c (next x)) :
      TellsCalls c (.ask bound next)
  /-- A call asks whether it is a single value. -/
  | call (depth : UInt64) {next : Nat → Draw (Remark ⊕ Call) α} (h : ∀ x, TellsCalls c (next x))
      (deep : c.maxDepth < depth → ∀ x y, next x = next y) :
      TellsCalls c (.ask c.leafOdds.toNat fun x => .note (.inr ⟨depth, x⟩) (next x))

/-- Decisions in sequence tell their calls if each of them does. -/
lemma TellsCalls.bind {d : Draw (Remark ⊕ Call) α} {k : α → Draw (Remark ⊕ Call) β}
    (h : d.TellsCalls c) (hk : ∀ a r, Course d r (.done a) → (k a).TellsCalls c) :
    (d >>= k).TellsCalls c := by
  induction h with
  | done a => exact hk a [] (.done a)
  | fault f => exact .fault f
  | unfinished => exact .unfinished
  | note e h ih => exact .note e (ih fun a r hr => hk a _ hr.note)
  | ask bound h ih => exact .ask bound fun x => ih x fun a r hr => hk a _ (hr.answered x)
  | call depth h deep ih =>
      refine .call depth (fun x => ih x fun a r hr => hk a _ (hr.note.answered x)) fun hd x y => ?_
      rw [deep hd x y]

/-- To tell its calls is a property that sequencing keeps. -/
def TellsCalls.property (c : Config) : Property (Remark ⊕ Call) where
  Holds := TellsCalls c
  done := .done
  bind := TellsCalls.bind

/-- A decision that makes no calls tells all of them. -/
lemma Silent.tellsCalls {d : Draw (Remark ⊕ Call) α} (h : d.Silent) : d.TellsCalls c := by
  induction d with
  | done a => exact .done a
  | fault f => exact .fault f
  | unfinished => exact .unfinished
  | note e rest ih => exact h.1.elim
  | ask bound next ih => exact .ask bound fun x => ih x (h x)

/-- Expressions tell their calls: the answer of one that is too deep makes no difference. -/
lemma tellsCalls_tracedWithin (c : Config) (scope : Scope) (levels : Nat) (depth : UInt64) :
    (Expr.tracedWithin c scope levels depth).TellsCalls c := by
  have hcovers := (NotesAll.covers (fun _ => False) c).mono (q := TellsCalls.property c)
    Silent.tellsCalls
  have hsingle (depth : UInt64) : (Expr.single .calls c depth).TellsCalls c :=
    .call depth (fun x => .done _) fun hd x y => by simp [hd]
  exact hcovers.toldWithin (m := levels) hsingle .unfinished

/-- **The answer to a call.** It comes directly before the note of the call. If the call is too deep
for operands, the same happens after every other answer. -/
theorem TellsCalls.exists_answer {d : Draw (Remark ⊕ Call) α} (h : d.TellsCalls c)
    {before after : List (Happening (Remark ⊕ Call))} {call : Call} {o : Outcome α}
    (hr : Course d (before ++ .noted (.inr call) :: after) o) :
    ∃ before', before = before' ++ [.answered c.leafOdds.toNat call.answer] ∧
      (c.maxDepth < call.depth → ∀ y, Course d
        (before' ++ .answered c.leafOdds.toNat y ::
          .noted (.inr { call with answer := y }) :: after) o) := by
  generalize hrecord : before ++ .noted (.inr call) :: after = r at hr
  induction h generalizing before r with
  | done | fault | unfinished =>
      cases hr
      simp at hrecord
  | note e h ih =>
      obtain ⟨r, rfl, hrest⟩ := course_note_iff.mp hr
      obtain ⟨-, hhead⟩ | ⟨before, rfl, rfl⟩ := List.append_eq_cons_iff.mp hrecord
      · cases hhead
      · obtain ⟨before, rfl, hother⟩ := ih _ rfl hrest
        exact ⟨_ :: before, rfl, fun hd y => (hother hd y).note⟩
  | ask bound h ih =>
      obtain ⟨f, rfl, -⟩ | ⟨x, r, rfl, hnext⟩ := course_ask_cases hr
      · simp [List.append_eq_cons_iff] at hrecord
      obtain ⟨-, hhead⟩ | ⟨before, rfl, rfl⟩ := List.append_eq_cons_iff.mp hrecord
      · cases hhead
      · obtain ⟨before, rfl, hother⟩ := ih x _ rfl hnext
        exact ⟨_ :: before, rfl, fun hd y => (hother hd y).answered x⟩
  | call depth h deep ih =>
      obtain ⟨f, rfl, -⟩ | ⟨x, r, rfl, hnext⟩ := course_ask_cases hr
      · simp [List.append_eq_cons_iff] at hrecord
      obtain ⟨r, rfl, hrest⟩ := course_note_iff.mp hnext
      obtain ⟨-, hhead⟩ | ⟨before, rfl, hbehind⟩ := List.append_eq_cons_iff.mp hrecord
      · cases hhead
      obtain ⟨rfl, hhead⟩ | ⟨before, rfl, rfl⟩ := List.append_eq_cons_iff.mp hbehind.symm
      · -- it is the call itself that is noted
        cases hhead
        exact ⟨[], rfl, fun hd y => (deep hd x y ▸ hrest).note.answered y⟩
      · obtain ⟨before, rfl, hother⟩ := ih x _ rfl hrest
        exact ⟨_ :: _ :: before, rfl, fun hd y => (hother hd y).note.answered x⟩

/-- **An answer that is overruled can be changed.** Let a script lead to a result and be used up,
and let a call that is too deep for operands be made. The last answer before the note of the call
can be any other below its bound: the result is the same, and the script is used up. -/
theorem TellsCalls.run_scripted_set {d : Draw (Remark ⊕ Call) α} (h : d.TellsCalls c)
    {script : List Nat} {a : α} (hdone : (d.run Source.scripted script).outcome = .done a)
    (hused : (d.run Source.scripted script).state = [])
    {before after : List (Happening (Remark ⊕ Call))} {call : Call}
    (hrecord : (d.run Source.scripted script).record.toList = before ++ .noted (.inr call) :: after)
    (hdeep : c.maxDepth < call.depth) :
    ∃ earlier i, before = earlier ++ [.answered c.leafOdds.toNat call.answer] ∧
      (earlier.filterMap Happening.answer?).length = i ∧ script[i]? = some call.answer ∧
        ∀ y < c.leafOdds.toNat,
          (d.run Source.scripted (script.set i y)).outcome = .done a ∧
            (d.run Source.scripted (script.set i y)).state = [] := by
  have hcourse := course_of_outcome_eq hdone
  have hkeeps := Source.scripted_follows.keeps d script
  have hscript := answers_append_state hdone
  rw [hused, Run.answers, hrecord] at hscript
  rw [hrecord] at hcourse hkeeps
  obtain ⟨before, rfl, hother⟩ := h.exists_answer hcourse
  have hsplit : script = before.filterMap Happening.answer? ++
      call.answer :: after.filterMap Happening.answer? := by
    simpa [List.filterMap_cons, Happening.answer?] using hscript.symm
  refine ⟨before, _, rfl, rfl, by simp [hsplit], fun y hy => ?_⟩
  have hbelow : ∀ bound x, .answered bound x ∈ before ++ .answered c.leafOdds.toNat y ::
      .noted (.inr { call with answer := y }) :: after → x < bound := by
    intro bound x hx
    obtain hx | ⟨rfl, rfl⟩ | hx : .answered bound x ∈ before ∨
        (bound = c.leafOdds.toNat ∧ x = y) ∨ .answered bound x ∈ after := by simpa using hx
    · exact hkeeps (.answered bound x) (by simp [hx])
    · exact hy
    · exact hkeeps (.answered bound x) (by simp [hx])
  have hrun := run_scripted (hother hdeep y) hbelow []
  have hset : script.set (before.filterMap Happening.answer?).length y =
      (before ++ .answered c.leafOdds.toNat y ::
        .noted (.inr { call with answer := y }) :: after).filterMap Happening.answer? ++ [] := by
    simp [hsplit, List.filterMap_cons, Happening.answer?]
  rw [hset, hrun]
  exact ⟨rfl, rfl⟩

end Draw

/-- **The greatest depth acts by overruling.** Let everything but the greatest depth of a
configuration be kept and let that be raised, to below the greatest word. From every state of a
lawful source an expression is drawn. If each call that was too deep was answered to be a single
value, the same expression is drawn by the same questions and answers under the greater depth. The
same holds of statements, with the scope after them, and of programs; and a statement is drawn where
its fresh name is new, a program where there is a range to draw its length from.

The other way round, let a script lead to an expression and be used up. Where a call is too deep,
the answer just before the note of it may be any other below the odds: the script with this other
answer leads to the same expression and is used up. -/
theorem depth_acts_by_overruling {c : Config} {maxDepth : UInt64} (hle : c.maxDepth ≤ maxDepth)
    (hmax : maxDepth < 0xFFFFFFFFFFFFFFFF) (odds : ∀ choice, 0 < c.odds choice) :
    (∀ {σ : Type} (source : Source σ), source.Lawful → ∀ s,
      (∀ scope depth,
        (∃ e, ((Expr.random c scope depth).run source s).outcome = .done e) ∧
        SameUnlessOverruled c source s (Expr.traced c scope depth) (Expr.random c scope depth)
          (Expr.random { c with maxDepth } scope depth)) ∧
      (∀ scope,
        (scope.freshName c.stem ∉ scope.names →
          ∃ a, ((Statement.random c scope).run source s).outcome = .done a) ∧
        SameUnlessOverruled c source s (Statement.traced c scope) (Statement.random c scope)
          (Statement.random { c with maxDepth } scope)) ∧
      (c.fewest ≤ c.most → c.most - c.fewest ≠ 0xFFFFFFFFFFFFFFFF →
        ∃ p, ((Program.random c).run source s).outcome = .done p) ∧
      SameUnlessOverruled c source s (Program.traced c) (Program.random c)
        (Program.random { c with maxDepth })) ∧
    ∀ scope depth script e,
      ((Expr.random c scope depth).run Source.scripted script).outcome = .done e →
      ((Expr.random c scope depth).run Source.scripted script).state = [] →
      ∀ before call after,
        ((Expr.traced c scope depth).run Source.scripted script).record.toList =
          before ++ .noted (.inr call) :: after →
        c.maxDepth < call.depth →
        ∃ earlier i, before = earlier ++ [.answered c.leafOdds.toNat call.answer] ∧
          (earlier.filterMap Happening.answer?).length = i ∧ script[i]? = some call.answer ∧
            ∀ y < c.leafOdds.toNat,
              ((Expr.random c scope depth).run Source.scripted (script.set i y)).outcome = .done e ∧
                ((Expr.random c scope depth).run Source.scripted (script.set i y)).state = [] := by
  have hc : c.maxDepth < 0xFFFFFFFFFFFFFFFF := Std.lt_of_le_of_lt hle hmax
  have hsettled : c.SettledBy .lawful := Config.settledBy_lawful odds
  refine ⟨fun source lawful s => ⟨fun scope depth => ⟨?_, ?_⟩, fun scope => ⟨fun fresh => ?_, ?_⟩,
    fun range span => ?_, ?_⟩, ?_⟩
  · obtain ⟨e, he, -⟩ := (Expr.takes hsettled hc scope depth).outcome_run lawful.follows s
    exact ⟨e, he⟩
  · exact sameUnlessOverruled_of_inStep (Expr.filterNotes_run_tracedWithin c scope _ depth source s)
      (Expr.inStep_deeper hle hmax scope depth)
  · obtain ⟨a, ha, -⟩ := (Statement.takes hsettled hc fresh).outcome_run lawful.follows s
    exact ⟨a, ha⟩
  · exact sameUnlessOverruled_of_inStep (Statement.filterNotes_run_traced c scope source s)
      (Statement.inStep_deeper hle hmax scope)
  · obtain ⟨p, hp, -⟩ := (Program.takes hsettled hc range span).outcome_run lawful.follows s
    exact ⟨p, hp⟩
  · exact sameUnlessOverruled_of_inStep (Program.filterNotes_run_traced c source s)
      (Program.inStep_deeper hle hmax)
  · intro scope depth script e hdone hused before call after hrecord hdeep
    have htells : (Expr.traced c scope depth).TellsCalls c :=
      Draw.tellsCalls_tracedWithin c scope (Expr.levels c) depth
    -- the run that notes its calls comes to the same result and leaves the same script
    have herased (script : List Nat) :
        ((Expr.traced c scope depth).run Source.scripted script).filterNotes Sum.getLeft? =
          (Expr.random c scope depth).run Source.scripted script :=
      Expr.filterNotes_run_tracedWithin c scope _ depth Source.scripted script
    simp only [← herased] at hdone hused ⊢
    exact htells.run_scripted_set hdone hused hrecord hdeep

/-- With the least answers all expressions are single values, of their own accord, and no depth
makes a difference. In the sum of seven and eight that a script leads to with one level of operands,
the seven is a single value although the answer was two; so it might have been nought. -/
theorem depth_acts_by_overruling_sum :
    (Program.random { maxDepth := 10, statements := some 3 }).run Source.first () =
        (Program.random { maxDepth := 0, statements := some 3 }).run Source.first () ∧
      ((Expr.random { maxDepth := 1 } {} 1).run Source.scripted
        [1, 0, 0, 7, 1, 0, 8, 1, 1]).outcome =
          .done (.binary .add (.value (.literal 7) false) (.value (.literal 8) false) false) := by
  obtain ⟨hsources, -⟩ := @depth_acts_by_overruling { maxDepth := 0, statements := some 3 } 10
    (by decide) (by decide) (by rintro (_ | _ | _) <;> decide)
  obtain ⟨-, -, -, hprogram⟩ := hsources Source.first Source.first_lawful ()
  obtain ⟨-, hscripts⟩ := @depth_acts_by_overruling { maxDepth := 1 } 10 (by decide) (by decide)
    (by rintro (_ | _ | _) <;> decide)
  refine ⟨hprogram.same (by decide +kernel), ?_⟩
  obtain ⟨earlier, i, hearlier, rfl, -, hother⟩ :=
    hscripts {} 1 [1, 0, 2, 7, 1, 0, 8, 1, 1] _ rfl rfl
      [.answered 3 1, .noted (.inr ⟨1, 1⟩), .answered 3 0, .answered 3 2] ⟨2, 2⟩ _ rfl (by decide)
  obtain rfl : earlier = [.answered 3 1, .noted (.inr ⟨1, 1⟩), .answered 3 0] := by
    simpa using (List.append_inj' hearlier rfl).1.symm
  exact (hother 0 (by decide)).1

end RandomInstant
