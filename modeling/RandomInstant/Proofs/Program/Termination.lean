import RandomInstant.Proofs.Program.Totality
import RandomInstant.Proofs.Program.Traced

/-!
# When the drawing of an expression ends

The depth of an expression is counted in words, and a word has a greatest value. Below it the count
reaches the values beyond the greatest depth, and every expression ends. At it no depth is too deep,
the count wraps, and nothing but the answers ends an expression.

A run is said to end if some allowance of levels suffices for it (`Expr.Ends`); it is then the same
with every greater allowance (`Expr.run_randomWithin_of_le`). What is said of nested calls is said
of the same decision told with a note of each of them (`Expr.tracedWithin`), and each node of what
is drawn has left one.

* `Expr.faultless_randomWithin`, `Expr.takes_randomWithin_one`: expressions that come to a result.
* `Expr.ensures_unfinished`: at the greatest word, the greatest answers exceed every allowance.
* `Expr.map_depth_calls`, `Expr.notesAll_tracedWithin`: nested calls are made at the depths of the
  nodes, and below the greatest word these do not wrap.
* **`expression_ends_iff`**: the condition under which every run ends.
-/

namespace RandomInstant

open Draw (Course InStep course_bind_done_iff)

variable {c : Config} {scope : Scope} {depth : UInt64} {levels : Nat} {H : Conduct} {σ : Type}

namespace Expr

/-! ## Allowances -/

/-- A larger allowance of levels only goes on where a smaller one has run out. So a run that ends
does not depend on its allowance. -/
theorem run_randomWithin_of_le {m n : Nat} (h : m ≤ n) {source : Source σ} {s : σ}
    (hends : ((randomWithin c scope m depth).run source s).outcome ≠ .unfinished) :
    (randomWithin c scope n depth).run source s = (randomWithin c scope m depth).run source s := by
  obtain ⟨k, rfl⟩ := Nat.exists_eq_add_of_le h
  have hstep : (randomWithin c scope m depth).InStep some { unfinished := True } Eq
      (randomWithin c scope (m + k) depth) :=
    related_add_same (InStep.covers some _ c) (inStep_single .remarks some c _)
      fun depth => .free trivial _
  have hrun := (hstep.run source s (fun _ _ => id) fun _ => hends).eq_filterNotes
  rw [hrun, Run.filterNotes_some]

/-- Drawing an expression ends if an allowance of levels suffices for it. -/
def Ends (c : Config) (scope : Scope) (depth : UInt64) (source : Source σ) (s : σ) : Prop :=
  ∃ levels, ((randomWithin c scope levels depth).run source s).outcome ≠ .unfinished

/-- What is taken with some allowance of levels ends. -/
lemma Ends.of_takes {R : Expr → Prop} (h : (randomWithin c scope levels depth).Takes H R)
    {source : Source σ} (hs : source.Follows H) (s : σ) : Ends c scope depth source s := by
  obtain ⟨e, he, -⟩ := h.outcome_run hs s
  exact ⟨levels, fun hends => nomatch he.symm.trans hends⟩

/-- An expression is drawn or runs out of its allowance, but does not fail. -/
lemma faultless_randomWithin (h : c.SettledBy H) (scope : Scope) (levels : Nat) (depth : UInt64) :
    (randomWithin c scope levels depth).Faultless H := by
  have hcovers := h.covers.mono (q := Draw.Faultless.property H Remark) Draw.Takes.faultless
  have hrest : (.unfinished : Draw Remark Expr).Faultless H := Draw.faultless_unfinished
  exact hcovers.toldWithin (fun depth => (h.takes_single _ depth).faultless) hrest

/-- Within an allowance that does not run out there is a result. -/
lemma exists_outcome_eq_done (h : c.SettledBy H) {source : Source σ} (hs : source.Follows H)
    {s : σ} (hends : ((randomWithin c scope levels depth).run source s).outcome ≠ .unfinished) :
    ∃ e, ((randomWithin c scope levels depth).run source s).outcome = .done e := by
  have hfaultless := (faultless_randomWithin h scope levels depth).outcome_run hs s
  rcases ho : ((randomWithin c scope levels depth).run source s).outcome with e | f | _
  · exact ⟨e, rfl⟩
  · exact absurd ho (hfaultless f)
  · exact absurd ho hends

/-- Where every expression is a single value, one level is enough. -/
lemma takes_randomWithin_one (h : c.SettledBy H) (leaf : c.leafOdds = 1) (scope : Scope)
    (depth : UInt64) : (randomWithin c scope 1 depth).Takes H fun _ => True := by
  rw [randomWithin, toldWithin_succ, single_bind]
  refine Draw.takes_ask (h.odds .leaf) fun x hx => ?_
  obtain rfl : x = 0 := by
    rw [leaf] at hx
    exact Nat.lt_one_iff.mp hx
  exact (Draw.takes_tell _).bind fun _ _ => h.covers.proceed nofun

/-- No depth exceeds the greatest word. -/
lemma not_maxDepth_lt (hc : c.maxDepth = 0xFFFFFFFFFFFFFFFF) (depth : UInt64) :
    ¬ c.maxDepth < depth := by
  have hdepth := depth.toNat_lt
  have hmax : c.maxDepth.toNat = 18446744073709551615 := congrArg UInt64.toNat hc
  rw [UInt64.lt_iff_toNat_lt]
  omega

/-- At the greatest word no depth is too deep, and with the greatest answers no expression is a
single value. -/
lemma ensures_unfinished (hc : c.maxDepth = 0xFFFFFFFFFFFFFFFF) (leaf : 2 ≤ c.leafOdds)
    (scope : Scope) (levels : Nat) (depth : UInt64) :
    (randomWithin c scope levels depth).Ensures .greatest (· = .unfinished) := by
  have hleaf : 2 ≤ c.leafOdds.toNat := UInt64.le_iff_toNat_le.mp leaf
  induction levels generalizing depth with
  | zero => rfl
  | succ levels ih =>
      have hanswer : c.leafOdds.toNat - 1 ≠ 0 := by omega
      have hdeep : ¬ c.maxDepth < depth := not_maxDepth_lt hc depth
      have hsingle : (c.leafOdds.toNat - 1 == 0 || decide (c.maxDepth < depth)) = false := by
        simp [hanswer, hdeep]
      rw [randomWithin, toldWithin_succ, single_bind]
      apply Draw.ensures_ask_of_greatest (Nat.lt_of_lt_of_le Nat.two_pos hleaf)
      show (proceed c scope (randomWithin c scope levels (depth + 1)) _).Ensures .greatest _
      rw [hsingle]
      have hpick : (Draw.pick Operator.all : Draw Remark Operator).Takes .greatest fun _ => True :=
        Draw.takes_pick (Conduct.greatest_settles (by decide))
      refine Draw.Ensures.bind hpick (fun o _ => ?_) ?_ ?_
      · -- the first operand does not end, and nothing after it is reached
        exact (ih (depth + 1)).bind nofun nofun fun _ => rfl
      · rintro f ⟨o, ho, -⟩
        cases ho
      · rintro ⟨o, ho, -⟩
        cases ho

/-! ## The calls of a run -/

/-- The call that was noted, if the happening is such a note. -/
def call? : Happening (Remark ⊕ Call) → Option Call
  | .noted (.inr call) => some call
  | _ => none

/-- The calls among what happens, in order. -/
def calls (r : List (Happening (Remark ⊕ Call))) : List Call := r.filterMap call?

/-- Where nothing happens no call is made. -/
@[simp]
lemma calls_nil : calls [] = [] := rfl

/-- An answer is no call. -/
@[simp]
lemma calls_answered (bound x : Nat) (r : List (Happening (Remark ⊕ Call))) :
    calls (.answered bound x :: r) = calls r := rfl

/-- The note of a call is one. -/
@[simp]
lemma calls_noted_call (call : Call) (r : List (Happening (Remark ⊕ Call))) :
    calls (.noted (.inr call) :: r) = call :: calls r := rfl

/-- Calls come in the order in which they are noted. -/
@[simp]
lemma calls_append (r r' : List (Happening (Remark ⊕ Call))) :
    calls (r ++ r') = calls r ++ calls r' := List.filterMap_append

/-- A call is made if it is noted. -/
lemma mem_calls_iff {call : Call} {r : List (Happening (Remark ⊕ Call))} :
    call ∈ calls r ↔ .noted (.inr call) ∈ r := by
  unfold calls
  rw [List.mem_filterMap]
  constructor
  · rintro ⟨e, he, hcall⟩
    unfold call? at hcall
    split at hcall
    · cases hcall
      exact he
    · cases hcall
  · exact fun h => ⟨_, h, rfl⟩

/-- No call is noted while a value is drawn. -/
lemma calls_of_value {r : List (Happening (Remark ⊕ Call))} {o : Outcome Value}
    (h : Course (Value.random c scope) r o) : calls r = [] := by
  rw [List.eq_nil_iff_forall_not_mem]
  exact fun call hcall => (Value.silent c scope).of_course h (mem_calls_iff.mp hcall)

/-- The depths at which the nodes of an expression are drawn, each before its operands. -/
def depths (depth : UInt64) : Expr → List UInt64
  | value _ _ => [depth]
  | binary _ left right _ => depth :: (left.depths (depth + 1) ++ right.depths (depth + 1))

/-- **There is a call for each node**, at the depth of the node. -/
theorem map_depth_calls {r : List (Happening (Remark ⊕ Call))} {e : Expr}
    (h : Course (tracedWithin c scope levels depth) r (.done e)) :
    (calls r).map Call.depth = e.depths depth := by
  induction levels generalizing depth r e with
  | zero => exact absurd h Draw.not_course_unfinished_done
  | succ levels ih =>
      obtain ⟨isSingle, r₁, r₂, rfl, hsingle, hrest⟩ := course_bind_done_iff.mp h
      obtain ⟨x, rfl, -⟩ := course_single_done_iff.mp hsingle
      cases isSingle with
      | true =>
          obtain ⟨v, r₃, y, hv, rfl, rfl⟩ := course_proceed_true_iff.mp hrest
          simp [Telling.calls, calls_of_value hv, depths]
      | false =>
          obtain ⟨i, hi, left, r₃, right, r₄, y, hl, hr, rfl, rfl⟩ :=
            course_proceed_false_iff.mp hrest
          simp [Telling.calls, ih hl, ih hr, depths]

/-! ## The depths of calls -/

/-- Whether a call makes further calls, one level deeper, for operands of its own. -/
def Call.GoesDeeper (c : Config) (call : Call) : Prop :=
  ¬ (call.answer = 0 ∨ c.maxDepth < call.depth)

/-- A call that comes of an expression at a depth is not too deep for a word. -/
structure Call.Sound (c : Config) (start : UInt64) (call : Call) : Prop where
  /-- Its depth exceeds the greatest depth by one at most, unless the start is deeper. -/
  depth_le : call.depth.toNat ≤ max start.toNat (c.maxDepth.toNat + 1)
  /-- If it makes further calls their depth does not wrap. -/
  succ_eq : call.GoesDeeper c → (call.depth + 1).toNat = call.depth.toNat + 1

/-- A call that is sound for an operand is sound for the operation. -/
lemma Call.Sound.of_operand (hc : c.maxDepth < 0xFFFFFFFFFFFFFFFF) (hd : ¬ c.maxDepth < depth)
    {call : Call} (h : call.Sound c (depth + 1)) : call.Sound c depth := by
  have hle : depth.toNat ≤ c.maxDepth.toNat := UInt64.le_iff_toNat_le.mp (UInt64.not_lt.mp hd)
  have hdepth := h.depth_le
  rw [toNat_depth_succ hc hd] at hdepth
  refine ⟨?_, h.succ_eq⟩
  omega

/-- **Depths do not wrap** below the greatest word. -/
theorem notesAll_tracedWithin (hc : c.maxDepth < 0xFFFFFFFFFFFFFFFF) (scope : Scope)
    (levels : Nat) (depth : UInt64) : (tracedWithin c scope levels depth).NotesAll
      fun e => ∀ call, e = .inr call → call.Sound c depth := by
  induction levels generalizing depth with
  | zero => trivial
  | succ levels ih =>
      refine (Draw.NotesAll.covers _ c).toldWithin_succ (fun x => ?_) fun hd => ?_
      · refine (Draw.notesAll_tell ?_).bind fun _ _ _ => trivial
        rintro _ ⟨⟩ call ⟨⟩
        exact ⟨Nat.le_max_left _ _, fun hdeeper => toNat_depth_succ hc (not_or.mp hdeeper).2⟩
      · -- what is sound for an operand is sound for the operation
        exact (ih (depth + 1)).mono fun e he call heq => (he call heq).of_operand hc hd

end Expr

/-- Whether a configuration is valid does not depend on its greatest depth. -/
lemma Config.validate_withMaxDepth (c : Config) (maxDepth : UInt64) :
    { c with maxDepth }.validate = c.validate := rfl

/-- **When every expression ends.** With positive odds, the expressions of all lawful sources end
exactly if the greatest depth is below the greatest word or every expression is a single value.
A run that ends has a result and does not depend on its allowance. Its calls are those of the nodes
of the result. Below the greatest word none of their depths wraps, and they go one level beyond the
greatest depth at most. At the greatest word no depth is too deep, and the source of greatest
numbers exceeds every allowance. Either way the configuration is as valid as with any other greatest
depth. -/
theorem expression_ends_iff {c : Config} (odds : ∀ choice, 0 < c.odds choice) :
    ((∀ {σ : Type} (source : Source σ), source.Lawful → ∀ s scope depth,
        Expr.Ends c scope depth source s) ↔
      c.maxDepth < 0xFFFFFFFFFFFFFFFF ∨ c.leafOdds = 1) ∧
    (∀ {σ : Type} (source : Source σ), source.Lawful → ∀ s scope depth levels,
      ((Expr.randomWithin c scope levels depth).run source s).outcome ≠ .unfinished →
        (∃ e, ((Expr.randomWithin c scope levels depth).run source s).outcome = .done e) ∧
        ∀ more, levels ≤ more → (Expr.randomWithin c scope more depth).run source s =
          (Expr.randomWithin c scope levels depth).run source s) ∧
    (∀ {σ : Type} (source : Source σ) s scope depth levels,
      let traced := (Expr.tracedWithin c scope levels depth).run source s
      traced.filterNotes Sum.getLeft? = (Expr.randomWithin c scope levels depth).run source s ∧
      (∀ e, traced.outcome = .done e →
        (Expr.calls traced.record.toList).map Expr.Call.depth = e.depths depth) ∧
      (c.maxDepth < 0xFFFFFFFFFFFFFFFF →
        ∀ call ∈ Expr.calls traced.record.toList, call.Sound c depth)) ∧
    (c.maxDepth = 0xFFFFFFFFFFFFFFFF → (∀ depth, ¬ c.maxDepth < depth) ∧
      (2 ≤ c.leafOdds → ∀ scope depth levels,
        ((Expr.randomWithin c scope levels depth).run .last ()).outcome = .unfinished)) ∧
    ∀ maxDepth, { c with maxDepth }.validate = c.validate := by
  have hsettled : c.SettledBy .lawful := Config.settledBy_lawful odds
  have hgreatest (hc : c.maxDepth = 0xFFFFFFFFFFFFFFFF) (leaf : 2 ≤ c.leafOdds) (scope : Scope)
      (depth : UInt64) (levels : Nat) :
      ((Expr.randomWithin c scope levels depth).run .last ()).outcome = .unfinished :=
    (Expr.ensures_unfinished hc leaf scope levels depth).outcome_run Source.last_follows ()
  refine ⟨⟨fun h => ?_, ?_⟩, ?_, ?_, ?_, c.validate_withMaxDepth⟩
  · by_cases hc : c.maxDepth < 0xFFFFFFFFFFFFFFFF
    · exact .inl hc
    by_cases leaf : c.leafOdds = 1
    · exact .inr leaf
    have hmax : c.maxDepth = 0xFFFFFFFFFFFFFFFF := by grind
    have hleaf : 2 ≤ c.leafOdds := by grind [odds .leaf, Config.odds]
    obtain ⟨levels, hends⟩ := h .last Source.last_lawful () {} 1
    exact absurd (hgreatest hmax hleaf {} 1 levels) hends
  · rintro (hc | leaf) σ source hs s scope depth
    · exact .of_takes (Expr.takes hsettled hc scope depth) hs.follows s
    · exact .of_takes (Expr.takes_randomWithin_one hsettled leaf scope depth) hs.follows s
  · exact fun source hs s scope depth levels hends =>
      ⟨Expr.exists_outcome_eq_done hsettled hs.follows hends,
        fun more h => Expr.run_randomWithin_of_le h hends⟩
  · intro σ source s scope depth levels traced
    have hcourse : Course (Expr.tracedWithin c scope levels depth) traced.record.toList
      traced.outcome := Draw.course_run source _ s
    refine ⟨Expr.filterNotes_run_tracedWithin c scope levels depth source s, fun e he => ?_,
      fun hc call hcall => ?_⟩
    · exact Expr.map_depth_calls (he ▸ hcourse)
    · exact (Expr.notesAll_tracedWithin hc scope levels depth).of_course hcourse
        (Expr.mem_calls_iff.mp hcall) call rfl
  · exact fun hc => ⟨Expr.not_maxDepth_lt hc, hgreatest hc⟩

/-- With no depth too deep, the default odds let an expression grow beyond every allowance, and such
a configuration is valid. -/
theorem expression_ends_iff_of_greatest :
    ({ maxDepth := 0xFFFFFFFFFFFFFFFF } : Config).validate = .ok () ∧
      ¬ ∀ {σ : Type} (source : Source σ), source.Lawful → ∀ s scope depth,
        Expr.Ends { maxDepth := 0xFFFFFFFFFFFFFFFF } scope depth source s := by
  obtain ⟨hiff, -, -, -, hvalidate⟩ := expression_ends_iff
    (c := { maxDepth := 0xFFFFFFFFFFFFFFFF }) (by rintro (_ | _ | _) <;> decide)
  refine ⟨(hvalidate 10).symm.trans rfl, fun h => ?_⟩
  exact absurd (hiff.mp h) (by decide)

end RandomInstant
