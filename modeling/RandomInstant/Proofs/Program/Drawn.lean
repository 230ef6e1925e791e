import RandomInstant.Program.Random
import RandomInstant.Proofs.Choice.Course

/-!
# What is drawn, and by which answers

For each decision of `Program.Random` a relation says which results it can come to and what
happens on the way: the questions with their answers, and the notes. The relations have one
constructor for each way through the decision and follow the shape of the result, where the
decisions follow the order of their questions. Nothing is assumed about the answers.

Main statements: the relations are exactly the courses that come to a result,
`Value.course_random_iff`, `Expr.course_random_iff` (below the greatest depth),
`Statement.course_random_iff`, `Program.course_extend_iff` and `Program.course_random_iff`. What
is said elsewhere about values, expressions, statements and programs that were drawn is shown by
induction on these relations.
-/

namespace RandomInstant

open Draw (Course course_ask_done_iff course_bind_done_iff course_done_iff course_oneIn_done_iff
  course_pick_done_iff course_remark_bind_iff course_tell_done_iff not_course_fault_done)

variable {c : Config} {scope : Scope}

/-! ## Values -/

namespace Value

/-- The values that can be drawn in a scope. -/
inductive Drawn (c : Config) (scope : Scope) : List (Happening Remark) → Value → Prop where
  /-- A literal, where nothing is declared. -/
  | onlyLiteral (empty : scope.size = 0) (x : Nat) :
      Drawn c scope [.answered (c.maxLiteral.toNat + 1) x] (.literal x.toUInt64.toUInt32)
  /-- A literal, where something is declared. -/
  | literal (nonempty : scope.size ≠ 0) {y : Nat} (hy : y ≠ 0) (x : Nat) :
      Drawn c scope [.answered 2 y, .answered (c.maxLiteral.toNat + 1) x]
        (.literal x.toUInt64.toUInt32)
  /-- A reference. -/
  | variable {i : Nat} (hi : i < scope.names.size) :
      Drawn c scope [.answered 2 0, .answered scope.size i] (.variable scope.names[i])

/-- **The courses of values.** -/
theorem course_random_iff {r : List (Happening Remark)} {v : Value} :
    Course (random c scope) r (.done v) ↔ Drawn c scope r v := by
  by_cases hs : scope.size = 0
  · rw [random_of_size_eq_zero c hs, randomLiteral_def]
    constructor
    · intro h
      obtain ⟨x, r₁, rfl, h₁⟩ := course_ask_done_iff.mp h
      obtain ⟨rfl, rfl⟩ := course_done_iff.mp h₁
      exact .onlyLiteral hs x
    · intro h
      cases h with
      | onlyLiteral _ x => exact .answered x (.done _)
      | literal hne _ _ => exact absurd hs hne
      | «variable» hi => exact absurd hs (Nat.ne_of_gt (Nat.zero_lt_of_lt hi))
  · rw [random_of_size_ne_zero c hs, randomLiteral_def, randomReference_of_size_ne_zero hs]
    constructor
    · intro h
      obtain ⟨y, r₁, rfl, h₁⟩ := course_ask_done_iff.mp h
      by_cases hy : y = 0
      · rw [if_pos (by simpa using hy)] at h₁
        obtain ⟨i, r₂, rfl, h₂⟩ := course_ask_done_iff.mp h₁
        by_cases hi : i < scope.names.size
        · rw [dif_pos hi] at h₂
          obtain ⟨rfl, rfl⟩ := course_done_iff.mp h₂
          exact hy ▸ .variable hi
        · rw [dif_neg hi] at h₂
          exact absurd h₂ not_course_fault_done
      · rw [if_neg (by simpa using hy)] at h₁
        obtain ⟨x, r₂, rfl, h₂⟩ := course_ask_done_iff.mp h₁
        obtain ⟨rfl, rfl⟩ := course_done_iff.mp h₂
        exact .literal hs hy x
    · intro h
      cases h with
      | onlyLiteral he _ => exact absurd he hs
      | literal _ hy x =>
          refine .answered _ ?_
          rw [if_neg (by simpa using hy)]
          exact .answered x (.done _)
      | «variable» hi =>
          refine .answered 0 (.answered _ ?_)
          rw [dif_pos hi]
          exact .done _

end Value

/-! ## Expressions -/

namespace Expr

/-- The expressions that can be drawn at a depth in a scope. -/
inductive Drawn (c : Config) (scope : Scope) :
    UInt64 → List (Happening Remark) → Expr → Prop where
  /-- A value, because it was asked for or because the depth leaves no choice. -/
  | value {depth : UInt64} {r : List (Happening Remark)} {v : Value} {x : Nat}
      (hx : x = 0 ∨ c.maxDepth < depth) (hv : v.Drawn c scope r) (y : Nat) :
      Drawn c scope depth
        (.answered c.leafOdds.toNat x :: (r ++ [.answered c.parenOdds.toNat y]))
        (.value v (y == 0))
  /-- An operator between two operands that are drawn one level deeper. -/
  | binary {depth : UInt64} {r₁ r₂ : List (Happening Remark)} {left right : Expr} {x i : Nat}
      (hx : x ≠ 0) (hd : ¬ c.maxDepth < depth) (hi : i < Operator.all.size)
      (hl : Drawn c scope (depth + 1) r₁ left) (hr : Drawn c scope (depth + 1) r₂ right) (y : Nat) :
      Drawn c scope depth
        (.answered c.leafOdds.toNat x :: .answered Operator.all.size i ::
          (r₁ ++ (r₂ ++ [.answered c.parenOdds.toNat y])))
        (.binary Operator.all[i] left right (y == 0))

section

variable {ε : Type} {t : Telling ε} {depth : UInt64} {operand : Draw ε Expr}
  {r : List (Happening ε)} {e : Expr}

/-- One answer decides whether an expression is a single value, and the call is told. -/
lemma course_single_done_iff {isSingle : Bool} :
    Course (single t c depth) r (.done isSingle) ↔ ∃ x,
      r = .answered c.leafOdds.toNat x :: (t.call ⟨depth, x⟩).toList.map .noted ∧
        (isSingle ↔ x = 0 ∨ c.maxDepth < depth) := by
  rw [single, Draw.number_bind, course_ask_done_iff]
  constructor
  · rintro ⟨x, r', rfl, h⟩
    obtain ⟨u, r₁, r₂, rfl, h₁, h₂⟩ := course_bind_done_iff.mp h
    obtain rfl := course_tell_done_iff.mp h₁
    obtain ⟨rfl, rfl⟩ := course_done_iff.mp h₂
    exact ⟨x, by rw [List.append_nil], by simp⟩
  · rintro ⟨x, rfl, hx⟩
    refine ⟨x, _, rfl, course_bind_done_iff.mpr ⟨(), _, [], (List.append_nil _).symm, ?_, ?_⟩⟩
    · exact course_tell_done_iff.mpr rfl
    · exact course_done_iff.mpr ⟨rfl, Bool.eq_iff_iff.mpr (by simpa using hx.symm)⟩

/-- What is left of a single value: the value and whether it stands in parentheses. -/
lemma course_proceed_true_iff :
    Course (proceed c scope operand true) r (.done e) ↔ ∃ v r' y,
      Course (Value.random c scope) r' (.done v) ∧
        r = r' ++ [.answered c.parenOdds.toNat y] ∧ e = .value v (y == 0) := by
  rw [proceed, if_pos rfl, course_bind_done_iff]
  constructor
  · rintro ⟨v, r₁, r₂, rfl, hv, h⟩
    obtain ⟨parens, r₃, r₄, rfl, hp, h₁⟩ := course_bind_done_iff.mp h
    obtain ⟨y, rfl, rfl⟩ := course_oneIn_done_iff.mp hp
    obtain ⟨rfl, rfl⟩ := course_done_iff.mp h₁
    exact ⟨v, r₁, y, hv, rfl, rfl⟩
  · rintro ⟨v, r', y, hv, rfl, rfl⟩
    exact ⟨v, r', _, rfl, hv, .answered y (.done _)⟩

/-- What is left of an operation: its operator, its operands and whether it is in parentheses. -/
lemma course_proceed_false_iff :
    Course (proceed c scope operand false) r (.done e) ↔
      ∃ i, ∃ hi : i < Operator.all.size, ∃ left r₁ right r₂ y,
        Course operand r₁ (.done left) ∧ Course operand r₂ (.done right) ∧
          r = .answered Operator.all.size i :: (r₁ ++ (r₂ ++ [.answered c.parenOdds.toNat y])) ∧
            e = .binary Operator.all[i] left right (y == 0) := by
  rw [proceed, if_neg Bool.false_ne_true, course_bind_done_iff]
  constructor
  · rintro ⟨o, r₁, r₂, rfl, ho, h⟩
    obtain ⟨i, hi, rfl, rfl⟩ := course_pick_done_iff.mp ho
    obtain ⟨left, r₃, r₄, rfl, hl, h₁⟩ := course_bind_done_iff.mp h
    obtain ⟨right, r₅, r₆, rfl, hr, h₂⟩ := course_bind_done_iff.mp h₁
    obtain ⟨parens, r₇, r₈, rfl, hp, h₃⟩ := course_bind_done_iff.mp h₂
    obtain ⟨y, rfl, rfl⟩ := course_oneIn_done_iff.mp hp
    obtain ⟨rfl, rfl⟩ := course_done_iff.mp h₃
    exact ⟨i, hi, left, r₃, right, r₅, y, hl, hr, rfl, rfl⟩
  · rintro ⟨i, hi, left, r₁, right, r₂, y, hl, hr, rfl, rfl⟩
    exact ⟨Operator.all[i], [.answered Operator.all.size i], _, rfl,
      course_pick_done_iff.mpr ⟨i, hi, rfl, rfl⟩, course_bind_done_iff.mpr
      ⟨left, r₁, _, rfl, hl, course_bind_done_iff.mpr
      ⟨right, r₂, _, rfl, hr, .answered y (.done _)⟩⟩⟩

end

/-- What is drawn within any allowance of levels can be drawn. -/
lemma drawn_of_course_randomWithin {levels : Nat} {depth : UInt64} {r : List (Happening Remark)}
    {e : Expr} (h : Course (randomWithin c scope levels depth) r (.done e)) :
    Drawn c scope depth r e := by
  induction levels generalizing depth r e with
  | zero => exact absurd h Draw.not_course_unfinished_done
  | succ levels ih =>
      obtain ⟨isSingle, r₁, r₂, rfl, hsingle, hrest⟩ := course_bind_done_iff.mp h
      obtain ⟨x, rfl, hx⟩ := course_single_done_iff.mp hsingle
      cases isSingle with
      | true =>
          obtain ⟨v, r', y, hv, rfl, rfl⟩ := course_proceed_true_iff.mp hrest
          exact .value (hx.mp rfl) (Value.course_random_iff.mp hv) y
      | false =>
          obtain ⟨i, hi, left, r₃, right, r₄, y, hl, hr, rfl, rfl⟩ :=
            course_proceed_false_iff.mp hrest
          obtain ⟨hx, hd⟩ := not_or.mp (mt hx.mpr Bool.false_ne_true)
          exact .binary hx hd hi (ih hl) (ih hr) y

/-- What can be drawn is drawn within every sufficient allowance of levels. -/
lemma Drawn.course_randomWithin (hc : c.maxDepth < 0xFFFFFFFFFFFFFFFF) {depth : UInt64}
    {r : List (Happening Remark)} {e : Expr} (h : Drawn c scope depth r e) {levels : Nat}
    (hlevels : height c depth ≤ levels) :
    Course (randomWithin c scope levels depth) r (.done e) := by
  induction h generalizing levels with
  | @value depth r v x hx hv y =>
      obtain _ | levels := levels
      · simp [height] at hlevels
      · refine course_bind_done_iff.mpr ⟨true, _, _, rfl,
          course_single_done_iff.mpr ⟨x, rfl, by simpa using hx⟩, ?_⟩
        exact course_proceed_true_iff.mpr ⟨v, r, y, Value.course_random_iff.mpr hv, rfl, rfl⟩
  | @binary depth r₁ r₂ left right x i hx hd hi hl hr y ihl ihr =>
      obtain _ | levels := levels
      · simp [height] at hlevels
      · have hheight := height_succ hc hd
        refine course_bind_done_iff.mpr ⟨false, _, _, rfl,
          course_single_done_iff.mpr ⟨x, rfl, by simp [hx, hd]⟩, ?_⟩
        exact course_proceed_false_iff.mpr
          ⟨i, hi, left, r₁, right, r₂, y, ihl (by omega), ihr (by omega), rfl, rfl⟩

/-- **The courses of expressions.** -/
theorem course_random_iff (hc : c.maxDepth < 0xFFFFFFFFFFFFFFFF) {depth : UInt64}
    {r : List (Happening Remark)} {e : Expr} :
    Course (random c scope depth) r (.done e) ↔ Drawn c scope depth r e :=
  ⟨drawn_of_course_randomWithin, fun h => h.course_randomWithin hc (height_le_levels c depth)⟩

end Expr

/-! ## Statements -/

namespace Statement

/-- The statements that can be drawn in a scope, each with the scope after it. -/
inductive Drawn (c : Config) (scope : Scope) :
    List (Happening Remark) → Statement → Scope → Prop where
  /-- An expression, which leaves the scope as it is. -/
  | expression {x : Nat} (hx : x ≠ 0) {r : List (Happening Remark)} {e : Expr}
      (he : e.Drawn c scope 1 r) :
      Drawn c scope (.answered c.assignOdds.toNat x :: r) (.expression e) scope
  /-- An assignment to a fresh name, which is declared after all others. -/
  | assignment {r : List (Happening Remark)} {e : Expr} (he : e.Drawn c scope 1 r)
      (fresh : scope.freshName c.stem ∉ scope.names) :
      Drawn c scope
        (.answered c.assignOdds.toNat 0 :: (r ++ [.noted (.declared (scope.freshName c.stem))]))
        (.assignment (scope.freshName c.stem) e) ⟨scope.names.push (scope.freshName c.stem)⟩

/-- **The courses of statements.** -/
theorem course_random_iff (hc : c.maxDepth < 0xFFFFFFFFFFFFFFFF) {r : List (Happening Remark)}
    {s : Statement} {scope' : Scope} :
    Course (random c scope) r (.done (s, scope')) ↔ Drawn c scope r s scope' := by
  rw [random_def, Draw.oneIn_bind, course_ask_done_iff]
  constructor
  · rintro ⟨x, r₁, rfl, h⟩
    by_cases hx : x = 0
    · rw [if_pos (by simpa using hx)] at h
      obtain ⟨e, r₂, r₃, rfl, he, h₁⟩ := course_bind_done_iff.mp h
      obtain ⟨r₄, rfl, h₂⟩ := course_remark_bind_iff.mp h₁
      split at h₂
      · next scope'' hdeclare =>
          obtain ⟨hfresh, hnames⟩ := Scope.declare?_eq_some_iff.mp hdeclare
          obtain ⟨rfl, hs⟩ := course_done_iff.mp h₂
          obtain ⟨rfl, rfl⟩ := Prod.mk.inj hs
          obtain rfl : scope'' = ⟨scope.names.push (scope.freshName c.stem)⟩ :=
            congrArg Scope.mk hnames
          exact hx ▸ .assignment ((Expr.course_random_iff hc).mp he) hfresh
      · exact absurd h₂ not_course_fault_done
    · rw [if_neg (by simpa using hx)] at h
      obtain ⟨e, r₂, r₃, rfl, he, h₁⟩ := course_bind_done_iff.mp h
      obtain ⟨rfl, hs⟩ := course_done_iff.mp h₁
      obtain ⟨rfl, rfl⟩ := Prod.mk.inj hs
      rw [List.append_nil]
      exact .expression hx ((Expr.course_random_iff hc).mp he)
  · intro h
    cases h with
    | @expression x hx r e he =>
        refine ⟨x, r, rfl, ?_⟩
        rw [if_neg (by simpa using hx)]
        exact course_bind_done_iff.mpr
          ⟨e, r, [], by simp, (Expr.course_random_iff hc).mpr he, .done _⟩
    | @assignment r e he fresh =>
        have hdeclare := Scope.declare?_eq_some_iff
          (t := ⟨scope.names.push (scope.freshName c.stem)⟩).mpr ⟨fresh, rfl⟩
        refine ⟨0, _, rfl, course_bind_done_iff.mpr
          ⟨e, r, _, rfl, (Expr.course_random_iff hc).mpr he, ?_⟩⟩
        rw [hdeclare]
        exact .note (.done _)

/-- The statements that can be drawn one after the other, the first of them at a given place of
the program. Each is drawn in the scope that the one before it has left. -/
inductive Series (c : Config) :
    Nat → Scope → List (Happening Remark) → List Statement → Scope → Prop where
  /-- No statement. -/
  | nil (place : Nat) (scope : Scope) : Series c place scope [] [] scope
  /-- A statement, and those after it. -/
  | cons {place : Nat} {scope scope' scope'' : Scope} {r r' : List (Happening Remark)}
      {s : Statement} {ss : List Statement} (h : Drawn c scope r s scope')
      (rest : Series c (place + 1) scope' r' ss scope'') :
      Series c place scope (r ++ .noted (.drew place s) :: r') (s :: ss) scope''

end Statement

/-! ## Programs -/

namespace Program

open Statement (Series)

/-- **The courses of drafts**: a draft is extended by a series of statements. -/
theorem course_extend_iff (hc : c.maxDepth < 0xFFFFFFFFFFFFFFFF) {count : Nat}
    {r : List (Happening Remark)} {d d' : Draft} :
    Course (Draft.extend c count d) r (.done d') ↔
      ∃ ss scope', Series c d.statements.size d.scope r ss scope' ∧ ss.length = count ∧
        d' = ⟨d.statements ++ ss.toArray, scope'⟩ := by
  induction count generalizing r d with
  | zero =>
      constructor
      · intro h
        obtain ⟨rfl, rfl⟩ := course_done_iff.mp h
        exact ⟨[], d.scope, .nil _ _, rfl, by simp⟩
      · rintro ⟨ss, scope', h, hlength, rfl⟩
        obtain rfl := List.length_eq_zero_iff.mp hlength
        cases h
        exact course_done_iff.mpr ⟨rfl, by simp⟩
  | succ count ih =>
      rw [Draft.extend_succ, course_bind_done_iff]
      constructor
      · rintro ⟨⟨s, scope'⟩, r₁, r₂, rfl, hs, h₁⟩
        obtain ⟨r₃, rfl, h₂⟩ := course_remark_bind_iff.mp h₁
        obtain ⟨ss, scope'', hseries, hlength, rfl⟩ := ih.mp h₂
        refine ⟨s :: ss, scope'', ?_, by simp [hlength], by simp⟩
        exact .cons ((Statement.course_random_iff hc).mp hs) (by simpa using hseries)
      · rintro ⟨ss, scope', h, hlength, rfl⟩
        cases h with
        | nil => cases hlength
        | @cons _ _ scope₁ _ r r' s ss h rest =>
            refine ⟨(s, scope₁), r, _, rfl, (Statement.course_random_iff hc).mpr h, .note ?_⟩
            exact ih.mpr ⟨ss, scope', by simpa using rest, by simpa using hlength, by simp⟩

/-- The programs that can be drawn. -/
inductive Drawn (c : Config) : List (Happening Remark) → Program → Prop where
  /-- A count, and as many statements as it amounts to, the first of them in the empty scope. -/
  | intro (range : c.fewest ≤ c.most) (span : c.most - c.fewest ≠ 0xFFFFFFFFFFFFFFFF) {x : Nat}
      {drawn : UInt64} (hdrawn : drawn = c.fewest + x.toUInt64) {r : List (Happening Remark)}
      {ss : List Statement} {scope' : Scope} (series : Series c 0 {} r ss scope')
      (length : ss.length = (c.statementCount drawn).toNat) :
      Drawn c (.answered (c.most.toNat - c.fewest.toNat + 1) x ::
        .noted (.counted drawn (c.statementCount drawn)) :: r) ⟨ss⟩

/-- A drawn program is a series of statements that starts from nothing. -/
lemma Drawn.exists_series {r : List (Happening Remark)} {p : Program} (h : Drawn c r p) :
    ∃ r' scope', Series c 0 {} r' p.statements scope' ∧ r' ⊆ r := by
  cases h with
  | intro range span hdrawn series length =>
      exact ⟨_, _, series, fun e he => .tail _ (.tail _ he)⟩

/-- **The courses of programs.** -/
theorem course_random_iff (hc : c.maxDepth < 0xFFFFFFFFFFFFFFFF) {r : List (Happening Remark)}
    {p : Program} : Course (random c) r (.done p) ↔ Drawn c r p := by
  rw [random_def, course_bind_done_iff]
  constructor
  · rintro ⟨drawn, r₁, r₂, rfl, hdrawn, h₁⟩
    obtain ⟨r₃, rfl, h₂⟩ := course_remark_bind_iff.mp h₁
    obtain ⟨d, r₄, r₅, rfl, hd, h₃⟩ := course_bind_done_iff.mp h₂
    obtain ⟨rfl, rfl⟩ := course_done_iff.mp h₃
    obtain ⟨ss, scope', hseries, hlength, rfl⟩ := (course_extend_iff hc).mp hd
    by_cases hrange : c.most < c.fewest
    · rw [Draw.inRange_of_lt hrange] at hdrawn
      exact absurd hdrawn not_course_fault_done
    · by_cases hspan : c.most - c.fewest = 0xFFFFFFFFFFFFFFFF
      · rw [Draw.inRange, if_neg hrange, if_pos hspan] at hdrawn
        exact absurd hdrawn not_course_fault_done
      · have hrange := UInt64.not_lt.mp hrange
        rw [Draw.inRange_of_le hrange hspan] at hdrawn
        obtain ⟨x, r₆, rfl, hx⟩ := course_ask_done_iff.mp hdrawn
        obtain ⟨rfl, rfl⟩ := course_done_iff.mp hx
        rw [List.append_nil]
        simpa [Draft.program] using Drawn.intro hrange hspan rfl hseries hlength
  · intro h
    cases h with
    | @intro range span x _ hdrawn r ss scope' series length =>
        subst hdrawn
        have hd := (course_extend_iff hc (d := {})).mpr ⟨ss, scope', series, length, rfl⟩
        rw [Draw.inRange_of_le range span]
        refine ⟨_, [_], _, rfl, .answered x (.done _), course_remark_bind_iff.mpr ⟨r, rfl, ?_⟩⟩
        exact course_bind_done_iff.mpr
          ⟨_, r, [], (List.append_nil r).symm, hd, by simp [Draft.program]⟩

end Program

end RandomInstant
