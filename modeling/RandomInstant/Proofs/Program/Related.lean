import RandomInstant.Proofs.Choice.InStep
import RandomInstant.Proofs.Program.Drawn
import RandomInstant.Proofs.Program.Renaming

/-!
# What all decisions of a program keep

Values, expressions, statements and programs are made of a few ways to draw by sequencing. A
relation that sequencing keeps and that each of these ways has to itself (`Relator.Covers`)
therefore is one between whole programs. The two sides may be told in different ways, and their
configurations may differ in the stem, in the greatest depth and in the count of statements; their
names are renamings of each other.

The decisions are gone through here once, from the inside out, and everywhere else that is what is
cited.

* `Value.related`, `Expr.related_proceed`: values, and what is left of an expression once it is
  known whether it is a single value.
* `Expr.related_add`, `Expr.related_of_height`: expressions with a larger allowance of levels, or
  with two allowances that suffice.
* `Statement.related`, `Program.related`: statements, and programs under two stems.
* `Property.Covers.value`, `.proceed`, `.toldWithin`, `.statement` and `.program`: the same for
  properties of decisions.
* `Value.silent`, `Expr.silent`: values and expressions leave no remarks.
-/

namespace RandomInstant

open Draw (NotesAll Property Relator)
open Scope (numbered)

variable {ε ε' : Type} {rel : Relator ε ε'} {p : Property ε} {ρ : String → String} {c : Config}
  {t : Telling ε} {t' : Telling ε'} {scope : Scope} {stem : String} {depth maxDepth : UInt64}
  {statements : Option UInt64} {m n : Nat}

/-- A relation covers the ways in which a configuration has things drawn. -/
structure Draw.Relator.Covers (rel : Relator ε ε') (c : Config) : Prop where
  /-- The choice between a reference and a literal. -/
  half : rel.Holds Eq (oneIn 2) (oneIn 2)
  /-- The choices with odds. -/
  odds : ∀ choice, rel.Holds Eq (oneIn (c.odds choice)) (oneIn (c.odds choice))
  /-- The choice of a literal. -/
  literal : rel.Holds Eq (inRange 0 c.maxLiteral.toUInt64) (inRange 0 c.maxLiteral.toUInt64)
  /-- The choice of an element, and that of an element that is changed. -/
  pick : ∀ {α α' : Type} (g : α → α') (xs : Array α), 0 < xs.size →
    rel.Holds (fun a a' => a' = g a) (pick xs) (pick (xs.map g))

/-- Being in step covers them all. -/
lemma Draw.InStep.covers (f : ε → Option ε') (l : Draw.Leave ε) (c : Config) :
    (relator f l).Covers c where
  half := inStep_oneIn 2
  odds choice := inStep_oneIn (c.odds choice)
  literal := inStep_inRange 0 c.maxLiteral.toUInt64
  pick g xs _ := inStep_pick g xs

/-! ## Values -/

/-- **Values are related.** -/
theorem Value.related (h : rel.Covers c) (scope : Scope) :
    rel.Holds (fun v v' => v' = v.rename ρ) (random c scope)
      (random { c with stem, maxDepth, statements } (scope.rename ρ)) := by
  have hliteral : rel.Holds (fun v v' => v' = v.rename ρ) (randomLiteral c)
      (randomLiteral { c with stem, maxDepth, statements }) := by
    refine rel.bind h.literal ?_
    rintro n _ rfl
    exact rel.done rfl
  by_cases hs : scope.size = 0
  · have hs' : (scope.rename ρ).size = 0 := by rw [Scope.size_rename, hs]
    rw [random_of_size_eq_zero c hs, random_of_size_eq_zero _ hs']
    exact hliteral
  · have hs' : (scope.rename ρ).size ≠ 0 := by rwa [Scope.size_rename]
    rw [random, random, if_neg hs, if_neg hs']
    refine rel.bind h.half ?_
    rintro refers _ rfl
    split
    · rw [randomReference, randomReference, if_neg hs, if_neg hs']
      refine rel.bind (h.pick ρ scope.names (Nat.pos_of_ne_zero hs)) ?_
      rintro name _ rfl
      exact rel.done rfl
    · exact hliteral

/-! ## Expressions -/

namespace Expr

/-- **What is left of an expression** is related if its operands are, where it has any. -/
theorem related_proceed (h : rel.Covers c) {operand : Draw ε Expr} {operand' : Draw ε' Expr}
    {isSingle : Bool}
    (hoperand : isSingle = false → rel.Holds (fun e e' => e' = e.rename ρ) operand operand') :
    rel.Holds (fun e e' => e' = e.rename ρ) (proceed c scope operand isSingle)
      (proceed { c with stem, maxDepth, statements } (scope.rename ρ) operand' isSingle) := by
  have hparens := h.odds .parenthesization
  cases isSingle with
  | true =>
      refine rel.bind (Value.related h scope) ?_
      rintro v _ rfl
      refine rel.bind hparens ?_
      rintro parens _ rfl
      exact rel.done rfl
  | false =>
      have hpick := h.pick id Operator.all (by decide)
      rw [Array.map_id] at hpick
      refine rel.bind hpick ?_
      rintro o _ rfl
      refine rel.bind (hoperand rfl) ?_
      rintro left _ rfl
      refine rel.bind (hoperand rfl) ?_
      rintro right _ rfl
      refine rel.bind hparens ?_
      rintro parens _ rfl
      exact rel.done rfl

/-- One level of calls: expressions are related if the same is decided of both whether they are
single values, and their operands are related where they have any. -/
lemma related_succ (h : rel.Covers c)
    (hsingle : rel.Holds (fun s s' => s' = s ∧ (s = false →
        rel.Holds (fun e e' => e' = e.rename ρ) (toldWithin t c scope m (depth + 1))
          (toldWithin t' { c with stem, maxDepth, statements } (scope.rename ρ) n (depth + 1))))
      (single t c depth) (single t' { c with stem, maxDepth, statements } depth)) :
    rel.Holds (fun e e' => e' = e.rename ρ) (toldWithin t c scope (m + 1) depth)
      (toldWithin t' { c with stem, maxDepth, statements } (scope.rename ρ) (n + 1) depth) := by
  refine rel.bind hsingle ?_
  rintro isSingle _ ⟨rfl, hoperand⟩
  exact related_proceed h hoperand

/-- **Expressions are related** with an allowance and one that is larger by some levels, if it is
related to these levels where the first allowance has run out. -/
theorem related_add (h : rel.Covers c)
    (hsingle : ∀ depth, rel.Holds (fun s s' => s' = s) (single t c depth)
      (single t' { c with stem, maxDepth, statements } depth))
    (hrest : ∀ depth, rel.Holds (fun e e' => e' = e.rename ρ) (.unfinished : Draw ε Expr)
      (toldWithin t' { c with stem, maxDepth, statements } (scope.rename ρ) n depth)) :
    rel.Holds (fun e e' => e' = e.rename ρ) (toldWithin t c scope m depth)
      (toldWithin t' { c with stem, maxDepth, statements } (scope.rename ρ) (m + n) depth) := by
  induction m generalizing depth with
  | zero =>
      rw [Nat.zero_add]
      exact hrest depth
  | succ m ih =>
      rw [Nat.succ_add]
      exact related_succ h (rel.mono (hsingle depth) fun s s' hs => ⟨hs, fun _ => ih⟩)

/-- **Expressions are related** with every two allowances that suffice for the first of them, if
neither is too deep for operands where they have any. -/
theorem related_of_height (hc : c.maxDepth < 0xFFFFFFFFFFFFFFFF) (h : rel.Covers c)
    (hsingle : ∀ depth, rel.Holds (fun s s' => s' = s ∧ (s = false → ¬ c.maxDepth < depth))
      (single t c depth) (single t' { c with stem, maxDepth, statements } depth))
    (hm : height c depth ≤ m) (hn : height c depth ≤ n) :
    rel.Holds (fun e e' => e' = e.rename ρ) (toldWithin t c scope m depth)
      (toldWithin t' { c with stem, maxDepth, statements } (scope.rename ρ) n depth) := by
  induction m generalizing n depth with
  | zero => simp [height] at hm
  | succ m ih =>
      obtain _ | n := n
      · simp [height] at hn
      · refine related_succ h (rel.mono (hsingle depth) ?_)
        rintro isSingle _ ⟨rfl, hd⟩
        refine ⟨rfl, fun hnot => ?_⟩
        have hheight := height_succ hc (hd hnot)
        exact ih (by omega) (by omega)

/-- Nothing is renamed, and the second allowance is larger by some levels. -/
theorem related_add_same (h : rel.Covers c)
    (hsingle : ∀ depth, rel.Holds Eq (single t c depth)
      (single t' { c with maxDepth, statements } depth))
    (hrest : ∀ depth, rel.Holds Eq (.unfinished : Draw ε Expr)
      (toldWithin t' { c with maxDepth, statements } scope n depth)) :
    rel.Holds Eq (toldWithin t c scope m depth)
      (toldWithin t' { c with maxDepth, statements } scope (m + n) depth) := by
  have hadd : rel.Holds (fun e e' => e' = e.rename id) (toldWithin t c scope m depth)
      (toldWithin t' { c with maxDepth, statements } (scope.rename id) (m + n) depth) := by
    refine related_add h (fun depth => rel.mono (hsingle depth) fun s s' hs => hs.symm) ?_
    intro depth
    rw [Scope.rename_id]
    exact rel.mono (hrest depth) fun e e' he => by rw [rename_id, he]
  rw [Scope.rename_id] at hadd
  exact rel.mono hadd fun e e' he => by rw [he, rename_id]

/-- Nothing is renamed, and both allowances suffice. -/
theorem related_of_height_same (hc : c.maxDepth < 0xFFFFFFFFFFFFFFFF) (h : rel.Covers c)
    (hsingle : ∀ depth, rel.Holds (fun s s' => s' = s ∧ (s = false → ¬ c.maxDepth < depth))
      (single t c depth) (single t' { c with maxDepth, statements } depth))
    (hm : height c depth ≤ m) (hn : height c depth ≤ n) :
    rel.Holds Eq (toldWithin t c scope m depth)
      (toldWithin t' { c with maxDepth, statements } scope n depth) := by
  have hheight : rel.Holds (fun e e' => e' = e.rename id) (toldWithin t c scope m depth)
      (toldWithin t' { c with maxDepth, statements } (scope.rename id) n depth) :=
    related_of_height hc h hsingle hm hn
  rw [Scope.rename_id] at hheight
  exact rel.mono hheight fun e e' he => by rw [he, rename_id]

end Expr

/-! ## Statements -/

/-- A scope whose next name is renamed along with it. -/
structure Scope.Follows (ρ : String → String) (old new : String) (scope : Scope) : Prop where
  /-- The next name of the renamed scope is the next name of the scope, renamed. -/
  fresh : (scope.rename ρ).freshName new = ρ (scope.freshName old)
  /-- To declare it leads to a renamed scope as well, or it is declared in both. -/
  declare : (scope.rename ρ).declare? (ρ (scope.freshName old)) =
    (scope.declare? (scope.freshName old)).map (rename ρ)

/-- Where no name is changed every scope is such. -/
lemma Scope.follows_id (stem : String) (scope : Scope) : scope.Follows id stem stem where
  fresh := by rw [rename_id, id]
  declare := by
    have hid : rename id = id := funext rename_id
    rw [hid, Option.map_id, id, id]
    rfl

/-- Numbered scopes are such under every stem. -/
lemma Scope.follows_numbered (old new : String) (k : Nat) :
    (numbered old k).Follows (restem old new) old new where
  fresh := by simp [rename_numbered]
  declare := by simp [rename_numbered, declare?_numbered]

/-- **Statements are related**, each with the scope after it, if their expressions are. -/
theorem Statement.related (h : rel.Covers c)
    (hremark : ∀ e, rel.Holds (fun _ _ => True) (Draw.tell (t.remark e))
      (Draw.tell (t'.remark (e.rename ρ))))
    (hexpr : rel.Holds (fun e e' => e' = e.rename ρ) (Expr.told t c scope 1)
      (Expr.told t' { c with stem, maxDepth, statements } (scope.rename ρ) 1))
    (hscope : scope.Follows ρ c.stem stem)
    (hfault : scope.declare? (scope.freshName c.stem) = none → ∀ {α α' : Type} {R : α → α' → Prop},
      rel.Holds R (.fault .declaredTwice) (.fault .declaredTwice)) :
    rel.Holds (fun a a' => a' = (a.1.rename ρ, a.2.rename ρ) ∧
        (a.2 = scope ∨ scope.declare? (scope.freshName c.stem) = some a.2))
      (told t c scope) (told t' { c with stem, maxDepth, statements } (scope.rename ρ)) := by
  refine rel.bind (h.odds .assignment) ?_
  rintro assigns _ rfl
  cases assigns with
  | true =>
      refine rel.bind hexpr ?_
      rintro e _ rfl
      have hnote := hremark (.declared (scope.freshName c.stem))
      simp only [hscope.fresh, hscope.declare]
      refine rel.bind hnote fun _ _ _ => ?_
      cases hdeclare : scope.declare? (scope.freshName c.stem) with
      | some scope' => exact rel.done ⟨rfl, .inr rfl⟩
      | none => exact hfault hdeclare
  | false =>
      refine rel.bind hexpr ?_
      rintro e _ rfl
      exact rel.done ⟨rfl, .inl rfl⟩

/-- Nothing is renamed. -/
theorem Statement.related_same (h : rel.Covers c)
    (hremark : ∀ e, rel.Holds (fun _ _ => True) (Draw.tell (t.remark e))
      (Draw.tell (t'.remark e)))
    (hexpr : rel.Holds Eq (Expr.told t c scope 1)
      (Expr.told t' { c with maxDepth, statements } scope 1))
    (hfault : scope.declare? (scope.freshName c.stem) = none → ∀ {α α' : Type} {R : α → α' → Prop},
      rel.Holds R (.fault .declaredTwice) (.fault .declaredTwice)) :
    rel.Holds Eq (told t c scope) (told t' { c with maxDepth, statements } scope) := by
  have hremark' (e : Remark) : rel.Holds (fun _ _ => True) (Draw.tell (t.remark e))
      (Draw.tell (t'.remark (e.rename id))) := by
    rw [Remark.rename_id]
    exact hremark e
  have hexpr' : rel.Holds (fun e e' => e' = e.rename id) (Expr.told t c scope 1)
      (Expr.told t' { c with maxDepth, statements } (scope.rename id) 1) := by
    rw [Scope.rename_id]
    exact rel.mono hexpr fun e e' he => by rw [Expr.rename_id, he]
  have hstatement := related h hremark' hexpr' (Scope.follows_id c.stem scope) hfault
  rw [Scope.rename_id] at hstatement
  exact rel.mono hstatement fun a a' ha => by rw [ha.1, rename_id, Scope.rename_id]

/-- In a numbered scope a fresh name is declared by all means, and the scope stays numbered. -/
lemma Statement.related_numbered (h : rel.Covers c)
    (hremark : ∀ e, rel.Holds (fun _ _ => True) (Draw.tell (t.remark e))
      (Draw.tell (t'.remark (e.rename (restem c.stem stem)))))
    {k : Nat} (hexpr : rel.Holds (fun e e' => e' = e.rename (restem c.stem stem))
      (Expr.told t c (numbered c.stem k) 1)
      (Expr.told t' { c with stem, maxDepth, statements } (numbered stem k) 1)) :
    rel.Holds (fun a a' => a' = (a.1.rename (restem c.stem stem), a.2.rename (restem c.stem stem)) ∧
        ∃ k, a.2 = numbered c.stem k)
      (told t c (numbered c.stem k))
      (told t' { c with stem, maxDepth, statements } (numbered stem k)) := by
  have hrename := Scope.rename_numbered c.stem stem k
  rw [← hrename] at hexpr ⊢
  refine rel.mono (related h hremark hexpr (Scope.follows_numbered c.stem stem k) ?_) ?_
  · intro hdeclare
    simp [Scope.declare?_numbered] at hdeclare
  · rintro a a' ⟨ha, hscope | hscope⟩
    · exact ⟨ha, k, hscope⟩
    · refine ⟨ha, k + 1, ?_⟩
      rw [Scope.freshName_numbered, Scope.declare?_numbered] at hscope
      exact (Option.some.inj hscope).symm

/-! ## Programs -/

namespace Program

/-- Drafts with numbered scopes stay related while they are extended by related statements. -/
lemma Draft.related_extendTold (h : rel.Covers c)
    (hremark : ∀ e, rel.Holds (fun _ _ => True) (Draw.tell (t.remark e))
      (Draw.tell (t'.remark (e.rename (restem c.stem stem)))))
    (hexpr : ∀ k, rel.Holds (fun e e' => e' = e.rename (restem c.stem stem))
      (Expr.told t c (numbered c.stem k) 1)
      (Expr.told t' { c with stem, maxDepth, statements } (numbered stem k) 1))
    (count : Nat) {d : Draft} {k : Nat} (hd : d.scope = numbered c.stem k) :
    rel.Holds (fun d d' => d' = d.rename (restem c.stem stem)) (extendTold t c count d)
      (extendTold t' { c with stem, maxDepth, statements } count
        (d.rename (restem c.stem stem))) := by
  induction count generalizing d k with
  | zero => exact rel.done rfl
  | succ count ih =>
      have hd' : (d.rename (restem c.stem stem)).scope = numbered stem k := by
        rw [rename, hd, Scope.rename_numbered]
      have hplace : (d.rename (restem c.stem stem)).statements.size = d.statements.size :=
        Array.size_map
      rw [extendTold_succ, extendTold_succ, hd, hd', hplace]
      refine rel.bind (Statement.related_numbered h hremark (hexpr k)) ?_
      rintro ⟨s, scope⟩ _ ⟨rfl, k', hk'⟩
      refine rel.bind (hremark (.drew d.statements.size s)) fun _ _ _ => ?_
      have hpush : (⟨(d.rename (restem c.stem stem)).statements.push
            (s.rename (restem c.stem stem)), scope.rename (restem c.stem stem)⟩ : Draft) =
          Draft.rename (restem c.stem stem) ⟨d.statements.push s, scope⟩ := by
        simp [rename]
      rw [hpush]
      exact ih hk'

/-- **Programs are related** under every two stems, if expressions in numbered scopes are. -/
theorem related (h : rel.Covers c)
    (hrange : rel.Holds Eq (Draw.inRange c.fewest c.most) (Draw.inRange c.fewest c.most))
    (hremark : ∀ e, rel.Holds (fun _ _ => True) (Draw.tell (t.remark e))
      (Draw.tell (t'.remark (e.rename (restem c.stem stem)))))
    (hexpr : ∀ k, rel.Holds (fun e e' => e' = e.rename (restem c.stem stem))
      (Expr.told t c (numbered c.stem k) 1)
      (Expr.told t' { c with stem, maxDepth } (numbered stem k) 1)) :
    rel.Holds (fun p p' => p' = p.rename (restem c.stem stem)) (told t c)
      (told t' { c with stem, maxDepth }) := by
  refine rel.bind hrange ?_
  rintro drawn _ rfl
  refine rel.bind (hremark (.counted drawn (c.statementCount drawn))) fun _ _ _ => ?_
  have hempty : ({} : Draft).rename (restem c.stem stem) = {} := by
    simp [Draft.rename, Scope.rename]
  have hdraft := Draft.related_extendTold h hremark hexpr (c.statementCount drawn).toNat (d := {})
    (k := 0) rfl
  rw [hempty] at hdraft
  refine rel.bind hdraft ?_
  rintro d _ rfl
  exact rel.done (by simp [Draft.program, Draft.rename, rename])

/-- Nothing is renamed. -/
theorem related_same (h : rel.Covers c)
    (hrange : rel.Holds Eq (Draw.inRange c.fewest c.most) (Draw.inRange c.fewest c.most))
    (hremark : ∀ e, rel.Holds (fun _ _ => True) (Draw.tell (t.remark e))
      (Draw.tell (t'.remark e)))
    (hexpr : ∀ k, rel.Holds Eq (Expr.told t c (numbered c.stem k) 1)
      (Expr.told t' { c with maxDepth } (numbered c.stem k) 1)) :
    rel.Holds Eq (told t c) (told t' { c with maxDepth }) := by
  have hremark' (e : Remark) : rel.Holds (fun _ _ => True) (Draw.tell (t.remark e))
      (Draw.tell (t'.remark (e.rename (restem c.stem c.stem)))) := by
    rw [restem_self, Remark.rename_id]
    exact hremark e
  have hprogram := related h hrange hremark'
    fun k => rel.mono (hexpr k) fun e e' he => by rw [restem_self, Expr.rename_id, he]
  exact rel.mono hprogram fun p p' hp => by rw [hp, restem_self, rename_id]

end Program

/-! ## Properties -/

namespace Draw.Property

/-- A property covers the ways in which a configuration has things drawn. -/
structure Covers (p : Property ε) (c : Config) : Prop where
  /-- The choice between a reference and a literal. -/
  half : p.Holds (oneIn 2)
  /-- The choices with odds. -/
  odds : ∀ choice, p.Holds (oneIn (c.odds choice))
  /-- The choice of a literal. -/
  literal : p.Holds (inRange 0 c.maxLiteral.toUInt64)
  /-- The choice of an element. -/
  pick : ∀ {α : Type} (xs : Array α), 0 < xs.size → p.Holds (pick xs)

namespace Covers

/-- A weaker property covers what a stronger one does. -/
lemma mono {q : Property ε} (h : p.Covers c)
    (imp : ∀ {α : Type} {d : Draw ε α}, p.Holds d → q.Holds d) : q.Covers c where
  half := imp h.half
  odds choice := imp (h.odds choice)
  literal := imp h.literal
  pick xs hxs := imp (h.pick xs hxs)

/-- What a property covers is covered by it as a relation. -/
lemma relator (h : p.Covers c) : p.relator.Covers c where
  half := ⟨h.half, fun b _ _ => ⟨b, rfl⟩⟩
  odds choice := ⟨h.odds choice, fun b _ _ => ⟨b, rfl⟩⟩
  literal := ⟨h.literal, fun n _ _ => ⟨n, rfl⟩⟩
  pick g xs hxs := ⟨h.pick xs hxs, fun a _ _ => ⟨g a, rfl⟩⟩

/-- **Values** have a property. -/
theorem value (h : p.Covers c) (scope : Scope) : p.Holds (Value.random c scope) := by
  have hrelated : p.relator.Holds (fun v v' => v' = v.rename id) (Value.random c scope)
      (Value.random c (scope.rename id)) := Value.related h.relator scope
  exact hrelated.1

/-- **What is left of an expression** has a property if its operands do, where it has any. -/
theorem proceed (h : p.Covers c) {operand : Draw ε Expr} {isSingle : Bool}
    (hoperand : isSingle = false → p.Holds operand) :
    p.Holds (Expr.proceed c scope operand isSingle) := by
  have hrelated : p.relator.Holds (fun e e' => e' = e.rename id)
      (Expr.proceed c scope operand isSingle)
      (Expr.proceed c (scope.rename id) operand isSingle) :=
    Expr.related_proceed h.relator fun hs => ⟨hoperand hs, fun _ _ _ => ⟨_, rfl⟩⟩
  exact hrelated.1

/-- Operands are only drawn where the depth is not too great for them. -/
lemma not_maxDepth_lt_of_course {r : List (Happening ε)}
    (h : Course (Expr.single t c depth) r (.done false)) : ¬ c.maxDepth < depth := by
  obtain ⟨x, -, hx⟩ := Expr.course_single_done_iff.mp h
  exact (not_or.mp (mt hx.mpr Bool.false_ne_true)).2

/-- One level of calls: an expression has a property if its operands do, where it has any. -/
lemma toldWithin_succ (h : p.Covers c) (hsingle : p.Holds (Expr.single t c depth))
    (hoperand : ¬ c.maxDepth < depth → p.Holds (Expr.toldWithin t c scope m (depth + 1))) :
    p.Holds (Expr.toldWithin t c scope (m + 1) depth) := by
  refine p.bind hsingle fun isSingle r hr => h.proceed fun hs => ?_
  subst hs
  exact hoperand (not_maxDepth_lt_of_course hr)

/-- **Expressions** have a property with every allowance of levels, if it is not lost where the
allowance has run out. -/
theorem toldWithin (h : p.Covers c) (hsingle : ∀ depth, p.Holds (Expr.single t c depth))
    (hrest : p.Holds (.unfinished : Draw ε Expr)) :
    p.Holds (Expr.toldWithin t c scope m depth) := by
  have hrelated : p.relator.Holds Eq (Expr.toldWithin t c scope m depth)
      (Expr.toldWithin t c scope (m + 0) depth) :=
    Expr.related_add_same h.relator (fun depth => ⟨hsingle depth, fun s _ _ => ⟨s, rfl⟩⟩)
      fun _ => ⟨hrest, fun _ _ hr => (not_course_unfinished_done hr).elim⟩
  exact hrelated.1

/-- **Expressions** have a property with every allowance of levels that suffices. -/
theorem toldWithin_of_height (h : p.Covers c) (hc : c.maxDepth < 0xFFFFFFFFFFFFFFFF)
    (hsingle : ∀ depth, p.Holds (Expr.single t c depth)) (hm : Expr.height c depth ≤ m) :
    p.Holds (Expr.toldWithin t c scope m depth) := by
  have hrelated : p.relator.Holds Eq (Expr.toldWithin t c scope m depth)
      (Expr.toldWithin t c scope m depth) := by
    refine Expr.related_of_height_same hc h.relator (fun depth => ⟨hsingle depth, ?_⟩) hm hm
    exact fun s r hr => ⟨s, rfl, fun hs => not_maxDepth_lt_of_course (hs ▸ hr)⟩
  exact hrelated.1

/-- **Statements** have a property if their expressions do. -/
theorem statement (h : p.Covers c) (hremark : ∀ e, p.Holds (Draw.tell (t.remark e)))
    (hexpr : p.Holds (Expr.told t c scope 1))
    (hfault : scope.declare? (scope.freshName c.stem) = none →
      ∀ {α : Type}, p.Holds (.fault .declaredTwice : Draw ε α)) :
    p.Holds (Statement.told t c scope) := by
  have hrelated : p.relator.Holds Eq (Statement.told t c scope) (Statement.told t c scope) :=
    Statement.related_same h.relator (fun e => ⟨hremark e, fun u _ _ => ⟨u, trivial⟩⟩)
      ⟨hexpr, fun e _ _ => ⟨e, rfl⟩⟩
      fun hdeclare _ _ _ => ⟨hfault hdeclare, fun _ _ hr => (not_course_fault_done hr).elim⟩
  exact hrelated.1

/-- **Programs** have a property if expressions in numbered scopes do. -/
theorem program (h : p.Covers c) (hrange : p.Holds (Draw.inRange c.fewest c.most))
    (hremark : ∀ e, p.Holds (Draw.tell (t.remark e)))
    (hexpr : ∀ k, p.Holds (Expr.told t c (numbered c.stem k) 1)) :
    p.Holds (Program.told t c) := by
  have hrelated : p.relator.Holds Eq (Program.told t c) (Program.told t c) :=
    Program.related_same h.relator ⟨hrange, fun n _ _ => ⟨n, rfl⟩⟩
      (fun e => ⟨hremark e, fun u _ _ => ⟨u, trivial⟩⟩) fun k => ⟨hexpr k, fun e _ _ => ⟨e, rfl⟩⟩
  exact hrelated.1

end Covers

end Draw.Property

/-! ### Notes -/

/-- The ways to draw leave no notes, so whatever is required of notes covers them. -/
lemma Draw.NotesAll.covers (P : ε → Prop) (c : Config) : (property P).Covers c where
  half := notesAll_oneIn 2
  odds choice := notesAll_oneIn (c.odds choice)
  literal := notesAll_inRange 0 c.maxLiteral.toUInt64
  pick xs _ := notesAll_pick xs

/-- Values note nothing. -/
theorem Value.silent (c : Config) (scope : Scope) : (random c scope : Draw ε Value).Silent :=
  (NotesAll.covers _ c).value scope

/-- Expressions note nothing but their calls, if these are noted. -/
theorem Expr.silent (c : Config) (scope : Scope) (depth : UInt64) :
    (random c scope depth).Silent := by
  have hsingle (depth : UInt64) : (single .remarks c depth).Silent := fun _ => trivial
  exact (NotesAll.covers _ c).toldWithin (m := levels c) hsingle trivial

end RandomInstant
