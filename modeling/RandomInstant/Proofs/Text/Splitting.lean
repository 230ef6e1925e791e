import Mathlib.Data.List.Basic
import Mathlib.Data.List.Induction

/-!
# Splitting a text at a separator

A text is split at every occurrence of a separator, the leftmost first, and the occurrences do not
overlap. Pieces that were put together with a separator between them come back if some character of
the separator, its **mark**, occurs in none of them: an occurrence of the separator that began
inside a piece would have its first mark where the text has none.

* `Text.pieces`: the pieces, by `String.split`.
* **`Text.pieces_intercalate`**: they come back.
-/

namespace RandomInstant.Text

open String Slice.Pattern

/-- The pieces of a text between the occurrences of a separator. -/
def pieces (sep s : String) : List String := (s.split sep).toList.map Slice.copy

variable {sep : String} {mark : Char} {s : Slice} {p q : s.Pos} {before piece rest : String}

/-- No text begins with the separator and also with a piece that is not empty and holds no mark, if
the text ends behind that piece or the separator follows there. -/
lemma append_ne_of_mark (hmark : mark ∈ sep.toList) (hpiece : mark ∉ piece.toList)
    (hne : piece ≠ "") (hrest : rest = "" ∨ ∃ after, rest = sep ++ after) (t : String) :
    sep ++ t ≠ piece ++ rest := by
  intro h
  rcases hrest with rfl | ⟨after, rfl⟩
  · rw [append_empty] at h
    exact hpiece (h ▸ by simp [hmark])
  · -- the first mark stands in the separator on one side, and behind the whole piece on the other
    have hindex := congrArg (fun x => x.toList.idxOf mark) h
    simp only [toList_append, List.idxOf_append_of_notMem hpiece, List.idxOf_append_of_mem hmark]
      at hindex
    have hlength : piece.toList = [] := List.length_eq_zero_iff.mp (by omega)
    exact hne (toList_eq_nil_iff.mp hlength)

/-- So the separator occurs nowhere within such a piece. -/
lemma not_matchesAt_of_mark (hmark : mark ∈ sep.toList) (hpiece : mark ∉ piece.toList)
    (hp : p.Splits before (piece ++ rest)) (hq : q.Splits (before ++ piece) rest)
    (hrest : rest = "" ∨ ∃ after, rest = sep ++ after) {r : s.Pos} (hpr : p ≤ r) (hrq : r < q) :
    ¬Model.MatchesAt sep r := by
  intro h
  obtain ⟨t₁, t₂, hr⟩ := Model.ForwardStringSearcher.matchesAt_iff_splits.mp h
  obtain ⟨v, rfl, -⟩ := (hp.le_iff_exists_eq_append hr).mp hpr
  obtain ⟨u, hu, hbefore, hafter⟩ := (hr.lt_iff_exists_eq_append hq).mp hrq
  have hsplit : piece = v ++ u := by
    rwa [append_assoc, append_right_inj] at hbefore
  have hmem : mark ∉ u.toList := fun hm => hpiece (by simp [hsplit, hm])
  exact append_ne_of_mark hmark hmem hu hrest t₂ hafter

/-- What stands between two positions. -/
lemma copy_subslice (hp : p.Splits before (piece ++ rest)) (hq : q.Splits (before ++ piece) rest)
    (h : p ≤ q) : (s.subslice p q h).copy = piece := by
  obtain ⟨_, hcopy⟩ := Slice.copy_slice_eq_iff_splits.mpr ⟨before, rest, hp, hq⟩
  rw [Slice.Subslice.copy_eq, Function.comp_apply, Slice.toSlice_subslice]
  exact hcopy

/-- A place that comes before a piece is not behind one that comes after it. -/
lemma le_of_splits (hp : p.Splits before (piece ++ rest)) (hq : q.Splits (before ++ piece) rest) :
    p ≤ q :=
  (hp.le_iff_exists_eq_append hq).mpr ⟨piece, rfl, rfl⟩

section

variable [Model.StrictPatternModel sep]

/-- The last piece. -/
lemma map_copy_split_last (hmark : mark ∈ sep.toList) (hpiece : mark ∉ piece.toList)
    (hp : p.Splits before piece) :
    (Model.split sep p p (Slice.Pos.le_refl _)).map Slice.Subslice.copy = [piece] := by
  have hp' : p.Splits before (piece ++ "") := by rwa [append_empty]
  have hend : s.endPos.Splits (before ++ piece) "" := by
    rw [← hp.eq_append]
    exact s.splits_endPos
  rw [Model.split_eq_of_not_matchesAt s.endPos (le_of_splits hp' hend)
      fun r => not_matchesAt_of_mark hmark hpiece hp' hend (.inl rfl),
    Model.split_endPos, List.map_singleton, copy_subslice hp' hend]

/-- A piece that the separator follows, and what is split off behind the separator. -/
lemma exists_map_copy_split (hmark : mark ∈ sep.toList) (hpiece : mark ∉ piece.toList)
    (hp : p.Splits before (piece ++ (sep ++ rest))) :
    ∃ q : s.Pos, q.Splits (before ++ piece ++ sep) rest ∧
      (Model.split sep p p (Slice.Pos.le_refl _)).map Slice.Subslice.copy
        = piece :: (Model.split sep q q (Slice.Pos.le_refl _)).map Slice.Subslice.copy := by
  have hfirst : s.copy = before ++ piece ++ (sep ++ rest) := by
    rw [hp.eq_append, append_assoc]
  have hsecond : s.copy = before ++ piece ++ sep ++ rest := by
    rw [hfirst, ← append_assoc]
  have hq := Slice.Pos.splits_ofEqAppend hfirst
  have hq' := Slice.Pos.splits_ofEqAppend hsecond
  have hmatch := Model.ForwardStringSearcher.isLongestMatchAt_iff_splits.mpr ⟨_, _, hq, hq'⟩
  refine ⟨_, hq', ?_⟩
  rw [Model.split_eq_of_not_matchesAt _ (le_of_splits hp hq)
      fun r => not_matchesAt_of_mark hmark hpiece hp hq (.inr ⟨rest, rfl⟩),
    Model.split_eq_of_isLongestMatchAt hmatch, List.map_cons, copy_subslice hp hq]

/-- Splitting on from the beginning of pieces that were put together gives those pieces. -/
lemma map_copy_split_intercalate (hmark : mark ∈ sep.toList) {ps : List String}
    (hps : ∀ piece ∈ ps, mark ∉ piece.toList) (hne : ps ≠ [])
    (hp : p.Splits before (sep.intercalate ps)) :
    (Model.split sep p p (Slice.Pos.le_refl _)).map Slice.Subslice.copy = ps := by
  induction ps, hne using List.recNeNil generalizing p before with
  | singleton piece =>
      rw [intercalate_singleton] at hp
      exact map_copy_split_last hmark (hps piece (.head _)) hp
  | cons piece ps hne ih =>
      obtain ⟨hpiece, hps⟩ := List.forall_mem_cons.mp hps
      rw [intercalate_cons_of_ne_nil hne, append_assoc] at hp
      obtain ⟨q, hq, hsplit⟩ := exists_map_copy_split hmark hpiece hp
      rw [hsplit, ih hps hq]

end

/-- **Pieces come back.** -/
theorem pieces_intercalate (hmark : mark ∈ sep.toList) {ps : List String}
    (hps : ∀ piece ∈ ps, mark ∉ piece.toList) (hne : ps ≠ []) :
    pieces sep (sep.intercalate ps) = ps := by
  have hsep : sep ≠ "" := by
    rintro rfl
    exact List.not_mem_nil hmark
  have := Model.ForwardStringSearcher.strictPatternModel hsep
  have := Model.ForwardStringSearcher.lawfulToForwardSearcherModel hsep
  have hstart : (sep.intercalate ps).toSlice.startPos.Splits "" (sep.intercalate ps) := by
    have h := Slice.splits_startPos (sep.intercalate ps).toSlice
    rwa [copy_toSlice] at h
  rw [pieces, split_eq_split_toSlice, Slice.toList_split_eq_splitToSubslice, List.map_map,
    ← Slice.Subslice.copy_eq, toList_splitToSubslice_eq_modelSplit]
  exact map_copy_split_intercalate hmark hps hne hstart

end RandomInstant.Text
