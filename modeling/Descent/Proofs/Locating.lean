/-
# Lines and columns

The position of an offset is read off the lines of the text before it. The text behind the last
line break is the last line, whatever stands before, so the line is told by counting line breaks
and the column by counting what follows the last of them. One more character moves the position on
in reading order, and therefore no two offsets of a text share a line and a column.
-/

import Descent.Position
import Mathlib.Data.List.DropRight

namespace Descent

namespace Position

variable {s t : Text} {o o' : Int} {p q : Position}

/-- Reading order: an earlier line, or an earlier column of the same line. -/
def Before (p q : Position) : Prop :=
  p.line < q.line ∨ p.line = q.line ∧ p.column < q.column

theorem Before.trans {r : Position} (hpq : p.Before q) (hqr : q.Before r) : p.Before r := by
  unfold Before at *
  omega

theorem not_before_of_eq (hline : p.line = q.line) (hcolumn : p.column = q.column) :
    ¬ p.Before q := by
  unfold Before
  omega

theorem Before.not_before (h : p.Before q) : ¬ q.Before p := by
  unfold Before at *
  omega

section Lines

/-- A text has one line more than it has line breaks. -/
theorem length_splitOn (t : Text) : (t.splitOn '\n').length = t.count '\n' + 1 := by
  induction t with
  | nil => rfl
  | cons c t ih =>
      rw [List.splitOn_cons_eq_if_modifyHead]
      by_cases hbreak : c = '\n'
      · simp [hbreak, ih]
      · simp [hbreak, ih]

/-- A text is a single line, or it has a last line behind its last line break. -/
theorem exists_last_line (t : Text) :
    '\n' ∉ t ∨ ∃ before last, t = before ++ '\n' :: last ∧ '\n' ∉ last := by
  induction t with
  | nil => exact .inl List.not_mem_nil
  | cons c t ih =>
      rcases ih with hsingle | ⟨before, last, rfl, hlast⟩
      · by_cases hbreak : c = '\n'
        · exact .inr ⟨[], t, by rw [hbreak, List.nil_append], hsingle⟩
        · exact .inl (List.not_mem_cons_of_ne_of_not_mem (Ne.symm hbreak) hsingle)
      · exact .inr ⟨c :: before, last, rfl, hlast⟩

/-- Nothing before the last line break belongs to the last line. -/
theorem rtakeWhile_append_cons (before : Text) {last : Text} (h : '\n' ∉ last) :
    (before ++ '\n' :: last).rtakeWhile (· != '\n') = last := by
  have hlast (c : Char) (hc : c ∈ last.reverse) : (c != '\n') = true :=
    bne_iff_ne.mpr (ne_of_mem_of_not_mem (List.mem_reverse.mp hc) h)
  have hreverse : (before ++ '\n' :: last).reverse = last.reverse ++ '\n' :: before.reverse := by
    simp
  rw [List.rtakeWhile, hreverse, List.takeWhile_append_of_pos hlast]
  simp

theorem rtakeWhile_of_not_mem (h : '\n' ∉ t) : t.rtakeWhile (· != '\n') = t := by
  rw [List.rtakeWhile_eq_self_iff]
  intro c hc
  exact bne_iff_ne.mpr (ne_of_mem_of_not_mem hc h)

/-- The last of the lines is what stands behind the last line break. -/
theorem getLastD_splitOn (t : Text) :
    (t.splitOn '\n').getLastD [] = t.rtakeWhile (· != '\n') := by
  rcases exists_last_line t with hsingle | ⟨before, last, rfl, hlast⟩
  · rw [List.splitOn_eq_singleton hsingle, rtakeWhile_of_not_mem hsingle]
    rfl
  · have hlines : (before ++ '\n' :: last).splitOn '\n' = before.splitOn '\n' ++ [last] := by
      rw [List.splitOn_append_cons_self, List.splitOn_eq_singleton hlast]
    rw [hlines, rtakeWhile_append_cons before hlast, List.getLastD_concat]

/-- What the position behind a text says about the text. -/
theorem after_eq (t : Text) :
    after t = ⟨t.length, 1 + t.count '\n', 1 + (t.rtakeWhile (· != '\n')).length⟩ := by
  have hline : ((t.splitOn '\n').length : Int) = 1 + t.count '\n' := by
    rw [length_splitOn]
    omega
  have hcolumn : (((t.splitOn '\n').getLastD []).length + 1 : Int) =
      1 + (t.rtakeWhile (· != '\n')).length := by
    rw [getLastD_splitOn]
    omega
  rw [← hline, ← hcolumn]
  rfl

end Lines

section Order

/-- One more character: a line break starts a line, any other character takes a column. -/
theorem after_concat (t : Text) (c : Char) :
    after (t ++ [c]) = if c = '\n' then ⟨t.length + 1, (after t).line + 1, 1⟩
      else ⟨t.length + 1, (after t).line, (after t).column + 1⟩ := by
  by_cases hbreak : c = '\n'
  · simp [after_eq, hbreak, Int.add_assoc]
  · simp [after_eq, hbreak, Int.add_assoc]

theorem before_after_concat (t : Text) (c : Char) : (after t).Before (after (t ++ [c])) := by
  rw [after_concat]
  by_cases hbreak : c = '\n'
  · rw [if_pos hbreak]
    exact .inl (Int.lt_succ _)
  · rw [if_neg hbreak]
    exact .inr ⟨rfl, Int.lt_succ _⟩

/-- The position moves on with every text that is not empty. -/
theorem before_after_append (t : Text) {more : Text} (hne : more ≠ []) :
    (after t).Before (after (t ++ more)) := by
  induction more generalizing t with
  | nil => exact absurd rfl hne
  | cons c more ih =>
      have hstep := before_after_concat t c
      rw [List.append_cons]
      by_cases hmore : more = []
      · rw [hmore, List.append_nil]
        exact hstep
      · exact hstep.trans (ih (t ++ [c]) hmore)

end Order

theorem locate_of_inside (hlo : 0 ≤ o) (hhi : o ≤ s.length) :
    locate s o = .ok (after (s.take o.toNat)) := by
  have hinside : ¬ (decide (o < 0) || decide (s.length < o)) = true := by
    simp only [Bool.or_eq_true, decide_eq_true_eq]
    omega
  exact if_neg hinside

theorem locate_of_outside (h : o < 0 ∨ s.length < o) :
    locate s o = .error (.outsideInput o s.length) := by
  have houtside : (decide (o < 0) || decide (s.length < o)) = true := by
    simpa only [Bool.or_eq_true, decide_eq_true_eq] using h
  exact if_pos houtside

theorem length_take_toNat (hlo : 0 ≤ o) (hhi : o ≤ s.length) :
    ((s.take o.toNat).length : Int) = o := by
  rw [List.length_take]
  omega

/-- Every offset of a text has a position, which carries that offset. -/
theorem exists_locate_eq (hlo : 0 ≤ o) (hhi : o ≤ s.length) :
    ∃ p : Position, locate s o = .ok p ∧ p.offset = o :=
  ⟨_, locate_of_inside hlo hhi, length_take_toNat hlo hhi⟩

/-- Only the offsets of a text have a position in it. -/
theorem inside_of_locate (h : locate s o = .ok p) : 0 ≤ o ∧ o ≤ s.length := by
  by_contra houtside
  have hfault := locate_of_outside (s := s) (o := o) (by omega)
  cases h.symm.trans hfault

theorem eq_after_of_locate (h : locate s o = .ok p) : p = after (s.take o.toNat) := by
  obtain ⟨hlo, hhi⟩ := inside_of_locate h
  exact Except.ok.inj (h.symm.trans (locate_of_inside hlo hhi))

theorem locate_eq_error_iff :
    locate s o = .error (.outsideInput o s.length) ↔ o < 0 ∨ s.length < o := by
  refine ⟨fun hfault => ?_, locate_of_outside⟩
  by_contra hinside
  have hok := locate_of_inside (s := s) (o := o) (by omega) (by omega)
  cases hfault.symm.trans hok

theorem locate_eq_ok_iff :
    locate s o = .ok p ↔ (0 ≤ o ∧ o ≤ s.length) ∧ p.offset = o ∧
      p.line = 1 + (s.take o.toNat).count '\n' ∧
      p.column = 1 + ((s.take o.toNat).rtakeWhile (· != '\n')).length := by
  constructor
  · intro hp
    obtain ⟨hlo, hhi⟩ := inside_of_locate hp
    rw [eq_after_of_locate hp, after_eq]
    exact ⟨⟨hlo, hhi⟩, length_take_toNat hlo hhi, rfl, rfl⟩
  · rintro ⟨⟨hlo, hhi⟩, hoffset, hline, hcolumn⟩
    rw [locate_of_inside hlo hhi, after_eq, length_take_toNat hlo hhi, ← hline, ← hcolumn,
      ← hoffset]

/-- Where a character of the text comes next, so does a position. -/
theorem locate_add_one {c : Char} (hp : locate s o = .ok p) (hc : s[o.toNat]? = some c) :
    locate s (o + 1) = .ok (if c = '\n' then ⟨o + 1, p.line + 1, 1⟩
      else ⟨o + 1, p.line, p.column + 1⟩) := by
  obtain ⟨hlo, hhi⟩ := inside_of_locate hp
  obtain ⟨hlt, -⟩ := List.getElem?_eq_some_iff.mp hc
  have hnext : (o + 1).toNat = o.toNat + 1 := by omega
  have htake : s.take (o + 1).toNat = s.take o.toNat ++ [c] := by
    rw [hnext, List.take_add_one, hc, Option.toList_some]
  rw [locate_of_inside (by omega) (by omega), htake, after_concat, length_take_toNat hlo hhi,
    ← eq_after_of_locate hp]

/-- Positions of one text stand in the order of their offsets. -/
theorem before_of_locate (hp : locate s o = .ok p) (hq : locate s o' = .ok q) (hlt : o < o') :
    p.Before q := by
  obtain ⟨hlo, -⟩ := inside_of_locate hp
  obtain ⟨-, hhi⟩ := inside_of_locate hq
  have hsplit : s.take o'.toNat = s.take o.toNat ++ (s.take o'.toNat).drop o.toNat := by
    have hmin : min o.toNat o'.toNat = o.toNat := by omega
    have hprefix : (s.take o'.toNat).take o.toNat = s.take o.toNat := by
      rw [List.take_take, hmin]
    rw [← hprefix, List.take_append_drop]
  have hne : (s.take o'.toNat).drop o.toNat ≠ [] := by
    rw [← List.length_pos_iff, List.length_drop, List.length_take]
    omega
  rw [eq_after_of_locate hp, eq_after_of_locate hq, hsplit]
  exact before_after_append _ hne

theorem before_iff_of_locate (hp : locate s o = .ok p) (hq : locate s o' = .ok q) :
    p.Before q ↔ o < o' := by
  constructor
  · intro h
    rcases Int.lt_trichotomy o o' with hlt | rfl | hgt
    · exact hlt
    · cases hp.symm.trans hq
      exact absurd h (not_before_of_eq rfl rfl)
    · exact absurd h (before_of_locate hq hp hgt).not_before
  · exact before_of_locate hp hq

/-- A line and a column belong to one offset only. -/
theorem line_column_eq_iff_of_locate (hp : locate s o = .ok p) (hq : locate s o' = .ok q) :
    p.line = q.line ∧ p.column = q.column ↔ o = o' := by
  constructor
  · rintro ⟨hline, hcolumn⟩
    rcases Int.lt_trichotomy o o' with hlt | heq | hgt
    · exact absurd (before_of_locate hp hq hlt) (not_before_of_eq hline hcolumn)
    · exact heq
    · exact absurd (before_of_locate hq hp hgt) (not_before_of_eq hline.symm hcolumn.symm)
  · rintro rfl
    cases hp.symm.trans hq
    exact ⟨rfl, rfl⟩

/-- Positions count lines and columns, and they tell offsets apart. An offset has a position in a
text exactly if it is neither negative nor behind its end. The line is one more than the line
breaks before the offset, and the column one more than the characters behind the last of them. So
a text starts at line one and column one, a line break leads to the start of the next line and any
other character to the next column, and positions stand in reading order as their offsets do. -/
theorem locate_counts_lines (s : Text) :
    (∀ o, locate s o = .error (.outsideInput o s.length) ↔ o < 0 ∨ s.length < o) ∧
    (∀ o p, locate s o = .ok p ↔ (0 ≤ o ∧ o ≤ s.length) ∧ p.offset = o ∧
      p.line = 1 + (s.take o.toNat).count '\n' ∧
      p.column = 1 + ((s.take o.toNat).rtakeWhile (· != '\n')).length) ∧
    locate s 0 = .ok ⟨0, 1, 1⟩ ∧
    (∀ o p c, locate s o = .ok p → s[o.toNat]? = some c →
      locate s (o + 1) = .ok (if c = '\n' then ⟨o + 1, p.line + 1, 1⟩
        else ⟨o + 1, p.line, p.column + 1⟩)) ∧
    (∀ o o' p q, locate s o = .ok p → locate s o' = .ok q →
      (p.Before q ↔ o < o') ∧ (p.line = q.line ∧ p.column = q.column ↔ o = o')) := by
  have hstart : locate s 0 = .ok ⟨0, 1, 1⟩ := by
    rw [locate_of_inside (Int.le_refl 0) (Int.natCast_nonneg _)]
    rfl
  refine ⟨fun o => locate_eq_error_iff, fun o p => locate_eq_ok_iff, hstart, ?_, ?_⟩
  · intro o p c hp hc
    exact locate_add_one hp hc
  · intro o o' p q hp hq
    exact ⟨before_iff_of_locate hp hq, line_column_eq_iff_of_locate hp hq⟩

/-- An empty line between two others: its line break stands at its very start. -/
theorem locate_counts_lines_of_empty_line :
    let s := ['a', '\n', '\n', 'b']
    locate s 2 = .ok ⟨2, 2, 1⟩ ∧ s[Int.toNat 2]? = some '\n' ∧ locate s (2 + 1) = .ok ⟨3, 3, 1⟩ ∧
    locate s 4 = .ok ⟨4, 3, 2⟩ ∧ (Before ⟨2, 2, 1⟩ ⟨4, 3, 2⟩ ↔ (2 : Int) < 4) ∧
    ((2 : Int) = 3 ∧ (1 : Int) = 2 ↔ (2 : Int) = 4) := by
  intro s
  obtain ⟨-, hcounts, -, hstep, horder⟩ := locate_counts_lines s
  have hsecond : locate s 2 = .ok ⟨2, 2, 1⟩ := (hcounts _ _).mpr (by decide)
  have hend : locate s 4 = .ok ⟨4, 3, 2⟩ := (hcounts _ _).mpr (by decide)
  exact ⟨hsecond, rfl, hstep 2 _ '\n' hsecond rfl, hend, horder 2 4 _ _ hsecond hend⟩

end Position

end Descent
