/-
# Runs at another place

The same text may lie ahead at two offsets of two inputs. Runs from there are compared by a
likeness in which offsets that are equally far apart correspond, provided that the text ahead
is the same. Replies then tell the same, with their offsets moved by that distance. If the
inputs are one and the distance is nothing, this is equality inside the input.
-/

import Descent.Proofs.Grammar.Reading
import Descent.Proofs.Likeness

namespace Descent

/-- The reply that tells the same for a place that lies `k` characters further on: the index of
a success and the offset of a failure move, and all else stays. -/
def Reply.moved (k : Int) (r : Reply) : Reply :=
  { r with
    index := if r.status then r.index + k else r.index
    furthest := if r.furthest = -1 then -1 else r.furthest + k }

/-- The fault for a place that lies `k` characters further on. Only loops that consume nothing
report an offset of the input. -/
def Fault.moved (k : Int) : Fault → Fault
  | .idleRepetition i => .idleRepetition (i + k)
  | .idleTurn i => .idleTurn (i + k)
  | f => f

@[simp] theorem Reply.moved_zero (r : Reply) : r.moved 0 = r := by
  have hfurthest : (if r.furthest = -1 then -1 else r.furthest) = r.furthest := by
    split <;> omega
  simp [moved, hfurthest]

@[simp] theorem Fault.moved_zero (f : Fault) : f.moved 0 = f := by
  cases f <;> simp [moved]

/-- Two offsets of two texts that have the same text ahead, the second one `k` characters
further on. -/
def Text.Aligned (s s' : Text) (k i i' : Int) : Prop :=
  ∃ before before' ahead : Text, s = before ++ ahead ∧ s' = before' ++ ahead ∧
    i = before.length ∧ i' = before'.length ∧ i' = i + k

namespace Text

variable {s s' : Text} {k i i' j j' : Int}

/-- A slice that starts behind a text, up to any offset. -/
theorem slice_from_append (before text : Text) (hj : 0 ≤ j) :
    (before ++ text).slice before.length j = text.take (j - before.length).toNat := by
  rw [slice, suffix, bound, bound, if_neg (by omega), if_neg (by omega), Int.toNat_natCast,
    List.drop_left]
  congr 1
  omega

namespace Aligned

theorem add_eq (h : s.Aligned s' k i i') : i' = i + k := by
  obtain ⟨before, before', ahead, -, -, -, -, hk⟩ := h
  exact hk

theorem nonneg (h : s.Aligned s' k i i') : 0 ≤ i ∧ 0 ≤ i' := by
  obtain ⟨before, before', ahead, -, -, rfl, rfl, -⟩ := h
  omega

theorem inside (h : s.Aligned s' k i i') :
    (0 ≤ i ∧ i ≤ s.length) ∧ 0 ≤ i' ∧ i' ≤ s'.length := by
  obtain ⟨before, before', ahead, rfl, rfl, rfl, rfl, -⟩ := h
  rw [List.length_append, List.length_append]
  omega

/-- Both texts go on alike. -/
theorem add {before before' ahead : Text} {count : Nat}
    (hk : (before'.length : Int) = before.length + k) (hcount : count ≤ ahead.length) :
    (before ++ ahead).Aligned (before' ++ ahead) k (before.length + count)
      (before'.length + count) := by
  have hsplit := (List.take_append_drop count ahead).symm
  have hlength : (ahead.take count).length = count := List.length_take_of_le hcount
  refine ⟨before ++ ahead.take count, before' ++ ahead.take count, ahead.drop count, ?_, ?_, ?_,
    ?_, by omega⟩
  · rw [List.append_assoc, ← hsplit]
  · rw [List.append_assoc, ← hsplit]
  · rw [List.length_append, hlength, Int.natCast_add]
  · rw [List.length_append, hlength, Int.natCast_add]

theorem slice_eq (hi : s.Aligned s' k i i') (hj : s.Aligned s' k j j') :
    s.slice i j = s'.slice i' j' := by
  have hjk := hj.add_eq
  obtain ⟨hnonneg, hnonneg'⟩ := hj.nonneg
  obtain ⟨before, before', ahead, rfl, rfl, rfl, rfl, hk⟩ := hi
  rw [slice_from_append before ahead hnonneg, slice_from_append before' ahead hnonneg']
  congr 1
  omega

theorem refl (hi : 0 ≤ i) (hlen : i ≤ s.length) : s.Aligned s 0 i i := by
  obtain ⟨before, ahead, rfl, rfl⟩ := exists_eq_append hi hlen
  exact ⟨before, before, ahead, rfl, rfl, rfl, rfl, by omega⟩

/-- A text is put in front. -/
theorem append_left (u : Text) (hi : 0 ≤ i) (hlen : i ≤ s.length) :
    s.Aligned (u ++ s) u.length i (u.length + i) := by
  obtain ⟨before, -, ahead, rfl, -, rfl, -, -⟩ := refl hi hlen
  exact ⟨before, u ++ before, ahead, rfl, by simp, rfl, by simp, by omega⟩

theorem symm (h : s.Aligned s' k i i') : s'.Aligned s (-k) i' i := by
  obtain ⟨before, before', ahead, hs, hs', hi, hi', hk⟩ := h
  exact ⟨before', before, ahead, hs', hs, hi', hi, by omega⟩

end Aligned

end Text

/-- Two replies for places of two texts that are `k` characters apart. -/
structure Reply.Moves (s s' : Text) (k : Int) (r r' : Reply) : Prop where
  eq_moved : r' = r.moved k
  aligned : r.status = true → s.Aligned s' k r.index (r.index + k)
  furthest : r.furthest = -1 ∨ 0 ≤ r.furthest ∧ 0 ≤ r.furthest + k

namespace Reply

variable {s s' : Text} {k : Int} {r r' t t' : Reply}

/-- Merging compares offsets, which are moved alike. -/
theorem moved_mergeWith (hr : r.furthest = -1 ∨ 0 ≤ r.furthest ∧ 0 ≤ r.furthest + k)
    (ht : t.furthest = -1 ∨ 0 ≤ t.furthest ∧ 0 ≤ t.furthest + k) :
    (r.mergeWith t).moved k = (r.moved k).mergeWith (t.moved k) := by
  have hlt : (t.moved k).furthest < (r.moved k).furthest ↔ t.furthest < r.furthest := by
    simp only [moved]
    split <;> split <;> omega
  have heq : (r.moved k).furthest = (t.moved k).furthest ↔ r.furthest = t.furthest := by
    simp only [moved]
    split <;> split <;> omega
  unfold mergeWith
  simp only [hlt, heq]
  split
  · rfl
  · split
    · rfl
    · rfl

namespace Moves

theorem mergeWith (h : r.Moves s s' k r') (ht : t.Moves s s' k t') :
    (r.mergeWith t).Moves s s' k (r'.mergeWith t') where
  eq_moved := by rw [h.eq_moved, ht.eq_moved, moved_mergeWith h.furthest ht.furthest]
  aligned hok := by
    rw [mergeWith_status] at hok
    rw [mergeWith_index]
    exact h.aligned hok
  furthest := by
    have hr := h.furthest
    have ht := ht.furthest
    unfold Reply.mergeWith
    split
    · exact hr
    · split
      · exact hr
      · exact ht

theorem ok {i i' : Int} (v : Value) (hi : s.Aligned s' k i i') :
    (Reply.ok i v).Moves s s' k (.ok i' v) := by
  obtain rfl := hi.add_eq
  exact ⟨rfl, fun _ => hi, .inl rfl⟩

theorem error {i i' : Int} (d : String) (hi : s.Aligned s' k i i') :
    (Reply.error i d).Moves s s' k (.error i' d) := by
  obtain ⟨hnonneg, hnonneg'⟩ := hi.nonneg
  obtain rfl := hi.add_eq
  have hne : ¬ i = -1 := by omega
  refine ⟨?_, fun hok => absurd hok Bool.false_ne_true, .inr ⟨hnonneg, hnonneg'⟩⟩
  simp [Reply.error, moved, hne]

end Moves

end Reply

/-- Runs at places of two texts that are `k` characters apart. -/
def Likeness.shift (s s' : Text) (k : Int) : Likeness s s' where
  offsets := s.Aligned s' k
  replies := Reply.Moves s s' k
  offsets_inj hi hj := by
    have hi := hi.add_eq
    have hj := hj.add_eq
    omega
  status_eq h := by rw [h.eq_moved]; rfl
  value_eq h := by rw [h.eq_moved]; rfl
  index h hok := by
    rw [h.eq_moved]
    simp only [Reply.moved, if_pos hok]
    exact h.aligned hok
  ok := Reply.Moves.ok
  error := Reply.Moves.error
  mergeWith := Reply.Moves.mergeWith
  moved h hok hi := by
    obtain rfl := hi.add_eq
    refine ⟨?_, fun _ => hi, h.furthest⟩
    rw [h.eq_moved]
    simp only [Reply.moved, if_pos hok]
  relabelled d h _ := by
    refine ⟨?_, h.aligned, h.furthest⟩
    rw [h.eq_moved]
    rfl
  unwanted_eq d hi hj := by
    unfold Action.unwanted
    rw [hi.slice_eq hj]

end Descent
