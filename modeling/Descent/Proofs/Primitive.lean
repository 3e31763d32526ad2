/-
# Primitive actions

A primitive action has no parts. Where it is started inside the input, its reply
is one of two: a success that has met no failure and stops between the offset it
was started at and the end of the input, or a failure at that very offset with one
fixed expectation. It depends on nothing else what later actions can see of it.
-/

import Descent.Action
import Descent.Proofs.Pattern.Language
import Descent.Proofs.Run

namespace Descent.Action

/-- An action that either succeeds between its offset and the end of the input, or
fails at its offset with the given expectation. -/
def Primitive (expected : String) (act : Action) : Prop :=
  ∀ (s : Text) (i : Int) (w : World) (r : Reply) (w' : World),
    0 ≤ i → i ≤ s.length → act s i w = .ok r w' →
      (∃ j v, r = .ok j v ∧ i ≤ j ∧ j ≤ s.length) ∨ r = .error i expected

/-- A slice that starts inside the text and is as long as asked for ends in it. -/
theorem add_length_le_of_slice_eq {s t : Text} {i : Int} (hi : 0 ≤ i) (hlen : i ≤ s.length)
    (h : s.slice i (i + t.length) = t) : i + t.length ≤ s.length := by
  have hlength := congrArg List.length h
  simp only [Text.slice, Text.suffix, Text.bound, List.length_take, List.length_drop] at hlength
  split at hlength <;> split at hlength <;> omega

theorem primitive_string (t : String) : Primitive ("'" ++ t ++ "'") (.string t) := by
  intro s i w r w' hi hlen h
  unfold Action.string at h
  split at h
  · next hslice =>
    obtain ⟨rfl, -⟩ := Run.pure_eq_ok.mp h
    rw [← String.length_toList] at hslice ⊢
    exact .inl ⟨_, _, rfl, by omega, add_length_le_of_slice_eq hi hlen hslice⟩
  · obtain ⟨rfl, -⟩ := Run.pure_eq_ok.mp h
    exact .inr rfl

theorem primitive_pattern (p : Pattern) (group : Nat) :
    Primitive p.describe (.pattern p group) := by
  intro s i w r w' hi hlen h
  unfold Action.pattern at h
  cases hmatch : p.match? group s i with
  | none =>
      rw [hmatch] at h
      obtain ⟨rfl, -⟩ := Run.pure_eq_ok.mp h
      exact .inr rfl
  | some found =>
      obtain ⟨stop, taken⟩ := found
      rw [hmatch] at h
      obtain ⟨rfl, -⟩ := Run.pure_eq_ok.mp h
      obtain ⟨hstart, hstop⟩ := Pattern.match?_extent p group s hi hlen hmatch
      exact .inl ⟨stop, _, rfl, hstart, by omega⟩

theorem primitive_satisfy (test : Char → Call Bool) (expected : String) :
    Primitive expected (.satisfy test expected) := by
  intro s i w r w' hi hlen h
  unfold Action.satisfy at h
  split at h
  · next hlt =>
    obtain ⟨c, v, -, h⟩ := Run.bind_eq_ok.mp h
    obtain ⟨met, v', -, h⟩ := Run.bind_eq_ok.mp h
    split at h
    · obtain ⟨rfl, -⟩ := Run.pure_eq_ok.mp h
      exact .inl ⟨_, _, rfl, by omega, by omega⟩
    · obtain ⟨rfl, -⟩ := Run.pure_eq_ok.mp h
      exact .inr rfl
  · obtain ⟨rfl, -⟩ := Run.pure_eq_ok.mp h
    exact .inr rfl

/-- A run of characters is no longer than the text it is taken from. -/
theorem countWhile_le (test : Char → Call Bool) (t : Text) {n : Nat} {w w' : World}
    (h : countWhile test t w = .ok n w') : n ≤ t.length := by
  induction t generalizing n w w' with
  | nil =>
      obtain ⟨rfl, -⟩ := Run.pure_eq_ok.mp h
      exact Nat.le_refl _
  | cons c rest ih =>
      obtain ⟨met, v, -, h⟩ := Run.bind_eq_ok.mp h
      split at h
      · obtain ⟨m, v', hm, h⟩ := Run.bind_eq_ok.mp h
        obtain ⟨rfl, -⟩ := Run.pure_eq_ok.mp h
        exact Nat.succ_le_succ (ih hm)
      · obtain ⟨rfl, -⟩ := Run.pure_eq_ok.mp h
        exact Nat.zero_le _

theorem primitive_takeWhile (test : Char → Call Bool) (expected : String) :
    Primitive expected (.takeWhile test) := by
  intro s i w r w' hi hlen h
  unfold Action.takeWhile at h
  simp only [Text.ahead?, if_pos hi] at h
  obtain ⟨n, v, hn, h⟩ := Run.bind_eq_ok.mp h
  obtain ⟨rfl, -⟩ := Run.pure_eq_ok.mp h
  have hle := countWhile_le test _ hn
  simp only [Text.suffix, Text.bound, List.length_drop] at hle
  rw [if_neg (by omega)] at hle
  exact .inl ⟨_, _, rfl, by omega, by omega⟩

theorem primitive_anyChar : Primitive "any character" .anyChar := by
  intro s i w r w' hi hlen h
  unfold Action.anyChar at h
  split at h
  · next hlt =>
    obtain ⟨c, v, -, h⟩ := Run.bind_eq_ok.mp h
    obtain ⟨rfl, -⟩ := Run.pure_eq_ok.mp h
    exact .inl ⟨_, _, rfl, by omega, by omega⟩
  · obtain ⟨rfl, -⟩ := Run.pure_eq_ok.mp h
    exact .inr rfl

theorem primitive_succeed (v : Value) (expected : String) : Primitive expected (.succeed v) := by
  intro s i w r w' hi hlen h
  obtain ⟨rfl, -⟩ := Run.pure_eq_ok.mp h
  exact .inl ⟨i, v, rfl, Int.le_refl i, hlen⟩

theorem primitive_fail (expected : String) : Primitive expected (.fail expected) := by
  intro s i w r w' hi hlen h
  obtain ⟨rfl, -⟩ := Run.pure_eq_ok.mp h
  exact .inr rfl

theorem primitive_eof : Primitive "end of input" .eof := by
  intro s i w r w' hi hlen h
  obtain ⟨rfl, -⟩ := Run.pure_eq_ok.mp h
  split
  · exact .inr rfl
  · exact .inl ⟨i, .null, rfl, Int.le_refl i, hlen⟩

theorem primitive_position (expected : String) : Primitive expected .position := by
  intro s i w r w' hi hlen h
  obtain ⟨p, v, -, h⟩ := Run.bind_eq_ok.mp h
  obtain ⟨rfl, -⟩ := Run.pure_eq_ok.mp h
  exact .inl ⟨i, _, rfl, Int.le_refl i, hlen⟩

theorem primitive_index (expected : String) : Primitive expected .index := by
  intro s i w r w' hi hlen h
  obtain ⟨rfl, -⟩ := Run.pure_eq_ok.mp h
  exact .inl ⟨i, _, rfl, Int.le_refl i, hlen⟩

theorem primitive_rest (expected : String) : Primitive expected .rest := by
  intro s i w r w' hi hlen h
  obtain ⟨rfl, -⟩ := Run.pure_eq_ok.mp h
  exact .inl ⟨s.length, _, rfl, hlen, Int.le_refl _⟩

theorem primitive_trace (label expected : String) : Primitive expected (.trace label) := by
  intro s i w r w' hi hlen h
  obtain ⟨on, v, -, h⟩ := Run.bind_eq_ok.mp h
  have hr : Reply.ok i .null = r := by
    split at h
    · obtain ⟨u, v', -, h⟩ := Run.bind_eq_ok.mp h
      exact (Run.pure_eq_ok.mp h).1
    · exact (Run.pure_eq_ok.mp h).1
  exact .inl ⟨i, .null, hr.symm, Int.le_refl i, hlen⟩

/-! Primitives ask nothing of the world, but for traces, which ask whether records pass. -/

theorem blind_charAt (s : Text) (i : Int) : (charAt s i).Blind := by
  unfold charAt
  split
  · exact .pure _
  · exact .fault _

theorem blind_countWhile (test : Char → Call Bool) (s : Text) : (countWhile test s).Blind := by
  induction s with
  | nil => exact .pure _
  | cons c rest ih =>
      refine .bind (.ofCall _) fun met => .ite ?_ (.pure _)
      exact ih.bind fun _ => .pure _

theorem blind_string (t : String) (s : Text) (i : Int) : (string t s i).Blind :=
  .ite (.pure _) (.pure _)

theorem blind_pattern (p : Pattern) (group : Nat) (s : Text) (i : Int) :
    (pattern p group s i).Blind := by
  unfold pattern
  split
  · exact .pure _
  · exact .pure _

theorem blind_satisfy (test : Char → Call Bool) (expected : String) (s : Text) (i : Int) :
    (satisfy test expected s i).Blind := by
  refine .ite ((blind_charAt s i).bind fun c => ?_) (.pure _)
  exact .bind (.ofCall _) fun met => .ite (.pure _) (.pure _)

theorem blind_takeWhile (test : Char → Call Bool) (s : Text) (i : Int) :
    (takeWhile test s i).Blind := by
  unfold takeWhile
  split
  · exact .fault _
  · exact (blind_countWhile test _).bind fun _ => .pure _

theorem blind_anyChar (s : Text) (i : Int) : (anyChar s i).Blind :=
  .ite ((blind_charAt s i).bind fun _ => .pure _) (.pure _)

theorem blind_position (s : Text) (i : Int) : (position s i).Blind :=
  .bind (.ofExcept _) fun _ => .pure _

theorem plain_tracing : tracing.Plain :=
  fun level => ⟨.answer (Level.debug.passes level), fun _ hw => hw ▸ rfl⟩

theorem plain_writeTrace (label : String) (s : Text) (i : Int) :
    (writeTrace label s i).Plain :=
  .bind (.ofExcept _) fun _ => .record _ _ _

theorem plain_trace (label : String) (s : Text) (i : Int) : (trace label s i).Plain := by
  refine plain_tracing.bind fun on => .ite ?_ (.pure _)
  exact (plain_writeTrace label s i).bind fun _ => .pure _

end Descent.Action
