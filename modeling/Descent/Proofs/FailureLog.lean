/-
# Failure logs

The failure log of a visit lists where parsers failed in its course and what they
expected there. It is read off the visit alone: a parser that fails without having
started another one reports its own expectation, a label whose parser fails puts a
single entry in place of that parser's log, a negative look-ahead reports only
itself, and everything else reports whatever its parts have reported.

A reply sums up a log if it carries the latest offset of the log and exactly the
expectations noted there. Merging two replies sums up the two logs together,
whichever of them got further.
-/

import Descent.Proofs.Visit

namespace Descent

/-- Offsets at which parsers failed, with what they expected there. -/
abbrev FailureLog := List (Int × String)

namespace FailureLog

/-- The latest offset in a log, `-1` if there is none. -/
def latest : FailureLog → Int
  | [] => -1
  | (j, _) :: log => max j (latest log)

theorem neg_one_le_latest (log : FailureLog) : -1 ≤ log.latest := by
  induction log with
  | nil => exact Int.le_refl _
  | cons entry log ih =>
      simp only [latest]
      omega

theorem latest_append (first second : FailureLog) :
    latest (first ++ second) = max (latest first) (latest second) := by
  induction first with
  | nil =>
      have := neg_one_le_latest second
      simp only [List.nil_append, latest]
      omega
  | cons entry first ih =>
      simp only [List.cons_append, latest, ih]
      omega

/-- No entry stands after the latest offset. -/
theorem le_latest {log : FailureLog} {entry : Int × String} (h : entry ∈ log) :
    entry.1 ≤ log.latest := by
  induction log with
  | nil => cases h
  | cons first log ih =>
      simp only [latest]
      rcases List.mem_cons.mp h with rfl | h
      · omega
      · have := ih h
        omega

/-- The latest offset of a log that holds something is noted in it. -/
theorem exists_mem_latest {log : FailureLog} (hne : log ≠ [])
    (hlog : ∀ entry ∈ log, 0 ≤ entry.1) : ∃ d, (log.latest, d) ∈ log := by
  induction log with
  | nil => exact absurd rfl hne
  | cons first log ih =>
      obtain ⟨j, d⟩ := first
      have hj : 0 ≤ j := hlog (j, d) List.mem_cons_self
      by_cases hlater : latest log ≤ j
      · refine ⟨d, ?_⟩
        have hmax : latest ((j, d) :: log) = j := by
          simp only [latest]
          omega
        rw [hmax]
        exact List.mem_cons_self
      · have hrest : log ≠ [] := by
          rintro rfl
          simp only [latest] at hlater
          omega
        obtain ⟨e, he⟩ := ih hrest fun entry h => hlog entry (List.mem_cons_of_mem _ h)
        refine ⟨e, ?_⟩
        have hmax : latest ((j, d) :: log) = latest log := by
          simp only [latest]
          omega
        rw [hmax]
        exact List.mem_cons_of_mem _ he

end FailureLog

namespace Reply

/-- A reply carries the latest offset of a log and what was expected there. -/
structure Sums (r : Reply) (log : FailureLog) : Prop where
  furthest_eq : r.furthest = log.latest
  mem_expected_iff : ∀ d, d ∈ r.expected ↔ (r.furthest, d) ∈ log

theorem sums_ok (i : Int) (v : Value) : (Reply.ok i v).Sums [] where
  furthest_eq := rfl
  mem_expected_iff d := by simp [Reply.ok]

theorem sums_error (i : Int) (description : String) (hi : 0 ≤ i) :
    (Reply.error i description).Sums [(i, description)] where
  furthest_eq := by
    simp only [Reply.error, FailureLog.latest]
    omega
  mem_expected_iff d := by simp [Reply.error]

/-- What a reply sums up does not depend on its status, index and value. -/
theorem Sums.congr {r r' : Reply} {log : FailureLog} (h : r.Sums log)
    (hfurthest : r'.furthest = r.furthest) (hexpected : r'.expected = r.expected) :
    r'.Sums log where
  furthest_eq := hfurthest.trans h.furthest_eq
  mem_expected_iff d := by
    rw [hfurthest, hexpected]
    exact h.mem_expected_iff d

/-- An entry beyond the latest offset of a log is not in it. -/
theorem Sums.not_mem_of_lt {r : Reply} {log : FailureLog} (h : r.Sums log) {j : Int}
    (hj : r.furthest < j) (d : String) : (j, d) ∉ log := by
  intro hmem
  have hle := FailureLog.le_latest hmem
  rw [← h.furthest_eq] at hle
  simp only at hle
  omega

/-- Merging sums up the log of the older reply followed by that of the newer. -/
theorem Sums.mergeWith {newer older : Reply} {first second : FailureLog}
    (hnewer : newer.Sums second) (holder : older.Sums first) :
    (newer.mergeWith older).Sums (first ++ second) := by
  have hlatest : (first ++ second).latest = max older.furthest newer.furthest := by
    rw [FailureLog.latest_append, ← holder.furthest_eq, ← hnewer.furthest_eq]
  unfold Reply.mergeWith
  split
  · next hlt =>
    refine ⟨by omega, fun d => ?_⟩
    rw [hnewer.mem_expected_iff, List.mem_append, or_iff_right]
    exact holder.not_mem_of_lt hlt d
  · next hle =>
    split
    · next heq =>
      refine ⟨by simp only; omega, fun d => ?_⟩
      simp only [Expectation.mem_union, List.mem_append]
      rw [hnewer.mem_expected_iff, holder.mem_expected_iff, heq, or_comm]
    · next hne =>
      refine ⟨by simp only; omega, fun d => ?_⟩
      simp only [List.mem_append]
      rw [holder.mem_expected_iff, or_iff_left]
      exact hnewer.not_mem_of_lt (by omega) d

@[simp] theorem mergeWith_status (newer older : Reply) :
    (newer.mergeWith older).status = newer.status := by
  unfold Reply.mergeWith
  split
  · rfl
  · split <;> rfl

@[simp] theorem mergeWith_index (newer older : Reply) :
    (newer.mergeWith older).index = newer.index := by
  unfold Reply.mergeWith
  split
  · rfl
  · split <;> rfl

@[simp] theorem mergeWith_value (newer older : Reply) :
    (newer.mergeWith older).value = newer.value := by
  unfold Reply.mergeWith
  split
  · rfl
  · split <;> rfl

/-- The later of the two furthest failures wins. -/
theorem mergeWith_furthest (newer older : Reply) :
    (newer.mergeWith older).furthest = max newer.furthest older.furthest := by
  unfold mergeWith
  split
  · omega
  · split
    · simp only
      omega
    · simp only
      omega

@[simp] theorem merge_status (newer : Reply) (context : Option Reply) :
    (newer.merge context).status = newer.status := by
  cases context with
  | none => rfl
  | some older => exact newer.mergeWith_status older

@[simp] theorem merge_index (newer : Reply) (context : Option Reply) :
    (newer.merge context).index = newer.index := by
  cases context with
  | none => rfl
  | some older => exact newer.mergeWith_index older

@[simp] theorem merge_value (newer : Reply) (context : Option Reply) :
    (newer.merge context).value = newer.value := by
  cases context with
  | none => rfl
  | some older => exact newer.mergeWith_value older

end Reply

namespace Parser

/-- What a parser reports when it fails without having started another one. -/
def expectation : Parser → String
  | .string t => "'" ++ t ++ "'"
  | .pattern p _ => p.describe
  | .satisfy _ expected => expected
  | .anyChar => "any character"
  | .fail expected => expected
  | .eof => "end of input"
  | .alt _ _ => "no alternatives"
  | .reference _ | .deferred _ => unboundExpectation
  | _ => ""

end Parser

namespace Visit

/-- Where the last of some visits stopped. -/
def stopOf : List Visit → Int
  | [.mk _ _ (some reply) _] => reply.index
  | _ => -1

/-- The log of a visit of a parser at an offset of an input, from its reply, its
parts, and the log that the parts have left. -/
def logFrom (s : Text) (i : Int) (reply : Option Reply) (parts : List Visit)
    (inner : FailureLog) (p : Parser) : FailureLog :=
  match p, reply with
  | _, none => inner
  | .label _ description, some reply =>
      if reply.status then inner else [(inner.latest, description)]
  | .notFollowedBy _ description, some reply =>
      if reply.status then [] else [(i, Action.unwanted s i (stopOf parts) description)]
  | p, some reply =>
      if parts.isEmpty && !reply.status then [(i, p.expectation)] else inner

/-- The log of a parser's visit is that of its parts, or its own expectation if it
failed without any. This is so for all parsers but labels and negative look-ahead. -/
def Ordinary (p : Parser) : Prop :=
  ∀ (s : Text) (i : Int) (reply : Reply) (parts : List Visit) (inner : FailureLog),
    logFrom s i (some reply) parts inner p =
      if parts.isEmpty && !reply.status then [(i, p.expectation)] else inner

mutual

/-- The failure log of a visit. -/
def failures (s : Text) : Visit → FailureLog
  | .mk p i reply parts => logFrom s i reply parts (failuresOf s parts) p

/-- The failure logs of visits one after another. -/
def failuresOf (s : Text) : List Visit → FailureLog
  | [] => []
  | v :: vs => v.failures s ++ failuresOf s vs

end

theorem failuresOf_append (s : Text) (us vs : List Visit) :
    failuresOf s (us ++ vs) = failuresOf s us ++ failuresOf s vs := by
  induction us with
  | nil => rfl
  | cons u us ih => simp [failuresOf, ih]

theorem failuresOf_singleton (s : Text) (v : Visit) : failuresOf s [v] = v.failures s := by
  simp [failuresOf]

end Visit

end Descent
