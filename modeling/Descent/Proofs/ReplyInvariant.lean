/-
# Replies of whole runs

What the reply invariant says about plain runs. The first result bounds every
offset that a run can show: the index and the furthest failure of its reply, and
the places where parsers are started in its course, also if the run comes to no
reply. The second says that no failure is lost and none is invented: the furthest
failure of a reply is the latest in the log of its run, and what it expects are
exactly the expectations noted there.
-/

import Descent.Proofs.Faithful

namespace Descent

namespace Reply.Meets

variable {s : Text} {i : Int} {log : FailureLog} {r : Reply}

/-- Without an entry in the log there is no furthest failure. -/
theorem furthest_of_nil (h : r.Meets s i []) : r.furthest = -1 ∧ r.expected = ∅ := by
  refine ⟨h.sums.furthest_eq, Expectation.ext_mem fun d => ?_⟩
  rw [h.sums.mem_expected_iff]
  simp

/-- With an entry in the log the furthest failure lies behind the start. -/
theorem furthest_of_ne_nil (h : r.Meets s i log) (hi : 0 ≤ i) (hne : log ≠ []) :
    i ≤ r.furthest ∧ r.furthest ≤ s.length ∧ r.expected ≠ ∅ := by
  obtain ⟨d, hd⟩ := FailureLog.exists_mem_latest hne
    fun entry hentry => Int.le_trans hi (h.within entry hentry).1
  rw [← h.sums.furthest_eq] at hd
  refine ⟨(h.within _ hd).1, (h.within _ hd).2, fun hempty => ?_⟩
  have hmem : d ∈ r.expected := (h.sums.mem_expected_iff d).mpr hd
  rw [hempty] at hmem
  exact Expectation.not_mem_empty hmem

end Reply.Meets

namespace Parser

variable {p : Parser} {budget : Nat} {s : Text} {i : Int} {w w' : World} {r : Reply}

/-- A run that comes to a reply is one visit with that reply. -/
theorem exists_watched_eq (h : p.run budget s i w = .ok r w') :
    ∃ parts, p.watched budget s i w = ([.mk p i (some r) parts], .ok r w') := by
  cases budget with
  | zero => cases h
  | succ budget =>
      obtain ⟨act, hact⟩ := p.exists_action_eq_visit (watched budget) budget
      have hwatched : p.watched (budget + 1) = Watched.visit p act := hact
      rw [← watched_snd, hwatched] at h
      rw [hwatched]
      exact Watched.visit_of_ok h

/-- The reply of a run inside the input meets the invariant for the log of the
visit that the run is. -/
theorem meets_of_run (hi : 0 ≤ i) (hlen : i ≤ s.length) (h : p.run budget s i w = .ok r w') :
    ∃ parts, p.watched budget s i w = ([.mk p i (some r) parts], .ok r w') ∧
      r.Meets s i (Visit.failures s (.mk p i (some r) parts)) := by
  obtain ⟨parts, hwatched⟩ := exists_watched_eq h
  have hpost := (Watched.faithful_watched budget p s i hi hlen w).2 r w'
  rw [hwatched] at hpost
  have hmeets := hpost rfl
  simp only [Visit.failuresOf_singleton] at hmeets
  exact ⟨parts, hwatched, hmeets⟩

/-- A success stops between its start and the end of the input. -/
theorem index_of_run (hi : 0 ≤ i) (hlen : i ≤ s.length) (h : p.run budget s i w = .ok r w')
    (hok : r.status = true) : i ≤ r.index ∧ r.index ≤ s.length := by
  obtain ⟨parts, -, hr⟩ := meets_of_run hi hlen h
  exact hr.success hok

/-- A furthest failure lies at an offset, or at `-1` if there is none. -/
theorem neg_one_le_furthest_of_run (hi : 0 ≤ i) (hlen : i ≤ s.length)
    (h : p.run budget s i w = .ok r w') : -1 ≤ r.furthest := by
  obtain ⟨parts, -, hr⟩ := meets_of_run hi hlen h
  rw [hr.sums.furthest_eq]
  exact FailureLog.neg_one_le_latest _

/-- A failure lies between the start and the end of the input, and expects
something there. -/
theorem furthest_of_run (hi : 0 ≤ i) (hlen : i ≤ s.length) (h : p.run budget s i w = .ok r w')
    (hfail : r.status = false) : i ≤ r.furthest ∧ r.furthest ≤ s.length ∧ r.expected ≠ ∅ := by
  obtain ⟨parts, -, hr⟩ := meets_of_run hi hlen h
  exact hr.furthest_of_ne_nil hi (hr.failure hfail).2.2

/-- Every run inside the input stays inside it. A success stops between its start
and the end, and its furthest failure, if it met one, lies there too; a failure has
neither index nor value, and its furthest failure lies there. Every parser that is
started in the course of the run is started between the start and the end,
whichever way the run itself ends. -/
theorem run_stays_inside (p : Parser) (budget : Nat) (s : Text) (i : Int) (w : World)
    (hi : 0 ≤ i) (hlen : i ≤ s.length) :
    (∀ r w', p.run budget s i w = .ok r w' →
      (r.status = true →
        (i ≤ r.index ∧ r.index ≤ s.length) ∧
          (r.furthest = -1 ∧ r.expected = ∅ ∨
            i ≤ r.furthest ∧ r.furthest ≤ s.length ∧ r.expected ≠ ∅)) ∧
      (r.status = false →
        r.index = -1 ∧ r.value = .null ∧
          i ≤ r.furthest ∧ r.furthest ≤ s.length ∧ r.expected ≠ ∅)) ∧
    (p.watched budget s i w).2 = p.run budget s i w ∧
    ∀ start ∈ Visit.startsOf (p.watched budget s i w).1,
      i ≤ start.2 ∧ start.2 ≤ s.length := by
  refine ⟨fun r w' hrun => ?_, watched_snd budget p s i w, ?_⟩
  · obtain ⟨parts, -, hr⟩ := meets_of_run hi hlen hrun
    constructor
    · intro hok
      refine ⟨index_of_run hi hlen hrun hok, ?_⟩
      by_cases hlog : Visit.failures s (.mk p i (some r) parts) = []
      · rw [hlog] at hr
        exact .inl hr.furthest_of_nil
      · exact .inr (hr.furthest_of_ne_nil hi hlog)
    · intro hfail
      obtain ⟨hindex, hvalue, -⟩ := hr.failure hfail
      exact ⟨hindex, hvalue, furthest_of_run hi hlen hrun hfail⟩
  · exact (Watched.faithful_watched budget p s i hi hlen w).1

/-- A loop that starts behind the first character, makes two turns and is then
refused: the failure lies where the third turn was tried. -/
theorem run_stays_inside_of_refused_loop :
    ∃ r w', (((Parser.string "ab").orElse (.string "a")).many.skip .eof).run 6
        ['x', 'a', 'b', 'a', 'c'] 1 {} = .ok r w' ∧
      (0 ≤ (1 : Int) ∧ (1 : Int) ≤ ['x', 'a', 'b', 'a', 'c'].length) ∧
      r.status = false ∧ r.furthest = 4 ∧
      (r.index = -1 ∧ r.value = .null ∧ 1 ≤ r.furthest ∧ r.furthest ≤ 5 ∧ r.expected ≠ ∅) := by
  refine ⟨_, _, rfl, by decide, rfl, rfl, ?_⟩
  exact ((run_stays_inside (((Parser.string "ab").orElse (.string "a")).many.skip .eof) 6
    ['x', 'a', 'b', 'a', 'c'] 1 {} (by decide) (by decide)).1 _ _ rfl).2 rfl

/-- The reply of a run inside the input carries the latest offset of the run's
failure log, and expects exactly what the log notes at that offset. -/
theorem reply_sums_failures (p : Parser) (budget : Nat) (s : Text) (i : Int) (w w' : World)
    (r : Reply) (hi : 0 ≤ i) (hlen : i ≤ s.length) (hrun : p.run budget s i w = .ok r w') :
    ∃ parts, p.watched budget s i w = ([.mk p i (some r) parts], .ok r w') ∧
      r.furthest = FailureLog.latest (Visit.failures s (.mk p i (some r) parts)) ∧
      ∀ d, d ∈ r.expected ↔
        (r.furthest, d) ∈ Visit.failures s (.mk p i (some r) parts) := by
  obtain ⟨parts, hwatched, hr⟩ := meets_of_run hi hlen hrun
  exact ⟨parts, hwatched, hr.sums.furthest_eq, hr.sums.mem_expected_iff⟩

/-- The alternatives of the third turn and the end of the input were all tried at
the same offset. One of them reports under a label. -/
theorem reply_sums_failures_of_refused_loop :
    ∃ r w' parts,
      ((((Parser.string "ab").label "pair").orElse (.string "a")).many.skip .eof).watched 6
          ['a', 'b', 'a', 'c'] 0 {} =
        ([.mk ((((Parser.string "ab").label "pair").orElse (.string "a")).many.skip .eof) 0
          (some r) parts], .ok r w') ∧
      r.furthest = 3 ∧ r.expected.toList = ["'a'", "end of input", "pair"] ∧
      ∀ d, d ∈ r.expected ↔ (r.furthest, d) ∈ Visit.failures ['a', 'b', 'a', 'c']
        (.mk ((((Parser.string "ab").label "pair").orElse (.string "a")).many.skip .eof) 0
          (some r) parts) := by
  obtain ⟨parts, hwatched, -, hexpected⟩ := reply_sums_failures
    ((((Parser.string "ab").label "pair").orElse (.string "a")).many.skip .eof) 6
    ['a', 'b', 'a', 'c'] 0 {} _ _ (by decide) (by decide) rfl
  exact ⟨_, _, parts, hwatched, rfl, rfl, hexpected⟩

end Parser

end Descent
