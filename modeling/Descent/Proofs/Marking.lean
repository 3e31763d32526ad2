/-
# Marks

A mark keeps the positions between which a value was read. To find them nothing has to be done
that a run could show: a position inside the input can always be told, it consumes nothing and
meets no failure, so it leaves no trace in the reply that it is merged with. And since no parser
stops before its start, the second position does not stand before the first one.
-/

import Descent.Proofs.Equivalence
import Descent.Proofs.Locating

namespace Descent

namespace Parser

variable {p : Parser} {n : Nat} {s : Text} {i : Int} {w w' : World} {r : Reply} {start : Position}

/-- A position that can be told is yielded at once. -/
theorem run_position (h : Position.locate s i = .ok start) (n : Nat) (w : World) :
    Parser.position.run (n + 1) s i w = .ok (.ok i (.position start)) w := by
  change Action.position s i w = _
  rw [Action.position, h]
  rfl

/-- To ask for the position first makes no difference to what comes next. -/
theorem run_position_bind (hi : 0 ≤ i) (hlen : i ≤ s.length) (h : Position.locate s i = .ok start)
    (f : Value → Parser) (n : Nat) (w : World) :
    (Parser.position.bind f).run n s i w = (f (.position start)).run n s i w := by
  cases n with
  | zero => rfl
  | succ n =>
      rw [run_bind_of_success (run_position h n w) rfl]
      change ((f (.position start)).run (n + 1) s i >>= _) w = _
      cases hnext : (f (.position start)).run (n + 1) s i w with
      | ok next v =>
          have hfurthest := neg_one_le_furthest_of_run hi hlen hnext
          rw [Run.bind_of_ok hnext, Reply.mergeWith_ok next hfurthest]
          rfl
      | error halt v => exact Run.bind_of_error hnext

/-- A mark wraps the value of a success and changes nothing else of it. -/
theorem run_mark_of_success {stop : Position} (hi : 0 ≤ i) (hlen : i ≤ s.length)
    (hstart : Position.locate s i = .ok start) (h : p.run n s i w = .ok r w')
    (hok : r.status = true) (hstop : Position.locate s r.index = .ok stop) :
    p.mark.run n s i w = .ok { r with value := .mark start r.value stop } w' := by
  cases n with
  | zero => cases h
  | succ n =>
      obtain ⟨hj, hjlen⟩ := index_of_run hi hlen h hok
      have hfurthest := neg_one_le_furthest_of_run hi hlen h
      have hwrapped : (Parser.position.map fun v => .answer
          (markOf (.position start) r.value v)).run (n + 1) s r.index w' =
            .ok (.ok r.index (.mark start r.value stop)) w' :=
        run_map_of_success (Int.le_trans hi hj) hjlen (run_position hstop n w') rfl
      rw [mark, run_position_bind hi hlen hstart, run_bind_of_success h hok,
        Run.bind_of_ok hwrapped, Reply.ok_mergeWith_eq hfurthest hok]
      rfl

/-- Marks only observe. Where a parser halts, so does its mark, in the same way; and the mark of
a failure is that failure. A success keeps its index and all that was met on the way to it, and its
value is wrapped with the positions at its start and at its stop, both of which can be told and of
which the second does not stand before the first. -/
theorem mark_observes (p : Parser) (budget : Nat) (s : Text) (i : Int) (w : World) (hi : 0 ≤ i)
    (hlen : i ≤ s.length) :
    (∀ halt w', p.run budget s i w = .error halt w' → p.mark.run budget s i w = .error halt w') ∧
    (∀ r w', p.run budget s i w = .ok r w' → r.status = false →
      p.mark.run budget s i w = .ok r w') ∧
    (∀ r w', p.run budget s i w = .ok r w' → r.status = true →
      ∃ start stop, Position.locate s i = .ok start ∧ Position.locate s r.index = .ok stop ∧
        ¬ stop.Before start ∧
        p.mark.run budget s i w = .ok { r with value := .mark start r.value stop } w') := by
  obtain ⟨start, hstart, -⟩ := Position.exists_locate_eq hi hlen
  refine ⟨fun halt w' h => ?_, fun r w' h hfail => ?_, fun r w' h hok => ?_⟩
  · rw [mark, run_position_bind hi hlen hstart]
    exact run_bind_of_halt h
  · rw [mark, run_position_bind hi hlen hstart]
    exact run_bind_of_failure h hfail
  · obtain ⟨hj, hjlen⟩ := index_of_run hi hlen h hok
    obtain ⟨stop, hstop, -⟩ := Position.exists_locate_eq (Int.le_trans hi hj) hjlen
    refine ⟨start, stop, hstart, hstop, ?_, run_mark_of_success hi hlen hstart h hok hstop⟩
    rw [Position.before_iff_of_locate hstop hstart]
    exact Int.not_lt.mpr hj

/-- A text with a line break in it, read behind a first attempt that failed at the same place. -/
theorem mark_observes_of_broken_line :
    let p := (Parser.string "b").orElse (.string "a\n")
    let s := ['x', 'a', '\n', 'c']
    (0 ≤ (1 : Int) ∧ (1 : Int) ≤ s.length) ∧
    p.run 1 s 1 {} = .ok ⟨true, 3, .str "a\n", 1, .singleton "'b'"⟩ {} ∧
    ¬ Position.Before ⟨3, 2, 1⟩ ⟨1, 1, 2⟩ ∧
    p.mark.run 1 s 1 {} =
      .ok ⟨true, 3, .mark ⟨1, 1, 2⟩ (.str "a\n") ⟨3, 2, 1⟩, 1, .singleton "'b'"⟩ {} := by
  intro p s
  have hrun : p.run 1 s 1 {} = .ok ⟨true, 3, .str "a\n", 1, .singleton "'b'"⟩ {} := rfl
  obtain ⟨start, stop, hstart, hstop, hbefore, hmark⟩ :=
    (mark_observes p 1 s 1 {} (by decide) (by decide)).2.2 _ _ hrun rfl
  obtain rfl : (⟨1, 1, 2⟩ : Position) = start := Except.ok.inj (Eq.trans rfl hstart)
  obtain rfl : (⟨3, 2, 1⟩ : Position) = stop := Except.ok.inj (Eq.trans rfl hstop)
  exact ⟨by decide, hrun, hbefore, hmark⟩

end Parser

end Descent
