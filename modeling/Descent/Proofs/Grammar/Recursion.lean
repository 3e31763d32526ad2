/-
# Recursive grammars

A rule of a grammar that contains itself is reached through a handle. What the handle
reads, refuses and yields is what the rule behind it does, with one step less of budget.
-/

import Descent.Proofs.Grammar.Yield
import Descent.Proofs.Reference

namespace Descent

/-- The reference leads to a parser. -/
def World.Targets (w : World) (r : Nat) (target : Parser) : Prop :=
  ∃ dispatched, w.references[r]? = some ⟨.dispatch r, some target, dispatched⟩

namespace World

variable {w : World} {r : Nat} {target : Parser}

theorem quiet_targets (r : Nat) (target : Parser) : Quiet fun w => w.Targets r target :=
  fun _ _ h => h

theorem Targets.markDispatched (h : w.Targets r target) :
    (w.markDispatched r).Targets r target := by
  obtain ⟨dispatched, hcell⟩ := h
  refine ⟨true, ?_⟩
  rw [getElem?_markDispatched, if_pos rfl, hcell]
  rfl

theorem Targets.behaviour_eq (h : w.Targets r target) :
    w.behaviour (.reference r) = .dispatch r := by
  obtain ⟨dispatched, hcell⟩ := h
  simp only [behaviour, hcell]

theorem targets_iff_referent :
    w.Targets r target ↔ w.referent r = some (.dispatch r, some target) := by
  unfold Targets referent
  constructor
  · rintro ⟨dispatched, hcell⟩
    rw [hcell]
    rfl
  · intro h
    obtain ⟨⟨behaviour, target, mark⟩, hcell, heq⟩ := Option.map_eq_some_iff.mp h
    cases heq
    exact ⟨mark, hcell⟩

end World

namespace Parser

variable {r n : Nat} {target : Parser} {t rest text : Text} {v : Value}
  {R : Text → Value → Prop}

/-- A run through a reference goes on with the parser it leads to. -/
theorem run_reference {w : World} (h : w.Targets r target) (n : Nat) (s : Text) (i : Int) :
    (Parser.reference r).run (n + 1) s i w = target.run n s i (w.markDispatched r) := by
  obtain ⟨marked, hmarked⟩ := h.markDispatched
  have hfollow : (Parser.reference r).run (n + 1) s i w =
      (w.behaviour (.reference r)).perform (run n) s i w := rfl
  have henter : Run.enterReference r w =
      .ok (((w.markDispatched r).references[r]?).bind (·.target)) (w.markDispatched r) := rfl
  rw [hfollow, h.behaviour_eq]
  refine (Run.bind_of_ok henter).trans ?_
  rw [hmarked]
  rfl

theorem Reads.reference (h : target.Reads (World.Targets · r target) t rest v) :
    (Parser.reference r).Reads (World.Targets · r target) t rest v := by
  intro before w hw
  have htarget := h before (w.markDispatched r) hw.markDispatched
  exact (Run.Settles.of_succ htarget).of_eq fun n => run_reference hw n _ _

theorem Refuses.reference (h : target.Refuses (World.Targets · r target) text) :
    (Parser.reference r).Refuses (World.Targets · r target) text := by
  intro before w hw
  have htarget := h before (w.markDispatched r) hw.markDispatched
  exact (Run.Settles.of_succ htarget).of_eq fun n => run_reference hw n _ _

/-- What the parser behind a reference yields may be derived from what the reference yields,
since each passage takes a step of the budget. -/
theorem yields_reference
    (h : ∀ n, (Parser.reference r).Yields (World.Targets · r target) n R →
      target.Yields (World.Targets · r target) n R) (n : Nat) :
    (Parser.reference r).Yields (World.Targets · r target) n R := by
  induction n with
  | zero => exact fun _ _ _ hw => .of_eq .unfinished (run_reference hw 0 _ _)
  | succ n ih =>
      intro before text w hw
      exact (h n ih before text _ hw.markDispatched).of_eq (run_reference hw (n + 1) _ _)

section Deferred

variable {l : Nat} {rule : String} {p : Parser} {w u : World}

/-- A rule that has been built is run as the parser that was built. -/
theorem run_deferred_of_run (h : w.deferred[l]? = some ⟨rule, .run p⟩) (n : Nat) (s : Text)
    (i : Int) : (Parser.deferred l).run (n + 1) s i w = p.run n s i w := by
  have hbehaviour : w.behaviour (.deferred l) = .run p := by simp only [World.behaviour, h]
  have hfollow : (Parser.deferred l).run (n + 1) s i w =
      (w.behaviour (.deferred l)).perform (run n) s i w := rfl
  rw [hfollow, hbehaviour]
  rfl

/-- A rule that has not been built is built and then run. -/
theorem run_deferred_of_build (h : w.deferred[l]? = some ⟨rule, .build l⟩)
    (hbuild : Behaviour.buildRule l w = .ok () u) (n : Nat) (s : Text) (i : Int) :
    (Parser.deferred l).run (n + 1) s i w = (Parser.deferred l).run n s i u := by
  have hbehaviour : w.behaviour (.deferred l) = .build l := by simp only [World.behaviour, h]
  have hfollow : (Parser.deferred l).run (n + 1) s i w =
      (w.behaviour (.deferred l)).perform (run n) s i w := rfl
  rw [hfollow, hbehaviour]
  exact Run.bind_of_ok hbuild

end Deferred

end Parser

end Descent
