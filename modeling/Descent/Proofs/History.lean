/-
# Runs do not depend on earlier runs

A session first sets up its world and then runs parsers in it. Each run finds the
world as the earlier ones have left it: rules they have built are kept, references
they have gone through are marked, and a run that ended in a fault has left its own
traces. None of this shows in what a later run comes to. It ends if and only if it
would have ended right after the setting up, with the same answer or the same fault,
and with the same events but for the building of rules.
-/

import Descent.Proofs.Memory
import Descent.Proofs.SetUp

namespace Descent

open Filter

namespace Report

variable {α : Type}

/-- What was done came to an end within its budget. -/
def Ended (r : Report α) : Prop :=
  match r.result with
  | .error .unfinished => False
  | _ => True

instance : DecidablePred (Ended (α := α))
  | ⟨.error .unfinished, _⟩ => .isFalse id
  | ⟨.error (.fault _), _⟩ => .isTrue trivial
  | ⟨.ok _, _⟩ => .isTrue trivial

/-- The events, without the building of rules. -/
def remarks (r : Report α) : List Event :=
  r.events.filter (!·.isBuilt)

/-- Two reports tell the same but for the building of rules. -/
structure Agrees (r r' : Report α) : Prop where
  result_eq : r.result = r'.result
  remarks_eq : r.remarks = r'.remarks

end Report

/-- The reply that an answer consists of. -/
def Answer.reply? : Answer → Option Reply
  | .reply r => some r
  | _ => none

theorem Report.result_eq_of_reply? {report : Report Answer} {r : Reply}
    (h : report.result.toOption.bind Answer.reply? = some r) : report.result = .ok (.reply r) := by
  obtain ⟨result, events⟩ := report
  cases result with
  | error halt => cases h
  | ok answer =>
      cases answer with
      | reply r' =>
          cases h
          rfl
      | _ => cases h

/-- Steps performed one after another lead from one world to another, each within a
budget in which it comes to an end. -/
inductive Session.Leads : World → List Step → World → Prop
  | nil (w : World) : Leads w [] w
  | cons {w w' : World} {step : Step} {steps : List Step} (budget : Nat)
      (ended : (observe w (step.perform budget)).1.Ended)
      (rest : Leads (observe w (step.perform budget)).2 steps w') : Leads w (step :: steps) w'

/-- The world after the steps of a session. -/
def Session.worldAfter (budget : Nat) (w : World) : List Step → World
  | [] => w
  | step :: steps => worldAfter budget (observe w (step.perform budget)).2 steps

/-- The steps of a session, if all of them end, lead to the world after them. -/
theorem Session.leads_worldAfter {budget : Nat} {steps : List Step} {w : World}
    (h : ∀ report ∈ run budget w steps, report.Ended) :
    Leads w steps (worldAfter budget w steps) := by
  induction steps generalizing w with
  | nil => exact .nil w
  | cons step steps ih =>
      have hreports : run budget w (step :: steps) = (observe w (step.perform budget)).1 ::
          run budget (observe w (step.perform budget)).2 steps := rfl
      rw [hreports, List.forall_mem_cons] at h
      exact .cons budget h.1 (ih h.2)

namespace World

variable {o w w' : World} {p p' : Parser} {s : Text} {n : Nat}

/-- Parses of whole inputs by parsers that are alike come to the same. -/
theorem follows_parse (ho : o.Unrun) (h : o.Accords w w') (hp : p.Alike (Counterparts w w') p') :
    (Comparison.lineage o).Follows (fun _ _ a b => a = b) (p.parse n s)
      (fun m => p'.parse m s) w w' := by
  have hskip : (p.skip .eof).Alike (Counterparts w w') (p'.skip .eof) :=
    .skip hp (.base (.primitive .eof))
  apply (runAlike ho n w w' _ _ s hskip w w' 0 0 (.refl h) rfl).bind
  intro v v' r r' hreach hr
  cases hr
  apply Comparison.Follows.ite Iff.rfl
  · exact fun _ => .pure hreach.related rfl
  · intro _
    have hplain (position : Position) := Run.Plain.record .debug .parsing
      (Failure.record ⟨position, r.expectedList⟩)
    exact (accompanies_lineage o).plain
      (.bind (.ofExcept _) fun position => (hplain position).bind fun _ => .pure _) hreach.related

theorem follows_parsePair (ho : o.Unrun) (h : o.Accords w w')
    (hp : p.Alike (Counterparts w w') p') :
    (Comparison.lineage o).Follows (fun _ _ a b => a = b) (p.parsePair n s)
      (fun m => p'.parsePair m s) w w' := by
  apply (accompanies_lineage o).bind_plain (follows_parse ho h hp)
  rintro (a | f)
  · exact .pure _
  · exact .pure _

/-- Performing a step that runs a parser comes to the same in worlds that accord. -/
theorem follows_perform (ho : o.Unrun) (h : o.Accords w w') {step : Step} (hstep : step.IsRun) :
    (Comparison.lineage o).Follows (fun _ _ a b => a = b) (step.perform n)
      (fun m => step.perform m) w w' := by
  have hc := accompanies_lineage o
  have built (d : Description) := (builds_lineage ho).build d [] _ _ h
  cases step with
  | parse d input style =>
      apply (built d).bind
      intro v v' p p' hreach hp
      apply hc.bind_plain (follows_parse ho hreach.related hp)
      rintro (a | f)
      · exact .pure _
      · exact .pure _
  | call d input offset =>
      apply (built d).bind
      intro v v' p p' hreach hp
      apply hc.bind_plain
        (runAlike ho n v v' p p' input hp v v' offset offset (.refl hreach.related) rfl)
      exact fun r => .pure _
  | parseValue d input =>
      apply (built d).bind
      intro v v' p p' hreach hp
      apply hc.bind_plain _ fun _ => .pure _
      apply hc.bind_plain (follows_parse ho hreach.related hp)
      rintro (a | f)
      · exact .pure _
      · exact .pure _
  | parsePair d input =>
      apply (built d).bind
      intro v v' p p' hreach hp
      exact hc.bind_plain (follows_parsePair ho hreach.related hp) fun _ => .pure _
  | parseShown d input =>
      apply (built d).bind
      intro v v' p p' hreach hp
      apply hc.bind_plain _ fun _ => .pure _
      apply hc.bind_plain (follows_parsePair ho hreach.related hp)
      rintro ⟨a, _ | e⟩
      · exact .pure _
      · exact .pure _
  | _ => exact hstep.elim

/-- A world with an empty journal. -/
def cleared (w : World) : World :=
  { w with journal := [] }

theorem Descends.cleared (h : o.Descends w) : o.Descends w.cleared :=
  h.congr rfl rfl rfl (fun _ => rfl) rfl

end World

namespace Session

variable {α : Type} {o w w' v : World} {step : Step} {n : Nat}

theorem observe_of_ok {x : Run α} {a : α} (h : x w.cleared = .ok a v) :
    observe w x = (⟨.ok a, v.events⟩, v) := by
  have hrun : x.run { w with journal := [] } = .ok a v := h
  unfold observe
  rw [hrun]

theorem observe_of_error {x : Run α} {halt : Halt} (h : x w.cleared = .error halt v) :
    observe w x = (⟨.error halt, v.events⟩, v) := by
  have hrun : x.run { w with journal := [] } = .error halt v := h
  unfold observe
  rw [hrun]

/-- A step that is reported with an answer has ended with it. -/
theorem exists_of_observe_eq_ok {x : Run α} {a : α} (h : (observe w x).1.result = .ok a) :
    ∃ v, x w.cleared = .ok a v := by
  rcases hx : x w.cleared with ⟨b, v⟩ | ⟨halt, v⟩
  · rw [observe_of_ok hx] at h
    cases h
    exact ⟨v, rfl⟩
  · rw [observe_of_error hx] at h
    cases h

/-- A call that is reported with a reply has built its parser and run it. -/
theorem exists_run_of_call {d : Description} {s : Text} {i : Int} {r : Reply}
    (h : (observe w (Step.perform n (.call d s i))).1.result = .ok (.reply r)) :
    ∃ p v u, d.build [] w.cleared = .ok p v ∧ p.run n s i v = .ok r u := by
  obtain ⟨u, hcall⟩ := exists_of_observe_eq_ok h
  obtain ⟨p, v, hbuild, hrun⟩ := Run.bind_eq_ok.mp hcall
  obtain ⟨reply, z, hreply, hpure⟩ := Run.bind_eq_ok.mp hrun
  cases (Run.pure_eq_ok.mp hpure).1
  exact ⟨p, v, z, hbuild, hreply⟩

/-- The events of a report are those of the world it leaves. -/
theorem remarks_eq_reverse (result : Except Halt α) (v : World) :
    (Report.mk result v.events).remarks = v.remarks.reverse := by
  unfold Report.remarks World.events World.remarks
  rw [List.filter_reverse]

/-- A run that ends in one world of a lineage leaves a world of the lineage, and ends
in the same way in every other one. -/
theorem eventually_agrees (ho : o.Unrun) (hw : o.Descends w) (hw' : o.Descends w')
    (hstep : step.IsRun) (hended : (observe w (step.perform n)).1.Ended) :
    o.Descends (observe w (step.perform n)).2 ∧
      ∀ᶠ m in atTop,
        (observe w' (step.perform m)).1.Agrees (observe w (step.perform n)).1 := by
  have haccord : o.Accords w.cleared w'.cleared := ⟨hw.cleared, hw'.cleared, rfl⟩
  rcases World.follows_perform (n := n) ho haccord hstep with ⟨u, hu⟩ | ⟨result, hmatch, hresult⟩
  · rw [observe_of_error hu] at hended
    exact hended.elim
  · generalize hx : step.perform n w.cleared = first at hmatch
    cases hmatch with
    | ok hreach hanswer =>
        cases hanswer
        rw [observe_of_ok hx]
        refine ⟨hreach.related.left, ?_⟩
        filter_upwards [hresult] with m hm
        rw [observe_of_ok hm]
        refine ⟨rfl, ?_⟩
        rw [remarks_eq_reverse, remarks_eq_reverse, hreach.related.remarks]
    | fault hreach hfault =>
        cases hfault
        rw [observe_of_error hx]
        refine ⟨hreach.related.left, ?_⟩
        filter_upwards [hresult] with m hm
        rw [observe_of_error hm]
        refine ⟨rfl, ?_⟩
        rw [remarks_eq_reverse, remarks_eq_reverse, hreach.related.remarks]

/-- Runs stay in the lineage. -/
theorem Leads.descends {history : List Step} (ho : o.Unrun) (hw : o.Descends w)
    (hruns : ∀ step ∈ history, step.IsRun) (h : Leads w history w') : o.Descends w' := by
  induction h with
  | nil w => exact hw
  | cons budget ended _ ih =>
      have hstep := hruns _ (List.mem_cons_self ..)
      have hnext := (eventually_agrees ho hw hw hstep ended).1
      exact ih hnext fun step hmem => hruns step (List.mem_cons_of_mem _ hmem)

/-- What each step leaves as it was holds after all of them. -/
theorem Leads.invariant {holds : World → Prop} {steps : List Step} (h : Leads w steps w')
    (hsteps : ∀ step ∈ steps, ∀ budget v, holds v →
      Run.Leaves holds (fun _ u => holds u) (step.perform budget) v.cleared)
    (hw : holds w) : holds w' := by
  induction h with
  | nil w => exact hw
  | @cons w w' step steps budget ended _ ih =>
      have hleaves := hsteps step (List.mem_cons_self ..) budget w hw
      apply ih
      · exact fun step hmem => hsteps step (List.mem_cons_of_mem _ hmem)
      · rcases hx : step.perform budget w.cleared with ⟨a, v⟩ | ⟨f | _, v⟩
        · rw [observe_of_ok hx]
          exact hleaves.1 a v hx
        · rw [observe_of_error hx]
          exact hleaves.2 f v hx
        · rw [observe_of_error hx] at ended
          exact ended.elim

/-- Setting up runs nothing. -/
theorem Leads.unrun {setUp : List Step} (hw : w.Unrun) (hsetUp : ∀ step ∈ setUp, ¬ step.IsRun)
    (h : Leads w setUp w') : w'.Unrun := by
  refine h.invariant (fun step hmem budget v hv => ?_) hw
  have hcleared : v.cleared.Unrun := hv.congr rfl rfl rfl
  exact Step.leaves_unrun (hsetUp step hmem) budget hcleared

/-- What a run comes to does not depend on the runs before it. Let a session set up
its world without running anything, and let it then run parsers in any order, each of
which comes to an end, be it in a fault. A further run then ends if and only if it
ends in the world that was set up, and however much budget both are given, they have
the same answer or the same fault, and the same events but for the building of
rules. -/
theorem history_independent (setUp history : List Step) (o w : World) (step : Step)
    (hsetUp : ∀ earlier ∈ setUp, ¬ earlier.IsRun) (hstart : Leads {} setUp o)
    (hruns : ∀ earlier ∈ history, earlier.IsRun) (hhistory : Leads o history w)
    (hstep : step.IsRun) :
    ((∃ budget, (observe w (step.perform budget)).1.Ended) ↔
      ∃ budget, (observe o (step.perform budget)).1.Ended) ∧
    ∀ budget budget', (observe w (step.perform budget)).1.Ended →
      (observe o (step.perform budget')).1.Ended →
      (observe w (step.perform budget)).1.Agrees (observe o (step.perform budget')).1 := by
  have ho : o.Unrun := hstart.unrun (.empty .warning) hsetUp
  have hoo : o.Descends o := ho.descends
  have how : o.Descends w := hhistory.descends ho hoo hruns
  have ends {v v' : World} (hv : o.Descends v) (hv' : o.Descends v') :
      (∃ budget, (observe v (step.perform budget)).1.Ended) →
        ∃ budget, (observe v' (step.perform budget)).1.Ended := by
    rintro ⟨budget, hended⟩
    obtain ⟨budget', hagrees⟩ := (eventually_agrees ho hv hv' hstep hended).2.exists
    refine ⟨budget', ?_⟩
    unfold Report.Ended
    rw [hagrees.result_eq]
    exact hended
  refine ⟨⟨ends how hoo, ends hoo how⟩, fun budget budget' hw' ho' => ?_⟩
  -- Both reports agree with those that the later run gives for large budgets.
  obtain ⟨large, hwlarge, holarge⟩ := ((eventually_agrees ho how how hstep hw').2.and
    (eventually_agrees ho hoo how hstep ho').2).exists
  exact ⟨hwlarge.result_eq.symm.trans holarge.result_eq,
    hwlarge.remarks_eq.symm.trans holarge.remarks_eq⟩

/-- A rule for nested brackets, run once and then a second time after a repetition
has ended in a fault. Only the first run builds the rule. -/
theorem history_independent_of_nested :
    ∃ o w, Leads {} [.rule "nested" (.join .orElse
        (.between (.atom (.string (.value (.str "(")))) (.atom (.string (.value (.str ")"))))
          (.deferred "nested" none))
        (.atom (.string (.value (.str "x"))))), .assign "p" (.deferred "nested" none)] o ∧
      Leads o [.call (.known "p") ['(', 'x', ')'] 0,
        .parseValue (.wrap .many (.atom (.pure (.value .null)))) ['x']] w ∧
      (observe o (Step.perform 6 (.call (.known "p") ['(', 'x', ')'] 0))).1.events.length = 2 ∧
      (observe w (Step.perform 6 (.call (.known "p") ['(', 'x', ')'] 0))).1.events.length = 0 ∧
      (observe w (Step.perform 6 (.call (.known "p") ['(', 'x', ')'] 0))).1.Agrees
        (observe o (Step.perform 6 (.call (.known "p") ['(', 'x', ')'] 0))).1 := by
  refine ⟨_, _, .cons 0 (by decide +kernel) (.cons 0 (by decide +kernel) (.nil _)),
    .cons 6 (by decide +kernel) (.cons 6 (by decide +kernel) (.nil _)), by decide +kernel,
    by decide +kernel, ?_⟩
  exact (history_independent _ _ _ _ _ (by simp [Step.IsRun])
    (.cons 0 (by decide +kernel) (.cons 0 (by decide +kernel) (.nil _)))
    (by simp [Step.IsRun])
    (.cons 6 (by decide +kernel) (.cons 6 (by decide +kernel) (.nil _))) (by exact trivial)).2 6 6
    (by decide +kernel) (by decide +kernel)

end Session

end Descent
