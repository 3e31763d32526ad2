/-
# Grammars without their traces

A grammar may also be left without the traces in its rules. Deferred rules make a difference
here: a rule that leads straight to another handle keeps what that one does at the moment, and
a trace around the handle keeps it from doing so. In worlds that were set up before anything
was run, the two come to the same, at whatever levels records pass and whatever was run since.
-/

import Descent.Proofs.Rephrasing
import Descent.Proofs.Tracing

namespace Descent

open Filter

namespace World

/-- Two worlds that have been set up alike, but for the traces in their rules and for the level
at which records pass. -/
structure Retraces (o o' : World) : Prop where
  names_eq : o.names = o'.names
  references_eq : o.references = o'.references
  deferred_eq : o.deferred = o'.deferred
  rules : ∀ rule, Option.Rel (Description.Retraced []) (lookup? rule o.rules)
    (lookup? rule o'.rules)

/-- The world with rules that are left without their traces. -/
def untraced (w : World) : World :=
  { w with rules := w.rules.map fun entry => (entry.1, entry.2.untraced) }

/-- The traces in all rules have labels that can be told. -/
def Labelled (w : World) : Prop :=
  ∀ rule d, lookup? rule w.rules = some d → d.Labelled []

theorem labelled_of_forall {w : World} (h : ∀ entry ∈ w.rules, entry.2.Labelled []) :
    w.Labelled := by
  intro rule d hd
  obtain ⟨entry, hfind, rfl⟩ := Option.map_eq_some_iff.mp hd
  exact h entry (List.mem_of_find?_eq_some hfind)

theorem lookup?_untraced (w : World) (rule : String) :
    lookup? rule w.untraced.rules = (lookup? rule w.rules).map Description.untraced := by
  simp only [lookup?, untraced, List.find?_map, Option.map_map]
  rfl

theorem overlooks_across (o o' : World) : (Comparison.across o o').Overlooks where
  left events h := ⟨⟨h.1.noted events, h.2⟩, .refl _, .refl _⟩
  right events h := ⟨⟨h.1, h.2.noted events⟩, .refl _, .refl _⟩

theorem reflects_tracing (s : Text) : (Revision.tracing s).Reflects where
  leaf h := .primitive h
  same _ d := ⟨[], .refl [] d, by simp [Bindings.Covers]⟩

namespace Retraces

variable {o o' w w' : World}

/-- The rules of the second world have lost their traces. -/
theorem of_untraced (h : o.Labelled) (level level' : Level) :
    Retraces { o with threshold := level } { o.untraced with threshold := level' } where
  names_eq := rfl
  references_eq := rfl
  deferred_eq := rfl
  rules rule := by
    rw [lookup?_untraced]
    cases hrule : lookup? rule o.rules with
    | none => exact .none
    | some d => exact .some (h rule d hrule).retraced

theorem symm (h : o.Retraces o') : o'.Retraces o where
  names_eq := h.names_eq.symm
  references_eq := h.references_eq.symm
  deferred_eq := h.deferred_eq.symm
  rules rule := by
    have hrule := h.rules rule
    generalize lookup? rule o.rules = entry at hrule ⊢
    generalize lookup? rule o'.rules = entry' at hrule ⊢
    cases hrule with
    | none => exact .none
    | some hd => exact .some hd.symm

theorem unrun (h : o.Retraces o') (ho : o.Unrun) : o'.Unrun :=
  ho.congr h.names_eq.symm h.references_eq.symm h.deferred_eq.symm

/-- Building in worlds that were set up alike, but for traces. -/
theorem growth (h : o.Retraces o') (ho : o.Unrun) (hw : o.Kin w) (hw' : o'.Kin w') (s : Text) :
    (Comparison.growth w w').Retraces (Revision.tracing s).Revises where
  later hv hv' hp := hp.later hv hv'
  primitive hp := .base (.leaf (.primitive hp))
  same_fault _ := rfl
  built d bindings := .base (.built ((reflects_tracing s).same bindings d))
  known name hrelated :=
    optionRel_mono ((reflects_tracing s).known h.deferred_eq ho h.names_eq (hw.grows hrelated.1)
      (hw'.grows hrelated.2) name) fun _ _ => .base
  newDeferred rule hrelated :=
    follows_newDeferred rule hrelated fun hl hl' => .base (.base (.deferred hl hl'))
  silent hp hp' := .base (.leaf (.silent hp hp'))
  tracedLeft label hp :=
    .left (.traced label _) (.of_alike (Revision.tracing s).pairs_traced hp fun _ _ h => h)
  tracedRight label hp :=
    .right (.traced label _) (.of_alike (Revision.tracing s).pairs_traced hp fun _ _ h => h)
  rebuilt hd hbindings := .base (.built ⟨_, hd, hbindings⟩)

/-- Changes of traces make no difference to runs. -/
theorem joins (h : o.Retraces o') (ho : o.Unrun) (s : Text) :
    (Revision.tracing s).Joins o o' where
  toRespects := by
    refine Revision.respects_tracing (notes_across o o') (overlooks_across o o') s fun hi => ?_
    rw [Text.Aligned.add_eq hi, Int.add_zero]
    exact ⟨rfl, rfl⟩
  unrun := ho
  unrun' := h.unrun ho
  behaviour_eq r := by
    unfold behaviour
    rw [h.references_eq]
  target := (reflects_tracing s).target h.deferred_eq ho h.references_eq
  rules rule :=
    optionRel_mono (h.rules rule) fun _ _ hd => ⟨[], hd, by simp [Bindings.Covers]⟩
  builds hw hw' := by
    rintro ⟨scope, hd, hbindings⟩
    exact hd.buildsAlike (h.growth ho hw hw' s) hbindings
  builds_back hw hw' := by
    rintro ⟨scope, hd, hbindings⟩ hbuild
    have hback := hd.symm.buildsAlike (h.symm.growth (h.unrun ho) hw' hw s) hbindings
    obtain ⟨p, v, hp, -⟩ := hback.exists_eq_ok hbuild
    exact ⟨p, v, hp⟩

end Retraces

end World

namespace Session

variable {o o' w w' : World} {step : Step} {d d' : Description}

/-- The world has been set up by steps of which none runs a parser. -/
def SetUp (o : World) : Prop :=
  ∃ steps : List Step, (∀ step ∈ steps, ¬ step.IsRun) ∧ Leads {} steps o

/-- Runs, each of which comes to an end, lead from one world to the other. -/
def RunsTo (o w : World) : Prop :=
  ∃ steps : List Step, (∀ step ∈ steps, step.IsRun) ∧ Leads o steps w

theorem SetUp.unrun (h : SetUp o) : o.Unrun := by
  obtain ⟨steps, hsteps, hleads⟩ := h
  exact hleads.unrun (.empty .warning) hsteps

theorem RunsTo.descends (h : RunsTo o w) (ho : o.Unrun) : o.Descends w := by
  obtain ⟨steps, hsteps, hleads⟩ := h
  exact hleads.descends ho ho.descends hsteps

/-- A step of a grammar that differs in its traces is reported alike. -/
theorem eventually_matches_of_retraces (ho : o.Retraces o') (hunrun : o.Unrun)
    (hw : o.Descends w) (hw' : o'.Descends w') (hstep : step.IsRun)
    (hinside : step.StartsInside) (hd : d.Retraced [] d') {n : Nat}
    (hended : (observe w ((step.on d).perform n)).1.Ended) :
    ∀ᶠ m in atTop, (observe w ((step.on d).perform n)).1.Matches Eq
      (observe w' ((step.on d').perform m)).1 := by
  obtain ⟨start, hstart⟩ := Step.exists_launch hstep
  have hjoins := ho.joins hunrun start.input
  have hcovers : Bindings.Covers [] [] := by simp [Bindings.Covers]
  have hbuilt := hjoins.builds hw.cleared.kin hw'.cleared.kin ⟨[], hd, hcovers⟩ _ _
    ⟨.refl _, .refl _⟩
  have hfollows := Step.follows_perform (World.overlooks_across o o') hstart hinside
    (World.follows_across_of_growth hw.cleared hw'.cleared hbuilt) fun v v' p p' hp =>
      hjoins.runRevised n v v' _ _ (Step.revised_entry hstart (.leaf (.primitive .eof))
        (.of_alike (Revision.tracing start.input).pairs_traced hp fun _ _ h => h))
  exact eventually_matches (fun _ _ h => h) (hfollows.weaken (fun _ _ h => h) (fun _ _ h => h)
    fun _ _ _ _ heq => heq.symm) hended

/-- Descriptions that differ in their traces, in worlds whose rules do so as well. -/
theorem concur_of_retraces (ho : o.Retraces o') (hunrun : o.Unrun) (hw : o.Descends w)
    (hw' : o'.Descends w') (hstep : step.IsRun) (hinside : step.StartsInside)
    (hd : d.Retraced [] d') : Concur w w' (step.on d) (step.on d') := by
  have hunrun' := ho.unrun hunrun
  have hrun' : (step.on d').IsRun := Step.isRun_on hstep d'
  obtain ⟨hiff, hall⟩ := Report.matches_of_eventually (R := Eq)
    (x := fun n => (observe w ((step.on d).perform n)).1)
    (y := fun m => (observe w' ((step.on d').perform m)).1)
    (fun n => eventually_matches_of_retraces ho hunrun hw hw' hstep hinside hd)
    (fun m hended => by
      obtain ⟨n, hn⟩ := (eventually_matches_of_retraces ho.symm hunrun' hw' hw hstep hinside
        hd.symm hended).exists
      exact ⟨n, hn.ended⟩)
    fun m hended => (eventually_agrees hunrun' hw' hw' hrun' hended).2.mono fun _ h => h.result_eq
  exact ⟨hiff, fun n m hn hm => (hall n m hn hm).result_eq⟩

/-- Levels and traces make no difference to what a parser comes to. Let a step that runs a parser
start it inside the input, with any description of the parser. In every world and at every two
levels the step comes to the same, with the same answer or the same fault; and so it does with
the description that is left without its traces, provided that their labels can be told. If the
world was set up before anything was run in it, its rules may be left without their traces, too,
whatever is run before the step on either side. That condition is needed for rules, as a trace
in one of them can matter without it: a rule that leads straight to a handle keeps what the handle
did when the rule was built, be it the failure of a reference that is bound later, and with a trace
around the handle it does whatever the handle does by then. -/
theorem tracing_transparent (level level' : Level) (step : Step) (d : Description)
    (hstep : step.IsRun) (hinside : step.StartsInside) :
    (∀ w : World, Concur { w with threshold := level } { w with threshold := level' }
      (step.on d) (step.on d)) ∧
    (d.Labelled [] → ∀ w : World, Concur { w with threshold := level }
      { w with threshold := level' } (step.on d) (step.on d.untraced)) ∧
    (d.Labelled [] → ∀ o w w' : World, SetUp o → o.Labelled →
      RunsTo { o with threshold := level } w →
      RunsTo { o.untraced with threshold := level' } w' →
      Concur w w' (step.on d) (step.on d.untraced)) := by
  refine ⟨fun w => ?_, fun hd w => ?_, fun hd o w w' ho hlabelled hw hw' => ?_⟩
  · exact concur_of_retraced ⟨trivial, rfl, rfl, rfl, rfl⟩ hstep hinside (.refl [] d)
  · exact concur_of_retraced ⟨trivial, rfl, rfl, rfl, rfl⟩ hstep hinside hd.retraced
  · have hunrun : World.Unrun { o with threshold := level } := ho.unrun.congr rfl rfl rfl
    have hretraces := World.Retraces.of_untraced hlabelled level level'
    exact concur_of_retraces hretraces hunrun (hw.descends hunrun)
      (hw'.descends (hretraces.unrun hunrun)) hstep hinside hd.retraced

/-- A rule for nested brackets that traces each of them. -/
def tracedRule : List Step :=
  [.rule "nest" (.wrap (.traced "nest") (nest (.deferred "nest" none)))]

/-- Nested brackets by that rule, followed by a trace of their value. -/
def tracedNest : Description :=
  .join .andThen (.atom (.trace (.value (.str "start"))))
    (.wrap (.traced "whole") (.bind (.deferred "nest" none) "v" (.atom (.trace (.argument "v")))))

/-- The brackets are run behind the first character: with all traces, without those of the
description at a level where none is written, and without any at the level where they would be. -/
theorem tracing_transparent_of_nest :
    ∃ w, Leads {} tracedRule w ∧
      (observe { w with threshold := .debug }
        (Step.perform 20 (.call tracedNest ['x', '(', 'x', ')'] 1))).1.events.length = 7 ∧
      (observe { w.untraced with threshold := .debug }
        (Step.perform 20 (.call tracedNest.untraced ['x', '(', 'x', ')'] 1))).1.events.length = 2 ∧
      (observe { w with threshold := .debug }
        (Step.perform 20 (.call tracedNest ['x', '(', 'x', ')'] 1))).1.result =
      (observe { w with threshold := .warning }
        (Step.perform 20 (.call tracedNest.untraced ['x', '(', 'x', ')'] 1))).1.result ∧
      (observe { w with threshold := .debug }
        (Step.perform 20 (.call tracedNest ['x', '(', 'x', ')'] 1))).1.result =
      (observe { w.untraced with threshold := .debug }
        (Step.perform 20 (.call tracedNest.untraced ['x', '(', 'x', ')'] 1))).1.result := by
  have hinside : Step.StartsInside (.call tracedNest ['x', '(', 'x', ')'] 1) :=
    ⟨by decide, by decide⟩
  have hlabelled : tracedNest.Labelled [] := ⟨.value _ _, trivial, .argument List.mem_cons_self⟩
  have hlevels (w : World) : Concur { w with threshold := .debug } { w with threshold := .warning }
      (.call tracedNest ['x', '(', 'x', ')'] 1)
      (.call tracedNest.untraced ['x', '(', 'x', ')'] 1) :=
    (tracing_transparent .debug .warning (.call tracedNest ['x', '(', 'x', ')'] 1) tracedNest
      trivial hinside).2.1 hlabelled w
  have hrules (w : World) (hleads : Leads {} tracedRule w) (hw : w.Labelled) :
      Concur { w with threshold := .debug } { w.untraced with threshold := .debug }
        (.call tracedNest ['x', '(', 'x', ')'] 1)
        (.call tracedNest.untraced ['x', '(', 'x', ')'] 1) :=
    (tracing_transparent .debug .debug (.call tracedNest ['x', '(', 'x', ')'] 1) tracedNest
      trivial hinside).2.2 hlabelled w _ _
      ⟨tracedRule, by simp [tracedRule, Step.IsRun], hleads⟩ hw ⟨[], by simp, .nil _⟩
      ⟨[], by simp, .nil _⟩
  have hrule : ∀ entry ∈ [("nest", Description.wrap (.traced "nest")
      (nest (.deferred "nest" none)))], entry.2.Labelled [] := by
    simp [Description.Labelled, nest]
  have hleads : Leads {} tracedRule _ := .cons 0 (by decide +kernel) (.nil _)
  refine ⟨_, hleads, by decide +kernel, by decide +kernel, ?_, ?_⟩
  · exact (hlevels _).2 20 20 (by decide +kernel) (by decide +kernel)
  · exact (hrules _ hleads (World.labelled_of_forall hrule)).2 20 20 (by decide +kernel)
      (by decide +kernel)

end Session

end Descent
