/-
# The life cycle of a reference

A reference is made without a target, may be bound and bound anew, and keeps its target
for good once a run has gone through it. This is shown for every world that can be
reached at all: by the steps of a session, by runs of parsers of any kind, and by
attempts to bind any reference to any parser, whichever way each of them ends.

There are only three things that may happen to the references of a world. They are
marked, a new one is added, or one that is not marked is given a target other than
itself. What holds of references in all worlds is read off these three.
-/

import Descent.Proofs.Arrival
import Descent.Proofs.History
import Mathlib.Logic.Relation

namespace Descent

namespace World

/-- The world in which a reference has been given a target. -/
def retargeted (w : World) (r : Nat) (q : Parser) : World :=
  { w with references := w.references.modify r fun c =>
      { c with behaviour := .dispatch r, target := some q } }

theorem getElem?_retargeted (w : World) (r k : Nat) (q : Parser) :
    (w.retargeted r q).references[k]? = if r = k then
      (w.references[k]?).map fun c => { c with behaviour := .dispatch r, target := some q }
    else w.references[k]? := by
  simp [retargeted, Array.getElem?_modify]

/-- What may happen to the references of a world, where `binds` says which of them were
to be bound. -/
inductive Changes (binds : Nat → Prop) (w v : World) : Prop
  /-- References are marked at most. -/
  | pass (h : w.Passes v)
  /-- A new reference is made. -/
  | make (u : World) (hu : w.Steady u) (hreferences : v.references =
        u.references.push { behaviour := .unbound u.references.size })
      (hdeferred : v.deferred = u.deferred)
  /-- A reference that is not marked is given a target other than itself. -/
  | bind (r : Nat) (q : Parser) (u : World) (hu : w.Passes u) (hr : binds r)
      (hfree : ¬ u.Dispatched r) (hq : q ≠ .reference r)
      (hreferences : v.references = (u.retargeted r q).references)
      (hdeferred : v.deferred = u.deferred)

variable {binds : Nat → Prop} {w v u : World} {r : Nat} {c : Reference}

theorem Changes.mono {binds' : Nat → Prop} (h : Changes binds w v)
    (hbinds : ∀ r, binds r → binds' r) : Changes binds' w v := by
  cases h with
  | pass h => exact .pass h
  | make u hu hreferences hdeferred => exact .make u hu hreferences hdeferred
  | bind r q u hu hr hfree hq hreferences hdeferred =>
      exact .bind r q u hu (hbinds r hr) hfree hq hreferences hdeferred

theorem Changes.before (h : Changes binds v u) (hw : w.Sound) (hv : w.Steady v) :
    Changes binds w u := by
  cases h with
  | pass h => exact .pass ((hv.passes hw).trans h)
  | make t ht hreferences hdeferred => exact .make t (hv.trans ht) hreferences hdeferred
  | bind r q t ht hr hfree hq hreferences hdeferred =>
      exact .bind r q t ((hv.passes hw).trans ht) hr hfree hq hreferences hdeferred

/-- A world stays sound whatever happens. -/
theorem Changes.sound (hw : w.Sound) (h : Changes binds w v) : v.Sound := by
  cases h with
  | pass h => exact h.sound
  | make u hu hreferences hdeferred =>
      refine ⟨fun r c hc => ?_, fun l handle r hl hdispatch => ?_⟩
      · rw [hreferences, Array.getElem?_push] at hc
        split at hc
        · next heq =>
          cases hc
          subst heq
          exact ⟨by simp, by simp, by simp, by simp⟩
        · exact (hu.sound hw).reference r c hc
      · rw [hdeferred] at hl
        obtain ⟨c, hc, htarget⟩ := (hu.sound hw).handle l handle r hl hdispatch
        refine ⟨c, ?_, htarget⟩
        have hlt : r < u.references.size := (Array.getElem?_eq_some_iff.mp hc).1
        rw [hreferences, Array.getElem?_push, if_neg (Nat.ne_of_lt hlt)]
        exact hc
  | bind k q t ht hk hfree hq hreferences hdeferred =>
      refine ⟨fun r c hc => ?_, fun l handle r hl hdispatch => ?_⟩
      · rw [hreferences, getElem?_retargeted] at hc
        split at hc
        · next heq =>
          subst heq
          obtain ⟨d, hd, rfl⟩ := Option.map_eq_some_iff.mp hc
          exact ⟨by simp, by simp, by simp, by simpa using hq⟩
        · exact ht.sound.reference r c hc
      · rw [hdeferred] at hl
        obtain ⟨c, hc, htarget⟩ := ht.sound.handle l handle r hl hdispatch
        unfold Bound
        rw [hreferences, getElem?_retargeted, hc]
        split
        · exact ⟨_, rfl, rfl⟩
        · exact ⟨c, rfl, htarget⟩

/-- A bound reference stays bound, and one that is marked stays as it is. -/
theorem Changes.kept (h : Changes binds w v) (hc : w.references[r]? = some c) :
    ∃ c', v.references[r]? = some c' ∧ (c.target.isSome = true → c'.target.isSome = true) ∧
      (c.dispatched = true → c' = c) := by
  have marked {c' : Reference} (hbehaviour : c'.behaviour = c.behaviour)
      (htarget : c'.target = c.target) (hmark : c.dispatched = true → c'.dispatched = true)
      (hdispatched : c.dispatched = true) : c' = c := by
    have hmark' := hmark hdispatched
    cases c
    cases c'
    simp_all
  cases h with
  | pass h =>
      obtain ⟨c', hc', hbehaviour, htarget, hmark⟩ := h.kept r c hc
      exact ⟨c', hc', fun hbound => htarget ▸ hbound, marked hbehaviour htarget hmark⟩
  | make u hu hreferences _ =>
      rw [← hu.references_eq] at hc
      have hlt : r < u.references.size := (Array.getElem?_eq_some_iff.mp hc).1
      refine ⟨c, ?_, id, fun _ => rfl⟩
      rw [hreferences, Array.getElem?_push, if_neg (Nat.ne_of_lt hlt)]
      exact hc
  | bind k q t ht hk hfree hq hreferences _ =>
      obtain ⟨c', hc', hbehaviour, htarget, hmark⟩ := ht.kept r c hc
      rw [hreferences, getElem?_retargeted, hc']
      split
      · next heq =>
        subst heq
        exact ⟨_, rfl, fun _ => rfl, fun hm => absurd ⟨c', hc', hmark hm⟩ hfree⟩
      · exact ⟨c', rfl, fun hbound => htarget ▸ hbound, marked hbehaviour htarget hmark⟩

/-- What a reference leads to changes only where the reference is bound. -/
theorem Changes.target_eq (h : Changes binds w v) (hr : ¬ binds r)
    (hc : w.references[r]? = some c) :
    ∃ c', v.references[r]? = some c' ∧ c'.behaviour = c.behaviour ∧ c'.target = c.target := by
  cases h with
  | pass h =>
      obtain ⟨c', hc', hbehaviour, htarget, -⟩ := h.kept r c hc
      exact ⟨c', hc', hbehaviour, htarget⟩
  | make u hu hreferences _ =>
      rw [← hu.references_eq] at hc
      have hlt : r < u.references.size := (Array.getElem?_eq_some_iff.mp hc).1
      refine ⟨c, ?_, rfl, rfl⟩
      rw [hreferences, Array.getElem?_push, if_neg (Nat.ne_of_lt hlt)]
      exact hc
  | bind k q t ht hk hfree hq hreferences _ =>
      obtain ⟨c', hc', hbehaviour, htarget, -⟩ := ht.kept r c hc
      have hne : k ≠ r := fun heq => hr (heq ▸ hk)
      refine ⟨c', ?_, hbehaviour, htarget⟩
      rw [hreferences, getElem?_retargeted, if_neg hne]
      exact hc'

end World

/-- The faults of references that cannot be bound. -/
def Fault.IsReferenceFault (f : Fault) : Prop :=
  f = .selfReference ∨ f = .rebound

namespace Run

variable {w : World} {r : Nat} {c : Reference} {q : Parser}

theorem bindReference_self (r : Nat) (w : World) :
    bindReference r (.reference r) w = .error (.fault .selfReference) w := by
  unfold bindReference
  simp only
  rfl

theorem bindReference_eq_retarget (hq : q ≠ .reference r) :
    bindReference r q w = retarget r q w := by
  cases q with
  | reference k =>
      have hne : k ≠ r := fun heq => hq (heq ▸ rfl)
      unfold bindReference
      simp only [if_neg hne]
  | _ => rfl

theorem retarget_of_missing (hc : w.references[r]? = none) :
    retarget r q w = .error (.fault .mismatch) w := by
  unfold retarget
  rw [get_bind]
  simp only [hc]
  rfl

theorem retarget_of_dispatched (hc : w.references[r]? = some c) (hmark : c.dispatched = true) :
    retarget r q w = .error (.fault .rebound) w := by
  unfold retarget
  rw [get_bind]
  simp only [hc, hmark, if_true]
  rfl

theorem retarget_of_not_dispatched (hc : w.references[r]? = some c)
    (hmark : c.dispatched = false) :
    ∃ events, retarget r q w = .ok () ((w.noted events).retargeted r q) := by
  unfold retarget
  rw [get_bind]
  simp only [hc, hmark, Bool.false_eq_true, if_false]
  split
  · obtain ⟨events, hrecord⟩ := exists_record_eq_noted .warning .references
      "reference bound more than once" w
    exact ⟨events, bind_of_ok hrecord⟩
  · exact ⟨[], rfl⟩

/-- An attempt to bind a reference gives it a target at most. -/
theorem changes_bindReference (hw : w.Sound) (r : Nat) (q : Parser) :
    World.Changes (· = r) w ((bindReference r q).after w) := by
  by_cases hself : q = .reference r
  · subst hself
    rw [after_of_error (bindReference_self r w)]
    exact .pass (.refl hw)
  cases hc : w.references[r]? with
  | none =>
      rw [after_of_error ((bindReference_eq_retarget hself).trans (retarget_of_missing hc))]
      exact .pass (.refl hw)
  | some c =>
      cases hmark : c.dispatched with
      | true =>
          rw [after_of_error ((bindReference_eq_retarget hself).trans
            (retarget_of_dispatched hc hmark))]
          exact .pass (.refl hw)
      | false =>
          obtain ⟨events, hend⟩ := retarget_of_not_dispatched (q := q) hc hmark
          rw [after_of_ok ((bindReference_eq_retarget hself).trans hend)]
          refine .bind r q w (.refl hw) rfl ?_ hself rfl rfl
          rintro ⟨d, hd, hdispatched⟩
          cases hc.symm.trans hd
          cases hmark.symm.trans hdispatched

end Run

namespace Outcome

/-- What a parse of a whole input makes of the reply. -/
def ofReply (input : Text) (r : Reply) : Run Outcome :=
  if r.status = true then pure (.success r.value)
  else do
    let position ← Run.ofExcept (Position.locate input r.furthest)
    let failure : Failure := ⟨position, r.expectedList⟩
    Run.record .debug .parsing failure.record
    return .failure failure

theorem parse_eq (p : Parser) (budget : Nat) (input : Text) :
    p.parse budget input = (p.skip .eof).run budget input 0 >>= ofReply input :=
  rfl

theorem plain_ofReply (input : Text) (r : Reply) : (ofReply input r).Plain :=
  .ite (.pure _) (.bind (.ofExcept _) fun _ => .bind (.record _ _ _) fun _ => .pure _)

/-- A failure with a position is only written down. -/
theorem exists_inert_ofReply {input : Text} {r : Reply}
    (h : r.status = false → ∃ p, Position.locate input r.furthest = .ok p) :
    ∃ outcome, (ofReply input r).Inert outcome := by
  unfold ofReply
  cases hstatus : r.status with
  | true => exact ⟨_, .pure _⟩
  | false =>
      obtain ⟨position, hposition⟩ := h hstatus
      rw [hposition]
      exact ⟨_, .bind (.pure position) (.bind (.record _ _ _) (.pure _))⟩

end Outcome

/-- What a step that runs a parser starts: a description is built, and what is made of the
parser is run. -/
structure Launch where
  description : Description
  entry : Parser → Parser
  input : Text
  offset : Int

/-- What a step may make of the reply: a plain step, which comes to its end as long as there
is a position to be given for a failure. -/
structure Launch.Concludes (start : Launch) (answer : Reply → Run Answer) : Prop where
  plain : ∀ r, (answer r).Plain
  inert : ∀ r, (r.status = false → ∃ p, Position.locate start.input r.furthest = .ok p) →
    ∃ a, (answer r).Inert a

namespace Step

variable {w : World}

/-- The step is to bind a reference. -/
def Binds (w : World) (r : Nat) : Step → Prop
  | .bindReference name _ => World.lookup? name w.names = some (.reference r)
  | _ => False

/-- What a step starts, if it runs a parser. -/
def launch? : Step → Option Launch
  | .parse d input _ | .parseValue d input | .parsePair d input | .parseShown d input =>
      some ⟨d, fun p => p.skip .eof, input, 0⟩
  | .call d input offset => some ⟨d, id, input, offset⟩
  | _ => none

/-- The step, if it runs a parser, with another description of the parser. -/
def on (d : Description) : Step → Step
  | .parse _ input style => .parse d input style
  | .call _ input offset => .call d input offset
  | .parseValue _ input => .parseValue d input
  | .parsePair _ input => .parsePair d input
  | .parseShown _ input => .parseShown d input
  | step => step

theorem exists_launch {step : Step} (h : step.IsRun) : ∃ start, step.launch? = some start := by
  cases step with
  | parse => exact ⟨_, rfl⟩
  | call => exact ⟨_, rfl⟩
  | parseValue => exact ⟨_, rfl⟩
  | parsePair => exact ⟨_, rfl⟩
  | parseShown => exact ⟨_, rfl⟩
  | _ => exact h.elim

theorem isRun_on {step : Step} (h : step.IsRun) (d : Description) : (step.on d).IsRun := by
  cases step <;> exact h

theorem on_description {step : Step} {start : Launch} (h : step.launch? = some start) :
    step.on start.description = step := by
  cases step with
  | parse | call | parseValue | parsePair | parseShown =>
      cases h
      rfl
  | _ => cases h

/-- Parsing a whole input is a run with plain steps after it. -/
theorem exists_parse_eq (input : Text) {answer : Outcome → Run Answer}
    (hanswer : ∀ outcome, ∃ a, answer outcome = pure a) (d : Description) :
    ∃ next : Reply → Run Answer, Launch.Concludes ⟨d, fun p => p.skip .eof, input, 0⟩ next ∧
      ∀ (d : Description) (budget : Nat),
        (d.build [] >>= fun p => p.parse budget input >>= answer) =
          d.build [] >>= fun p => (p.skip .eof).run budget input 0 >>= next := by
  refine ⟨fun r => Outcome.ofReply input r >>= answer, ⟨fun r => ?_, fun r hlocate => ?_⟩,
    fun d budget => congrArg _ (funext fun p => ?_)⟩
  · refine .bind (Outcome.plain_ofReply input r) fun outcome => ?_
    obtain ⟨a, ha⟩ := hanswer outcome
    rw [ha]
    exact .pure a
  · obtain ⟨outcome, houtcome⟩ := Outcome.exists_inert_ofReply hlocate
    obtain ⟨a, ha⟩ := hanswer outcome
    refine ⟨a, houtcome.bind ?_⟩
    rw [ha]
    exact .pure a
  · rw [Outcome.parse_eq, bind_assoc]

/-- A step that runs a parser does nothing else but to build it before and to make an answer
of the reply. -/
theorem exists_perform_eq {step : Step} {start : Launch} (h : step.launch? = some start) :
    ∃ answer : Reply → Run Answer, start.Concludes answer ∧ ∀ (d : Description) (budget : Nat),
      (step.on d).perform budget = d.build [] >>= fun p =>
        (start.entry p).run budget start.input start.offset >>= answer := by
  cases step with
  | parse d input style =>
      cases h
      refine exists_parse_eq input ?_ d
      rintro (v | f)
      · exact ⟨_, rfl⟩
      · exact ⟨_, rfl⟩
  | call d input offset =>
      cases h
      exact ⟨_, ⟨fun r => .pure _, fun r _ => ⟨_, .pure _⟩⟩, fun d budget => rfl⟩
  | parseValue d input =>
      cases h
      simp only [on, perform, Parser.parseValue, bind_assoc]
      refine exists_parse_eq input ?_ d
      rintro (v | f)
      · exact ⟨_, rfl⟩
      · exact ⟨_, rfl⟩
  | parsePair d input =>
      cases h
      simp only [on, perform, Parser.parsePair, bind_assoc]
      refine exists_parse_eq input ?_ d
      rintro (v | f)
      · exact ⟨_, rfl⟩
      · exact ⟨_, rfl⟩
  | parseShown d input =>
      cases h
      simp only [on, perform, Parser.parseShown, Parser.parsePair, bind_assoc]
      refine exists_parse_eq input ?_ d
      rintro (v | f)
      · exact ⟨_, rfl⟩
      · exact ⟨_, rfl⟩
  | _ => cases h

/-- A step that runs a parser does nothing to references but to mark them. -/
theorem spares_perform {step : Step} (hstep : step.IsRun) (budget : Nat) :
    (step.perform budget).Within World.Spares := by
  obtain ⟨start, hstart⟩ := exists_launch hstep
  obtain ⟨answer, hanswer, heq⟩ := exists_perform_eq hstart
  have hR := World.frame_spares
  rw [← on_description hstart, heq]
  exact hR.bind (hR.within_build _ []) fun p =>
    hR.bind (hR.within_run budget _ _ _) fun r => hR.plain (hanswer.plain r)

/-- A name either stands for a reference or for none. -/
theorem referenceNamed_cases (name : String) (w : World) :
    (∃ r, World.lookup? name w.names = some (.reference r) ∧ referenceNamed name w = .ok r w) ∨
      referenceNamed name w = .error (.fault (.unknownName name)) w := by
  unfold referenceNamed
  rw [Run.get_bind]
  cases hname : World.lookup? name w.names with
  | none => exact .inr rfl
  | some p =>
      cases p with
      | reference r => exact .inl ⟨r, rfl, rfl⟩
      | _ => exact .inr rfl

/-- What any step of a session does to references. -/
theorem changes_perform (hw : w.Sound) (budget : Nat) (step : Step) :
    World.Changes (fun r => step.Binds w r) w ((step.perform budget).after w) := by
  have steady (h : w.Steady ((step.perform budget).after w)) :
      World.Changes (fun r => step.Binds w r) w ((step.perform budget).after w) :=
    .pass (h.passes hw)
  by_cases hstep : step.IsRun
  · exact .pass (spares_perform hstep budget w hw)
  cases step with
  | threshold level => exact steady (.congr rfl rfl)
  | rule name d => exact steady (.congr rfl rfl)
  | reference name => exact .make w (.refl w) rfl rfl
  | assign name d =>
      have hR := World.calm_steady
      refine steady (hR.bind (hR.within_build d []) (fun p => ?_) w)
      exact hR.bind (.modify fun _ => .congr rfl rfl) fun _ => hR.pure _
  | bindReference name d =>
      rcases referenceNamed_cases name w with ⟨r, hname, hr⟩ | hnone
      · have hbuild := World.calm_steady.within_build d [] w
        have hend : (Step.perform budget (.bindReference name d)).after w =
            (d.build [] >>= fun p => Run.bindReference r p >>= fun _ =>
              pure (Answer.truth true)).after w := Run.after_bind_of_ok hr
        rw [hend]
        rcases hd : d.build [] w with ⟨q, v⟩ | ⟨halt, v⟩
        · rw [Run.after_of_ok hd] at hbuild
          have hbinds := Run.changes_bindReference (hbuild.sound hw) r q
          rw [Run.after_bind_of_ok hd, Run.after_bind_pure]
          exact (hbinds.mono fun k hk => hk ▸ hname).before hw hbuild
        · rw [Run.after_bind_of_error hd]
          rw [Run.after_of_error hd] at hbuild
          exact .pass (hbuild.passes hw)
      · refine steady ?_
        have hend : (Step.perform budget (.bindReference name d)).after w = w :=
          Run.after_bind_of_error hnone
        rw [hend]
        exact .refl w
  | isBound name =>
      refine steady ?_
      have hend : (Step.perform budget (.isBound name)).after w = w := by
        rcases referenceNamed_cases name w with ⟨r, -, hr⟩ | hnone
        · exact Run.after_bind_of_ok hr
        · exact Run.after_bind_of_error hnone
      rw [hend]
      exact .refl w
  | _ => exact absurd trivial hstep

end Step

namespace Session

/-- What may be done in a world: a step of a session, a run of any parser at any offset,
or an attempt to bind a reference to any parser. -/
inductive Move
  | perform (budget : Nat) (step : Step)
  | run (budget : Nat) (p : Parser) (s : Text) (i : Int)
  | bind (r : Nat) (q : Parser)

namespace Move

/-- The world that is left, whichever way the move ends. -/
def after (w : World) : Move → World
  | .perform budget step => (observe w (step.perform budget)).2
  | .run budget p s i => (p.run budget s i).after w
  | .bind r q => (Run.bindReference r q).after w

/-- The move is to bind a reference. -/
def Binds (w : World) (r : Nat) : Move → Prop
  | .perform _ step => step.Binds w r
  | .run .. => False
  | .bind k _ => k = r

theorem observe_snd {α : Type} (w : World) (x : Run α) : (observe w x).2 = x.after w.cleared := by
  rcases hx : x w.cleared with ⟨a, v⟩ | ⟨halt, v⟩
  · rw [observe_of_ok hx, Run.after_of_ok hx]
  · rw [observe_of_error hx, Run.after_of_error hx]

/-- What any move does to references. -/
theorem changes_after {w : World} (hw : w.Sound) (move : Move) :
    World.Changes (fun r => move.Binds w r) w (move.after w) := by
  have hcleared : w.Steady w.cleared := .congr rfl rfl
  cases move with
  | perform budget step =>
      change World.Changes _ w (observe w (step.perform budget)).2
      rw [observe_snd]
      exact (step.changes_perform (hcleared.sound hw) budget).before hw hcleared
  | run budget p s i => exact .pass (World.frame_spares.within_run budget p s i w hw)
  | bind r q => exact (Run.changes_bindReference hw r q).mono fun k hk => hk.symm

end Move

/-- A world is reached from another one by moves that are allowed where they are made. -/
def Reaches (allowed : World → Move → Prop) : World → World → Prop :=
  Relation.ReflTransGen fun w v => ∃ move : Move, allowed w move ∧ move.after w = v

namespace Reaches

theorem foldl (moves : List Move) (w : World) :
    Reaches (fun _ _ => True) w (moves.foldl Move.after w) := by
  induction moves generalizing w with
  | nil => exact .refl
  | cons move moves ih => exact .head ⟨move, trivial, rfl⟩ (ih _)

variable {allowed : World → Move → Prop} {w v : World} {r : Nat} {c : Reference}

theorem sound (h : Reaches allowed w v) (hw : w.Sound) : v.Sound := by
  induction h with
  | refl => exact hw
  | tail _ hmove ih =>
      obtain ⟨move, -, rfl⟩ := hmove
      exact (move.changes_after ih).sound ih

/-- A bound reference stays bound, and one that is marked stays as it is. -/
theorem kept (h : Reaches allowed w v) (hw : w.Sound) (hc : w.references[r]? = some c) :
    ∃ c', v.references[r]? = some c' ∧ (c.target.isSome = true → c'.target.isSome = true) ∧
      (c.dispatched = true → c' = c) := by
  induction h with
  | refl => exact ⟨c, hc, id, fun _ => rfl⟩
  | tail hreach hmove ih =>
      obtain ⟨move, -, rfl⟩ := hmove
      obtain ⟨c', hc', hbound, hmarked⟩ := ih
      obtain ⟨d, hd, hbound', hmarked'⟩ := (move.changes_after (sound hreach hw)).kept hc'
      refine ⟨d, hd, fun hc => hbound' (hbound hc), fun hm => ?_⟩
      obtain rfl := hmarked hm
      exact hmarked' hm

/-- What a reference leads to stays the same until it is bound anew. -/
theorem target_eq (h : Reaches (fun u move => ¬ move.Binds u r) w v) (hw : w.Sound)
    (hc : w.references[r]? = some c) :
    ∃ c', v.references[r]? = some c' ∧ c'.behaviour = c.behaviour ∧ c'.target = c.target := by
  induction h with
  | refl => exact ⟨c, hc, rfl, rfl⟩
  | tail hreach hmove ih =>
      obtain ⟨move, hbinds, rfl⟩ := hmove
      obtain ⟨c', hc', hbehaviour, htarget⟩ := ih
      obtain ⟨d, hd, hbehaviour', htarget'⟩ :=
        (move.changes_after (sound hreach hw)).target_eq hbinds hc'
      exact ⟨d, hd, hbehaviour'.trans hbehaviour, htarget'.trans htarget⟩

end Reaches

end Session

theorem World.sound_empty : World.Sound {} := by
  constructor
  · intro r c hc
    simp at hc
  · intro l handle r hl
    simp at hl

/-- The life cycle of a reference, as it stands in a world at present. -/
structure Reference.LifeCycle (w : World) (r : Nat) (c : Reference) : Prop where
  /-- It is gone through to its target if and only if it has one, it is marked only if it
  has one, and its target is not itself. -/
  sound : c.Sound r
  /-- The chart of a run is that of the plain run. -/
  charted : ∀ budget p s i, (Parser.charted budget p s i w).2 = p.run budget s i w
  /-- Whoever runs the reference goes through it if it is bound and else fails. -/
  arrives : ∀ budget p s i, ∀ a ∈ Parser.arrivals budget p s i w, a.parser = .reference r →
    a.behaviour = if c.target.isSome then .dispatch r else .unbound r
  /-- Whoever reaches the reference while it is not bound fails right there, and leaves the
  reference as it is. -/
  unbound : c.target = none → ∀ budget p s i, ∀ a ∈ Parser.arrivals budget p s i w,
    a.behaviour ≠ .dispatch r ∧ (a.behaviour = .unbound r → ∃ v,
      a.result = .ok (.error a.offset unboundExpectation) v ∧ v.references[r]? = some c)
  /-- A run as a whole leaves the reference as it is, if that is not bound. -/
  unbound_kept : c.target = none → ∀ budget p s i,
    ((Parser.run budget p s i).after w).references[r]? = some c
  /-- A run, whichever way it ends, leaves the reference marked if and only if it was marked
  before or somebody went through it, at whatever depth. -/
  marked_iff : ∀ budget p s i, ((Parser.run budget p s i).after w).Dispatched r ↔
    c.dispatched = true ∨ ∃ a ∈ Parser.arrivals budget p s i w, a.behaviour = .dispatch r
  /-- Whatever is done later, the reference stays bound if it is, and stays as it is if it
  is marked. -/
  later : ∀ v, Session.Reaches (fun _ _ => True) w v → ∃ c', v.references[r]? = some c' ∧
    (c.target.isSome = true → c'.target.isSome = true) ∧ (c.dispatched = true → c' = c)
  /-- Binding is refused exactly for the reference itself and for one that is marked. -/
  refused_iff : ∀ q, (∃ f v, Run.bindReference r q w = .error (.fault f) v ∧ f.IsReferenceFault) ↔
    q = .reference r ∨ c.dispatched = true
  /-- A refusal leaves the reference as it is. -/
  refused : ∀ q halt v, Run.bindReference r q w = .error halt v → v.references[r]? = some c
  /-- Otherwise the reference leads to what it was bound to, until it is bound anew. -/
  binds : ∀ q, q ≠ .reference r → c.dispatched = false → ∃ v, Run.bindReference r q w = .ok () v ∧
    ∀ u, Session.Reaches (fun t move => ¬ move.Binds t r) v u → ∃ c', u.references[r]? = some c' ∧
      c'.behaviour = .dispatch r ∧ c'.target = some q

namespace World

variable {w : World} {r : Nat} {c : Reference}

/-- What a reference does at present, read off its target. -/
theorem Sound.behaviour_reference (hw : w.Sound) (hc : w.references[r]? = some c) :
    w.behaviour (.reference r) = if c.target.isSome then .dispatch r else .unbound r := by
  have hsound := hw.reference r c hc
  have hbehaviour : w.behaviour (.reference r) = c.behaviour := by
    simp only [behaviour, hc]
  rw [hbehaviour]
  split
  · next hbound => exact hsound.bound_iff.mp hbound
  · next hunbound => exact hsound.unbound_iff.mp (by simpa using hunbound)

/-- A reference that is not bound is found as it is by everybody who arrives, and only
what it does then can be met. -/
theorem Sound.arrival_of_unbound {v : World} {a : Arrival} (hw : w.Sound)
    (hc : w.references[r]? = some c) (hunbound : c.target = none) (ha : a.Fits w v) :
    a.behaviour ≠ .dispatch r ∧ (a.behaviour = .unbound r → ∃ u,
      a.result = .ok (.error a.offset unboundExpectation) u ∧ u.references[r]? = some c) := by
  have harrival : a.world.references[r]? = some c := ha.passes.eq_of_unbound hw hc hunbound
  constructor
  · intro hthrough
    obtain ⟨d, hd, hbound⟩ := ha.passes.sound.bound_of_behaviour hthrough
    cases harrival.symm.trans hd
    rw [hunbound] at hbound
    cases hbound
  · intro hfails
    obtain ⟨events, hend⟩ := ha.unbound r hfails
    exact ⟨_, hend, harrival⟩

theorem bindReference_of_refused {q : Parser} (hc : w.references[r]? = some c)
    (h : q = .reference r ∨ c.dispatched = true) :
    ∃ f, Run.bindReference r q w = .error (.fault f) w ∧ f.IsReferenceFault := by
  by_cases hself : q = .reference r
  · subst hself
    exact ⟨.selfReference, Run.bindReference_self r w, .inl rfl⟩
  · have hmark := h.resolve_left hself
    exact ⟨.rebound, (Run.bindReference_eq_retarget hself).trans
      (Run.retarget_of_dispatched hc hmark), .inr rfl⟩

theorem bindReference_of_free {q : Parser} (hc : w.references[r]? = some c)
    (hself : q ≠ .reference r) (hmark : c.dispatched = false) :
    ∃ events, Run.bindReference r q w = .ok () ((w.noted events).retargeted r q) := by
  obtain ⟨events, hend⟩ := Run.retarget_of_not_dispatched (q := q) hc hmark
  exact ⟨events, (Run.bindReference_eq_retarget hself).trans hend⟩

end World

namespace Session

/-- Every reference of every world that can be reached goes through its life cycle. -/
theorem reference_life_cycle (w : World) (r : Nat) (c : Reference)
    (hw : Reaches (fun _ _ => True) {} w) (hr : w.references[r]? = some c) : c.LifeCycle w r := by
  have hsound : w.Sound := hw.sound World.sound_empty
  have chart (budget : Nat) (p : Parser) (s : Text) (i : Int) := p.charts_run budget s i hsound
  constructor
  case sound => exact hsound.reference r c hr
  case charted => exact fun budget p s i => (chart budget p s i).eq
  case arrives =>
    intro budget p s i a ha hself
    have hfits := (chart budget p s i).fits a ha
    obtain ⟨d, hd, -, htarget, -⟩ := hfits.passes.kept r c hr
    unfold Arrival.behaviour
    rw [hself, hfits.passes.sound.behaviour_reference hd, htarget]
  case unbound =>
    intro hunbound budget p s i a ha
    exact hsound.arrival_of_unbound hr hunbound ((chart budget p s i).fits a ha)
  case unbound_kept =>
    intro hunbound budget p s i
    exact (chart budget p s i).passes.eq_of_unbound hsound hr hunbound
  case marked_iff =>
    intro budget p s i
    constructor
    · intro hmark
      rcases (chart budget p s i).marked r hmark with ⟨d, hd, hold⟩ | hnone | hthrough
      · cases hr.symm.trans hd
        exact .inl hold
      · exact hnone.elim
      · exact .inr hthrough
    · rintro (hold | ⟨a, ha, hthrough⟩)
      · exact World.Dispatched.passes ⟨c, hr, hold⟩ (chart budget p s i).passes
      · exact ((chart budget p s i).fits a ha).dispatch r hthrough
  case later => exact fun v hv => hv.kept hsound hr
  case refused_iff =>
    intro q
    constructor
    · rintro ⟨f, v, hend, -⟩
      by_contra hfree
      simp only [not_or, Bool.not_eq_true] at hfree
      obtain ⟨events, hok⟩ := World.bindReference_of_free hr hfree.1 hfree.2
      cases hok.symm.trans hend
    · intro hrefused
      obtain ⟨f, hend, hfault⟩ := World.bindReference_of_refused hr hrefused
      exact ⟨f, w, hend, hfault⟩
  case refused =>
    intro q halt v hend
    by_cases hrefused : q = .reference r ∨ c.dispatched = true
    · obtain ⟨f, hw', -⟩ := World.bindReference_of_refused hr hrefused
      cases hw'.symm.trans hend
      exact hr
    · simp only [not_or, Bool.not_eq_true] at hrefused
      obtain ⟨events, hok⟩ := World.bindReference_of_free hr hrefused.1 hrefused.2
      cases hok.symm.trans hend
  case binds =>
    intro q hself hmark
    obtain ⟨events, hok⟩ := World.bindReference_of_free hr hself hmark
    refine ⟨_, hok, fun u hu => ?_⟩
    have hbound : ((w.noted events).retargeted r q).references[r]? =
        some { c with behaviour := .dispatch r, target := some q } := by
      rw [World.getElem?_retargeted, if_pos rfl]
      exact congrArg _ hr
    have hleft := Run.changes_bindReference hsound r q
    rw [Run.after_of_ok hok] at hleft
    obtain ⟨d, hd, hbehaviour, htarget⟩ := hu.target_eq (hleft.sound hsound) hbound
    exact ⟨d, hd, hbehaviour, htarget⟩

/-- A reference that is reached through a handle while it is not bound, then bound, and
then gone through inside a repetition that ends in a fault. -/
theorem reference_life_cycle_of_copied :
    ∃ w c, Reaches (fun _ _ => True) {} w ∧ w.references[0]? = some c ∧
      c.dispatched = true ∧ c.LifeCycle w 0 := by
  let moves : List Move := [.perform 0 (.reference "r"), .perform 0 (.rule "copy" (.known "r")),
    .perform 5 (.call (.deferred "copy" none) ['a'] 0), .bind 0 (.pure .null),
    .perform 5 (.call (.wrap .many (.known "r")) ['a'] 0)]
  have hreach : Reaches (fun _ _ => True) {} (moves.foldl Move.after {}) := .foldl moves {}
  have hmark : ((moves.foldl Move.after {}).references[0]?).map (·.dispatched) = some true := by
    decide +kernel
  obtain ⟨c, hc, hdispatched⟩ := Option.map_eq_some_iff.mp hmark
  exact ⟨_, c, hreach, hc, hdispatched, reference_life_cycle _ 0 c hreach hc⟩

end Session

end Descent
