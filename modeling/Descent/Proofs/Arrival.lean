/-
# Arrivals

A chart of a run lists the parsers that were started in its course, each with the
offset and the world it was started in and with the way it ended. Charting is watching,
so a charted run ends as the plain one does. In a sound world the chart tells what
becomes of references: whoever arrives at one that is not bound fails right there, and
whoever arrives at one that is bound leaves it marked when the run as a whole is over.
It makes no difference whether the reference itself was started, at whatever depth, or
a handle that took over what the reference did when the handle was built.
-/

import Descent.Proofs.Reference

namespace Descent

/-- A parser started in the course of a run: the offset and the world it was started
in, and how it ended. -/
structure Arrival where
  parser : Parser
  offset : Int
  world : World
  result : EStateM.Result Halt World Reply

/-- A run that lists arrivals, whichever way it ends. -/
def Charted (α : Type) : Type :=
  World → List Arrival × EStateM.Result Halt World α

namespace Charted

variable {α β : Type}

/-- One charted step after another. -/
def bind (x : Charted α) (f : α → Charted β) : Charted β := fun w =>
  match x w with
  | (arrivals, .ok a v) => (arrivals ++ (f a v).1, (f a v).2)
  | (arrivals, .error halt v) => (arrivals, .error halt v)

instance : Monad Charted where
  pure a := fun w => ([], .ok a w)
  bind := bind

theorem bind_of_ok {x : Charted α} {f : α → Charted β} {w v : World} {arrivals : List Arrival}
    {a : α} (h : x w = (arrivals, .ok a v)) :
    (x >>= f) w = (arrivals ++ (f a v).1, (f a v).2) := by
  change bind x f w = _
  unfold bind
  rw [h]

theorem bind_of_error {x : Charted α} {f : α → Charted β} {w v : World}
    {arrivals : List Arrival} {halt : Halt} (h : x w = (arrivals, .error halt v)) :
    (x >>= f) w = (arrivals, .error halt v) := by
  change bind x f w = _
  unfold bind
  rw [h]

/-- Nobody arrives in a step of a plain run. -/
instance : MonadLift Run Charted where
  monadLift x := fun w => ([], x w)

/-- List the arrival of a parser before those in its course. -/
def arrive (p : Parser) (act : ActionIn Charted) : ActionIn Charted := fun s i w =>
  (⟨p, i, w, (act s i w).2⟩ :: (act s i w).1, (act s i w).2)

end Charted

namespace Parser

/-- Run a parser within a budget and list the arrivals. -/
def charted : Nat → Parser → ActionIn Charted :=
  runWatched Charted.arrive

/-- The parsers started in the course of a run. -/
def arrivals (budget : Nat) (p : Parser) (s : Text) (i : Int) (w : World) : List Arrival :=
  (p.charted budget s i w).1

end Parser

/-- What the parser did when it was started. -/
def Arrival.behaviour (a : Arrival) : Behaviour :=
  a.world.behaviour a.parser

/-- What the chart of a run from one world to another says about references. -/
structure Arrival.Fits (a : Arrival) (w v : World) : Prop where
  passes : w.Passes a.world
  unbound : ∀ r, a.behaviour = .unbound r → ∃ events,
    a.result = .ok (.error a.offset unboundExpectation) (a.world.noted events)
  dispatch : ∀ r, a.behaviour = .dispatch r → v.Dispatched r

theorem Arrival.Fits.before {a : Arrival} {w v u : World} (h : a.Fits v u) (hv : w.Passes v) :
    a.Fits w u :=
  ⟨hv.trans h.passes, h.unbound, h.dispatch⟩

theorem Arrival.Fits.after {a : Arrival} {w v u : World} (h : a.Fits w v) (hu : v.Passes u) :
    a.Fits w u :=
  ⟨h.passes, h.unbound, fun r hr => (h.dispatch r hr).passes hu⟩

namespace Charted

variable {α β : Type}

/-- A charted step ends as the plain one does, which does nothing to references but to
mark them. Its chart fits, and shows who went through a reference that is newly marked,
unless the step itself goes through it. -/
structure Charts (via : Nat → Prop) (x : Charted α) (y : Run α) (w : World) : Prop where
  passes : w.Passes (y.after w)
  eq : (x w).2 = y w
  fits : ∀ a ∈ (x w).1, a.Fits w (y.after w)
  marked : ∀ r, (y.after w).Dispatched r →
    w.Dispatched r ∨ via r ∨ ∃ a ∈ (x w).1, a.behaviour = .dispatch r

variable {via : Nat → Prop} {w : World}

theorem Charts.lift {x : Run α} (h : w.Passes (x.after w))
    (hmarked : ∀ r, (x.after w).Dispatched r → w.Dispatched r ∨ via r) :
    Charts via (liftM x) x w := by
  refine ⟨h, rfl, fun a ha => ?_, fun r hr => ?_⟩
  · cases ha
  · exact (hmarked r hr).imp_right .inl

theorem Charts.steady {x : Run α} (hw : w.Sound) (h : w.Steady (x.after w)) :
    Charts via (liftM x) x w :=
  .lift (h.passes hw) fun _ hr => .inl (h.dispatched hr)

theorem Charts.weaken {x : Charted α} {y : Run α} (h : Charts (fun _ => False) x y w) :
    Charts via x y w :=
  { h with marked := fun r hr => (h.marked r hr).imp_right (Or.imp_left False.elim) }

theorem Charts.bind {x : Charted α} {y : Run α} {f : α → Charted β} {g : α → Run β}
    (hx : Charts via x y w) (hf : ∀ a v, v.Sound → Charts (fun _ => False) (f a) (g a) v) :
    Charts via (x >>= f) (y >>= g) w := by
  obtain ⟨hpass, heq, hfits, hmarked⟩ := hx
  rcases hxw : x w with ⟨arrivals, ⟨a, v⟩ | ⟨halt, v⟩⟩
  · rw [hxw] at heq hfits hmarked
    have hy : y w = .ok a v := heq.symm
    rw [Run.after_of_ok hy] at hfits hpass hmarked
    obtain ⟨hpass', heq', hfits', hmarked'⟩ := hf a v hpass.sound
    constructor
    · rw [Run.after_bind_of_ok hy]
      exact hpass.trans hpass'
    · rw [bind_of_ok hxw, Run.bind_of_ok hy]
      exact heq'
    · rw [bind_of_ok hxw, Run.after_bind_of_ok hy]
      intro b hb
      rcases List.mem_append.mp hb with hb | hb
      · exact (hfits b hb).after hpass'
      · exact (hfits' b hb).before hpass
    · rw [bind_of_ok hxw, Run.after_bind_of_ok hy]
      intro r hr
      rcases hmarked' r hr with hr | hnone | ⟨b, hb, hthrough⟩
      · refine (hmarked r hr).imp_right (Or.imp_right ?_)
        exact fun ⟨b, hb, hthrough⟩ => ⟨b, List.mem_append_left _ hb, hthrough⟩
      · exact hnone.elim
      · exact .inr (.inr ⟨b, List.mem_append_right _ hb, hthrough⟩)
  · rw [hxw] at heq hfits hmarked
    have hy : y w = .error halt v := heq.symm
    rw [Run.after_of_error hy] at hfits hpass hmarked
    constructor
    · rw [Run.after_bind_of_error hy]
      exact hpass
    · rw [bind_of_error hxw, Run.bind_of_error hy]
    · rw [bind_of_error hxw, Run.after_bind_of_error hy]
      exact hfits
    · rw [bind_of_error hxw, Run.after_bind_of_error hy]
      exact hmarked

/-- Charted steps correspond to plain ones in sound worlds. -/
def charting : Correspondence Charted Run where
  rel x y := ∀ w, w.Sound → Charts (fun _ => False) x y w
  pure a w hw := .steady (x := Pure.pure a) hw (.refl w)
  bind hx hf w hw := (hx w hw).bind hf
  plain hx _ hw := .steady hw (World.calm_steady.plain hx _)
  unfinished w hw := .steady (x := Run.unfinished) hw (.refl w)

/-- The arrival of a parser is added to the chart of what the parser does. If the parser
goes through a reference itself, its arrival is the one to show it. -/
theorem Charts.arrive {p : Parser} {act : ActionIn Charted} {act' : Action} {s : Text} {i : Int}
    (h : Charts (fun r => w.behaviour p = .dispatch r) (act s i) (act' s i) w)
    (hself : Arrival.Fits ⟨p, i, w, act' s i w⟩ w ((act' s i).after w)) :
    Charts (fun _ => False) (arrive p act s i) (act' s i) w := by
  obtain ⟨hpass, heq, hfits, hmarked⟩ := h
  refine ⟨hpass, heq, fun a ha => ?_, fun r hr => ?_⟩
  · rcases List.mem_cons.mp ha with rfl | ha
    · rw [heq]
      exact hself
    · exact hfits a ha
  · rcases hmarked r hr with hold | hthrough | ⟨a, ha, hthrough⟩
    · exact .inl hold
    · exact .inr (.inr ⟨_, List.mem_cons_self, hthrough⟩)
    · exact .inr (.inr ⟨a, List.mem_cons_of_mem _ ha, hthrough⟩)

/-- The arrival of a parser that leads to no reference. -/
theorem Charts.arrive_plain {p : Parser} {act : ActionIn Charted} {act' : Action} {s : Text}
    {i : Int} (hw : w.Sound) (hrun : ∀ r, w.behaviour p ≠ .unbound r ∧ w.behaviour p ≠ .dispatch r)
    (h : Charts (fun _ => False) (act s i) (act' s i) w) :
    Charts (fun _ => False) (Charted.arrive p act s i) (act' s i) w := by
  refine h.weaken.arrive ⟨.refl hw, fun r hr => ?_, fun r hr => ?_⟩
  · exact absurd hr (hrun r).1
  · exact absurd hr (hrun r).2

variable {descend : Parser → ActionIn Charted} {descend' : Parser → Action}

/-- Following a handle is charted, if this is so for the parsers it leads to. -/
theorem charts_follow (hdescend : ∀ p s, charting.Agree s (descend p) (descend' p)) (p : Parser)
    (s : Text) : charting.Agree s (arrive p (p.follow descend)) (p.follow descend') := by
  intro i w hw
  have spares (q : Parser) (s : Text) (i : Int) : (descend' q s i).Within World.Spares :=
    fun w hw => (hdescend q s i w hw).passes
  have performs {b : Behaviour} {via : Nat → Prop} (hp : w.behaviour p = b)
      (h : Charts via (b.perform descend s i) (b.perform descend' s i) w) :
      Charts via (p.follow descend s i) (p.follow descend' s i) w := by
    subst hp
    exact ⟨h.passes, h.eq, h.fits, h.marked⟩
  have hfollow : p.follow descend' s i w = (w.behaviour p).perform descend' s i w := rfl
  cases hp : w.behaviour p with
  | run q =>
      have hplain := performs hp (hdescend q s i w hw)
      exact hplain.arrive_plain hw fun r => by simp [hp]
  | unbound r =>
      have hrecord := charting.plain (.record .warning .references
        s!"reference used before assignment at offset {i}")
      have hfails := performs hp (charting.bind hrecord (fun _ => charting.pure _) w hw)
      refine hfails.weaken.arrive ⟨.refl hw, fun k hk => ?_, fun k hk => ?_⟩
      · rw [hfollow, hp]
        obtain ⟨events, hend⟩ := Behaviour.perform_unbound r s i w
        exact ⟨events, hend descend'⟩
      · cases hp.symm.trans hk
  | dispatch r =>
      obtain ⟨hpass, -⟩ := hw.passes_markDispatched (hw.bound_of_behaviour hp)
      have henter : Charts (fun k => w.behaviour p = .dispatch k)
          (liftM (Run.enterReference r)) (Run.enterReference r) w := by
        refine .lift hpass fun k hk => ?_
        rcases World.Dispatched.of_markDispatched hk with hold | rfl
        · exact .inl hold
        · exact .inr hp
      refine Charts.arrive (performs hp (henter.bind ?_)) ⟨.refl hw, fun k hk => ?_, fun k hk => ?_⟩
      · rintro (_ | target) v hv
        · exact charting.plain (.fault _) v hv
        · exact hdescend target s i v hv
      · cases hp.symm.trans hk
      · have hafter : (p.follow descend' s i).after w =
            ((Behaviour.dispatch r).perform descend' s i).after w := by
          unfold Run.after
          rw [hfollow, hp]
        cases hp.symm.trans hk
        rw [hafter]
        exact Behaviour.dispatched_perform spares hw (hw.bound_of_behaviour hp)
  | build l =>
      have hbuild : Charts (fun _ => False) (liftM (Behaviour.buildRule l))
          (Behaviour.buildRule l) w := .steady hw (World.calm_steady.within_buildRule l w)
      have hplain := performs hp (hbuild.bind fun _ v hv => hdescend (.deferred l) s i v hv)
      exact hplain.arrive_plain hw fun r => by simp [hp]

end Charted

namespace Parser

/-- A charted run ends in a sound world as the plain one does, and its chart fits. -/
theorem charts_run (budget : Nat) (p : Parser) (s : Text) (i : Int) {w : World} (hw : w.Sound) :
    Charted.Charts (fun _ => False) (p.charted budget s i) (p.run budget s i) w := by
  have agrees : ∀ p s, Charted.charting.Agree s (charted budget p) (run budget p) := by
    induction budget with
    | zero => exact fun _ _ _ => Charted.charting.unfinished
    | succ budget ih =>
        intro p s
        apply Charted.charting.agree_action
        · intro p act act' hnot _ _ hact i w hw
          exact (hact i w hw).arrive_plain hw fun r => by
            simp [World.behaviour_of_not_isHandle hnot]
        · exact fun p _ => Charted.charts_follow ih p s
        · intro d bindings i w hw
          have hbuild : Charted.Charts (fun _ => False) (liftM (d.build bindings))
              (d.build bindings) w := .steady hw (World.calm_steady.within_build d bindings w)
          exact hbuild.bind fun q v hv => ih q s i v hv
  exact agrees p s i w hw

end Parser

end Descent
