/-
# What steps leave of a world

A step leaves a world whichever way it ends. What is kept by all the steps of a run
is stated as a relation between the world before and the world left: if the relation
can be composed and each step stands in it, then so does the run as a whole.
Building is the first case. It only ever adds handles that have not been built.
-/

import Descent.Proofs.Carrier
import Descent.Proofs.Lineage

namespace Descent

variable {α β : Type}

namespace Run

/-- The world that a step leaves. -/
def after (x : Run α) (w : World) : World :=
  match x w with
  | .ok _ v => v
  | .error _ v => v

variable {x : Run α} {w v : World}

theorem after_of_ok {a : α} (h : x w = .ok a v) : x.after w = v := by
  unfold after
  rw [h]

theorem after_of_error {halt : Halt} (h : x w = .error halt v) : x.after w = v := by
  unfold after
  rw [h]

theorem after_bind_of_ok {f : α → Run β} {a : α} (h : x w = .ok a v) :
    (x >>= f).after w = (f a).after v := by
  unfold after
  rw [bind_of_ok h]

theorem after_bind_of_error {f : α → Run β} {halt : Halt} (h : x w = .error halt v) :
    (x >>= f).after w = v :=
  after_of_error (bind_of_error h)

theorem after_bind_pure (x : Run α) (f : α → β) (w : World) :
    (x >>= fun a => pure (f a)).after w = x.after w := by
  rcases hxw : x w with ⟨a, v⟩ | ⟨halt, v⟩
  · rw [after_bind_of_ok hxw, after_of_ok hxw]
    rfl
  · rw [after_bind_of_error hxw, after_of_error hxw]

/-- A plain step changes nothing but the journal. -/
theorem Plain.exists_after_eq (hx : x.Plain) (w : World) :
    ∃ events, x.after w = w.noted events := by
  obtain ⟨call, hcall⟩ := hx w.threshold
  have hw := hcall w rfl
  rcases hresult : call.result with f | a
  · rw [ofCall_of_error hresult] at hw
    exact ⟨call.events, after_of_error hw⟩
  · rw [ofCall_of_ok hresult] at hw
    exact ⟨call.events, after_of_ok hw⟩

/-- Whichever way a step ends, the world it leaves stands in a relation to the one it
was made in. -/
def Within (R : World → World → Prop) (x : Run α) : Prop :=
  ∀ w, R w (x.after w)

theorem Within.modify {R : World → World → Prop} {change : World → World}
    (h : ∀ w, R w (change w)) : Within R (modify change : Run Unit) :=
  h

theorem Within.get {R : World → World → Prop} {f : World → Run α}
    (h : ∀ w, R w ((f w).after w)) : Within R (get >>= f) :=
  h

end Run

/-- A relation between worlds that can be composed along the steps of a run. -/
structure World.Composes (R : World → World → Prop) : Prop where
  refl : ∀ w, R w w
  trans : ∀ {u v w}, R u v → R v w → R u w

namespace World.Composes

variable {R : World → World → Prop} (hR : Composes R)

include hR

theorem pure (a : α) : (Pure.pure a : Run α).Within R :=
  hR.refl

theorem fault (f : Fault) : (Run.fault f : Run α).Within R :=
  hR.refl

theorem bind {x : Run α} {f : α → Run β} (hx : x.Within R) (hf : ∀ a, (f a).Within R) :
    (x >>= f).Within R := by
  intro w
  have hw := hx w
  rcases hxw : x w with ⟨a, v⟩ | ⟨halt, v⟩
  · rw [Run.after_of_ok hxw] at hw
    rw [Run.after_bind_of_ok hxw]
    exact hR.trans hw (hf a v)
  · rw [Run.after_of_error hxw] at hw
    rw [Run.after_bind_of_error hxw]
    exact hw

theorem ofExcept (r : Except Fault α) : (Run.ofExcept r).Within R := by
  cases r with
  | ok a => exact hR.pure a
  | error f => exact hR.fault f

end World.Composes

namespace World

theorem Grows.trans {u v w : World} (h : u.Grows v) (h' : v.Grows w) : u.Grows w where
  rest := by
    rw [h'.rest, h.rest]
  kept l handle hl := h'.kept l handle (h.kept l handle hl)
  fresh l handle hl := by
    rcases h'.fresh l handle hl with hv | hbuild
    · exact h.fresh l handle hv
    · exact .inr hbuild

theorem composes_grows : Composes Grows :=
  ⟨.refl, .trans⟩

end World

namespace Description

open World (composes_grows)

theorem within_inOrder {steps : List (Run α)} (h : ∀ step ∈ steps, step.Within World.Grows) :
    (inOrder steps).Within World.Grows := by
  induction steps with
  | nil => exact composes_grows.pure _
  | cons step steps ih =>
      refine composes_grows.bind (h step List.mem_cons_self) fun a => ?_
      have hrest := ih fun other hmem => h other (List.mem_cons_of_mem _ hmem)
      exact composes_grows.bind hrest fun _ => composes_grows.pure _

theorem within_newDeferred (rule : String) : (Run.newDeferred rule).Within World.Grows :=
  fun w => (World.Grows.refl w).withDeferred rule

/-- Building adds handles to a world and changes nothing else of it. -/
theorem within_build (d : Description) (bindings : Bindings) :
    (d.build bindings).Within World.Grows := by
  have row {n : Nat} {ps : Fin n → Description}
      (h : ∀ k, ((ps k).build bindings).Within World.Grows) :
      (inOrder (List.ofFn fun k => (ps k).build bindings)).Within World.Grows := by
    refine within_inOrder fun step hmem => ?_
    obtain ⟨k, rfl⟩ := List.mem_ofFn.mp hmem
    exact h k
  have hR := composes_grows
  induction d with
  | atom a => exact hR.ofExcept _
  | wrap m p ih => exact hR.bind ih fun _ => hR.ofExcept _
  | join j p q ihp ihq => exact hR.bind ihp fun _ => hR.bind ihq fun _ => hR.pure _
  | between opening closing p iho ihc ihp =>
      exact hR.bind iho fun _ => hR.bind ihc fun _ => hR.bind ihp fun _ => hR.pure _
  | seq n ps ih => exact hR.bind (row ih) fun _ => hR.pure _
  | alt n ps ih => exact hR.bind (row ih) fun _ => hR.pure _
  | seqMap n ps f ih =>
      refine hR.bind (row ih) fun _ => ?_
      cases f with
      | none => exact hR.fault _
      | some f => exact hR.pure _
  | bind p name q ihp ihq => exact hR.bind ihp fun _ => hR.pure _
  | choose first second p q ihp ihq =>
      refine hR.bind (hR.ofExcept _) fun a => hR.bind (hR.ofExcept _) fun b => ?_
      split
      · exact ihp
      · exact ihq
  | known name =>
      refine .get fun w => ?_
      cases World.lookup? name w.names with
      | none => exact .refl w
      | some p => exact .refl w
  | deferred rule description =>
      refine hR.bind (within_newDeferred rule) fun _ => ?_
      cases description with
      | none => exact hR.pure _
      | some text => exact hR.pure _

theorem grows_of_build {d : Description} {bindings : Bindings} {w v : World} {p : Parser}
    (h : d.build bindings w = .ok p v) : w.Grows v := by
  have hgrows := d.within_build bindings w
  rw [Run.after_of_ok h] at hgrows
  exact hgrows

end Description

/-- What stands between the worlds before and after events are noted, handles that have
not been built are added, and a handle is given the present behaviour of a parser. -/
structure World.Calm (R : World → World → Prop) : Prop extends World.Composes R where
  noted : ∀ w events, R w (w.noted events)
  grows : ∀ {w v}, w.Grows v → R w v
  keepBehaviour : ∀ w l p, R w (w.keepBehaviour l (w.behaviour p))

/-- What stands between the worlds before and after every step of a run. Only such
references are marked as a parser leads through. -/
structure World.Frame (R : World → World → Prop) : Prop extends World.Calm R where
  markDispatched : ∀ {w p r}, w.behaviour p = .dispatch r → R w (w.markDispatched r)

namespace World.Calm

variable {R : World → World → Prop} (hR : Calm R)

include hR

theorem plain {x : Run α} (hx : x.Plain) : x.Within R := by
  intro w
  obtain ⟨events, hw⟩ := hx.exists_after_eq w
  rw [hw]
  exact hR.noted w events

theorem within_build (d : Description) (bindings : Bindings) : (d.build bindings).Within R :=
  fun w => hR.grows (d.within_build bindings w)

theorem within_buildRule (l : Nat) : (Behaviour.buildRule l).Within R := by
  refine .get fun w => ?_
  cases w.deferred[l]? with
  | none => exact hR.refl w
  | some handle =>
      have hnote : (Run.note (.built handle.rule)).Within R :=
        .modify fun w => hR.noted w [.built handle.rule]
      refine hR.bind hnote (fun _ => .get fun v => ?_) w
      cases lookup? handle.rule v.rules with
      | none => exact hR.refl v
      | some description =>
          refine hR.bind (hR.within_build description []) (fun target => ?_) v
          exact .modify fun u => hR.keepBehaviour u l target

end World.Calm

/-- A reference that was not bound when its behaviour was taken fails where it is run,
and nothing but the journal changes. -/
theorem Behaviour.perform_unbound (r : Nat) (s : Text) (i : Int) (w : World) :
    ∃ events, ∀ descend : Parser → Action, perform descend (.unbound r) s i w =
      .ok (.error i unboundExpectation) (w.noted events) := by
  obtain ⟨events, hrecord⟩ := Run.exists_record_eq_noted .warning .references
    s!"reference used before assignment at offset {i}" w
  exact ⟨events, fun _ => Run.bind_of_ok hrecord⟩

namespace World.Frame

variable {R : World → World → Prop} (hR : Frame R) {descend : Parser → Action}

include hR

/-- Following a handle keeps to a frame, if this is so for the parsers it leads to. -/
theorem within_follow (hdescend : ∀ p s i, (descend p s i).Within R) (p : Parser) (s : Text)
    (i : Int) : (p.follow descend s i).Within R := by
  intro w
  have hfollow : (p.follow descend s i).after w =
      ((w.behaviour p).perform descend s i).after w := rfl
  rw [hfollow]
  cases hp : w.behaviour p with
  | run q => exact hdescend q s i w
  | unbound r =>
      obtain ⟨events, hend⟩ := Behaviour.perform_unbound r s i w
      rw [Run.after_of_ok (hend descend)]
      exact hR.noted w events
  | dispatch r =>
      have henter : Run.enterReference r w =
        .ok (((w.markDispatched r).references[r]?).bind (·.target)) (w.markDispatched r) := rfl
      refine hR.trans (hR.markDispatched hp) ?_
      have hperform : ∃ next : Option Parser → Run Reply,
          Behaviour.perform descend (.dispatch r) s i = Run.enterReference r >>= next ∧
            ∀ target, (next target).Within R := by
        refine ⟨_, rfl, ?_⟩
        rintro (_ | target)
        · exact hR.fault _
        · exact hdescend target s i
      obtain ⟨next, heq, hnext⟩ := hperform
      rw [heq, Run.after_bind_of_ok henter]
      exact hnext _ _
  | build l =>
      exact hR.bind (hR.within_buildRule l) (fun _ => hdescend (.deferred l) s i) w

/-- Every run keeps to a frame. -/
theorem within_run (budget : Nat) (p : Parser) (s : Text) (i : Int) :
    (p.run budget s i).Within R := by
  -- The steps of a run correspond to themselves as far as they keep to the frame.
  let keeping : Correspondence Run Run := {
    rel := fun x y => x = y ∧ x.Within R
    pure := fun a => ⟨rfl, hR.pure a⟩
    bind := by
      rintro α β x _ f g ⟨rfl, hx⟩ hf
      obtain rfl : f = g := funext fun a => (hf a).1
      exact ⟨rfl, hR.bind hx fun a => (hf a).2⟩
    plain := fun hx => ⟨rfl, hR.plain hx⟩
    unfinished := ⟨rfl, hR.refl⟩ }
  induction budget generalizing p s i with
  | zero => exact hR.refl
  | succ budget ih =>
      have agrees : keeping.Agree s (p.action (fun _ act => act) (Parser.run budget) budget)
          (p.action (fun _ act => act) (Parser.run budget) budget) := by
        apply keeping.agree_action
        · exact fun _ _ _ _ _ _ hact => hact
        · exact fun p _ i => ⟨rfl, hR.within_follow ih p s i⟩
        · exact fun d bindings i =>
            ⟨rfl, hR.bind (hR.within_build d bindings) fun q => ih q s i⟩
      exact (agrees i).2

end World.Frame

end Descent
