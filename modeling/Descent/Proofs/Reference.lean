/-
# References in the course of runs

A reference has a behaviour, a target and a mark that says whether a run has gone
through it. In a sound world the three agree: a reference is gone through to its target
exactly if it has one, it is marked only if it has one, and its target is not itself.
Handles that took over the behaviour of a reference only go through references that are
bound. Runs keep a world sound, and all they ever do to references is to mark them.
-/

import Descent.Proofs.Frame

namespace Descent

/-- The parts of the reference of a given number agree with each other. -/
structure Reference.Sound (r : Nat) (c : Reference) : Prop where
  bound_iff : c.target.isSome = true ↔ c.behaviour = .dispatch r
  unbound_iff : c.target = none ↔ c.behaviour = .unbound r
  bound_of_dispatched : c.dispatched = true → c.target.isSome = true
  target_ne_self : c.target ≠ some (.reference r)

namespace World

/-- A reference has a target. -/
def Bound (w : World) (r : Nat) : Prop :=
  ∃ c, w.references[r]? = some c ∧ c.target.isSome = true

/-- A run has gone through a reference. -/
def Dispatched (w : World) (r : Nat) : Prop :=
  ∃ c, w.references[r]? = some c ∧ c.dispatched = true

/-- All references are sound, and no handle leads through one that is not bound. -/
structure Sound (w : World) : Prop where
  reference : ∀ (r : Nat) c, w.references[r]? = some c → c.Sound r
  handle : ∀ (l : Nat) handle r, w.deferred[l]? = some handle →
    handle.behaviour = .dispatch r → w.Bound r

/-- The references of a world are those of an earlier one, and at most marked in
addition. -/
structure Passes (w v : World) : Prop where
  sound : v.Sound
  size_eq : v.references.size = w.references.size
  kept : ∀ (r : Nat) c, w.references[r]? = some c → ∃ c', v.references[r]? = some c' ∧
    c'.behaviour = c.behaviour ∧ c'.target = c.target ∧ (c.dispatched = true → c'.dispatched = true)

variable {w v u : World} {r : Nat} {p : Parser}

theorem Passes.refl (h : w.Sound) : w.Passes w :=
  ⟨h, rfl, fun _ c hc => ⟨c, hc, rfl, rfl, id⟩⟩

theorem Passes.trans (h : w.Passes v) (h' : v.Passes u) : w.Passes u where
  sound := h'.sound
  size_eq := h'.size_eq.trans h.size_eq
  kept r c hc := by
    obtain ⟨c', hc', hbehaviour, htarget, hmark⟩ := h.kept r c hc
    obtain ⟨d, hd, hbehaviour', htarget', hmark'⟩ := h'.kept r c' hc'
    exact ⟨d, hd, hbehaviour'.trans hbehaviour, htarget'.trans htarget, fun hm => hmark' (hmark hm)⟩

theorem Dispatched.passes (h : w.Dispatched r) (hv : w.Passes v) : v.Dispatched r := by
  obtain ⟨c, hc, hmark⟩ := h
  obtain ⟨c', hc', -, -, himp⟩ := hv.kept r c hc
  exact ⟨c', hc', himp hmark⟩

/-- A reference that is not bound passes as it is. -/
theorem Passes.eq_of_unbound {c : Reference} (h : w.Passes v) (hw : w.Sound)
    (hc : w.references[r]? = some c) (hunbound : c.target = none) : v.references[r]? = some c := by
  obtain ⟨c', hc', hbehaviour, htarget, -⟩ := h.kept r c hc
  have unmarked {d : Reference} (hd : d.Sound r) (htarget : d.target = none) :
      d.dispatched = false := by
    by_contra hmark
    have hbound := hd.bound_of_dispatched (by simpa using hmark)
    rw [htarget] at hbound
    cases hbound
  have hmark := unmarked (hw.reference r c hc) hunbound
  have hmark' := unmarked (h.sound.reference r c' hc') (htarget.trans hunbound)
  rw [hc']
  cases c
  cases c'
  simp only at hbehaviour htarget hmark hmark'
  rw [hbehaviour, htarget, hmark, hmark']

/-- Nothing happens to the references of a world, and it stays sound. -/
structure Steady (w v : World) : Prop where
  references_eq : v.references = w.references
  sound : w.Sound → v.Sound

theorem Steady.refl (w : World) : w.Steady w :=
  ⟨rfl, id⟩

theorem Steady.trans (h : w.Steady v) (h' : v.Steady u) : w.Steady u :=
  ⟨h'.references_eq.trans h.references_eq, fun hw => h'.sound (h.sound hw)⟩

theorem Steady.passes (h : w.Steady v) (hw : w.Sound) : w.Passes v where
  sound := h.sound hw
  size_eq := congrArg Array.size h.references_eq
  kept _ c hc := ⟨c, h.references_eq ▸ hc, rfl, rfl, id⟩

theorem Steady.dispatched (h : w.Steady v) (hv : v.Dispatched r) : w.Dispatched r := by
  obtain ⟨c, hc, hmark⟩ := hv
  exact ⟨c, h.references_eq ▸ hc, hmark⟩

/-- Only the references and handles of a world count. -/
theorem Steady.congr (hreferences : v.references = w.references)
    (hdeferred : v.deferred = w.deferred) : w.Steady v := by
  refine ⟨hreferences, fun hw => ⟨?_, ?_⟩⟩
  · rw [hreferences]
    exact hw.reference
  · unfold Bound
    rw [hreferences, hdeferred]
    exact hw.handle

theorem Steady.noted (w : World) (events : List Event) : w.Steady (w.noted events) :=
  .congr rfl rfl

/-- New handles lead through no reference. -/
theorem Grows.steady (h : w.Grows v) : w.Steady v := by
  have hreferences : v.references = w.references := by rw [h.rest]
  refine ⟨hreferences, fun hw => ⟨?_, ?_⟩⟩
  · rw [hreferences]
    exact hw.reference
  · intro l handle r hl hdispatch
    unfold Bound
    rw [hreferences]
    rcases h.fresh l handle hl with hold | hbuild
    · exact hw.handle l handle r hold hdispatch
    · rw [hbuild] at hdispatch
      cases hdispatch

/-- What a parser does at present leads through a reference only if that is bound. -/
theorem Sound.bound_of_behaviour (h : w.Sound) (hp : w.behaviour p = .dispatch r) : w.Bound r := by
  by_cases hhandle : p.IsHandle
  · cases p with
    | reference k =>
        rw [behaviour_reference] at hp
        unfold referent at hp
        cases hc : w.references[k]? with
        | none =>
            rw [hc] at hp
            cases hp
        | some c =>
            rw [hc] at hp
            have hbehaviour : c.behaviour = .dispatch r := hp
            have hsound := h.reference k c hc
            cases htarget : c.target with
            | none =>
                rw [hsound.unbound_iff.mp htarget] at hbehaviour
                cases hbehaviour
            | some q =>
                have hself := hsound.bound_iff.mp (by rw [htarget]; rfl)
                rw [hbehaviour] at hself
                cases hself
                exact ⟨c, hc, by rw [htarget]; rfl⟩
    | deferred l =>
        cases hl : w.deferred[l]? with
        | none =>
            simp only [behaviour, hl] at hp
            cases hp
        | some handle =>
            simp only [behaviour, hl] at hp
            exact h.handle l handle r hl hp
    | _ => cases hhandle
  · rw [behaviour_of_not_isHandle hhandle] at hp
    cases hp

theorem getElem?_markDispatched (w : World) (r k : Nat) :
    (w.markDispatched r).references[k]? =
      if r = k then (w.references[k]?).map fun c => { c with dispatched := true }
      else w.references[k]? := by
  simp [markDispatched, Array.getElem?_modify]

theorem Dispatched.of_markDispatched {k : Nat} (h : (w.markDispatched r).Dispatched k) :
    w.Dispatched k ∨ r = k := by
  obtain ⟨c, hc, hmark⟩ := h
  rw [getElem?_markDispatched] at hc
  split at hc
  · next heq => exact .inr heq
  · exact .inl ⟨c, hc, hmark⟩

/-- To go through a reference that is bound is to mark it. -/
theorem Sound.passes_markDispatched (h : w.Sound) (hr : w.Bound r) :
    w.Passes (w.markDispatched r) ∧ (w.markDispatched r).Dispatched r := by
  obtain ⟨c, hc, htarget⟩ := hr
  have kept (k : Nat) (d : Reference) (hd : w.references[k]? = some d) :
      ∃ d', (w.markDispatched r).references[k]? = some d' ∧ d'.behaviour = d.behaviour ∧
        d'.target = d.target ∧ (d.dispatched = true → d'.dispatched = true) := by
    rw [getElem?_markDispatched]
    split
    · exact ⟨{ d with dispatched := true }, by rw [hd]; rfl, rfl, rfl, fun _ => rfl⟩
    · exact ⟨d, hd, rfl, rfl, id⟩
  refine ⟨⟨⟨?_, ?_⟩, ?_, kept⟩, ⟨{ c with dispatched := true }, ?_, rfl⟩⟩
  · intro k d hd
    rw [getElem?_markDispatched] at hd
    split at hd
    · next heq =>
      subst heq
      rw [hc] at hd
      cases hd
      have hsound := h.reference r c hc
      exact ⟨hsound.bound_iff, hsound.unbound_iff, fun _ => htarget, hsound.target_ne_self⟩
    · exact h.reference k d hd
  · intro l handle k hl hdispatch
    obtain ⟨d, hd, hbound⟩ := h.handle l handle k hl hdispatch
    obtain ⟨d', hd', -, heq, -⟩ := kept k d hd
    exact ⟨d', hd', heq ▸ hbound⟩
  · simp [markDispatched]
  · rw [getElem?_markDispatched, if_pos rfl, hc]
    rfl

/-- A handle may keep what any parser does at present. -/
theorem Steady.keepBehaviour (w : World) (l : Nat) (p : Parser) :
    w.Steady (w.keepBehaviour l (w.behaviour p)) := by
  refine ⟨rfl, fun hw => ⟨hw.reference, ?_⟩⟩
  intro k handle r hk hdispatch
  simp only [World.keepBehaviour, Array.getElem?_modify] at hk
  split at hk
  · obtain ⟨c, -, rfl⟩ := Option.map_eq_some_iff.mp hk
    exact hw.bound_of_behaviour hdispatch
  · exact hw.handle k handle r hk hdispatch

theorem calm_steady : Calm Steady where
  refl := .refl
  trans := .trans
  noted := .noted
  grows := Grows.steady
  keepBehaviour := .keepBehaviour

/-- A step that does nothing to the references of a sound world but to mark them. -/
def Spares (w v : World) : Prop :=
  w.Sound → w.Passes v

/-- A run does nothing to the references of a sound world but to mark them. -/
theorem frame_spares : Frame Spares where
  refl _ := .refl
  trans h h' hw := (h hw).trans (h' (h hw).sound)
  noted w events := (Steady.noted w events).passes
  grows h := h.steady.passes
  keepBehaviour w l p := (Steady.keepBehaviour w l p).passes
  markDispatched hp hw := (hw.passes_markDispatched (hw.bound_of_behaviour hp)).1

end World

/-- To go through a reference that is bound marks it for good. -/
theorem Behaviour.dispatched_perform {descend : Parser → Action} {w : World} {r : Nat} {s : Text}
    {i : Int} (hdescend : ∀ p s i, (descend p s i).Within World.Spares) (hw : w.Sound)
    (hr : w.Bound r) : ((perform descend (.dispatch r) s i).after w).Dispatched r := by
  obtain ⟨hpass, hmark⟩ := hw.passes_markDispatched hr
  have hsteps : ∃ next : Option Parser → Run Reply,
      perform descend (.dispatch r) s i = Run.enterReference r >>= next ∧
        ∀ target, (next target).Within World.Spares := by
    refine ⟨_, rfl, ?_⟩
    rintro (_ | target)
    · exact World.frame_spares.fault _
    · exact hdescend target s i
  obtain ⟨next, hperform, hnext⟩ := hsteps
  have enters : Run.enterReference r w =
      .ok (((w.markDispatched r).references[r]?).bind (·.target)) (w.markDispatched r) := rfl
  rw [hperform, Run.after_bind_of_ok enters]
  exact hmark.passes (hnext _ _ hpass.sound)

end Descent
