/-
# Steps of runs

How a sequence of steps ends, in terms of how its steps end. These facts open the
plain runs of primitive actions, so that nothing else has to look into the monad.
-/

import Descent.World

namespace Descent

variable {α β : Type}

namespace Run

/-- A sequence of steps ends with a result if and only if each step does. -/
theorem bind_eq_ok {x : Run α} {f : α → Run β} {w w' : World} {b : β} :
    (x >>= f) w = .ok b w' ↔ ∃ a v, x w = .ok a v ∧ f a v = .ok b w' := by
  change EStateM.bind x f w = .ok b w' ↔ _
  unfold EStateM.bind
  cases x w with
  | ok a v =>
      constructor
      · exact fun h => ⟨a, v, rfl, h⟩
      · rintro ⟨a', v', heq, h⟩
        cases heq
        exact h
  | error halt v => simp

theorem bind_of_ok {x : Run α} {f : α → Run β} {w v : World} {a : α} (h : x w = .ok a v) :
    (x >>= f) w = f a v := by
  change EStateM.bind x f w = f a v
  unfold EStateM.bind
  rw [h]

/-- After a halt nothing more takes place. -/
theorem bind_of_error {x : Run α} {f : α → Run β} {w v : World} {halt : Halt}
    (h : x w = .error halt v) : (x >>= f) w = .error halt v := by
  change EStateM.bind x f w = .error halt v
  unfold EStateM.bind
  rw [h]

theorem get_bind (f : World → Run α) (w : World) : (get >>= f) w = f w w :=
  rfl

theorem pure_eq_ok {a b : α} {w w' : World} :
    (pure a : Run α) w = .ok b w' ↔ a = b ∧ w = w' := by
  change EStateM.Result.ok a w = .ok b w' ↔ _
  simp

theorem run'_of_ok {x : Run α} {w v : World} {a : α} (h : x w = .ok a v) :
    x.run' w = some a := by
  delta EStateM.run' EStateM.run
  rw [h]

theorem run'_of_error {x : Run α} {w v : World} {halt : Halt}
    (h : x w = .error halt v) : x.run' w = none := by
  delta EStateM.run' EStateM.run
  rw [h]

theorem exists_of_run'_eq_some {x : Run α} {w : World} {a : α}
    (h : x.run' w = some a) : ∃ v, x w = .ok a v := by
  rcases hx : x w with ⟨b, v⟩ | ⟨halt, v⟩
  · rw [run'_of_ok hx] at h
    cases h
    exact ⟨v, rfl⟩
  · rw [run'_of_error hx] at h
    cases h

theorem fault_ne_ok {f : Fault} {w w' : World} {a : α} : (fault f : Run α) w ≠ .ok a w' := by
  intro h
  cases h

theorem record_apply (level : Level) (channel : Channel) (text : String) (w : World) :
    record level channel text w =
      (if level.passes w.threshold then note (.record level channel text) else pure ()) w :=
  rfl

/-- Writing a record comes to its end, whether the record passes or not. -/
theorem exists_record_eq (level : Level) (channel : Channel) (text : String) (w : World) :
    ∃ w', record level channel text w = .ok () w' := by
  rw [record_apply]
  split
  · exact ⟨_, rfl⟩
  · exact ⟨_, rfl⟩

end Run

/-- The world after events have been noted in it. -/
def World.noted (w : World) (events : List Event) : World :=
  { w with journal := events.reverse ++ w.journal }

/-- A condition on worlds that the journal has no part in. -/
def World.Quiet (holds : World → Prop) : Prop :=
  ∀ (w : World) (events : List Event), holds w → holds (w.noted events)

namespace Run

/-- A record leaves a trace in the journal or none at all. -/
theorem exists_record_eq_noted (level : Level) (channel : Channel) (text : String) (w : World) :
    ∃ events, record level channel text w = .ok () (w.noted events) := by
  rw [record_apply]
  split
  · exact ⟨[.record level channel text], rfl⟩
  · exact ⟨[], rfl⟩

theorem ofCall_of_ok {call : Call α} {a : α} (h : call.result = .ok a) (w : World) :
    ofCall call w = .ok a (w.noted call.events) := by
  have hbind : ofCall call w = ofExcept call.result (w.noted call.events) := rfl
  rw [hbind, h]
  rfl

theorem ofCall_of_error {call : Call α} {f : Fault} (h : call.result = .error f) (w : World) :
    ofCall call w = .error (.fault f) (w.noted call.events) := by
  have hbind : ofCall call w = ofExcept call.result (w.noted call.events) := rfl
  rw [hbind, h]
  rfl

/-- One call after another is a single call. -/
theorem ofCall_bind (call : Call α) (f : α → Call β) :
    ofCall (call.bind f) = ofCall call >>= fun a => ofCall (f a) := by
  funext w
  rcases hcall : call.result with fault | a
  · rw [bind_of_error (ofCall_of_error hcall w)]
    have hresult : (call.bind f).result = .error fault := by simp [Call.bind, hcall]
    rw [ofCall_of_error hresult]
    simp [Call.bind, hcall]
  · have hevents : w.noted (call.bind f).events = (w.noted call.events).noted (f a).events := by
      simp [Call.bind, hcall, World.noted]
    have hresult : (call.bind f).result = (f a).result := by simp [Call.bind, hcall]
    rw [bind_of_ok (ofCall_of_ok hcall w)]
    rcases hnext : (f a).result with fault | b
    · rw [ofCall_of_error hnext, ofCall_of_error (hresult.trans hnext), hevents]
    · rw [ofCall_of_ok hnext, ofCall_of_ok (hresult.trans hnext), hevents]

/-- A blind step looks at nothing of the world, and changes nothing of it but the
journal: it is a call. -/
def Blind (x : Run α) : Prop :=
  ∃ call, x = ofCall call

namespace Blind

theorem ofCall (call : Call α) : (ofCall call).Blind :=
  ⟨call, rfl⟩

theorem pure (a : α) : (Pure.pure a : Run α).Blind :=
  ⟨.answer a, rfl⟩

theorem fault (f : Fault) : (fault f : Run α).Blind :=
  ⟨.giveUp f, rfl⟩

theorem ofExcept (r : Except Fault α) : (ofExcept r).Blind := by
  cases r with
  | ok a => exact pure a
  | error f => exact fault f

theorem bind {x : Run α} {f : α → Run β} (hx : x.Blind) (hf : ∀ a, (f a).Blind) :
    (x >>= f).Blind := by
  obtain ⟨call, rfl⟩ := hx
  refine ⟨call.bind fun a => (hf a).choose, ?_⟩
  rw [ofCall_bind]
  exact congrArg _ (funext fun a => (hf a).choose_spec)

theorem ite {p : Prop} [Decidable p] {x y : Run α} (hx : x.Blind) (hy : y.Blind) :
    (if p then x else y).Blind := by
  split
  · exact hx
  · exact hy

end Blind

/-- A plain step looks at nothing of the world but the threshold, and changes
nothing of it but the journal: below each threshold it is a call. -/
def Plain (x : Run α) : Prop :=
  ∀ level, ∃ call, ∀ w : World, w.threshold = level → x w = ofCall call w

theorem Blind.plain {x : Run α} (h : x.Blind) : x.Plain := by
  obtain ⟨call, rfl⟩ := h
  exact fun _ => ⟨call, fun _ _ => rfl⟩

namespace Plain

theorem ofCall (call : Call α) : (ofCall call).Plain :=
  (Blind.ofCall call).plain

theorem pure (a : α) : (Pure.pure a : Run α).Plain :=
  (Blind.pure a).plain

theorem fault (f : Fault) : (fault f : Run α).Plain :=
  (Blind.fault f).plain

theorem ofExcept (r : Except Fault α) : (ofExcept r).Plain :=
  (Blind.ofExcept r).plain

theorem bind {x : Run α} {f : α → Run β} (hx : x.Plain) (hf : ∀ a, (f a).Plain) :
    (x >>= f).Plain := by
  intro level
  obtain ⟨call, hcall⟩ := hx level
  rcases hresult : call.result with fault | a
  · refine ⟨⟨call.events, .error fault⟩, fun w hw => ?_⟩
    have hxw := (hcall w hw).trans (ofCall_of_error hresult w)
    rw [bind_of_error hxw]
    rfl
  · obtain ⟨next, hnext⟩ := hf a level
    refine ⟨call.bind fun _ => next, fun w hw => ?_⟩
    have hxw := (hcall w hw).trans (ofCall_of_ok hresult w)
    rw [bind_of_ok hxw, ofCall_bind, bind_of_ok (ofCall_of_ok hresult w)]
    exact hnext _ hw

theorem ite {p : Prop} [Decidable p] {x y : Run α} (hx : x.Plain) (hy : y.Plain) :
    (if p then x else y).Plain := by
  split
  · exact hx
  · exact hy

theorem record (level : Level) (channel : Channel) (text : String) :
    (record level channel text).Plain := by
  intro threshold
  by_cases hpasses : level.passes threshold
  · refine ⟨.announce (.record level channel text) (), fun w hw => ?_⟩
    rw [record_apply, if_pos (hw ▸ hpasses)]
    rfl
  · refine ⟨.answer (), fun w hw => ?_⟩
    rw [record_apply, if_neg (hw ▸ hpasses)]
    rfl

end Plain

/-- The step ends with an answer in every world and changes nothing but the journal. -/
def Inert (x : Run α) (a : α) : Prop :=
  ∀ w, ∃ events, x w = .ok a (w.noted events)

namespace Inert

theorem pure (a : α) : (Pure.pure a : Run α).Inert a :=
  fun _ => ⟨[], rfl⟩

theorem record (level : Level) (channel : Channel) (text : String) :
    (record level channel text).Inert () :=
  exists_record_eq_noted level channel text

theorem bind {x : Run α} {f : α → Run β} {a : α} {b : β} (hx : x.Inert a) (hf : (f a).Inert b) :
    (x >>= f).Inert b := by
  intro w
  obtain ⟨events, hx⟩ := hx w
  obtain ⟨events', hf⟩ := hf (w.noted events)
  refine ⟨events ++ events', ?_⟩
  rw [bind_of_ok hx, hf]
  simp [World.noted]

theorem ite {p : Prop} [Decidable p] {x y : Run α} {a : α} (hx : x.Inert a) (hy : y.Inert a) :
    (if p then x else y).Inert a := by
  split
  · exact hx
  · exact hy

end Inert

end Run

end Descent
