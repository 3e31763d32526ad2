/-
# Worlds before any run

A session may set up its world before it runs anything: it makes references, gives
names to parsers, writes down rules and binds references. None of these steps runs a
parser, so nothing has been built or gone through afterwards, and all parsers that
the world holds lead to handles of the world.
-/

import Descent.Session
import Descent.Proofs.Lineage

namespace Descent

variable {α β : Type}

namespace Run

/-- If a step ends with an answer, then it meets `post`; if it ends in a fault, then in
a world that meets `left`. -/
def Leaves (left : World → Prop) (post : α → World → Prop) (x : Run α) (w : World) : Prop :=
  (∀ a v, x w = .ok a v → post a v) ∧ ∀ f v, x w = .error (.fault f) v → left v

namespace Leaves

variable {left : World → Prop} {post : α → World → Prop} {w : World}

theorem pure {a : α} (h : post a w) : Leaves left post (Pure.pure a) w := by
  constructor
  · intro b v hb
    cases hb
    exact h
  · intro f v hf
    cases hf

theorem fault {f : Fault} (h : left w) : Leaves left post (fault f) w := by
  constructor
  · intro a v ha
    cases ha
  · intro f' v hf
    cases hf
    exact h

theorem of_ok {x : Run α} {a : α} {v : World} (hx : x w = .ok a v) (h : post a v) :
    Leaves left post x w := by
  constructor
  · intro b u hb
    rw [hx] at hb
    cases hb
    exact h
  · intro f u hf
    rw [hx] at hf
    cases hf

theorem modify {change : World → World} {post : Unit → World → Prop} (h : post () (change w)) :
    Leaves left post (modify change) w := by
  constructor
  · intro a v ha
    cases ha
    exact h
  · intro f v hf
    cases hf

theorem get {f : World → Run α} (h : Leaves left post (f w) w) : Leaves left post (get >>= f) w :=
  h

/-- Writing a record changes nothing but the journal. -/
theorem record {level : Level} {channel : Channel} {text : String} {post : Unit → World → Prop}
    (h : ∀ events, post () (w.noted events)) :
    Leaves left post (record level channel text) w := by
  obtain ⟨events, hrecord⟩ := exists_record_eq_noted level channel text w
  exact of_ok hrecord (h events)

theorem bind {mid : α → World → Prop} {post : β → World → Prop} {x : Run α} {f : α → Run β}
    (hx : Leaves left mid x w) (hf : ∀ a v, mid a v → Leaves left post (f a) v) :
    Leaves left post (x >>= f) w := by
  rcases hxw : x w with ⟨a, v⟩ | ⟨halt, v⟩
  · have hbind : (x >>= f) w = f a v := bind_of_ok hxw
    have hnext := hf a v (hx.1 a v hxw)
    unfold Leaves
    rw [hbind]
    exact hnext
  · have hbind : (x >>= f) w = .error halt v := bind_of_error hxw
    constructor
    · intro b u hb
      rw [hbind] at hb
      cases hb
    · intro fault u hfault
      rw [hbind] at hfault
      cases hfault
      exact hx.2 fault v hxw

end Leaves

end Run

namespace World

theorem lookup?_assign {α : Type} (name other : String) (a : α) (entries : List (String × α)) :
    lookup? other (assign name a entries) =
      if name = other then some a else lookup? other entries := by
  unfold lookup? assign
  by_cases hname : name = other
  · simp [hname]
  · have hfilter : (entries.filter (·.1 != name)).find? (·.1 == other) =
        entries.find? (·.1 == other) := by
      rw [List.find?_filter]
      congr 1
      funext entry
      by_cases hentry : entry.1 = other
      · simp [hentry, Ne.symm hname]
      · simp [hentry]
    simp [hname, hfilter]

namespace Unrun

variable {w v : World} {p : Parser}

/-- A later world that holds parsers of the earlier one only. -/
theorem of_later (hlater : w.Later v)
    (hknown : ∀ name p, lookup? name v.names = some p → p.Alike (Counterparts w w) p)
    (htarget : ∀ (r : Nat) reference p, v.references[r]? = some reference →
      reference.target = some p → p.Alike (Counterparts w w) p)
    (hreference : ∀ (r : Nat) reference, v.references[r]? = some reference →
      reference.behaviour = .unbound r ∨ reference.behaviour = .dispatch r)
    (hdeferred : ∀ (l : Nat) handle, v.deferred[l]? = some handle → handle.behaviour = .build l) :
    v.Unrun where
  known name p hp := alike_later (hknown name p hp) hlater hlater
  target r reference p hr hp := alike_later (htarget r reference p hr hp) hlater hlater
  reference := hreference
  deferred := hdeferred

/-- Only the names, references and handles of a world count. -/
theorem congr (h : w.Unrun) (hnames : v.names = w.names) (hreferences : v.references = w.references)
    (hdeferred : v.deferred = w.deferred) : v.Unrun := by
  apply of_later (w := w)
  · intro l rule hl
    unfold ruleOf
    rw [hdeferred]
    exact hl
  · rw [hnames]
    exact h.known
  · rw [hreferences]
    exact h.target
  · rw [hreferences]
    exact h.reference
  · rw [hdeferred]
    exact h.deferred

theorem grows (h : w.Unrun) (hv : w.Grows v) : v.Unrun := by
  have hnames : v.names = w.names := by rw [hv.rest]
  have hreferences : v.references = w.references := by rw [hv.rest]
  apply of_later hv.later
  · rw [hnames]
    exact h.known
  · rw [hreferences]
    exact h.target
  · rw [hreferences]
    exact h.reference
  · intro l handle hl
    rcases hv.fresh l handle hl with hw | hbuild
    · exact h.deferred l handle hw
    · exact hbuild

/-- Give a name to a parser of the world. -/
theorem assign (h : w.Unrun) (name : String) (hp : p.Alike (Counterparts w w) p) :
    { w with names := World.assign name p w.names }.Unrun := by
  apply of_later (w := w)
  · exact fun _ _ hl => hl
  · intro other q hq
    rw [lookup?_assign] at hq
    split at hq
    · cases hq
      exact hp
    · exact h.known other q hq
  · exact h.target
  · exact h.reference
  · exact h.deferred

theorem newReference (h : w.Unrun) :
    { w with
      references := w.references.push { behaviour := .unbound w.references.size } }.Unrun := by
  apply of_later (w := w)
  · exact fun _ _ hl => hl
  · exact h.known
  · intro r reference q hr hq
    simp only [Array.getElem?_push] at hr
    split at hr
    · cases hr
      cases hq
    · exact h.target r reference q hr hq
  · intro r reference hr
    simp only [Array.getElem?_push] at hr
    split at hr
    · next heq =>
      cases hr
      exact .inl (heq ▸ rfl)
    · exact h.reference r reference hr
  · exact h.deferred

/-- Bind a reference to a parser of the world. -/
theorem bindReference (h : w.Unrun) (r : Nat) (hp : p.Alike (Counterparts w w) p) :
    { w with references := w.references.modify r fun c =>
      { c with behaviour := .dispatch r, target := some p } }.Unrun := by
  apply of_later (w := w)
  · exact fun _ _ hl => hl
  · exact h.known
  · intro k reference q hr hq
    simp only [Array.getElem?_modify] at hr
    split at hr
    · obtain ⟨c, -, rfl⟩ := Option.map_eq_some_iff.mp hr
      cases hq
      exact hp
    · exact h.target k reference q hr hq
  · intro k reference hr
    simp only [Array.getElem?_modify] at hr
    split at hr
    · next heq =>
      obtain ⟨c, -, rfl⟩ := Option.map_eq_some_iff.mp hr
      exact .inr (heq ▸ rfl)
    · exact h.reference k reference hr
  · exact h.deferred

/-- Nothing has been run in the empty world. -/
theorem empty (level : Level) : ({ threshold := level } : World).Unrun := by
  constructor
  · intro name p hp
    cases hp
  · intro r reference p hr
    simp at hr
  · intro r reference hr
    simp at hr
  · intro l handle hl
    simp at hl

/-- Building adds handles only, and what is built is a parser of the world. -/
theorem build (h : w.Unrun) (d : Description) (bindings : Bindings) :
    Run.Leaves Unrun (fun p v => v.Unrun ∧ p.Alike (Counterparts v v) p) (d.build bindings) w := by
  have hkin : w.Kin w := ⟨rfl, .refl w⟩
  constructor
  · intro p v hbuild
    obtain ⟨p', v', hbuild', hgrows, -, halike⟩ := exists_build_eq_ok h hkin hkin hbuild
    rw [hbuild] at hbuild'
    cases hbuild'
    exact ⟨h.grows hgrows, halike⟩
  · intro f v hbuild
    obtain ⟨v', -, hgrows, -⟩ := exists_build_eq_fault h hkin hkin hbuild
    exact h.grows hgrows

end Unrun

end World

namespace Step

/-- A step that runs a parser. All others set up the world, or look at it. -/
def IsRun : Step → Prop
  | .parse .. | .call .. | .parseValue .. | .parsePair .. | .parseShown .. => True
  | _ => False

variable {w : World}

theorem leaves_referenceNamed (hw : w.Unrun) (name : String) :
    Run.Leaves World.Unrun (fun _ v => v.Unrun) (referenceNamed name) w := by
  apply Run.Leaves.get
  split
  · exact .pure hw
  · exact .fault hw

/-- Giving a reference a target of the world either ends in a fault and changes
nothing, or binds the reference. -/
theorem leaves_retarget (hw : w.Unrun) (r : Nat) {p : Parser}
    (hp : p.Alike (World.Counterparts w w) p) :
    Run.Leaves World.Unrun (fun _ v => v.Unrun) (Run.retarget r p) w := by
  have bound {v : World} (hv : v.Unrun) (hp : p.Alike (World.Counterparts v v) p) :
      Run.Leaves World.Unrun (fun _ v => v.Unrun)
        (modify fun w => { w with references := w.references.modify r fun c =>
          { c with behaviour := .dispatch r, target := some p } }) v :=
    .modify (hv.bindReference r hp)
  have recorded : Run.Leaves World.Unrun
      (fun _ v => v.Unrun ∧ p.Alike (World.Counterparts v v) p)
      (Run.record .warning .references "reference bound more than once") w :=
    .record fun _ => ⟨hw.congr rfl rfl rfl, World.alike_later hp (.refl w) (.refl w)⟩
  apply Run.Leaves.get
  split
  · exact .fault hw
  · dsimp only
    split
    · exact .bind (.fault hw) fun _ _ (h : False) => h.elim
    · split
      · exact recorded.bind fun _ v ⟨hv, hpv⟩ => bound hv hpv
      · exact bound hw hp

theorem leaves_bindReference (hw : w.Unrun) (r : Nat) {p : Parser}
    (hp : p.Alike (World.Counterparts w w) p) :
    Run.Leaves World.Unrun (fun _ v => v.Unrun) (Run.bindReference r p) w := by
  have htarget := leaves_retarget hw r hp
  unfold Run.bindReference
  dsimp only
  split
  · split
    · exact .bind (.fault hw) fun _ _ (h : False) => h.elim
    · exact htarget
  · exact htarget

/-- A step that runs nothing leaves a world in which nothing has been run. -/
theorem leaves_unrun {step : Step} (hstep : ¬ step.IsRun) (budget : Nat) (hw : w.Unrun) :
    Run.Leaves World.Unrun (fun _ v => v.Unrun) (step.perform budget) w := by
  cases step with
  | threshold level =>
      have hset : { w with threshold := level }.Unrun := hw.congr rfl rfl rfl
      exact .bind (.modify hset) fun _ _ h => .pure h
  | rule name p =>
      have hset : { w with rules := World.assign name p w.rules }.Unrun := hw.congr rfl rfl rfl
      exact .bind (.modify hset) fun _ _ h => .pure h
  | reference name =>
      have made : Run.Leaves World.Unrun
          (fun p v => v.Unrun ∧ p.Alike (World.Counterparts v v) p) Run.newReference w :=
        .of_ok rfl ⟨hw.newReference, .base (.reference _)⟩
      apply made.bind
      rintro p v ⟨hv, hp⟩
      exact .bind (.modify (hv.assign name hp)) fun _ _ h => .pure h
  | assign name p =>
      apply (hw.build p []).bind
      rintro p v ⟨hv, hp⟩
      exact .bind (.modify (hv.assign name hp)) fun _ _ h => .pure h
  | bindReference name p =>
      apply (leaves_referenceNamed hw name).bind
      intro r v hv
      apply (hv.build p []).bind
      rintro p u ⟨hu, hp⟩
      exact (leaves_bindReference hu r hp).bind fun _ _ h => .pure h
  | isBound name =>
      apply (leaves_referenceNamed hw name).bind
      intro r v hv
      exact .get (.pure hv)
  | parse p input style => exact absurd trivial hstep
  | call p input offset => exact absurd trivial hstep
  | parseValue p input => exact absurd trivial hstep
  | parsePair p input => exact absurd trivial hstep
  | parseShown p input => exact absurd trivial hstep

end Step

end Descent
