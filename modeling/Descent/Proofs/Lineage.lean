/-
# Handles of a lineage of worlds

Runs change the world they are made in: they make new handles for deferred rules and
keep what they have built for old ones. What a handle leads to does not change
thereby, since the rules and names are those of the world at the start. Handles of
two later worlds therefore correspond if they belong to the same rule, whatever
numbers they have, and what is built from one rule in two such worlds is alike.
-/

import Descent.Proofs.Building
import Descent.Proofs.Carrier

namespace Descent

open Filter

namespace World

/-- The rule that a handle belongs to. -/
def ruleOf (w : World) (l : Nat) : Option String :=
  (w.deferred[l]?).map (·.rule)

/-- Every handle of one world belongs to the same rule in the other. -/
def Later (w v : World) : Prop :=
  ∀ l rule, w.ruleOf l = some rule → v.ruleOf l = some rule

theorem Later.refl (w : World) : w.Later w :=
  fun _ _ h => h

theorem Later.trans {u v w : World} (h : u.Later v) (h' : v.Later w) : u.Later w :=
  fun l rule hl => h' l rule (h l rule hl)

/-- Parts of parsers in two worlds that lead to the same: they are the same, or
handles of the same rule. -/
inductive Counterparts (w w' : World) : Parser → Parser → Prop
  | primitive {p : Parser} (h : p.Primitive) : Counterparts w w' p p
  | built (d : Description) (bindings : Bindings) :
      Counterparts w w' (.built d bindings) (.built d bindings)
  | reference (r : Nat) : Counterparts w w' (.reference r) (.reference r)
  | deferred {l l' : Nat} {rule : String} (h : w.ruleOf l = some rule)
      (h' : w'.ruleOf l' = some rule) : Counterparts w w' (.deferred l) (.deferred l')

theorem Counterparts.later {w w' v v' : World} {p p' : Parser} (h : Counterparts w w' p p')
    (hv : w.Later v) (hv' : w'.Later v') : Counterparts v v' p p' := by
  cases h with
  | primitive h => exact .primitive h
  | built d bindings => exact .built d bindings
  | reference r => exact .reference r
  | deferred h h' => exact .deferred (hv _ _ h) (hv' _ _ h')

/-- A parser of a world keeps to itself in all later worlds. -/
theorem alike_later {w w' v v' : World} {p p' : Parser} (h : p.Alike (Counterparts w w') p')
    (hv : w.Later v) (hv' : w'.Later v') : p.Alike (Counterparts v v') p' :=
  h.mono fun _ _ hbase => hbase.later hv hv'

/-- A world that differs from another one by new handles only, none of which has
been built. -/
structure Grows (w v : World) : Prop where
  rest : v = { w with deferred := v.deferred }
  kept : ∀ (l : Nat) handle, w.deferred[l]? = some handle → v.deferred[l]? = some handle
  fresh : ∀ (l : Nat) handle, v.deferred[l]? = some handle →
    w.deferred[l]? = some handle ∨ handle.behaviour = .build l

theorem Grows.refl (w : World) : w.Grows w :=
  ⟨rfl, fun _ _ h => h, fun _ _ h => .inl h⟩

theorem Grows.later {w v : World} (h : w.Grows v) : w.Later v := by
  intro l rule hl
  obtain ⟨handle, hhandle, hrule⟩ := Option.map_eq_some_iff.mp hl
  unfold ruleOf
  rw [h.kept l handle hhandle]
  exact congrArg some hrule

/-- The world with one more handle. -/
def withDeferred (w : World) (rule : String) : World :=
  { w with deferred := w.deferred.push ⟨rule, .build w.deferred.size⟩ }

theorem newDeferred_eq (w : World) (rule : String) :
    Run.newDeferred rule w = .ok (.deferred w.deferred.size) (w.withDeferred rule) :=
  rfl

theorem ruleOf_withDeferred (w : World) (rule : String) :
    (w.withDeferred rule).ruleOf w.deferred.size = some rule := by
  simp [ruleOf, withDeferred]

theorem Grows.withDeferred {w v : World} (h : w.Grows v) (rule : String) :
    w.Grows (v.withDeferred rule) where
  rest := by
    rw [h.rest]
    rfl
  kept l handle hl := by
    have hv := h.kept l handle hl
    have hlt : l < v.deferred.size := (Array.getElem?_eq_some_iff.mp hv).1
    simp only [World.withDeferred]
    rw [Array.getElem?_push_lt hlt, ← hv, Array.getElem?_eq_getElem hlt]
  fresh l handle hl := by
    simp only [World.withDeferred, Array.getElem?_push] at hl
    split at hl
    · next heq =>
      cases hl
      exact .inr (heq ▸ rfl)
    · exact h.fresh l handle hl

/-- A world in which nothing has been run: no rule has been built, no reference has
been taken over by another behaviour, and parsers that are kept in the world lead
to handles of the world only. -/
structure Unrun (o : World) : Prop where
  known : ∀ name p, lookup? name o.names = some p → p.Alike (Counterparts o o) p
  target : ∀ (r : Nat) reference p, o.references[r]? = some reference → reference.target = some p →
    p.Alike (Counterparts o o) p
  reference : ∀ (r : Nat) reference, o.references[r]? = some reference →
    reference.behaviour = .unbound r ∨ reference.behaviour = .dispatch r
  deferred : ∀ (l : Nat) handle, o.deferred[l]? = some handle → handle.behaviour = .build l

/-- A world in which names stand for what they stood for at the start. -/
structure Kin (o w : World) : Prop where
  names : w.names = o.names
  later : o.Later w

end World

/-- Constructions in two worlds, each of which adds handles to its own. -/
def Comparison.growth (w w' : World) : Comparison where
  related v v' := w.Grows v ∧ w'.Grows v'
  later := World.Later
  faults f f' := f = f'
  later_refl := .refl
  later_trans := .trans

namespace Comparison.BuildsAlike

variable {base : World → World → Parser → Parser → Prop} {bindings : Bindings}
  {d d' : Description} {w w' v : World} {p : Parser}

theorem exists_eq_ok (h : (growth w w').BuildsAlike base bindings d d')
    (hbuild : d.build bindings w = .ok p v) :
    ∃ p' v', d'.build bindings w' = .ok p' v' ∧ w.Grows v ∧ w'.Grows v' ∧
      p.Alike (base v v') p' := by
  obtain ⟨p', v', hp', hreach, hp⟩ := (h w w' ⟨.refl w, .refl w'⟩).exists_of_ok hbuild
  obtain ⟨n, hn⟩ := hp'.exists
  exact ⟨p', v', hn, hreach.related.1, hreach.related.2, hp⟩

theorem exists_eq_fault {f : Fault} (h : (growth w w').BuildsAlike base bindings d d')
    (hbuild : d.build bindings w = .error (.fault f) v) :
    ∃ v', d'.build bindings w' = .error (.fault f) v' ∧ w.Grows v ∧ w'.Grows v' := by
  obtain ⟨_, v', hf', hreach, rfl⟩ := (h w w' ⟨.refl w, .refl w'⟩).exists_of_fault hbuild
  obtain ⟨n, hn⟩ := hf'.exists
  exact ⟨v', hn, hreach.related.1, hreach.related.2⟩

end Comparison.BuildsAlike

namespace World

variable {o w w' v : World} {d : Description} {bindings : Bindings} {p p' : Parser}

theorem Kin.grows (h : o.Kin w) (hv : w.Grows v) : o.Kin v where
  names := by
    rw [hv.rest]
    exact h.names
  later := h.later.trans hv.later

/-- New handles of one rule are made in both worlds. -/
theorem follows_newDeferred {u u' : World} {post : World → World → Parser → Parser → Prop}
    (rule : String) (h : (Comparison.growth w w').related u u')
    (hpost : ∀ {v v' l l'}, v.ruleOf l = some rule → v'.ruleOf l' = some rule →
      post v v' (.deferred l) (.deferred l')) :
    (Comparison.growth w w').Follows post (Run.newDeferred rule)
      (fun _ => Run.newDeferred rule) u u' := by
  obtain ⟨hu, hu'⟩ := h
  refine .of_ok (newDeferred_eq u rule) (.of_forall fun _ => newDeferred_eq u' rule)
    ⟨⟨hu.withDeferred rule, hu'.withDeferred rule⟩, ?_, ?_⟩ ?_
  · exact ((Grows.refl u).withDeferred rule).later
  · exact ((Grows.refl u').withDeferred rule).later
  · exact hpost (ruleOf_withDeferred u rule) (ruleOf_withDeferred u' rule)

theorem builds_growth (ho : o.Unrun) (h : o.Kin w) (h' : o.Kin w') :
    (Comparison.growth w w').Builds Counterparts where
  later hv hv' hbase := hbase.later hv hv'
  primitive := .primitive
  built := .built
  same_fault _ := rfl
  known name hrelated := by
    rw [(h.grows hrelated.1).names, (h'.grows hrelated.2).names]
    cases hname : lookup? name o.names with
    | none => exact .none
    | some p =>
        have hp := ho.known name p hname
        exact .some (alike_later hp (h.grows hrelated.1).later (h'.grows hrelated.2).later)
  newDeferred rule hrelated :=
    follows_newDeferred rule hrelated fun hl hl' => .base (.deferred hl hl')

/-- What is built in two worlds of one lineage is alike. -/
theorem exists_build_eq_ok (ho : o.Unrun) (h : o.Kin w) (h' : o.Kin w')
    (hbuild : d.build bindings w = .ok p v) :
    ∃ p' v', d.build bindings w' = .ok p' v' ∧ w.Grows v ∧ w'.Grows v' ∧
      p.Alike (Counterparts v v') p' :=
  ((builds_growth ho h h').build d bindings).exists_eq_ok hbuild

/-- A fault met while building is met in every world of the lineage. -/
theorem exists_build_eq_fault {f : Fault} (ho : o.Unrun) (h : o.Kin w) (h' : o.Kin w')
    (hbuild : d.build bindings w = .error (.fault f) v) :
    ∃ v', d.build bindings w' = .error (.fault f) v' ∧ w.Grows v ∧ w'.Grows v' :=
  ((builds_growth ho h h').build d bindings).exists_eq_fault hbuild

/-- A parser was built from a rule in some earlier world of the lineage. -/
def Built (o w : World) (rule : String) (p : Parser) : Prop :=
  ∃ d v v', lookup? rule o.rules = some d ∧ o.Kin v ∧ d.build [] v = .ok p v' ∧ v'.Later w

theorem Built.later {rule : String} (h : o.Built w rule p) (hv : w.Later v) :
    o.Built v rule p := by
  obtain ⟨d, u, u', hrule, hu, hbuild, hlater⟩ := h
  exact ⟨d, u, u', hrule, hu, hbuild, hlater.trans hv⟩

/-- What was built from one rule at different times is alike. -/
theorem Built.alike {rule : String} (ho : o.Unrun) (h : o.Built w rule p)
    (h' : o.Built w' rule p') : p.Alike (Counterparts w w') p' := by
  obtain ⟨d, u, v, hrule, hu, hbuild, hv⟩ := h
  obtain ⟨d', u', v', hrule', hu', hbuild', hv'⟩ := h'
  rw [hrule] at hrule'
  cases hrule'
  obtain ⟨q, t, hq, -, -, halike⟩ := exists_build_eq_ok ho hu hu' hbuild
  rw [hbuild'] at hq
  cases hq
  exact alike_later halike hv hv'

end World

namespace World

variable {o w w' v : World} {p p' : Parser} {b : Behaviour}

/-- Handles are alike only if they lead to the same. -/
theorem alike_cases (h : p.Alike (Counterparts w w') p') :
    (¬ p.IsHandle ∧ ¬ p'.IsHandle) ∨ (∃ r, p = .reference r ∧ p' = .reference r) ∨
      ∃ l l' rule, p = .deferred l ∧ p' = .deferred l' ∧ w.ruleOf l = some rule ∧
        w'.ruleOf l' = some rule := by
  cases h with
  | base h =>
      cases h with
      | primitive h =>
          refine .inl ?_
          cases h <;> exact ⟨id, id⟩
      | built d bindings => exact .inl ⟨id, id⟩
      | reference r => exact .inr (.inl ⟨r, rfl, rfl⟩)
      | deferred h h' => exact .inr (.inr ⟨_, _, _, rfl, rfl, h, h'⟩)
  | _ => exact .inl ⟨id, id⟩

/-- A parser is no handle that the world does not have. -/
def Alive (w : World) (p : Parser) : Prop :=
  ∀ l, p = .deferred l → ∃ rule, w.ruleOf l = some rule

theorem Alive.later (h : w.Alive p) (hv : w.Later v) : v.Alive p := by
  intro l hp
  obtain ⟨rule, hl⟩ := h l hp
  exact ⟨rule, hv l rule hl⟩

theorem alive_of_alike (h : p.Alike (Counterparts w w') p') : w.Alive p ∧ w'.Alive p' := by
  rcases alike_cases h with ⟨hp, hp'⟩ | ⟨r, rfl, rfl⟩ | ⟨l, l', rule, rfl, rfl, hl, hl'⟩
  · constructor
    · rintro l rfl
      exact absurd trivial hp
    · rintro l rfl
      exact absurd trivial hp'
  · constructor <;> rintro l ⟨⟩
  · constructor
    · rintro k ⟨⟩
      exact ⟨rule, hl⟩
    · rintro k ⟨⟩
      exact ⟨rule, hl'⟩

theorem exists_deferred_of_alike {k : Nat} {rule : String}
    (h : (Parser.deferred k).Alike (Counterparts w w') p') (hk : w.ruleOf k = some rule) :
    ∃ k', p' = .deferred k' ∧ w'.ruleOf k' = some rule := by
  rcases alike_cases h with ⟨hp, -⟩ | ⟨r, hr, -⟩ | ⟨l, l', rule', hl, hp', hrule, hrule'⟩
  · exact absurd trivial hp
  · cases hr
  · cases hl
    cases hk.symm.trans hrule
    exact ⟨l', hp', hrule'⟩

/-- The behaviours that running a parser may have in a world, depending on what has
been built and kept before. A deferred rule may be unbuilt, and then any handle of
the rule can be the one to be built; or it shows a behaviour of what was built. -/
inductive Shows (o w : World) : Parser → Behaviour → Prop
  | plain {p : Parser} (h : ¬ p.IsHandle) : Shows o w p (.run p)
  | reference (r : Nat) : Shows o w (.reference r) (o.behaviour (.reference r))
  | unbuilt {k l : Nat} {rule : String} (hk : w.ruleOf k = some rule)
      (hl : w.ruleOf l = some rule) : Shows o w (.deferred k) (.build l)
  | built {k : Nat} {rule : String} {p : Parser} {b : Behaviour} (hk : w.ruleOf k = some rule)
      (hp : o.Built w rule p) (h : Shows o w p b) : Shows o w (.deferred k) b

theorem Shows.later (h : Shows o w p b) (hv : w.Later v) : Shows o v p b := by
  induction h with
  | plain h => exact .plain h
  | reference r => exact .reference r
  | unbuilt hk hl => exact .unbuilt (hv _ _ hk) (hv _ _ hl)
  | built hk hp _ ih => exact .built (hv _ _ hk) (hp.later hv) ih

theorem Shows.eq_run (h : Shows o w p b) (hp : ¬ p.IsHandle) : b = .run p := by
  cases h with
  | plain _ => rfl
  | reference r => exact absurd trivial hp
  | unbuilt _ _ => exact absurd trivial hp
  | built _ _ _ => exact absurd trivial hp

theorem Shows.of_deferred {k : Nat} {rule : String} (h : Shows o w (.deferred k) b)
    (hk : w.ruleOf k = some rule) :
    (∃ l, b = .build l ∧ w.ruleOf l = some rule) ∨ ∃ p, o.Built w rule p ∧ Shows o w p b := by
  cases h with
  | plain h => exact absurd trivial h
  | @unbuilt _ l _ hk' hl =>
      cases hk.symm.trans hk'
      exact .inl ⟨l, rfl, hl⟩
  | @built _ _ p _ hk' hp h =>
      cases hk.symm.trans hk'
      exact .inr ⟨p, hp, h⟩

/-- What a reference does and what it is bound to, without whether a run has gone
through it. -/
def referent (w : World) (r : Nat) : Option (Behaviour × Option Parser) :=
  (w.references[r]?).map fun c => (c.behaviour, c.target)

theorem behaviour_reference (w : World) (r : Nat) :
    w.behaviour (.reference r) = (w.referent r).elim (.unbound r) (·.1) := by
  simp only [behaviour, referent]
  cases w.references[r]? with
  | none => rfl
  | some c => rfl

/-- A reference of a world in which nothing has been run fails or leads to its target. -/
theorem Unrun.behaviour_eq (ho : o.Unrun) (r : Nat) :
    o.behaviour (.reference r) = .unbound r ∨ o.behaviour (.reference r) = .dispatch r := by
  rw [behaviour_reference]
  unfold referent
  cases hr : o.references[r]? with
  | none => exact .inl rfl
  | some reference => exact ho.reference r reference hr

theorem target_eq (w : World) (r : Nat) :
    (w.references[r]?).bind (·.target) = (w.referent r).bind (·.2) := by
  unfold referent
  cases w.references[r]? with
  | none => rfl
  | some c => rfl

/-- A world that runs may lead to: threshold, rules, names and references are those
of the start, and every handle shows a behaviour of its rule. -/
structure Descends (o w : World) : Prop where
  kin : o.Kin w
  threshold : w.threshold = o.threshold
  rules : w.rules = o.rules
  referents : ∀ r, w.referent r = o.referent r
  shown : ∀ (l : Nat) handle, w.deferred[l]? = some handle →
    Shows o w (.deferred l) handle.behaviour

/-- The world at the start descends from itself. -/
theorem Unrun.descends (ho : o.Unrun) : o.Descends o where
  kin := ⟨rfl, .refl o⟩
  threshold := rfl
  rules := rfl
  referents _ := rfl
  shown l handle hl := by
    have hrule : o.ruleOf l = some handle.rule := by simp [ruleOf, hl]
    rw [ho.deferred l handle hl]
    exact .unbuilt hrule hrule

namespace Descends

/-- What a parser does at present is one of the behaviours it may have. -/
theorem shows_behaviour (h : o.Descends w) (halive : w.Alive p) :
    Shows o w p (w.behaviour p) := by
  by_cases hp : p.IsHandle
  · cases p with
    | reference r =>
        rw [behaviour_reference, h.referents r, ← behaviour_reference]
        exact .reference r
    | deferred l =>
        obtain ⟨rule, hl⟩ := halive l rfl
        obtain ⟨handle, hhandle, -⟩ := Option.map_eq_some_iff.mp hl
        have hbehaviour : w.behaviour (.deferred l) = handle.behaviour := by
          simp [behaviour, hhandle]
        rw [hbehaviour]
        exact h.shown l handle hhandle
    | _ => cases hp
  · rw [behaviour_of_not_isHandle hp]
    exact .plain hp

end Descends

end World

end Descent
