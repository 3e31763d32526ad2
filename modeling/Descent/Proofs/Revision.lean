/-
# Revised grammars

A grammar may be revised without changing what counts of its runs: something is put around
parts of it or taken away from them, or parts are exchanged for others that do alike. A
revision says what may be done and in which way runs have to stay alike.

Handles make this more than a comparison of trees. A handle keeps the behaviour of what was
built for it; so if a rule leads straight to another handle, it keeps whatever that one does
at the moment, and if something stands around that handle in the revised rule, it keeps the
parser as a whole. The two ways take a different number of steps, but come to the same in
all worlds of a lineage. Runs of a grammar and of a revised one therefore take the same
course.
-/

import Descent.Proofs.Across
import Mathlib.Logic.Relation

namespace Descent

open Filter Relation

theorem optionRel_mono {α β : Type} {related related' : α → β → Prop} {a : Option α}
    {b : Option β} (h : Option.Rel related a b) (himp : ∀ x y, related x y → related' x y) :
    Option.Rel related' a b := by
  cases h with
  | none => exact .none
  | some h => exact .some (himp _ _ h)

namespace Parser

/-- The parts of two parsers are, one by one, related by `base` or of the same kind with
related parts, apart from what `wraps` puts around a part of either one and what `pairs`
puts around two parts at the same time. -/
inductive Revised (wraps : Parser → Parser → Prop)
    (pairs : Parser → Parser → Parser → Parser → Prop) (base : Parser → Parser → Prop) :
    Parser → Parser → Prop
  | base {p p' : Parser} (h : base p p') : Revised wraps pairs base p p'
  | left {p q p' : Parser} (hw : wraps p q) (hp : Revised wraps pairs base p p') :
      Revised wraps pairs base q p'
  | right {p p' q' : Parser} (hw : wraps p' q') (hp : Revised wraps pairs base p p') :
      Revised wraps pairs base p q'
  | pair {p p' q q' : Parser} (hw : pairs p p' q q') (hp : Revised wraps pairs base p p') :
      Revised wraps pairs base q q'
  | bind {p p' : Parser} {f f' : Value → Parser} (hp : Revised wraps pairs base p p')
      (hf : ∀ v, Revised wraps pairs base (f v) (f' v)) :
      Revised wraps pairs base (.bind p f) (.bind p' f')
  | map {p p' : Parser} (f : Value → Call Value) (hp : Revised wraps pairs base p p') :
      Revised wraps pairs base (.map p f) (.map p' f)
  | andThen {p p' q q' : Parser} (hp : Revised wraps pairs base p p')
      (hq : Revised wraps pairs base q q') :
      Revised wraps pairs base (.andThen p q) (.andThen p' q')
  | skip {p p' q q' : Parser} (hp : Revised wraps pairs base p p')
      (hq : Revised wraps pairs base q q') : Revised wraps pairs base (.skip p q) (.skip p' q')
  | orElse {p p' q q' : Parser} (hp : Revised wraps pairs base p p')
      (hq : Revised wraps pairs base q q') :
      Revised wraps pairs base (.orElse p q) (.orElse p' q')
  | times {p p' : Parser} (r : Repetition) (hp : Revised wraps pairs base p p') :
      Revised wraps pairs base (.times p r) (.times p' r)
  | label {p p' : Parser} (description : String) (hp : Revised wraps pairs base p p') :
      Revised wraps pairs base (.label p description) (.label p' description)
  | withDefault {p p' : Parser} (call : Call Value) (hp : Revised wraps pairs base p p') :
      Revised wraps pairs base (.withDefault p call) (.withDefault p' call)
  | seq {n : Nat} {ps ps' : Fin n → Parser} (h : ∀ k, Revised wraps pairs base (ps k) (ps' k)) :
      Revised wraps pairs base (.seq n ps) (.seq n ps')
  | alt {n : Nat} {ps ps' : Fin n → Parser} (h : ∀ k, Revised wraps pairs base (ps k) (ps' k)) :
      Revised wraps pairs base (.alt n ps) (.alt n ps')
  | lookAhead {p p' : Parser} (hp : Revised wraps pairs base p p') :
      Revised wraps pairs base (.lookAhead p) (.lookAhead p')
  | notFollowedBy {p p' : Parser} (description : Option String)
      (hp : Revised wraps pairs base p p') :
      Revised wraps pairs base (.notFollowedBy p description) (.notFollowedBy p' description)
  | manyTill {p p' q q' : Parser} (hp : Revised wraps pairs base p p')
      (hq : Revised wraps pairs base q q') :
      Revised wraps pairs base (.manyTill p q) (.manyTill p' q')

namespace Revised

variable {wraps : Parser → Parser → Prop} {pairs : Parser → Parser → Parser → Parser → Prop}
  {base base' : Parser → Parser → Prop} {p p' : Parser}

theorem mono (h : p.Revised wraps pairs base p') (hbase : ∀ q q', base q q' → base' q q') :
    p.Revised wraps pairs base' p' := by
  induction h with
  | base h => exact .base (hbase _ _ h)
  | left hw _ ih => exact .left hw ih
  | right hw _ ih => exact .right hw ih
  | pair hw _ ih => exact .pair hw ih
  | bind _ _ ihp ihf => exact .bind ihp ihf
  | map f _ ihp => exact .map f ihp
  | andThen _ _ ihp ihq => exact .andThen ihp ihq
  | skip _ _ ihp ihq => exact .skip ihp ihq
  | orElse _ _ ihp ihq => exact .orElse ihp ihq
  | times r _ ihp => exact .times r ihp
  | label description _ ihp => exact .label description ihp
  | withDefault call _ ihp => exact .withDefault call ihp
  | seq _ ih => exact .seq ih
  | alt _ ih => exact .alt ih
  | lookAhead _ ihp => exact .lookAhead ihp
  | notFollowedBy description _ ihp => exact .notFollowedBy description ihp
  | manyTill _ _ ihp ihq => exact .manyTill ihp ihq

/-- Parsers that are alike up to revised parts are revised. -/
theorem of_alike (hpairs : ∀ text q q', pairs q q' (.traced text q) (.traced text q'))
    (h : p.Alike base' p') (hbase : ∀ q q', base' q q' → q.Revised wraps pairs base q') :
    p.Revised wraps pairs base p' := by
  induction h with
  | base h => exact hbase _ _ h
  | bind _ _ ihp ihf => exact .bind ihp ihf
  | map f _ ihp => exact .map f ihp
  | andThen _ _ ihp ihq => exact .andThen ihp ihq
  | skip _ _ ihp ihq => exact .skip ihp ihq
  | orElse _ _ ihp ihq => exact .orElse ihp ihq
  | times r _ ihp => exact .times r ihp
  | label description _ ihp => exact .label description ihp
  | withDefault call _ ihp => exact .withDefault call ihp
  | seq _ ih => exact .seq ih
  | alt _ ih => exact .alt ih
  | lookAhead _ ihp => exact .lookAhead ihp
  | notFollowedBy description _ ihp => exact .notFollowedBy description ihp
  | manyTill _ _ ihp ihq => exact .manyTill ihp ihq
  | traced text _ ihp => exact .pair (hpairs text _ _) ihp

end Revised

end Parser

namespace Comparison

variable {s s' : Text}

/-- Something done around an action makes no difference, on whichever side it is done. -/
structure Harmless (c : Comparison) (L : Likeness s s') (around : Action → Action) : Prop where
  left : ∀ {act : Action} {y : Nat → Run Reply} {i i' : Int} {w w' : World}, c.related w w' →
    L.offsets i i' →
    (∀ v v', c.Reaches w w' v v' → c.Follows (fun _ _ => L.replies) (act s i) y v v') →
    c.Follows (fun _ _ => L.replies) (around act s i) y w w'
  right : ∀ {x : Run Reply} {act : Nat → Action} {i i' : Int} {w w' : World}, c.related w w' →
    L.offsets i i' →
    (∀ v v', c.Reaches w w' v v' →
      c.Follows (fun _ _ => L.replies) x (fun n => act n s' i') v v') →
    c.Follows (fun _ _ => L.replies) x (fun n => around (act n) s' i') w w'

end Comparison

/-- What may be revised of a grammar for runs on two inputs: how runs have to stay alike,
which parts may stand for one another, what may be put around parts, and which descriptions
are revisions of each other. Handles are no part of this. -/
structure Revision (s s' : Text) where
  likeness : Likeness s s'
  leaf : Parser → Parser → Prop
  wraps : Parser → Parser → Prop
  pairs : Parser → Parser → Parser → Parser → Prop
  same : Bindings → Description → Description → Prop
  leaf_plain : ∀ {p p'}, leaf p p' → ¬ p.IsHandle ∧ ¬ p'.IsHandle
  wraps_plain : ∀ {p q}, wraps p q → ¬ q.IsHandle
  pairs_plain : ∀ {p p' q q'}, pairs p p' q q' → ¬ q.IsHandle ∧ ¬ q'.IsHandle
  pairs_traced : ∀ text p p', pairs p p' (.traced text p) (.traced text p')

namespace Revision

variable {s s' : Text}

/-- Parts of parsers in two worlds that stand for one another. -/
inductive Parts (R : Revision s s') (w w' : World) : Parser → Parser → Prop
  | leaf {p p' : Parser} (h : R.leaf p p') : Parts R w w' p p'
  | built {bindings : Bindings} {d d' : Description} (h : R.same bindings d d') :
      Parts R w w' (.built d bindings) (.built d' bindings)
  | reference (r : Nat) : Parts R w w' (.reference r) (.reference r)
  | deferred {l l' : Nat} {rule : String} (h : w.ruleOf l = some rule)
      (h' : w'.ruleOf l' = some rule) : Parts R w w' (.deferred l) (.deferred l')

/-- Parsers in two worlds, the second of which is a revision of the first. -/
abbrev Revises (R : Revision s s') (w w' : World) : Parser → Parser → Prop :=
  Parser.Revised R.wraps R.pairs (R.Parts w w')

variable {R : Revision s s'} {w w' v v' : World} {p p' q q' : Parser}

theorem Parts.later (h : R.Parts w w' p p') (hv : w.Later v) (hv' : w'.Later v') :
    R.Parts v v' p p' := by
  cases h with
  | leaf h => exact .leaf h
  | built h => exact .built h
  | reference r => exact .reference r
  | deferred h h' => exact .deferred (hv _ _ h) (hv' _ _ h')

theorem Revises.later (h : R.Revises w w' p p') (hv : w.Later v) (hv' : w'.Later v') :
    R.Revises v v' p p' :=
  h.mono fun _ _ hbase => hbase.later hv hv'

theorem Parts.alive (h : R.Parts w w' p p') : w.Alive p ∧ w'.Alive p' := by
  cases h with
  | leaf h =>
      obtain ⟨hp, hp'⟩ := R.leaf_plain h
      constructor
      · rintro l rfl
        exact absurd trivial hp
      · rintro l rfl
        exact absurd trivial hp'
  | built h => constructor <;> rintro l ⟨⟩
  | reference r => constructor <;> rintro l ⟨⟩
  | deferred h h' =>
      constructor
      · rintro k ⟨⟩
        exact ⟨_, h⟩
      · rintro k ⟨⟩
        exact ⟨_, h'⟩

theorem Parts.isHandle_iff (h : R.Parts w w' p p') : p.IsHandle ↔ p'.IsHandle := by
  cases h with
  | leaf h => exact iff_of_false (R.leaf_plain h).1 (R.leaf_plain h).2
  | built h => exact Iff.rfl
  | reference r => exact Iff.rfl
  | deferred h h' => exact Iff.rfl

/-- What stands for a handle in the second world is a handle with something around it. -/
theorem Revises.exists_right (h : R.Revises w w' p p') (hp : p.IsHandle) :
    ∃ q', R.Parts w w' p q' ∧ ReflTransGen R.wraps q' p' := by
  induction h with
  | base h => exact ⟨_, h, .refl⟩
  | left hw _ _ => exact absurd hp (R.wraps_plain hw)
  | right hw _ ih =>
      obtain ⟨q', hq, hwraps⟩ := ih hp
      exact ⟨q', hq, hwraps.tail hw⟩
  | pair hw _ _ => exact absurd hp (R.pairs_plain hw).1
  | _ => exact hp.elim

/-- What stands for a handle in the first world is a handle with something around it. -/
theorem Revises.exists_left (h : R.Revises w w' p p') (hp : p'.IsHandle) :
    ∃ q, R.Parts w w' q p' ∧ ReflTransGen R.wraps q p := by
  induction h with
  | base h => exact ⟨_, h, .refl⟩
  | left hw _ ih =>
      obtain ⟨q, hq, hwraps⟩ := ih hp
      exact ⟨q, hq, hwraps.tail hw⟩
  | right hw _ _ => exact absurd hp (R.wraps_plain hw)
  | pair hw _ _ => exact absurd hp (R.pairs_plain hw).2
  | _ => exact hp.elim

/-- A revision that may leave parts as they are. -/
structure Reflects (R : Revision s s') : Prop where
  leaf : ∀ {p}, p.Primitive → R.leaf p p
  same : ∀ bindings d, R.same bindings d d

namespace Reflects

variable {o o' : World} (hR : R.Reflects) (hdeferred : o.deferred = o'.deferred)

include hR hdeferred

/-- Parsers that both worlds hold with the same handles. -/
theorem revises (hw : o.Later w) (hw' : o'.Later w') (hp : p.Alike (World.Counterparts o o) p) :
    R.Revises w w' p p := by
  refine .of_alike R.pairs_traced hp fun q q' hq => .base ?_
  cases hq with
  | primitive h => exact .leaf (hR.leaf h)
  | built d bindings => exact .built (hR.same bindings d)
  | reference r => exact .reference r
  | @deferred l l' rule hl hl' =>
      have hright : o'.ruleOf l' = some rule := by
        unfold World.ruleOf
        rw [← hdeferred]
        exact hl'
      exact .deferred (hw l rule hl) (hw' l' rule hright)

theorem target (ho : o.Unrun) (hreferences : o.references = o'.references) (r : Nat) :
    Option.Rel (R.Revises o o') ((o.references[r]?).bind (·.target))
      ((o'.references[r]?).bind (·.target)) := by
  rw [← hreferences]
  cases hr : o.references[r]? with
  | none => exact .none
  | some reference =>
      cases htarget : reference.target with
      | none =>
          simp only [Option.bind_some, htarget]
          exact .none
      | some p =>
          simp only [Option.bind_some, htarget]
          exact .some (hR.revises hdeferred (.refl o) (.refl o')
            (ho.target r reference p hr htarget))

theorem known (ho : o.Unrun) (hnames : o.names = o'.names) (hw : o.Kin w) (hw' : o'.Kin w')
    (name : String) :
    Option.Rel (R.Revises w w') (World.lookup? name w.names) (World.lookup? name w'.names) := by
  rw [hw.names, hw'.names, ← hnames]
  cases hname : World.lookup? name o.names with
  | none => exact .none
  | some p => exact .some (hR.revises hdeferred hw.later hw'.later (ho.known name p hname))

end Reflects

/-- Two parsers do alike, where `descend` and `descend'` run what they lead to. -/
def DoAlike (R : Revision s s') (c : Comparison) (descend : Parser → Action)
    (descend' : Nat → Parser → Action) (turns : Nat) (w w' : World) (p p' : Parser) : Prop :=
  c.Acts R.likeness (p.action (fun _ act => act) descend turns)
    (fun n => p'.action (fun _ act => act) (descend' n) n) w w'

/-- A comparison sees no difference in what may be revised. -/
structure Respects (R : Revision s s') (c : Comparison) : Prop where
  notes : c.Notes
  idle : c.IdleTurns R.likeness
  leaf : ∀ {p p' descend descend' turns w w'}, R.leaf p p' →
    R.DoAlike c descend descend' turns w w' p p'
  wraps : ∀ {p q}, R.wraps p q → ∃ around : Action → Action,
    c.Harmless R.likeness around ∧
    ∀ descend turns, q.action (fun _ act => act) descend turns =
      around (p.action (fun _ act => act) descend turns)
  pairs : ∀ {p p' q q' descend descend' turns w w'}, R.pairs p p' q q' →
    R.DoAlike c descend descend' turns w w' p p' → R.DoAlike c descend descend' turns w w' q q'

/-- A revised parser does alike, provided that this is so for the parts that stand for one
another. -/
theorem Respects.doAlike {c : Comparison} (hR : R.Respects c) {base : Parser → Parser → Prop}
    {descend : Parser → Action} {descend' : Nat → Parser → Action} {turns : Nat}
    (hparts : ∀ q q', base q q' → R.DoAlike c descend descend' turns w w' q q')
    (h : p.Revised R.wraps R.pairs base p') : R.DoAlike c descend descend' turns w w' p p' := by
  induction h with
  | base h => exact hparts _ _ h
  | left hw _ ih =>
      obtain ⟨around, haround, haction⟩ := hR.wraps hw
      intro v v' i i' hreach hi
      rw [haction]
      exact haround.left hreach.related hi fun u u' hru => ih u u' i i' (hreach.trans hru) hi
  | right hw _ ih =>
      obtain ⟨around, haround, haction⟩ := hR.wraps hw
      intro v v' i i' hreach hi
      simp only [haction]
      exact haround.right hreach.related hi fun u u' hru => ih u u' i i' (hreach.trans hru) hi
  | pair hw _ ih => exact hR.pairs hw ih
  | bind _ _ ihp ihf => exact ihp.bind ihf
  | map f _ ihp => exact ihp.map fun v => hR.notes.ofCall (f v)
  | andThen _ _ ihp ihq => exact ihp.andThen ihq
  | skip _ _ ihp ihq => exact ihp.skip ihq
  | orElse _ _ ihp ihq => exact ihp.orElse ihq
  | times r _ ihp => exact ihp.times hR.idle turns r
  | label description _ ihp => exact ihp.label description
  | withDefault call _ ihp => exact ihp.withDefault (hR.notes.ofCall call)
  | seq _ ih => exact .seq ih
  | alt _ ih => exact .alt ih
  | lookAhead _ ihp => exact ihp.lookAhead
  | notFollowedBy description _ ihp => exact ihp.notFollowedBy description
  | manyTill _ _ ihp ihq => exact ihp.manyTill hR.idle turns ihq

/-- Two worlds that have been set up alike but for the revision, and the revision makes no
difference to runs in worlds that descend from them. -/
structure Joins (R : Revision s s') (o o' : World) : Prop extends R.Respects (.across o o') where
  unrun : o.Unrun
  unrun' : o'.Unrun
  behaviour_eq : ∀ r : Nat, o.behaviour (.reference r) = o'.behaviour (.reference r)
  target : ∀ r : Nat, Option.Rel (R.Revises o o') ((o.references[r]?).bind (·.target))
    ((o'.references[r]?).bind (·.target))
  rules : ∀ rule, Option.Rel (R.same []) (World.lookup? rule o.rules) (World.lookup? rule o'.rules)
  builds : ∀ {w w' bindings d d'}, o.Kin w → o'.Kin w' → R.same bindings d d' →
    (Comparison.growth w w').BuildsAlike R.Revises bindings d d'
  builds_back : ∀ {w w' bindings d d' p' v'}, o.Kin w → o'.Kin w' → R.same bindings d d' →
    d'.build bindings w' = .ok p' v' → ∃ p v, d.build bindings w = .ok p v

end Revision

namespace Revision.Joins

variable {s s' : Text} {R : Revision s s'} {o o' w w' v v' : World} {p p' q q' : Parser}
  {l l' n : Nat} {rule : String} {b b' : Behaviour} {i i' : Int} (hR : R.Joins o o')

include hR

/-- What was built from one rule in both worlds is revised. -/
theorem revises_of_built (h : o.Built w rule p) (h' : o'.Built w' rule p') :
    R.Revises w w' p p' := by
  obtain ⟨d, u, v, hrule, hu, hbuild, hv⟩ := h
  obtain ⟨d', u', v', hrule', hu', hbuild', hv'⟩ := h'
  have hsame := hR.rules rule
  rw [hrule, hrule'] at hsame
  cases hsame with
  | some hsame =>
      obtain ⟨q, t, hq, -, -, halike⟩ := (hR.builds hu hu' hsame).exists_eq_ok hbuild
      rw [hbuild'] at hq
      cases hq
      have hrevised : R.Revises v v' p p' := .of_alike R.pairs_traced halike fun _ _ h => h
      exact hrevised.later hv hv'

/-- Handles of one rule are built alike. -/
theorem follows_buildRule (hw : o.Descends w) (hw' : o'.Descends w')
    (hl : w.ruleOf l = some rule) (hl' : w'.ruleOf l' = some rule) :
    (Comparison.across o o').Follows (fun _ _ _ _ => True) (Behaviour.buildRule l)
      (fun _ => Behaviour.buildRule l') w w' := by
  have hnoted := hw.notedBuilt rule
  have hnoted' := hw'.notedBuilt rule
  have hsame := hR.rules rule
  rw [← hw.rules, ← hw'.rules] at hsame
  generalize hrule : World.lookup? rule w.rules = entry at hsame
  generalize hrule' : World.lookup? rule w'.rules = entry' at hsame
  cases hsame with
  | none =>
      exact .of_fault (World.buildRule_of_missing hl hrule)
        (.of_forall fun _ => World.buildRule_of_missing hl' hrule')
        ⟨⟨hnoted.descends, hnoted'.descends⟩, hnoted.later, hnoted'.later⟩ rfl
  | @some d d' hsame =>
      have halike := hR.builds hnoted.descends.kin hnoted'.descends.kin hsame
      rcases hbuild : d.build [] (w.noted [.built rule]) with ⟨p, v⟩ | ⟨f | _, v⟩
      · obtain ⟨p', v', hbuild', -⟩ := halike.exists_eq_ok hbuild
        obtain ⟨u, hx, hu, -⟩ := hw.buildRule hR.unrun hl (hw.rules ▸ hrule) hbuild
        obtain ⟨u', hy, hu', -⟩ := hw'.buildRule hR.unrun' hl' (hw'.rules ▸ hrule') hbuild'
        exact .of_ok hx (.of_forall fun _ => hy)
          ⟨⟨hu.descends, hu'.descends⟩, hu.later, hu'.later⟩ trivial
      · obtain ⟨v', hbuild', hgrows, hgrows'⟩ := halike.exists_eq_fault hbuild
        have hv := hnoted.trans (hnoted.descends.grows hgrows)
        have hv' := hnoted'.trans (hnoted'.descends.grows hgrows')
        exact .of_fault (World.buildRule_of_error hl hrule hbuild)
          (.of_forall fun _ => World.buildRule_of_error hl' hrule' hbuild')
          ⟨⟨hv.descends, hv'.descends⟩, hv.later, hv'.later⟩ rfl
      · exact .inl ⟨v, World.buildRule_of_error hl hrule hbuild⟩

/-- A rule that was built in the first lineage can be built in the second one. -/
theorem exists_buildRule_right (h : o.Built w rule p) (hw' : o'.Descends w')
    (hl' : w'.ruleOf l' = some rule) :
    ∃ p' u', Behaviour.buildRule l' w' = .ok () u' ∧ o'.Keeps w' u' ∧ o'.Built u' rule p' ∧
      o'.Shows u' p' (u'.behaviour (.deferred l')) := by
  obtain ⟨d, u, v, hrule, hu, hbuild, -⟩ := h
  have hsame := hR.rules rule
  rw [hrule] at hsame
  generalize hrule' : World.lookup? rule o'.rules = entry' at hsame
  cases hsame with
  | some hsame =>
      have hkin := (hw'.notedBuilt rule).descends.kin
      obtain ⟨p', v', hbuild', -⟩ := (hR.builds hu hkin hsame).exists_eq_ok hbuild
      exact ⟨p', hw'.buildRule hR.unrun' hl' hrule' hbuild'⟩

/-- A rule that was built in the second lineage can be built in the first one. -/
theorem exists_buildRule_left (h : o'.Built w' rule p') (hw : o.Descends w)
    (hl : w.ruleOf l = some rule) :
    ∃ u, Behaviour.buildRule l w = .ok () u ∧ o.Keeps w u := by
  obtain ⟨d', u', v', hrule', hu', hbuild', -⟩ := h
  have hsame := hR.rules rule
  rw [hrule'] at hsame
  generalize hrule : World.lookup? rule o.rules = entry at hsame
  cases hsame with
  | some hsame =>
      have hkin := (hw.notedBuilt rule).descends.kin
      obtain ⟨p, v, hbuild⟩ := hR.builds_back hkin hu' hsame hbuild'
      obtain ⟨u, hmade, hkeeps, -⟩ := hw.buildRule hR.unrun hl hrule hbuild
      exact ⟨u, hmade, hkeeps⟩

end Revision.Joins

namespace Revision

variable {s s' : Text}

/-- Runs of revised parsers take the same course, for one budget of the first. -/
def RunRevised (R : Revision s s') (o o' : World) (n : Nat) : Prop :=
  ∀ w w' p p', R.Revises w w' p p' →
    (Comparison.across o o').Acts R.likeness (p.run n) (fun m => p'.run m) w w'

/-- Whatever behaviours two revised parsers show, these take the same course, for one
budget of the first. -/
def ShowRevised (R : Revision s s') (o o' : World) (n : Nat) : Prop :=
  ∀ w w' p p' b b' i i', o.Descends w → o'.Descends w' → R.Revises w w' p p' →
    o.Shows w p b → o'.Shows w' p' b' → R.likeness.offsets i i' →
    (Comparison.across o o').Follows (fun _ _ => R.likeness.replies)
      (b.perform (Parser.run n) s i) (fun m => b'.perform (Parser.run m) s' i') w w'

end Revision

namespace Revision.Joins

variable {s s' : Text} {R : Revision s s'} {o o' w w' v v' : World} {p p' q q' : Parser}
  {l l' n : Nat} {rule : String} {b b' : Behaviour} {i i' : Int} (hR : R.Joins o o')

include hR

/-- Whatever a reference does, it does in worlds of both lineages. -/
theorem follows_reference (hrun : R.RunRevised o o' n) (hw : o.Descends w) (hw' : o'.Descends w')
    (r : Nat) (hi : R.likeness.offsets i i') :
    (Comparison.across o o').Follows (fun _ _ => R.likeness.replies)
      ((o.behaviour (.reference r)).perform (Parser.run n) s i)
      (fun m => (o'.behaviour (.reference r)).perform (Parser.run m) s' i') w w' := by
  rw [← hR.behaviour_eq r]
  rcases hR.unrun.behaviour_eq r with hunbound | hdispatch
  · rw [hunbound]
    obtain ⟨events, hfails⟩ := Behaviour.perform_unbound r s i w
    obtain ⟨events', hfails'⟩ := Behaviour.perform_unbound r s' i' w'
    exact .of_ok (hfails _) (.of_forall fun m => hfails' _)
      ⟨⟨hw.noted events, hw'.noted events'⟩, .refl _, .refl _⟩ (R.likeness.error _ hi)
  · rw [hdispatch]
    have hv := hw.markDispatched r
    have hv' := hw'.markDispatched r
    have enter (u : World) : Run.enterReference r u =
        .ok (((u.markDispatched r).references[r]?).bind (·.target)) (u.markDispatched r) := rfl
    have htarget := hR.target r
    rw [World.target_eq, World.target_eq, ← hv.descends.referents r, ← hv'.descends.referents r,
      ← World.target_eq, ← World.target_eq] at htarget
    have hentered : (Comparison.across o o').Follows
        (fun u u' => Option.Rel (R.Revises u u')) (Run.enterReference r)
        (fun _ => Run.enterReference r) w w' := by
      refine .of_ok (enter w) (.of_forall fun _ => enter w')
        ⟨⟨hv.descends, hv'.descends⟩, hv.later, hv'.later⟩ ?_
      exact optionRel_mono htarget
        fun _ _ h => h.later hv.descends.kin.later hv'.descends.kin.later
    apply hentered.bind
    intro u u' target target' hreach hrel
    cases hrel with
    | none => exact .fault hreach.related rfl
    | some h => exact hrun u u' _ _ h u u' i i' (.refl hreach.related) hi

/-- What is put around a parser of the second run makes no difference. -/
theorem follows_wrapped_right (hwraps : ReflTransGen R.wraps q' p')
    (hi : R.likeness.offsets i i') {x : Run Reply}
    (h : ∀ v v', (Comparison.across o o').Reaches w w' v v' →
      (Comparison.across o o').Follows (fun _ _ => R.likeness.replies) x
        (fun m => q'.action (fun _ act => act) (Parser.run m) m s' i') v v')
    (hreach : (Comparison.across o o').Reaches w w' v v') :
    (Comparison.across o o').Follows (fun _ _ => R.likeness.replies) x
      (fun m => p'.action (fun _ act => act) (Parser.run m) m s' i') v v' := by
  induction hwraps generalizing v v' with
  | refl => exact h v v' hreach
  | tail _ hw ih =>
      obtain ⟨around, haround, haction⟩ := hR.wraps hw
      simp only [haction]
      exact haround.right hreach.related hi fun u u' hru => ih (hreach.trans hru)

/-- What is put around a parser of the first run makes no difference. -/
theorem follows_wrapped_left (hwraps : ReflTransGen R.wraps q p)
    (hi : R.likeness.offsets i i') {y : Nat → Run Reply}
    (h : ∀ v v', (Comparison.across o o').Reaches w w' v v' →
      (Comparison.across o o').Follows (fun _ _ => R.likeness.replies)
        (q.action (fun _ act => act) (Parser.run n) n s i) y v v')
    (hreach : (Comparison.across o o').Reaches w w' v v') :
    (Comparison.across o o').Follows (fun _ _ => R.likeness.replies)
      (p.action (fun _ act => act) (Parser.run n) n s i) y v v' := by
  induction hwraps generalizing v v' with
  | refl => exact h v v' hreach
  | tail _ hw ih =>
      obtain ⟨around, haround, haction⟩ := hR.wraps hw
      rw [haction]
      exact haround.left hreach.related hi fun u u' hru => ih (hreach.trans hru)

/-- A second run with a handle inside what it shows goes on as that handle does. -/
theorem follows_of_handle_right (hparts : R.Parts w w' q q') (hq : q'.IsHandle)
    (hwraps : ReflTransGen R.wraps q' p') (hw : o.Descends w) (hw' : o'.Descends w')
    (hb' : o'.Shows w' p' b') (hi : R.likeness.offsets i i') {x : Run Reply}
    (h : ∀ v v' c, (Comparison.across o o').Reaches w w' v v' → o'.Shows v' q' c →
      (Comparison.across o o').Follows (fun _ _ => R.likeness.replies) x
        (fun m => c.perform (Parser.run m) s' i') v v') :
    (Comparison.across o o').Follows (fun _ _ => R.likeness.replies) x
      (fun m => b'.perform (Parser.run m) s' i') w w' := by
  rcases hwraps.cases_tail with rfl | ⟨t, -, ht⟩
  · exact h w w' b' (.refl ⟨hw, hw'⟩) hb'
  · rw [hb'.eq_run (R.wraps_plain ht)]
    apply Comparison.Follows.of_succ
    refine hR.follows_wrapped_right hwraps hi (fun v v' hreach => ?_) (.refl ⟨hw, hw'⟩)
    have halive := hparts.alive.2.later hreach.right
    exact (h v v' _ hreach (hreach.related.2.shows_behaviour halive)).congr rfl
      (.of_forall fun m => Parser.action_of_isHandle hq _ _ _ _ _)

/-- A first run with a handle inside goes on as that handle does, with one step less of
budget. -/
theorem follows_of_handle_left (hparts : R.Parts w w' q q') (hq : q.IsHandle)
    (hwraps : ReflTransGen R.wraps q p) (hw : o.Descends w) (hw' : o'.Descends w')
    (hi : R.likeness.offsets i i') {y : Nat → Run Reply}
    (h : ∀ v v' c, (Comparison.across o o').Reaches w w' v v' → o.Shows v q c →
      (Comparison.across o o').Follows (fun _ _ => R.likeness.replies)
        (c.perform (Parser.run n) s i) y v v') :
    (Comparison.across o o').Follows (fun _ _ => R.likeness.replies)
      (p.run (n + 1) s i) y w w' := by
  refine hR.follows_wrapped_left hwraps hi (fun v v' hreach => ?_) (.refl ⟨hw, hw'⟩)
  have halive := hparts.alive.1.later hreach.left
  exact (h v v' _ hreach (hreach.related.1.shows_behaviour halive)).congr
    (Parser.action_of_isHandle hq _ _ _ _ _) (.of_forall fun _ => rfl)

/-- A second run with a deferred rule inside goes on as a handle of this rule does: it builds
the rule, or it shows what was built. -/
theorem follows_of_deferred {k : Nat} (hk : w.ruleOf k = some rule)
    (hrev : R.Revises w w' (.deferred k) p') (hw : o.Descends w) (hw' : o'.Descends w')
    (hb' : o'.Shows w' p' b') (hi : R.likeness.offsets i i') {x : Run Reply}
    (hbuild : ∀ v v' l', (Comparison.across o o').Reaches w w' v v' → v'.ruleOf l' = some rule →
      (Comparison.across o o').Follows (fun _ _ => R.likeness.replies) x
        (fun m => (Behaviour.build l').perform (Parser.run m) s' i') v v')
    (hbuilt : ∀ v v' k' q' c, (Comparison.across o o').Reaches w w' v v' →
      v'.ruleOf k' = some rule → o'.Built v' rule q' → o'.Shows v' q' c →
      (Comparison.across o o').Follows (fun _ _ => R.likeness.replies) x
        (fun m => c.perform (Parser.run m) s' i') v v') :
    (Comparison.across o o').Follows (fun _ _ => R.likeness.replies) x
      (fun m => b'.perform (Parser.run m) s' i') w w' := by
  obtain ⟨t', hparts, hwraps⟩ := hrev.exists_right trivial
  refine hR.follows_of_handle_right hparts (hparts.isHandle_iff.mp trivial) hwraps hw hw' hb' hi
    fun v v' c hreach hc => ?_
  cases hparts with
  | leaf h => exact absurd trivial (R.leaf_plain h).1
  | @deferred _ k' _ hk₁ hk' =>
      cases hk.symm.trans hk₁
      have hk'v := hreach.right _ _ hk'
      rcases hc.of_deferred hk'v with ⟨l', rfl, hl'⟩ | ⟨q', hq', hshows⟩
      · exact hbuild v v' l' hreach hl'
      · exact hbuilt v v' k' q' c hreach hk'v hq' hshows

/-- Both runs build a rule. -/
theorem follows_build (hrun : R.RunRevised o o' n) (hw : o.Descends w) (hw' : o'.Descends w')
    (hl : w.ruleOf l = some rule) (hl' : w'.ruleOf l' = some rule)
    (hi : R.likeness.offsets i i') :
    (Comparison.across o o').Follows (fun _ _ => R.likeness.replies)
      ((Behaviour.build l).perform (Parser.run n) s i)
      (fun m => (Behaviour.build l').perform (Parser.run m) s' i') w w' := by
  apply (hR.follows_buildRule hw hw' hl hl').bind
  intro v v' _ _ hreach _
  have hhandles : R.Revises v v' (.deferred l) (.deferred l') :=
    .base (.deferred (hreach.left _ _ hl) (hreach.right _ _ hl'))
  exact hrun v v' _ _ hhandles v v' i i' (.refl hreach.related) hi

/-- The first run builds a rule that the second one finds built. -/
theorem follows_build_left (hshow : ∀ m, n = m + 1 → R.ShowRevised o o' m) (hw : o.Descends w)
    (hw' : o'.Descends w') (hl : w.ruleOf l = some rule) (hl' : w'.ruleOf l' = some rule)
    (hq' : o'.Built w' rule q') (hb' : o'.Shows w' q' b') (hi : R.likeness.offsets i i') :
    (Comparison.across o o').Follows (fun _ _ => R.likeness.replies)
      ((Behaviour.build l).perform (Parser.run n) s i)
      (fun m => b'.perform (Parser.run m) s' i') w w' := by
  obtain ⟨v, hbuild, hv⟩ := hR.exists_buildRule_left hq' hw hl
  apply Comparison.Follows.step_left hbuild hv.later
  cases n with
  | zero => exact .unfinished
  | succ m =>
      have hhandles : R.Parts v w' (.deferred l) (.deferred l') :=
        .deferred (hv.later _ _ hl) hl'
      have hshows := hv.descends.shows_behaviour hhandles.alive.1
      exact (hshow m rfl v w' _ _ _ _ i i' hv.descends hw' (.base hhandles) hshows
        (.built hl' hq' hb') hi).congr (World.run_deferred v l m s i) (.of_forall fun _ => rfl)

/-- The second run builds a rule that the first one finds built. -/
theorem follows_build_right (hq : o.Built w rule q) (hw' : o'.Descends w')
    (hl' : w'.ruleOf l' = some rule) {x : Run Reply}
    (h : ∀ v' q' c, o'.Descends v' → R.Revises w v' q q' → o'.Shows v' q' c →
      (Comparison.across o o').Follows (fun _ _ => R.likeness.replies) x
        (fun m => c.perform (Parser.run m) s' i') w v') :
    (Comparison.across o o').Follows (fun _ _ => R.likeness.replies) x
      (fun m => (Behaviour.build l').perform (Parser.run m) s' i') w w' := by
  obtain ⟨q', v', hbuild, hv', hq', hshows⟩ := hR.exists_buildRule_right hq hw' hl'
  apply Comparison.Follows.step_right hbuild hv'.later
  apply Comparison.Follows.of_succ
  exact (h v' q' _ hv'.descends (hR.revises_of_built hq hq') hshows).congr rfl
    (.of_forall fun m => World.run_deferred v' l' m s' i')

/-- Behaviours of handles that stand for the same, from the runs that they lead to: runs of
the same budget, and behaviours of a smaller one. -/
theorem showRevised_of (hrun : R.RunRevised o o' n)
    (hshow : ∀ m, n = m + 1 → R.ShowRevised o o' m) : R.ShowRevised o o' n := by
  intro w w' p p' b b' i i' hw hw' hp hb hb' hi
  -- The first behaviour is traced back to what it was built from. Later worlds have to be
  -- allowed on both sides, since each run may pass what stands around its handle or build
  -- what the other one has kept.
  suffices hkey : ∀ u u' q' c', w.Later u → o.Descends u → o'.Descends u' →
      R.Revises u u' p q' → o'.Shows u' q' c' →
      (Comparison.across o o').Follows (fun _ _ => R.likeness.replies)
        (b.perform (Parser.run n) s i) (fun m => c'.perform (Parser.run m) s' i') u u' from
    hkey w w' p' b' (.refl w) hw hw' hp hb'
  clear hp hb'
  induction hb with
  | plain hp =>
      intro u u' q' c' hlater hu hu' hrev hc'
      by_cases hq' : q'.IsHandle
      · obtain ⟨q, hparts, hwraps⟩ := hrev.exists_left hq'
        cases n with
        | zero => exact .unfinished
        | succ m =>
            refine hR.follows_of_handle_left hparts (hparts.isHandle_iff.mpr hq') hwraps hu hu' hi
              fun v v' c hreach hc => ?_
            exact hshow m rfl v v' q q' c c' i i' hreach.related.1 hreach.related.2
              (.base (hparts.later hreach.left hreach.right)) hc (hc'.later hreach.right) hi
      · rw [hc'.eq_run hq']
        exact hrun u u' _ q' hrev u u' i i' (.refl ⟨hu, hu'⟩) hi
  | reference r =>
      intro u u' q' c' hlater hu hu' hrev hc'
      obtain ⟨t', hparts, hwraps⟩ := hrev.exists_right trivial
      refine hR.follows_of_handle_right hparts (hparts.isHandle_iff.mp trivial) hwraps hu hu' hc'
        hi fun v v' e' hreach he' => ?_
      cases hparts with
      | leaf h => exact absurd trivial (R.leaf_plain h).1
      | reference _ =>
          cases he' with
          | plain h => exact absurd trivial h
          | reference _ =>
              exact hR.follows_reference hrun hreach.related.1 hreach.related.2 r hi
  | unbuilt hk hl =>
      intro u u' q' c' hlater hu hu' hrev hc'
      apply hR.follows_of_deferred (hlater _ _ hk) hrev hu hu' hc' hi
      · intro v v' l' hreach hl'
        have hlv := hreach.left _ _ (hlater _ _ hl)
        exact hR.follows_build hrun hreach.related.1 hreach.related.2 hlv hl' hi
      · intro v v' k' t' c hreach hk' ht' hc
        have hlv := hreach.left _ _ (hlater _ _ hl)
        exact hR.follows_build_left hshow hreach.related.1 hreach.related.2 hlv hk' ht' hc hi
  | built hk hq _ ih =>
      intro u u' q' c' hlater hu hu' hrev hc'
      apply hR.follows_of_deferred (hlater _ _ hk) hrev hu hu' hc' hi
      · intro v v' l' hreach hl'
        have hlv := hlater.trans hreach.left
        exact hR.follows_build_right (hq.later hlv) hreach.related.2 hl'
          fun z' t' c hz' ht hc => ih v z' t' c hlv hreach.related.1 hz' ht hc
      · intro v v' k' t' c hreach hk' ht' hc
        have hlv := hlater.trans hreach.left
        exact ih v v' t' c hlv hreach.related.1 hreach.related.2
          (hR.revises_of_built (hq.later hlv) ht') hc

/-- Runs with one more step of budget, from those that handles and descriptions lead to. -/
theorem runRevised_succ (hrun : R.RunRevised o o' n) (hshow : R.ShowRevised o o' n) :
    R.RunRevised o o' (n + 1) := by
  intro w w' p p' hp v v' i i' hreach hi
  apply Comparison.Follows.of_succ
  refine hR.doAlike (fun q q' hparts => ?_) hp v v' i i' hreach hi
  have follow (hq : q.IsHandle) :
      R.DoAlike (.across o o') (Parser.run n) (fun m => Parser.run m) n w w' q q' := by
    intro u u' j j' hru hj
    have hparts' := hparts.later hru.left hru.right
    obtain ⟨hu, hu'⟩ := hru.related
    exact (hshow u u' q q' _ _ j j' hu hu' (.base hparts')
      (hu.shows_behaviour hparts'.alive.1) (hu'.shows_behaviour hparts'.alive.2) hj).congr
      (Parser.action_of_isHandle hq _ _ _ _ _)
      (.of_forall fun _ => Parser.action_of_isHandle (hparts.isHandle_iff.mp hq) _ _ _ _ _)
  cases hparts with
  | leaf h => exact hR.leaf h
  | @built bindings d d' h =>
      intro u u' j j' hru hj
      obtain ⟨hu, hu'⟩ := hru.related
      have hbuilt := hR.builds hu.kin hu'.kin h u u' ⟨.refl u, .refl u'⟩
      apply (World.follows_across_of_growth hu hu' hbuilt).bind
      intro t t' q q' hrt hq
      exact hrun t t' q q' (.of_alike R.pairs_traced hq fun _ _ h => h) t t' j j'
        (.refl hrt.related) hj
  | reference r => exact follow trivial
  | deferred h h' => exact follow trivial

/-- Runs of revised parsers take the same course. -/
theorem runRevised (n : Nat) : R.RunRevised o o' n := by
  have hboth : R.RunRevised o o' n ∧ R.ShowRevised o o' n := by
    induction n with
    | zero =>
        have hrun : R.RunRevised o o' 0 := fun _ _ _ _ _ _ _ _ _ _ _ => .unfinished
        exact ⟨hrun, hR.showRevised_of hrun fun m hm => by cases hm⟩
    | succ n ih =>
        have hrun := hR.runRevised_succ ih.1 ih.2
        refine ⟨hrun, hR.showRevised_of hrun fun m hm => ?_⟩
        cases hm
        exact ih.2
  exact hboth.1

end Revision.Joins

/-- Answers that are replies, which stand in a relation. -/
inductive Answer.Replies (related : Reply → Reply → Prop) : Answer → Answer → Prop
  | reply {r r' : Reply} (h : related r r') : Replies related (.reply r) (.reply r')

/-- Calls of a description and of a revised one are reported alike. -/
theorem Revision.Joins.eventually_matches {s s' : Text} {R : Revision s s'} {o o' w w' : World}
    {d d' : Description} {i i' : Int} {n : Nat} (hR : R.Joins o o') (hw : o.Descends w)
    (hw' : o'.Descends w') (hd : R.same [] d d') (hi : R.likeness.offsets i i')
    (hended : (Session.observe w (Step.perform n (.call d s i))).1.Ended) :
    ∀ᶠ m in atTop, (Session.observe w (Step.perform n (.call d s i))).1.Matches
      (Answer.Replies R.likeness.replies)
      (Session.observe w' (Step.perform m (.call d' s' i'))).1 := by
  refine Session.eventually_matches (c := .across o o') (fun _ _ h => h) ?_ hended
  have hbuilt := hR.builds hw.cleared.kin hw'.cleared.kin hd _ _ ⟨.refl _, .refl _⟩
  apply (World.follows_across_of_growth hw.cleared hw'.cleared hbuilt).bind
  intro v v' p p' hreach hp
  have hrun := hR.runRevised n v v' p p' (.of_alike R.pairs_traced hp fun _ _ h => h)
  apply (hrun v v' i i' (.refl hreach.related) hi).bind
  intro u u' r r' hru hr
  exact .pure hru.related (.reply hr)

end Descent
