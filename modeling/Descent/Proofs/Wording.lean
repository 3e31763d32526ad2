/-
# Wording

Descriptions tell a reader what was expected where a parse has failed. They are given to
labels, to plain failures, to parsers that must not follow and to deferred rules, and a label
may stand around any part of a grammar. None of them steers a parse: in every world, a grammar
and one that was rephrased end in the same way, with replies that tally in all but what was
expected.
-/

import Descent.Proofs.Parallel

namespace Descent

open Filter

/-- Two replies that differ at most in what they expected. -/
structure Reply.Tallies (r r' : Reply) : Prop where
  status_eq : r.status = r'.status
  index_eq : r.index = r'.index
  value_eq : r.value = r'.value
  furthest_eq : r.furthest = r'.furthest

namespace Reply.Tallies

variable {r r' t t' : Reply}

theorem refl (r : Reply) : r.Tallies r :=
  ⟨rfl, rfl, rfl, rfl⟩

theorem error (i : Int) (text text' : String) : (Reply.error i text).Tallies (.error i text') :=
  ⟨rfl, rfl, rfl, rfl⟩

/-- Merging looks at nothing of what was expected to choose the failure to keep. -/
theorem mergeWith (h : r.Tallies r') (ht : t.Tallies t') :
    (r.mergeWith t).Tallies (r'.mergeWith t') where
  status_eq := by rw [Reply.mergeWith_status, Reply.mergeWith_status, h.status_eq]
  index_eq := by rw [Reply.mergeWith_index, Reply.mergeWith_index, h.index_eq]
  value_eq := by rw [Reply.mergeWith_value, Reply.mergeWith_value, h.value_eq]
  furthest_eq := by
    rw [Reply.mergeWith_furthest, Reply.mergeWith_furthest, h.furthest_eq, ht.furthest_eq]

theorem expecting (h : r.Tallies r') (e e' : Expectation) :
    { r with expected := e }.Tallies { r' with expected := e' } :=
  ⟨h.status_eq, h.index_eq, h.value_eq, h.furthest_eq⟩

end Reply.Tallies

/-- Runs from the same offset of one input, with replies that tally. -/
def Likeness.wording (s : Text) : Likeness s s where
  offsets i i' := i = i'
  replies := Reply.Tallies
  offsets_inj := (Likeness.same s).offsets_inj
  status_eq h := h.status_eq
  value_eq h := h.value_eq
  index h _ := h.index_eq
  ok v hi := by
    rw [hi]
    exact .refl _
  error d hi := by
    rw [hi]
    exact .refl _
  mergeWith h ht := h.mergeWith ht
  moved h _ hi := ⟨h.status_eq, hi, h.value_eq, h.furthest_eq⟩
  relabelled d h _ := h.expecting _ _
  unwanted_eq := (Likeness.same s).unwanted_eq

theorem Likeness.Fixed.wording (s : Text) : (Likeness.wording s).Fixed :=
  ⟨id, .refl⟩

/-- A failure under another description. -/
def Reply.labelled (r : Reply) (description : String) : Reply :=
  if r.status then r else { r with expected := .singleton description }

theorem Reply.tallies_labelled {r r' : Reply} (h : r.Tallies r') (description : String) :
    r.Tallies (r'.labelled description) ∧ (r.labelled description).Tallies r' := by
  unfold labelled
  constructor
  · split
    · exact h
    · exact h.expecting _ _
  · split
    · exact h
    · exact h.expecting _ _

theorem Action.label_eq (act : Action) (description : String) (s : Text) (i : Int) :
    Action.label act description s i =
      act s i >>= fun r => pure (r.labelled description) := by
  unfold Action.label
  congr 1
  funext r
  unfold Reply.labelled
  split
  · rfl
  · rfl

namespace Comparison

variable {c : Comparison} {s : Text} {w w' : World}

/-- A label makes no difference to anything but what was expected. -/
theorem harmless_label (c : Comparison) (s : Text) (description : String) :
    c.Harmless (.wording s) (fun act => Action.label act description) where
  left hrelated _ h := by
    rw [Action.label_eq]
    exact (h _ _ (.refl hrelated)).map_left
      fun _ _ _ _ hr => (Reply.tallies_labelled hr description).2
  right hrelated _ h := by
    simp only [Action.label_eq]
    exact (h _ _ (.refl hrelated)).map_right
      fun _ _ _ _ hr => (Reply.tallies_labelled hr description).1

/-- Nor does the description of what must not follow. -/
theorem Acts.notFollowedBy_wording {act : Action} {act' : Nat → Action}
    (description description' : Option String) (h : c.Acts (.wording s) act act' w w') :
    c.Acts (.wording s) (Action.notFollowedBy act description)
      (fun n => Action.notFollowedBy (act' n) description') w w' := by
  intro v v' i i' hreach hi
  apply (h v v' i i' hreach hi).bind
  intro u u' r r' hru hr
  cases hi
  apply follows_status hr
  · exact fun _ => .pure hru.related (.error i _ _)
  · exact fun _ => .pure hru.related (.refl _)

end Comparison

/-- All names of a scope are bound. -/
def Bindings.Covers (bindings : Bindings) (scope : List String) : Prop :=
  ∀ name ∈ scope, ∃ v, (name, v) ∈ bindings

theorem Bindings.Covers.cons {bindings : Bindings} {scope : List String}
    (h : bindings.Covers scope) (name : String) (v : Value) :
    Bindings.Covers ((name, v) :: bindings) (name :: scope) := by
  intro other hother
  rcases List.mem_cons.mp hother with rfl | hmem
  · exact ⟨v, List.mem_cons_self⟩
  · obtain ⟨a, ha⟩ := h other hmem
    exact ⟨a, List.mem_cons_of_mem _ ha⟩

/-- A literal that has a value wherever the names of a scope are bound. -/
def Literal.Defined (scope : List String) (l : Literal) : Prop :=
  ∀ bindings : Bindings, bindings.Covers scope → ∃ v, l.eval bindings = .ok v

theorem Literal.Defined.value (scope : List String) (v : Value) :
    (Literal.value v).Defined scope :=
  fun _ _ => ⟨v, by rw [Literal.eval]⟩

theorem Literal.Defined.argument {scope : List String} {name : String} (h : name ∈ scope) :
    (Literal.argument name).Defined scope := by
  intro bindings hbindings
  obtain ⟨v, hv⟩ := hbindings name h
  have hfound : (bindings.find? (·.1 == name)).isSome := by
    rw [List.find?_isSome]
    exact ⟨_, hv, beq_self_eq_true name⟩
  obtain ⟨entry, hentry⟩ := Option.isSome_iff_exists.mp hfound
  exact ⟨entry.2, by rw [Literal.eval, hentry]⟩

theorem Literal.Defined.exists_text {scope : List String} {l : Literal} {bindings : Bindings}
    (h : l.Defined scope) (hbindings : bindings.Covers scope) :
    ∃ text, l.text bindings = .ok text := by
  obtain ⟨v, hv⟩ := h bindings hbindings
  refine ⟨v.shown, ?_⟩
  unfold Literal.text
  rw [hv]
  rfl

namespace Description

/-- Two grammars that differ in their descriptions only, where the names of a scope are
bound: the descriptions may be others, may be absent or present, and labels may stand around
parts of the one that have none in the other. -/
inductive Rephrased : List String → Description → Description → Prop
  | atom {scope : List String} (a : Atom) : Rephrased scope (.atom a) (.atom a)
  | fail {scope : List String} {e e' : Literal} (h : e.Defined scope) (h' : e'.Defined scope) :
      Rephrased scope (.atom (.fail e)) (.atom (.fail e'))
  | labelLeft {scope : List String} {t : Literal} {p p' : Description} (h : t.Defined scope)
      (hp : Rephrased scope p p') : Rephrased scope (.wrap (.label t) p) p'
  | labelRight {scope : List String} {t : Literal} {p p' : Description} (h : t.Defined scope)
      (hp : Rephrased scope p p') : Rephrased scope p (.wrap (.label t) p')
  | wrap {scope : List String} {p p' : Description} (m : Modifier) (hp : Rephrased scope p p') :
      Rephrased scope (.wrap m p) (.wrap m p')
  | notFollowedBy {scope : List String} {p p' : Description} (t t' : Option String)
      (hp : Rephrased scope p p') :
      Rephrased scope (.wrap (.notFollowedBy t) p) (.wrap (.notFollowedBy t') p')
  | join {scope : List String} {p p' q q' : Description} (j : Joiner)
      (hp : Rephrased scope p p') (hq : Rephrased scope q q') :
      Rephrased scope (.join j p q) (.join j p' q')
  | between {scope : List String} {o o' c c' p p' : Description} (ho : Rephrased scope o o')
      (hc : Rephrased scope c c') (hp : Rephrased scope p p') :
      Rephrased scope (.between o c p) (.between o' c' p')
  | seq {scope : List String} {n : Nat} {ps ps' : Fin n → Description}
      (h : ∀ k, Rephrased scope (ps k) (ps' k)) : Rephrased scope (.seq n ps) (.seq n ps')
  | alt {scope : List String} {n : Nat} {ps ps' : Fin n → Description}
      (h : ∀ k, Rephrased scope (ps k) (ps' k)) : Rephrased scope (.alt n ps) (.alt n ps')
  | seqMap {scope : List String} {n : Nat} {ps ps' : Fin n → Description} (f : Option Callback)
      (h : ∀ k, Rephrased scope (ps k) (ps' k)) :
      Rephrased scope (.seqMap n ps f) (.seqMap n ps' f)
  | bind {scope : List String} {p p' q q' : Description} (name : String)
      (hp : Rephrased scope p p') (hq : Rephrased (name :: scope) q q') :
      Rephrased scope (.bind p name q) (.bind p' name q')
  | choose {scope : List String} {p p' q q' : Description} (first second : Literal)
      (hp : Rephrased scope p p') (hq : Rephrased scope q q') :
      Rephrased scope (.choose first second p q) (.choose first second p' q')
  | known {scope : List String} (name : String) : Rephrased scope (.known name) (.known name)
  | deferred {scope : List String} (rule : String) (t t' : Option String) :
      Rephrased scope (.deferred rule t) (.deferred rule t')

namespace Rephrased

variable {scope : List String} {d d' : Description}

theorem refl (scope : List String) (d : Description) : d.Rephrased scope d := by
  induction d generalizing scope with
  | atom a => exact .atom a
  | wrap m p ih => exact .wrap m (ih scope)
  | join j p q ihp ihq => exact .join j (ihp scope) (ihq scope)
  | between opening closing p iho ihc ihp => exact .between (iho scope) (ihc scope) (ihp scope)
  | seq n ps ih => exact .seq fun k => ih k scope
  | alt n ps ih => exact .alt fun k => ih k scope
  | seqMap n ps f ih => exact .seqMap f fun k => ih k scope
  | bind p name q ihp ihq => exact .bind name (ihp scope) (ihq (name :: scope))
  | choose first second p q ihp ihq => exact .choose first second (ihp scope) (ihq scope)
  | known name => exact .known name
  | deferred rule t => exact .deferred rule t t

theorem symm (h : d.Rephrased scope d') : d'.Rephrased scope d := by
  induction h with
  | atom a => exact .atom a
  | fail h h' => exact .fail h' h
  | labelLeft h _ ih => exact .labelRight h ih
  | labelRight h _ ih => exact .labelLeft h ih
  | wrap m _ ih => exact .wrap m ih
  | notFollowedBy t t' _ ih => exact .notFollowedBy t' t ih
  | join j _ _ ihp ihq => exact .join j ihp ihq
  | between _ _ _ iho ihc ihp => exact .between iho ihc ihp
  | seq _ ih => exact .seq ih
  | alt _ ih => exact .alt ih
  | seqMap f _ ih => exact .seqMap f ih
  | bind name _ _ ihp ihq => exact .bind name ihp ihq
  | choose first second _ _ ihp ihq => exact .choose first second ihp ihq
  | known name => exact .known name
  | deferred rule t t' => exact .deferred rule t' t

end Rephrased

end Description

namespace Parser

/-- Primitives, which may report a failure in other words if failing is all they do. -/
inductive RewordedLeaf : Parser → Parser → Prop
  | primitive {p : Parser} (h : p.Primitive) : RewordedLeaf p p
  | fail (e e' : String) : RewordedLeaf (.fail e) (.fail e')

/-- A label around a parser. -/
inductive Labelled : Parser → Parser → Prop
  | label (p : Parser) (description : String) : Labelled p (.label p description)

/-- What stands around two parsers: the same trace, or any description of what must not
follow. -/
inductive RewordedPair : Parser → Parser → Parser → Parser → Prop
  | traced (text : String) (p p' : Parser) : RewordedPair p p' (.traced text p) (.traced text p')
  | notFollowedBy (t t' : Option String) (p p' : Parser) :
      RewordedPair p p' (.notFollowedBy p t) (.notFollowedBy p' t')

end Parser

/-- What a comparison must say of parsers so that building keeps to it if the descriptions
differ in their wording. -/
structure Comparison.Rewords (c : Comparison) (twins : World → World → Parser → Parser → Prop) :
    Prop extends c.Builds twins where
  fail : ∀ {w w'} e e', twins w w' (.fail e) (.fail e')
  labelLeft : ∀ {w w' p p'} text, p.Alike (twins w w') p' → twins w w' (.label p text) p'
  labelRight : ∀ {w w' p p'} text, p.Alike (twins w w') p' → twins w w' p (.label p' text)
  notFollowedBy : ∀ {w w' p p'} t t', p.Alike (twins w w') p' →
    twins w w' (.notFollowedBy p t) (.notFollowedBy p' t')
  rebuilt : ∀ {w w' scope bindings d d'}, d.Rephrased scope d' → bindings.Covers scope →
    twins w w' (.built d bindings) (.built d' bindings)

section Building

variable {c : Comparison} {twins : World → World → Parser → Parser → Prop} (hc : c.Rewords twins)
  {scope : List String} {d d' : Description} {bindings : Bindings}

include hc

/-- New handles of a rule stand for one another, whether a label is put around them or not. -/
theorem Comparison.Rewords.deferred (bindings : Bindings) (rule : String)
    (t t' : Option String) :
    c.BuildsAlike twins bindings (.deferred rule t) (.deferred rule t') := by
  intro v v' hrelated
  apply (hc.newDeferred rule hrelated).bind
  intro u u' p p' hreach hp
  cases t with
  | none =>
      cases t' with
      | none => exact .pure hreach.related hp
      | some text' => exact .pure hreach.related (.base (hc.labelRight text' hp))
  | some text =>
      cases t' with
      | none => exact .pure hreach.related (.base (hc.labelLeft text hp))
      | some text' =>
          exact .pure hreach.related
            (.base (hc.labelLeft text (.base (hc.labelRight text' hp))))

/-- What is built from descriptions that differ in wording differs in wording. -/
theorem Description.Rephrased.buildsAlike (h : d.Rephrased scope d')
    (hbindings : bindings.Covers scope) : c.BuildsAlike twins bindings d d' := by
  have hb := hc.toConstructs
  induction h with
  | atom a => exact hb.atom bindings a
  | fail h h' =>
      obtain ⟨text, htext⟩ := h.exists_text hbindings
      obtain ⟨text', htext'⟩ := h'.exists_text hbindings
      intro v v' hrelated
      simp only [Description.build, Atom.build, htext, htext']
      exact .pure hrelated (.base (hc.fail text text'))
  | labelLeft h _ ih =>
      obtain ⟨text, htext⟩ := h.exists_text hbindings
      intro v v' hrelated
      simp only [Description.build, Modifier.build, htext]
      exact (ih hbindings v v' hrelated).map_left fun _ _ _ _ hp => .base (hc.labelLeft text hp)
  | labelRight h _ ih =>
      obtain ⟨text, htext⟩ := h.exists_text hbindings
      intro v v' hrelated
      simp only [Description.build, Modifier.build, htext]
      exact (ih hbindings v v' hrelated).map_right
        fun _ _ _ _ hp => .base (hc.labelRight text hp)
  | wrap m _ ih => exact hb.wrap m (ih hbindings)
  | notFollowedBy t t' _ ih =>
      intro v v' hrelated
      apply (ih hbindings v v' hrelated).bind
      intro u u' p p' hreach hp
      exact .pure hreach.related (.base (hc.notFollowedBy t t' hp))
  | join j _ _ ihp ihq => exact hb.join j (ihp hbindings) (ihq hbindings)
  | between _ _ _ iho ihc ihp => exact hb.between (iho hbindings) (ihc hbindings) (ihp hbindings)
  | seq _ ih => exact hb.seq fun k => ih k hbindings
  | alt _ ih => exact hb.alt fun k => ih k hbindings
  | seqMap f _ ih => exact hb.seqMap f fun k => ih k hbindings
  | @bind scope p p' q q' name _ hq ihp _ =>
      refine Comparison.Constructs.bind name (ihp hbindings) fun _ _ v => .base ?_
      exact hc.rebuilt hq (hbindings.cons name v)
  | choose first second _ _ ihp ihq =>
      exact hb.choose first second (ihp hbindings) (ihq hbindings)
  | known name => exact hc.build (.known name) bindings
  | deferred rule t t' => exact hc.deferred bindings rule t t'

end Building

/-- What changes of wording may do. -/
def Revision.wording (s : Text) : Revision s s where
  likeness := .wording s
  leaf := Parser.RewordedLeaf
  wraps := Parser.Labelled
  pairs := Parser.RewordedPair
  same bindings d d' := ∃ scope, d.Rephrased scope d' ∧ bindings.Covers scope
  leaf_plain h := by
    cases h with
    | primitive h => cases h <;> exact ⟨id, id⟩
    | fail e e' => exact ⟨id, id⟩
  wraps_plain h := by
    cases h
    exact id
  pairs_plain h := by
    cases h <;> exact ⟨id, id⟩
  pairs_traced text p p' := .traced text p p'

/-- Changes of wording make no difference where both sides record alike. -/
theorem Revision.respects_wording {c : Comparison} (hc : c.Accompanies) (s : Text) :
    (Revision.wording s).Respects c where
  notes := hc.toNotes
  idle hi := by
    cases hi
    exact ⟨hc.same_fault _, hc.same_fault _⟩
  leaf hp := by
    cases hp with
    | primitive hp => exact Comparison.acts_primitive hc (.wording s) hp _ _ _
    | fail e e' =>
        intro v v' i i' hreach hi
        cases hi
        exact .pure hreach.related (.error i e e')
  wraps hp := by
    cases hp with
    | label text => exact ⟨_, Comparison.harmless_label c s text, fun _ _ => rfl⟩
  pairs hq hp := by
    cases hq with
    | traced text p p' => exact hp.traced hc (.wording s) text
    | notFollowedBy t t' p p' => exact hp.notFollowedBy_wording t t'

namespace Parser

/-- Two parsers that differ in their wording only. -/
abbrev Reworded : Parser → Parser → Prop :=
  Revised Labelled RewordedPair fun q q' => RewordedLeaf q q' ∨
    Exits (fun bindings d d' => ∃ scope, d.Rephrased scope d' ∧ bindings.Covers scope)
      (fun _ => True) q q'

namespace Reworded

theorem of_alike {p p' : Parser} (h : p.Alike Reworded p') : p.Reworded p' :=
  Revised.of_alike RewordedPair.traced h fun _ _ h => h

theorem refl (p : Parser) : p.Reworded p := by
  refine Revised.of_alike RewordedPair.traced p.alike_self fun q q' h => ?_
  cases h with
  | primitive h => exact .base (.inl (.primitive h))
  | built d bindings => exact .base (.inr (.built ⟨[], .refl [] d, by simp [Bindings.Covers]⟩))
  | handle h => exact .base (.inr (.handle h trivial))

end Reworded

end Parser

/-- Building side by side, where nothing is known of the parsers that the worlds hold. -/
theorem Comparison.rewords_abreast :
    (Comparison.abreast Eq .all .all (fun _ => True) 0).Rewords (fun _ _ => Parser.Reworded) where
  toBuilds := World.builds_beside (fun _ _ _ => .all _) .refl
  fail e e' := .base (.inl (.fail e e'))
  labelLeft text h := .left (.label _ text) (Parser.Reworded.of_alike h)
  labelRight text h := .right (.label _ text) (Parser.Reworded.of_alike h)
  notFollowedBy t t' h := .pair (.notFollowedBy t t' _ _) (Parser.Reworded.of_alike h)
  rebuilt h hbindings := .base (.inr (.built ⟨_, h, hbindings⟩))

/-- Changes of wording make no difference to runs side by side. -/
theorem Parallel.wording (s : Text) :
    Parallel Eq .all .all (fun _ => True) (.wording s) 0
      (fun bindings d d' => ∃ scope, d.Rephrased scope d' ∧ bindings.Covers scope)
      Parser.Reworded where
  makes := Fragment.makes_all
  same_fault _ _ := Fault.moved_zero _
  self _ := .refl _
  builds := by
    rintro bindings d d' w w' ⟨scope, hd, hbindings⟩ hbeside hw
    exact (hd.buildsAlike Comparison.rewords_abreast hbindings w w' ⟨hbeside, hw⟩).weaken
      (fun _ _ h => h) (fun _ _ h => h) fun _ _ _ _ hp => Parser.Reworded.of_alike hp
  acts hp hexits := by
    have hc : (Comparison.abreast Eq .all .all (fun _ => True) 0).Accompanies :=
      Comparison.accompanies_beside World.Confined.quiet
    have hrespects := Revision.respects_wording hc s
    refine hrespects.doAlike (fun q q' hq => ?_) hp
    rcases hq with hleaf | hexit
    · exact hrespects.leaf hleaf
    · exact hexits q q' hexit

namespace Session

variable {w w' : World} {d d' : Description} {s : Text} {i : Int}

/-- Calls of two descriptions, each in a world of its own, end in the same way: one ends if and
only if the other one does, and however much budget both are given, they have the same fault,
or replies that differ at most in what they expected. -/
def CallsTally (w w' : World) (d d' : Description) (s : Text) (i : Int) : Prop :=
  ((∃ budget, (observe w (Step.perform budget (.call d s i))).1.Ended) ↔
    ∃ budget, (observe w' (Step.perform budget (.call d' s i))).1.Ended) ∧
  ∀ budget budget', (observe w (Step.perform budget (.call d s i))).1.Ended →
    (observe w' (Step.perform budget' (.call d' s i))).1.Ended →
    (observe w (Step.perform budget (.call d s i))).1.Matches (Answer.Replies Reply.Tallies)
      (observe w' (Step.perform budget' (.call d' s i))).1

/-- A call of a description in other words is reported alike. -/
theorem eventually_matches_of_rephrased (w : World) (hd : d.Rephrased [] d') {n : Nat}
    (hended : (observe w (Step.perform n (.call d s i))).1.Ended) :
    ∀ᶠ m in atTop, (observe w (Step.perform n (.call d s i))).1.Matches
      (Answer.Replies Reply.Tallies) (observe w (Step.perform m (.call d' s i))).1 := by
  have hcall := (Parallel.wording s).call (w := w.cleared) (i := i)
    ⟨[], hd, by simp [Bindings.Covers]⟩ ⟨rfl, rfl, rfl, rfl, rfl⟩ (.all _) rfl n
  exact eventually_matches (fun f f' hf => (hf.trans f.moved_zero).symm) hcall hended

/-- In every world, descriptions that differ in wording are called alike. -/
theorem callsTally_of_rephrased (w : World) (hd : d.Rephrased [] d') (s : Text) (i : Int) :
    CallsTally w w d d' s i := by
  apply Report.matches_of_eventually
  · intro n hended
    exact eventually_matches_of_rephrased w hd hended
  · intro m hended
    obtain ⟨n, hn⟩ := (eventually_matches_of_rephrased w hd.symm hended).exists
    exact ⟨n, hn.ended⟩
  · intro m hended
    exact eventually_steady hended

end Session

end Descent
