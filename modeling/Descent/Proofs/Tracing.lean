/-
# Traces and levels

Traces tell a reader what a grammar is doing. They ask for a position in the input, which
there is none of outside, and they are written or not, depending on the level at which records
pass. Still they are no part of what a grammar means: inside the input every parser of a run
is started inside it, so there always is a position, and nothing that a run does depends on
what was recorded.

A step that runs a parser thus comes to the same at every level, and with or without the traces
of its description.
-/

import Descent.Proofs.LifeCycle
import Descent.Proofs.Parallel
import Descent.Proofs.Wording

namespace Descent

namespace Parser

/-- A parser that succeeds with an absent value where it stands, whether it writes a trace or
not. -/
inductive Silent : Parser → Prop
  | trace (label : String) : Silent (.trace label)
  | null : Silent (.pure .null)

/-- Primitives, where a trace and an absent value may stand for one another. -/
inductive TracedLeaf : Parser → Parser → Prop
  | primitive {p : Parser} (h : p.Primitive) : TracedLeaf p p
  | silent {p p' : Parser} (h : p.Silent) (h' : p'.Silent) : TracedLeaf p p'

/-- A trace around a parser. -/
inductive Traced : Parser → Parser → Prop
  | traced (label : String) (p : Parser) : Traced p (.traced label p)

/-- The same trace around two parsers. -/
inductive TracedPair : Parser → Parser → Parser → Parser → Prop
  | traced (label : String) (p p' : Parser) :
      TracedPair p p' (.traced label p) (.traced label p')

theorem Silent.inert {p : Parser} (h : p.Silent) {s : Text} {i : Int} (hi : 0 ≤ i)
    (hlen : i ≤ s.length) (descend : Parser → Action) (turns : Nat) :
    (p.action (fun _ act => act) descend turns s i).Inert (.ok i .null) := by
  cases h with
  | trace label => exact Action.inert_trace label hi hlen
  | null => exact .pure _

end Parser

/-- An atom that is built into a silent parser, where the names of a scope are bound. -/
inductive Atom.Silent (scope : List String) : Atom → Prop
  | trace {label : Literal} (h : label.Defined scope) : Silent scope (.trace label)
  | null : Silent scope (.pure (.value .null))

theorem Atom.Silent.exists_build_eq {scope : List String} {a : Atom} {bindings : Bindings}
    (h : a.Silent scope) (hbindings : bindings.Covers scope) :
    ∃ p : Parser, p.Silent ∧ a.build bindings = .ok p := by
  cases h with
  | trace h =>
      obtain ⟨text, htext⟩ := h.exists_text hbindings
      exact ⟨.trace text, .trace text, by simp only [build, htext]; rfl⟩
  | null => exact ⟨.pure .null, .null, by simp only [build, Literal.eval]; rfl⟩

namespace Description

/-- Two descriptions that differ in their traces only, where the names of a scope are bound:
traces may stand around parts of the one that have none in the other, and a trace by itself
and an absent value may stand for one another. -/
inductive Retraced : List String → Description → Description → Prop
  | atom {scope : List String} (a : Atom) : Retraced scope (.atom a) (.atom a)
  | silent {scope : List String} {a a' : Atom} (h : a.Silent scope) (h' : a'.Silent scope) :
      Retraced scope (.atom a) (.atom a')
  | tracedLeft {scope : List String} {p p' : Description} (label : String)
      (hp : Retraced scope p p') : Retraced scope (.wrap (.traced label) p) p'
  | tracedRight {scope : List String} {p p' : Description} (label : String)
      (hp : Retraced scope p p') : Retraced scope p (.wrap (.traced label) p')
  | wrap {scope : List String} {p p' : Description} (m : Modifier) (hp : Retraced scope p p') :
      Retraced scope (.wrap m p) (.wrap m p')
  | join {scope : List String} {p p' q q' : Description} (j : Joiner)
      (hp : Retraced scope p p') (hq : Retraced scope q q') :
      Retraced scope (.join j p q) (.join j p' q')
  | between {scope : List String} {o o' c c' p p' : Description} (ho : Retraced scope o o')
      (hc : Retraced scope c c') (hp : Retraced scope p p') :
      Retraced scope (.between o c p) (.between o' c' p')
  | seq {scope : List String} {n : Nat} {ps ps' : Fin n → Description}
      (h : ∀ k, Retraced scope (ps k) (ps' k)) : Retraced scope (.seq n ps) (.seq n ps')
  | alt {scope : List String} {n : Nat} {ps ps' : Fin n → Description}
      (h : ∀ k, Retraced scope (ps k) (ps' k)) : Retraced scope (.alt n ps) (.alt n ps')
  | seqMap {scope : List String} {n : Nat} {ps ps' : Fin n → Description} (f : Option Callback)
      (h : ∀ k, Retraced scope (ps k) (ps' k)) :
      Retraced scope (.seqMap n ps f) (.seqMap n ps' f)
  | bind {scope : List String} {p p' q q' : Description} (name : String)
      (hp : Retraced scope p p') (hq : Retraced (name :: scope) q q') :
      Retraced scope (.bind p name q) (.bind p' name q')
  | choose {scope : List String} {p p' q q' : Description} (first second : Literal)
      (hp : Retraced scope p p') (hq : Retraced scope q q') :
      Retraced scope (.choose first second p q) (.choose first second p' q')
  | known {scope : List String} (name : String) : Retraced scope (.known name) (.known name)
  | deferred {scope : List String} (rule : String) (text : Option String) :
      Retraced scope (.deferred rule text) (.deferred rule text)

namespace Retraced

variable {scope : List String} {d d' : Description}

theorem refl (scope : List String) (d : Description) : d.Retraced scope d := by
  induction d generalizing scope with
  | atom a => exact .atom a
  | wrap m p ih => exact .wrap m (ih scope)
  | join j p q ihp ihq => exact .join j (ihp scope) (ihq scope)
  | between opening closing p iho ihc ihp => exact .between (iho scope) (ihc scope) (ihp scope)
  | seq n ps ih => exact .seq fun k => ih k scope
  | alt n ps ih => exact .alt fun k => ih k scope
  | seqMap n ps f ih => exact .seqMap f fun k => ih k scope
  | bind p name q ihp ihq => exact .bind name (ihp scope) (ihq (name :: scope))
  | choose first second p q ihp ihq => exact .choose first second (ihp scope) (ihq scope)
  | known name => exact .known name
  | deferred rule text => exact .deferred rule text

theorem symm (h : d.Retraced scope d') : d'.Retraced scope d := by
  induction h with
  | atom a => exact .atom a
  | silent h h' => exact .silent h' h
  | tracedLeft label _ ih => exact .tracedRight label ih
  | tracedRight label _ ih => exact .tracedLeft label ih
  | wrap m _ ih => exact .wrap m ih
  | join j _ _ ihp ihq => exact .join j ihp ihq
  | between _ _ _ iho ihc ihp => exact .between iho ihc ihp
  | seq _ ih => exact .seq ih
  | alt _ ih => exact .alt ih
  | seqMap f _ ih => exact .seqMap f ih
  | bind name _ _ ihp ihq => exact .bind name ihp ihq
  | choose first second _ _ ihp ihq => exact .choose first second ihp ihq
  | known name => exact .known name
  | deferred rule text => exact .deferred rule text

end Retraced

end Description

/-- The atom, with an absent value in place of a trace. -/
def Atom.untraced : Atom → Atom
  | .trace _ => .pure (.value .null)
  | a => a

/-- What a modifier makes of a description, unless it is a trace. -/
def Modifier.untraced (p : Description) : Modifier → Description
  | .traced _ => p
  | m => .wrap m p

namespace Description

/-- The description without its traces: a part that is traced is replaced by the part itself,
and a trace by an absent value. -/
def untraced : Description → Description
  | .atom a => .atom a.untraced
  | .wrap m p => m.untraced p.untraced
  | .join j p q => .join j p.untraced q.untraced
  | .between opening closing p => .between opening.untraced closing.untraced p.untraced
  | .seq n ps => .seq n fun k => (ps k).untraced
  | .alt n ps => .alt n fun k => (ps k).untraced
  | .seqMap n ps f => .seqMap n (fun k => (ps k).untraced) f
  | .bind p name q => .bind p.untraced name q.untraced
  | .choose first second p q => .choose first second p.untraced q.untraced
  | .known name => .known name
  | .deferred rule text => .deferred rule text

/-- Every trace has a label that can be told wherever the names of a scope are bound. -/
def Labelled (scope : List String) : Description → Prop
  | .atom (.trace label) => label.Defined scope
  | .wrap _ p => p.Labelled scope
  | .join _ p q => p.Labelled scope ∧ q.Labelled scope
  | .between opening closing p =>
      opening.Labelled scope ∧ closing.Labelled scope ∧ p.Labelled scope
  | .seq _ ps | .alt _ ps | .seqMap _ ps _ => ∀ k, (ps k).Labelled scope
  | .bind p name q => p.Labelled scope ∧ q.Labelled (name :: scope)
  | .choose _ _ p q => p.Labelled scope ∧ q.Labelled scope
  | _ => True

/-- A description and the one without its traces differ in their traces only. -/
theorem Labelled.retraced {scope : List String} {d : Description} (h : d.Labelled scope) :
    d.Retraced scope d.untraced := by
  induction d generalizing scope with
  | atom a =>
      cases a with
      | trace label => exact .silent (.trace h) .null
      | _ => exact .atom _
  | wrap m p ih =>
      cases m with
      | traced label => exact .tracedLeft label (ih h)
      | _ => exact .wrap _ (ih h)
  | join j p q ihp ihq => exact .join j (ihp h.1) (ihq h.2)
  | between opening closing p iho ihc ihp =>
      exact .between (iho h.1) (ihc h.2.1) (ihp h.2.2)
  | seq n ps ih => exact .seq fun k => ih k (h k)
  | alt n ps ih => exact .alt fun k => ih k (h k)
  | seqMap n ps f ih => exact .seqMap f fun k => ih k (h k)
  | bind p name q ihp ihq => exact .bind name (ihp h.1) (ihq h.2)
  | choose first second p q ihp ihq => exact .choose first second (ihp h.1) (ihq h.2)
  | known name => exact .known name
  | deferred rule text => exact .deferred rule text

end Description

/-- What changes of traces may do. -/
def Revision.tracing (s : Text) : Revision s s where
  likeness := .shift s s 0
  leaf := Parser.TracedLeaf
  wraps := Parser.Traced
  pairs := Parser.TracedPair
  same bindings d d' := ∃ scope, d.Retraced scope d' ∧ bindings.Covers scope
  leaf_plain h := by
    cases h with
    | primitive h => cases h <;> exact ⟨id, id⟩
    | silent h h' => cases h <;> cases h' <;> exact ⟨id, id⟩
  wraps_plain h := by
    cases h
    exact id
  pairs_plain h := by
    cases h
    exact ⟨id, id⟩
  pairs_traced label p p' := .traced label p p'

/-- Changes of traces make no difference where the journal is overlooked. -/
theorem Revision.respects_tracing {c : Comparison} (hnotes : c.Notes) (hc : c.Overlooks)
    (s : Text) (hidle : c.IdleTurns (.shift s s 0)) : (Revision.tracing s).Respects c where
  notes := hnotes
  idle := hidle
  leaf {p p' descend descend' turns w w'} hp := by
    have silent {q q' : Parser} (hq : q.Silent) (hq' : q'.Silent) :
        (Revision.tracing s).DoAlike c descend descend' turns w w' q q' := by
      intro v v' i i' hreach hi
      obtain ⟨⟨hlo, hhi⟩, hlo', hhi'⟩ := Text.Aligned.inside hi
      -- The second run has a budget of its own, on which what it does here does not depend.
      refine Comparison.Follows.congr (hc.inert (hq.inert hlo hhi descend turns)
        (hq'.inert hlo' hhi' (descend' 0) 0) hreach.related (.ok .null hi)) rfl
        (.of_forall fun n => ?_)
      cases hq' <;> rfl
    cases hp with
    | silent h h' => exact silent h h'
    | primitive hp =>
        obtain ⟨act, haction, ⟨expected, hprimitive⟩, ⟨label, rfl, -⟩ | hblind⟩ :=
          hp.exists_action_eq
        · exact silent (.trace label) (.trace label)
        · intro v v' i i' hreach hi
          obtain ⟨⟨hlo, hhi⟩, -⟩ := Text.Aligned.inside hi
          obtain rfl : i' = i := (Text.Aligned.add_eq hi).trans (Int.add_zero i)
          obtain ⟨call, hcall⟩ := hblind s i'
          simp only [haction]
          rw [hcall]
          refine (hnotes.ofCall call hreach.related).transfer (fun r r' u u' hend hru heq => ?_)
            fun _ _ _ _ _ hru hsame => ⟨hru, hsame⟩
          subst heq
          refine ⟨hru, ?_⟩
          rw [← hcall] at hend
          rcases hprimitive s i' v r u hlo hhi hend with ⟨j, a, rfl, hij, hj⟩ | rfl
          · exact .ok a (.refl (Int.le_trans hlo hij) hj)
          · exact .error expected hi
  wraps hp := by
    cases hp with
    | traced label p =>
        exact ⟨_, Comparison.harmless_traced hc Text.Aligned.inside label, fun _ _ => rfl⟩
  pairs hq hp := by
    cases hq with
    | traced label p p' =>
        have haround := Comparison.harmless_traced (L := .shift s s 0) hc Text.Aligned.inside label
        intro v v' i i' hreach hi
        refine haround.left hreach.related hi fun u u' hru => ?_
        refine haround.right hru.related hi fun t t' hrt => ?_
        exact hp t t' i i' (hreach.trans (hru.trans hrt)) hi

namespace Parser

/-- Two parsers that differ in their traces only. -/
abbrev Retraced : Parser → Parser → Prop :=
  Revised Traced TracedPair fun q q' => TracedLeaf q q' ∨
    Exits (fun bindings d d' => ∃ scope, d.Retraced scope d' ∧ bindings.Covers scope)
      (fun _ => True) q q'

namespace Retraced

theorem primitive {p : Parser} (h : p.Primitive) : p.Retraced p :=
  .base (.inl (.primitive h))

theorem handle {p : Parser} (h : p.IsHandle) : p.Retraced p :=
  .base (.inr (.handle h trivial))

theorem of_alike {p p' : Parser} (h : p.Alike Retraced p') : p.Retraced p' :=
  Revised.of_alike TracedPair.traced h fun _ _ h => h

theorem refl (p : Parser) : p.Retraced p := by
  refine Revised.of_alike TracedPair.traced p.alike_self fun q q' h => ?_
  cases h with
  | primitive h => exact Retraced.primitive h
  | built d bindings => exact .base (.inr (.built ⟨[], .refl [] d, by simp [Bindings.Covers]⟩))
  | handle h => exact Retraced.handle h

end Retraced

end Parser

/-- What a comparison must say of parsers so that building keeps to it if the descriptions
differ in their traces. -/
structure Comparison.Retraces (c : Comparison) (twins : World → World → Parser → Parser → Prop) :
    Prop extends c.Builds twins where
  silent : ∀ {w w' p p'}, p.Silent → p'.Silent → twins w w' p p'
  tracedLeft : ∀ {w w' p p'} label, p.Alike (twins w w') p' → twins w w' (.traced label p) p'
  tracedRight : ∀ {w w' p p'} label, p.Alike (twins w w') p' → twins w w' p (.traced label p')
  rebuilt : ∀ {w w' scope bindings d d'}, d.Retraced scope d' → bindings.Covers scope →
    twins w w' (.built d bindings) (.built d' bindings)

/-- What is built from descriptions that differ in their traces differs in its traces. -/
theorem Description.Retraced.buildsAlike {c : Comparison}
    {twins : World → World → Parser → Parser → Prop} (hc : c.Retraces twins)
    {scope : List String} {d d' : Description} {bindings : Bindings} (h : d.Retraced scope d')
    (hbindings : bindings.Covers scope) : c.BuildsAlike twins bindings d d' := by
  have hb := hc.toConstructs
  induction h with
  | atom a => exact hb.atom bindings a
  | silent h h' =>
      obtain ⟨p, hp, hbuild⟩ := h.exists_build_eq hbindings
      obtain ⟨p', hp', hbuild'⟩ := h'.exists_build_eq hbindings
      intro v v' hrelated
      simp only [Description.build, hbuild, hbuild']
      exact .pure hrelated (.base (hc.silent hp hp'))
  | tracedLeft label _ ih =>
      intro v v' hrelated
      exact (ih hbindings v v' hrelated).map_left
        fun _ _ _ _ hp => .base (hc.tracedLeft label hp)
  | tracedRight label _ ih =>
      intro v v' hrelated
      exact (ih hbindings v v' hrelated).map_right
        fun _ _ _ _ hp => .base (hc.tracedRight label hp)
  | wrap m _ ih => exact hb.wrap m (ih hbindings)
  | join j _ _ ihp ihq => exact hb.join j (ihp hbindings) (ihq hbindings)
  | between _ _ _ iho ihc ihp => exact hb.between (iho hbindings) (ihc hbindings) (ihp hbindings)
  | seq _ ih => exact hb.seq fun k => ih k hbindings
  | alt _ ih => exact hb.alt fun k => ih k hbindings
  | seqMap f _ ih => exact hb.seqMap f fun k => ih k hbindings
  | @bind scope p p' q q' name _ hq ihp _ =>
      refine Comparison.Constructs.bind name (ihp hbindings) fun _ _ v => .base ?_
      exact hc.rebuilt hq (hbindings.cons name v)
  | choose first second _ _ ihp ihq =>
      exact hb.choose first second (ihp hbindings) (ihq hbindings)
  | known name => exact hc.build (.known name) bindings
  | deferred rule text => exact hc.build (.deferred rule text) bindings

/-- Building side by side, where nothing is known of the parsers that the worlds hold. -/
theorem Comparison.retraces_abreast :
    (Comparison.abreast Level.Any .all .all (fun _ => True) 0).Retraces
      (fun _ _ => Parser.Retraced) where
  toBuilds := World.builds_beside (fun _ _ _ => .all _) .refl
  silent h h' := .base (.inl (.silent h h'))
  tracedLeft label h := .left (.traced label _) (Parser.Retraced.of_alike h)
  tracedRight label h := .right (.traced label _) (Parser.Retraced.of_alike h)
  rebuilt h hbindings := .base (.inr (.built ⟨_, h, hbindings⟩))

/-- Changes of traces make no difference to runs side by side. -/
theorem Parallel.tracing (s : Text) :
    Parallel Level.Any .all .all (fun _ => True) (.shift s s 0) 0
      (fun bindings d d' => ∃ scope, d.Retraced scope d' ∧ bindings.Covers scope)
      Parser.Retraced where
  makes := Fragment.makes_all
  same_fault _ _ := Fault.moved_zero _
  self _ := .refl _
  builds := by
    rintro bindings d d' w w' ⟨scope, hd, hbindings⟩ hbeside hw
    exact (hd.buildsAlike Comparison.retraces_abreast hbindings w w' ⟨hbeside, hw⟩).weaken
      (fun _ _ h => h) (fun _ _ h => h) fun _ _ _ _ hp => Parser.Retraced.of_alike hp
  acts hp hexits := by
    have hquiet : World.Quiet (World.Confined .all .all (fun _ => True)) := World.Confined.quiet
    have hidle : (Comparison.abreast Level.Any .all .all (fun _ => True) 0).IdleTurns
        (.shift s s 0) := by
      intro i i' hi
      rw [Text.Aligned.add_eq hi]
      exact ⟨rfl, rfl⟩
    have hrespects := Revision.respects_tracing (Comparison.notes_beside hquiet)
      (Comparison.overlooks_beside hquiet) s hidle
    refine hrespects.doAlike (fun q q' hq => ?_) hp
    rcases hq with hleaf | hexit
    · exact hrespects.leaf hleaf
    · exact hexits q q' hexit

namespace Step

variable {step : Step} {start : Launch} {d d' : Description} {w w' : World}

/-- The step, if it runs a parser, starts it inside the input. -/
def StartsInside : Step → Prop
  | .call _ input offset => 0 ≤ offset ∧ offset ≤ input.length
  | _ => True

theorem StartsInside.offset (h : step.StartsInside) (hstart : step.launch? = some start) :
    0 ≤ start.offset ∧ start.offset ≤ start.input.length := by
  cases step with
  | call => cases hstart; exact h
  | parse | parseValue | parsePair | parseShown => cases hstart; simp
  | _ => cases hstart

/-- What stands around a parser where a step starts it is the same for a revised one. -/
theorem revised_entry {wraps : Parser → Parser → Prop}
    {pairs : Parser → Parser → Parser → Parser → Prop} {base : Parser → Parser → Prop}
    {p p' : Parser} (hstart : step.launch? = some start) (heof : base .eof .eof)
    (h : p.Revised wraps pairs base p') :
    (start.entry p).Revised wraps pairs base (start.entry p') := by
  cases step with
  | call => cases hstart; exact h
  | parse | parseValue | parsePair | parseShown =>
      cases hstart
      exact .skip h (.base heof)
  | _ => cases hstart

/-- Steps come to the same if they build parsers, and run them, alike. -/
theorem follows_perform {c : Comparison} (hc : c.Overlooks)
    {twins : World → World → Parser → Parser → Prop} (hstart : step.launch? = some start)
    (hinside : step.StartsInside) {n : Nat}
    (hbuild : c.Follows twins (d.build []) (fun _ => d'.build []) w w')
    (hrun : ∀ v v' p p', twins v v' p p' → c.Acts (.shift start.input start.input 0)
      ((start.entry p).run n) (fun m => (start.entry p').run m) v v') :
    c.Follows (fun _ _ a b => b = id a) ((step.on d).perform n)
      (fun m => (step.on d').perform m) w w' := by
  obtain ⟨answer, hanswer, heq⟩ := exists_perform_eq hstart
  obtain ⟨hlo, hhi⟩ := hinside.offset hstart
  simp only [heq]
  apply hbuild.bind
  intro v v' p p' hreach hp
  -- A failure lies inside the input, so there is a position to be given for it.
  have hlocate {r : Reply} {u : World}
      (hend : (start.entry p).run n start.input start.offset v = .ok r u)
      (hfail : r.status = false) :
      ∃ position, Position.locate start.input r.furthest = .ok position := by
    obtain ⟨hle, hlen, -⟩ := Parser.furthest_of_run hlo hhi hend hfail
    obtain ⟨position, hposition, -⟩ := Position.exists_locate_eq (Int.le_trans hlo hle) hlen
    exact ⟨position, hposition⟩
  have hsame : c.Follows (fun _ _ r r' => r' = r ∧ (r.status = false →
        ∃ position, Position.locate start.input r.furthest = .ok position))
      ((start.entry p).run n start.input start.offset)
      (fun m => (start.entry p').run m start.input start.offset) v v' :=
    (hrun v v' p p' hp v v' start.offset start.offset (.refl hreach.related)
      (Text.Aligned.refl hlo hhi)).transfer
      (fun r _ _ _ hend hru hr => ⟨hru, hr.eq_moved.trans r.moved_zero, hlocate hend⟩)
      fun _ _ _ _ _ hru hsame => ⟨hru, hsame⟩
  apply hsame.bind
  rintro u u' r _ hru ⟨rfl, hposition⟩
  obtain ⟨a, ha⟩ := hanswer.inert _ hposition
  exact hc.inert ha ha hru.related rfl

/-- Steps that run parsers which differ in their traces come to the same. -/
theorem follows_perform_of_retraced (hstart : step.launch? = some start)
    (hinside : step.StartsInside) (hd : d.Retraced [] d') (h : w.Beside Level.Any w')
    (n : Nat) :
    (Comparison.abreast Level.Any .all .all (fun _ => True) 0).Follows (fun _ _ a b => b = id a)
      ((step.on d).perform n) (fun m => (step.on d').perform m) w w' := by
  have hcovers : Bindings.Covers [] [] := by simp [Bindings.Covers]
  refine follows_perform (Comparison.overlooks_beside World.Confined.quiet) hstart hinside
    (hd.buildsAlike Comparison.retraces_abreast hcovers w w' ⟨h, .all w⟩) fun v v' p p' hp => ?_
  exact (Parallel.tracing start.input).run n _ _
    (revised_entry hstart (.inl (.primitive .eof)) (Parser.Retraced.of_alike hp)) v v'

end Step

namespace Session

/-- Two steps, each in a world of its own, come to the same: one ends if and only if the other
one does, and then both have the same answer or the same fault. -/
def Concur (w w' : World) (step step' : Step) : Prop :=
  ((∃ budget, (observe w (step.perform budget)).1.Ended) ↔
    ∃ budget, (observe w' (step'.perform budget)).1.Ended) ∧
  ∀ budget budget', (observe w (step.perform budget)).1.Ended →
    (observe w' (step'.perform budget')).1.Ended →
    (observe w (step.perform budget)).1.result = (observe w' (step'.perform budget')).1.result

/-- Descriptions that differ in their traces, in worlds that hold the same. -/
theorem concur_of_retraced {w w' : World} {step : Step} {d d' : Description}
    (h : w.Beside Level.Any w') (hstep : step.IsRun) (hinside : step.StartsInside)
    (hd : d.Retraced [] d') : Concur w w' (step.on d) (step.on d') := by
  obtain ⟨start, hstart⟩ := Step.exists_launch hstep
  have hcleared : w.cleared.Beside Level.Any w'.cleared :=
    ⟨trivial, h.rules_eq, h.names_eq, h.references_eq, h.deferred_eq⟩
  have hback : w'.cleared.Beside Level.Any w.cleared :=
    ⟨trivial, h.rules_eq.symm, h.names_eq.symm, h.references_eq.symm, h.deferred_eq.symm⟩
  obtain ⟨hiff, hall⟩ := results_correspond
    (Step.follows_perform_of_retraced hstart hinside hd hcleared)
    (Step.follows_perform_of_retraced hstart hinside hd.symm hback)
    (Step.follows_perform_of_retraced hstart hinside (.refl [] d')
      ⟨trivial, rfl, rfl, rfl, rfl⟩)
  refine ⟨hiff, fun budget budget' hended hended' => ?_⟩
  rw [hall budget budget' hended hended']
  cases (observe w ((step.on d).perform budget)).1.result with
  | ok a => rfl
  | error halt => simp [Except.mapError, Except.map]

end Session

end Descent
