/-
# Closing a recursive grammar

A grammar with a hole becomes recursive when its hole is filled by a parser that stands
for the whole. There are two ways to do so: a reference is made, put into the hole and
bound to what was built; or the grammar becomes a rule, and the hole is filled by that
rule, deferred. The first way builds the grammar once and shares the result, the second
one builds it again and again and keeps what was built in one handle each.

Both ways are described as knots: what fills the hole, which parsers of a world stand
for the whole, and that running such a parser comes to running the body of the grammar
after a few steps of budget. Runs of two knots of the same grammar take the same course.
-/

import Descent.Proofs.Across
import Descent.Proofs.Grammar.Recursion
import Descent.Proofs.LifeCycle
import Descent.Proofs.Termination

namespace Descent

open Filter

/-- Put a description where a name stands. -/
def Description.fill (d : Description) (hole : String) (filler : Description) : Description :=
  match d with
  | .atom a => .atom a
  | .wrap m p => .wrap m (p.fill hole filler)
  | .join j p q => .join j (p.fill hole filler) (q.fill hole filler)
  | .between opening closing p =>
      .between (opening.fill hole filler) (closing.fill hole filler) (p.fill hole filler)
  | .seq n ps => .seq n fun k => (ps k).fill hole filler
  | .alt n ps => .alt n fun k => (ps k).fill hole filler
  | .seqMap n ps f => .seqMap n (fun k => (ps k).fill hole filler) f
  | .bind p name q => .bind (p.fill hole filler) name (q.fill hole filler)
  | .choose first second p q =>
      .choose first second (p.fill hole filler) (q.fill hole filler)
  | .known name => if name = hole then filler else .known name
  | .deferred rule description => .deferred rule description

/-- What fills a hole in the worlds of a lineage, and which parsers stand for the whole
there. -/
structure Filling where
  origin : World
  filler : Description
  Stands : World → Parser → Prop
  stands_later : ∀ {w v p}, Stands w p → w.Later v → Stands v p
  fills : ∀ w bindings, w.names = origin.names →
    ∃ p v, filler.build bindings w = .ok p v ∧ w.Grows v ∧ Stands v p

/-- Parts of a grammar whose hole was filled in two ways. -/
inductive Filling.Twins (A B : Filling) (hole : String) (w w' : World) : Parser → Parser → Prop
  | primitive {p : Parser} (h : p.Primitive) : Twins A B hole w w' p p
  | built {d : Description} (h : d.Direct (· = hole)) (bindings : Bindings) :
      Twins A B hole w w' (.built (d.fill hole A.filler) bindings)
        (.built (d.fill hole B.filler) bindings)
  | stands {p p' : Parser} (h : A.Stands w p) (h' : B.Stands w' p') : Twins A B hole w w' p p'

namespace Filling

variable {A B : Filling} {hole : String} {w w' v : World} {d : Description} {p : Parser}
  {bindings : Bindings}

theorem constructs_twins (A B : Filling) (hole : String) (w w' : World) :
    (Comparison.growth w w').Constructs (Twins A B hole) where
  later hv hv' h := by
    cases h with
    | primitive h => exact .primitive h
    | built h bindings => exact .built h bindings
    | stands h h' => exact .stands (A.stands_later h hv) (B.stands_later h' hv')
  primitive := .primitive
  same_fault _ := rfl

/-- A grammar with a hole is built alike however its hole is filled. -/
theorem buildsAlike_fill (hd : d.Direct (· = hole)) (bindings : Bindings)
    (hw : w.names = A.origin.names) (hw' : w'.names = B.origin.names) :
    (Comparison.growth w w').BuildsAlike (Twins A B hole) bindings (d.fill hole A.filler)
      (d.fill hole B.filler) := by
  have hc := constructs_twins A B hole w w'
  induction d with
  | atom a => exact hc.atom bindings a
  | wrap m p ih => exact hc.wrap m (ih hd)
  | join j p q ihp ihq => exact hc.join j (ihp hd.1) (ihq hd.2)
  | between opening closing p iho ihc ihp =>
      exact hc.between (iho hd.1) (ihc hd.2.1) (ihp hd.2.2)
  | seq n ps ih => exact hc.seq fun k => ih k (hd k)
  | alt n ps ih => exact hc.alt fun k => ih k (hd k)
  | seqMap n ps f ih => exact hc.seqMap f fun k => ih k (hd k)
  | bind p name q ihp ihq =>
      exact Comparison.Constructs.bind name (ihp hd.1) fun _ _ _ => .base (.built hd.2 _)
  | choose first second p q ihp ihq => exact hc.choose first second (ihp hd.1) (ihq hd.2)
  | known name =>
      cases hd
      intro v v' ⟨hv, hv'⟩
      have hnames : v.names = A.origin.names := by rw [hv.rest, ← hw]
      have hnames' : v'.names = B.origin.names := by rw [hv'.rest, ← hw']
      obtain ⟨p, u, hp, hu, hstands⟩ := A.fills v bindings hnames
      obtain ⟨p', u', hp', hu', hstands'⟩ := B.fills v' bindings hnames'
      simp only [Description.fill, if_true]
      exact .of_ok hp (.of_forall fun _ => hp') ⟨⟨hv.trans hu, hv'.trans hu'⟩, hu.later, hu'.later⟩
        (.base (.stands hstands hstands'))
  | deferred rule description => exact hd.elim

/-- If a grammar can be built with one filling, then also with another one. -/
theorem exists_fill_eq_ok (hd : d.Direct (· = hole)) (hw : w.names = A.origin.names)
    (hw' : w'.names = B.origin.names) (h : (d.fill hole A.filler).build bindings w = .ok p v) :
    ∃ p' v', (d.fill hole B.filler).build bindings w' = .ok p' v' ∧
      p.Alike (Twins A B hole v v') p' := by
  obtain ⟨p', v', hbuild, -, -, hp⟩ := (buildsAlike_fill hd bindings hw hw').exists_eq_ok h
  exact ⟨p', v', hbuild, hp⟩

/-- A parser that a grammar was built to. -/
def Body (A : Filling) (hole : String) (grammar : Description) (w : World) (q : Parser) : Prop :=
  ∃ v v', v.names = A.origin.names ∧ (grammar.fill hole A.filler).build [] v = .ok q v' ∧
    v'.Later w

theorem Body.twins {grammar : Description} {q q' : Parser} (hgrammar : grammar.Direct (· = hole))
    (h : A.Body hole grammar w q) (h' : B.Body hole grammar w' q') :
    q.Alike (Twins A B hole w w') q' := by
  obtain ⟨v, u, hv, hbuild, hu⟩ := h
  obtain ⟨v', u', hv', hbuild', hu'⟩ := h'
  obtain ⟨p, t, hp, htwins⟩ := exists_fill_eq_ok hgrammar hv hv' hbuild
  rw [hbuild'] at hp
  cases hp
  exact htwins.mono fun _ _ => (constructs_twins A B hole u u').later hu hu'

/-- Running a parser comes to running a body of the grammar in a later world, for all
budgets that are above a certain cost. -/
structure Unfolds (A : Filling) (hole : String) (grammar : Description) (s : Text) (i : Int)
    (w : World) (p q : Parser) (v : World) (cost : Nat) : Prop where
  descends : A.origin.Descends v
  later : w.Later v
  body : A.Body hole grammar v q
  unfinished : ∀ n ≤ cost, ∃ u, p.run n s i w = .error .unfinished u
  run_eq : ∀ n, p.run (n + cost + 1) s i w = q.run n s i v

end Filling

/-- A grammar whose hole is filled by what stands for the grammar as a whole. -/
structure Knot (hole : String) (grammar : Description) extends Filling where
  unrun : origin.Unrun
  unfolds : ∀ w p s i, origin.Descends w → Stands w p →
    ∃ q v cost, toFilling.Unfolds hole grammar s i w p q v cost

namespace Knot

variable {hole : String} {grammar : Description} {A B : Knot hole grammar} {w w' : World}
  {d : Description} {s : Text}

/-- Parsers that stand for the whole do alike, if bodies do so for all smaller budgets. -/
theorem follows_stands (hgrammar : grammar.Direct (· = hole)) {n : Nat} {p p' : Parser} {i : Int}
    (hrun : ∀ m < n, ∀ v v' (q q' : Parser), q.Alike (Filling.Twins A.1 B.1 hole v v') q' →
      (Comparison.across A.origin B.origin).Acts (.same s) (q.run m) (fun k => q'.run k) v v')
    (hw : A.origin.Descends w) (hw' : B.origin.Descends w') (hp : A.Stands w p)
    (hp' : B.Stands w' p') :
    (Comparison.across A.origin B.origin).Follows (fun _ _ => (Likeness.same s).replies)
      (p.run n s i) (fun k => p'.run (k + 1) s i) w w' := by
  obtain ⟨q, v, cost, h⟩ := A.unfolds w p s i hw hp
  obtain ⟨q', v', cost', h'⟩ := B.unfolds w' p' s i hw' hp'
  by_cases hn : n ≤ cost
  · exact .inl (h.unfinished n hn)
  · obtain ⟨m, rfl⟩ : ∃ m, n = m + cost + 1 := ⟨n - (cost + 1), by omega⟩
    have hbody := hrun m (by omega) v v' q q' (h.body.twins hgrammar h'.body) v v' i i
      (.refl ⟨h.descends, h'.descends⟩) rfl
    apply Comparison.Follows.of_add cost'
    exact hbody.shift h.later h'.later (h.run_eq m) (.of_forall fun k => h'.run_eq k)

/-- Runs of a grammar whose hole was filled in two ways take the same course. -/
theorem acts_run (hgrammar : grammar.Direct (· = hole))
    (hthreshold : A.origin.threshold = B.origin.threshold) (n : Nat) (w w' : World)
    (p p' : Parser) (h : p.Alike (Filling.Twins A.1 B.1 hole w w') p') :
    (Comparison.across A.origin B.origin).Acts (.same s) (p.run n) (fun k => p'.run k) w w' := by
  -- A body is run with a budget that is smaller by the cost, whatever that is.
  induction n using Nat.strong_induction_on generalizing w w' p p' with
  | h n ih =>
    cases n with
    | zero => exact fun _ _ _ _ _ _ => .unfinished
    | succ n =>
        have hc := World.accompanies_across hthreshold
        intro v v' i i' hreach hi
        apply Comparison.Follows.of_succ
        refine Comparison.acts_action hc (fun q q' hbase => ?_) h v v' i i' hreach hi
        cases hbase with
        | primitive hq => exact Comparison.acts_primitive hc (.same s) hq _ _ _
        | built hd bindings =>
            intro u u' j j' hru hj
            cases hj
            obtain ⟨hu, hu'⟩ := hru.related
            have hbuilt := Filling.buildsAlike_fill hd bindings hu.kin.names hu'.kin.names u u'
              ⟨.refl u, .refl u'⟩
            apply (World.follows_across_of_growth hu hu' hbuilt).bind
            intro t t' q q' hrt hq
            exact ih n (Nat.lt_succ_self n) t t' q q' hq t t' j j (.refl hrt.related) rfl
        | stands hq hq' =>
            intro u u' j j' hru hj
            cases hj
            exact follows_stands (n := n + 1) hgrammar ih hru.related.1 hru.related.2
              (A.stands_later hq hru.left) (B.stands_later hq' hru.right)

/-- A call of what fills the hole is reported alike for two knots of one grammar. -/
theorem eventually_matches (hgrammar : grammar.Direct (· = hole))
    (hthreshold : A.origin.threshold = B.origin.threshold) {n : Nat} {i : Int}
    (hended : (Session.observe A.origin (Step.perform n (.call A.filler s i))).1.Ended) :
    ∀ᶠ m in atTop, (Session.observe A.origin (Step.perform n (.call A.filler s i))).1.Matches Eq
      (Session.observe B.origin (Step.perform m (.call B.filler s i))).1 := by
  have hA := A.unrun.descends.cleared
  have hB := B.unrun.descends.cleared
  have hfill (filler : Description) : (Description.known hole).fill hole filler = filler :=
    if_pos rfl
  have hbuilt := Filling.buildsAlike_fill (d := .known hole) rfl [] hA.kin.names hB.kin.names _ _
    ⟨.refl _, .refl _⟩
  rw [hfill, hfill] at hbuilt
  refine Session.eventually_matches (c := .across A.origin B.origin) (fun _ _ h => h) ?_ hended
  apply (World.follows_across_of_growth hA hB hbuilt).bind
  intro v v' p p' hreach hp
  apply (acts_run hgrammar hthreshold n v v' p p' hp v v' i i (.refl hreach.related) rfl).bind
  intro u u' r r' hru hr
  exact .pure hru.related (congrArg Answer.reply hr)

/-- Calls of what fills the hole end alike for two knots of one grammar. -/
theorem calls_agree (A B : Knot hole grammar) (hgrammar : grammar.Direct (· = hole))
    (hthreshold : A.origin.threshold = B.origin.threshold) (s : Text) (i : Int) :
    ((∃ n, (Session.observe A.origin (Step.perform n (.call A.filler s i))).1.Ended) ↔
      ∃ n, (Session.observe B.origin (Step.perform n (.call B.filler s i))).1.Ended) ∧
    ∀ n m, (Session.observe A.origin (Step.perform n (.call A.filler s i))).1.Ended →
      (Session.observe B.origin (Step.perform m (.call B.filler s i))).1.Ended →
      (Session.observe A.origin (Step.perform n (.call A.filler s i))).1.result =
        (Session.observe B.origin (Step.perform m (.call B.filler s i))).1.result := by
  have hB := B.unrun.descends
  have hcall : (Step.call B.filler s i).IsRun := trivial
  have hagree := Report.matches_of_eventually
    (fun _ hended => eventually_matches hgrammar hthreshold hended)
    (fun m hended => by
      obtain ⟨n, hn⟩ := (eventually_matches (B := A) hgrammar hthreshold.symm hended).exists
      exact ⟨n, hn.ended⟩)
    (fun m hended => (Session.eventually_agrees B.unrun hB hB hcall hended).2.mono
      fun _ hagrees => hagrees.result_eq)
  exact ⟨hagree.1, fun n m hn hm => (hagree.2 n m hn hm).result_eq⟩

end Knot

section Reference

variable {o w w' : World} {name : String} {r : Nat} {p p' : Parser} {hole : String}

/-- A reference leads to the same parser in all worlds of a lineage. -/
theorem World.Descends.targets (h : o.Descends w) (htarget : o.Targets r p) : w.Targets r p :=
  targets_iff_referent.mpr ((h.referents r).trans (targets_iff_referent.mp htarget))

/-- A hole that is filled by a reference. -/
def Filling.ofReference (o : World) (name : String) (r : Nat)
    (h : World.lookup? name o.names = some (.reference r)) : Filling where
  origin := o
  filler := .known name
  Stands _ p := p = .reference r
  stands_later h _ := h
  fills w bindings hw := by
    have hknown : (Description.known name).build bindings w = .ok (.reference r) w := by
      unfold Description.build
      rw [Run.get_bind, hw, h]
      rfl
    exact ⟨_, w, hknown, .refl w, rfl⟩

/-- With a reference in the hole, only the reference itself corresponds to a handle. -/
theorem Filling.not_isHandle_of_twins {B : Filling}
    (h : World.lookup? name o.names = some (.reference r))
    (htwins : p.Alike (Twins (.ofReference o name r h) B hole w w') p') (hp : p ≠ .reference r) :
    ¬ p'.IsHandle := by
  cases htwins with
  | base hbase =>
      cases hbase with
      | primitive h => cases h <;> exact id
      | built h bindings => exact id
      | stands h h' => exact absurd h hp
  | _ => exact id

/-- A grammar that is closed by a reference bound to what was built. -/
def Knot.ofReference {grammar : Description} (ho : o.Unrun)
    (h : World.lookup? name o.names = some (.reference r)) (htarget : o.Targets r p)
    (hbody : (Filling.ofReference o name r h).Body hole grammar o p) : Knot hole grammar where
  toFilling := .ofReference o name r h
  unrun := ho
  unfolds w q s i hw hq := by
    cases hq
    have htargets := World.Descends.targets hw htarget
    have hmarked := hw.markDispatched r
    obtain ⟨v, v', hnames, hbuild, hlater⟩ := hbody
    refine ⟨p, w.markDispatched r, 0, hmarked.descends, hmarked.later, ?_, fun n hn => ?_,
      fun n => Parser.run_reference htargets n s i⟩
    · exact ⟨v, v', hnames, hbuild, hlater.trans (hw.kin.later.trans hmarked.later)⟩
    · obtain rfl : n = 0 := by omega
      exact ⟨w, rfl⟩

end Reference

section Rule

variable {o w : World} {rule : String} {p : Parser} {b : Behaviour} {hole : String}

/-- A hole that is filled by a rule, deferred. -/
def Filling.ofRule (o : World) (rule : String) : Filling where
  origin := o
  filler := .deferred rule none
  Stands w p := ∃ l, p = .deferred l ∧ w.ruleOf l = some rule
  stands_later h hv := by
    obtain ⟨l, hp, hl⟩ := h
    exact ⟨l, hp, hv l rule hl⟩
  fills w bindings _ := by
    have hmade : (Description.deferred rule none).build bindings w =
        .ok (.deferred w.deferred.size) (w.withDeferred rule) := rfl
    exact ⟨_, _, hmade, (World.Grows.refl w).withDeferred rule, _, rfl,
      World.ruleOf_withDeferred w rule⟩

/-- A grammar that is closed by a rule. A handle of the rule has either been built, and
runs what it has kept, or it builds the rule first. -/
def Knot.ofRule {grammar : Description} (ho : o.Unrun)
    (hrule : World.lookup? rule o.rules = some (grammar.fill hole (.deferred rule none)))
    (hbody : ∀ w, w.names = o.names → ∃ q v,
      (grammar.fill hole (.deferred rule none)).build [] w = .ok q v ∧ ¬ q.IsHandle) :
    Knot hole grammar where
  toFilling := .ofRule o rule
  unrun := ho
  unfolds w q s i hw hq := by
    obtain ⟨l, rfl, hl⟩ := hq
    have halive : w.Alive (.deferred l) := by
      rintro k ⟨⟩
      exact ⟨rule, hl⟩
    have body {v : World} {q : Parser} (h : o.Built v rule q) :
        (Filling.ofRule o rule).Body hole grammar v q ∧ ¬ q.IsHandle := by
      obtain ⟨d, u, u', hd, hkin, hbuild, hlater⟩ := h
      cases hrule.symm.trans hd
      obtain ⟨q', u'', hbuild', hq'⟩ := hbody u hkin.names
      cases hbuild.symm.trans hbuild'
      exact ⟨⟨u, u', hkin.names, hbuild, hlater⟩, hq'⟩
    have hshows := hw.shows_behaviour halive
    generalize hb : w.behaviour (.deferred l) = b at hshows
    cases hshows with
    | plain hp => exact absurd trivial hp
    | @unbuilt _ k other hl' hk =>
        cases hl.symm.trans hl'
        obtain ⟨q, v, hbuild, hq⟩ := hbody (w.noted [.built rule]) hw.kin.names
        obtain ⟨u, hmade, hkeeps, hbuilt, hshows'⟩ := hw.buildRule ho hk hrule hbuild
        have hperform (n : Nat) : (Parser.deferred l).run (n + 1) s i w =
            (Parser.deferred k).run n s i u := by
          rw [World.run_deferred, hb]
          exact Run.bind_of_ok hmade
        refine ⟨q, u, 1, hkeeps.descends, hkeeps.later, (body hbuilt).1, fun n hn => ?_,
          fun n => ?_⟩
        · obtain rfl | rfl : n = 0 ∨ n = 1 := by omega
          · exact ⟨w, rfl⟩
          · exact ⟨u, hperform 0⟩
        · rw [hperform, World.run_deferred, hshows'.eq_run hq]
          rfl
    | @built _ other q _ hl' hq hq' =>
        cases hl.symm.trans hl'
        refine ⟨q, w, 0, hw, .refl w, (body hq).1, fun n hn => ?_, fun n => ?_⟩
        · obtain rfl : n = 0 := by omega
          exact ⟨w, rfl⟩
        · rw [World.run_deferred, hb, hq'.eq_run (body hq).2]
          rfl

end Rule

namespace Session

variable {o a b : World} {name rule hole : String} {grammar : Description} {p : Parser}

/-- A step that leads from one world to another. -/
theorem Leads.exists_observe {w v : World} {step : Step} (h : Leads w [step] v) :
    ∃ budget, (observe w (step.perform budget)).1.Ended ∧
      v = (observe w (step.perform budget)).2 := by
  cases h with
  | cons budget ended rest =>
      cases rest
      exact ⟨budget, ended, rfl⟩

theorem world_of_reference (h : Leads o [.reference name] a) :
    a = { o.cleared with
      references := o.references.push { behaviour := .unbound o.references.size }
      names := World.assign name (.reference o.references.size) o.names } := by
  obtain ⟨budget, -, rfl⟩ := h.exists_observe
  rfl

theorem world_of_rule {d : Description} (h : Leads o [.rule name d] b) :
    b = { o.cleared with rules := World.assign name d o.rules } := by
  obtain ⟨budget, -, rfl⟩ := h.exists_observe
  rfl

/-- A new reference that is bound to a parser other than itself. -/
theorem world_of_bindReference {r : Nat} {d : Description} {v w : World}
    (hname : World.lookup? name w.names = some (.reference r))
    (hcell : w.references[r]? = some { behaviour := .unbound r })
    (hbuild : d.build [] w.cleared = .ok p v) (hself : p ≠ .reference r)
    (h : Leads w [.bindReference name d] a) :
    ∃ events, a = (v.noted events).retargeted r p := by
  obtain ⟨budget, -, rfl⟩ := h.exists_observe
  have hv := Description.grows_of_build hbuild
  have hcell' : v.references[r]? = some { behaviour := .unbound r } := by
    rw [hv.rest]
    exact hcell
  have hnamed : Step.referenceNamed name w.cleared = .ok r w.cleared := by
    unfold Step.referenceNamed
    rw [Run.get_bind]
    simp only [World.cleared, hname]
    rfl
  obtain ⟨events, hbound⟩ := Run.retarget_of_not_dispatched (q := p) hcell' rfl
  rw [← Run.bindReference_eq_retarget hself] at hbound
  have hstep : Step.perform budget (.bindReference name d) w.cleared =
      .ok (.truth true) ((v.noted events).retargeted r p) := by
    refine (Run.bind_of_ok hnamed).trans ((Run.bind_of_ok hbuild).trans ?_)
    exact Run.bind_of_ok hbound
  rw [observe_of_ok hstep]
  exact ⟨events, rfl⟩

/-- A reference was made, a parser was built with it, and the reference was bound to that
parser. -/
structure BoundTo (o a₀ v a : World) (name : String) (p : Parser) (r : Nat) : Prop where
  lookup_eq : World.lookup? name a.names = some (.reference r)
  other : p ≠ .reference r
  targets : a.Targets r p
  names_eq : a₀.names = a.names
  later : v.Later a
  threshold_eq : a.threshold = o.threshold

theorem exists_boundTo {a₀ v : World} {d : Description} (hreference : Leads o [.reference name] a₀)
    (hbuild : d.build [] a₀ = .ok p v) (hself : World.lookup? name a₀.names ≠ some p)
    (hbind : Leads a₀ [.bindReference name d] a) : ∃ r, BoundTo o a₀ v a name p r := by
  have hmade := world_of_reference hreference
  have hgrows := Description.grows_of_build hbuild
  have hname : World.lookup? name a₀.names = some (.reference o.references.size) := by
    rw [hmade, World.lookup?_assign, if_pos rfl]
  have hcell : a₀.references[o.references.size]? =
      some { behaviour := .unbound o.references.size } := by
    rw [hmade]
    simp
  have hcleared : a₀.cleared = a₀ := by
    rw [hmade]
    rfl
  have hother : p ≠ .reference o.references.size := by
    rintro rfl
    exact hself hname
  obtain ⟨events, hbound⟩ := world_of_bindReference hname hcell (hcleared ▸ hbuild) hother hbind
  have hnames : a₀.names = a.names := by
    rw [hbound, hgrows.rest]
    rfl
  refine ⟨_, hnames ▸ hname, hother, ⟨false, ?_⟩, hnames, ?_, ?_⟩
  · have hcell' : (v.noted events).references[o.references.size]? =
        some { behaviour := .unbound o.references.size } := by
      rw [hgrows.rest]
      exact hcell
    rw [hbound, World.getElem?_retargeted, if_pos rfl, hcell']
    rfl
  · rw [hbound]
    exact fun _ _ hl => hl
  · rw [hbound, hgrows.rest, hmade]
    rfl

/-- The two ways of closing a recursive grammar agree. Let a grammar with a hole and
without other handles be built without a fault, and not to the hole itself. In one world
the hole is filled by a new reference, which is then bound to what was built; in another
one the grammar is a rule, and its hole is filled by that rule, deferred. On every input
and from every offset, a run of the reference ends if and only if a run of the rule does,
and however much budget both are given, they have the same reply or the same fault. -/
theorem reference_agrees_with_rule (setUp : List Step) (o a₀ a b : World)
    (hole name rule : String) (grammar : Description) (p : Parser) (v : World) (s : Text) (i : Int)
    (hsetUp : ∀ step ∈ setUp, ¬ step.IsRun) (hstart : Leads {} setUp o)
    (hgrammar : grammar.Direct (· = hole)) (hreference : Leads o [.reference name] a₀)
    (hbuild : (grammar.fill hole (.known name)).build [] a₀ = .ok p v)
    (hself : World.lookup? name a₀.names ≠ some p)
    (hbind : Leads a₀ [.bindReference name (grammar.fill hole (.known name))] a)
    (hrule : Leads o [.rule rule (grammar.fill hole (.deferred rule none))] b) :
    ((∃ budget, (observe a (Step.perform budget (.call (.known name) s i))).1.Ended) ↔
      ∃ budget, (observe b (Step.perform budget (.call (.deferred rule none) s i))).1.Ended) ∧
    ∀ budget budget',
      (observe a (Step.perform budget (.call (.known name) s i))).1.Ended →
      (observe b (Step.perform budget' (.call (.deferred rule none) s i))).1.Ended →
      (observe a (Step.perform budget (.call (.known name) s i))).1.result =
        (observe b (Step.perform budget' (.call (.deferred rule none) s i))).1.result := by
  have ho : o.Unrun := hstart.unrun (.empty .warning) hsetUp
  have ha₀ : a₀.Unrun := hreference.unrun ho (by simp [Step.IsRun])
  have ha : a.Unrun := hbind.unrun ha₀ (by simp [Step.IsRun])
  have hb : b.Unrun := hrule.unrun ho (by simp [Step.IsRun])
  obtain ⟨r, hr⟩ := exists_boundTo hreference hbuild hself hbind
  let A : Knot hole grammar :=
    .ofReference ha hr.lookup_eq hr.targets ⟨a₀, v, hr.names_eq, hbuild, hr.later⟩
  -- What could be built with the reference in the hole can be built with the rule in it.
  have hbody (w : World) (hw : w.names = b.names) : ∃ q u,
      (grammar.fill hole (.deferred rule none)).build [] w = .ok q u ∧ ¬ q.IsHandle := by
    obtain ⟨q, u, hq, htwins⟩ := Filling.exists_fill_eq_ok (A := A.toFilling)
      (B := .ofRule b rule) hgrammar hr.names_eq hw hbuild
    exact ⟨q, u, hq, Filling.not_isHandle_of_twins hr.lookup_eq htwins hr.other⟩
  have hruled := world_of_rule hrule
  have hlookup : World.lookup? rule b.rules = some (grammar.fill hole (.deferred rule none)) := by
    rw [hruled, World.lookup?_assign, if_pos rfl]
  have hthreshold : a.threshold = b.threshold := by
    rw [hr.threshold_eq, hruled]
    rfl
  exact Knot.calls_agree A (.ofRule hb hlookup hbody) hgrammar hthreshold s i

/-- Brackets around anything, or letters in a row with the rest of the row after them, of
which the last one is the value: the grammar occurs in itself between the brackets and
after a letter, where it is built in the course of the run. -/
def bracketed : Description :=
  .join .orElse
    (.between (.atom (.string (.value (.str "(")))) (.atom (.string (.value (.str ")"))))
      (.known "whole"))
    (.bind (.atom (.named .letter)) "last"
      (.join .orElse (.known "whole") (.atom (.pure (.argument "last")))))

/-- A run through two brackets and a row of letters, and one that ends in a failure. -/
theorem reference_agrees_with_rule_of_bracketed :
    ∃ a₀ a b p v, Leads {} [.reference "r"] a₀ ∧
      (bracketed.fill "whole" (.known "r")).build [] a₀ = .ok p v ∧
      World.lookup? "r" a₀.names ≠ some p ∧
      Leads a₀ [.bindReference "r" (bracketed.fill "whole" (.known "r"))] a ∧
      Leads {} [.rule "X" (bracketed.fill "whole" (.deferred "X" none))] b ∧
      (observe a (Step.perform 20 (.call (.known "r") "((ab))".toList 0))).1.result =
        (observe b (Step.perform 20 (.call (.deferred "X" none) "((ab))".toList 0))).1.result ∧
      (observe a (Step.perform 20 (.call (.known "r") "((ab)".toList 1))).1.result =
        (observe b (Step.perform 20 (.call (.deferred "X" none) "((ab)".toList 1))).1.result := by
  have agree (s : Text) (i : Int) := reference_agrees_with_rule [] _ _ _ _ "whole" "r" "X"
    bracketed _ _ s i (by simp) (.nil _) (by simp [bracketed, Description.Direct])
    (.cons 0 (by decide +kernel) (.nil _)) rfl nofun (.cons 0 (by decide +kernel) (.nil _))
    (.cons 0 (by decide +kernel) (.nil _))
  refine ⟨_, _, _, _, _, .cons 0 (by decide +kernel) (.nil _), rfl, nofun,
    .cons 0 (by decide +kernel) (.nil _), .cons 0 (by decide +kernel) (.nil _), ?_, ?_⟩
  · exact (agree _ _).2 20 20 (by decide +kernel) (by decide +kernel)
  · exact (agree _ _).2 20 20 (by decide +kernel) (by decide +kernel)

end Session

end Descent
