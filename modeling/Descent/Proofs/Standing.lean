/-
# Handles that stand for a reference

A handle whose builder returns a reference takes over what the reference does when the builder
is called. If the reference is bound by then, the handle goes through it from then on. Whether
it has been built or not, it stands for what the reference is bound to: it can be exchanged for
that parser, as a whole or as a part of any other parser, and no run comes to anything else.

Worlds tally if they differ in nothing but records, marks, and whether the handle was built.
Runs of the same parser in such worlds take the same course, since a handle that is still to
be built and one that goes through the reference lead to the same parser, only that the first
of them takes one step more.
-/

import Descent.Proofs.Builder
import Descent.Proofs.Grammar.Recursion
import Descent.Proofs.Scope
import Descent.Proofs.Settling

namespace Descent

open Filter

namespace Run

variable {α : Type}

theorem ofExcept_eq_ok {x : Except Fault α} {a : α} {w v : World} :
    ofExcept x w = .ok a v ↔ x = .ok a ∧ w = v := by
  cases x with
  | ok b =>
      refine pure_eq_ok.trans (and_congr_left' ?_)
      rw [Except.ok.injEq]
  | error f => exact iff_of_false fault_ne_ok fun h => by cases h.1

end Run

/-- What follows a run for all its budgets comes to the outcome that the run comes to. -/
theorem Comparison.endsIn_of_follows {α : Type} {c : Comparison} {x y : Nat → Run α}
    {w w' : World} {o : Except Fault α} (hfaults : ∀ f f', c.faults f f' → f = f')
    (h : ∀ n, c.Follows (fun _ _ a b => a = b) (x n) y w w') (hx : Run.EndsIn x w o) :
    Run.EndsIn y w' o := by
  obtain ⟨v, hv⟩ := hx
  obtain ⟨n, hn⟩ := hv.exists
  cases o with
  | ok a =>
      obtain ⟨_, v', hend, -, rfl⟩ := (h n).exists_of_ok hn
      exact ⟨v', hend⟩
  | error f =>
      obtain ⟨f', v', hend, -, hf⟩ := (h n).exists_of_fault hn
      cases hfaults f f' hf
      exact ⟨v', hend⟩

/-- A modifier makes no handle. -/
theorem Modifier.not_isHandle {bindings : Bindings} {m : Modifier} {p q : Parser}
    (h : m.build bindings p = .ok q) : ¬ q.IsHandle := by
  cases m with
  | map | many | mark | optional | many1 | skipMany | lookAhead | notFollowedBy | traced =>
      cases h
      exact id
  | result | label | option =>
      obtain ⟨v, h⟩ := exists_of_bind_eq_ok h
      cases h
      exact id
  | atMost | atLeast | count =>
      obtain ⟨n, h⟩ := exists_of_bind_eq_ok h
      obtain ⟨r, h⟩ := exists_of_bind_eq_ok h
      cases h
      exact id
  | times =>
      obtain ⟨n, h⟩ := exists_of_bind_eq_ok h
      obtain ⟨n', h⟩ := exists_of_bind_eq_ok h
      obtain ⟨r, h⟩ := exists_of_bind_eq_ok h
      cases h
      exact id
  | withDefault d =>
      cases d with
      | value v =>
          obtain ⟨v, h⟩ := exists_of_bind_eq_ok h
          cases h
          exact id
      | call f =>
          cases h
          exact id

/-- A description that is built into a reference leaves the world as it is, and which reference
it is depends on nothing but the names. -/
theorem Description.build_reference {d : Description} {bindings : Bindings} {r : Nat}
    {w v : World} (h : d.build bindings w = .ok (.reference r) v) :
    v = w ∧ ∀ u : World, u.names = w.names → d.build bindings u = .ok (.reference r) u := by
  have refused {p : Parser} (hp : ¬ p.IsHandle) {u t : World}
      (hend : (pure p : Run Parser) u = .ok (.reference r) t) : False := by
    obtain ⟨rfl, -⟩ := Run.pure_eq_ok.mp hend
    exact hp trivial
  induction d generalizing w v with
  | atom a =>
      have halike : BuiltAlike (fun p _ => p.Primitive) (a.build bindings) (a.build bindings) := by
        refine BuiltAlike.atom ?_ bindings a
        exact id
      rw [(Run.ofExcept_eq_ok.mp h).1] at halike
      cases halike with
      | ok hp =>
          cases hp with
          | base hp => cases hp
  | wrap m p ih =>
      obtain ⟨q, u, -, hend⟩ := Run.bind_eq_ok.mp h
      exact absurd trivial (Modifier.not_isHandle (Run.ofExcept_eq_ok.mp hend).1)
  | join j p q ihp ihq =>
      obtain ⟨p', u, -, hend⟩ := Run.bind_eq_ok.mp h
      obtain ⟨q', t, -, hend⟩ := Run.bind_eq_ok.mp hend
      refine (refused ?_ hend).elim
      cases j <;> exact id
  | between opening closing p iho ihc ihp =>
      obtain ⟨o', u, -, hend⟩ := Run.bind_eq_ok.mp h
      obtain ⟨c', t, -, hend⟩ := Run.bind_eq_ok.mp hend
      obtain ⟨p', z, -, hend⟩ := Run.bind_eq_ok.mp hend
      exact (refused id hend).elim
  | seq n ps ih =>
      obtain ⟨qs, u, -, hend⟩ := Run.bind_eq_ok.mp h
      exact (refused id hend).elim
  | alt n ps ih =>
      obtain ⟨qs, u, -, hend⟩ := Run.bind_eq_ok.mp h
      exact (refused id hend).elim
  | seqMap n ps f ih =>
      obtain ⟨qs, u, -, hend⟩ := Run.bind_eq_ok.mp h
      cases f with
      | none => cases hend
      | some f => exact (refused id hend).elim
  | bind p name q ihp ihq =>
      obtain ⟨p', u, -, hend⟩ := Run.bind_eq_ok.mp h
      exact (refused id hend).elim
  | choose first second p q ihp ihq =>
      obtain ⟨a, u, ha, hend⟩ := Run.bind_eq_ok.mp h
      obtain ⟨b, t, hb, hend⟩ := Run.bind_eq_ok.mp hend
      obtain ⟨hfirst, rfl⟩ := Run.ofExcept_eq_ok.mp ha
      obtain ⟨hsecond, rfl⟩ := Run.ofExcept_eq_ok.mp hb
      have evaluated (u : World) : (choose first second p q).build bindings u =
          (if a.same b then p.build bindings else q.build bindings) u :=
        (Run.bind_of_ok (Run.ofExcept_eq_ok.mpr ⟨hfirst, rfl⟩)).trans
          (Run.bind_of_ok (Run.ofExcept_eq_ok.mpr ⟨hsecond, rfl⟩))
      simp only [evaluated]
      split at hend
      · next hsame =>
        simp only [if_pos hsame]
        exact ihp hend
      · next hsame =>
        simp only [if_neg hsame]
        exact ihq hend
  | known name =>
      unfold build at h ⊢
      rw [Run.get_bind] at h
      cases hname : World.lookup? name w.names with
      | none =>
          rw [hname] at h
          cases h
      | some p =>
          rw [hname] at h
          obtain ⟨rfl, rfl⟩ := Run.pure_eq_ok.mp h
          refine ⟨rfl, fun u hu => ?_⟩
          rw [Run.get_bind, hu, hname]
          rfl
  | deferred rule description =>
      obtain ⟨p, u, hp, hend⟩ := Run.bind_eq_ok.mp h
      cases hp
      cases description with
      | none => cases hend
      | some text => cases hend

/-- The parser is the reference of the given number. -/
def Parser.isReference (r : Nat) : Parser → Bool
  | .reference k => k == r
  | _ => false

theorem Parser.isReference_iff {r : Nat} {p : Parser} :
    p.isReference r = true ↔ p = .reference r := by
  cases p with
  | reference k => simp [isReference]
  | _ => simp [isReference]

/-- The behaviour is to fail, because a reference was not bound. -/
def Behaviour.fails : Behaviour → Bool
  | .unbound _ => true
  | _ => false

theorem Behaviour.fails_iff {b : Behaviour} : b.fails = true ↔ ∃ r, b = .unbound r := by
  cases b with
  | unbound r => simp [fails]
  | _ => simp [fails]

/-- The behaviour leads through a reference: at once, or after a handle has been built. -/
def Behaviour.Through (l r : Nat) (b : Behaviour) : Prop :=
  b = .build l ∨ b = .dispatch r

theorem Behaviour.Through.fails_eq_false {l r : Nat} {b : Behaviour} (h : b.Through l r) :
    b.fails = false := by
  rcases h with rfl | rfl
  · rfl
  · rfl

/-- Two behaviours are the same, or both lead through the reference. -/
def Behaviour.Akin (l r : Nat) (b b' : Behaviour) : Prop :=
  b = b' ∨ b.Through l r ∧ b'.Through l r

namespace World

/-- What the builder of a handle returns if it is called now, unless it ends in a fault. -/
def returned? (w : World) (l : Nat) : Option Parser :=
  (w.ruleOf l).bind fun rule => (lookup? rule w.rules).bind fun d =>
    (d.build []).run' (w.noted [.built rule])

instance (o : Option Parser) (r : Nat) : Decidable (o = some (.reference r)) :=
  decidable_of_iff (o.any (·.isReference r) = true) (by
    rw [Option.any_eq_true]
    constructor
    · rintro ⟨p, rfl, hp⟩
      rw [Parser.isReference_iff.mp hp]
    · rintro rfl
      exact ⟨_, rfl, Parser.isReference_iff.mpr rfl⟩)

/-- The builder of a handle returns a reference, and does nothing else. -/
def Refers (w : World) (l r : Nat) : Prop :=
  ∃ rule d, w.ruleOf l = some rule ∧ lookup? rule w.rules = some d ∧
    ∀ u : World, u.names = w.names → d.build [] u = .ok (.reference r) u

/-- A handle stands for a reference that leads to a parser: its builder returns the reference,
and what the handle does at present leads through it. -/
structure StandsFor (l r : Nat) (q : Parser) (w : World) : Prop where
  refers : w.Refers l r
  targets : w.Targets r q
  through : (w.behaviour (.deferred l)).Through l r

/-- Two worlds differ in nothing but what was recorded, which references were gone through, and
whether the handle has been built. -/
structure Tallies (l r : Nat) (w v : World) : Prop where
  threshold_eq : v.threshold = w.threshold
  rules_eq : v.rules = w.rules
  names_eq : v.names = w.names
  size_eq : v.deferred.size = w.deferred.size
  ruleOf_eq : ∀ k, v.ruleOf k = w.ruleOf k
  referent_eq : ∀ k, v.referent k = w.referent k
  akin : ∀ k, (w.behaviour (.deferred k)).Akin l r (v.behaviour (.deferred k))

variable {w v u : World} {l r : Nat} {q : Parser}

theorem refers_of_returned (h : w.returned? l = some (.reference r)) : w.Refers l r := by
  obtain ⟨rule, hl, h⟩ := Option.bind_eq_some_iff.mp h
  obtain ⟨d, hrule, h⟩ := Option.bind_eq_some_iff.mp h
  obtain ⟨v, hbuild⟩ := Run.exists_of_run'_eq_some h
  exact ⟨rule, d, hl, hrule, (Description.build_reference hbuild).2⟩

theorem Refers.congr (h : w.Refers l r) (hrules : v.rules = w.rules) (hnames : v.names = w.names)
    (hrule : v.ruleOf l = w.ruleOf l) : v.Refers l r := by
  obtain ⟨rule, d, hl, hd, hbuild⟩ := h
  refine ⟨rule, d, hrule.trans hl, ?_, fun u hu => hbuild u (hu.trans hnames)⟩
  rw [hrules]
  exact hd

theorem Refers.buildRule (h : w.Refers l r) : ∃ rule, Behaviour.buildRule l w =
    .ok () ((w.noted [.built rule]).keepBehaviour l (w.behaviour (.reference r))) := by
  obtain ⟨rule, d, hl, hrule, hbuild⟩ := h
  exact ⟨rule, buildRule_of_ok hl hrule (hbuild _ rfl)⟩

/-- A handle takes over what the reference does that its builder returns. -/
theorem Refers.behaviour_buildRule (h : w.Refers l r) :
    ((Behaviour.buildRule l).after w).behaviour (.deferred l) = w.behaviour (.reference r) := by
  obtain ⟨rule, hbuild⟩ := h.buildRule
  obtain ⟨own, -, hl, -⟩ := h
  rw [Run.after_of_ok hbuild]
  exact behaviour_keepBehaviour_self (w := w.noted [.built rule]) hl _

namespace Tallies

theorem refl (w : World) : Tallies l r w w :=
  ⟨rfl, rfl, rfl, rfl, fun _ => rfl, fun _ => rfl, fun _ => .inl rfl⟩

theorem symm (h : Tallies l r w v) : Tallies l r v w where
  threshold_eq := h.threshold_eq.symm
  rules_eq := h.rules_eq.symm
  names_eq := h.names_eq.symm
  size_eq := h.size_eq.symm
  ruleOf_eq k := (h.ruleOf_eq k).symm
  referent_eq k := (h.referent_eq k).symm
  akin k := (h.akin k).imp Eq.symm And.symm

theorem trans (h : Tallies l r w v) (h' : Tallies l r v u) : Tallies l r w u where
  threshold_eq := h'.threshold_eq.trans h.threshold_eq
  rules_eq := h'.rules_eq.trans h.rules_eq
  names_eq := h'.names_eq.trans h.names_eq
  size_eq := h'.size_eq.trans h.size_eq
  ruleOf_eq k := (h'.ruleOf_eq k).trans (h.ruleOf_eq k)
  referent_eq k := (h'.referent_eq k).trans (h.referent_eq k)
  akin k := by
    rcases h.akin k with heq | ⟨hw, hv⟩
    · rw [heq]
      exact h'.akin k
    · rcases h'.akin k with heq | ⟨-, hu⟩
      · exact .inr ⟨hw, heq ▸ hv⟩
      · exact .inr ⟨hw, hu⟩

theorem noted (w : World) (events : List Event) : Tallies l r w (w.noted events) :=
  ⟨rfl, rfl, rfl, rfl, fun _ => rfl, fun _ => rfl, fun _ => .inl rfl⟩

theorem markDispatched (w : World) (k : Nat) : Tallies l r w (w.markDispatched k) :=
  ⟨rfl, rfl, rfl, rfl, fun _ => rfl, w.referent_markDispatched k, fun _ => .inl rfl⟩

/-- Handles that are given akin things to do. -/
theorem keepBehaviour (h : Tallies l r w v) (k : Nat) {b b' : Behaviour} (hb : b.Akin l r b') :
    Tallies l r (w.keepBehaviour k b) (v.keepBehaviour k b') where
  threshold_eq := h.threshold_eq
  rules_eq := h.rules_eq
  names_eq := h.names_eq
  size_eq := by simpa [World.keepBehaviour] using h.size_eq
  ruleOf_eq j := by
    rw [Descends.ruleOf_keepBehaviour, Descends.ruleOf_keepBehaviour]
    exact h.ruleOf_eq j
  referent_eq := h.referent_eq
  akin j := by
    by_cases hj : j = k
    · subst hj
      cases hrule : w.ruleOf j with
      | some rule =>
          rw [behaviour_keepBehaviour_self hrule,
            behaviour_keepBehaviour_self ((h.ruleOf_eq j).trans hrule)]
          exact hb
      | none =>
          have missing {t : World} (ht : t.ruleOf j = none) (c : Behaviour) :
              (t.keepBehaviour j c).behaviour (.deferred j) = .build j := by
            have hnone := Option.map_eq_none_iff.mp ht
            simp [World.keepBehaviour, behaviour, Array.getElem?_modify, hnone]
          rw [missing hrule, missing ((h.ruleOf_eq j).trans hrule)]
          exact .inl rfl
    · have hne : Parser.deferred j ≠ .deferred k := fun heq => hj (Parser.deferred.inj heq)
      rw [behaviour_keepBehaviour_of_ne _ _ hne, behaviour_keepBehaviour_of_ne _ _ hne]
      exact h.akin j

theorem withDeferred (h : Tallies l r w v) (rule : String) :
    Tallies l r (w.withDeferred rule) (v.withDeferred rule) where
  threshold_eq := h.threshold_eq
  rules_eq := h.rules_eq
  names_eq := h.names_eq
  size_eq := by simpa [World.withDeferred] using h.size_eq
  ruleOf_eq k := by
    have hk := h.ruleOf_eq k
    simp only [ruleOf] at hk
    simp only [ruleOf, World.withDeferred, Array.getElem?_push, h.size_eq]
    split
    · rfl
    · exact hk
  referent_eq := h.referent_eq
  akin k := by
    rw [((Grows.refl w).withDeferred rule).behaviour_eq,
      ((Grows.refl v).withDeferred rule).behaviour_eq]
    exact h.akin k

end Tallies

namespace StandsFor

theorem tallies (h : w.StandsFor l r q) (hv : Tallies l r w v) : v.StandsFor l r q where
  refers := h.refers.congr hv.rules_eq hv.names_eq (hv.ruleOf_eq l)
  targets := targets_iff_referent.mpr ((hv.referent_eq r).trans (targets_iff_referent.mp h.targets))
  through := by
    rcases hv.akin l with heq | ⟨-, hthrough⟩
    · exact heq ▸ h.through
    · exact hthrough

theorem withDeferred (h : w.StandsFor l r q) (rule : String) :
    (w.withDeferred rule).StandsFor l r q where
  refers := by
    obtain ⟨own, d, hl, hd, hbuild⟩ := h.refers
    exact ⟨own, d, ((Grows.refl w).withDeferred rule).later l own hl, hd, hbuild⟩
  targets := h.targets
  through := by
    rw [((Grows.refl w).withDeferred rule).behaviour_eq]
    exact h.through

/-- Any handle may be given something to do, and the one that stands for the reference something
that leads through it. -/
theorem keepBehaviour (h : w.StandsFor l r q) {k : Nat} {b : Behaviour}
    (hb : k = l → b.Through l r) : (w.keepBehaviour k b).StandsFor l r q where
  refers := h.refers.congr rfl rfl (Descends.ruleOf_keepBehaviour w k l b)
  targets := h.targets
  through := by
    by_cases hk : k = l
    · subst hk
      obtain ⟨rule, -, hrule, -⟩ := h.refers
      rw [behaviour_keepBehaviour_self hrule]
      exact hb rfl
    · have hne : Parser.deferred l ≠ .deferred k := fun heq => hk (Parser.deferred.inj heq).symm
      rw [behaviour_keepBehaviour_of_ne _ _ hne]
      exact h.through

/-- It makes no difference which of the things that lead through the reference the handle does. -/
theorem tallies_keepBehaviour (h : w.StandsFor l r q) {b : Behaviour} (hb : b.Through l r) :
    Tallies l r w (w.keepBehaviour l b) where
  threshold_eq := rfl
  rules_eq := rfl
  names_eq := rfl
  size_eq := by simp [World.keepBehaviour]
  ruleOf_eq k := Descends.ruleOf_keepBehaviour w l k b
  referent_eq _ := rfl
  akin k := by
    by_cases hk : k = l
    · subst hk
      obtain ⟨rule, -, hrule, -⟩ := h.refers
      rw [behaviour_keepBehaviour_self hrule]
      exact .inr ⟨h.through, hb⟩
    · have hne : Parser.deferred k ≠ .deferred l := fun heq => hk (Parser.deferred.inj heq)
      rw [behaviour_keepBehaviour_of_ne _ _ hne]
      exact .inl rfl

/-- Once the handle is built, it goes through the reference. -/
theorem exists_buildRule_eq (h : w.StandsFor l r q) : ∃ v, Behaviour.buildRule l w = .ok () v ∧
    Tallies l r w v ∧ v.behaviour (.deferred l) = .dispatch r := by
  obtain ⟨rule, hbuild⟩ := h.refers.buildRule
  have hdispatch := h.refers.behaviour_buildRule
  rw [h.targets.behaviour_eq] at hbuild hdispatch
  rw [Run.after_of_ok hbuild] at hdispatch
  have hnoted : Tallies l r w (w.noted [.built rule]) := .noted w _
  exact ⟨_, hbuild, hnoted.trans ((h.tallies hnoted).tallies_keepBehaviour (.inr rfl)), hdispatch⟩

/-- What leads through the reference leads to what it is bound to, with a step more of budget
if the handle has to be built first. -/
theorem exists_perform_eq (h : w.StandsFor l r q) {b : Behaviour} (hb : b.Through l r) (s : Text)
    (i : Int) : ∃ v j, Tallies l r w v ∧
      (∀ n, b.perform (Parser.run (n + j)) s i w = q.run n s i v) ∧
      ∀ n < j, ∃ u, b.perform (Parser.run n) s i w = .error .unfinished u := by
  have dispatch {u : World} (hu : u.Targets r q) (n : Nat) :
      (Behaviour.dispatch r).perform (Parser.run n) s i u = q.run n s i (u.markDispatched r) := by
    rw [← Parser.run_reference hu, ← hu.behaviour_eq]
    rfl
  rcases hb with rfl | rfl
  · obtain ⟨v, hbuild, hv, hdispatch⟩ := h.exists_buildRule_eq
    have hthen (n : Nat) : (Behaviour.build l).perform (Parser.run n) s i w =
        (Parser.deferred l).run n s i v := Run.bind_of_ok hbuild
    refine ⟨v.markDispatched r, 1, hv.trans (.markDispatched v r), fun n => ?_, fun n hn => ?_⟩
    · rw [hthen, run_deferred, hdispatch, dispatch (h.tallies hv).targets]
    · obtain rfl : n = 0 := by omega
      exact ⟨v, hthen 0⟩
  · exact ⟨w.markDispatched r, 0, .markDispatched w r, dispatch h.targets,
      fun n hn => absurd hn (Nat.not_lt_zero n)⟩

end StandsFor

end World

/-- Runs in worlds that tally, in which a handle stands for a reference. -/
def Comparison.standing (l r : Nat) (q : Parser) : Comparison where
  related w w' := w.StandsFor l r q ∧ w.Tallies l r w'
  later _ _ := True
  faults f f' := f = f'
  later_refl _ := trivial
  later_trans _ _ := trivial

namespace World

variable {w w' : World} {l r n : Nat} {q : Parser} {s : Text} {i : Int}

theorem reaches_standing {v v' : World} (hv : v.StandsFor l r q) (htallies : v.Tallies l r v') :
    (Comparison.standing l r q).Reaches w w' v v' :=
  ⟨⟨hv, htallies⟩, trivial, trivial⟩

theorem accompanies_standing : (Comparison.standing l r q).Accompanies where
  noted {w w'} events h := by
    have hleft : Tallies l r w (w.noted events) := .noted w events
    exact reaches_standing (h.1.tallies hleft)
      (hleft.symm.trans (h.2.trans (.noted w' events)))
  same_fault _ := rfl
  threshold_eq h := h.2.threshold_eq.symm

theorem builds_standing : (Comparison.standing l r q).Builds (fun _ _ => Eq) where
  later _ _ h := h
  primitive _ := rfl
  same_fault _ := rfl
  built _ _ := rfl
  known name h := by
    rw [h.2.names_eq]
    cases lookup? name _ with
    | none => exact .none
    | some p => exact .some (.base rfl)
  newDeferred rule h := by
    refine .of_ok rfl (.of_forall fun _ => rfl)
      (reaches_standing (h.1.withDeferred rule) (h.2.withDeferred rule)) (.base ?_)
    rw [h.2.size_eq]

/-- A description is built into the same parser in worlds that tally. -/
theorem follows_build_standing (d : Description) (bindings : Bindings)
    (h : (Comparison.standing l r q).related w w') :
    (Comparison.standing l r q).Follows (fun _ _ => Eq) (d.build bindings)
      (fun _ => d.build bindings) w w' :=
  (builds_standing.build d bindings w w' h).weaken (fun _ _ hreach => hreach)
    (fun _ _ hfault => hfault) fun _ _ _ _ hp => hp.eq

/-- What a parser does in worlds that tally is the same, or leads through the reference. -/
theorem Tallies.behaviour_akin (h : Tallies l r w w') (p : Parser) :
    (w.behaviour p).Akin l r (w'.behaviour p) := by
  cases p with
  | reference k =>
      rw [behaviour_reference, behaviour_reference, h.referent_eq k]
      exact .inl rfl
  | deferred k => exact h.akin k
  | _ => exact .inl rfl

/-- Both runs build the same handle. -/
theorem follows_buildRule_standing (k : Nat) (h : (Comparison.standing l r q).related w w') :
    (Comparison.standing l r q).Follows (fun _ _ _ _ => True) (Behaviour.buildRule k)
      (fun _ => Behaviour.buildRule k) w w' := by
  obtain ⟨hw, htallies⟩ := h
  by_cases hkl : k = l
  · subst hkl
    obtain ⟨v, hbuild, hv, -⟩ := hw.exists_buildRule_eq
    obtain ⟨v', hbuild', hv', -⟩ := (hw.tallies htallies).exists_buildRule_eq
    exact .of_ok hbuild (.of_forall fun _ => hbuild')
      (reaches_standing (hw.tallies hv) (hv.symm.trans (htallies.trans hv'))) trivial
  cases hk : w.ruleOf k with
  | none =>
      exact .of_fault (buildRule_of_unknown hk)
        (.of_forall fun _ => buildRule_of_unknown ((htallies.ruleOf_eq k).trans hk))
        (reaches_standing hw htallies) rfl
  | some rule =>
      have hk' := (htallies.ruleOf_eq k).trans hk
      have hrules : lookup? rule w'.rules = lookup? rule w.rules := by rw [htallies.rules_eq]
      have hnoted := accompanies_standing.noted [.built rule] ⟨hw, htallies⟩
      cases hrule : lookup? rule w.rules with
      | none =>
          exact .of_fault (buildRule_of_missing hk hrule)
            (.of_forall fun _ => buildRule_of_missing hk' (hrules.trans hrule)) hnoted rfl
      | some d =>
          refine Comparison.Follows.shift ?_ trivial trivial (buildRule_of_found hk hrule)
            (.of_forall fun _ => buildRule_of_found hk' (hrules.trans hrule))
          apply (follows_build_standing d [] hnoted.related).bind
          rintro u u' p _ ⟨⟨hu, hu'⟩, -, -⟩ rfl
          exact .of_ok rfl (.of_forall fun _ => rfl)
            (reaches_standing (hu.keepBehaviour fun heq => absurd heq hkl)
              (hu'.keepBehaviour k (hu'.behaviour_akin p))) trivial

/-- Both runs go through a reference to the same parser. -/
theorem follows_enterReference_standing (k : Nat)
    (h : (Comparison.standing l r q).related w w') :
    (Comparison.standing l r q).Follows (fun _ _ => Eq) (Run.enterReference k)
      (fun _ => Run.enterReference k) w w' := by
  have hleft : Tallies l r w (w.markDispatched k) := .markDispatched w k
  have htallies := hleft.symm.trans (h.2.trans (.markDispatched w' k))
  refine .of_ok rfl (.of_forall fun _ => rfl) (reaches_standing (h.1.tallies hleft) htallies) ?_
  change ((w.markDispatched k).references[k]?).bind (·.target) =
    ((w'.markDispatched k).references[k]?).bind (·.target)
  rw [target_eq, target_eq, htallies.referent_eq k]

/-- Both runs do what a handle does at present, and the behaviours are akin. -/
theorem follows_perform_standing
    (hrun : ∀ m ≤ n, ∀ (p : Parser) v v',
      (Comparison.standing l r q).Acts (.same s) (p.run m) (fun m => p.run m) v v')
    (h : (Comparison.standing l r q).related w w') {b b' : Behaviour} (hb : b.Akin l r b') :
    (Comparison.standing l r q).Follows (fun _ _ => (Likeness.same s).replies)
      (b.perform (Parser.run n) s i) (fun m => b'.perform (Parser.run m) s i) w w' := by
  rcases hb with rfl | ⟨hb, hb'⟩
  · cases b with
    | run p => exact hrun n le_rfl p w w' w w' i i (.refl h) rfl
    | unbound k =>
        have hplain : ((Behaviour.unbound k).perform (Parser.run n) s i).Plain :=
          .bind (.record _ _ _) fun _ => .pure _
        exact accompanies_standing.plain hplain h
    | dispatch k =>
        apply (follows_enterReference_standing k h).bind
        rintro v v' target _ hreach rfl
        cases target with
        | none => exact .fault hreach.related rfl
        | some p => exact hrun n le_rfl p v v' v v' i i (.refl hreach.related) rfl
    | build k =>
        apply (follows_buildRule_standing k h).bind
        intro v v' _ _ hreach _
        exact hrun n le_rfl (.deferred k) v v' v v' i i (.refl hreach.related) rfl
  · -- Each run leads to what the reference is bound to, whether or not it builds the handle.
    obtain ⟨v, j, hv, hperform, hshort⟩ := h.1.exists_perform_eq hb s i
    obtain ⟨v', j', hv', hperform', -⟩ := (h.1.tallies h.2).exists_perform_eq hb' s i
    by_cases hn : n < j
    · exact .inl (hshort n hn)
    · obtain ⟨m, rfl⟩ : ∃ m, n = m + j := ⟨n - j, by omega⟩
      have hq := hrun m (by omega) q v v' v v' i i
        (.refl ⟨h.1.tallies hv, hv.symm.trans (h.2.trans hv')⟩) rfl
      exact .of_add j' (hq.shift trivial trivial (hperform m) (.of_forall hperform'))

/-- Runs of one parser in worlds that tally take the same course. -/
theorem acts_standing (n : Nat) (p : Parser) (w w' : World) :
    (Comparison.standing l r q).Acts (.same s) (p.run n) (fun m => p.run m) w w' := by
  induction n using Nat.strong_induction_on generalizing p w w' with
  | _ n ih =>
      cases n with
      | zero => exact fun _ _ _ _ _ _ => .unfinished
      | succ n =>
          intro v v' i i' hreach hi
          refine .of_succ (Comparison.acts_action accompanies_standing (fun a b hout => ?_)
            p.alike_self v v' i i' hreach hi)
          cases hout with
          | primitive hprim =>
              exact Comparison.acts_primitive accompanies_standing (.same s) hprim _ _ _
          | built d bindings =>
              intro u u' j j' hru hj
              apply (follows_build_standing d bindings hru.related).bind
              rintro t t' a _ hrt rfl
              exact ih n (Nat.lt_succ_self n) a t t' t t' j j' (.refl hrt.related) hj
          | handle hhandle =>
              intro u u' j j' hru hj
              cases hj
              have hperform := follows_perform_standing (i := j)
                (fun m hm p v v' => ih m (Nat.lt_succ_of_le hm) p v v') hru.related
                (hru.related.2.behaviour_akin a)
              exact hperform.congr (Parser.action_of_isHandle hhandle _ _ _ _ _)
                (.of_forall fun m => Parser.action_of_isHandle hhandle _ _ _ _ _)

end World

namespace Parser

/-- A handle may be exchanged for a parser, and the parser for the handle. -/
inductive Exchange (l : Nat) (q : Parser) : Parser → Parser → Prop
  | same (p : Parser) : Exchange l q p p
  | forth : Exchange l q (.deferred l) q
  | back : Exchange l q q (.deferred l)

theorem Exchange.symm {l : Nat} {q p p' : Parser} (h : Exchange l q p p') :
    Exchange l q p' p := by
  cases h with
  | same p => exact .same p
  | forth => exact .back
  | back => exact .forth

end Parser

namespace World

variable {w w' : World} {l r n : Nat} {q p p' : Parser} {s : Text}

/-- The handle does what the parser does that it stands for, and the other way round. -/
theorem acts_exchange (n : Nat) (h : Parser.Exchange l q p p') :
    (Comparison.standing l r q).Acts (.same s) (p.run n) (fun m => p'.run m) w w' := by
  cases h with
  | same => exact acts_standing n p w w'
  | forth =>
      rintro v v' i _ ⟨⟨hv, htallies⟩, -, -⟩ rfl
      cases n with
      | zero => exact .unfinished
      | succ n =>
          obtain ⟨u, j, hu, hperform, hshort⟩ := hv.exists_perform_eq hv.through s i
          by_cases hn : n < j
          · exact .inl (hshort n hn)
          · obtain ⟨m, rfl⟩ : ∃ m, n = m + j := ⟨n - j, by omega⟩
            have hq := acts_standing (s := s) m q u v' u v' i i
              (.refl ⟨hv.tallies hu, hu.symm.trans htallies⟩) rfl
            exact hq.shift trivial trivial (hperform m) (.of_forall fun _ => rfl)
  | back =>
      rintro v v' i _ ⟨⟨hv, htallies⟩, -, -⟩ rfl
      have hv' := hv.tallies htallies
      obtain ⟨u, j, hu, hperform, -⟩ := hv'.exists_perform_eq hv'.through s i
      have hq := acts_standing (s := s) n q v u v u i i (.refl ⟨hv, htallies.trans hu⟩) rfl
      exact .of_add (j + 1) (hq.shift trivial trivial rfl (.of_forall hperform))

/-- In whatever parser a handle is exchanged for what it stands for, nothing changes about what
runs come to. -/
theorem StandsFor.endsIn_of_exchange (h : w.StandsFor l r q)
    (hp : p.Alike (Parser.Exchange l q) p') (i : Int) {o : Except Fault Reply}
    (ho : Run.EndsIn (fun n => p.run n s i) w o) : Run.EndsIn (fun n => p'.run n s i) w o := by
  refine Comparison.endsIn_of_follows (c := .standing l r q) (fun _ _ hf => hf) (fun n => ?_) ho
  have hreach : (Comparison.standing l r q).Reaches w w w w := reaches_standing h (.refl w)
  cases n with
  | zero => exact .unfinished
  | succ n =>
      refine .of_succ (Comparison.acts_action accompanies_standing (fun a b hab => ?_) hp
        w w i i hreach rfl)
      exact fun v v' j j' hv hj => (acts_exchange (n + 1) hab v v' j j' hv hj).succ

end World

end Descent
