/-
# Runs side by side

Two runs start in worlds that hold the same, whatever has been recorded in them, at levels that
may be any two or have to be equal. As long as they do alike, they build the same rules, keep
the same behaviours and go through the same references, so that their worlds hold the same after
every step. This is unlike runs in different lineages: handles have the same numbers on both
sides, and nothing has to be known of what was run before.

What is left to show of two parsers is how their parts do, down to descriptions and handles.
-/

import Descent.Proofs.Inert
import Descent.Proofs.Scope
import Descent.Proofs.Shift

namespace Descent

open Filter

/-- Any two levels. -/
def Level.Any (_ _ : Level) : Prop :=
  True

/-- Two worlds that hold the same, but for what is recorded, at levels that stand in a relation. -/
structure World.Beside (levels : Level → Level → Prop) (w w' : World) : Prop where
  threshold : levels w.threshold w'.threshold
  rules_eq : w.rules = w'.rules
  names_eq : w.names = w'.names
  references_eq : w.references = w'.references
  deferred_eq : w.deferred = w'.deferred

namespace World.Beside

variable {levels : Level → Level → Prop} {w w' : World}

theorem behaviour_eq (h : w.Beside levels w') (p : Parser) : w.behaviour p = w'.behaviour p := by
  cases p with
  | reference r => simp only [behaviour, h.references_eq]
  | deferred l => simp only [behaviour, h.deferred_eq]
  | _ => rfl

theorem withDeferred (h : w.Beside levels w') (rule : String) :
    (w.withDeferred rule).Beside levels (w'.withDeferred rule) where
  threshold := h.threshold
  rules_eq := h.rules_eq
  names_eq := h.names_eq
  references_eq := h.references_eq
  deferred_eq := by simp only [World.withDeferred, h.deferred_eq]

theorem markDispatched (h : w.Beside levels w') (r : Nat) :
    (w.markDispatched r).Beside levels (w'.markDispatched r) where
  threshold := h.threshold
  rules_eq := h.rules_eq
  names_eq := h.names_eq
  references_eq := by simp only [World.markDispatched, h.references_eq]
  deferred_eq := h.deferred_eq

theorem keepBehaviour (h : w.Beside levels w') (l : Nat) (b : Behaviour) :
    (w.keepBehaviour l b).Beside levels (w'.keepBehaviour l b) where
  threshold := h.threshold
  rules_eq := h.rules_eq
  names_eq := h.names_eq
  references_eq := h.references_eq
  deferred_eq := by simp only [World.keepBehaviour, h.deferred_eq]

end World.Beside

/-- Runs in worlds that hold the same, at places that are `k` characters apart. -/
def Comparison.beside (levels : Level → Level → Prop) (holds : World → Prop) (k : Int) :
    Comparison where
  related w w' := w.Beside levels w' ∧ holds w
  later _ _ := True
  faults f f' := f' = f.moved k
  later_refl _ := trivial
  later_trans _ _ := trivial

namespace Comparison

variable {levels : Level → Level → Prop} {holds : World → Prop} {k : Int} {w w' v v' : World}

theorem reaches_beside (h : v.Beside levels v') (hv : holds v) :
    (Comparison.beside levels holds k).Reaches w w' v v' :=
  ⟨⟨h, hv⟩, trivial, trivial⟩

theorem overlooks_beside (hquiet : World.Quiet holds) :
    (Comparison.beside levels holds k).Overlooks where
  left events h := reaches_beside ⟨h.1.threshold, h.1.rules_eq, h.1.names_eq, h.1.references_eq,
    h.1.deferred_eq⟩ (hquiet _ events h.2)
  right _ h := reaches_beside ⟨h.1.threshold, h.1.rules_eq, h.1.names_eq, h.1.references_eq,
    h.1.deferred_eq⟩ h.2

/-- A call whose faults report no offset of the input has the same effect on both sides. -/
theorem repeats_beside (hquiet : World.Quiet holds) {α : Type} {call : Call α}
    (hcall : ∀ f, call.result = .error f → f.moved k = f) :
    (Comparison.beside levels holds k).Repeats call := by
  intro w w' hrelated
  have hc : (Comparison.beside levels holds k).Overlooks := overlooks_beside hquiet
  have hleft := hc.left call.events hrelated
  have hreach := hleft.trans (hc.right call.events hleft.related)
  rcases hresult : call.result with f | a
  · exact .of_fault (Run.ofCall_of_error hresult w)
      (.of_forall fun _ => Run.ofCall_of_error hresult w') hreach (hcall f hresult).symm
  · exact .of_ok (Run.ofCall_of_ok hresult w)
      (.of_forall fun _ => Run.ofCall_of_ok hresult w') hreach rfl

theorem notes_beside (hquiet : World.Quiet holds) : (Comparison.beside levels holds 0).Notes where
  noted events h := by
    have hc : (Comparison.beside levels holds 0).Overlooks := overlooks_beside hquiet
    have hleft := hc.left events h
    exact hleft.trans (hc.right events hleft.related)
  same_fault f := f.moved_zero.symm

/-- At equal levels traces are written on both sides or on neither. -/
theorem accompanies_beside (hquiet : World.Quiet holds) :
    (Comparison.beside Eq holds 0).Accompanies where
  toNotes := notes_beside hquiet
  threshold_eq h := h.1.threshold

end Comparison

namespace World

variable {levels : Level → Level → Prop} {w w' : World}

/-- Building sees nothing of what is recorded, so it keeps to every relation in which all parsers
stand to themselves. -/
theorem builds_beside {holds : World → Prop} {twins : Parser → Parser → Prop}
    (hdeferred : ∀ w rule, holds w → holds (w.withDeferred rule)) (hrefl : ∀ p, twins p p) :
    (Comparison.beside levels holds 0).Builds (fun _ _ => twins) where
  later _ _ h := h
  primitive _ := hrefl _
  same_fault f := f.moved_zero.symm
  built _ _ := hrefl _
  known name h := by
    rw [← h.1.names_eq]
    cases lookup? name _ with
    | none => exact .none
    | some p => exact .some (.base (hrefl p))
  newDeferred rule h := by
    refine .of_ok rfl (.of_forall fun _ => rfl)
      (Comparison.reaches_beside (h.1.withDeferred rule) (hdeferred _ rule h.2)) (.base ?_)
    rw [h.1.deferred_eq]
    exact hrefl _

/-- A description is built into the same parser on both sides. -/
theorem Beside.build (h : w.Beside levels w') (d : Description) (bindings : Bindings) :
    (Comparison.beside levels (fun _ => True) 0).Follows (fun _ _ => Eq) (d.build bindings)
      (fun _ => d.build bindings) w w' :=
  (Comparison.Builds.build (builds_beside (fun _ _ _ => trivial) fun _ => rfl) d bindings w w'
    ⟨h, trivial⟩).weaken (fun _ _ hreach => hreach)
    (fun _ _ hfault => hfault) fun _ _ _ _ hp => hp.eq

end World

namespace Parser

/-- Parts of two parsers that lead to other parsers: to such as are built from descriptions of
which the second may stand for the first, or to those of a handle. -/
inductive Exits (same : Bindings → Description → Description → Prop) (P : Parser → Prop) :
    Parser → Parser → Prop
  | built {bindings : Bindings} {d d' : Description} (h : same bindings d d') :
      Exits same P (.built d bindings) (.built d' bindings)
  | handle {p : Parser} (hp : p.IsHandle) (h : P p) : Exits same P p p

end Parser

/-- Runs side by side in worlds that are confined to a fragment. -/
abbrev Comparison.abreast (levels : Level → Level → Prop) (F : Fragment) (scope : Scope)
    (P : Parser → Prop) (k : Int) : Comparison :=
  .beside levels (World.Confined F scope P) k

/-- A description of a fragment is built into the same parser, which is of the class. -/
theorem World.Beside.build_self {levels : Level → Level → Prop} {F : Fragment} {scope : Scope}
    {P : Parser → Prop} {k : Int} {w w' : World} {d : Description} {bindings : Bindings}
    (hP : F.Makes scope P)
    (hfault : ∀ {f v}, d.build bindings w = .error (.fault f) v → f.moved k = f)
    (hd : d.Written F scope) (h : w.Beside levels w') (hw : w.Confined F scope P) :
    (Comparison.abreast levels F scope P k).Follows (fun _ _ p p' => p = p' ∧ P p)
      (d.build bindings) (fun _ => d.build bindings) w w' := by
  have hleaves := hw.build hP hd bindings
  refine (h.build d bindings).transfer (fun p p' v v' hend hreach heq => ?_)
    fun f f' v v' hend hreach hsame => ?_
  · obtain ⟨hp, hv⟩ := hleaves.1 p v hend
    exact ⟨Comparison.reaches_beside hreach.related.1 hv, heq, hp⟩
  · refine ⟨Comparison.reaches_beside hreach.related.1 (hleaves.2 f v hend), ?_⟩
    have hsame : f' = f := hsame.trans f.moved_zero
    exact hsame.trans (hfault hend).symm

/-- What has to be known of parsers and descriptions so that runs side by side do alike: the
parsers that the worlds hold are twins of themselves, what is built from descriptions that may
stand for one another are twins, and twins do alike if this is so for what they lead to. -/
structure Parallel {s s' : Text} (levels : Level → Level → Prop) (F : Fragment) (scope : Scope)
    (P : Parser → Prop) (L : Likeness s s') (k : Int)
    (same : Bindings → Description → Description → Prop) (twins : Parser → Parser → Prop) :
    Prop where
  makes : F.Makes scope P
  same_fault : ∀ {d : Description} {bindings w f v}, d.Written F scope →
    d.build bindings w = .error (.fault f) v → f.moved k = f
  self : ∀ {p}, P p → twins p p
  builds : ∀ {bindings d d' w w'}, same bindings d d' → w.Beside levels w' → w.Confined F scope P →
    (Comparison.abreast levels F scope P k).Follows (fun _ _ => twins) (d.build bindings)
      (fun _ => d'.build bindings) w w'
  acts : ∀ {p p' descend} {descend' : Nat → Parser → Action} {turns w w'}, twins p p' →
    (∀ q q', Parser.Exits same P q q' → (Comparison.abreast levels F scope P k).Acts L
      (q.action (fun _ act => act) descend turns)
      (fun n => q'.action (fun _ act => act) (descend' n) n) w w') →
    (Comparison.abreast levels F scope P k).Acts L
      (p.action (fun _ act => act) descend turns)
      (fun n => p'.action (fun _ act => act) (descend' n) n) w w'

namespace Parallel

variable {s s' : Text} {levels : Level → Level → Prop} {F : Fragment} {scope : Scope}
  {P : Parser → Prop} {L : Likeness s s'} {k : Int}
  {same : Bindings → Description → Description → Prop} {twins : Parser → Parser → Prop}
  {w w' : World} {l n : Nat} {b : Behaviour} {i i' : Int}
  (H : Parallel levels F scope P L k same twins)

include H

/-- Both runs build a handle. -/
theorem buildRule (hl : scope.handle l) (h : w.Beside levels w') (hw : w.Confined F scope P) :
    (Comparison.abreast levels F scope P k).Follows (fun _ _ _ _ => True)
      (Behaviour.buildRule l) (fun _ => Behaviour.buildRule l) w w' := by
  apply Comparison.Follows.get
  rw [← h.deferred_eq]
  cases hhandle : w.deferred[l]? with
  | none => exact .fault ⟨h, hw⟩ rfl
  | some handle =>
      have hrule := (hw.handles l handle hl hhandle).1
      have hnote : (Comparison.abreast levels F scope P k).Follows
          (fun _ _ _ _ => True) (Run.note (.built handle.rule))
          (fun _ => Run.note (.built handle.rule)) w w' :=
        .of_ok rfl (.of_forall fun _ => rfl) (Comparison.reaches_beside
          ⟨h.threshold, h.rules_eq, h.names_eq, h.references_eq, h.deferred_eq⟩
          (World.Confined.quiet w [.built handle.rule] hw)) trivial
      apply hnote.bind
      rintro v v' _ _ ⟨⟨hv, hconfined⟩, -, -⟩ -
      apply Comparison.Follows.get
      rw [← hv.rules_eq]
      cases hfound : World.lookup? handle.rule v.rules with
      | none => exact .fault ⟨hv, hconfined⟩ rfl
      | some d =>
          have hd := hconfined.rules _ d hrule hfound
          apply (hv.build_self H.makes (H.same_fault hd) hd hconfined).bind
          rintro u u' p _ ⟨⟨hu, hkept⟩, -, -⟩ ⟨rfl, hp⟩
          have hbeside := hu.keepBehaviour l (u.behaviour p)
          rw [show u'.keepBehaviour l (u.behaviour p) = u'.keepBehaviour l (u'.behaviour p) by
            rw [hu.behaviour_eq]] at hbeside
          exact .of_ok rfl (.of_forall fun _ => rfl) (Comparison.reaches_beside hbeside
            (hkept.keepBehaviour (hkept.behaviour H.makes hp) l)) trivial

/-- Both runs do what a handle does at present, which leads to twins. -/
theorem perform (hrun : ∀ p p', twins p p' → ∀ v v',
      (Comparison.abreast levels F scope P k).Acts L (p.run n) (fun m => p'.run m) v v')
    (hb : b.Confined scope P) (h : w.Beside levels w') (hw : w.Confined F scope P)
    (hi : L.offsets i i') :
    (Comparison.abreast levels F scope P k).Follows (fun _ _ => L.replies)
      (b.perform (Parser.run n) s i) (fun m => b.perform (Parser.run m) s' i') w w' := by
  have hc : (Comparison.abreast levels F scope P k).Overlooks :=
    Comparison.overlooks_beside World.Confined.quiet
  have hrelated : (Comparison.abreast levels F scope P k).related w w' := ⟨h, hw⟩
  cases hb with
  | run hp => exact hrun _ _ (H.self hp) w w' w w' i i' (.refl hrelated) hi
  | unbound r =>
      have hwarn (t : Text) (j : Int) : ((Behaviour.unbound r).perform (Parser.run n) t j).Inert
          (.error j unboundExpectation) := .bind (.record _ _ _) (.pure _)
      exact hc.inert (hwarn s i) (hwarn s' i') hrelated (L.error unboundExpectation hi)
  | @dispatch r hr =>
      have hmarked := h.markDispatched r
      have henter : (Comparison.abreast levels F scope P k).Follows
          (fun _ _ a a' => a = a' ∧ ∀ p ∈ a, P p) (Run.enterReference r)
          (fun _ => Run.enterReference r) w w' := by
        refine .of_ok rfl (.of_forall fun _ => rfl)
          (Comparison.reaches_beside hmarked (hw.markDispatched r)) ⟨?_, fun p hp => ?_⟩
        · rw [hmarked.references_eq]
        · obtain ⟨c, hcell, htarget⟩ := Option.bind_eq_some_iff.mp hp
          exact (hw.markDispatched r).targets r c p hr hcell htarget
      apply henter.bind
      rintro v v' a _ hreach ⟨rfl, hp⟩
      cases a with
      | none => exact .fault hreach.related rfl
      | some p =>
          exact hrun _ _ (H.self (hp p rfl)) v v' v v' i i' (.refl hreach.related) hi
  | @build l hl =>
      apply (H.buildRule hl h hw).bind
      intro v v' _ _ hreach _
      have hhandle := H.self (H.makes.handle.mpr hl)
      exact hrun _ _ hhandle v v' v v' i i' (.refl hreach.related) hi

/-- Runs of twins do alike. -/
theorem run (n : Nat) (p p' : Parser) (hp : twins p p') (w w' : World) :
    (Comparison.abreast levels F scope P k).Acts L (p.run n) (fun m => p'.run m) w w' := by
  induction n generalizing p p' w w' with
  | zero => exact fun _ _ _ _ _ _ => .unfinished
  | succ n ih =>
      intro v v' i i' hreach hi
      apply Comparison.Follows.of_succ
      refine H.acts hp (fun q q' hexit => ?_) v v' i i' hreach hi
      cases hexit with
      | built hsame =>
          intro u u' j j' hru hj
          obtain ⟨hu, hconfined⟩ := hru.related
          apply (H.builds hsame hu hconfined).bind
          intro t t' q q' hrt hq
          exact ih q q' hq t t' t t' j j' (.refl hrt.related) hj
      | handle hhandle hP =>
          intro u u' j j' hru hj
          obtain ⟨hu, hconfined⟩ := hru.related
          have hperform := H.perform ih (hconfined.behaviour H.makes hP) hu hconfined hj
          refine hperform.congr (Parser.action_of_isHandle hhandle _ _ _ _ _)
            (.of_forall fun m => (Parser.action_of_isHandle hhandle _ _ _ _ _).trans ?_)
          rw [hu.behaviour_eq]
          rfl

/-- Calls of descriptions that may stand for one another have replies that are alike, or the same
fault but for offsets. -/
theorem call {d d' : Description} (hd : same [] d d') (h : w.Beside levels w')
    (hw : w.Confined F scope P) (hi : L.offsets i i') (n : Nat) :
    (Comparison.abreast levels F scope P k).Follows (fun _ _ => Answer.Replies L.replies)
      (Step.perform n (.call d s i)) (fun m => Step.perform m (.call d' s' i')) w w' := by
  apply (H.builds hd h hw).bind
  intro v v' p p' hreach hp
  apply (H.run n p p' hp v v' v v' i i' (.refl hreach.related) hi).bind
  intro u u' r r' hru hr
  exact .pure hru.related (.reply hr)

end Parallel

/-- One parser run at the same place in worlds that hold the same, at one level. -/
theorem Parallel.identity (s : Text) :
    Parallel Eq .all .all (fun _ => True) (.same s) 0 (fun _ => Eq) Eq where
  makes := Fragment.makes_all
  same_fault _ _ := Fault.moved_zero _
  self _ := rfl
  builds := by
    rintro bindings d _ w w' rfl hbeside -
    exact (hbeside.build d bindings).weaken
      (fun _ _ hreach => Comparison.reaches_beside hreach.related.1 (.all _)) (fun _ _ h => h)
      fun _ _ _ _ h => h
  acts := by
    rintro p _ descend descend' turns w w' rfl hexits
    have hc : (Comparison.abreast Eq .all .all (fun _ => True) 0).Accompanies :=
      Comparison.accompanies_beside World.Confined.quiet
    refine Comparison.acts_action hc (fun q q' hout => ?_) p.alike_self
    cases hout with
    | primitive h => exact Comparison.acts_primitive hc (.same s) h _ _ _
    | built d bindings => exact hexits _ _ (.built rfl)
    | handle h => exact hexits _ _ (.handle h trivial)

/-- How something ends at a place that lies `k` characters further on. -/
def Halt.moved (k : Int) : Halt → Halt
  | .fault f => .fault (f.moved k)
  | .unfinished => .unfinished

@[simp] theorem Halt.moved_zero (halt : Halt) : halt.moved 0 = halt := by
  cases halt <;> simp [moved]

namespace Session

variable {α : Type} {levels : Level → Level → Prop} {w w' : World}

/-- What runs side by side come to is reported alike, if the first one ends. -/
theorem eventually_result_eq {holds : World → Prop} {k : Int} {x : Run α} {y : Nat → Run α}
    {g : α → α}
    (h : (Comparison.beside levels holds k).Follows (fun _ _ a b => b = g a) x y w.cleared
      w'.cleared)
    (hended : (observe w x).1.Ended) :
    ∀ᶠ n in atTop, (observe w' (y n)).1.result =
      ((observe w x).1.result.mapError (Halt.moved k)).map g := by
  rcases h with ⟨u, hu⟩ | ⟨result, hmatch, hresult⟩
  · rw [observe_of_error hu] at hended
    exact hended.elim
  · generalize hx : x w.cleared = first at hmatch
    cases hmatch with
    | ok _ hanswer =>
        filter_upwards [hresult] with n hn
        rw [observe_of_ok hx, observe_of_ok hn, hanswer]
        rfl
    | fault _ hfault =>
        filter_upwards [hresult] with n hn
        rw [observe_of_error hx, observe_of_error hn, hfault]
        rfl

/-- A report of which the result is that of an ended one, but for offsets, has ended. -/
theorem ended_of_result_eq {k : Int} {g : α → α} {r r' : Report α} (h : r.Ended)
    (hresult : r'.result = (r.result.mapError (Halt.moved k)).map g) : r'.Ended := by
  obtain ⟨result, events⟩ := r
  obtain ⟨result', events'⟩ := r'
  cases hresult
  cases result with
  | ok a => exact trivial
  | error halt =>
      cases halt with
      | fault f => exact trivial
      | unfinished => exact h.elim

/-- Let two families of steps do alike side by side, in both directions, and let the second one
do like itself. Then one has an end if and only if the other one does, and all ends are
the same but for offsets. -/
theorem results_correspond {holds holds' holds'' : World → Prop} {k k' : Int}
    {x y : Nat → Run α} {g g' : α → α}
    (hforth : ∀ n, (Comparison.beside levels holds k).Follows (fun _ _ a b => b = g a) (x n) y
      w.cleared w'.cleared)
    (hback : ∀ n, (Comparison.beside levels holds' k').Follows (fun _ _ a b => b = g' a) (y n) x
      w'.cleared w.cleared)
    (hself : ∀ n, (Comparison.beside levels holds'' 0).Follows (fun _ _ a b => b = id a) (y n) y
      w'.cleared w'.cleared) :
    ((∃ n, (observe w (x n)).1.Ended) ↔ ∃ n, (observe w' (y n)).1.Ended) ∧
      ∀ n m, (observe w (x n)).1.Ended → (observe w' (y m)).1.Ended →
        (observe w' (y m)).1.result =
          ((observe w (x n)).1.result.mapError (Halt.moved k)).map g := by
  have hends : ∀ m, (observe w' (y m)).1.Ended → ∃ n, (observe w (x n)).1.Ended := by
    intro m hm
    obtain ⟨n, hn⟩ := (eventually_result_eq (hback m) hm).exists
    exact ⟨n, ended_of_result_eq hm hn⟩
  have hsteady : ∀ m, (observe w' (y m)).1.Ended → ∀ᶠ n in atTop,
      (observe w' (y n)).1.result = (observe w' (y m)).1.result := by
    intro m hm
    refine (eventually_result_eq (hself m) hm).mono fun n hn => hn.trans ?_
    cases (observe w' (y m)).1.result with
    | ok a => rfl
    | error halt => simp [Except.mapError, Except.map]
  obtain ⟨hiff, hall⟩ := Report.concur_of_eventually
    (x := fun n => (observe w (x n)).1) (y := fun n => (observe w' (y n)).1)
    (P := fun r r' => r.Ended ∧ r'.result = (r.result.mapError (Halt.moved k)).map g)
    (fun h => ended_of_result_eq h.1 h.2) (fun h heq => ⟨h.1, heq.trans h.2⟩)
    (fun n hn => (eventually_result_eq (hforth n) hn).mono fun _ h => ⟨hn, h⟩) hends hsteady
  exact ⟨hiff, fun n m hn hm => (hall n m hn hm).2⟩

/-- A call that ends within some budget ends in the same way within every large one. -/
theorem eventually_steady {d : Description} {s : Text} {i : Int} {n : Nat}
    (hended : (observe w (Step.perform n (.call d s i))).1.Ended) :
    ∀ᶠ m in atTop, (observe w (Step.perform m (.call d s i))).1.result =
      (observe w (Step.perform n (.call d s i))).1.result := by
  have hcall := (Parallel.identity s).call (w := w.cleared) (d := d) (i := i) rfl
    ⟨rfl, rfl, rfl, rfl, rfl⟩ (.all _) rfl n
  have hsame := hcall.weaken (fun _ _ h => h) (fun _ _ h => h)
    fun _ _ a a' (ha : Answer.Replies Eq a a') => show a = a' by cases ha with | reply h => rw [h]
  refine (eventually_matches (fun f f' hf => ?_) hsame hended).mono fun _ h => h.result_eq.symm
  exact (hf.trans f.moved_zero).symm

end Session

end Descent
