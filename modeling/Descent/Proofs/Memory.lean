/-
# What runs keep in mind

Runs leave traces in the world: a deferred rule keeps what was built for it, and a
reference keeps that it was gone through. None of this changes what later runs come
to. Two worlds of one lineage accord if they differ in nothing else than what was
kept and when it was built; runs of parsers that are alike then take the same
course, although one of them may have to build what the other finds built.
-/

import Descent.Proofs.Lineage

namespace Descent

open Filter

/-- Whether an event is the building of a rule. -/
def Event.isBuilt : Event → Bool
  | .built _ => true
  | _ => false

namespace World

/-- The events so far, the latest first, without the building of rules. -/
def remarks (w : World) : List Event :=
  w.journal.filter (!·.isBuilt)

/-- Two worlds of one lineage that differ in nothing but what was kept. -/
structure Accords (o w w' : World) : Prop where
  left : o.Descends w
  right : o.Descends w'
  remarks : w.remarks = w'.remarks

/-- A step that changes nothing but what is kept. -/
structure Keeps (o w v : World) : Prop where
  descends : o.Descends v
  later : w.Later v
  remarks : v.remarks = w.remarks

variable {o w w' v v' : World} {p : Parser} {l : Nat} {rule : String} {d : Description}
  {b : Behaviour}

theorem Accords.step_left (h : o.Accords w w') (hv : o.Keeps w v) : o.Accords v w' :=
  ⟨hv.descends, h.right, hv.remarks.trans h.remarks⟩

theorem Accords.step_right (h : o.Accords w w') (hv : o.Keeps w' v) : o.Accords w v :=
  ⟨h.left, hv.descends, h.remarks.trans hv.remarks.symm⟩

theorem Keeps.trans {u : World} (h : o.Keeps w v) (h' : o.Keeps v u) : o.Keeps w u :=
  ⟨h'.descends, h.later.trans h'.later, h'.remarks.trans h.remarks⟩

/-- Going through a reference leaves what it leads to. -/
theorem referent_markDispatched (w : World) (r q : Nat) :
    (w.markDispatched r).referent q = w.referent q := by
  simp only [referent, World.markDispatched, Array.getElem?_modify]
  split
  · cases w.references[q]? <;> rfl
  · rfl

namespace Descends

/-- The journal of a world does not count, nor whether references were gone through. -/
theorem congr (h : o.Descends w) (hthreshold : v.threshold = w.threshold)
    (hnames : v.names = w.names) (hrules : v.rules = w.rules)
    (hreferents : ∀ r, v.referent r = w.referent r) (hdeferred : v.deferred = w.deferred) :
    o.Descends v := by
  have hlater : w.Later v := by
    intro l rule hl
    unfold ruleOf
    rw [hdeferred]
    exact hl
  refine ⟨⟨hnames.trans h.kin.names, h.kin.later.trans hlater⟩, hthreshold.trans h.threshold,
    hrules.trans h.rules, fun r => (hreferents r).trans (h.referents r), fun l handle hl => ?_⟩
  rw [hdeferred] at hl
  exact (h.shown l handle hl).later hlater

theorem noted (h : o.Descends w) (events : List Event) : o.Descends (w.noted events) :=
  h.congr rfl rfl rfl (fun _ => rfl) rfl

/-- New handles keep nothing yet. -/
theorem grows (h : o.Descends w) (hv : w.Grows v) : o.Keeps w v := by
  have hrest := hv.rest
  refine ⟨⟨h.kin.grows hv, ?_, ?_, fun r => ?_, fun l handle hl => ?_⟩, hv.later, ?_⟩
  · rw [hrest]
    exact h.threshold
  · rw [hrest]
    exact h.rules
  · rw [hrest]
    exact h.referents r
  · rcases hv.fresh l handle hl with hw | hbuild
    · exact (h.shown l handle hw).later hv.later
    · have hrule : v.ruleOf l = some handle.rule := by simp [ruleOf, hl]
      rw [hbuild]
      exact .unbuilt hrule hrule
  · rw [hrest]
    rfl

theorem notedBuilt (h : o.Descends w) (rule : String) : o.Keeps w (w.noted [.built rule]) :=
  ⟨h.noted _, fun _ _ hl => hl, rfl⟩

theorem markDispatched (h : o.Descends w) (r : Nat) : o.Keeps w (w.markDispatched r) :=
  ⟨h.congr rfl rfl rfl (w.referent_markDispatched r) rfl, fun _ _ hl => hl, rfl⟩

theorem ruleOf_keepBehaviour (w : World) (l k : Nat) (b : Behaviour) :
    (w.keepBehaviour l b).ruleOf k = w.ruleOf k := by
  simp only [ruleOf, World.keepBehaviour, Array.getElem?_modify]
  split
  · cases w.deferred[k]? <;> rfl
  · rfl

/-- A handle may keep any behaviour that it shows. -/
theorem keepBehaviour (h : o.Descends w) (hb : Shows o w (.deferred l) b) :
    o.Keeps w (w.keepBehaviour l b) := by
  have hlater : w.Later (w.keepBehaviour l b) := by
    intro k rule hk
    rw [ruleOf_keepBehaviour]
    exact hk
  refine ⟨⟨⟨h.kin.names, h.kin.later.trans hlater⟩, h.threshold, h.rules, h.referents, ?_⟩,
    hlater, rfl⟩
  intro k handle hk
  simp only [World.keepBehaviour, Array.getElem?_modify] at hk
  split at hk
  · next heq =>
    subst heq
    obtain ⟨handle', -, rfl⟩ := Option.map_eq_some_iff.mp hk
    exact hb.later hlater
  · exact (h.shown k handle hk).later hlater

end Descends

/-- A handle does what it was given to do. -/
theorem behaviour_keepBehaviour_self (hl : w.ruleOf l = some rule) (b : Behaviour) :
    (w.keepBehaviour l b).behaviour (.deferred l) = b := by
  obtain ⟨handle, hhandle, -⟩ := Option.map_eq_some_iff.mp hl
  simp [keepBehaviour, behaviour, Array.getElem?_modify, hhandle]

/-! Building a rule, from what building its description comes to. -/

theorem buildRule_of_missing (hl : w.ruleOf l = some rule) (hrule : lookup? rule w.rules = none) :
    Behaviour.buildRule l w =
      .error (.fault (.unknownName rule)) (w.noted [.built rule]) := by
  obtain ⟨handle, hhandle, rfl⟩ := Option.map_eq_some_iff.mp hl
  have hnote : Run.note (.built handle.rule) w = .ok () (w.noted [.built handle.rule]) := rfl
  have hrules : lookup? handle.rule (w.noted [.built handle.rule]).rules = none := hrule
  unfold Behaviour.buildRule
  rw [Run.get_bind, hhandle]
  dsimp only
  rw [Run.bind_of_ok hnote, Run.get_bind, hrules]
  rfl

theorem buildRule_of_found (hl : w.ruleOf l = some rule) (hrule : lookup? rule w.rules = some d) :
    Behaviour.buildRule l w =
      (do
        let target ← d.build []
        modify fun v => v.keepBehaviour l (v.behaviour target) : Run Unit)
        (w.noted [.built rule]) := by
  obtain ⟨handle, hhandle, rfl⟩ := Option.map_eq_some_iff.mp hl
  have hnote : Run.note (.built handle.rule) w = .ok () (w.noted [.built handle.rule]) := rfl
  have hrules : lookup? handle.rule (w.noted [.built handle.rule]).rules = some d := hrule
  unfold Behaviour.buildRule
  rw [Run.get_bind, hhandle]
  dsimp only
  rw [Run.bind_of_ok hnote, Run.get_bind, hrules]

theorem buildRule_of_error {halt : Halt} (hl : w.ruleOf l = some rule)
    (hrule : lookup? rule w.rules = some d)
    (hbuild : d.build [] (w.noted [.built rule]) = .error halt v) :
    Behaviour.buildRule l w = .error halt v := by
  rw [buildRule_of_found hl hrule]
  exact Run.bind_of_error hbuild

theorem buildRule_of_ok (hl : w.ruleOf l = some rule) (hrule : lookup? rule w.rules = some d)
    (hbuild : d.build [] (w.noted [.built rule]) = .ok p v) :
    Behaviour.buildRule l w = .ok () (v.keepBehaviour l (v.behaviour p)) := by
  rw [buildRule_of_found hl hrule]
  exact Run.bind_of_ok hbuild

/-- Once a rule has been built, its handle shows what was built, and nothing else
has changed. -/
theorem Descends.buildRule (ho : o.Unrun) (h : o.Descends w) (hl : w.ruleOf l = some rule)
    (hrule : lookup? rule o.rules = some d)
    (hbuild : d.build [] (w.noted [.built rule]) = .ok p v) :
    ∃ u, Behaviour.buildRule l w = .ok () u ∧ o.Keeps w u ∧ o.Built u rule p ∧
      Shows o u p (u.behaviour (.deferred l)) := by
  have hnoted := h.notedBuilt rule
  have hkin := hnoted.descends.kin
  obtain ⟨p', v', -, hgrows, -, halike⟩ := exists_build_eq_ok ho hkin hkin hbuild
  have hgrown := hnoted.descends.grows hgrows
  have hbuilt : o.Built v rule p := ⟨d, _, v, hrule, hkin, hbuild, .refl v⟩
  have hshows : Shows o v p (v.behaviour p) :=
    hgrown.descends.shows_behaviour (alive_of_alike halike).1
  have hlv : v.ruleOf l = some rule := (hnoted.trans hgrown).later l rule hl
  have hkept := hgrown.descends.keepBehaviour (.built hlv hbuilt hshows)
  have hrules : lookup? rule w.rules = some d := by
    rw [h.rules]
    exact hrule
  refine ⟨_, buildRule_of_ok hl hrules hbuild, hnoted.trans (hgrown.trans hkept),
    hbuilt.later hkept.later, ?_⟩
  rw [behaviour_keepBehaviour_self hlv]
  exact hshows.later hkept.later

end World

/-- Runs in two worlds of one lineage. -/
def Comparison.lineage (o : World) : Comparison where
  related := o.Accords
  later := World.Later
  faults f f' := f = f'
  later_refl := .refl
  later_trans := .trans

namespace World

variable {o w w' v v' : World} {p p' : Parser} {l l' : Nat} {rule : String} {d : Description}
  {b b' : Behaviour} {s : Text} {i : Int}

theorem Accords.noted (h : o.Accords w w') (events : List Event) :
    o.Accords (w.noted events) (w'.noted events) := by
  refine ⟨h.left.noted events, h.right.noted events, ?_⟩
  have hremarks : w.journal.filter (!·.isBuilt) = w'.journal.filter (!·.isBuilt) := h.remarks
  simp only [World.remarks, World.noted, List.filter_append, hremarks]

theorem accompanies_lineage (o : World) : (Comparison.lineage o).Accompanies where
  threshold_eq h := h.left.threshold.trans h.right.threshold.symm
  noted events h := ⟨h.noted events, .refl _, .refl _⟩
  same_fault _ := rfl

theorem builds_lineage (ho : o.Unrun) : (Comparison.lineage o).Builds Counterparts where
  later hv hv' hbase := hbase.later hv hv'
  primitive := .primitive
  built := .built
  same_fault _ := rfl
  known name h := by
    rw [h.left.kin.names, h.right.kin.names]
    cases hname : lookup? name o.names with
    | none => exact .none
    | some p => exact .some (alike_later (ho.known name p hname) h.left.kin.later h.right.kin.later)
  newDeferred {v v'} rule h := by
    have hv := h.left.grows ((Grows.refl v).withDeferred rule)
    have hv' := h.right.grows ((Grows.refl v').withDeferred rule)
    apply Comparison.Follows.of_ok (newDeferred_eq v rule)
      (.of_forall fun _ => newDeferred_eq v' rule)
    · exact ⟨(h.step_left hv).step_right hv', hv.later, hv'.later⟩
    · exact .base (.deferred (ruleOf_withDeferred v rule) (ruleOf_withDeferred v' rule))

/-- Handles of one rule are built alike in both worlds. -/
theorem follows_buildRule (ho : o.Unrun) (h : o.Accords w w') (hl : w.ruleOf l = some rule)
    (hl' : w'.ruleOf l' = some rule) :
    (Comparison.lineage o).Follows (fun _ _ _ _ => True) (Behaviour.buildRule l)
      (fun _ => Behaviour.buildRule l') w w' := by
  have hnoted := h.left.notedBuilt rule
  have hnoted' := h.right.notedBuilt rule
  have hrules : lookup? rule w.rules = lookup? rule o.rules := by rw [h.left.rules]
  have hrules' : lookup? rule w'.rules = lookup? rule o.rules := by rw [h.right.rules]
  cases hrule : lookup? rule o.rules with
  | none =>
      have hx := buildRule_of_missing hl (hrules.trans hrule)
      have hy := buildRule_of_missing hl' (hrules'.trans hrule)
      exact .of_fault hx (.of_forall fun _ => hy)
        ⟨(h.step_left hnoted).step_right hnoted', hnoted.later, hnoted'.later⟩ rfl
  | some d =>
      have hkin := hnoted.descends.kin
      have hkin' := hnoted'.descends.kin
      rcases hbuild : d.build [] (w.noted [.built rule]) with ⟨p, v⟩ | ⟨f | _, v⟩
      · obtain ⟨p', v', hbuild', -⟩ := exists_build_eq_ok ho hkin hkin' hbuild
        obtain ⟨u, hx, hu, -⟩ := h.left.buildRule ho hl hrule hbuild
        obtain ⟨u', hy, hu', -⟩ := h.right.buildRule ho hl' hrule hbuild'
        exact .of_ok hx (.of_forall fun _ => hy)
          ⟨(h.step_left hu).step_right hu', hu.later, hu'.later⟩ trivial
      · obtain ⟨v', hbuild', hgrows, hgrows'⟩ := exists_build_eq_fault ho hkin hkin' hbuild
        have hv := hnoted.trans (hnoted.descends.grows hgrows)
        have hv' := hnoted'.trans (hnoted'.descends.grows hgrows')
        have hx := buildRule_of_error hl (hrules.trans hrule) hbuild
        have hy := buildRule_of_error hl' (hrules'.trans hrule) hbuild'
        exact .of_fault hx (.of_forall fun _ => hy)
          ⟨(h.step_left hv).step_right hv', hv.later, hv'.later⟩ rfl
      · exact .inl ⟨v, buildRule_of_error hl (hrules.trans hrule) hbuild⟩

/-- A rule that was built once can be built again, in any world of the lineage. -/
theorem Built.buildRule (ho : o.Unrun) (hp : o.Built w' rule p') (h : o.Descends w)
    (hl : w.ruleOf l = some rule) :
    ∃ p u, Behaviour.buildRule l w = .ok () u ∧ o.Keeps w u ∧ o.Built u rule p ∧
      Shows o u p (u.behaviour (.deferred l)) := by
  obtain ⟨d, u, u', hrule, hkin, hbuild, -⟩ := hp
  have hnoted := h.notedBuilt rule
  obtain ⟨p, v, hbuilt, -⟩ := exists_build_eq_ok ho hkin hnoted.descends.kin hbuild
  exact ⟨p, h.buildRule ho hl hrule hbuilt⟩

/-- Going through a reference leads to its target at the start. -/
theorem follows_enterReference (ho : o.Unrun) (h : o.Accords w w') (r : Nat) :
    (Comparison.lineage o).Follows (fun v v' => Option.Rel (Parser.Alike (Counterparts v v')))
      (Run.enterReference r) (fun _ => Run.enterReference r) w w' := by
  have hv := h.left.markDispatched r
  have hv' := h.right.markDispatched r
  have enter (u : World) : Run.enterReference r u =
      .ok (((u.markDispatched r).references[r]?).bind (·.target)) (u.markDispatched r) := rfl
  apply Comparison.Follows.of_ok (enter w) (.of_forall fun _ => enter w')
  · exact ⟨(h.step_left hv).step_right hv', hv.later, hv'.later⟩
  · rw [target_eq, target_eq, hv.descends.referents r, hv'.descends.referents r, ← target_eq]
    cases hr : o.references[r]? with
    | none => exact .none
    | some reference =>
        cases htarget : reference.target with
        | none =>
            simp only [Option.bind_some, htarget]
            exact .none
        | some q =>
            simp only [Option.bind_some, htarget]
            exact .some (alike_later (ho.target r reference q hr htarget) hv.descends.kin.later
              hv'.descends.kin.later)

/-- Runs of parsers that are alike take the same course, for one budget of the first. -/
def RunAlike (o : World) (n : Nat) : Prop :=
  ∀ (w w' : World) (p p' : Parser) (s : Text), p.Alike (Counterparts w w') p' →
    (Comparison.lineage o).Acts (.same s) (p.run n) (fun m => p'.run m) w w'

/-- Whatever behaviours two parsers that are alike show, these take the same course,
for one budget of the first. -/
def ShowAlike (o : World) (n : Nat) : Prop :=
  ∀ (w w' : World) (p p' : Parser) (b b' : Behaviour) (s : Text) (i : Int), o.Accords w w' →
    p.Alike (Counterparts w w') p' → Shows o w p b → Shows o w' p' b' →
    (Comparison.lineage o).Follows (fun _ _ => (Likeness.same s).replies)
      (b.perform (Parser.run n) s i) (fun m => b'.perform (Parser.run m) s i) w w'

/-- A reference does in all worlds of a lineage what it did at the start. -/
theorem follows_reference (ho : o.Unrun) {n : Nat} (hrun : RunAlike o n) (h : o.Accords w w')
    (r : Nat) (s : Text) (i : Int) :
    (Comparison.lineage o).Follows (fun _ _ => (Likeness.same s).replies)
      ((o.behaviour (.reference r)).perform (Parser.run n) s i)
      (fun m => (o.behaviour (.reference r)).perform (Parser.run m) s i) w w' := by
  rcases ho.behaviour_eq r with hunbound | hdispatch
  · rw [hunbound]
    have hplain : ((Behaviour.unbound r).perform (Parser.run n) s i).Plain :=
      .bind (.record _ _ _) fun _ => .pure _
    exact (accompanies_lineage o).plain hplain h
  · rw [hdispatch]
    apply (follows_enterReference ho h r).bind
    intro v v' target target' hreach htarget
    cases htarget with
    | none => exact .fault hreach.related rfl
    | some htarget => exact hrun v v' _ _ s htarget v v' i i (.refl hreach.related) rfl

/-- Running a handle with some budget left does what the handle does at present. -/
theorem run_deferred (w : World) (l n : Nat) (s : Text) (i : Int) :
    (Parser.deferred l).run (n + 1) s i w =
      (w.behaviour (.deferred l)).perform (Parser.run n) s i w :=
  rfl

/-- Behaviours of handles that stand for the same, from the runs that they lead to:
runs of the same budget, and behaviours of a smaller one. -/
theorem showAlike_of (ho : o.Unrun) {n : Nat} (hrun : RunAlike o n)
    (hshow : ∀ m, n = m + 1 → ShowAlike o m) : ShowAlike o n := by
  intro w w' p p' b b' s i h halike hb hb'
  -- The first behaviour is traced back to what it was built from; the second world
  -- and handle vary, since the second run may have to build what the first has kept.
  induction hb generalizing w' p' b' with
  | plain hp =>
      rcases alike_cases halike with ⟨-, hp'⟩ | ⟨r, rfl, -⟩ | ⟨l, l', rule, rfl, -⟩
      · cases hb' with
        | plain _ => exact hrun w w' _ p' s halike w w' i i (.refl h) rfl
        | reference r => exact absurd trivial hp'
        | unbuilt _ _ => exact absurd trivial hp'
        | built _ _ _ => exact absurd trivial hp'
      · exact absurd trivial hp
      · exact absurd trivial hp
  | reference r =>
      rcases alike_cases halike with ⟨hp, -⟩ | ⟨q, hq, rfl⟩ | ⟨l, l', rule, hq, -⟩
      · exact absurd trivial hp
      · cases hq
        cases hb' with
        | plain hq => exact absurd trivial hq
        | reference _ => exact follows_reference ho hrun h r s i
      · cases hq
  | @unbuilt k l rule hk hl =>
      obtain ⟨k', rfl, hk'⟩ := exists_deferred_of_alike halike hk
      cases hb' with
      | plain hp => exact absurd trivial hp
      | @unbuilt _ l' rule' hk'' hl' =>
          -- Both runs build the rule.
          cases hk'.symm.trans hk''
          apply (follows_buildRule ho h hl hl').bind
          intro v v' _ _ hreach _
          have hhandles : (Parser.deferred l).Alike (Counterparts v v') (.deferred l') :=
            .base (.deferred (hreach.left _ _ hl) (hreach.right _ _ hl'))
          exact hrun v v' _ _ s hhandles v v' i i (.refl hreach.related) rfl
      | @built _ rule' q' _ hk'' hq' hb' =>
          -- The first run builds what the second finds built.
          cases hk'.symm.trans hk''
          obtain ⟨q, u, hbuild, hu, -⟩ := hq'.buildRule ho h.left hl
          apply Comparison.Follows.step_left hbuild hu.later
          cases n with
          | zero => exact .unfinished
          | succ m =>
              have hhandles : (Parser.deferred l).Alike (Counterparts u w') (.deferred k') :=
                .base (.deferred (hu.later _ _ hl) hk')
              exact (hshow m rfl u w' _ _ _ _ s i (h.step_left hu) hhandles
                (hu.descends.shows_behaviour (alive_of_alike hhandles).1)
                (.built hk' hq' hb')).congr (run_deferred u l m s i) (.of_forall fun _ => rfl)
  | @built k rule q b hk hq hb ih =>
      obtain ⟨k', rfl, hk'⟩ := exists_deferred_of_alike halike hk
      cases hb' with
      | plain hp => exact absurd trivial hp
      | @unbuilt _ l' rule' hk'' hl' =>
          -- The second run builds what the first finds built.
          cases hk'.symm.trans hk''
          obtain ⟨q', u', hbuild, hu', hq', hshows⟩ := hq.buildRule ho h.right hl'
          apply Comparison.Follows.step_right hbuild hu'.later
          apply Comparison.Follows.of_succ
          exact (ih u' q' _ (h.step_right hu') (hq.alike ho hq') hshows).congr rfl
            (.of_forall fun m => run_deferred u' l' m s i)
      | @built _ rule' q' _ hk'' hq' hb' =>
          -- Both runs find it built.
          cases hk'.symm.trans hk''
          exact ih w' q' b' h (hq.alike ho hq') hb'

/-- Runs with one more step of budget, from those that handles and descriptions lead
to. -/
theorem runAlike_succ (ho : o.Unrun) {n : Nat} (hrun : RunAlike o n) (hshow : ShowAlike o n) :
    RunAlike o (n + 1) := by
  intro w w' p p' s halike v v' i i' hreach hi
  apply Comparison.Follows.of_succ
  refine Comparison.acts_action (accompanies_lineage o) (fun q q' hbase => ?_) halike
    v v' i i' hreach hi
  have follow (hq : q.Alike (Counterparts w w') q') :
      (Comparison.lineage o).Acts (.same s) (Parser.follow (Parser.run n) q)
        (fun m => Parser.follow (Parser.run m) q') w w' := by
    intro u u' j j' hru hj
    cases hj
    have hqu := alike_later hq hru.left hru.right
    exact (hshow u u' q q' _ _ s j hru.related hqu
      (hru.related.left.shows_behaviour (alive_of_alike hqu).1)
      (hru.related.right.shows_behaviour (alive_of_alike hqu).2)).congr rfl
        (.of_forall fun _ => rfl)
  cases hbase with
  | primitive hq => exact Comparison.acts_primitive (accompanies_lineage o) (.same s) hq _ _ _
  | built d bindings =>
      intro u u' j j' hru hj
      cases hj
      apply ((builds_lineage ho).build d bindings _ _ hru.related).bind
      intro t t' q q' hrt hq
      exact hrun t t' q q' s hq t t' j j (.refl hrt.related) rfl
  | reference r => exact follow (.base (.reference r))
  | deferred hl hl' => exact follow (.base (.deferred hl hl'))

/-- Runs of parsers that are alike take the same course in worlds of one lineage. -/
theorem runAlike (ho : o.Unrun) (n : Nat) : RunAlike o n := by
  have hboth : RunAlike o n ∧ ShowAlike o n := by
    induction n with
    | zero =>
        have hrun : RunAlike o 0 := fun _ _ _ _ _ _ _ _ _ _ _ _ => .unfinished
        exact ⟨hrun, showAlike_of ho hrun fun m hm => by cases hm⟩
    | succ n ih =>
        have hrun := runAlike_succ ho ih.1 ih.2
        refine ⟨hrun, showAlike_of ho hrun fun m hm => ?_⟩
        cases hm
        exact ih.2
  exact hboth.1

end World

end Descent
