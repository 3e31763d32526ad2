/-
# Grammars of a fragment

A fragment says in which ways descriptions may be written. What a description of a fragment
leads to is told by a scope: the rules and names it may mention, and the references and
handles that its parsers may contain. A world is confined if everything in the scope is
again of the fragment and leads to nothing outside of the scope. What else the world holds
does not matter.

A description of a fragment that is built in a confined world gives a parser of the class
that belongs to the fragment, and leaves the world confined. So does going through a
reference of the scope, and building one of its handles.
-/

import Descent.Proofs.History
import Descent.Proofs.Reference

namespace Descent

/-- What the descriptions and parsers of a grammar may lead to. -/
structure Scope where
  rule : String → Prop
  name : String → Prop
  reference : Nat → Prop
  handle : Nat → Prop

/-- The scope that everything belongs to. -/
def Scope.all : Scope :=
  ⟨fun _ => True, fun _ => True, fun _ => True, fun _ => True⟩

/-- The ways in which descriptions may be written. -/
structure Fragment where
  atom : Atom → Prop
  modifier : Modifier → Prop
  joiner : Joiner → Prop
  /-- Whether parsers may stand between others. -/
  between : Prop
  /-- Whether the values of sequences may be given to functions. -/
  seqMap : Prop
  /-- Whether parsers may be built from the values of others. -/
  bind : Prop

/-- The fragment that every description belongs to. -/
def Fragment.all : Fragment :=
  ⟨fun _ => True, fun _ => True, fun _ => True, True, True, True⟩

/-- The description is written in the ways of a fragment and mentions nothing outside of a
scope. -/
def Description.Written (F : Fragment) (scope : Scope) : Description → Prop
  | .atom a => F.atom a
  | .wrap m p => F.modifier m ∧ p.Written F scope
  | .join j p q => F.joiner j ∧ p.Written F scope ∧ q.Written F scope
  | .between opening closing p =>
      F.between ∧ opening.Written F scope ∧ closing.Written F scope ∧ p.Written F scope
  | .seq _ ps => ∀ k, (ps k).Written F scope
  | .alt _ ps => ∀ k, (ps k).Written F scope
  | .seqMap _ ps _ => F.seqMap ∧ ∀ k, (ps k).Written F scope
  | .bind p _ q => F.bind ∧ p.Written F scope ∧ q.Written F scope
  | .choose _ _ p q => p.Written F scope ∧ q.Written F scope
  | .known name => scope.name name
  | .deferred rule _ => scope.rule rule

/-- A class of parsers that belongs to a fragment: what descriptions of the fragment build
of parsers of the class is of the class, and the handles of the class are in scope. -/
structure Fragment.Makes (F : Fragment) (scope : Scope) (P : Parser → Prop) : Prop where
  atom : ∀ {bindings a p}, F.atom a → a.build bindings = .ok p → P p
  modifier : ∀ {bindings m p q}, F.modifier m → P p → m.build bindings p = .ok q → P q
  joiner : ∀ {j p q}, F.joiner j → P p → P q → P (j.build p q)
  between : ∀ {p q r}, F.between → P p → P q → P r → P (.between p q r)
  sequence : ∀ {ps : List Parser}, (∀ p ∈ ps, P p) → P (.sequence ps)
  choice : ∀ {ps : List Parser}, (∀ p ∈ ps, P p) → P (.choice ps)
  seqMap : ∀ {ps : List Parser} (f : Callback), F.seqMap → (∀ p ∈ ps, P p) →
    P (.seqMap ps f.apply)
  bind : ∀ {p d name bindings}, F.bind → P p → d.Written F scope →
    P (p.bind fun v => .built d ((name, v) :: bindings))
  label : ∀ {p} description, P p → P (p.label description)
  reference : ∀ {r}, P (.reference r) → scope.reference r
  handle : ∀ {l}, P (.deferred l) ↔ scope.handle l

theorem Fragment.makes_all : Fragment.all.Makes .all (fun _ => True) where
  atom _ _ := trivial
  modifier _ _ _ := trivial
  joiner _ _ _ := trivial
  between _ _ _ _ := trivial
  sequence _ := trivial
  choice _ := trivial
  seqMap _ _ _ := trivial
  bind _ _ _ := trivial
  label _ _ := trivial
  reference _ := trivial
  handle := Iff.rfl

theorem Description.written_all (d : Description) : d.Written .all .all := by
  induction d with
  | atom a => exact trivial
  | wrap m p ih => exact ⟨trivial, ih⟩
  | join j p q ihp ihq => exact ⟨trivial, ihp, ihq⟩
  | between opening closing p iho ihc ihp => exact ⟨trivial, iho, ihc, ihp⟩
  | seq n ps ih => exact ih
  | alt n ps ih => exact ih
  | seqMap n ps f ih => exact ⟨trivial, ih⟩
  | bind p name q ihp ihq => exact ⟨trivial, ihp, ihq⟩
  | choose first second p q ihp ihq => exact ⟨ihp, ihq⟩
  | known name => exact trivial
  | deferred rule description => exact trivial

/-- What comes after a construction that has not failed. -/
theorem exists_of_bind_eq_ok {α β : Type} {x : Except Fault α} {f : α → Except Fault β} {b : β}
    (h : x >>= f = .ok b) : ∃ a, f a = .ok b := by
  cases x with
  | error fault => cases h
  | ok a => exact ⟨a, h⟩

/-- A given text is read, or it is no text and cannot be met. -/
theorem Atom.stringParser_eq_ok {v : Value} {p : Parser} (h : Atom.stringParser v = .ok p) :
    (∃ s, p = .string s) ∨ ∃ expected, p = .fail expected := by
  unfold Atom.stringParser at h
  split at h
  · cases h
    exact .inl ⟨_, rfl⟩
  · cases h
    exact .inr ⟨_, rfl⟩
  · cases h
    exact .inr ⟨_, rfl⟩
  · cases h
    exact .inr ⟨_, rfl⟩
  · cases h

/-- What a handle does leads to parsers of a class and to nothing outside of a scope. -/
inductive Behaviour.Confined (scope : Scope) (P : Parser → Prop) : Behaviour → Prop
  | run {p : Parser} (h : P p) : Confined scope P (.run p)
  | unbound (r : Nat) : Confined scope P (.unbound r)
  | dispatch {r : Nat} (h : scope.reference r) : Confined scope P (.dispatch r)
  | build {l : Nat} (h : scope.handle l) : Confined scope P (.build l)

theorem Behaviour.confined_all (b : Behaviour) : b.Confined .all (fun _ => True) := by
  cases b with
  | run p => exact .run trivial
  | unbound r => exact .unbound r
  | dispatch r => exact .dispatch trivial
  | build l => exact .build trivial

namespace World

/-- Everything in the scope is of the fragment, or of the class of parsers that belongs to
it. -/
structure Confined (F : Fragment) (scope : Scope) (P : Parser → Prop) (w : World) : Prop where
  rules : ∀ rule d, scope.rule rule → lookup? rule w.rules = some d → d.Written F scope
  names : ∀ name p, scope.name name → lookup? name w.names = some p → P p
  references : ∀ (r : Nat) c, scope.reference r → w.references[r]? = some c →
    c.behaviour.Confined scope P
  targets : ∀ (r : Nat) c p, scope.reference r → w.references[r]? = some c →
    c.target = some p → P p
  handles : ∀ (l : Nat) handle, scope.handle l → w.deferred[l]? = some handle →
    scope.rule handle.rule ∧ handle.behaviour.Confined scope P
  /-- Handles that are made from now on are in scope. -/
  fresh : ∀ l, w.deferred.size ≤ l → scope.handle l

namespace Confined

variable {F : Fragment} {scope : Scope} {P : Parser → Prop} {w v : World} {p : Parser} {l r : Nat}

/-- The journal and the threshold do not matter. -/
theorem congr (h : w.Confined F scope P) (hrules : v.rules = w.rules) (hnames : v.names = w.names)
    (hreferences : v.references = w.references) (hdeferred : v.deferred = w.deferred) :
    v.Confined F scope P where
  rules := by rw [hrules]; exact h.rules
  names := by rw [hnames]; exact h.names
  references := by rw [hreferences]; exact h.references
  targets := by rw [hreferences]; exact h.targets
  handles := by rw [hdeferred]; exact h.handles
  fresh := by rw [hdeferred]; exact h.fresh

theorem quiet : Quiet (Confined F scope P) :=
  fun _ _ h => h.congr rfl rfl rfl rfl

/-- What a parser of the class does at present. -/
theorem behaviour (hP : F.Makes scope P) (h : w.Confined F scope P) (hp : P p) :
    (w.behaviour p).Confined scope P := by
  cases p with
  | reference r =>
      cases hr : w.references[r]? with
      | none =>
          simp only [World.behaviour, hr]
          exact .unbound r
      | some c =>
          simp only [World.behaviour, hr]
          exact h.references r c (hP.reference hp) hr
  | deferred l =>
      have hscope := hP.handle.mp hp
      cases hl : w.deferred[l]? with
      | none =>
          simp only [World.behaviour, hl]
          exact .build hscope
      | some handle =>
          simp only [World.behaviour, hl]
          exact (h.handles l handle hscope hl).2
  | _ => exact .run hp

theorem withDeferred (h : w.Confined F scope P) {rule : String} (hrule : scope.rule rule) :
    (w.withDeferred rule).Confined F scope P where
  rules := h.rules
  names := h.names
  references := h.references
  targets := h.targets
  handles l handle hl hhandle := by
    simp only [World.withDeferred, Array.getElem?_push] at hhandle
    split at hhandle
    · next heq =>
      cases hhandle
      exact ⟨hrule, .build (heq ▸ hl)⟩
    · exact h.handles l handle hl hhandle
  fresh l hl := by
    simp only [World.withDeferred, Array.size_push] at hl
    exact h.fresh l (by omega)

theorem markDispatched (h : w.Confined F scope P) (r : Nat) :
    (w.markDispatched r).Confined F scope P where
  rules := h.rules
  names := h.names
  references k c hk hc := by
    rw [getElem?_markDispatched] at hc
    split at hc
    · obtain ⟨d, hd, rfl⟩ := Option.map_eq_some_iff.mp hc
      exact h.references k d hk hd
    · exact h.references k c hk hc
  targets k c p hk hc := by
    rw [getElem?_markDispatched] at hc
    split at hc
    · obtain ⟨d, hd, rfl⟩ := Option.map_eq_some_iff.mp hc
      exact h.targets k d p hk hd
    · exact h.targets k c p hk hc
  handles := h.handles
  fresh := h.fresh

theorem keepBehaviour (h : w.Confined F scope P) {b : Behaviour} (hb : b.Confined scope P)
    (l : Nat) : (w.keepBehaviour l b).Confined F scope P where
  rules := h.rules
  names := h.names
  references := h.references
  targets := h.targets
  handles k handle hk hhandle := by
    simp only [World.keepBehaviour, Array.getElem?_modify] at hhandle
    split at hhandle
    · obtain ⟨c, hc, rfl⟩ := Option.map_eq_some_iff.mp hhandle
      exact ⟨(h.handles k c hk hc).1, hb⟩
    · exact h.handles k handle hk hhandle
  fresh k hk := h.fresh k (by simpa [World.keepBehaviour] using hk)

/-- Parsers that are built one after another. -/
theorem inOrder (bindings : Bindings) {ds : List Description}
    (hds : ∀ d ∈ ds, ∀ v, v.Confined F scope P →
      Run.Leaves (Confined F scope P) (fun p u => P p ∧ u.Confined F scope P)
        (d.build bindings) v)
    (h : w.Confined F scope P) :
    Run.Leaves (Confined F scope P) (fun ps u => (∀ p ∈ ps, P p) ∧ u.Confined F scope P)
      (Description.inOrder (ds.map (·.build bindings))) w := by
  induction ds generalizing w with
  | nil => exact .pure ⟨by simp, h⟩
  | cons d ds ih =>
      refine (hds d List.mem_cons_self w h).bind ?_
      rintro p v ⟨hp, hv⟩
      refine (ih (fun e he => hds e (List.mem_cons_of_mem _ he)) hv).bind ?_
      rintro ps u ⟨hps, hu⟩
      exact .pure ⟨List.forall_mem_cons.mpr ⟨hp, hps⟩, hu⟩

/-- A description of the fragment, built in a confined world, gives a parser of the class
and leaves the world confined. -/
theorem build (hP : F.Makes scope P) {d : Description} (hd : d.Written F scope)
    (bindings : Bindings) (h : w.Confined F scope P) :
    Run.Leaves (Confined F scope P) (fun p v => P p ∧ v.Confined F scope P)
      (d.build bindings) w := by
  have ofExcept {α : Type} (post : α → Prop) {x : Except Fault α} {v : World}
      (hv : v.Confined F scope P) (hx : ∀ a, x = .ok a → post a) :
      Run.Leaves (Confined F scope P) (fun a u => post a ∧ u.Confined F scope P)
        (Run.ofExcept x) v := by
    cases x with
    | error f => exact .fault hv
    | ok a => exact .pure ⟨hx a rfl, hv⟩
  have row {n : Nat} {ps : Fin n → Description} {v : World} (hv : v.Confined F scope P)
      (hps : ∀ k, ∀ u, u.Confined F scope P → Run.Leaves (Confined F scope P)
        (fun p t => P p ∧ t.Confined F scope P) ((ps k).build bindings) u) :
      Run.Leaves (Confined F scope P) (fun qs u => (∀ q ∈ qs, P q) ∧ u.Confined F scope P)
        (Description.inOrder (List.ofFn fun k => (ps k).build bindings)) v := by
    have hmem : ∀ d ∈ List.ofFn ps, ∀ u, u.Confined F scope P →
        Run.Leaves (Confined F scope P) (fun p t => P p ∧ t.Confined F scope P)
          (d.build bindings) u := by
      intro d hd
      obtain ⟨k, rfl⟩ := List.mem_ofFn.mp hd
      exact hps k
    have hrow := inOrder bindings hmem hv
    rw [List.map_ofFn] at hrow
    exact hrow
  induction d generalizing w with
  | atom a => exact ofExcept P h fun p hp => hP.atom hd hp
  | wrap m d ih =>
      refine (ih hd.2 h).bind ?_
      rintro p v ⟨hp, hv⟩
      exact ofExcept P hv fun q hq => hP.modifier hd.1 hp hq
  | join j d e ihd ihe =>
      refine (ihd hd.2.1 h).bind ?_
      rintro p v ⟨hp, hv⟩
      refine (ihe hd.2.2 hv).bind ?_
      rintro q u ⟨hq, hu⟩
      exact .pure ⟨hP.joiner hd.1 hp hq, hu⟩
  | between opening closing d iho ihc ihd =>
      refine (iho hd.2.1 h).bind ?_
      rintro p v ⟨hp, hv⟩
      refine (ihc hd.2.2.1 hv).bind ?_
      rintro q u ⟨hq, hu⟩
      refine (ihd hd.2.2.2 hu).bind ?_
      rintro r t ⟨hr, ht⟩
      exact .pure ⟨hP.between hd.1 hp hq hr, ht⟩
  | seq n ps ih =>
      refine (row h fun k u => ih k (hd k)).bind ?_
      rintro qs v ⟨hqs, hv⟩
      exact .pure ⟨hP.sequence hqs, hv⟩
  | alt n ps ih =>
      refine (row h fun k u => ih k (hd k)).bind ?_
      rintro qs v ⟨hqs, hv⟩
      exact .pure ⟨hP.choice hqs, hv⟩
  | seqMap n ps f ih =>
      refine (row h fun k u => ih k (hd.2 k)).bind ?_
      rintro qs v ⟨hqs, hv⟩
      cases f with
      | none => exact .fault hv
      | some f => exact .pure ⟨hP.seqMap _ hd.1 hqs, hv⟩
  | bind d name e ihd ihe =>
      refine (ihd hd.2.1 h).bind ?_
      rintro p v ⟨hp, hv⟩
      exact .pure ⟨hP.bind hd.1 hp hd.2.2, hv⟩
  | choose first second d e ihd ihe =>
      refine (ofExcept (fun _ => True) h fun _ _ => trivial).bind ?_
      rintro a v ⟨-, hv⟩
      refine (ofExcept (fun _ => True) hv fun _ _ => trivial).bind ?_
      rintro b u ⟨-, hu⟩
      split
      · exact ihd hd.1 hu
      · exact ihe hd.2 hu
  | known name =>
      apply Run.Leaves.get
      cases hname : lookup? name w.names with
      | none => exact .fault h
      | some p => exact .pure ⟨h.names name p hd hname, h⟩
  | deferred rule description =>
      have hmade : Run.Leaves (Confined F scope P) (fun p v => P p ∧ v.Confined F scope P)
          (Run.newDeferred rule) w :=
        .of_ok rfl ⟨hP.handle.mpr (h.fresh _ Nat.le.refl), h.withDeferred hd⟩
      refine hmade.bind ?_
      rintro p v ⟨hp, hv⟩
      cases description with
      | none => exact .pure ⟨hp, hv⟩
      | some text => exact .pure ⟨hP.label text hp, hv⟩

/-- Building a handle of the scope leaves the world confined. -/
theorem buildRule (hP : F.Makes scope P) (hl : scope.handle l) (h : w.Confined F scope P) :
    Run.Leaves (Confined F scope P) (fun _ v => v.Confined F scope P)
      (Behaviour.buildRule l) w := by
  apply Run.Leaves.get
  cases hhandle : w.deferred[l]? with
  | none => exact .fault h
  | some handle =>
      have hrule := (h.handles l handle hl hhandle).1
      have hnote : Run.Leaves (Confined F scope P) (fun _ v => v.Confined F scope P)
          (Run.note (.built handle.rule)) w := .modify (quiet w [.built handle.rule] h)
      refine hnote.bind fun _ v hv => ?_
      apply Run.Leaves.get
      cases hfound : lookup? handle.rule v.rules with
      | none => exact .fault hv
      | some d =>
          refine (hv.build hP (hv.rules _ d hrule hfound) []).bind ?_
          rintro p u ⟨hp, hu⟩
          exact .modify (hu.keepBehaviour (hu.behaviour hP hp) l)

/-- Nothing is left out of a scope that has everything. -/
theorem all (w : World) : w.Confined .all .all (fun _ => True) where
  rules _ d _ _ := d.written_all
  names _ _ _ _ := trivial
  references _ c _ _ := c.behaviour.confined_all
  targets _ _ _ _ _ _ := trivial
  handles _ handle _ _ := ⟨trivial, handle.behaviour.confined_all⟩
  fresh _ _ := trivial

theorem empty : Confined F .all P {} where
  rules rule d _ hd := by cases hd
  names name p _ hp := by cases hp
  references r c _ hc := by simp at hc
  targets r c p _ hc := by simp at hc
  handles l handle _ hl := by simp at hl
  fresh _ _ := trivial

section SetUp

variable (h : w.Confined F .all P)

include h

theorem newReference : ((Run.newReference).after w).Confined F .all P := by
  have hpush (r : Nat) (c : Reference)
      (hc : (w.references.push { behaviour := .unbound w.references.size })[r]? = some c) :
      w.references[r]? = some c ∨ c.behaviour = .unbound w.references.size ∧ c.target = none := by
    rw [Array.getElem?_push] at hc
    split at hc
    · cases hc
      exact .inr ⟨rfl, rfl⟩
    · exact .inl hc
  refine ⟨h.rules, h.names, fun r c hr hc => ?_, fun r c p hr hc hp => ?_, h.handles, h.fresh⟩
  · rcases hpush r c hc with hold | ⟨hnew, -⟩
    · exact h.references r c hr hold
    · rw [hnew]
      exact .unbound _
  · rcases hpush r c hc with hold | ⟨-, hnew⟩
    · exact h.targets r c p hr hold hp
    · cases hnew.symm.trans hp

theorem assign (name : String) (hp : P p) :
    { w with names := World.assign name p w.names }.Confined F .all P where
  rules := h.rules
  names other q _ hq := by
    rw [lookup?_assign] at hq
    split at hq
    · cases hq
      exact hp
    · exact h.names other q trivial hq
  references := h.references
  targets := h.targets
  handles := h.handles
  fresh := h.fresh

theorem rule (name : String) {d : Description} (hd : d.Written F .all) :
    { w with rules := World.assign name d w.rules }.Confined F .all P where
  rules other e _ he := by
    rw [lookup?_assign] at he
    split at he
    · cases he
      exact hd
    · exact h.rules other e trivial he
  names := h.names
  references := h.references
  targets := h.targets
  handles := h.handles
  fresh := h.fresh

theorem retargeted (r : Nat) (hp : P p) :
    { w with references := w.references.modify r fun c =>
      { c with behaviour := .dispatch r, target := some p } }.Confined F .all P where
  rules := h.rules
  names := h.names
  references k c _ hc := by
    simp only [Array.getElem?_modify] at hc
    split at hc
    · obtain ⟨d, -, rfl⟩ := Option.map_eq_some_iff.mp hc
      exact .dispatch trivial
    · exact h.references k c trivial hc
  targets k c q _ hc hq := by
    simp only [Array.getElem?_modify] at hc
    split at hc
    · obtain ⟨d, -, rfl⟩ := Option.map_eq_some_iff.mp hc
      cases hq
      exact hp
    · exact h.targets k c q trivial hc hq
  handles := h.handles
  fresh := h.fresh

theorem bindReference (r : Nat) (hp : P p) :
    Run.Leaves (Confined F .all P) (fun _ v => v.Confined F .all P)
      (Run.bindReference r p) w := by
  have bound {v : World} (hv : v.Confined F .all P) := hv.retargeted r hp
  have htarget : Run.Leaves (Confined F .all P) (fun _ v => v.Confined F .all P)
      (Run.retarget r p) w := by
    apply Run.Leaves.get
    split
    · exact .fault h
    · dsimp only
      split
      · exact .bind (.fault h) fun _ _ (hnever : False) => hnever.elim
      · split
        · exact .bind (.record fun events => quiet w events h) fun _ v hv => .modify (bound hv)
        · exact .modify (bound h)
  unfold Run.bindReference
  dsimp only
  split
  · split
    · exact .bind (.fault h) fun _ _ (hnever : False) => hnever.elim
    · exact htarget
  · exact htarget

end SetUp

end Confined

end World

namespace Step

/-- The step sets up a world, and does so with descriptions of a fragment only. -/
def Written (F : Fragment) : Step → Prop
  | .rule _ d | .assign _ d | .bindReference _ d => d.Written F .all
  | .threshold _ | .reference _ | .isBound _ => True
  | _ => False

variable {F : Fragment} {P : Parser → Prop} {w : World}

/-- A step that sets up a world leaves it confined. -/
theorem Written.leaves (hP : F.Makes .all P) (hreference : ∀ r, P (.reference r)) {step : Step}
    (hstep : step.Written F) (budget : Nat) (h : w.Confined F .all P) :
    Run.Leaves (World.Confined F .all P) (fun _ v => v.Confined F .all P)
      (step.perform budget) w := by
  have named (name : String) :
      Run.Leaves (World.Confined F .all P) (fun _ v => v.Confined F .all P)
        (referenceNamed name) w := by
    apply Run.Leaves.get
    split
    · exact .pure h
    · exact .fault h
  cases step with
  | threshold level =>
      have hset : { w with threshold := level }.Confined F .all P := h.congr rfl rfl rfl rfl
      exact .bind (.modify hset) fun _ _ h => .pure h
  | rule name d => exact .bind (.modify (h.rule name hstep)) fun _ _ h => .pure h
  | reference name =>
      have hmade : Run.Leaves (World.Confined F .all P) (fun p v => P p ∧ v.Confined F .all P)
          Run.newReference w := .of_ok rfl ⟨hreference _, h.newReference⟩
      refine hmade.bind ?_
      rintro p v ⟨hp, hv⟩
      exact .bind (.modify (hv.assign name hp)) fun _ _ h => .pure h
  | assign name d =>
      refine (h.build hP hstep []).bind ?_
      rintro p v ⟨hp, hv⟩
      exact .bind (.modify (hv.assign name hp)) fun _ _ h => .pure h
  | bindReference name d =>
      refine (named name).bind fun r v hv => (hv.build hP hstep []).bind ?_
      rintro p u ⟨hp, hu⟩
      exact (hu.bindReference r hp).bind fun _ _ h => .pure h
  | isBound name => exact (named name).bind fun r v hv => .get (.pure hv)
  | _ => exact hstep.elim

end Step

/-- Steps that set up a world with descriptions of a fragment leave it confined. -/
theorem Session.Leads.confined {F : Fragment} {P : Parser → Prop} {w w' : World}
    {setUp : List Step} (hP : F.Makes .all P) (hreference : ∀ r, P (.reference r))
    (h : Leads w setUp w') (hsteps : ∀ step ∈ setUp, step.Written F) (hw : w.Confined F .all P) :
    w'.Confined F .all P := by
  refine h.invariant (fun step hmem budget v hv => ?_) hw
  have hcleared : v.cleared.Confined F .all P := hv.congr rfl rfl rfl rfl
  exact (hsteps step hmem).leaves hP hreference budget hcleared

end Descent
