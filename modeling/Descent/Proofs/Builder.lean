/-
# Builders of deferred rules

A handle of a deferred rule calls its builder when it is run, and keeps what was built does
at that moment. If this is again what builds another handle, it is kept as well, and from
then on two handles call the builder of the second one: the first of them goes on to do so
whenever it is run, since what it keeps is not exchanged when the second one is built.

This is the only way in which a builder comes to return more than once. It is shown for
the arrivals of all the moves of a session: unless some handle takes over what builds a
given one, the builder of that one returns normally at most once. Until it does, it is
called whenever the handle is run.
-/

import Descent.Proofs.LifeCycle

namespace Descent

/-- The behaviour is to build the handle of the given number. -/
def Behaviour.builds (l : Nat) : Behaviour → Bool
  | .build k => k == l
  | _ => false

theorem Behaviour.builds_iff {l : Nat} {b : Behaviour} : b.builds l = true ↔ b = .build l := by
  cases b with
  | build k => simp [builds]
  | _ => simp [builds]

namespace Arrival

/-- The builder of a handle is called on arrival and returns normally. -/
def returns (l : Nat) (a : Arrival) : Bool :=
  a.behaviour.builds l && ((Behaviour.buildRule l).run' a.world).isSome

/-- A builder is called on arrival and returns a parser that does at that moment what
builds the handle `l`, so that the handle it was called for takes this over. -/
def takesOver (l : Nat) (a : Arrival) : Bool :=
  match a.behaviour with
  | .build k =>
      a.returns k && (((Behaviour.buildRule k).after a.world).behaviour (.deferred k)).builds l
  | _ => false

variable {a : Arrival} {l k : Nat} {v : World}

theorem returns_of_ok (ha : a.behaviour = .build k)
    (hok : Behaviour.buildRule k a.world = .ok () v) : a.returns l = (k == l) := by
  unfold returns
  rw [ha]
  by_cases hk : k = l
  · subst hk
    simp [Behaviour.builds, Run.run'_of_ok hok]
  · simp [Behaviour.builds, hk]

theorem returns_of_error {halt : Halt} (ha : a.behaviour = .build k)
    (herror : Behaviour.buildRule k a.world = .error halt v) : a.returns l = false := by
  unfold returns
  rw [ha]
  by_cases hk : k = l
  · subst hk
    simp [Run.run'_of_error herror]
  · simp [Behaviour.builds, hk]

theorem returns_of_not_build (ha : ∀ k, a.behaviour ≠ .build k) : a.returns l = false := by
  cases hb : a.behaviour with
  | build k => exact absurd hb (ha k)
  | _ => simp [returns, hb, Behaviour.builds]

theorem takesOver_of_ok (ha : a.behaviour = .build k)
    (hok : Behaviour.buildRule k a.world = .ok () v) :
    a.takesOver l = (v.behaviour (.deferred k)).builds l := by
  unfold takesOver
  rw [ha]
  simp [returns_of_ok ha hok, Run.after_of_ok hok]

theorem behaviour_ne_of_not_takesOver (ha : a.behaviour = .build k)
    (hok : Behaviour.buildRule k a.world = .ok () v) (h : a.takesOver l = false) :
    v.behaviour (.deferred k) ≠ .build l := by
  intro hbuild
  rw [takesOver_of_ok ha hok, Behaviour.builds_iff.mpr hbuild] at h
  cases h

end Arrival

namespace World

variable {w v u : World} {l k : Nat}

/-- A handle that is still to be built calls its builder. -/
def Waits (w : World) (l : Nat) : Prop :=
  w.behaviour (.deferred l) = .build l

/-- Nobody calls the builder of a handle but the handle itself. -/
def Sole (w : World) (l : Nat) : Prop :=
  ∀ p, w.behaviour p = .build l → p = .deferred l

/-- Nobody calls the builder of a handle any more. -/
def Spent (w : World) (l : Nat) : Prop :=
  ∀ p, w.behaviour p ≠ .build l

/-- A new handle does what it would do if it were missing. -/
theorem Grows.behaviour_eq (h : w.Grows v) : v.behaviour = w.behaviour := by
  funext p
  have hreferences : v.references = w.references := by rw [h.rest]
  cases p with
  | reference r => simp only [behaviour, hreferences]
  | deferred l =>
      cases hw : w.deferred[l]? with
      | some handle => simp only [behaviour, h.kept l handle hw, hw]
      | none =>
          cases hv : v.deferred[l]? with
          | none => simp only [behaviour, hv, hw]
          | some handle =>
              rcases h.fresh l handle hv with hold | hbuild
              · cases hw.symm.trans hold
              · simp only [behaviour, hv, hw, hbuild]
  | _ => rfl

/-- Going through a reference changes what no parser does. -/
theorem behaviour_markDispatched (w : World) (r : Nat) :
    (w.markDispatched r).behaviour = w.behaviour := by
  funext p
  cases p with
  | reference k =>
      by_cases hk : r = k
      · subst hk
        cases hw : w.references[r]? with
        | none => simp [behaviour, markDispatched, Array.getElem?_modify, hw]
        | some c => simp [behaviour, markDispatched, Array.getElem?_modify, hw]
      · simp [behaviour, markDispatched, Array.getElem?_modify, hk]
  | _ => rfl

theorem behaviour_keepBehaviour_of_ne (w : World) (b : Behaviour) {p : Parser}
    (hp : p ≠ .deferred k) : (w.keepBehaviour k b).behaviour p = w.behaviour p := by
  cases p with
  | deferred l =>
      have hne : k ≠ l := fun heq => hp (heq ▸ rfl)
      simp [behaviour, keepBehaviour, Array.getElem?_modify, hne]
  | _ => rfl

theorem buildRule_of_unknown (hk : w.ruleOf k = none) :
    Behaviour.buildRule k w = .error (.fault (.unknownName "")) w := by
  have hmissing : w.deferred[k]? = none := Option.map_eq_none_iff.mp hk
  unfold Behaviour.buildRule
  rw [Run.get_bind, hmissing]
  rfl

/-- A builder that ends in a fault leaves everything that parsers do as it was. One that
returns normally changes what its own handle does, and nothing else. -/
theorem buildRule_cases (k : Nat) (w : World) :
    (∃ halt v, Behaviour.buildRule k w = .error halt v ∧ v.behaviour = w.behaviour) ∨
      ∃ v, Behaviour.buildRule k w = .ok () v ∧
        ∀ p, p ≠ .deferred k → v.behaviour p = w.behaviour p := by
  cases hk : w.ruleOf k with
  | none => exact .inl ⟨_, _, buildRule_of_unknown hk, rfl⟩
  | some rule =>
      cases hrule : lookup? rule w.rules with
      | none => exact .inl ⟨_, _, buildRule_of_missing hk hrule, rfl⟩
      | some d =>
          have hgrows := d.within_build [] (w.noted [.built rule])
          rcases hbuild : d.build [] (w.noted [.built rule]) with ⟨q, v⟩ | ⟨halt, v⟩
          · rw [Run.after_of_ok hbuild] at hgrows
            refine .inr ⟨_, buildRule_of_ok hk hrule hbuild, fun p hp => ?_⟩
            rw [behaviour_keepBehaviour_of_ne _ _ hp, hgrows.behaviour_eq]
            rfl
          · rw [Run.after_of_error hbuild] at hgrows
            exact .inl ⟨halt, v, buildRule_of_error hk hrule hbuild, hgrows.behaviour_eq⟩

/-- Plain steps at the end of a run change what no parser does. -/
theorem behaviour_bind_plain {α β : Type} {x : Run α} {f : α → Run β} (hf : ∀ a, (f a).Plain) :
    ((x >>= f).after w).behaviour = (x.after w).behaviour := by
  rcases hx : x w with ⟨a, v⟩ | ⟨halt, v⟩
  · obtain ⟨events, hv⟩ := (hf a).exists_after_eq v
    rw [Run.after_bind_of_ok hx, Run.after_of_ok hx, hv]
    rfl
  · rw [Run.after_bind_of_error hx, Run.after_of_error hx]

/-- What can be told of a way from one world to another in view of the arrivals on it: it is
told of a whole way from its parts, of a part on which nobody arrives from who calls a builder
and what handles do, and of the arrival of one parser from what becomes of the builder that it
calls, if it does. -/
structure Account (told : List Arrival → World → World → Prop) : Prop where
  idle : ∀ {w v}, (∀ p l, v.behaviour p = .build l ↔ w.behaviour p = .build l) →
    (∀ l, v.behaviour (.deferred l) = w.behaviour (.deferred l)) → told [] w v
  append : ∀ {as bs w v u}, told as w v → told bs v u → told (as ++ bs) w u
  of_not_build : ∀ {a : Arrival} {w}, a.world = w → (∀ k, a.behaviour ≠ .build k) → told [a] w w
  of_error : ∀ {a : Arrival} {k halt w v}, a.world = w → a.behaviour = .build k →
    Behaviour.buildRule k w = .error halt v → v.behaviour = w.behaviour →
    a.result = .error halt v → told [a] w v
  of_ok : ∀ {a : Arrival} {k w v}, a.world = w → a.behaviour = .build k →
    Behaviour.buildRule k w = .ok () v →
    (∀ p, p ≠ .deferred k → v.behaviour p = w.behaviour p) → told [a] w v

theorem Account.of_eq {told : List Arrival → World → World → Prop} (ht : Account told)
    (h : v.behaviour = w.behaviour) : told [] w v :=
  ht.idle (fun p l => by rw [h]) fun l => by rw [h]

/-- What becomes of the builder of a handle between two worlds, in view of the arrivals on
the way from one to the other. -/
structure Tends (l : Nat) (as : List Arrival) (w v : World) : Prop where
  raised : ∀ a ∈ as, a.behaviour = .build l → ∀ halt u,
    Behaviour.buildRule l a.world = .error halt u → a.result = .error halt u
  waits : w.Waits l → (∀ a ∈ as, a.returns l = false) → v.Waits l
  retried : w.Waits l → ∀ before a rest, as = before ++ a :: rest →
    (∀ b ∈ before, b.returns l = false) → a.world.Waits l
  sole : w.Sole l → (∀ a ∈ as, a.takesOver l = false) →
    v.Sole l ∧ (as.countP (·.returns l) = 0 ∨ as.countP (·.returns l) = 1 ∧ v.Spent l)
  spent : w.Spent l → (∀ a ∈ as, a.takesOver l = false) →
    v.Spent l ∧ as.countP (·.returns l) = 0

namespace Tends

/-- Nobody arrives, and whoever calls the builder did so before. -/
theorem of_iff (h : ∀ p, v.behaviour p = .build l ↔ w.behaviour p = .build l) :
    Tends l [] w v where
  raised := by simp
  waits hw _ := (h _).mpr hw
  retried _ before a rest heq := by simp at heq
  sole hw _ := ⟨fun p hp => hw p ((h p).mp hp), .inl rfl⟩
  spent hw _ := ⟨fun p hp => hw p ((h p).mp hp), rfl⟩

/-- One part of the way after another. -/
theorem append {as bs : List Arrival} (h : Tends l as w v) (h' : Tends l bs v u) :
    Tends l (as ++ bs) w u where
  raised a ha := (List.mem_append.mp ha).elim (h.raised a) (h'.raised a)
  waits hw hreturns :=
    h'.waits (h.waits hw fun a ha => hreturns a (List.mem_append_left _ ha))
      fun a ha => hreturns a (List.mem_append_right _ ha)
  retried hw before a rest heq hbefore := by
    rcases List.append_eq_append_iff.mp heq with ⟨more, hbefore', hbs⟩ | ⟨more, has, hrest⟩
    · subst hbefore'
      have hv := h.waits hw fun b hb => hbefore b (List.mem_append_left _ hb)
      exact h'.retried hv more a rest hbs fun b hb => hbefore b (List.mem_append_right _ hb)
    · cases more with
      | nil =>
          have hv := h.waits hw fun b hb => hbefore b (by simpa [has] using hb)
          exact h'.retried hv [] a rest (by simpa using hrest.symm) (by simp)
      | cons first more =>
          obtain ⟨rfl, rfl⟩ : first = a ∧ more ++ bs = rest := by simpa using hrest.symm
          exact h.retried hw before first more has hbefore
  sole hw htakes := by
    obtain ⟨hv, hcount⟩ := h.sole hw fun a ha => htakes a (List.mem_append_left _ ha)
    have htakes' : ∀ b ∈ bs, b.takesOver l = false :=
      fun b hb => htakes b (List.mem_append_right _ hb)
    rw [List.countP_append]
    rcases hcount with hzero | ⟨hone, hspent⟩
    · obtain ⟨hu, hcount'⟩ := h'.sole hv htakes'
      rw [hzero, Nat.zero_add]
      exact ⟨hu, hcount'⟩
    · obtain ⟨hu, hzero⟩ := h'.spent hspent htakes'
      rw [hone, hzero]
      exact ⟨fun p hp => absurd hp (hu p), .inr ⟨rfl, hu⟩⟩
  spent hw htakes := by
    obtain ⟨hv, hzero⟩ := h.spent hw fun a ha => htakes a (List.mem_append_left _ ha)
    obtain ⟨hu, hzero'⟩ := h'.spent hv fun a ha => htakes a (List.mem_append_right _ ha)
    rw [List.countP_append, hzero, hzero']
    exact ⟨hu, rfl⟩

theorem retried_singleton {a : Arrival} (ha : a.world.Waits l) (before : List Arrival)
    (b : Arrival) (rest : List Arrival) (heq : [a] = before ++ b :: rest)
    (_ : ∀ c ∈ before, c.returns l = false) : b.world.Waits l := by
  cases before with
  | nil =>
      obtain ⟨rfl, -⟩ := List.cons.inj heq
      exact ha
  | cons first before => simp at heq

/-- Somebody arrives who calls no builder. -/
theorem of_not_build {a : Arrival} (hworld : a.world = w) (ha : ∀ k, a.behaviour ≠ .build k) :
    Tends l [a] w w where
  raised b hb hbuild := by
    rw [List.mem_singleton.mp hb] at hbuild
    exact absurd hbuild (ha l)
  waits hw _ := hw
  retried hw := retried_singleton (hworld ▸ hw)
  sole hw _ := ⟨hw, .inl (by simp [Arrival.returns_of_not_build ha])⟩
  spent hw _ := ⟨hw, by simp [Arrival.returns_of_not_build ha]⟩

/-- Somebody arrives who calls a builder, and the call ends in a fault. -/
theorem of_error {a : Arrival} {halt : Halt} (hworld : a.world = w) (ha : a.behaviour = .build k)
    (hcall : Behaviour.buildRule k w = .error halt v) (hv : v.behaviour = w.behaviour)
    (hresult : a.result = .error halt v) : Tends l [a] w v where
  raised b hb hbuild halt' u hb' := by
    rw [List.mem_singleton.mp hb] at hbuild hb' ⊢
    cases ha.symm.trans hbuild
    rw [hworld, hcall] at hb'
    cases hb'
    exact hresult
  waits hw _ := by rwa [Waits, hv]
  retried hw := retried_singleton (hworld ▸ hw)
  sole hw _ := by
    subst hworld
    exact ⟨by rwa [Sole, hv], .inl (by simp [Arrival.returns_of_error ha hcall])⟩
  spent hw _ := by
    subst hworld
    exact ⟨by rwa [Spent, hv], by simp [Arrival.returns_of_error ha hcall]⟩

/-- Somebody arrives who calls a builder, and the call returns normally. -/
theorem of_ok {a : Arrival} (hworld : a.world = w) (ha : a.behaviour = .build k)
    (hcall : Behaviour.buildRule k w = .ok () v)
    (hv : ∀ p, p ≠ .deferred k → v.behaviour p = w.behaviour p) : Tends l [a] w v where
  raised b hb hbuild halt' u hb' := by
    rw [List.mem_singleton.mp hb] at hbuild hb'
    cases ha.symm.trans hbuild
    rw [hworld, hcall] at hb'
    cases hb'
  waits hw hreturns := by
    subst hworld
    have hne : k ≠ l := by simpa [Arrival.returns_of_ok ha hcall] using hreturns
    rwa [Waits, hv _ fun heq => hne (Parser.deferred.inj heq).symm]
  retried hw := retried_singleton (hworld ▸ hw)
  sole hw htakes := by
    subst hworld
    have hown := Arrival.behaviour_ne_of_not_takesOver ha hcall (htakes a List.mem_cons_self)
    have hsole : v.Sole l := by
      intro p hp
      by_cases hpk : p = .deferred k
      · exact absurd (hpk ▸ hp) hown
      · exact hw p ((hv p hpk).symm.trans hp)
    refine ⟨hsole, ?_⟩
    by_cases hk : k = l
    · subst hk
      refine .inr ⟨by simp [Arrival.returns_of_ok ha hcall], fun p hp => ?_⟩
      exact hown (hsole p hp ▸ hp)
    · exact .inl (by simp [Arrival.returns_of_ok ha hcall, hk])
  spent hw htakes := by
    subst hworld
    have hown := Arrival.behaviour_ne_of_not_takesOver ha hcall (htakes a List.mem_cons_self)
    have hk : k ≠ l := by
      rintro rfl
      exact hw _ ha
    refine ⟨fun p hp => ?_, by simp [Arrival.returns_of_ok ha hcall, hk]⟩
    by_cases hpk : p = .deferred k
    · exact hown (hpk ▸ hp)
    · exact hw p ((hv p hpk).symm.trans hp)

theorem account (l : Nat) : Account (Tends l) where
  idle h _ := .of_iff fun p => h p l
  append := .append
  of_not_build := .of_not_build
  of_error := .of_error
  of_ok := .of_ok

end Tends

end World

namespace Charted

variable {told : List Arrival → World → World → Prop}

/-- Charted steps correspond to plain ones, and their charts tell of the way to the world that
is left. -/
def telling (ht : World.Account told) : Correspondence Charted Run where
  rel x y := ∀ w, (x w).2 = y w ∧ told (x w).1 w (y.after w)
  pure a w := ⟨rfl, ht.of_eq rfl⟩
  bind {α β x y f g} hx hf w := by
    obtain ⟨heq, htold⟩ := hx w
    rcases hxw : x w with ⟨arrivals, ⟨a, v⟩ | ⟨halt, v⟩⟩
    · rw [hxw] at heq htold
      have hy : y w = .ok a v := heq.symm
      obtain ⟨heq', htold'⟩ := hf a v
      rw [Run.after_of_ok hy] at htold
      rw [bind_of_ok hxw, Run.bind_of_ok hy, Run.after_bind_of_ok hy]
      exact ⟨heq', ht.append htold htold'⟩
    · rw [hxw] at heq htold
      have hy : y w = .error halt v := heq.symm
      rw [Run.after_of_error hy] at htold
      rw [bind_of_error hxw, Run.bind_of_error hy, Run.after_bind_of_error hy]
      exact ⟨rfl, htold⟩
  plain {α x} hx w := by
    obtain ⟨events, hw⟩ := hx.exists_after_eq w
    have hbehaviour : (x.after w).behaviour = w.behaviour := by rw [hw]; rfl
    exact ⟨rfl, ht.of_eq hbehaviour⟩
  unfinished w := ⟨rfl, ht.of_eq rfl⟩

variable (ht : World.Account told) {descend : Parser → ActionIn Charted}
  {descend' : Parser → Action}

include ht

/-- The arrival of a parser that calls no builder is added to the chart of what it does. -/
theorem told_arrive {p : Parser} {act : ActionIn Charted} {act' : Action} {s : Text} {i : Int}
    {w : World} (hp : ∀ k, w.behaviour p ≠ .build k)
    (h : (act s i w).2 = act' s i w ∧ told (act s i w).1 w ((act' s i).after w)) :
    (arrive p act s i w).2 = act' s i w ∧
      told (arrive p act s i w).1 w ((act' s i).after w) := by
  have harrival : told [⟨p, i, w, (act s i w).2⟩] w w := ht.of_not_build rfl hp
  exact ⟨h.1, ht.append harrival h.2⟩

/-- Following a handle is charted, if this is so for the parsers it leads to. -/
theorem told_follow (hdescend : ∀ p s, (telling ht).Agree s (descend p) (descend' p)) (p : Parser)
    (s : Text) : (telling ht).Agree s (arrive p (p.follow descend)) (p.follow descend') := by
  intro i w
  have performs {b : Behaviour} (hp : w.behaviour p = b)
      (h : (b.perform descend s i w).2 = b.perform descend' s i w ∧
        told (b.perform descend s i w).1 w ((b.perform descend' s i).after w)) :
      (p.follow descend s i w).2 = p.follow descend' s i w ∧
        told (p.follow descend s i w).1 w ((p.follow descend' s i).after w) := by
    subst hp
    exact h
  cases hp : w.behaviour p with
  | run q => exact told_arrive ht (by simp [hp]) (performs hp (hdescend q s i w))
  | unbound r =>
      have hrecord := (telling ht).plain (.record .warning .references
        s!"reference used before assignment at offset {i}")
      exact told_arrive ht (by simp [hp])
        (performs hp ((telling ht).bind hrecord (fun _ => (telling ht).pure _) w))
  | dispatch r =>
      have henter : (telling ht).rel (liftM (Run.enterReference r)) (Run.enterReference r) :=
        fun v => ⟨rfl, ht.of_eq (v.behaviour_markDispatched r)⟩
      refine told_arrive ht (by simp [hp]) (performs hp ((telling ht).bind henter ?_ w))
      rintro (_ | target)
      · exact (telling ht).plain (.fault _)
      · exact hdescend target s i
  | build k =>
      have hfollow : p.follow descend s i w = (Behaviour.build k).perform descend s i w := by
        rw [← hp]
        rfl
      have hfollow' : p.follow descend' s i w = (Behaviour.build k).perform descend' s i w := by
        rw [← hp]
        rfl
      rcases World.buildRule_cases k w with ⟨halt, v, hcall, hv⟩ | ⟨v, hcall, hv⟩
      · have hlift : (liftM (Behaviour.buildRule k) : Charted Unit) w = ([], .error halt v) :=
          congrArg _ hcall
        have hchart := hfollow.trans (bind_of_error hlift)
        have hplain := hfollow'.trans (Run.bind_of_error hcall)
        unfold arrive
        rw [hchart, hplain, Run.after_of_error hplain]
        exact ⟨rfl, ht.of_error rfl hp hcall hv rfl⟩
      · have hlift : (liftM (Behaviour.buildRule k) : Charted Unit) w = ([], .ok () v) :=
          congrArg _ hcall
        have hchart := hfollow.trans (bind_of_ok hlift)
        have hplain := hfollow'.trans (Run.bind_of_ok hcall)
        obtain ⟨heq, htold⟩ := hdescend (.deferred k) s i v
        have hafter : (p.follow descend' s i).after w = (descend' (.deferred k) s i).after v := by
          unfold Run.after
          rw [hplain]
        have harrival (result : EStateM.Result Halt World Reply) :
            told [⟨p, i, w, result⟩] w v := ht.of_ok rfl hp hcall hv
        unfold arrive
        rw [hchart, hplain, hafter]
        exact ⟨heq, ht.append (harrival _) htold⟩

end Charted

/-- The chart of a run tells of the way to the world that it leaves. -/
theorem Parser.agree_charted {told : List Arrival → World → World → Prop}
    (ht : World.Account told) (budget : Nat) (p : Parser) (s : Text) :
    (Charted.telling ht).Agree s (charted budget p) (run budget p) := by
  induction budget generalizing p s with
  | zero => exact fun _ => (Charted.telling ht).unfinished
  | succ budget ih =>
      apply (Charted.telling ht).agree_action
      · intro p act act' hnot _ _ hact i w
        exact Charted.told_arrive ht (by simp [World.behaviour_of_not_isHandle hnot]) (hact i w)
      · exact fun p _ => Charted.told_follow ht ih p s
      · intro d bindings i
        have hbuild : (Charted.telling ht).rel (liftM (d.build bindings)) (d.build bindings) :=
          fun w => ⟨rfl, ht.of_eq (d.within_build bindings w).behaviour_eq⟩
        exact (Charted.telling ht).bind hbuild fun q => ih q s i

namespace World

variable {w : World} {l : Nat}

/-- A new reference fails as one that is missing does. -/
theorem behaviour_newReference (w : World) :
    ((Run.newReference).after w).behaviour = w.behaviour := by
  have hafter : (Run.newReference).after w = { w with
      references := w.references.push { behaviour := .unbound w.references.size } } := rfl
  rw [hafter]
  funext p
  cases p with
  | reference r =>
      by_cases hr : r = w.references.size
      · subst hr
        simp [behaviour]
      · simp [behaviour, Array.getElem?_push, hr]
  | _ => rfl

/-- Binding a reference is refused, or the reference is given the target. -/
theorem bindReference_cases (r : Nat) (q : Parser) (w : World) :
    (∃ f, Run.bindReference r q w = .error (.fault f) w) ∨
      ∃ c events, w.references[r]? = some c ∧
        Run.bindReference r q w = .ok () ((w.noted events).retargeted r q) := by
  by_cases hself : q = .reference r
  · subst hself
    exact .inl ⟨_, Run.bindReference_self r w⟩
  cases hc : w.references[r]? with
  | none =>
      exact .inl ⟨_, (Run.bindReference_eq_retarget hself).trans (Run.retarget_of_missing hc)⟩
  | some c =>
      cases hmark : c.dispatched with
      | true =>
          exact .inl ⟨_, (Run.bindReference_eq_retarget hself).trans
            (Run.retarget_of_dispatched hc hmark)⟩
      | false =>
          obtain ⟨events, hend⟩ := bindReference_of_free hc hself hmark
          exact .inr ⟨c, events, rfl, hend⟩

/-- Binding a reference has no part in who calls a builder. -/
theorem builds_bindReference_iff (hw : w.Sound) (r : Nat) (q p : Parser) :
    ((Run.bindReference r q).after w).behaviour p = .build l ↔ w.behaviour p = .build l := by
  rcases bindReference_cases r q w with ⟨f, hend⟩ | ⟨c, events, hc, hend⟩
  · rw [Run.after_of_error hend]
  rw [Run.after_of_ok hend]
  by_cases hp : p = .reference r
  · subst hp
    have hreference : w.behaviour (.reference r) ≠ .build l := by
      rw [hw.behaviour_reference hc]
      split
      · simp
      · simp
    refine iff_of_false ?_ hreference
    have hbound : ((w.noted events).retargeted r q).references[r]? =
        some { c with behaviour := .dispatch r, target := some q } := by
      rw [getElem?_retargeted, if_pos rfl]
      exact congrArg _ hc
    simp [behaviour, hbound]
  · have heq : ((w.noted events).retargeted r q).behaviour p = w.behaviour p := by
      cases p with
      | reference k =>
          have hne : r ≠ k := fun heq => hp (heq ▸ rfl)
          simp only [behaviour, getElem?_retargeted, if_neg hne]
          rfl
      | _ => rfl
    rw [heq]

end World

namespace World.Account

variable {told : List Arrival → World → World → Prop} (ht : Account told) {w : World}

include ht

/-- Binding a reference changes what no handle does. -/
theorem bindReference (hw : w.Sound) (r : Nat) (q : Parser) :
    told [] w ((Run.bindReference r q).after w) := by
  refine ht.idle (fun p _ => builds_bindReference_iff hw r q p) fun l => ?_
  rcases bindReference_cases r q w with ⟨f, hend⟩ | ⟨c, events, -, hend⟩
  · rw [Run.after_of_error hend]
  · rw [Run.after_of_ok hend]
    rfl

end World.Account

/-- Build what a step starts, and chart the run. -/
def Launch.charted (budget : Nat) (start : Launch) : Charted Reply := do
  let p ← liftM (start.description.build [])
  (start.entry p).charted budget start.input start.offset

namespace Session

/-- The parsers started in the course of a move. -/
def Move.arrivals (w : World) : Move → List Arrival
  | .perform budget step =>
      step.launch?.elim [] fun start => (start.charted budget w.cleared).1
  | .run budget p s i => p.arrivals budget s i w
  | .bind .. => []

/-- The parsers started in the course of moves made one after another. -/
def arrivals (w : World) : List Move → List Arrival
  | [] => []
  | move :: moves => move.arrivals w ++ arrivals (move.after w) moves

section Account

variable {told : List Arrival → World → World → Prop} (ht : World.Account told) {w : World}

include ht

/-- A step that runs a parser, in view of the chart of the run. -/
theorem told_perform_of_launch (budget : Nat) {step : Step} {start : Launch}
    (hstart : step.launch? = some start) (w : World) :
    told (start.charted budget w).1 w ((step.perform budget).after w) := by
  obtain ⟨answer, hanswer, hperform⟩ := step.exists_perform_eq hstart
  have hbuild : (Charted.telling ht).rel (liftM (start.description.build []))
      (start.description.build []) :=
    fun v => ⟨rfl, ht.of_eq (start.description.within_build [] v).behaviour_eq⟩
  obtain ⟨heq, htold⟩ := (Charted.telling ht).bind hbuild
    (fun p => (start.entry p).agree_charted ht budget start.input start.offset) w
  have hassoc : step.perform budget = (start.description.build [] >>= fun p =>
      (start.entry p).run budget start.input start.offset) >>= answer := by
    rw [← step.on_description hstart, hperform, bind_assoc]
  have hall := ht.append htold (ht.of_eq (World.behaviour_bind_plain (w := w) hanswer.plain))
  rw [List.append_nil, ← hassoc] at hall
  exact hall

/-- A step that runs no parser changes nothing about who calls a builder. -/
theorem told_perform_of_not_isRun (budget : Nat) {step : Step} (hstep : ¬ step.IsRun)
    (hw : w.Sound) : told [] w ((step.perform budget).after w) := by
  cases step with
  | threshold level => exact ht.of_eq rfl
  | rule name d => exact ht.of_eq rfl
  | reference name => exact ht.of_eq w.behaviour_newReference
  | assign name d =>
      have hgrows := d.within_build [] w
      have hend : ((Step.perform budget (.assign name d)).after w).behaviour =
          ((d.build []).after w).behaviour := by
        rcases hd : d.build [] w with ⟨q, v⟩ | ⟨halt, v⟩
        · rw [Run.after_of_ok hd, Step.perform, Run.after_bind_of_ok hd]
          rfl
        · rw [Run.after_of_error hd, Step.perform, Run.after_bind_of_error hd]
      exact ht.of_eq (hend.trans hgrows.behaviour_eq)
  | bindReference name d =>
      rcases Step.referenceNamed_cases name w with ⟨r, -, hr⟩ | hnone
      · have hgrows := d.within_build [] w
        rw [Step.perform, Run.after_bind_of_ok hr]
        rcases hd : d.build [] w with ⟨q, v⟩ | ⟨halt, v⟩
        · rw [Run.after_of_ok hd] at hgrows
          rw [Run.after_bind_of_ok hd, Run.after_bind_pure]
          exact ht.append (ht.of_eq hgrows.behaviour_eq)
            (ht.bindReference (hgrows.steady.sound hw) r q)
        · rw [Run.after_of_error hd] at hgrows
          rw [Run.after_bind_of_error hd]
          exact ht.of_eq hgrows.behaviour_eq
      · rw [Step.perform, Run.after_bind_of_error hnone]
        exact ht.of_eq rfl
  | isBound name =>
      have hend : (Step.perform budget (.isBound name)).after w = w := by
        rcases Step.referenceNamed_cases name w with ⟨r, -, hr⟩ | hnone
        · exact Run.after_bind_of_ok hr
        · exact Run.after_bind_of_error hnone
      rw [hend]
      exact ht.of_eq rfl
  | _ => exact absurd trivial hstep

/-- The arrivals in the course of a move tell of the way to the world that it leaves. -/
theorem Move.told_after (hw : w.Sound) (move : Move) :
    told (move.arrivals w) w (move.after w) := by
  cases move with
  | perform budget step =>
      have hcleared : told [] w w.cleared := ht.of_eq rfl
      have hsteady : w.Steady w.cleared := .congr rfl rfl
      suffices h : told ((Move.perform budget step).arrivals w) w.cleared
          ((step.perform budget).after w.cleared) by
        rw [← observe_snd] at h
        exact ht.append hcleared h
      cases hstart : step.launch? with
      | some start =>
          simp only [Move.arrivals, hstart, Option.elim]
          exact told_perform_of_launch ht budget hstart w.cleared
      | none =>
          have hstep : ¬ step.IsRun := by
            intro hrun
            obtain ⟨start, hsome⟩ := step.exists_launch hrun
            cases hstart.symm.trans hsome
          simp only [Move.arrivals, hstart, Option.elim]
          exact told_perform_of_not_isRun ht budget hstep (hsteady.sound hw)
  | run budget p s i => exact (p.agree_charted ht budget s i w).2
  | bind r q => exact ht.bindReference hw r q

/-- The arrivals in the course of moves tell of the way from the first world to the last. -/
theorem told_arrivals (hw : w.Sound) (moves : List Move) :
    told (arrivals w moves) w (moves.foldl Move.after w) := by
  induction moves generalizing w with
  | nil => exact ht.of_eq rfl
  | cons move moves ih =>
      have hmove := (move.changes_after hw).sound hw
      exact ht.append (move.told_after ht hw) (ih hmove)

end Account

/-- What becomes of a builder in the course of a session. -/
theorem tends_arrivals (l : Nat) {w : World} (hw : w.Sound) (moves : List Move) :
    World.Tends l (arrivals w moves) w (moves.foldl Move.after w) :=
  told_arrivals (World.Tends.account l) hw moves

/-- What holds of the builder of a handle in view of all the parsers that were started. -/
structure KeepsBuilt (l : Nat) (as : List Arrival) : Prop where
  /-- Where a call of the builder ends in a fault, the run does so. -/
  raised : ∀ a ∈ as, a.behaviour = .build l → ∀ halt v,
    Behaviour.buildRule l a.world = .error halt v → a.result = .error halt v
  /-- As long as the builder has not returned normally, every run of the handle calls it. -/
  retried : ∀ before a rest, as = before ++ a :: rest → a.parser = .deferred l →
    (∀ b ∈ before, b.returns l = false) → a.behaviour = .build l
  /-- The builder returns normally at most once, unless a handle takes over what builds this
  one, that is, unless a builder returns a handle which goes on to call this builder. -/
  once : (∀ a ∈ as, a.takesOver l = false) → as.countP (·.returns l) ≤ 1

/-- Whatever is done in a session, a builder is called until it returns normally, and is not
called again unless what calls it was taken over. -/
theorem builder_returns_once (moves : List Move) (l : Nat) :
    KeepsBuilt l (arrivals {} moves) := by
  have htends := tends_arrivals l World.sound_empty moves
  have hbehaviour (p : Parser) : World.behaviour {} p = .build l → p = .deferred l := by
    cases p with
    | deferred k =>
        intro hk
        have hk : Behaviour.build k = .build l := hk
        rw [Behaviour.build.inj hk]
    | _ => intro hp; cases hp
  constructor
  case raised => exact htends.raised
  case retried =>
    intro before a rest heq hself hbefore
    have hwaits : World.Waits {} l := rfl
    unfold Arrival.behaviour
    rw [hself]
    exact htends.retried hwaits before a rest heq hbefore
  case once =>
    intro htakes
    rcases (htends.sole hbehaviour htakes).2 with hzero | ⟨hone, -⟩
    · rw [hzero]
      exact Nat.zero_le 1
    · exact hone.le

/-- A handle whose rule is missing at first, and which is then run as a part of other
parsers and by itself. -/
theorem builder_returns_once_of_retried :
    ∃ as, KeepsBuilt 0 as ∧ (∀ a ∈ as, a.takesOver 0 = false) ∧
      (as.filter fun a => a.behaviour.builds 0).length = 2 ∧ as.countP (·.returns 0) = 1 := by
  let moves : List Move := [.perform 0 (.assign "j" (.deferred "Z" none)),
    .perform 5 (.call (.known "j") ['a'] 0),
    .perform 0 (.rule "Z" (.atom (.string (.value (.str "a"))))),
    .perform 5 (.call (.wrap .many (.known "j")) ['a', 'a'] 0),
    .perform 5 (.parse (.known "j") ['a'] {})]
  have htakes : (arrivals {} moves).all (fun a => !a.takesOver 0) = true := by decide +kernel
  refine ⟨arrivals {} moves, builder_returns_once moves 0, fun a ha => ?_, ?_, ?_⟩
  · simpa using List.all_eq_true.mp htakes a ha
  · decide +kernel
  · decide +kernel

/-- A builder that returns a handle which has not been run: this handle is then built
whenever the first one is run. -/
theorem not_forall_builder_returns_once :
    ¬ ∀ (moves : List Move) (l : Nat), (arrivals {} moves).countP (·.returns l) ≤ 1 := by
  intro h
  let moves : List Move := [.perform 0 (.rule "Z" (.atom (.string (.value (.str "a"))))),
    .perform 0 (.assign "j" (.deferred "Z" none)), .perform 0 (.rule "W" (.known "j")),
    .perform 0 (.assign "m" (.deferred "W" none)), .perform 5 (.call (.known "m") ['a'] 0),
    .perform 5 (.call (.known "m") ['a'] 0)]
  have htwice : (arrivals {} moves).countP (·.returns 0) = 2 := by decide +kernel
  have honce := h moves 0
  rw [htwice] at honce
  exact absurd honce (by decide)

end Session

end Descent
