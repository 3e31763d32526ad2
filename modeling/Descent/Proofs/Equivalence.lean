/-
# Parsers that are as good as each other

Two parsers are equivalent on an input if they take the same course at every offset of it.
Equivalent parsers may be exchanged in front of a map and on both sides of a bind, so that
such parsers can be computed with. What comes after a bind is started inside the input, and
this is where the offsets of the definition come from.
-/

import Descent.Proofs.MonadLaws

namespace Descent

namespace Reply

/-- A reply with another value, if it is a success. -/
def mapValue (f : Value → Value) (r : Reply) : Reply :=
  if r.status then (Reply.ok r.index (f r.value)).mergeWith r else r

@[simp] theorem mapValue_status (r : Reply) (f : Value → Value) :
    (r.mapValue f).status = r.status := by
  by_cases hok : r.status <;> simp [mapValue, hok]

@[simp] theorem mapValue_index (r : Reply) (f : Value → Value) :
    (r.mapValue f).index = r.index := by
  by_cases hok : r.status <;> simp [mapValue, hok]

theorem mapValue_value {r : Reply} (hok : r.status) (f : Value → Value) :
    (r.mapValue f).value = f r.value := by
  simp [mapValue, hok]

/-- To give a success another value changes nothing else of it. -/
theorem ok_mergeWith_eq {r : Reply} (hr : -1 ≤ r.furthest) (hok : r.status) (v : Value) :
    (Reply.ok r.index v).mergeWith r = { r with value := v } := by
  refine ext_expected (by simp [hok]) (by simp) (by simp) ?_ fun d => ?_
  · simp only [mergeWith_furthest, Reply.ok]
    omega
  · simp [mem_mergeWith_expected, Reply.ok, hr]

theorem mapValue_mapValue (r : Reply) (f g : Value → Value) :
    (r.mapValue f).mapValue g = r.mapValue fun v => g (f v) := by
  by_cases hok : r.status
  · simp [mapValue, hok, ok_mergeWith_ok_mergeWith]
  · simp [mapValue, hok]

theorem mapValue_mergeWith (newer older : Reply) (f : Value → Value) :
    (newer.mergeWith older).mapValue f = (newer.mapValue f).mergeWith older := by
  by_cases hok : newer.status
  · simp [mapValue, hok, mergeWith_assoc]
  · simp [mapValue, hok]

/-- The value of an older reply does not matter. -/
theorem mergeWith_mapValue (newer : Reply) {older : Reply} (holder : -1 ≤ older.furthest)
    (f : Value → Value) : newer.mergeWith (older.mapValue f) = newer.mergeWith older := by
  by_cases hok : older.status
  · rw [mapValue, if_pos hok, ok_mergeWith_eq holder hok]
    rfl
  · rw [mapValue, if_neg hok]

end Reply

namespace Action

variable {m : Type → Type} [Monad m] [LawfulMonad m] [MonadLiftT Run m] [LawfulMonadLiftT Run m]

/-- A value may be computed from the reply itself. -/
theorem map_answer_apply (p : ActionIn m) (f : Value → Value) (s : Text) (i : Int) :
    map p (fun v => .answer (f v)) s i = do
      let reply ← p s i
      return reply.mapValue f := by
  have hcall (v : Value) : Run.ofCall (.answer v) = pure v := rfl
  refine bind_congr fun reply => ?_
  by_cases hreply : reply.status
  · simp [hreply, Reply.mapValue, hcall]
  · simp [hreply, Reply.mapValue]

end Action

namespace Parser

/-- Two parsers take the same course at every offset of an input. -/
def Equivalent (joint : Parser → Bool) (s : Text) (p q : Parser) : Prop :=
  ∀ i : Int, 0 ≤ i → i ≤ s.length → SameCourse joint s i p q

namespace SameCourse

variable {joint : Parser → Bool} {s : Text} {i : Int} {p q r : Parser}

theorem outline_ext (h : SameCourse joint s i p q) (budget : Nat) :
    p.outline joint budget s i = q.outline joint budget s i := by
  funext w
  refine Prod.ext (h.outline_eq budget w) ?_
  rw [outline_snd, outline_snd, h.run_eq]

theorem symm (h : SameCourse joint s i p q) : SameCourse joint s i q p :=
  ⟨fun budget w => (h.run_eq budget w).symm, fun budget w => (h.outline_eq budget w).symm⟩

theorem trans (h : SameCourse joint s i p q) (h' : SameCourse joint s i q r) :
    SameCourse joint s i p r :=
  ⟨fun budget w => (h.run_eq budget w).trans (h'.run_eq budget w),
    fun budget w => (h.outline_eq budget w).trans (h'.outline_eq budget w)⟩

theorem map_congr (hmap : ∀ p f, joint (.map p f)) (h : SameCourse joint s i p q)
    (f : Value → Call Value) : SameCourse joint s i (p.map f) (q.map f) := by
  refine .of_outline fun n => ?_
  rw [outline_map (hmap _ _), outline_map (hmap _ _)]
  exact congrArg (· >>= _) (h.outline_ext (n + 1))

end SameCourse

namespace Equivalent

variable {joint : Parser → Bool} {s : Text} {p q r : Parser}

theorem refl (p : Parser) : Equivalent joint s p p :=
  fun _ _ _ => .refl p

theorem symm (h : Equivalent joint s p q) : Equivalent joint s q p :=
  fun i hi hlen => (h i hi hlen).symm

theorem trans (h : Equivalent joint s p q) (h' : Equivalent joint s q r) :
    Equivalent joint s p r :=
  fun i hi hlen => (h i hi hlen).trans (h' i hi hlen)

instance : Trans (Equivalent joint s) (Equivalent joint s) (Equivalent joint s) :=
  ⟨trans⟩

variable (hmap : ∀ p f, joint (.map p f)) (hbind : ∀ p f, joint (.bind p f))

section Maps

include hmap

theorem map_congr (h : Equivalent joint s p q) (f : Value → Call Value) :
    Equivalent joint s (p.map f) (q.map f) :=
  fun i hi hlen => (h i hi hlen).map_congr hmap f

protected theorem map_map (p : Parser) (f g : Value → Value) :
    Equivalent joint s ((p.map fun v => .answer (f v)).map fun v => .answer (g v))
      (p.map fun v => .answer (g (f v))) :=
  fun _ _ _ => SameCourse.map_map hmap p _ _

end Maps

section Binds

include hbind

/-- Equivalent parsers may go on in equivalent ways. -/
protected theorem bind_congr {f g : Value → Parser} (hp : Equivalent joint s p q)
    (hf : ∀ v, Equivalent joint s (f v) (g v)) : Equivalent joint s (p.bind f) (q.bind g) := by
  intro i hi hlen
  refine .of_outline fun n => ?_
  rw [outline_bind (hbind _ _), outline_bind (hbind _ _)]
  simp only [Action.bind, ← (hp i hi hlen).outline_ext (n + 1)]
  refine Watched.bind_congr_of_ok fun w r w' hr => ?_
  by_cases hok : r.status
  · rw [outline_snd] at hr
    obtain ⟨hstart, hstop⟩ := index_of_run hi hlen hr hok
    simp only [hok, if_true]
    rw [(hf r.value r.index (Int.le_trans hi hstart) hstop).outline_ext (n + 1)]
  · simp only [hok, Bool.false_eq_true, if_false]

protected theorem bind_assoc (p : Parser) (f g : Value → Parser) :
    Equivalent joint s ((p.bind f).bind g) (p.bind fun v => (f v).bind g) :=
  fun _ _ _ => SameCourse.bind_assoc hbind p f g

include hmap

protected theorem map_bind (p : Parser) (f : Value → Parser) (g : Value → Call Value) :
    Equivalent joint s ((p.bind f).map g) (p.bind fun v => (f v).map g) := by
  intro i hi hlen
  refine .of_outline fun n => ?_
  simp only [outline_bind (hbind _ _), outline_map (hmap _ _), Action.map_bind]

/-- To go on from a computed value is to compute it on the way. -/
theorem bind_map (p : Parser) (f : Value → Value) (g : Value → Parser) :
    Equivalent joint s ((p.map fun v => .answer (f v)).bind g) (p.bind fun v => g (f v)) := by
  intro i hi hlen
  refine .of_outline fun n => ?_
  rw [outline_bind (hbind _ _), outline_bind (hbind _ _), outline_map (hmap _ _)]
  simp only [Action.bind, Action.map_answer_apply, bind_assoc, pure_bind]
  refine Watched.bind_congr_of_ok fun w r w' hr => ?_
  by_cases hok : r.status
  · rw [outline_snd] at hr
    obtain ⟨hstart, hstop⟩ := index_of_run hi hlen hr hok
    have hnext := Watched.bind_mergeWith_ok (x := (g (f r.value)).outline joint (n + 1) s r.index)
      (fun v t v' ht => neg_one_le_furthest (Int.le_trans hi hstart) hstop ht)
    -- The success with the computed value leaves no trace in what comes after it.
    simp only [Reply.mapValue, hok, if_true, Reply.mergeWith_status, Reply.mergeWith_value,
      Reply.mergeWith_index, Reply.ok_status, Reply.ok_value, Reply.ok_index]
    conv_rhs => rw [← hnext r.index (f r.value)]
    simp only [bind_assoc, pure_bind, Reply.mergeWith_assoc]
  · simp [Reply.mapValue, hok]

end Binds

end Equivalent

section Runs

variable {p q : Parser} {s : Text} {n : Nat} {i : Int} {w w' : World} {r : Reply}

section Binds

variable {f : Value → Parser}

/-- What is made from the value of a success is run where the success has stopped. -/
theorem run_bind_of_success (h : p.run n s i w = .ok r w') (hok : r.status) :
    (p.bind f).run n s i w =
      (do
        let next ← (f r.value).run n s r.index
        return next.mergeWith r) w' := by
  cases n with
  | zero => cases h
  | succ n =>
      refine (Run.bind_of_ok h).trans ?_
      simp only [hok, if_true]
      rfl

theorem run_bind_of_failure (h : p.run n s i w = .ok r w') (hfail : r.status = false) :
    (p.bind f).run n s i w = .ok r w' := by
  cases n with
  | zero => cases h
  | succ n =>
      refine (Run.bind_of_ok h).trans ?_
      simp only [hfail, Bool.false_eq_true, if_false]
      rfl

theorem run_bind_of_halt {halt : Halt} (h : p.run n s i w = .error halt w') :
    (p.bind f).run n s i w = .error halt w' := by
  cases n with
  | zero => exact h
  | succ n => exact Run.bind_of_error h

end Binds

section Maps

variable {f : Value → Call Value}

/-- A function that is called after a success changes the value and nothing else. -/
theorem run_map_of_success (hi : 0 ≤ i) (hlen : i ≤ s.length) (h : q.run n s i w = .ok r w')
    (hok : r.status) :
    (q.map f).run n s i w =
      (do
        let x ← Run.ofCall (f r.value)
        return { r with value := x }) w' := by
  cases n with
  | zero => cases h
  | succ n =>
      have hr := neg_one_le_furthest_of_run hi hlen h
      refine (Run.bind_of_ok h).trans ?_
      simp only [hok, if_true, Reply.ok_mergeWith_eq hr hok]
      rfl

theorem run_map_of_failure (h : q.run n s i w = .ok r w') (hfail : r.status = false) :
    (q.map f).run n s i w = .ok r w' := by
  cases n with
  | zero => cases h
  | succ n =>
      refine (Run.bind_of_ok h).trans ?_
      simp only [hfail, Bool.false_eq_true, if_false]
      rfl

theorem run_map_of_halt {halt : Halt} (h : q.run n s i w = .error halt w') :
    (q.map f).run n s i w = .error halt w' := by
  cases n with
  | zero => exact h
  | succ n => exact Run.bind_of_error h

end Maps

/-- A label changes nothing but the description of a failure. -/
theorem run_label_of_ok (h : p.run n s i w = .ok r w') (description : String) :
    (p.label description).run n s i w =
      .ok (if r.status then r else { r with expected := .singleton description }) w' := by
  cases n with
  | zero => cases h
  | succ n =>
      refine (Run.bind_of_ok h).trans ?_
      cases r.status <;> rfl

end Runs

end Parser

end Descent
