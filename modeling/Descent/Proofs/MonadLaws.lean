/-
# Laws of binding and mapping

Parsers form a monad, and this holds of their replies as a whole: of the furthest failure
and what was expected there as well as of the value and the index. Regrouping binds only
regroups the merging of replies. The parsers that a run starts and the events that functions
announce keep their order, so the two sides of a law also end in the same fault.
-/

import Descent.Proofs.Course

namespace Descent

namespace Action

variable {m : Type → Type} [Monad m] [LawfulMonad m]

/-- In a row of three actions it does not matter which two are joined first. -/
protected theorem bind_assoc (p : ActionIn m) (f g : Value → ActionIn m) :
    bind (bind p f) g = bind p fun v => bind (f v) g := by
  funext s i
  simp only [bind, bind_assoc]
  refine bind_congr fun first => ?_
  cases hfirst : first.status with
  | false => simp [hfirst]
  | true =>
      simp only [if_true, bind_assoc]
      refine bind_congr fun second => ?_
      cases hsecond : second.status with
      | false => simp [hsecond]
      | true => simp [hsecond, Reply.mergeWith_assoc]

variable [MonadLiftT Run m] [LawfulMonadLiftT Run m]

/-- A value may be put aside for a function that is called at once. -/
theorem bind_map_succeed (p : ActionIn m) (kept : Value → Value) (f : Value → Value → Call Value) :
    (bind p fun v => map (lift (succeed (kept v))) (f v)) = map p fun v => f v (kept v) := by
  funext s i
  simp only [map, bind]
  refine bind_congr fun reply => ?_
  cases reply.status with
  | false => rfl
  | true => simp [lift, succeed, Reply.ok_mergeWith_ok]

/-- To map the value of an action is to go on with an action that computes it. -/
theorem map_eq_bind (p : ActionIn m) (f : Value → Call Value) :
    map p f = bind p fun v => map (lift (succeed .null)) fun _ => f v :=
  (bind_map_succeed p (fun _ => .null) fun v _ => f v).symm

theorem map_bind (p : ActionIn m) (f : Value → ActionIn m) (g : Value → Call Value) :
    map (bind p f) g = bind p fun v => map (f v) g := by
  simp only [map_eq_bind _ g, Action.bind_assoc]

theorem map_answer_eq_bind (p : ActionIn m) (f : Value → Value) :
    (map p fun v => .answer (f v)) = bind p fun v => lift (succeed (f v)) := by
  funext s i
  have hcall (v : Value) : Run.ofCall (.answer v) = pure v := rfl
  simp [map, bind, lift, succeed, hcall]

/-- Two functions one after the other are a single one, whose calls are made in this order. -/
protected theorem map_map (p : ActionIn m) (f g : Value → Call Value) :
    map (map p f) g = map p fun v => (f v).bind g := by
  funext s i
  simp only [map, bind_assoc]
  refine bind_congr fun reply => ?_
  cases hreply : reply.status with
  | false => simp [hreply]
  | true => simp [Run.ofCall_bind, Reply.ok_mergeWith_ok_mergeWith]

end Action

namespace Watched

variable {x : Watched Reply} (hx : ∀ w r w', (x w).2 = .ok r w' → -1 ≤ r.furthest)

include hx

/-- A success in front that met no failure leaves no trace in the replies that follow. -/
theorem bind_mergeWith_ok (i : Int) (v : Value) :
    (x >>= fun r => pure (r.mergeWith (.ok i v))) = x := by
  calc
    _ = x >>= pure := bind_congr_of_ok fun w r w' hr => by
          rw [Reply.mergeWith_ok r (hx w r w' hr)]
    _ = x := bind_pure x

/-- A success may be given its own value once more. -/
theorem bind_ok_mergeWith_self :
    (x >>= fun r => if r.status then pure ((Reply.ok r.index r.value).mergeWith r)
      else pure r) = x := by
  calc
    _ = x >>= pure := bind_congr_of_ok fun w r w' hr => by
          split
          · next hok => rw [Reply.ok_mergeWith_self r (hx w r w' hr) hok]
          · rfl
    _ = x := bind_pure x

end Watched

namespace Parser

/-- The value of a call, without consuming anything. -/
def computed (c : Call Value) : Parser :=
  (Parser.pure .null).map fun _ => c

namespace SameCourse

variable {joint : Parser → Bool} {s : Text} {i : Int}

protected theorem pure_bind (hpure : ∀ v, joint (.pure v)) (hbind : ∀ p f, joint (.bind p f))
    (hi : 0 ≤ i) (hlen : i ≤ s.length) (v : Value) (f : Value → Parser) :
    SameCourse joint s i ((Parser.pure v).bind f) (f v) := by
  refine .of_outline fun n => ?_
  rw [outline_bind (hbind _ _), outline_pure (hpure v)]
  exact Watched.bind_mergeWith_ok (fun w r w' hr => neg_one_le_furthest hi hlen hr) i v

protected theorem bind_pure (hpure : ∀ v, joint (.pure v)) (hbind : ∀ p f, joint (.bind p f))
    (hi : 0 ≤ i) (hlen : i ≤ s.length) (m : Parser) :
    SameCourse joint s i (m.bind .pure) m := by
  refine .of_outline fun n => ?_
  simp only [outline_bind (hbind _ _), outline_pure (hpure _)]
  exact Watched.bind_ok_mergeWith_self fun w r w' hr => neg_one_le_furthest hi hlen hr

protected theorem bind_assoc (hbind : ∀ p f, joint (.bind p f)) (m : Parser)
    (f g : Value → Parser) :
    SameCourse joint s i ((m.bind f).bind g) (m.bind fun x => (f x).bind g) := by
  refine .of_outline fun n => ?_
  simp only [outline_bind (hbind _ _), Action.bind_assoc]

theorem map_eq_bind (hpure : ∀ v, joint (.pure v)) (hbind : ∀ p f, joint (.bind p f))
    (hmap : ∀ p f, joint (.map p f)) (m : Parser) (h : Value → Call Value) :
    SameCourse joint s i (m.map h) (m.bind fun x => computed (h x)) := by
  refine .of_outline fun n => ?_
  simp only [computed, outline_bind (hbind _ _), outline_map (hmap _ _), outline_pure (hpure _)]
  rw [Action.map_eq_bind]

theorem map_answer_eq_bind (hpure : ∀ v, joint (.pure v)) (hbind : ∀ p f, joint (.bind p f))
    (hmap : ∀ p f, joint (.map p f)) (m : Parser) (h : Value → Value) :
    SameCourse joint s i (m.map fun x => .answer (h x)) (m.bind fun x => .pure (h x)) := by
  refine .of_outline fun n => ?_
  simp only [outline_bind (hbind _ _), outline_map (hmap _ _), outline_pure (hpure _)]
  rw [Action.map_answer_eq_bind]

protected theorem map_map (hmap : ∀ p f, joint (.map p f)) (m : Parser) (h k : Value → Call Value) :
    SameCourse joint s i ((m.map h).map k) (m.map fun x => (h x).bind k) := by
  refine .of_outline fun n => ?_
  simp only [outline_map (hmap _ _), Action.map_map]

end SameCourse

/-- Whether a parser only yields a value, or binds or maps that of another one. -/
def isMonadic : Parser → Bool
  | .pure _ | .bind _ _ | .map _ _ => true
  | _ => false

/-- The laws of a monad, and how mapping fits in with them, hold of whole replies. Each pair
of parsers takes the same course at every offset of every input: the replies are the same in
all respects, or else the fault is, and the parsers other than values, binds and maps are
started at the same offsets in the same order. The functions given to `map` may announce
events and may give up. -/
theorem monad_laws (m : Parser) (f g : Value → Parser) (h k : Value → Call Value)
    (total : Value → Value) (v : Value) (s : Text) (i : Int) (hi : 0 ≤ i) (hlen : i ≤ s.length) :
    SameCourse isMonadic s i ((Parser.pure v).bind f) (f v) ∧
    SameCourse isMonadic s i (m.bind .pure) m ∧
    SameCourse isMonadic s i ((m.bind f).bind g) (m.bind fun x => (f x).bind g) ∧
    SameCourse isMonadic s i (m.map h) (m.bind fun x => computed (h x)) ∧
    SameCourse isMonadic s i (m.map fun x => .answer (total x)) (m.bind fun x => .pure (total x)) ∧
    SameCourse isMonadic s i ((m.map h).map k) (m.map fun x => (h x).bind k) := by
  have hpure (v : Value) : isMonadic (.pure v) := rfl
  have hbind (p : Parser) (f : Value → Parser) : isMonadic (.bind p f) := rfl
  have hmap (p : Parser) (f : Value → Call Value) : isMonadic (.map p f) := rfl
  exact ⟨.pure_bind hpure hbind hi hlen v f, .bind_pure hpure hbind hi hlen m,
    .bind_assoc hbind m f g, .map_eq_bind hpure hbind hmap m h,
    .map_answer_eq_bind hpure hbind hmap m total, .map_map hmap m h k⟩

/-- Binds that are regrouped around a failure: the first parser met one at offset 0 before it
succeeded, and the last one fails at offset 2. -/
theorem monad_laws_of_late_failure :
    let m := (Parser.string "b").orElse (.string "a")
    let f : Value → Parser := fun v => Parser.anyChar.map fun u => .answer (.list [v, u])
    let g : Value → Parser := fun _ => (Parser.string "c").label "the last"
    let s := ['a', 'b', 'd']
    (0 ≤ (0 : Int) ∧ (0 : Int) ≤ s.length) ∧
    (∃ r w', ((m.bind f).bind g).run 1 s 0 {} = .ok r w' ∧
      r.furthest = 2 ∧ r.expected.toList = ["the last"]) ∧
    SameCourse isMonadic s 0 ((m.bind f).bind g) (m.bind fun x => (f x).bind g) := by
  refine ⟨by decide, ⟨_, _, rfl, rfl, rfl⟩, ?_⟩
  exact (monad_laws _ _ _ (fun _ => .giveUp .mismatch) (fun _ => .giveUp .mismatch) id .null
    _ 0 (by decide) (by decide)).2.2.1

end Parser

end Descent
