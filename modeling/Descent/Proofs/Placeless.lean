/-
# Faults without a place

A fault that reports an offset of the input comes from a loop that consumes nothing, or from a
position that there is none of. The functions and predicates of a grammar see nothing of the
input but what they are given, and a construction sees nothing of it at all. Whatever they find
wrong, they report no place of the input.
-/

import Descent.Proofs.Scope
import Descent.Proofs.Shift

namespace Descent

variable {α β : Type}

/-- Whatever is found wrong, it is the same for every place of the input. -/
def Placeless (x : Except Fault α) : Prop :=
  ∀ f, x = .error f → ∀ k, f.moved k = f

namespace Placeless

variable {x : Except Fault α}

@[simp] theorem ok (a : α) : Placeless (.ok a : Except Fault α) := by
  intro f h
  cases h

@[simp] theorem error_iff {f : Fault} :
    Placeless (.error f : Except Fault α) ↔ ∀ k, f.moved k = f := by
  simp [Placeless]

theorem error {f : Fault} (h : ∀ k, f.moved k = f) : Placeless (.error f : Except Fault α) :=
  error_iff.mpr h

theorem bind {f : α → Except Fault β} (hx : Placeless x) (hf : ∀ a, Placeless (f a)) :
    Placeless (x >>= f) := by
  cases x with
  | error fault => exact error (hx fault rfl)
  | ok a => exact hf a

theorem map (g : α → β) (hx : Placeless x) : Placeless (x.map g) := by
  cases x with
  | error fault => exact error (hx fault rfl)
  | ok a => exact ok _

end Placeless

namespace Number

theorem placeless_toFloat (a : Number) : Placeless a.toFloat := by
  cases a with
  | float x => exact .ok x
  | int n =>
      unfold toFloat
      dsimp only
      split
      · exact .ok _
      · exact .error fun _ => rfl

theorem placeless_rounded (operation : Float → Float → Float) (a b : Number) :
    Placeless (do return .float (operation (← a.toFloat) (← b.toFloat)) : Except Fault Number) :=
  .bind a.placeless_toFloat fun _ => .bind b.placeless_toFloat fun _ => .ok _

@[simp] theorem placeless_combine (exact : Int → Int → Int) (rounded : Float → Float → Float)
    (a b : Number) : Placeless (combine exact rounded a b) := by
  unfold combine
  split
  · exact .ok _
  · exact placeless_rounded rounded _ _

@[simp] theorem placeless_divide (a b : Number) : Placeless (divide a b) := by
  unfold divide
  split
  · exact .error fun _ => rfl
  · split
    · split
      · exact .ok _
      · exact .error fun _ => rfl
    · exact placeless_rounded (· / ·) _ _

@[simp] theorem placeless_power (a b : Number) : Placeless (power a b) := by
  unfold power
  split
  · split
    · exact .ok _
    · exact placeless_rounded Float.pow _ _
  · exact placeless_rounded Float.pow _ _

end Number

namespace Value

@[simp] theorem placeless_arithmetic {operation : Number → Number → Except Fault Number}
    (h : ∀ a b, Placeless (operation a b)) (v w : Value) :
    Placeless (arithmetic operation v w) := by
  unfold arithmetic
  split
  · exact .map _ (h _ _)
  · exact .error fun _ => rfl

@[simp] theorem placeless_add (v w : Value) : Placeless (v.add w) := by
  unfold add
  split
  · exact .ok _
  · exact .ok _
  · exact .ok _
  · split
    · exact .map _ (Number.placeless_combine _ _ _ _)
    · exact .error fun _ => rfl

@[simp] theorem placeless_double (v : Value) : Placeless v.double := by
  unfold double
  split
  · exact .ok _
  · exact .ok _
  · exact .ok _
  · exact placeless_arithmetic (Number.placeless_combine _ _) _ _

@[simp] theorem placeless_length (v : Value) : Placeless v.length := by
  unfold length
  split <;> first | exact .ok _ | exact .error fun _ => rfl

@[simp] theorem placeless_reversed (v : Value) : Placeless v.reversed := by
  unfold reversed
  split <;> first | exact .ok _ | exact .error fun _ => rfl

@[simp] theorem placeless_integer (v : Value) : Placeless v.integer := by
  unfold integer
  split
  · split
    · exact .ok _
    · exact .error fun _ => rfl
  · exact .ok _
  · exact .ok _
  · exact .error fun _ => rfl

@[simp] theorem placeless_joined (v : Value) : Placeless v.joined := by
  unfold joined
  split
  · exact .ok _
  · split <;> first | exact .ok _ | exact .error fun _ => rfl
  · split <;> first | exact .ok _ | exact .error fun _ => rfl
  · exact .error fun _ => rfl

@[simp] theorem placeless_dictionary (v : Value) : Placeless v.dictionary := by
  unfold dictionary
  split
  · exact .ok _
  · split <;> first | exact .ok _ | exact .error fun _ => rfl
  · split <;> first | exact .ok _ | exact .error fun _ => rfl
  · exact .error fun _ => rfl

@[simp] theorem placeless_negated (v : Value) : Placeless v.negated := by
  unfold negated
  split <;> first | exact .ok _ | exact .error fun _ => rfl

@[simp] theorem placeless_parenthesized (v w : Value) : Placeless (v.parenthesized w) := by
  unfold parenthesized
  split <;> first | exact .ok _ | exact .error fun _ => rfl

@[simp] theorem placeless_operation (v : Value) : Placeless v.operation := by
  unfold operation
  split <;> first | exact .ok _ | exact .error fun _ => rfl

theorem placeless_holds (v : Value) (c : Char) : Placeless (v.holds c) := by
  unfold holds
  split <;> first | exact .ok _ | exact .error fun _ => rfl

end Value

/-- No function of a grammar reports a place. -/
theorem Callback.placeless_apply (f : Callback) (vs : List Value) :
    Placeless (f.apply vs).result := by
  unfold apply
  split
  all_goals simp [Call.answer, Call.announce, Call.giveUp, Call.ofExcept, Fault.moved]

theorem Value.placeless_call (f : Value) (vs : List Value) : Placeless (f.call vs).result := by
  unfold call
  split
  · exact Callback.placeless_apply _ _
  · exact placeless_add _ _
  · exact .error fun _ => rfl

theorem Call.placeless_bind {c : Call α} {f : α → Call β} (hc : Placeless c.result)
    (hf : ∀ a, Placeless (f a).result) : Placeless (c >>= f).result := by
  change Placeless (c.bind f).result
  unfold bind
  split
  · next fault h => exact .error (hc fault h)
  · exact hf _

theorem Call.placeless_foldlM {f : β → α → Call β} (hf : ∀ b a, Placeless (f b a).result)
    (as : List α) (b : β) : Placeless (as.foldlM f b).result := by
  induction as generalizing b with
  | nil => exact .ok b
  | cons a as ih => exact placeless_bind (hf b a) ih

namespace Parser

theorem placeless_foldLeft (first : Value) (pairs : List Value) :
    Placeless (foldLeft first pairs).result := by
  fun_induction foldLeft first pairs with
  | case1 first => exact .ok first
  | case2 first f operand pairs ih => exact Call.placeless_bind (f.placeless_call _) ih
  | case3 => exact .error fun _ => rfl

theorem placeless_foldRight (first : Value) (pairs : List Value) :
    Placeless (foldRight first pairs).result := by
  unfold foldRight
  split
  · exact .error fun _ => rfl
  · exact Call.placeless_foldlM (fun _ _ => Value.placeless_call _ _) _ _

end Parser

theorem Predicate.placeless_test (p : Predicate) (c : Char) : Placeless (p.test c).result := by
  cases p with
  | boom => exact .error fun _ => rfl
  | _ => exact .ok _

namespace Literal

mutual

theorem placeless_eval (bindings : Bindings) : ∀ l : Literal, Placeless (l.eval bindings)
  | .value v => .ok v
  | .argument name => by
      unfold eval
      split
      · exact .ok _
      · exact .error fun _ => rfl
  | .list items => .bind (placeless_evalItems bindings items) fun _ => .ok _
  | .tuple items => .bind (placeless_evalItems bindings items) fun _ => .ok _

theorem placeless_evalItems (bindings : Bindings) :
    ∀ items : List Literal, Placeless (evalItems bindings items)
  | [] => .ok []
  | item :: items =>
      .bind (placeless_eval bindings item) fun _ =>
        .bind (placeless_evalItems bindings items) fun _ => .ok _

end

variable (bindings : Bindings) (l : Literal)

theorem placeless_text : Placeless (l.text bindings) :=
  .map _ (l.placeless_eval bindings)

theorem placeless_number : Placeless (l.number bindings) := by
  refine .bind (l.placeless_eval bindings) fun v => ?_
  split
  · exact .ok _
  · exact .error fun _ => rfl

end Literal

namespace Repetition

theorem placeless_between (least most : Number) : Placeless (between least most) := by
  have hinfinite : Placeless (isInfinite most) := by
    unfold isInfinite
    split
    · split
      · exact .ok _
      · exact .error fun _ => rfl
    · split <;> exact .ok _
  unfold between
  split
  · exact .error fun _ => rfl
  · refine .bind hinfinite fun _ => ?_
    split
    · exact .ok _
    · exact .error fun _ => rfl

theorem placeless_exactly (count : Number) : Placeless (exactly count) :=
  placeless_between count count

end Repetition

variable {bindings : Bindings}

/-- Patterns are left out: what is wrong with them is told by their reader. -/
theorem Atom.placeless_build {a : Atom}
    (h : ∀ source group options compiled, a ≠ .pattern source group options compiled) :
    Placeless (a.build bindings) := by
  cases a with
  | named n => exact .ok _
  | string s =>
      refine .bind (s.placeless_eval bindings) fun v => ?_
      unfold stringParser
      split <;> first | exact .ok _ | exact .error fun _ => rfl
  | char c => exact .bind (c.placeless_eval bindings) fun _ => .ok _
  | oneOf cs => exact .bind (cs.placeless_eval bindings) fun _ => .ok _
  | noneOf cs => exact .bind (cs.placeless_eval bindings) fun _ => .ok _
  | fail expected => exact .bind (expected.placeless_text bindings) fun _ => .ok _
  | pure v => exact .bind (v.placeless_eval bindings) fun _ => .ok _
  | trace label => exact .bind (label.placeless_text bindings) fun _ => .ok _
  | satisfy p => exact .ok _
  | takeWhile p => exact .ok _
  | pattern source group options compiled => exact (h _ _ _ _ rfl).elim

theorem Modifier.placeless_build (m : Modifier) (p : Parser) :
    Placeless (m.build bindings p) := by
  cases m with
  | result v => exact .bind (v.placeless_eval bindings) fun _ => .ok _
  | label description => exact .bind (description.placeless_text bindings) fun _ => .ok _
  | atMost n =>
      exact .bind (n.placeless_number bindings) fun _ =>
        .bind (Repetition.placeless_between _ _) fun _ => .ok _
  | atLeast n =>
      exact .bind (n.placeless_number bindings) fun _ =>
        .bind (Repetition.placeless_exactly _) fun _ => .ok _
  | times least most =>
      refine .bind (least.placeless_number bindings) fun low => .bind ?_ fun _ =>
        .bind (Repetition.placeless_between _ _) fun _ => .ok _
      cases most with
      | none => exact .ok low
      | some most => exact most.placeless_number bindings
  | count n =>
      exact .bind (n.placeless_number bindings) fun _ =>
        .bind (Repetition.placeless_exactly _) fun _ => .ok _
  | option v => exact .bind (v.placeless_eval bindings) fun _ => .ok _
  | withDefault d =>
      cases d with
      | value v => exact .bind (v.placeless_eval bindings) fun _ => .ok _
      | call f => exact .ok _
  | _ => exact .ok _

/-- The step ends in no fault that reports a place. -/
def Run.Placeless (x : Run α) : Prop :=
  ∀ w f v, x w = .error (.fault f) v → ∀ k, f.moved k = f

namespace Run.Placeless

theorem of_ok {x : Run α} (h : ∀ w, ∃ a v, x w = .ok a v) : x.Placeless := by
  intro w f v hf
  obtain ⟨a, u, hok⟩ := h w
  rw [hok] at hf
  cases hf

theorem pure (a : α) : (Pure.pure a : Run α).Placeless :=
  of_ok fun w => ⟨a, w, rfl⟩

theorem fault {f : Fault} (h : ∀ k, f.moved k = f) : (fault f : Run α).Placeless := by
  intro w _ v hf
  cases hf
  exact h

theorem ofExcept {x : Except Fault α} (h : Descent.Placeless x) : (ofExcept x).Placeless := by
  cases x with
  | ok a => exact pure a
  | error f => exact fault (h f rfl)

theorem bind {x : Run α} {f : α → Run β} (hx : x.Placeless) (hf : ∀ a, (f a).Placeless) :
    (x >>= f).Placeless := by
  intro w fault v hfault
  rcases hxw : x w with ⟨a, u⟩ | ⟨halt, u⟩
  · rw [bind_of_ok hxw] at hfault
    exact hf a u fault v hfault
  · rw [bind_of_error hxw] at hfault
    cases hfault
    exact hx w fault v hxw

theorem ofCall {call : Call α} (h : Descent.Placeless call.result) : (ofCall call).Placeless :=
  bind (of_ok fun _ => ⟨(), _, rfl⟩) fun _ => ofExcept h

theorem ite {p : Prop} [Decidable p] {x y : Run α} (hx : x.Placeless) (hy : y.Placeless) :
    (if p then x else y).Placeless := by
  split
  · exact hx
  · exact hy

theorem inOrder {steps : List (Run α)} (h : ∀ step ∈ steps, step.Placeless) :
    (Description.inOrder steps).Placeless := by
  induction steps with
  | nil => exact pure []
  | cons step steps ih =>
      obtain ⟨hstep, hsteps⟩ := List.forall_mem_cons.mp h
      exact hstep.bind fun a => (ih hsteps).bind fun _ => pure _

end Run.Placeless

/-- Building a description without patterns reports no place. -/
theorem Description.placeless_build {F : Fragment} {scope : Scope}
    (hF : ∀ source group options compiled, ¬ F.atom (.pattern source group options compiled))
    {d : Description} (hd : d.Written F scope) (bindings : Bindings) :
    (d.build bindings).Placeless := by
  have row {n : Nat} {ps : Fin n → Description} (h : ∀ k, ((ps k).build bindings).Placeless) :
      (inOrder (List.ofFn fun k => (ps k).build bindings)).Placeless := by
    apply Run.Placeless.inOrder
    intro step hstep
    obtain ⟨k, rfl⟩ := List.mem_ofFn.mp hstep
    exact h k
  induction d with
  | atom a =>
      refine .ofExcept (Atom.placeless_build fun source group options compiled heq => ?_)
      exact hF source group options compiled (heq ▸ hd)
  | wrap m d ih => exact (ih hd.2).bind fun p => .ofExcept (m.placeless_build p)
  | join j d e ihd ihe => exact (ihd hd.2.1).bind fun p => (ihe hd.2.2).bind fun q => .pure _
  | between opening closing d iho ihc ihd =>
      exact (iho hd.2.1).bind fun p => (ihc hd.2.2.1).bind fun q =>
        (ihd hd.2.2.2).bind fun r => .pure _
  | seq n ps ih => exact (row fun k => ih k (hd k)).bind fun qs => .pure _
  | alt n ps ih => exact (row fun k => ih k (hd k)).bind fun qs => .pure _
  | seqMap n ps f ih =>
      refine (row fun k => ih k (hd.2 k)).bind fun qs => ?_
      cases f with
      | none => exact .fault fun _ => rfl
      | some f => exact .pure _
  | bind d name e ihd ihe => exact (ihd hd.2.1).bind fun p => .pure _
  | choose first second d e ihd ihe =>
      refine Run.Placeless.bind (.ofExcept (first.placeless_eval bindings)) fun a =>
        Run.Placeless.bind (.ofExcept (second.placeless_eval bindings)) fun b => ?_
      split
      · exact ihd hd.1
      · exact ihe hd.2
  | known name =>
      refine Run.Placeless.bind (.of_ok fun w => ⟨w, w, rfl⟩) fun w => ?_
      cases World.lookup? name w.names with
      | none => exact .fault fun _ => rfl
      | some p => exact .pure p
  | deferred rule description =>
      refine Run.Placeless.bind (.of_ok fun _ => ⟨_, _, rfl⟩) fun handle => ?_
      cases description with
      | none => exact .pure _
      | some text => exact .pure _

end Descent
