/-
# Steps that nothing depends on

A step is inert if it comes to its end in every world, always with the same answer, and leaves
nothing behind but entries in the journal. Writing a trace inside the input is such a step:
whether a record passes depends on the threshold, but the step ends in either case. Where a
comparison overlooks the journal, an inert step may be made by one of two runs alone. Traces
around a parser then make no difference, and a trace by itself is as good as an absent value.
-/

import Descent.Proofs.Outcome
import Descent.Proofs.Revision

namespace Descent

variable {α β γ : Type}

namespace Action

variable {s : Text} {i : Int}

/-- Inside the input there is always a position to write down. -/
theorem inert_writeTrace (label : String) (hi : 0 ≤ i) (hlen : i ≤ s.length) :
    (writeTrace label s i).Inert () := by
  obtain ⟨position, hlocate, -⟩ := Position.exists_locate_eq hi hlen
  unfold writeTrace
  rw [hlocate]
  exact .bind (.pure position) (.record _ _ _)

theorem inert_trace (label : String) (hi : 0 ≤ i) (hlen : i ≤ s.length) :
    (trace label s i).Inert (.ok i .null) := by
  intro w
  have hinert : Run.Inert (if Level.debug.passes w.threshold = true then
      writeTrace label s i >>= fun _ => pure (Reply.ok i .null) else pure (.ok i .null))
      (.ok i .null) :=
    .ite ((inert_writeTrace label hi hlen).bind (.pure _)) (.pure _)
  exact hinert w

/-- What is done around a traced action, in a world where traces are written or not. -/
theorem traced_apply (label : String) (act : Action) (s : Text) (i : Int) (w : World) :
    traced label act s i w =
      ((if Level.debug.passes w.threshold = true then writeTrace label s i else pure ()) >>=
        fun _ => act s i >>= fun r =>
          if (Level.debug.passes w.threshold && !r.status) = true then
            writeTrace (label ++ " backtracked") s i >>= fun _ => pure r
          else pure r) w := by
  change (if Level.debug.passes w.threshold = true then _ else _ : Run Reply) w = _
  split
  · rfl
  · rfl

end Action

namespace Comparison

/-- Corresponding worlds stay so if events are noted in one of them alone. -/
structure Overlooks (c : Comparison) : Prop where
  left : ∀ {w w'} events, c.related w w' → c.Reaches w w' (w.noted events) w'
  right : ∀ {w w'} events, c.related w w' → c.Reaches w w' w (w'.noted events)

namespace Overlooks

variable {c : Comparison} {w w' : World} {post : World → World → α → β → Prop} (hc : c.Overlooks)

include hc

/-- The first run makes an inert step alone. -/
theorem step_left {x : Run γ} {f : γ → Run α} {y : Nat → Run β} {a : γ} (hx : x.Inert a)
    (hrelated : c.related w w')
    (h : ∀ v v', c.Reaches w w' v v' → c.Follows post (f a) y v v') :
    c.Follows post (x >>= f) y w w' := by
  obtain ⟨events, hx⟩ := hx w
  have hreach := hc.left events hrelated
  exact .step_left hx hreach.left (h _ _ hreach)

/-- The second run makes an inert step alone. -/
theorem step_right {x : Run α} {y : Run γ} {g : Nat → γ → Run β} {b : γ} (hy : y.Inert b)
    (hrelated : c.related w w')
    (h : ∀ v v', c.Reaches w w' v v' → c.Follows post x (fun n => g n b) v v') :
    c.Follows post x (fun n => y >>= g n) w w' := by
  obtain ⟨events, hy⟩ := hy w'
  have hreach := hc.right events hrelated
  exact .step_right hy hreach.right (h _ _ hreach)

/-- Both runs make an inert step, not necessarily the same. -/
theorem inert {x : Run α} {y : Run β} {a : α} {b : β} (hx : x.Inert a) (hy : y.Inert b)
    (hrelated : c.related w w') {R : α → β → Prop} (h : R a b) :
    c.Follows (fun _ _ => R) x (fun _ => y) w w' := by
  obtain ⟨events, hx⟩ := hx w
  obtain ⟨events', hy⟩ := hy w'
  have hleft := hc.left events hrelated
  exact .of_ok hx (.of_forall fun _ => hy) (hleft.trans (hc.right events' hleft.related)) h

/-- The first run goes on alone and keeps its answer. -/
theorem after_left {x : Run α} {y : Nat → Run β} {f : α → Run α} {R : α → β → Prop}
    (h : c.Follows (fun _ _ => R) x y w w') (hf : ∀ a, (f a).Inert a) :
    c.Follows (fun _ _ => R) (x >>= f) y w w' := by
  rcases h with ⟨u, hu⟩ | ⟨result, hmatch, hy⟩
  · exact .inl ⟨u, Run.bind_of_error hu⟩
  · generalize hx : x w = first at hmatch
    cases hmatch with
    | ok reach meets =>
        obtain ⟨events, hend⟩ := hf _ _
        have hfurther := reach.trans (hc.left events reach.related)
        exact .of_ok ((Run.bind_of_ok hx).trans hend) hy hfurther meets
    | fault reach same => exact .of_fault (Run.bind_of_error hx) hy reach same

/-- The second run goes on alone and keeps its answer. -/
theorem after_right {x : Run α} {y : Nat → Run β} {g : β → Run β} {R : α → β → Prop}
    (h : c.Follows (fun _ _ => R) x y w w') (hg : ∀ b, (g b).Inert b) :
    c.Follows (fun _ _ => R) x (fun n => y n >>= g) w w' := by
  rcases h with ⟨u, hu⟩ | ⟨result, hmatch, hy⟩
  · exact .inl ⟨u, hu⟩
  · generalize hx : x w = first at hmatch
    cases hmatch with
    | ok reach meets =>
        obtain ⟨events, hend⟩ := hg _ _
        have hfurther := reach.trans (hc.right events reach.related)
        exact .of_ok hx (hy.mono fun _ hn => (Run.bind_of_ok hn).trans hend) hfurther meets
    | fault reach same =>
        exact .of_fault hx (hy.mono fun _ hn => Run.bind_of_error hn) reach same

end Overlooks

/-- Traces around an action make no difference inside the inputs. -/
theorem harmless_traced {c : Comparison} (hc : c.Overlooks) {s s' : Text} {L : Likeness s s'}
    (hinside : ∀ {i i'}, L.offsets i i' → (0 ≤ i ∧ i ≤ s.length) ∧ 0 ≤ i' ∧ i' ≤ s'.length)
    (label : String) : c.Harmless L (Action.traced label) where
  left {act y i i' w w'} hrelated hi h := by
    obtain ⟨⟨hlo, hhi⟩, -⟩ := hinside hi
    have write (text : String) := Action.inert_writeTrace (s := s) text hlo hhi
    refine Follows.congr ?_ (Action.traced_apply label act s i w) (.of_forall fun _ => rfl)
    refine hc.step_left (.ite (write label) (.pure ())) hrelated fun v v' hreach => ?_
    exact hc.after_left (h v v' hreach) fun r => .ite ((write _).bind (.pure r)) (.pure r)
  right {x act i i' w w'} hrelated hi h := by
    obtain ⟨-, hlo, hhi⟩ := hinside hi
    have write (text : String) := Action.inert_writeTrace (s := s') text hlo hhi
    refine Follows.congr ?_ rfl (.of_forall fun n => Action.traced_apply label (act n) s' i' w')
    refine hc.step_right (.ite (write label) (.pure ())) hrelated fun v v' hreach => ?_
    exact hc.after_right (h v v' hreach) fun r => .ite ((write _).bind (.pure r)) (.pure r)

end Comparison

end Descent
