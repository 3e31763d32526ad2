/-
# Comparing two runs

Two runs are compared step by step. One of them is made within a fixed budget; the
other one is a family of runs, one for each budget, and counts as ended if it ends
in the same way for all large budgets. Whenever the first run ends, the second has
to end too, with a result that matches and in a world that corresponds.

What corresponds may depend on the worlds themselves, for example on which rule a
handle belongs to. A comparison therefore also says which worlds may come after a
world, and what is known about two worlds stays known in all worlds after them.
-/

import Descent.Proofs.Run
import Mathlib.Order.Filter.AtTopBot.Basic

namespace Descent

open Filter

/-- What is compared in the course of two runs: which worlds correspond, which
world may come after which, and which faults match. -/
structure Comparison where
  related : World → World → Prop
  later : World → World → Prop
  faults : Fault → Fault → Prop
  later_refl : ∀ w, later w w
  later_trans : ∀ {u v w}, later u v → later v w → later u w

namespace Comparison

variable {α β γ δ : Type} (c : Comparison)

/-- Two corresponding worlds that come after two given ones. -/
structure Reaches (w w' v v' : World) : Prop where
  related : c.related v v'
  left : c.later w v
  right : c.later w' v'

/-- Two results match: both are answers with a condition on them, or both are
faults. -/
inductive Matches (post : World → World → α → β → Prop) (w w' : World) :
    EStateM.Result Halt World α → EStateM.Result Halt World β → Prop
  | ok {a : α} {b : β} {v v' : World} (reach : c.Reaches w w' v v') (meets : post v v' a b) :
      Matches post w w' (.ok a v) (.ok b v')
  | fault {f f' : Fault} {v v' : World} (reach : c.Reaches w w' v v') (same : c.faults f f') :
      Matches post w w' (.error (.fault f) v) (.error (.fault f') v')

/-- If the first run ends, then the second one ends for all large budgets, and the
results match. -/
def Follows (post : World → World → α → β → Prop) (x : Run α) (y : Nat → Run β)
    (w w' : World) : Prop :=
  (∃ v, x w = .error .unfinished v) ∨
    ∃ result, c.Matches post w w' (x w) result ∧ ∀ᶠ n in atTop, y n w' = result

variable {c} {w w' v v' u u' : World}

theorem Reaches.refl (h : c.related w w') : c.Reaches w w' w w' :=
  ⟨h, c.later_refl w, c.later_refl w'⟩

theorem Reaches.trans (h : c.Reaches w w' v v') (h' : c.Reaches v v' u u') :
    c.Reaches w w' u u' :=
  ⟨h'.related, c.later_trans h.left h'.left, c.later_trans h.right h'.right⟩

/-- Results that match after further steps match after all of them. -/
theorem Matches.before {post : World → World → α → β → Prop}
    {result : EStateM.Result Halt World α} {result' : EStateM.Result Halt World β}
    (h : c.Matches post v v' result result') (hv : c.later w v) (hv' : c.later w' v') :
    c.Matches post w w' result result' := by
  cases h with
  | ok reach meets =>
      exact .ok ⟨reach.related, c.later_trans hv reach.left, c.later_trans hv' reach.right⟩ meets
  | fault reach same =>
      exact .fault ⟨reach.related, c.later_trans hv reach.left, c.later_trans hv' reach.right⟩ same

namespace Follows

variable {post : World → World → α → β → Prop} {x : Run α} {y : Nat → Run β}

/-- Runs that both end with an answer. -/
theorem of_ok {a : α} {b : β} (hx : x w = .ok a v) (hy : ∀ᶠ n in atTop, y n w' = .ok b v')
    (hreach : c.Reaches w w' v v') (h : post v v' a b) : c.Follows post x y w w' := by
  refine .inr ⟨.ok b v', ?_, hy⟩
  rw [hx]
  exact .ok hreach h

/-- Runs that both end in a fault. -/
theorem of_fault {f f' : Fault} (hx : x w = .error (.fault f) v)
    (hy : ∀ᶠ n in atTop, y n w' = .error (.fault f') v') (hreach : c.Reaches w w' v v')
    (h : c.faults f f') : c.Follows post x y w w' := by
  refine .inr ⟨.error (.fault f') v', ?_, hy⟩
  rw [hx]
  exact .fault hreach h

/-- After an answer of the first run there is one of the second. -/
theorem exists_of_ok {a : α} (h : c.Follows post x y w w') (hx : x w = .ok a v) :
    ∃ b v', (∀ᶠ n in atTop, y n w' = .ok b v') ∧ c.Reaches w w' v v' ∧ post v v' a b := by
  rcases h with ⟨u, hu⟩ | ⟨result, hmatch, hy⟩
  · cases hx.symm.trans hu
  · rw [hx] at hmatch
    cases hmatch with
    | ok hreach hpost => exact ⟨_, _, hy, hreach, hpost⟩

/-- After a fault of the first run there is one of the second. -/
theorem exists_of_fault {f : Fault} (h : c.Follows post x y w w')
    (hx : x w = .error (.fault f) v) :
    ∃ f' v', (∀ᶠ n in atTop, y n w' = .error (.fault f') v') ∧ c.Reaches w w' v v' ∧
      c.faults f f' := by
  rcases h with ⟨u, hu⟩ | ⟨result, hmatch, hy⟩
  · cases hx.symm.trans hu
  · rw [hx] at hmatch
    cases hmatch with
    | fault hreach hfault => exact ⟨_, _, hy, hreach, hfault⟩

theorem pure {a : α} {b : β} (hrelated : c.related w w') (h : post w w' a b) :
    c.Follows post (Pure.pure a) (fun _ => Pure.pure b) w w' :=
  of_ok rfl (.of_forall fun _ => rfl) (.refl hrelated) h

theorem fault {f f' : Fault} (hrelated : c.related w w') (h : c.faults f f') :
    c.Follows post (Run.fault f) (fun _ => Run.fault f') w w' :=
  of_fault rfl (.of_forall fun _ => rfl) (.refl hrelated) h

/-- Nothing has to be shown of a run that does not end within its budget. -/
theorem unfinished : c.Follows post Run.unfinished y w w' :=
  .inl ⟨w, rfl⟩

/-- What the first steps come to is what the further steps may rely on. -/
theorem bind {mid : World → World → γ → δ → Prop} {x : Run γ} {y : Nat → Run δ}
    {f : γ → Run α} {g : Nat → δ → Run β} (hx : c.Follows mid x y w w')
    (hf : ∀ v v' a b, c.Reaches w w' v v' → mid v v' a b →
      c.Follows post (f a) (fun n => g n b) v v') :
    c.Follows post (x >>= f) (fun n => y n >>= g n) w w' := by
  rcases hx with ⟨v, hv⟩ | ⟨result, hmatch, hy⟩
  · exact .inl ⟨v, Run.bind_of_error hv⟩
  · generalize hxw : x w = first at hmatch
    cases hmatch with
    | ok hreach hmid =>
        have hbind := Run.bind_of_ok (f := f) hxw
        rcases hf _ _ _ _ hreach hmid with ⟨u, hu⟩ | ⟨result, hmatch, hg⟩
        · exact .inl ⟨u, hbind.trans hu⟩
        · refine .inr ⟨result, ?_, ?_⟩
          · rw [hbind]
            exact hmatch.before hreach.left hreach.right
          · filter_upwards [hy, hg] with n hyn hgn
            rw [Run.bind_of_ok hyn, hgn]
    | fault hreach hfault =>
        refine of_fault (Run.bind_of_error hxw) ?_ hreach hfault
        filter_upwards [hy] with n hyn
        exact Run.bind_of_error hyn

/-- Both runs look at their worlds. -/
theorem get {f : World → Run α} {g : Nat → World → Run β}
    (h : c.Follows post (f w) (fun n => g n w') w w') :
    c.Follows post (get >>= f) (fun n => get >>= g n) w w' :=
  h

/-- Runs that go on like others in later worlds. -/
theorem shift {x₂ : Run α} {y₂ : Nat → Run β} (h : c.Follows post x y v v') (hv : c.later w v)
    (hv' : c.later w' v') (hx : x₂ w = x v) (hy : ∀ᶠ n in atTop, y₂ n w' = y n v') :
    c.Follows post x₂ y₂ w w' := by
  rcases h with ⟨u, hu⟩ | ⟨result, hmatch, hresult⟩
  · exact .inl ⟨u, hx.trans hu⟩
  · refine .inr ⟨result, ?_, ?_⟩
    · rw [hx]
      exact hmatch.before hv hv'
    · filter_upwards [hresult, hy] with n hn hyn
      rw [hyn, hn]

/-- Of the first run only what it does in the given world counts, and of the second
one only what it does there for large budgets. -/
theorem congr {x₂ : Run α} {y₂ : Nat → Run β} (h : c.Follows post x y w w')
    (hx : x₂ w = x w) (hy : ∀ᶠ n in atTop, y₂ n w' = y n w') : c.Follows post x₂ y₂ w w' :=
  h.shift (c.later_refl w) (c.later_refl w') hx hy

/-- A step of the first run alone. -/
theorem step_left {x : Run γ} {f : γ → Run α} {a : γ} (hx : x w = .ok a v) (hv : c.later w v)
    (h : c.Follows post (f a) y v w') : c.Follows post (x >>= f) y w w' :=
  h.shift hv (c.later_refl w') (Run.bind_of_ok hx) (.of_forall fun _ => rfl)

/-- A step of the second run alone. -/
theorem step_right {z : Run δ} {g : Nat → δ → Run β} {b : δ} (hz : z w' = .ok b v')
    (hv : c.later w' v') (h : c.Follows post x (fun n => g n b) w v') :
    c.Follows post x (fun n => z >>= g n) w w' :=
  h.shift (c.later_refl w) hv rfl (.of_forall fun _ => Run.bind_of_ok hz)

/-- Some more budget makes no difference for large budgets. -/
theorem of_add (k : Nat) (h : c.Follows post x (fun n => y (n + k)) w w') :
    c.Follows post x y w w' := by
  refine h.imp_right fun ⟨result, hmatch, hy⟩ => ⟨result, hmatch, ?_⟩
  rw [← map_add_atTop_eq_nat k]
  exact hy

/-- One more step of budget makes no difference for large budgets. -/
theorem of_succ (h : c.Follows post x (fun n => y (n + 1)) w w') : c.Follows post x y w w' :=
  of_add 1 h

theorem succ (h : c.Follows post x y w w') : c.Follows post x (fun n => y (n + 1)) w w' := by
  refine h.imp_right fun ⟨result, hmatch, hy⟩ => ⟨result, hmatch, ?_⟩
  rw [← map_add_atTop_eq_nat 1] at hy
  exact hy

/-- A choice that both runs make in the same way. -/
theorem ite {p p' : Prop} [Decidable p] [Decidable p'] {x₂ : Run α} {y₂ : Nat → Run β}
    (hiff : p ↔ p') (hthen : p → c.Follows post x y w w')
    (helse : ¬ p → c.Follows post x₂ y₂ w w') :
    c.Follows post (if p then x else x₂) (fun n => if p' then y n else y₂ n) w w' := by
  by_cases hp : p
  · simp only [if_pos hp, if_pos (hiff.mp hp)]
    exact hthen hp
  · simp only [if_neg hp, if_neg (hiff.not.mp hp)]
    exact helse hp

/-- The answer of the first run is changed. -/
theorem map_left {post₂ : World → World → γ → β → Prop} {f : α → γ} (h : c.Follows post x y w w')
    (hf : ∀ v v' a b, post v v' a b → post₂ v v' (f a) b) :
    c.Follows post₂ (x >>= fun a => Pure.pure (f a)) y w w' := by
  rcases h with ⟨u, hu⟩ | ⟨result, hmatch, hy⟩
  · exact .inl ⟨u, Run.bind_of_error hu⟩
  · generalize hx : x w = first at hmatch
    cases hmatch with
    | ok reach meets => exact .of_ok (Run.bind_of_ok hx) hy reach (hf _ _ _ _ meets)
    | fault reach same => exact .of_fault (Run.bind_of_error hx) hy reach same

/-- The answer of the second run is changed. -/
theorem map_right {post₂ : World → World → α → δ → Prop} {g : β → δ} (h : c.Follows post x y w w')
    (hg : ∀ v v' a b, post v v' a b → post₂ v v' a (g b)) :
    c.Follows post₂ x (fun n => y n >>= fun b => Pure.pure (g b)) w w' := by
  rcases h with ⟨u, hu⟩ | ⟨result, hmatch, hy⟩
  · exact .inl ⟨u, hu⟩
  · generalize hx : x w = first at hmatch
    cases hmatch with
    | ok reach meets =>
        exact .of_ok hx (hy.mono fun _ hn => Run.bind_of_ok hn) reach (hg _ _ _ _ meets)
    | fault reach same =>
        exact .of_fault hx (hy.mono fun _ hn => Run.bind_of_error hn) reach same

/-- What a comparison says of two runs is carried over to another one, with all that is known
of the first run. -/
theorem transfer {c₂ : Comparison} {post₂ : World → World → α → β → Prop}
    (h : c.Follows post x y w w')
    (hok : ∀ a b v v', x w = .ok a v → c.Reaches w w' v v' → post v v' a b →
      c₂.Reaches w w' v v' ∧ post₂ v v' a b)
    (hfault : ∀ f f' v v', x w = .error (.fault f) v → c.Reaches w w' v v' → c.faults f f' →
      c₂.Reaches w w' v v' ∧ c₂.faults f f') : c₂.Follows post₂ x y w w' := by
  refine h.imp_right fun ⟨result, hmatch, hresult⟩ => ⟨result, ?_, hresult⟩
  generalize hx : x w = first at hmatch
  cases hmatch with
  | ok reach meets =>
      obtain ⟨hreach, hpost⟩ := hok _ _ _ _ hx reach meets
      exact .ok hreach hpost
  | fault reach same =>
      obtain ⟨hreach, hsame⟩ := hfault _ _ _ _ hx reach same
      exact .fault hreach hsame

/-- What a comparison says of two runs, another one says that asks for less. -/
theorem weaken {c₂ : Comparison} {post₂ : World → World → α → β → Prop}
    (h : c.Follows post x y w w')
    (hreach : ∀ v v', c.Reaches w w' v v' → c₂.Reaches w w' v v')
    (hfaults : ∀ f f', c.faults f f' → c₂.faults f f')
    (hpost : ∀ v v' a b, post v v' a b → post₂ v v' a b) : c₂.Follows post₂ x y w w' :=
  h.transfer (fun _ _ _ _ _ reach meets => ⟨hreach _ _ reach, hpost _ _ _ _ meets⟩)
    (fun _ _ _ _ _ reach same => ⟨hreach _ _ reach, hfaults _ _ same⟩)

end Follows

/-- Noting the same events in corresponding worlds keeps them so, and a fault matches
itself. -/
structure Notes (c : Comparison) : Prop where
  noted : ∀ {w w'} events, c.related w w' → c.Reaches w w' (w.noted events) (w'.noted events)
  same_fault : ∀ f, c.faults f f

/-- Corresponding worlds have the same threshold as well. -/
structure Accompanies (c : Comparison) : Prop extends c.Notes where
  threshold_eq : ∀ {w w'}, c.related w w' → w.threshold = w'.threshold

/-- A call has the same effect in corresponding worlds. -/
def Repeats (c : Comparison) (call : Call α) : Prop :=
  ∀ {w w'}, c.related w w' →
    c.Follows (fun _ _ a b => a = b) (Run.ofCall call) (fun _ => Run.ofCall call) w w'

theorem Notes.ofCall (hc : c.Notes) (call : Call α) : c.Repeats call := by
  intro w w' hrelated
  have hnoted := hc.noted call.events hrelated
  rcases hcall : call.result with f | a
  · exact .of_fault (Run.ofCall_of_error hcall w) (.of_forall fun _ => Run.ofCall_of_error hcall w')
      hnoted (hc.same_fault f)
  · exact .of_ok (Run.ofCall_of_ok hcall w) (.of_forall fun _ => Run.ofCall_of_ok hcall w')
      hnoted rfl

/-- A plain step has the same effect in corresponding worlds. -/
theorem Accompanies.plain (hc : c.Accompanies) {x : Run α} (hx : x.Plain)
    (hrelated : c.related w w') :
    c.Follows (fun _ _ a b => a = b) x (fun _ => x) w w' := by
  obtain ⟨call, hcall⟩ := hx w.threshold
  refine (hc.ofCall call hrelated).congr (hcall w rfl) (.of_forall fun _ => ?_)
  exact hcall w' (hc.threshold_eq hrelated).symm

/-- Plain steps made of the same answer come to the same. -/
theorem Accompanies.bind_plain (hc : c.Accompanies) {x : Run α} {y : Nat → Run α}
    {f : α → Run β} (hx : c.Follows (fun _ _ a b => a = b) x y w w') (hf : ∀ a, (f a).Plain) :
    c.Follows (fun _ _ a b => a = b) (x >>= f) (fun n => y n >>= f) w w' := by
  apply hx.bind
  rintro v v' a _ hreach rfl
  exact hc.plain (hf a) hreach.related

end Comparison

end Descent
