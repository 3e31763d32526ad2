/-
# Runs that settle

A run is given a budget, and what it comes to must not depend on how large the budget
is. A family of runs, one for each budget, settles if all large budgets lead to the
same end, be it an answer or a fault. Runs that settle can be put one after another,
so what a parser comes to is read off its parts.
-/

import Descent.Proofs.Run
import Mathlib.Order.Filter.AtTopBot.Basic

namespace Descent

open Filter

variable {α β : Type}

namespace Run

/-- For all large budgets a run ends in the same way: with an answer that meets `post`,
or in a fault that is allowed. -/
def Settles (faults : Fault → Prop) (post : α → World → Prop) (y : Nat → Run α)
    (w : World) : Prop :=
  (∃ a v, post a v ∧ ∀ᶠ n in atTop, y n w = .ok a v) ∨
    ∃ f v, faults f ∧ ∀ᶠ n in atTop, y n w = .error (.fault f) v

namespace Settles

variable {faults : Fault → Prop} {post post' : α → World → Prop} {y y' : Nat → Run α} {w : World}

theorem of_ok {a : α} {v : World} (h : ∀ n, y n w = .ok a v) (hpost : post a v) :
    Settles faults post y w :=
  .inl ⟨a, v, hpost, .of_forall h⟩

theorem of_fault {f : Fault} {v : World} (h : ∀ n, y n w = .error (.fault f) v)
    (hfault : faults f) : Settles faults post y w :=
  .inr ⟨f, v, hfault, .of_forall h⟩

theorem pure {a : α} (h : post a w) : Settles faults post (fun _ => Pure.pure a) w :=
  of_ok (fun _ => rfl) h

theorem fault {f : Fault} (h : faults f) : Settles faults post (fun _ => Run.fault f) w :=
  of_fault (fun _ => rfl) h

/-- What the first steps come to is what the further steps may rely on. -/
theorem bind {mid : β → World → Prop} {x : Nat → Run β} {f : Nat → β → Run α}
    (hx : Settles faults mid x w)
    (hf : ∀ b v, mid b v → Settles faults post (fun n => f n b) v) :
    Settles faults post (fun n => x n >>= f n) w := by
  rcases hx with ⟨b, v, hmid, hx⟩ | ⟨fault, v, hfault, hx⟩
  · rcases hf b v hmid with ⟨a, u, hpost, hend⟩ | ⟨fault, u, hfault, hend⟩
    · refine .inl ⟨a, u, hpost, ?_⟩
      filter_upwards [hx, hend] with n hxn hn
      rw [bind_of_ok hxn, hn]
    · refine .inr ⟨fault, u, hfault, ?_⟩
      filter_upwards [hx, hend] with n hxn hn
      rw [bind_of_ok hxn, hn]
  · refine .inr ⟨fault, v, hfault, ?_⟩
    filter_upwards [hx] with n hxn
    exact bind_of_error hxn

theorem mono (h : Settles faults post y w) (hpost : ∀ a v, post a v → post' a v) :
    Settles faults post' y w :=
  h.imp_left fun ⟨a, v, ha, hend⟩ => ⟨a, v, hpost a v ha, hend⟩

/-- A choice that does not depend on the budget. -/
theorem ite {c : Prop} [Decidable c] (hthen : c → Settles faults post y w)
    (helse : ¬ c → Settles faults post y' w) :
    Settles faults post (fun n => if c then y n else y' n) w := by
  by_cases hc : c
  · simp only [if_pos hc]
    exact hthen hc
  · simp only [if_neg hc]
    exact helse hc

/-- Only large budgets count. -/
theorem congr (h : Settles faults post y w) (heq : ∀ᶠ n in atTop, y' n w = y n w) :
    Settles faults post y' w := by
  rcases h with ⟨a, v, ha, hend⟩ | ⟨f, v, hf, hend⟩
  · refine .inl ⟨a, v, ha, ?_⟩
    filter_upwards [hend, heq] with n hn hyn
    rw [hyn, hn]
  · refine .inr ⟨f, v, hf, ?_⟩
    filter_upwards [hend, heq] with n hn hyn
    rw [hyn, hn]

/-- A run that goes on like another one from another world. -/
theorem of_eq {u : World} (h : Settles faults post y u) (heq : ∀ n, y' n w = y n u) :
    Settles faults post y' w := by
  unfold Settles at *
  simpa only [heq] using h

/-- A loop that is given what is left of the budget has a turn left. -/
theorem turn {x : Nat → Nat → Run α} (used : Nat)
    (h : Settles faults post (fun n => x n (n - (used + 1) + 1)) w) :
    Settles faults post (fun n => x n (n - used)) w := by
  refine h.congr ?_
  filter_upwards [eventually_ge_atTop (used + 1)] with n hn
  rw [show n - used = n - (used + 1) + 1 by omega]

/-- One more step of budget makes no difference for large budgets. -/
theorem of_succ (h : Settles faults post (fun n => y (n + 1)) w) : Settles faults post y w := by
  unfold Settles at *
  rw [← map_add_atTop_eq_nat 1]
  exact h

/-- What is known of every answer may be added. -/
theorem and (h : Settles faults post y w)
    (hpost : ∀ n a v, y n w = .ok a v → post' a v) :
    Settles faults (fun a v => post a v ∧ post' a v) y w := by
  refine h.imp_left fun ⟨a, v, ha, hend⟩ => ⟨a, v, ⟨ha, ?_⟩, hend⟩
  obtain ⟨n, hn⟩ := hend.exists
  exact hpost n a v hn

/-- A plain step ends, whatever the budget. -/
theorem plain {x : Run α} (hx : x.Plain) :
    Settles (fun _ => True) (fun _ _ => True) (fun _ => x) w := by
  obtain ⟨call, hcall⟩ := hx w.threshold
  have hw := hcall w rfl
  rcases hresult : call.result with f | a
  · rw [ofCall_of_error hresult] at hw
    exact of_fault (fun _ => hw) trivial
  · rw [ofCall_of_ok hresult] at hw
    exact of_ok (fun _ => hw) trivial

end Settles

/-- For all large budgets a run comes to the given outcome. -/
def EndsIn (y : Nat → Run α) (w : World) (o : Except Fault α) : Prop :=
  ∃ v, ∀ᶠ n in atTop, y n w = ofExcept o v

theorem EndsIn.of_succ {y : Nat → Run α} {w : World} {o : Except Fault α}
    (h : EndsIn (fun n => y (n + 1)) w o) : EndsIn y w o := by
  unfold EndsIn at *
  rw [← map_add_atTop_eq_nat 1]
  exact h

theorem Settles.exists_endsIn {faults : Fault → Prop} {post : α → World → Prop}
    {y : Nat → Run α} {w : World} (h : Settles faults post y w) : ∃ o, EndsIn y w o := by
  rcases h with ⟨a, v, -, h⟩ | ⟨f, v, -, h⟩
  · exact ⟨.ok a, v, h⟩
  · exact ⟨.error f, v, h⟩

end Run

end Descent
