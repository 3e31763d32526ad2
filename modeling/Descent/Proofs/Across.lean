/-
# Runs in two lineages

Two worlds that were set up in different ways are compared through the worlds that runs
lead to from them. Here are the parts of such a comparison that do not depend on what
sets the two worlds apart: that building keeps to both lineages, that a step reported
for the one world is matched by one for the other, and that matching steps for large
budgets are all there is to show.
-/

import Descent.Proofs.Frame
import Descent.Proofs.History

namespace Descent

open Filter

/-- Runs in the lineages of two worlds. -/
def Comparison.across (o o' : World) : Comparison where
  related w w' := o.Descends w ∧ o'.Descends w'
  later := World.Later
  faults f f' := f = f'
  later_refl := .refl
  later_trans := .trans

namespace World

variable {α β : Type} {o o' w w' : World}

/-- Noting events leads out of neither lineage. -/
theorem notes_across (o o' : World) : (Comparison.across o o').Notes where
  noted events hw := ⟨⟨hw.1.noted events, hw.2.noted events⟩, .refl _, .refl _⟩
  same_fault _ := rfl

theorem accompanies_across (h : o.threshold = o'.threshold) :
    (Comparison.across o o').Accompanies where
  toNotes := notes_across o o'
  threshold_eq hw := hw.1.threshold.trans (h.trans hw.2.threshold.symm)

/-- Building leads out of neither lineage. -/
theorem follows_across_of_growth {post : World → World → α → β → Prop} {x : Run α}
    {y : Nat → Run β} (hw : o.Descends w) (hw' : o'.Descends w')
    (h : (Comparison.growth w w').Follows post x y w w') :
    (Comparison.across o o').Follows post x y w w' := by
  refine h.weaken (fun v v' hreach => ?_) (fun _ _ hf => hf) (fun _ _ _ _ hpost => hpost)
  obtain ⟨hv, hv'⟩ := hreach.related
  exact ⟨⟨(hw.grows hv).descends, (hw'.grows hv').descends⟩, hreach.left, hreach.right⟩

end World

namespace Report

variable {α : Type} {R : α → α → Prop} {r r' : Report α}

/-- Two things came to an end alike: in the same fault, or with answers that stand in a
relation. -/
inductive Matches (R : α → α → Prop) : Report α → Report α → Prop
  | answer {a a' : α} {events events' : List Event} (h : R a a') :
      Matches R ⟨.ok a, events⟩ ⟨.ok a', events'⟩
  | fault (f : Fault) {events events' : List Event} :
      Matches R ⟨.error (.fault f), events⟩ ⟨.error (.fault f), events'⟩

theorem Matches.ended (h : Matches R r r') : r'.Ended := by
  cases h with
  | answer _ => exact trivial
  | fault f => exact trivial

theorem Matches.result_eq (h : Matches Eq r r') : r.result = r'.result := by
  cases h with
  | answer h => rw [h]
  | fault f => rfl

/-- Only the results count. -/
theorem Matches.congr {t : Report α} (h : Matches R r r') (ht : t.result = r'.result) :
    Matches R r t := by
  obtain ⟨result, events⟩ := t
  cases ht
  cases h with
  | answer h => exact .answer h
  | fault f => exact .fault f

/-- Let one family of reports be related to another one for large budgets, and let the
other one keep to its results. Then the one has an end if and only if the other one
does, and all ends are related. -/
theorem concur_of_eventually {β : Type} {P : Report α → Report β → Prop} {x : Nat → Report α}
    {y : Nat → Report β} (hended : ∀ {r r'}, P r r' → r'.Ended)
    (hcongr : ∀ {r r' t}, P r r' → t.result = r'.result → P r t)
    (hforth : ∀ n, (x n).Ended → ∀ᶠ m in atTop, P (x n) (y m))
    (hback : ∀ m, (y m).Ended → ∃ n, (x n).Ended)
    (hsteady : ∀ m, (y m).Ended → ∀ᶠ k in atTop, (y k).result = (y m).result) :
    ((∃ n, (x n).Ended) ↔ ∃ m, (y m).Ended) ∧
      ∀ n m, (x n).Ended → (y m).Ended → P (x n) (y m) := by
  refine ⟨⟨?_, fun ⟨m, hm⟩ => hback m hm⟩, fun n m hn hm => ?_⟩
  · rintro ⟨n, hn⟩
    obtain ⟨m, hm⟩ := (hforth n hn).exists
    exact ⟨m, hended hm⟩
  · obtain ⟨k, hrelated, hresult⟩ := ((hforth n hn).and (hsteady m hm)).exists
    exact hcongr hrelated hresult.symm

theorem matches_of_eventually {x y : Nat → Report α}
    (hforth : ∀ n, (x n).Ended → ∀ᶠ m in atTop, (x n).Matches R (y m))
    (hback : ∀ m, (y m).Ended → ∃ n, (x n).Ended)
    (hsteady : ∀ m, (y m).Ended → ∀ᶠ k in atTop, (y k).result = (y m).result) :
    ((∃ n, (x n).Ended) ↔ ∃ m, (y m).Ended) ∧
      ∀ n m, (x n).Ended → (y m).Ended → (x n).Matches R (y m) :=
  concur_of_eventually Matches.ended Matches.congr hforth hback hsteady

end Report

/-- A step that follows another one is reported alike. -/
theorem Session.eventually_matches {α : Type} {c : Comparison} {R : α → α → Prop} {x : Run α}
    {y : Nat → Run α} {w w' : World} (hfaults : ∀ f f', c.faults f f' → f = f')
    (h : c.Follows (fun _ _ => R) x y w.cleared w'.cleared) (hended : (observe w x).1.Ended) :
    ∀ᶠ n in atTop, (observe w x).1.Matches R (observe w' (y n)).1 := by
  rcases h with ⟨u, hu⟩ | ⟨result, hmatch, hresult⟩
  · rw [observe_of_error hu] at hended
    exact hended.elim
  · generalize hx : x w.cleared = first at hmatch
    cases hmatch with
    | ok _ hanswer =>
        filter_upwards [hresult] with n hn
        rw [observe_of_ok hx, observe_of_ok hn]
        exact .answer hanswer
    | fault _ hfault =>
        cases hfaults _ _ hfault
        filter_upwards [hresult] with n hn
        rw [observe_of_error hx, observe_of_error hn]
        exact .fault _

end Descent
