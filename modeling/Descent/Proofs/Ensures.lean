/-
# What watched runs ensure

A statement about a watched run has two sides. Whichever way the run ends, the
parsers it has started were started between two offsets; and if it ends with a
result, the result and the visits made on the way meet a condition. Both sides are
composed along the steps of a run by the rules below, and the visits of one step
stand before those of the next.
-/

import Descent.Proofs.Visit

namespace Descent.Watched

variable {α β : Type} {lo hi : Int}

/-- A watched run starts parsers at offsets from `lo` to `hi` only, and if it ends
with a result, the visits and the result meet the condition `post`. -/
def Ensures (lo hi : Int) (post : List Visit → α → Prop) (x : Watched α) : Prop :=
  ∀ w, (∀ start ∈ Visit.startsOf (x w).1, lo ≤ start.2 ∧ start.2 ≤ hi) ∧
    ∀ a w', (x w).2 = .ok a w' → post (x w).1 a

namespace Ensures

theorem pure {post : List Visit → α → Prop} {a : α} (h : post [] a) :
    Ensures lo hi post (Pure.pure a) := by
  intro w
  refine ⟨fun start hstart => ?_, fun b w' hb => ?_⟩
  · cases hstart
  · cases hb
    exact h

/-- A step of a plain run makes no visits. -/
theorem lift {post : List Visit → α → Prop} {x : Run α}
    (h : ∀ w a w', x w = .ok a w' → post [] a) : Ensures lo hi post (liftM x) := by
  intro w
  refine ⟨fun start hstart => ?_, fun a w' ha => h w a w' ha⟩
  cases hstart

/-- A step that halts ensures everything of its result. -/
theorem halt {post : List Visit → α → Prop} {x : Run α} (h : ∀ w a w', x w ≠ .ok a w') :
    Ensures lo hi post (liftM x) :=
  lift fun w a w' ha => absurd ha (h w a w')

/-- One step after another: the visits of the second follow those of the first. -/
theorem bind {mid : List Visit → α → Prop} {post : List Visit → β → Prop} {x : Watched α}
    {f : α → Watched β} (hx : Ensures lo hi mid x)
    (hf : ∀ vs a, mid vs a → Ensures lo hi (fun us b => post (vs ++ us) b) (f a)) :
    Ensures lo hi post (x >>= f) := by
  intro w
  obtain ⟨hstarts, hmid⟩ := hx w
  change (∀ start ∈ Visit.startsOf (Watched.bind x f w).1, _) ∧
    ∀ b w', (Watched.bind x f w).2 = .ok b w' → post (Watched.bind x f w).1 b
  unfold Watched.bind
  rcases hxw : x w with ⟨vs, ⟨a, v⟩ | ⟨halt, v⟩⟩
  · rw [hxw] at hstarts hmid
    obtain ⟨hstarts', hpost⟩ := hf vs a (hmid a v rfl) v
    refine ⟨fun start hstart => ?_, hpost⟩
    rw [Visit.startsOf_append] at hstart
    rcases List.mem_append.mp hstart with h | h
    · exact hstarts start h
    · exact hstarts' start h
  · rw [hxw] at hstarts
    exact ⟨hstarts, fun b w' hb => by cases hb⟩

/-- A plain step in front, of whose result nothing has to be known. -/
theorem lift_bind {post : List Visit → β → Prop} (x : Run α) {f : α → Watched β}
    (hf : ∀ a, Ensures lo hi post (f a)) : Ensures lo hi post (liftM x >>= f) := by
  have hx : Ensures lo hi (fun vs (_ : α) => vs = []) (liftM x) := lift fun _ _ _ _ => rfl
  apply hx.bind
  intro vs a hvs
  subst hvs
  exact hf a

/-- A weaker condition on a wider range of offsets. -/
theorem weaken {lo' : Int} {post post' : List Visit → α → Prop} {x : Watched α}
    (h : Ensures lo' hi post x) (hlo : lo ≤ lo') (himp : ∀ vs a, post vs a → post' vs a) :
    Ensures lo hi post' x := by
  intro w
  obtain ⟨hstarts, hpost⟩ := h w
  refine ⟨fun start hstart => ?_, fun a w' ha => himp _ _ (hpost a w' ha)⟩
  exact ⟨Int.le_trans hlo (hstarts start hstart).1, (hstarts start hstart).2⟩

/-- A condition that holds of every result in addition. -/
theorem and {post post' : List Visit → α → Prop} {x : Watched α} (h : Ensures lo hi post x)
    (h' : ∀ w a w', (x w).2 = .ok a w' → post' (x w).1 a) :
    Ensures lo hi (fun vs a => post vs a ∧ post' vs a) x := by
  intro w
  obtain ⟨hstarts, hpost⟩ := h w
  exact ⟨hstarts, fun a w' ha => ⟨hpost a w' ha, h' w a w' ha⟩⟩

/-- A visit of a parser at an offset in the range, from what its action ensures. -/
theorem visit {post : List Visit → Reply → Prop} {p : Parser} {act : ActionIn Watched}
    {s : Text} {i : Int} (hlo : lo ≤ i) (hhi : i ≤ hi)
    (h : Ensures lo hi (fun parts r => post [.mk p i (some r) parts] r) (act s i)) :
    Ensures lo hi post (Watched.visit p act s i) := by
  intro w
  obtain ⟨hstarts, hpost⟩ := h w
  have started (reply : Option Reply) (parts : List Visit)
      (hparts : ∀ start ∈ Visit.startsOf parts, lo ≤ start.2 ∧ start.2 ≤ hi) :
      ∀ start ∈ Visit.startsOf [.mk p i reply parts], lo ≤ start.2 ∧ start.2 ≤ hi := by
    intro start hstart
    simp only [Visit.startsOf, Visit.starts, List.append_nil] at hstart
    rcases List.mem_cons.mp hstart with rfl | hstart
    · exact ⟨hlo, hhi⟩
    · exact hparts start hstart
  unfold Watched.visit
  rcases hact : act s i w with ⟨parts, ⟨r, v⟩ | ⟨halt, v⟩⟩
  · rw [hact] at hstarts hpost
    refine ⟨started _ _ hstarts, fun a w' ha => ?_⟩
    cases ha
    exact hpost r v rfl
  · rw [hact] at hstarts
    exact ⟨started _ _ hstarts, fun a w' ha => by cases ha⟩

end Ensures

end Descent.Watched
