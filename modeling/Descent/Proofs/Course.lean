/-
# The course of a run

Parsers that are put together in different ways may do the same: they start the same
parsers at the same offsets in the same order, and end alike. Which parsers only hold
others together, and are left out of such an account, is for each comparison to say. Two
parsers take the same course if, in every world and within every budget, their runs end in
the same way and keep the same visits of all other parsers.
-/

import Descent.Proofs.Merging
import Descent.Proofs.ReplyInvariant

namespace Descent

namespace Watched

variable {α β : Type}

instance : LawfulMonad Watched := by
  refine .mk' Watched ?_ ?_ ?_
  · intro α x
    funext w
    change Watched.bind x (fun a => pure (id a)) w = x w
    unfold Watched.bind
    rcases x w with ⟨vs, ⟨a, v⟩ | ⟨halt, v⟩⟩
    · exact Prod.ext (List.append_nil vs) rfl
    · rfl
  · intros
    rfl
  · intro α β γ x f g
    funext w
    change Watched.bind (Watched.bind x f) g w = Watched.bind x (fun a => Watched.bind (f a) g) w
    unfold Watched.bind
    rcases x w with ⟨vs, ⟨a, v⟩ | ⟨halt, v⟩⟩
    · simp only
      rcases f a v with ⟨us, ⟨b, u⟩ | ⟨halt, u⟩⟩
      · exact Prod.ext (List.append_assoc ..) rfl
      · rfl
    · rfl

instance : LawfulMonadLift Run Watched where
  monadLift_pure _ := rfl
  monadLift_bind x f := by
    funext w
    change ([], EStateM.bind x f w) = Watched.bind (liftM x) (fun a => liftM (f a)) w
    have hlift : (liftM x : Watched _) w = ([], x w) := rfl
    unfold Watched.bind EStateM.bind
    rw [hlift]
    rcases x w with ⟨a, v⟩ | ⟨halt, v⟩ <;> rfl

/-- What comes after a step counts only for the results that the step can have. -/
theorem bind_congr_of_ok {x : Watched α} {f g : α → Watched β}
    (h : ∀ w a w', (x w).2 = .ok a w' → f a = g a) : x >>= f = x >>= g := by
  funext w
  rcases hx : x w with ⟨vs, ⟨a, v⟩ | ⟨halt, v⟩⟩
  · have heq : f a = g a := h w a v (by rw [hx])
    rw [bind_of_ok hx, bind_of_ok hx, heq]
  · rw [bind_of_error hx, bind_of_error hx]

/-- Keep the visits of all parsers but the joints. -/
def visitUnless (joint : Parser → Bool) (p : Parser) (act : ActionIn Watched) :
    ActionIn Watched :=
  if joint p then act else visit p act

theorem forgetAction_visitUnless (joint : Parser → Bool) (p : Parser) (act : ActionIn Watched) :
    forgetAction (visitUnless joint p act) = forgetAction act := by
  unfold visitUnless
  split
  · rfl
  · exact forgetAction_visit p act

end Watched

namespace Parser

/-- Run a parser within a budget and keep the visits of all parsers but the joints. -/
def outline (joint : Parser → Bool) : Nat → Parser → ActionIn Watched :=
  runWatched (Watched.visitUnless joint)

/-- An outlined run ends as the plain one does. -/
theorem outline_snd (joint : Parser → Bool) (budget : Nat) (p : Parser) (s : Text) (i : Int)
    (w : World) : (p.outline joint budget s i w).2 = p.run budget s i w := by
  rw [← forgetAction_runWatched (Watched.forgetAction_visitUnless joint)]
  rfl

/-- Two parsers take the same course at an offset of an input: their runs end alike, and
start the same parsers other than joints, at the same offsets and in the same order. -/
structure SameCourse (joint : Parser → Bool) (s : Text) (i : Int) (p q : Parser) : Prop where
  run_eq : ∀ budget w, p.run budget s i w = q.run budget s i w
  outline_eq : ∀ budget w, (p.outline joint budget s i w).1 = (q.outline joint budget s i w).1

namespace SameCourse

variable {joint : Parser → Bool} {s : Text} {i : Int} {p q r : Parser}

theorem refl (p : Parser) : SameCourse joint s i p p :=
  ⟨fun _ _ => rfl, fun _ _ => rfl⟩

/-- Without any budget no run differs from another. -/
theorem of_outline
    (h : ∀ budget, p.outline joint (budget + 1) s i = q.outline joint (budget + 1) s i) :
    SameCourse joint s i p q := by
  have houtline (budget : Nat) : p.outline joint budget s i = q.outline joint budget s i := by
    cases budget with
    | zero => rfl
    | succ budget => exact h budget
  constructor
  · intro budget w
    rw [← outline_snd joint, ← outline_snd joint, houtline]
  · intro budget w
    rw [houtline]

end SameCourse

section Joints

variable {joint : Parser → Bool} {budget : Nat} {p q : Parser}

theorem outline_pure {v : Value} (h : joint (.pure v)) :
    (Parser.pure v).outline joint (budget + 1) = Action.lift (.succeed v) :=
  if_pos h

theorem outline_bind {f : Value → Parser} (h : joint (p.bind f)) :
    (p.bind f).outline joint (budget + 1) =
      Action.bind (p.outline joint (budget + 1)) fun v => (f v).outline joint (budget + 1) :=
  if_pos h

theorem outline_map {f : Value → Call Value} (h : joint (p.map f)) :
    (p.map f).outline joint (budget + 1) = Action.map (p.outline joint (budget + 1)) f :=
  if_pos h

end Joints

theorem neg_one_le_furthest {joint : Parser → Bool} {budget : Nat} {p : Parser} {s : Text}
    {i : Int} {w w' : World} {r : Reply} (hi : 0 ≤ i) (hlen : i ≤ s.length)
    (h : (p.outline joint budget s i w).2 = .ok r w') : -1 ≤ r.furthest :=
  neg_one_le_furthest_of_run hi hlen ((outline_snd joint budget p s i w).symm.trans h)

end Parser

end Descent
