/-
# Visits

A visit is one run of a parser at an offset, together with the visits of the
parsers that were started in its course. The watched run of a parser is the plain
run under a watcher that keeps these visits, so it does not describe the
combinators a second time: forgetting the visits gives the plain run back, and
this holds for runs that end in a fault or use up their budget as well.
-/

import Descent.Proofs.Carrier

namespace Descent

/-- A run of a parser at an offset: its reply, if it came to one, and the runs
that it started, in their order. -/
inductive Visit
  | mk (parser : Parser) (offset : Int) (reply : Option Reply) (parts : List Visit)

namespace Visit

mutual

/-- The parsers that were started in a visit, that of the visit itself first, with
the offsets they were started at. -/
def starts : Visit → List (Parser × Int)
  | .mk p i _ parts => (p, i) :: startsOf parts

/-- The parsers that were started in visits one after another. -/
def startsOf : List Visit → List (Parser × Int)
  | [] => []
  | v :: vs => v.starts ++ startsOf vs

end

theorem startsOf_append (us vs : List Visit) :
    startsOf (us ++ vs) = startsOf us ++ startsOf vs := by
  induction us with
  | nil => rfl
  | cons u us ih => simp [startsOf, ih]

end Visit

/-- A run that keeps the visits made in its course, whichever way it ends. -/
def Watched (α : Type) : Type :=
  World → List Visit × EStateM.Result Halt World α

namespace Watched

variable {α β : Type}

/-- One watched step after another. After a halt the second does not take place,
and the visits made until then stay. -/
def bind (x : Watched α) (f : α → Watched β) : Watched β := fun w =>
  match x w with
  | (vs, .ok a w') => ((vs ++ (f a w').1), (f a w').2)
  | (vs, .error halt w') => (vs, .error halt w')

instance : Monad Watched where
  pure a := fun w => ([], .ok a w)
  bind := bind

/-- A step of a plain run makes no visits. -/
instance : MonadLift Run Watched where
  monadLift x := fun w => ([], x w)

theorem bind_of_ok {x : Watched α} {f : α → Watched β} {w v : World} {vs : List Visit} {a : α}
    (h : x w = (vs, .ok a v)) : (x >>= f) w = (vs ++ (f a v).1, (f a v).2) := by
  change Watched.bind x f w = _
  unfold Watched.bind
  rw [h]

theorem bind_of_error {x : Watched α} {f : α → Watched β} {w v : World} {vs : List Visit}
    {halt : Halt} (h : x w = (vs, .error halt v)) : (x >>= f) w = (vs, .error halt v) := by
  change Watched.bind x f w = _
  unfold Watched.bind
  rw [h]

/-- The plain run in a watched one. -/
def forget (x : Watched α) : Run α := fun w =>
  (x w).2

/-- Keep a visit of a parser, with the visits made in its course as its parts. -/
def visit (p : Parser) (act : ActionIn Watched) : ActionIn Watched := fun s i w =>
  let (parts, result) := act s i w
  match result with
  | .ok reply w' => ([.mk p i (some reply) parts], .ok reply w')
  | .error halt w' => ([.mk p i none parts], .error halt w')

/-- A visit that came to a reply is kept as one visit with that reply. -/
theorem visit_of_ok {p : Parser} {act : ActionIn Watched} {s : Text} {i : Int}
    {w w' : World} {r : Reply} (h : (visit p act s i w).2 = .ok r w') :
    ∃ parts, visit p act s i w = ([.mk p i (some r) parts], .ok r w') := by
  unfold visit at h ⊢
  rcases hact : act s i w with ⟨parts, ⟨r', v⟩ | ⟨halt, v⟩⟩
  · rw [hact] at h
    cases h
    exact ⟨parts, rfl⟩
  · rw [hact] at h
    cases h

@[simp] theorem forget_pure (a : α) : forget (pure a) = pure a := rfl

@[simp] theorem forget_lift (x : Run α) : forget (liftM x) = x := rfl

@[simp] theorem forget_bind (x : Watched α) (f : α → Watched β) :
    forget (x >>= f) = forget x >>= fun a => forget (f a) := by
  funext w
  change (Watched.bind x f w).2 = EStateM.bind (forget x) (fun a => forget (f a)) w
  unfold Watched.bind EStateM.bind forget
  rcases x w with ⟨vs, _ | _⟩ <;> rfl

/-- The plain action in a watched one. -/
def forgetAction (act : ActionIn Watched) : Action := fun s i =>
  forget (act s i)

@[simp] theorem forgetAction_visit (p : Parser) (act : ActionIn Watched) :
    forgetAction (visit p act) = forgetAction act := by
  funext s i w
  unfold forgetAction forget visit
  rcases act s i w with ⟨parts, _ | _⟩ <;> rfl

/-- A watched step corresponds to the plain one in it. -/
def forgetting : Correspondence Watched Run where
  rel x y := forget x = y
  pure _ := rfl
  bind hx hf := by
    rw [forget_bind, hx]
    exact congrArg _ (funext hf)
  plain _ := rfl
  unfinished := rfl

/-- A handle leads to the same runs, whether they are watched or not. -/
theorem forgetAction_perform (descend : Parser → ActionIn Watched) (b : Behaviour) :
    forgetAction (b.perform descend) = b.perform fun p => forgetAction (descend p) := by
  funext s i
  cases b with
  | run p => rfl
  | unbound r =>
      simp only [forgetAction, Behaviour.perform, forget_bind, forget_lift, forget_pure]
      rfl
  | dispatch r =>
      simp only [forgetAction, Behaviour.perform, forget_bind, forget_lift]
      refine congrArg (Run.enterReference r >>= ·) (funext fun target => ?_)
      cases target <;> rfl
  | build l =>
      simp only [forgetAction, Behaviour.perform, forget_bind, forget_lift]
      rfl

theorem forgetAction_follow (descend : Parser → ActionIn Watched) (p : Parser) :
    forgetAction (p.follow descend) = p.follow fun p => forgetAction (descend p) := by
  funext s i
  simp only [forgetAction, Parser.follow, forget_bind, forget_lift]
  refine congrArg (Run.behaviour p >>= ·) (funext fun b => ?_)
  exact congrFun (congrFun (forgetAction_perform descend b) s) i

theorem forgetAction_buildAndRun (descend : Parser → ActionIn Watched) (d : Description)
    (bindings : Bindings) :
    forgetAction (Parser.buildAndRun descend d bindings) =
      Parser.buildAndRun (fun p => forgetAction (descend p)) d bindings := by
  funext s i
  simp only [forgetAction, Parser.buildAndRun, forget_bind, forget_lift]
  rfl

end Watched

namespace Parser

/-- Run a parser within a budget and keep the visits. -/
def watched : Nat → Parser → ActionIn Watched :=
  runWatched Watched.visit

/-- What a parser does is watched as a whole. -/
theorem exists_action_eq_visit (descend : Parser → ActionIn Watched) (turns : Nat)
    (p : Parser) : ∃ act, p.action Watched.visit descend turns = Watched.visit p act :=
  ⟨_, action.eq_def Watched.visit descend turns p⟩

section Forgetting

variable {watch : Parser → ActionIn Watched → ActionIn Watched}
  (hwatch : ∀ p act, Watched.forgetAction (watch p act) = Watched.forgetAction act)

include hwatch

/-- Forgetting the visits of what a parser does gives what it does, whichever visits the
watcher keeps. -/
theorem forgetAction_action (descend : Parser → ActionIn Watched) (turns : Nat) (p : Parser) :
    Watched.forgetAction (p.action watch descend turns) =
      p.action (fun _ act => act) (fun q => Watched.forgetAction (descend q)) turns := by
  funext s
  have agrees : Watched.forgetting.Agree s (p.action watch descend turns)
      (p.action (fun _ act => act) (fun q => Watched.forgetAction (descend q)) turns) := by
    apply Correspondence.agree_action
    · intro p act act' _ _ _ hact i
      have hforget : Watched.forgetAction act s i = act' s i := hact i
      rw [← hforget, ← hwatch p act]
      rfl
    · intro p _ i
      have hforget := (hwatch p (p.follow descend)).trans
        (Watched.forgetAction_follow descend p)
      exact congrFun (congrFun hforget s) i
    · intro d bindings i
      exact congrFun (congrFun (Watched.forgetAction_buildAndRun descend d bindings) s) i
  exact funext agrees

/-- The plain run is the run under a watcher without its visits. -/
theorem forgetAction_runWatched (budget : Nat) (p : Parser) :
    Watched.forgetAction (p.runWatched watch budget) = p.run budget := by
  induction budget generalizing p with
  | zero => rfl
  | succ budget ih =>
      have descends : (fun q => Watched.forgetAction (runWatched watch budget q)) = run budget :=
        funext ih
      calc
        _ = p.action (fun _ act => act)
              (fun q => Watched.forgetAction (runWatched watch budget q)) budget :=
          forgetAction_action hwatch (runWatched watch budget) budget p
        _ = p.action (fun _ act => act) (run budget) budget := by rw [descends]
        _ = p.run (budget + 1) := rfl

end Forgetting

/-- A watched run ends as the plain one does. -/
theorem watched_snd (budget : Nat) (p : Parser) (s : Text) (i : Int) (w : World) :
    (p.watched budget s i w).2 = p.run budget s i w := by
  rw [← forgetAction_runWatched Watched.forgetAction_visit]
  rfl

end Parser

end Descent
