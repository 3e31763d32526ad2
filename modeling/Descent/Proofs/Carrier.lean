/-
# Runs in two carriers

Actions work in every monad that can make the steps of a run. What a parser does in
two such monads therefore corresponds step by step: if answers correspond, and plain
steps, and steps made after steps that correspond, then so do the actions of every
parser. All that has to be shown for a given correspondence is what it says about
handles and descriptions, which lead out of the tree, and about the watchers.
-/

import Descent.Proofs.Alike

namespace Descent

theorem World.behaviour_of_not_isHandle {w : World} {p : Parser} (h : ¬ p.IsHandle) :
    w.behaviour p = .run p := by
  cases p with
  | reference r => exact absurd trivial h
  | deferred l => exact absurd trivial h
  | _ => rfl

/-- A handle does what it does at present. -/
theorem Parser.action_of_isHandle {p : Parser} (hp : p.IsHandle) (descend : Parser → Action)
    (turns : Nat) (s : Text) (i : Int) (w : World) :
    p.action (fun _ act => act) descend turns s i w = (w.behaviour p).perform descend s i w := by
  cases p with
  | reference r => rfl
  | deferred l => rfl
  | _ => exact hp.elim

variable {m m' : Type → Type} [Monad m] [MonadLiftT Run m] [Monad m'] [MonadLiftT Run m']

/-- Which steps in two monads correspond. -/
structure Correspondence (m m' : Type → Type) [Monad m] [MonadLiftT Run m] [Monad m']
    [MonadLiftT Run m'] where
  rel : ∀ {α : Type}, m α → m' α → Prop
  pure : ∀ {α : Type} (a : α), rel (pure a) (pure a)
  bind : ∀ {α β : Type} {x : m α} {y : m' α} {f : α → m β} {g : α → m' β},
    rel x y → (∀ a, rel (f a) (g a)) → rel (x >>= f) (y >>= g)
  plain : ∀ {α : Type} {x : Run α}, x.Plain → rel (liftM x : m α) (liftM x : m' α)
  unfinished : rel (liftM (Run.unfinished : Run Reply) : m Reply)
    (liftM (Run.unfinished : Run Reply))

namespace Correspondence

variable (C : Correspondence m m')

/-- Two actions correspond at all offsets of an input. -/
def Agree (s : Text) (act : ActionIn m) (act' : ActionIn m') : Prop :=
  ∀ i, C.rel (act s i) (act' s i)

variable {C} {α : Type} {s : Text} {p q : ActionIn m} {p' q' : ActionIn m'}

theorem ite {c : Prop} [Decidable c] {x x₂ : m α} {y y₂ : m' α} (hx : C.rel x y)
    (hx₂ : C.rel x₂ y₂) : C.rel (if c then x else x₂) (if c then y else y₂) := by
  split
  · exact hx
  · exact hx₂

namespace Agree

theorem lift {act : Action} (h : ∀ s i, (act s i).Plain) :
    C.Agree s (Action.lift act) (Action.lift act) :=
  fun i => C.plain (h s i)

theorem bind {f : Value → ActionIn m} {f' : Value → ActionIn m'} (hp : C.Agree s p p')
    (hf : ∀ v, C.Agree s (f v) (f' v)) : C.Agree s (Action.bind p f) (Action.bind p' f') := by
  intro i
  refine C.bind (hp i) fun reply => C.ite ?_ (C.pure _)
  exact C.bind (hf reply.value reply.index) fun next => C.pure _

theorem map (f : Value → Call Value) (hp : C.Agree s p p') :
    C.Agree s (Action.map p f) (Action.map p' f) := by
  intro i
  refine C.bind (hp i) fun reply => C.ite ?_ (C.pure _)
  exact C.bind (C.plain (.ofCall _)) fun v => C.pure _

theorem andThen (hp : C.Agree s p p') (hq : C.Agree s q q') :
    C.Agree s (Action.andThen p q) (Action.andThen p' q') :=
  bind hp fun _ => hq

theorem skip (hp : C.Agree s p p') (hq : C.Agree s q q') :
    C.Agree s (Action.skip p q) (Action.skip p' q') := by
  intro i
  refine C.bind (hp i) fun first => C.ite ?_ (C.pure _)
  refine C.bind (hq first.index) fun second => ?_
  exact C.ite (C.pure _) (C.pure _)

theorem orElse (hp : C.Agree s p p') (hq : C.Agree s q q') :
    C.Agree s (Action.orElse p q) (Action.orElse p' q') := by
  intro i
  refine C.bind (hp i) fun reply => C.ite (C.pure _) ?_
  exact C.bind (hq i) fun next => C.pure _

theorem label (description : String) (hp : C.Agree s p p') :
    C.Agree s (Action.label p description) (Action.label p' description) :=
  fun i => C.bind (hp i) fun _ => C.ite (C.pure _) (C.pure _)

theorem withDefault (call : Call Value) (hp : C.Agree s p p') :
    C.Agree s (Action.withDefault p call) (Action.withDefault p' call) := by
  intro i
  refine C.bind (hp i) fun reply => ?_
  split
  · exact C.bind (C.plain (.ofCall _)) fun v => C.pure _
  · exact C.pure _

theorem lookAhead (hp : C.Agree s p p') : C.Agree s (Action.lookAhead p) (Action.lookAhead p') :=
  fun i => C.bind (hp i) fun _ => C.ite (C.pure _) (C.pure _)

theorem notFollowedBy (description : Option String) (hp : C.Agree s p p') :
    C.Agree s (Action.notFollowedBy p description) (Action.notFollowedBy p' description) :=
  fun i => C.bind (hp i) fun _ => C.ite (C.pure _) (C.pure _)

theorem traced (text : String) (hp : C.Agree s p p') :
    C.Agree s (Action.traced text p) (Action.traced text p') := by
  intro i
  have written (text : String) := C.plain (Action.plain_writeTrace text s i)
  refine C.bind (C.plain Action.plain_tracing) fun on => ?_
  have ends (before : Bool) : C.rel
      (do let reply ← p s i
          if before && !reply.status then
            liftM (Action.writeTrace (text ++ " backtracked") s i)
          Pure.pure reply)
      (do let reply ← p' s i
          if before && !reply.status then
            liftM (Action.writeTrace (text ++ " backtracked") s i)
          Pure.pure reply) := by
    refine C.bind (hp i) fun reply => C.ite ?_ (C.pure _)
    exact C.bind (written _) fun _ => C.pure _
  refine C.ite ?_ (ends on)
  exact C.bind (written _) fun _ => ends on

end Agree

section Loops

theorem rel_required (hp : C.Agree s p p')
    {done : Int → Option Reply → List Value → m Reply}
    {done' : Int → Option Reply → List Value → m' Reply}
    (hdone : ∀ i context values, C.rel (done i context values) (done' i context values))
    (count : Nat) (i : Int) (context : Option Reply) (values : List Value) :
    C.rel (Action.required p s done count i context values)
      (Action.required p' s done' count i context values) := by
  induction count generalizing i context values with
  | zero => exact hdone i context values
  | succ count ih => exact C.bind (hp i) fun reply => C.ite (ih _ _ _) (C.pure _)

theorem rel_bounded (hp : C.Agree s p p') (count : Nat) (i : Int) (context : Option Reply)
    (values : List Value) :
    C.rel (Action.bounded p s count i context values)
      (Action.bounded p' s count i context values) := by
  induction count generalizing i context values with
  | zero => exact C.pure _
  | succ count ih => exact C.bind (hp i) fun reply => C.ite (ih _ _ _) (C.pure _)

theorem rel_unbounded (hp : C.Agree s p p') (budget : Nat) (i : Int) (context : Option Reply)
    (values : List Value) :
    C.rel (Action.unbounded p s budget i context values)
      (Action.unbounded p' s budget i context values) := by
  induction budget generalizing i context values with
  | zero => exact C.unfinished
  | succ budget ih =>
      refine C.bind (hp i) fun reply => C.ite (C.pure _) ?_
      exact C.ite (C.plain (.fault _)) (ih _ _ _)

theorem Agree.times (budget : Nat) (r : Repetition) (hp : C.Agree s p p') :
    C.Agree s (Action.times budget p r) (Action.times budget p' r) := by
  intro i
  unfold Action.times
  cases r.most with
  | none => exact rel_required hp (rel_unbounded hp budget) r.least i none []
  | some most => exact rel_required hp (rel_bounded hp (most - r.least)) r.least i none []

theorem rel_turnsTill (hp : C.Agree s p p') (hq : C.Agree s q q') (budget : Nat) (i : Int)
    (context : Option Reply) (values : List Value) :
    C.rel (Action.turnsTill p q s budget i context values)
      (Action.turnsTill p' q' s budget i context values) := by
  induction budget generalizing i context values with
  | zero => exact C.unfinished
  | succ budget ih =>
      refine C.bind (hq i) fun ended => C.ite (C.pure _) ?_
      refine C.bind (hp i) fun reply => C.ite (C.pure _) ?_
      exact C.ite (C.plain (.fault _)) (ih _ _ _)

theorem Agree.manyTill (budget : Nat) (hp : C.Agree s p p') (hq : C.Agree s q q') :
    C.Agree s (Action.manyTill budget p q) (Action.manyTill budget p' q') :=
  fun i => rel_turnsTill hp hq budget i none []

theorem rel_seqFrom {ps : List (ActionIn m)} {ps' : List (ActionIn m')}
    (h : List.Forall₂ (C.Agree s) ps ps') (i : Int) (context : Option Reply)
    (values : List Value) :
    C.rel (Action.seqFrom s ps i context values) (Action.seqFrom s ps' i context values) := by
  induction h generalizing i context values with
  | nil => exact C.pure _
  | cons hp _ ih => exact C.bind (hp i) fun reply => C.ite (ih _ _ _) (C.pure _)

theorem rel_altFrom {ps : List (ActionIn m)} {ps' : List (ActionIn m')}
    (h : List.Forall₂ (C.Agree s) ps ps') (i : Int) (context : Option Reply) :
    C.rel (Action.altFrom s i ps context) (Action.altFrom s i ps' context) := by
  induction h generalizing context with
  | nil => cases context <;> exact C.pure _
  | cons hp _ ih => exact C.bind (hp i) fun reply => C.ite (C.pure _) (ih _)

/-- Families of actions that correspond, as rows. -/
theorem forall₂_agree {n : Nat} {ps : Fin n → ActionIn m} {ps' : Fin n → ActionIn m'}
    (h : ∀ k, C.Agree s (ps k) (ps' k)) :
    List.Forall₂ (C.Agree s) (List.ofFn ps) (List.ofFn ps') := by
  induction n with
  | zero => simp
  | succ n ih =>
      rw [List.ofFn_succ, List.ofFn_succ]
      exact .cons (h 0) (ih fun k => h k.succ)

theorem Agree.seq {n : Nat} {ps : Fin n → ActionIn m} {ps' : Fin n → ActionIn m'}
    (h : ∀ k, C.Agree s (ps k) (ps' k)) :
    C.Agree s (Action.seq (List.ofFn ps)) (Action.seq (List.ofFn ps')) :=
  fun i => rel_seqFrom (forall₂_agree h) i none []

theorem Agree.alt {n : Nat} {ps : Fin n → ActionIn m} {ps' : Fin n → ActionIn m'}
    (h : ∀ k, C.Agree s (ps k) (ps' k)) :
    C.Agree s (Action.alt (List.ofFn ps)) (Action.alt (List.ofFn ps')) :=
  fun i => rel_altFrom (forall₂_agree h) i none

end Loops

variable {watch : Parser → ActionIn m → ActionIn m} {watch' : Parser → ActionIn m' → ActionIn m'}
  {descend : Parser → ActionIn m} {descend' : Parser → ActionIn m'} {turns : Nat}

/-- What a parser does corresponds, provided that this is so for handles and for
descriptions, and that the watchers keep to it. A watcher is only ever given what the
parser does by itself. -/
theorem agree_action
    (hwatch : ∀ p act act', ¬ p.IsHandle →
      p.action watch descend turns = watch p act →
      p.action watch' descend' turns = watch' p act' → C.Agree s act act' →
      C.Agree s (watch p act) (watch' p act'))
    (hfollow : ∀ p : Parser, p.IsHandle →
      C.Agree s (watch p (p.follow descend)) (watch' p (p.follow descend')))
    (hbuilt : ∀ d bindings, C.Agree s (Parser.buildAndRun descend d bindings)
      (Parser.buildAndRun descend' d bindings))
    (p : Parser) : C.Agree s (p.action watch descend turns) (p.action watch' descend' turns) := by
  have primitive {p : Parser} {act : Action} (hplain : ∀ s i, (act s i).Plain)
      (hnot : ¬ p.IsHandle)
      (h : p.action watch descend turns = watch p (Action.lift act))
      (h' : p.action watch' descend' turns = watch' p (Action.lift act)) :
      C.Agree s (p.action watch descend turns) (p.action watch' descend' turns) := by
    rw [h, h']
    exact hwatch p _ _ hnot h h' (.lift hplain)
  have blind {p : Parser} {act : Action} (hblind : ∀ s i, (act s i).Blind) :=
    primitive (p := p) fun s i => (hblind s i).plain
  induction p with
  | string t => exact blind (Action.blind_string t) id rfl rfl
  | pattern p group => exact blind (Action.blind_pattern p group) id rfl rfl
  | satisfy test expected => exact blind (Action.blind_satisfy test expected) id rfl rfl
  | takeWhile test => exact blind (Action.blind_takeWhile test) id rfl rfl
  | anyChar => exact blind Action.blind_anyChar id rfl rfl
  | pure v => exact blind (fun _ _ => .pure _) id rfl rfl
  | fail expected => exact blind (fun _ _ => .pure _) id rfl rfl
  | eof => exact blind (fun _ _ => .pure _) id rfl rfl
  | position => exact blind Action.blind_position id rfl rfl
  | index => exact blind (fun _ _ => .pure _) id rfl rfl
  | rest => exact blind (fun _ _ => .pure _) id rfl rfl
  | trace text => exact primitive (Action.plain_trace text) id rfl rfl
  | bind p f ihp ihf => exact hwatch _ _ _ id rfl rfl (ihp.bind ihf)
  | built d bindings => exact hwatch _ _ _ id rfl rfl (hbuilt d bindings)
  | map p f ihp => exact hwatch _ _ _ id rfl rfl (ihp.map f)
  | andThen p q ihp ihq => exact hwatch _ _ _ id rfl rfl (ihp.andThen ihq)
  | skip p q ihp ihq => exact hwatch _ _ _ id rfl rfl (ihp.skip ihq)
  | orElse p q ihp ihq => exact hwatch _ _ _ id rfl rfl (ihp.orElse ihq)
  | times p r ihp => exact hwatch _ _ _ id rfl rfl (ihp.times turns r)
  | label p description ihp => exact hwatch _ _ _ id rfl rfl (ihp.label description)
  | withDefault p call ihp => exact hwatch _ _ _ id rfl rfl (ihp.withDefault call)
  | seq n ps ih => exact hwatch _ _ _ id rfl rfl (.seq ih)
  | alt n ps ih => exact hwatch _ _ _ id rfl rfl (.alt ih)
  | lookAhead p ihp => exact hwatch _ _ _ id rfl rfl ihp.lookAhead
  | notFollowedBy p description ihp =>
      exact hwatch _ _ _ id rfl rfl (ihp.notFollowedBy description)
  | manyTill p stop ihp ihstop => exact hwatch _ _ _ id rfl rfl (ihp.manyTill turns ihstop)
  | traced text p ihp => exact hwatch _ _ _ id rfl rfl (ihp.traced text)
  | reference r => exact hfollow (.reference r) trivial
  | deferred l => exact hfollow (.deferred l) trivial

end Correspondence

end Descent
