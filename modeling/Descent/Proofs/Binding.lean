/-
# Bound for everybody

A reference is bound while a session goes on, and handles whose builders return it are run
before and after that. A handle takes over what the reference does when its builder returns. If
this happens before the reference is bound, the handle has taken over a failure, and goes on to
fail for good, also when the reference has long been bound: what it keeps is not exchanged.

This is the only way in which a handle misses the binding. As long as the builder of a handle
has returned at no time when the reference was not bound, the handle never fails as an unbound
reference does, and once the reference is bound it can be exchanged for what the reference is
bound to in every parser, whatever else was run, in whichever order.
-/

import Descent.Proofs.Standing

namespace Descent

namespace World

/-- What a handle does is of a kind at the end of a way and whenever somebody arrives on it, if
it is so at the start and whenever the builder of the handle has returned. -/
def KeepsTo (l : Nat) (kind : Behaviour → Prop) (as : List Arrival) (w v : World) : Prop :=
  kind (w.behaviour (.deferred l)) →
    (∀ a ∈ as, a.returns l = true →
      kind (((Behaviour.buildRule l).after a.world).behaviour (.deferred l))) →
    kind (v.behaviour (.deferred l)) ∧ ∀ a ∈ as, kind (a.world.behaviour (.deferred l))

theorem account_keepsTo (l : Nat) (kind : Behaviour → Prop) : Account (KeepsTo l kind) where
  idle {w v} _ hsame hw _ := by
    rw [hsame l]
    exact ⟨hw, by simp⟩
  append {as bs w v u} h h' hw hreturns := by
    obtain ⟨hv, has⟩ := h hw fun a ha => hreturns a (List.mem_append_left _ ha)
    obtain ⟨hu, hbs⟩ := h' hv fun a ha => hreturns a (List.mem_append_right _ ha)
    exact ⟨hu, fun a ha => (List.mem_append.mp ha).elim (has a) (hbs a)⟩
  of_not_build {a w} hworld _ hw _ := by
    subst hworld
    exact ⟨hw, by simpa using hw⟩
  of_error {a k halt w v} hworld _ _ hv _ hw _ := by
    subst hworld
    rw [hv]
    exact ⟨hw, by simpa using hw⟩
  of_ok {a k w v} hworld ha hcall hv hw hreturns := by
    subst hworld
    refine ⟨?_, by simpa using hw⟩
    by_cases hk : k = l
    · subst hk
      have hkept := hreturns a List.mem_cons_self (by simp [Arrival.returns_of_ok ha hcall])
      rwa [Run.after_of_ok hcall] at hkept
    · rwa [hv _ fun heq => hk (Parser.deferred.inj heq).symm]

end World

/-- Nobody arrives in the course of a step before its parser has been built. -/
theorem Launch.exists_build_of_mem_charted {budget : Nat} {start : Launch} {w : World}
    {a : Arrival} (h : a ∈ (start.charted budget w).1) :
    ∃ p v, start.description.build [] w = .ok p v ∧
      a ∈ (start.entry p).arrivals budget start.input start.offset v := by
  unfold Launch.charted at h
  rcases hd : start.description.build [] w with ⟨p, v⟩ | ⟨halt, v⟩
  · have hbuild : (liftM (start.description.build []) : Charted Parser) w = ([], .ok p v) :=
      congrArg _ hd
    rw [Charted.bind_of_ok hbuild] at h
    exact ⟨p, v, rfl, h⟩
  · have hbuild : (liftM (start.description.build []) : Charted Parser) w = ([], .error halt v) :=
      congrArg _ hd
    rw [Charted.bind_of_error hbuild] at h
    cases h

namespace Session

variable {w : World} {r : Nat} {q : Parser}

/-- Whoever arrives in the course of a move arrives in a sound world. -/
theorem Move.sound_of_mem_arrivals (hw : w.Sound) {move : Move} {a : Arrival}
    (ha : a ∈ move.arrivals w) : a.world.Sound := by
  have of_run {p : Parser} {budget : Nat} {s : Text} {i : Int} {v : World} (hv : v.Sound)
      (ha : a ∈ p.arrivals budget s i v) : a.world.Sound :=
    ((p.charts_run budget s i hv).fits a ha).passes.sound
  cases move with
  | perform budget step =>
      cases hstart : step.launch? with
      | none => simp [Move.arrivals, hstart] at ha
      | some start =>
          rw [Move.arrivals, hstart] at ha
          obtain ⟨p, v, hd, ha⟩ := Launch.exists_build_of_mem_charted ha
          have hsteady : w.Steady w.cleared := .congr rfl rfl
          have hbuild := World.calm_steady.within_build start.description [] w.cleared
          rw [Run.after_of_ok hd] at hbuild
          exact of_run (hbuild.sound (hsteady.sound hw)) ha
  | run budget p s i => exact of_run hw ha
  | bind k p => cases ha

theorem sound_of_mem_arrivals (hw : w.Sound) {moves : List Move} {a : Arrival}
    (ha : a ∈ arrivals w moves) : a.world.Sound := by
  induction moves generalizing w with
  | nil => cases ha
  | cons move moves ih =>
      rcases List.mem_append.mp ha with ha | ha
      · exact move.sound_of_mem_arrivals hw ha
      · exact ih ((move.changes_after hw).sound hw) ha

/-- The move binds a reference to a parser, and succeeds. -/
def Move.Sets (w : World) (r : Nat) (q : Parser) : Move → Prop
  | .perform _ (.bindReference name d) =>
      World.lookup? name w.names = some (.reference r) ∧
        ∃ v u, d.build [] w.cleared = .ok q v ∧ Run.bindReference r q v = .ok () u
  | .bind k p => k = r ∧ p = q ∧ ∃ v, Run.bindReference r q w = .ok () v
  | _ => False

/-- The last of the moves that bind a reference binds it to the given parser. -/
inductive BoundLast (r : Nat) (q : Parser) (w : World) : List Move → Prop
  | set {moves : List Move} {move : Move} (h : move.Sets (moves.foldl Move.after w) r q) :
      BoundLast r q w (moves ++ [move])
  | keep {moves : List Move} {move : Move} (h : BoundLast r q w moves)
      (hkeep : ∀ p, ¬ move.Sets (moves.foldl Move.after w) r p) :
      BoundLast r q w (moves ++ [move])

/-- A reference that has been bound leads to what it was bound to. -/
theorem targets_of_bindReference {v : World} (h : Run.bindReference r q w = .ok () v) :
    v.Targets r q := by
  rcases World.bindReference_cases r q w with ⟨f, hend⟩ | ⟨c, events, hc, hend⟩
  · cases h.symm.trans hend
  · cases h.symm.trans hend
    refine ⟨c.dispatched, ?_⟩
    rw [World.getElem?_retargeted, if_pos rfl]
    exact congrArg _ hc

/-- A step that is to bind a reference builds the parser and binds the reference to it. -/
theorem Move.after_bindReference {name : String}
    (hname : World.lookup? name w.names = some (.reference r)) (budget : Nat) (d : Description) :
    (Move.perform budget (.bindReference name d)).after w = (d.build [] >>= fun p =>
      Run.bindReference r p >>= fun _ => pure (Answer.truth true)).after w.cleared := by
  have hr : Step.referenceNamed name w.cleared = .ok r w.cleared := by
    have hcleared : World.lookup? name w.cleared.names = some (.reference r) := hname
    unfold Step.referenceNamed
    rw [Run.get_bind, hcleared]
    rfl
  change (observe w (Step.perform budget (.bindReference name d))).2 = _
  rw [observe_snd]
  exact Run.after_bind_of_ok hr

theorem Move.Sets.targets {move : Move} (h : move.Sets w r q) : (move.after w).Targets r q := by
  cases move with
  | perform budget step =>
      cases step with
      | bindReference name d =>
          obtain ⟨hname, v, u, hd, hu⟩ := h
          rw [after_bindReference hname, Run.after_bind_of_ok hd, Run.after_bind_pure,
            Run.after_of_ok hu]
          exact targets_of_bindReference hu
      | _ => exact h.elim
  | run budget p s i => exact h.elim
  | bind k p =>
      obtain ⟨rfl, rfl, v, hv⟩ := h
      have hafter : (Move.bind k p).after w = v := Run.after_of_ok hv
      rw [hafter]
      exact targets_of_bindReference hv

/-- A reference leads to the same parser after a move that does not succeed to bind it. -/
theorem Move.targets_after (hw : w.Sound) (h : w.Targets r q) {move : Move}
    (hkeep : ∀ p, ¬ move.Sets w r p) : (move.after w).Targets r q := by
  by_cases hbinds : move.Binds w r
  · cases move with
    | perform budget step =>
        cases step with
        | bindReference name d =>
            have hgrows := d.within_build [] w.cleared
            have htargets : ((d.build []).after w.cleared).Targets r q := by
              obtain ⟨dispatched, hcell⟩ := h
              exact ⟨dispatched, hgrows.steady.references_eq ▸ hcell⟩
            rw [after_bindReference hbinds]
            rcases hd : d.build [] w.cleared with ⟨p, v⟩ | ⟨halt, v⟩
            · rw [Run.after_of_ok hd] at htargets
              rw [Run.after_bind_of_ok hd, Run.after_bind_pure]
              rcases World.bindReference_cases r p v with ⟨f, hend⟩ | ⟨c, events, -, hend⟩
              · rwa [Run.after_of_error hend]
              · exact absurd ⟨hbinds, v, _, hd, hend⟩ (hkeep p)
            · rw [Run.after_of_error hd] at htargets
              rwa [Run.after_bind_of_error hd]
        | _ => exact hbinds.elim
    | run budget p s i => exact hbinds.elim
    | bind k p =>
        obtain rfl : k = r := hbinds
        rcases World.bindReference_cases k p w with ⟨f, hend⟩ | ⟨c, events, -, hend⟩
        · have hafter : (Move.bind k p).after w = w := Run.after_of_error hend
          rwa [hafter]
        · exact absurd ⟨rfl, rfl, _, hend⟩ (hkeep p)
  · obtain ⟨dispatched, hcell⟩ := h
    obtain ⟨⟨behaviour, target, mark⟩, hcell', hbehaviour, htarget⟩ :=
      (move.changes_after hw).target_eq hbinds hcell
    cases hbehaviour
    cases htarget
    exact ⟨mark, hcell'⟩

theorem BoundLast.targets {moves : List Move} (hw : w.Sound) (h : BoundLast r q w moves) :
    (moves.foldl Move.after w).Targets r q := by
  induction h with
  | set h =>
      rw [List.foldl_append]
      exact h.targets
  | @keep moves move _ hkeep ih =>
      rw [List.foldl_append]
      exact Move.targets_after ((Reaches.foldl moves w).sound hw) ih hkeep

instance (w : World) (r : Nat) : Decidable (w.Bound r) :=
  decidable_of_iff ((w.references[r]?).any (·.target.isSome) = true) (Option.any_eq_true _ _)

/-- What the builder of a handle returns in the course of moves and after them is a given
reference. -/
structure Returns (moves : List Move) (l r : Nat) : Prop where
  /-- Wherever the builder has returned, it has returned the reference. -/
  returned : ∀ a ∈ arrivals {} moves, a.returns l = true →
    a.world.returned? l = some (.reference r)
  /-- If it is called now, it returns the reference. -/
  returns : (moves.foldl Move.after {}).returned? l = some (.reference r)

/-- A handle is reached by the binding of a reference to a parser. -/
structure Reached (moves : List Move) (l : Nat) (q : Parser) : Prop where
  /-- Whenever the handle is run on the way, it does not fail as an unbound reference does. -/
  on_way : ∀ a ∈ arrivals {} moves, a.parser = .deferred l → a.behaviour.fails = false
  /-- Nor does it now. -/
  now : ((moves.foldl Move.after {}).behaviour (.deferred l)).fails = false
  /-- Wherever the handle is exchanged for the parser, in whatever other parser, a run comes to
  the same outcome as before, at every offset of every input. -/
  exchanged : ∀ p p' : Parser, p.Alike (Parser.Exchange l q) p' → ∀ s i o,
    Run.EndsIn (fun n => p.run n s i) (moves.foldl Move.after {}) o ↔
      Run.EndsIn (fun n => p'.run n s i) (moves.foldl Move.after {}) o

/-- Once a reference is bound, this reaches every handle whose builder returns the reference,
unless the builder has returned when the reference was not bound. -/
theorem bound_for_everybody (moves : List Move) (l r : Nat) (q : Parser)
    (hset : BoundLast r q {} moves) (hreturns : Returns moves l r)
    (hbound : ∀ a ∈ arrivals {} moves, a.returns l = true → a.world.Bound r) :
    Reached moves l q := by
  have hkept : ∀ a ∈ arrivals {} moves, a.returns l = true →
      (((Behaviour.buildRule l).after a.world).behaviour (.deferred l)).Through l r := by
    intro a ha hcall
    have hrefers := World.refers_of_returned (hreturns.returned a ha hcall)
    obtain ⟨c, hc, htarget⟩ := hbound a ha hcall
    have hdispatch := (sound_of_mem_arrivals World.sound_empty ha).behaviour_reference hc
    rw [if_pos htarget] at hdispatch
    rw [hrefers.behaviour_buildRule, hdispatch]
    exact .inr rfl
  obtain ⟨hthrough, harrivals⟩ := told_arrivals (World.account_keepsTo l (·.Through l r))
    World.sound_empty moves (.inl rfl) hkept
  have hstands : (moves.foldl Move.after {}).StandsFor l r q :=
    ⟨World.refers_of_returned hreturns.returns, hset.targets World.sound_empty, hthrough⟩
  constructor
  case on_way =>
    intro a ha hself
    unfold Arrival.behaviour
    rw [hself]
    exact (harrivals a ha).fails_eq_false
  case now => exact hthrough.fails_eq_false
  case exchanged =>
    intro p p' halike s i o
    have hback := halike.symm fun _ _ hexchange => hexchange.symm
    exact ⟨hstands.endsIn_of_exchange halike i, hstands.endsIn_of_exchange hback i⟩

/-- A handle whose rule is missing when it is run for the first time. It is run again when the
reference is bound, and after that the reference cannot be bound anew. -/
theorem bound_for_everybody_of_retried :
    ∃ moves, BoundLast 0 (.string "a") {} moves ∧ Returns moves 0 0 ∧
      (∀ a ∈ arrivals {} moves, a.returns 0 = true → a.world.Bound 0) ∧
      (arrivals {} moves).countP (fun a => a.behaviour.builds 0) = 2 ∧
      Reached moves 0 (.string "a") ∧ Run.EndsIn (fun n => (Parser.deferred 0).run n ['a'] 0)
        (moves.foldl Move.after {}) (.ok (.ok 1 (.str "a"))) := by
  let before : List Move := [.perform 0 (.reference "r"),
    .perform 0 (.assign "l" (.deferred "Z" none)), .perform 5 (.call (.known "l") ['a'] 0),
    .perform 0 (.rule "Z" (.known "r"))]
  let after : Move := .perform 5 (.call (.wrap .many (.known "l")) ['a', 'a'] 0)
  let again : Move := .bind 0 .eof
  let moves : List Move := before ++ [.bind 0 (.string "a")] ++ [after] ++ [again]
  have hset : BoundLast 0 (.string "a") {} moves := by
    refine .keep (.keep (.set ⟨rfl, rfl, ?_⟩) fun _ => id) ?_
    · have hok : ((Run.bindReference 0 (.string "a")).run' (before.foldl Move.after {})).isSome =
          true := by decide +kernel
      obtain ⟨_, hok⟩ := Option.isSome_iff_exists.mp hok
      exact Run.exists_of_run'_eq_some hok
    · rintro p ⟨-, rfl, v, hv⟩
      have hrefused : ((Run.bindReference 0 .eof).run' ((before ++ [Move.bind 0 (.string "a")] ++
          [after]).foldl Move.after {})).isSome = false := by decide +kernel
      rw [Run.run'_of_ok hv] at hrefused
      cases hrefused
  have hreturns : Returns moves 0 0 := ⟨by decide +kernel, by decide +kernel⟩
  have hbound : ∀ a ∈ arrivals {} moves, a.returns 0 = true → a.world.Bound 0 := by
    decide +kernel
  have hreached := bound_for_everybody moves 0 0 _ hset hreturns hbound
  exact ⟨moves, hset, hreturns, hbound, by decide +kernel, hreached,
    (hreached.exchanged _ _ (.base .forth) ['a'] 0 _).mpr (.of_succ ⟨_, .of_forall fun _ => rfl⟩)⟩

/-- A handle that is run before the reference is bound keeps to its failure. -/
theorem not_forall_bound_for_everybody :
    ¬ ∀ (moves : List Move) (l r : Nat) (q : Parser), BoundLast r q {} moves →
      Returns moves l r → ∀ s i o,
        Run.EndsIn (fun n => (Parser.deferred l).run n s i) (moves.foldl Move.after {}) o ↔
          Run.EndsIn (fun n => q.run n s i) (moves.foldl Move.after {}) o := by
  intro h
  let before : List Move := [.perform 0 (.reference "r"), .perform 0 (.rule "Z" (.known "r")),
    .perform 0 (.assign "l" (.deferred "Z" none)), .perform 5 (.call (.known "l") ['a'] 0)]
  let moves : List Move := before ++ [.bind 0 (.string "a")]
  have hset : BoundLast 0 (.string "a") {} moves := by
    have hok : ((Run.bindReference 0 (.string "a")).run' (before.foldl Move.after {})).isSome =
        true := by decide +kernel
    obtain ⟨_, hok⟩ := Option.isSome_iff_exists.mp hok
    exact .set ⟨rfl, rfl, Run.exists_of_run'_eq_some hok⟩
  have hq : Run.EndsIn (fun n => (Parser.string "a").run n ['a'] 0) (moves.foldl Move.after {})
      (.ok (.ok 1 (.str "a"))) := .of_succ ⟨_, .of_forall fun _ => rfl⟩
  obtain ⟨v, hv⟩ := (h moves 0 0 _ hset ⟨by decide +kernel, by decide +kernel⟩ ['a'] 0 _).mpr hq
  have hfails : ((moves.foldl Move.after {}).behaviour (.deferred 0)).fails = true := by
    decide +kernel
  obtain ⟨k, hk⟩ := Behaviour.fails_iff.mp hfails
  obtain ⟨n, hn⟩ := Filter.eventually_atTop.mp hv
  obtain ⟨events, hend⟩ := Behaviour.perform_unbound k ['a'] 0 (moves.foldl Move.after {})
  have hrun := (World.run_deferred _ 0 n ['a'] 0).symm.trans (hn (n + 1) (Nat.le_succ n))
  rw [hk, hend] at hrun
  cases hrun

end Session

end Descent
