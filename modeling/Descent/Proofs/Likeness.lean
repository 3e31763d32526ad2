/-
# Actions that do alike

Two actions do alike if they lead to replies that correspond whenever they are
started at offsets that correspond. A likeness says what corresponds; it has to be
kept by everything the combinators do to replies. For each combinator there is one
lemma: parts that do alike make wholes that do alike. In loops without a bound the
second run is free to take as many turns as it needs.
-/

import Descent.Action
import Descent.Proofs.Comparison
import Descent.Proofs.Primitive
import Mathlib.Data.List.Forall2

namespace Descent

open Filter

/-- Which offsets and replies of runs on two inputs correspond. -/
structure Likeness (s s' : Text) where
  offsets : Int → Int → Prop
  replies : Reply → Reply → Prop
  offsets_inj : ∀ {i i' j j'}, offsets i i' → offsets j j' → (i = j ↔ i' = j')
  status_eq : ∀ {r r'}, replies r r' → r.status = r'.status
  value_eq : ∀ {r r'}, replies r r' → r.value = r'.value
  index : ∀ {r r'}, replies r r' → r.status = true → offsets r.index r'.index
  ok : ∀ {i i'} v, offsets i i' → replies (.ok i v) (.ok i' v)
  error : ∀ {i i'} d, offsets i i' → replies (.error i d) (.error i' d)
  mergeWith : ∀ {r r' t t'}, replies r r' → replies t t' →
    replies (r.mergeWith t) (r'.mergeWith t')
  moved : ∀ {r r' i i'}, replies r r' → r.status = true → offsets i i' →
    replies { r with index := i } { r' with index := i' }
  relabelled : ∀ {r r'} d, replies r r' → r.status = false →
    replies { r with expected := .singleton d } { r' with expected := .singleton d }
  unwanted_eq : ∀ {i i' j j'} d, offsets i i' → offsets j j' →
    Action.unwanted s i j d = Action.unwanted s' i' j' d

namespace Likeness

/-- Everything corresponds to itself only. -/
def same (s : Text) : Likeness s s where
  offsets i i' := i = i'
  replies r r' := r = r'
  offsets_inj hi hj := by rw [hi, hj]
  status_eq h := by rw [h]
  value_eq h := by rw [h]
  index h _ := by rw [h]
  ok v h := by rw [h]
  error d h := by rw [h]
  mergeWith h ht := by rw [h, ht]
  moved h _ hi := by rw [h, hi]
  relabelled d h _ := by rw [h]
  unwanted_eq d hi hj := by rw [hi, hj]

/-- A likeness of runs on one input, in which offsets correspond to themselves only, and
a reply to itself at least. -/
structure Fixed {s : Text} (L : Likeness s s) : Prop where
  offsets_eq : ∀ {i i'}, L.offsets i i' → i = i'
  replies_refl : ∀ r, L.replies r r

theorem Fixed.same (s : Text) : (Likeness.same s).Fixed :=
  ⟨id, fun _ => rfl⟩

variable {s s' : Text} (L : Likeness s s') {r r' : Reply} {context context' : Option Reply}

theorem merge (h : L.replies r r') (hcontext : Option.Rel L.replies context context') :
    L.replies (r.merge context) (r'.merge context') := by
  cases hcontext with
  | none => exact h
  | some hcontext => exact L.mergeWith h hcontext

theorem listReply {i i' : Int} (values : List Value) (hi : L.offsets i i')
    (hcontext : Option.Rel L.replies context context') :
    L.replies (Action.listReply i context values) (Action.listReply i' context' values) :=
  L.merge (L.ok _ hi) hcontext

end Likeness

namespace Comparison

variable (c : Comparison) {s s' : Text} (L : Likeness s s')

/-- Two actions do alike in all worlds after two given ones. -/
def Acts (act : Action) (act' : Nat → Action) (w w' : World) : Prop :=
  ∀ v v' i i', c.Reaches w w' v v' → L.offsets i i' →
    c.Follows (fun _ _ => L.replies) (act s i) (fun n => act' n s' i') v v'

/-- A turn that consumes nothing ends in matching faults. -/
def IdleTurns : Prop :=
  ∀ {i i'}, L.offsets i i' →
    c.faults (.idleRepetition i) (.idleRepetition i') ∧ c.faults (.idleTurn i) (.idleTurn i')

variable {c L} {w w' v v' : World} {p q : Action} {p' q' : Nat → Action}

/-- Corresponding replies are both successes or both failures. -/
theorem follows_status {r r' : Reply} {x x₂ : Run Reply} {y y₂ : Nat → Run Reply}
    (hr : L.replies r r')
    (hok : r.status = true → c.Follows (fun _ _ => L.replies) x y v v')
    (hfail : r.status = false → c.Follows (fun _ _ => L.replies) x₂ y₂ v v') :
    c.Follows (fun _ _ => L.replies) (if r.status = true then x else x₂)
      (fun n => if r'.status = true then y n else y₂ n) v v' := by
  apply Follows.ite
  · rw [L.status_eq hr]
  · exact hok
  · intro hnot
    exact hfail (by simpa using hnot)

namespace Acts

theorem bind {f : Value → Action} {f' : Nat → Value → Action} (hp : c.Acts L p p' w w')
    (hf : ∀ v, c.Acts L (f v) (fun n => f' n v) w w') :
    c.Acts L (Action.bind p f) (fun n => Action.bind (p' n) (f' n)) w w' := by
  intro v v' i i' hreach hi
  apply (hp v v' i i' hreach hi).bind
  intro u u' r r' hru hr
  apply follows_status hr
  · intro hok
    rw [← L.value_eq hr]
    apply (hf r.value u u' _ _ (hreach.trans hru) (L.index hr hok)).bind
    intro t t' n n' hrt hn
    exact .pure hrt.related (L.mergeWith hn hr)
  · exact fun _ => .pure hru.related hr

theorem andThen (hp : c.Acts L p p' w w') (hq : c.Acts L q q' w w') :
    c.Acts L (Action.andThen p q) (fun n => Action.andThen (p' n) (q' n)) w w' :=
  bind hp fun _ => hq

theorem skip (hp : c.Acts L p p' w w') (hq : c.Acts L q q' w w') :
    c.Acts L (Action.skip p q) (fun n => Action.skip (p' n) (q' n)) w w' := by
  intro v v' i i' hreach hi
  apply (hp v v' i i' hreach hi).bind
  intro u u' r r' hru hr
  apply follows_status hr
  · intro hok
    apply (hq u u' _ _ (hreach.trans hru) (L.index hr hok)).bind
    intro t t' n n' hrt hn
    have hmerged := L.mergeWith hn hr
    apply follows_status hmerged
    · intro hend
      rw [← L.value_eq hr]
      exact .pure hrt.related (L.mergeWith (L.ok _ (L.index hmerged hend)) hmerged)
    · exact fun _ => .pure hrt.related hmerged
  · exact fun _ => .pure hru.related hr

theorem orElse (hp : c.Acts L p p' w w') (hq : c.Acts L q q' w w') :
    c.Acts L (Action.orElse p q) (fun n => Action.orElse (p' n) (q' n)) w w' := by
  intro v v' i i' hreach hi
  apply (hp v v' i i' hreach hi).bind
  intro u u' r r' hru hr
  apply follows_status hr
  · exact fun _ => .pure hru.related hr
  · intro _
    apply (hq u u' _ _ (hreach.trans hru) hi).bind
    intro t t' n n' hrt hn
    exact .pure hrt.related (L.mergeWith hn hr)

theorem map {f : Value → Call Value} (hf : ∀ v, c.Repeats (f v)) (hp : c.Acts L p p' w w') :
    c.Acts L (Action.map p f) (fun n => Action.map (p' n) f) w w' := by
  intro v v' i i' hreach hi
  apply (hp v v' i i' hreach hi).bind
  intro u u' r r' hru hr
  apply follows_status hr
  · intro hok
    rw [← L.value_eq hr]
    apply (hf r.value hru.related).bind
    intro t t' a a' hrt ha
    subst ha
    exact .pure hrt.related (L.mergeWith (L.ok a (L.index hr hok)) hr)
  · exact fun _ => .pure hru.related hr

theorem withDefault {call : Call Value} (hcall : c.Repeats call) (hp : c.Acts L p p' w w') :
    c.Acts L (Action.withDefault p call) (fun n => Action.withDefault (p' n) call) w w' := by
  intro v v' i i' hreach hi
  apply (hp v v' i i' hreach hi).bind
  intro u u' r r' hru hr
  rw [← L.status_eq hr, ← L.value_eq hr]
  split
  · next hok _ =>
    apply (hcall hru.related).bind
    intro t t' a a' hrt ha
    subst ha
    exact .pure hrt.related (L.mergeWith (L.ok a (L.index hr hok)) hr)
  · exact .pure hru.related hr

theorem label (description : String) (hp : c.Acts L p p' w w') :
    c.Acts L (Action.label p description) (fun n => Action.label (p' n) description) w w' := by
  intro v v' i i' hreach hi
  apply (hp v v' i i' hreach hi).bind
  intro u u' r r' hru hr
  apply follows_status hr
  · exact fun _ => .pure hru.related hr
  · intro hfail
    exact .pure hru.related (L.relabelled description hr hfail)

theorem lookAhead (hp : c.Acts L p p' w w') :
    c.Acts L (Action.lookAhead p) (fun n => Action.lookAhead (p' n)) w w' := by
  intro v v' i i' hreach hi
  apply (hp v v' i i' hreach hi).bind
  intro u u' r r' hru hr
  apply follows_status hr
  · intro hok
    exact .pure hru.related (L.moved hr hok hi)
  · exact fun _ => .pure hru.related hr

theorem notFollowedBy (description : Option String) (hp : c.Acts L p p' w w') :
    c.Acts L (Action.notFollowedBy p description)
      (fun n => Action.notFollowedBy (p' n) description) w w' := by
  intro v v' i i' hreach hi
  apply (hp v v' i i' hreach hi).bind
  intro u u' r r' hru hr
  apply follows_status hr
  · intro hok
    rw [← L.unwanted_eq description hi (L.index hr hok)]
    exact .pure hru.related (L.error _ hi)
  · exact fun _ => .pure hru.related (L.ok _ hi)

/-- Traces are the same on both sides if the inputs and offsets are. -/
theorem traced {L : Likeness s s} {q : Action} {q' : Nat → Action} (hc : c.Accompanies)
    (hL : L.Fixed) (text : String) (hp : c.Acts L q q' w w') :
    c.Acts L (Action.traced text q) (fun n => Action.traced text (q' n)) w w' := by
  intro v v' i i' hreach hi
  cases hL.offsets_eq hi
  have write (label : String) {u u' : World} (hu : c.related u u') :=
    hc.plain (Action.plain_writeTrace label s i) hu
  have finish (on : Bool) (r r' : Reply) (hr : L.replies r r') {u u' : World}
      (hu : c.related u u') :
      c.Follows (fun _ _ => L.replies)
        (if (on && !r.status) = true then
          Action.writeTrace (text ++ " backtracked") s i >>= fun _ => Pure.pure r else Pure.pure r)
        (fun _ => if (on && !r'.status) = true then
          Action.writeTrace (text ++ " backtracked") s i >>= fun _ => Pure.pure r'
          else Pure.pure r') u u' := by
    apply Follows.ite (by rw [L.status_eq hr])
    · intro _
      exact (write _ hu).bind fun t t' _ _ hrt _ => .pure hrt.related hr
    · exact fun _ => .pure hu hr
  apply (hc.plain Action.plain_tracing hreach.related).bind
  intro u u' on on' hru hon
  subst hon
  apply Follows.ite Iff.rfl
  · intro _
    apply (write text hru.related).bind
    intro t t' _ _ hrt _
    apply (hp t t' i i (hreach.trans (hru.trans hrt)) hi).bind
    intro z z' r r' hrz hr
    exact finish on r r' hr hrz.related
  · intro _
    apply (hp u u' i i (hreach.trans hru) hi).bind
    intro z z' r r' hrz hr
    exact finish on r r' hr hrz.related

end Acts

section Loops

variable {context context' : Option Reply} {i i' : Int}

/-- Turns that must be made lead to what follows them. -/
theorem follows_required {done : Int → Option Reply → List Value → Run Reply}
    {done' : Nat → Int → Option Reply → List Value → Run Reply} (hp : c.Acts L p p' w w')
    (hdone : ∀ v v' i i' context context' values, c.Reaches w w' v v' → L.offsets i i' →
      Option.Rel L.replies context context' →
      c.Follows (fun _ _ => L.replies) (done i context values)
        (fun n => done' n i' context' values) v v')
    (count : Nat) (values : List Value) (hreach : c.Reaches w w' v v') (hi : L.offsets i i')
    (hcontext : Option.Rel L.replies context context') :
    c.Follows (fun _ _ => L.replies) (Action.required p s done count i context values)
      (fun n => Action.required (p' n) s' (done' n) count i' context' values) v v' := by
  induction count generalizing v v' i i' context context' values with
  | zero => exact hdone v v' i i' context context' values hreach hi hcontext
  | succ count ih =>
      apply (hp v v' i i' hreach hi).bind
      intro u u' r r' hru hr
      have hmerged := L.merge hr hcontext
      apply follows_status hr
      · intro hok
        rw [← L.value_eq hr]
        exact ih _ (hreach.trans hru) (L.index hr hok) (.some hmerged)
      · exact fun _ => .pure hru.related hmerged

theorem follows_bounded (hp : c.Acts L p p' w w') (count : Nat) (values : List Value)
    (hreach : c.Reaches w w' v v') (hi : L.offsets i i')
    (hcontext : Option.Rel L.replies context context') :
    c.Follows (fun _ _ => L.replies) (Action.bounded p s count i context values)
      (fun n => Action.bounded (p' n) s' count i' context' values) v v' := by
  induction count generalizing v v' i i' context context' values with
  | zero => exact .pure hreach.related (L.listReply values hi hcontext)
  | succ count ih =>
      apply (hp v v' i i' hreach hi).bind
      intro u u' r r' hru hr
      have hmerged := L.merge hr hcontext
      apply follows_status hr
      · intro hok
        rw [← L.value_eq hr]
        exact ih _ (hreach.trans hru) (L.index hr hok) (.some hmerged)
      · intro _
        exact .pure hru.related (L.listReply values hi (.some hmerged))

/-- In a large budget there is always one more turn left. -/
theorem eventually_turn (used : Nat) : ∀ᶠ n in atTop, n - used = n - (used + 1) + 1 := by
  filter_upwards [eventually_ge_atTop (used + 1)] with n hn
  omega

/-- A loop whose second run has used up some of its turns. -/
theorem follows_unbounded (hidle : c.IdleTurns L) (hp : c.Acts L p p' w w') (turns used : Nat)
    (values : List Value) (hreach : c.Reaches w w' v v') (hi : L.offsets i i')
    (hcontext : Option.Rel L.replies context context') :
    c.Follows (fun _ _ => L.replies) (Action.unbounded p s turns i context values)
      (fun n => Action.unbounded (p' n) s' (n - used) i' context' values) v v' := by
  induction turns generalizing v v' i i' context context' values used with
  | zero => exact .unfinished
  | succ turns ih =>
      refine Follows.congr (y := fun n =>
        Action.unbounded (p' n) s' (n - (used + 1) + 1) i' context' values) ?_ rfl
        ((eventually_turn used).mono fun n hn => by rw [hn])
      apply (hp v v' i i' hreach hi).bind
      intro u u' r r' hru hr
      have hmerged := L.merge hr hcontext
      apply Follows.ite (by rw [L.status_eq hr])
      · intro _
        exact .pure hru.related (L.listReply values hi (.some hmerged))
      · intro hok
        have hindex := L.index hr (by simpa using hok)
        apply Follows.ite (L.offsets_inj hindex hi)
        · intro _
          exact .fault hru.related (hidle hi).1
        · intro _
          rw [← L.value_eq hr]
          exact ih (used + 1) _ (hreach.trans hru) hindex (.some hmerged)

theorem Acts.times (hidle : c.IdleTurns L) (turns : Nat) (r : Repetition)
    (hp : c.Acts L p p' w w') :
    c.Acts L (Action.times turns p r) (fun n => Action.times n (p' n) r) w w' := by
  intro v v' i i' hreach hi
  unfold Action.times
  cases r.most with
  | some most =>
      refine follows_required hp (fun u u' j j' context context' values hru hj hcontext => ?_)
        r.least [] hreach hi .none
      exact follows_bounded hp (most - r.least) values hru hj hcontext
  | none =>
      refine follows_required hp (fun u u' j j' context context' values hru hj hcontext => ?_)
        r.least [] hreach hi .none
      exact follows_unbounded hidle hp turns 0 values hru hj hcontext

/-- The same for a loop that ends where another action succeeds. -/
theorem follows_turnsTill (hidle : c.IdleTurns L) (hp : c.Acts L p p' w w')
    (hq : c.Acts L q q' w w') (turns used : Nat) (values : List Value)
    (hreach : c.Reaches w w' v v') (hi : L.offsets i i')
    (hcontext : Option.Rel L.replies context context') :
    c.Follows (fun _ _ => L.replies) (Action.turnsTill p q s turns i context values)
      (fun n => Action.turnsTill (p' n) (q' n) s' (n - used) i' context' values) v v' := by
  induction turns generalizing v v' i i' context context' values used with
  | zero => exact .unfinished
  | succ turns ih =>
      refine Follows.congr (y := fun n =>
        Action.turnsTill (p' n) (q' n) s' (n - (used + 1) + 1) i' context' values) ?_ rfl
        ((eventually_turn used).mono fun n hn => by rw [hn])
      apply (hq v v' i i' hreach hi).bind
      intro u u' e e' hru he
      have hended := L.merge he hcontext
      apply follows_status hended
      · intro hok
        exact .pure hru.related (L.mergeWith (L.ok _ (L.index hended hok)) hended)
      · intro _
        apply (hp u u' i i' (hreach.trans hru) hi).bind
        intro t t' r r' hrt hr
        have hmerged := L.mergeWith hr hended
        apply Follows.ite (by rw [L.status_eq hmerged])
        · exact fun _ => .pure hrt.related hmerged
        · intro hok
          have hindex := L.index hmerged (by simpa using hok)
          apply Follows.ite (L.offsets_inj hindex hi)
          · intro _
            exact .fault hrt.related (hidle hi).2
          · intro _
            rw [← L.value_eq hmerged]
            exact ih (used + 1) _ (hreach.trans (hru.trans hrt)) hindex (.some hmerged)

theorem Acts.manyTill (hidle : c.IdleTurns L) (turns : Nat) (hp : c.Acts L p p' w w')
    (hq : c.Acts L q q' w w') :
    c.Acts L (Action.manyTill turns p q) (fun n => Action.manyTill n (p' n) (q' n)) w w' :=
  fun _ _ _ _ hreach hi => follows_turnsTill hidle hp hq turns 0 [] hreach hi .none

/-- Rows of actions that do alike, one by one. -/
theorem follows_seqFrom {ps : List Action} {ps' : List (Nat → Action)}
    (h : List.Forall₂ (fun p p' => c.Acts L p p' w w') ps ps') (values : List Value)
    (hreach : c.Reaches w w' v v') (hi : L.offsets i i')
    (hcontext : Option.Rel L.replies context context') :
    c.Follows (fun _ _ => L.replies) (Action.seqFrom s ps i context values)
      (fun n => Action.seqFrom s' (ps'.map (· n)) i' context' values) v v' := by
  induction h generalizing v v' i i' context context' values with
  | nil => exact .pure hreach.related (L.listReply values hi hcontext)
  | cons hp _ ih =>
      apply (hp v v' i i' hreach hi).bind
      intro u u' r r' hru hr
      have hmerged := L.merge hr hcontext
      apply follows_status hmerged
      · intro hok
        rw [← L.value_eq hmerged]
        exact ih _ (hreach.trans hru) (L.index hmerged hok) (.some hmerged)
      · exact fun _ => .pure hru.related hmerged

/-- Families of actions that do alike, as rows. -/
theorem forall₂_acts {n : Nat} {ps : Fin n → Action} {ps' : Fin n → Nat → Action}
    (h : ∀ k, c.Acts L (ps k) (ps' k) w w') :
    List.Forall₂ (fun p p' => c.Acts L p p' w w') (List.ofFn ps) (List.ofFn ps') := by
  induction n with
  | zero => simp
  | succ n ih =>
      rw [List.ofFn_succ, List.ofFn_succ]
      exact .cons (h 0) (ih fun k => h k.succ)

theorem Acts.seq {n : Nat} {ps : Fin n → Action} {ps' : Fin n → Nat → Action}
    (h : ∀ k, c.Acts L (ps k) (ps' k) w w') :
    c.Acts L (Action.seq (List.ofFn ps)) (fun n => Action.seq (List.ofFn fun k => ps' k n))
      w w' := by
  intro v v' i i' hreach hi
  have hrow := follows_seqFrom (forall₂_acts h) [] hreach hi .none
  simp only [List.map_ofFn] at hrow
  exact hrow

theorem follows_altFrom {ps : List Action} {ps' : List (Nat → Action)}
    (h : List.Forall₂ (fun p p' => c.Acts L p p' w w') ps ps') (hreach : c.Reaches w w' v v')
    (hi : L.offsets i i') (hcontext : Option.Rel L.replies context context') :
    c.Follows (fun _ _ => L.replies) (Action.altFrom s i ps context)
      (fun n => Action.altFrom s' i' (ps'.map (· n)) context') v v' := by
  induction h generalizing v v' context context' with
  | nil =>
      cases hcontext with
      | none => exact .pure hreach.related (L.error _ hi)
      | some hcontext => exact .pure hreach.related hcontext
  | cons hp _ ih =>
      apply (hp v v' i i' hreach hi).bind
      intro u u' r r' hru hr
      have hmerged := L.merge hr hcontext
      apply follows_status hmerged
      · exact fun _ => .pure hru.related hmerged
      · intro _
        exact ih (hreach.trans hru) (.some hmerged)

theorem Acts.alt {n : Nat} {ps : Fin n → Action} {ps' : Fin n → Nat → Action}
    (h : ∀ k, c.Acts L (ps k) (ps' k) w w') :
    c.Acts L (Action.alt (List.ofFn ps)) (fun n => Action.alt (List.ofFn fun k => ps' k n))
      w w' := by
  intro v v' i i' hreach hi
  have hrow := follows_altFrom (forall₂_acts h) hreach hi .none
  simp only [List.map_ofFn] at hrow
  exact hrow

end Loops

end Comparison

end Descent
