/-
# The reply invariant

One invariant holds of every reply that a parser can give when it is started
inside the input. A success stops between its start and the end of the input, a
failure has neither an index nor a value, and in both cases the reply sums up the
failure log of its run, all of whose entries lie between the start and the end.
A failed run has at least one entry.

The invariant is shown for each combinator from the invariant of its parts, loops
carrying the log of the turns made so far. The induction over parsers and budgets
then needs no assumption about the world: references and deferred rules may lead
anywhere.
-/

import Descent.Proofs.Ensures
import Descent.Proofs.FailureLog
import Descent.Proofs.Primitive

namespace Descent

open Watched (Ensures)
open Visit (failuresOf)

/-- All entries of a log lie between an offset and the end of the input. -/
def FailureLog.Within (s : Text) (i : Int) (log : FailureLog) : Prop :=
  ∀ entry ∈ log, i ≤ entry.1 ∧ entry.1 ≤ s.length

theorem FailureLog.Within.mono {s : Text} {i j : Int} {log : FailureLog}
    (h : log.Within s j) (hij : i ≤ j) : log.Within s i :=
  fun entry hentry => ⟨Int.le_trans hij (h entry hentry).1, (h entry hentry).2⟩

theorem FailureLog.Within.append {s : Text} {i : Int} {first second : FailureLog}
    (hfirst : first.Within s i) (hsecond : second.Within s i) :
    FailureLog.Within s i (first ++ second) := by
  intro entry hentry
  rcases List.mem_append.mp hentry with h | h
  · exact hfirst entry h
  · exact hsecond entry h

/-- The invariant of a reply to a parser started at offset `i` of an input, whose
run has left the given failure log. -/
structure Reply.Meets (s : Text) (i : Int) (log : FailureLog) (r : Reply) : Prop where
  sums : r.Sums log
  within : log.Within s i
  success : r.status = true → i ≤ r.index ∧ r.index ≤ s.length
  failure : r.status = false → r.index = -1 ∧ r.value = .null ∧ log ≠ []

/-- What a loop carries from turn to turn: no reply before the first turn, and
then one that sums up the log so far. -/
inductive Context (s : Text) (i : Int) : FailureLog → Option Reply → Prop
  | start : Context s i [] none
  | turn {log : FailureLog} {r : Reply} (sums : r.Sums log) (within : log.Within s i) :
      Context s i log (some r)

namespace Reply.Meets

variable {s : Text} {i j : Int} {log first second : FailureLog} {r newer older : Reply}

theorem ok (v : Value) (hij : i ≤ j) (hlen : j ≤ s.length) :
    (Reply.ok j v).Meets s i [] where
  sums := sums_ok j v
  within := fun _ h => by cases h
  success _ := ⟨hij, hlen⟩
  failure h := by cases h

theorem error (description : String) (hi : 0 ≤ i) (hlen : i ≤ s.length) :
    (Reply.error i description).Meets s i [(i, description)] where
  sums := sums_error i description hi
  within := by
    intro entry hentry
    cases List.mem_singleton.mp hentry
    exact ⟨Int.le_refl i, hlen⟩
  success h := by cases h
  failure _ := ⟨rfl, rfl, by simp⟩

/-- A reply to a later start, merged with the context of an earlier one. -/
theorem merge {context : Option Reply} (hnewer : newer.Meets s j second)
    (hcontext : Context s i first context) (hij : i ≤ j) :
    (newer.merge context).Meets s i (first ++ second) := by
  cases hcontext with
  | start =>
      exact ⟨hnewer.sums, hnewer.within.mono hij,
        fun h => ⟨Int.le_trans hij (hnewer.success h).1, (hnewer.success h).2⟩, hnewer.failure⟩
  | turn sums within =>
      refine ⟨hnewer.sums.mergeWith sums, within.append (hnewer.within.mono hij), ?_, ?_⟩
      · intro h
        simp only [Reply.merge, mergeWith_status, mergeWith_index] at h ⊢
        exact ⟨Int.le_trans hij (hnewer.success h).1, (hnewer.success h).2⟩
      · intro h
        simp only [Reply.merge, mergeWith_status, mergeWith_index, mergeWith_value] at h ⊢
        obtain ⟨hindex, hvalue, hlog⟩ := hnewer.failure h
        exact ⟨hindex, hvalue, fun hnil => hlog (List.append_eq_nil_iff.mp hnil).2⟩

theorem context (h : r.Meets s i log) : Context s i log (some r) :=
  .turn h.sums h.within

theorem mergeWith (hnewer : newer.Meets s j second) (holder : older.Meets s i first)
    (hij : i ≤ j) : (newer.mergeWith older).Meets s i (first ++ second) :=
  hnewer.merge holder.context hij

/-- A success that ends a run leaves the log of its context. -/
theorem ok_merge {context : Option Reply} (v : Value) (hcontext : Context s i log context)
    (hij : i ≤ j) (hlen : j ≤ s.length) : ((Reply.ok j v).merge context).Meets s i log := by
  simpa using (ok v hij hlen : (Reply.ok j v).Meets s i []).merge hcontext (Int.le_refl i)

theorem ok_mergeWith (v : Value) (h : r.Meets s i log) (hij : i ≤ j) (hlen : j ≤ s.length) :
    ((Reply.ok j v).mergeWith r).Meets s i log :=
  ok_merge v h.context hij hlen

/-- A reply that sums up the same log and stops elsewhere in the input. -/
theorem withIndex (h : r.Meets s i log) (hok : r.status = true) (hij : i ≤ j)
    (hlen : j ≤ s.length) : ({ r with index := j } : Reply).Meets s i log where
  sums := h.sums.congr rfl rfl
  within := h.within
  success _ := ⟨hij, hlen⟩
  failure hfail := by simp only [hok] at hfail; cases hfail

/-- A failure reported under a description of its own. -/
theorem relabel (h : r.Meets s i log) (hfail : r.status = false) (hi : 0 ≤ i)
    (description : String) :
    ({ r with expected := .singleton description } : Reply).Meets s i
      [(log.latest, description)] := by
  obtain ⟨hindex, hvalue, hlog⟩ := h.failure hfail
  obtain ⟨d, hd⟩ := FailureLog.exists_mem_latest hlog
    fun entry hentry => Int.le_trans hi (h.within entry hentry).1
  obtain ⟨hle, hlen⟩ := h.within _ hd
  refine ⟨⟨?_, fun e => ?_⟩, ?_, fun hok => ?_, fun _ => ⟨hindex, hvalue, by simp⟩⟩
  · simp only [h.sums.furthest_eq, FailureLog.latest]
    simp only at hle
    omega
  · simp [h.sums.furthest_eq]
  · intro entry hentry
    cases List.mem_singleton.mp hentry
    exact ⟨hle, hlen⟩
  · simp only [hfail] at hok
    cases hok

end Reply.Meets

namespace Watched

/-- An action whose every reply inside the input meets the invariant, with the log
that its visits leave. -/
def Faithful (act : ActionIn Watched) : Prop :=
  ∀ (s : Text) (i : Int), 0 ≤ i → i ≤ s.length →
    Ensures i s.length (fun vs r => r.Meets s i (failuresOf s vs)) (act s i)

/-- The rest of a loop: from every state that the loop can reach, the reply meets
the invariant for the log so far together with that of the turns to come. -/
def Continues (s : Text) (start : Int)
    (k : Int → Option Reply → List Value → Watched Reply) : Prop :=
  ∀ (i : Int) (context : Option Reply) (values : List Value) (log : FailureLog),
    start ≤ i → i ≤ s.length → Context s start log context →
      Ensures start s.length (fun vs r => r.Meets s start (log ++ failuresOf s vs))
        (k i context values)

variable {p q : ActionIn Watched}

/-- A part that is started later than the whole stays within the range of the whole. -/
theorem Faithful.later (hp : Faithful p) {s : Text} {start i : Int} (h0 : 0 ≤ start)
    (hstart : start ≤ i) (hlen : i ≤ s.length) :
    Ensures start s.length (fun vs r => r.Meets s i (failuresOf s vs)) (p s i) :=
  (hp s i (Int.le_trans h0 hstart) hlen).weaken hstart fun _ _ h => h

section Sequences

theorem faithful_bind {f : Value → ActionIn Watched} (hp : Faithful p)
    (hf : ∀ v, Faithful (f v)) : Faithful (Action.bind p f) := by
  intro s i hi hlen
  apply (hp s i hi hlen).bind
  intro vs reply hreply
  split
  · next hok =>
    obtain ⟨hle, hle'⟩ := hreply.success hok
    refine ((hf reply.value).later hi hle hle').bind fun us next hnext => .pure ?_
    simpa [Visit.failuresOf_append] using hnext.mergeWith hreply hle
  · exact .pure (by simpa using hreply)

theorem faithful_map (hp : Faithful p) (f : Value → Call Value) :
    Faithful (Action.map p f) := by
  intro s i hi hlen
  apply (hp s i hi hlen).bind
  intro vs reply hreply
  split
  · next hok =>
    obtain ⟨hle, hle'⟩ := hreply.success hok
    refine Ensures.lift_bind _ fun v => .pure ?_
    simpa using hreply.ok_mergeWith v hle hle'
  · exact .pure (by simpa using hreply)

theorem faithful_andThen (hp : Faithful p) (hq : Faithful q) :
    Faithful (Action.andThen p q) := by
  intro s i hi hlen
  apply (hp s i hi hlen).bind
  intro vs first hfirst
  split
  · next hok =>
    obtain ⟨hle, hle'⟩ := hfirst.success hok
    refine (hq.later hi hle hle').bind fun us second hsecond => .pure ?_
    simpa [Visit.failuresOf_append] using hsecond.mergeWith hfirst hle
  · exact .pure (by simpa using hfirst)

theorem faithful_skip (hp : Faithful p) (hq : Faithful q) : Faithful (Action.skip p q) := by
  intro s i hi hlen
  apply (hp s i hi hlen).bind
  intro vs first hfirst
  split
  · next hok =>
    obtain ⟨hle, hle'⟩ := hfirst.success hok
    apply (hq.later hi hle hle').bind
    intro us second hsecond
    have hboth := hsecond.mergeWith hfirst hle
    rw [← Visit.failuresOf_append] at hboth
    simp only
    split
    · next hok' =>
      obtain ⟨hstart, hstop⟩ := hboth.success hok'
      exact .pure (by simpa using hboth.ok_mergeWith first.value hstart hstop)
    · exact .pure (by simpa using hboth)
  · exact .pure (by simpa using hfirst)

theorem faithful_orElse (hp : Faithful p) (hq : Faithful q) :
    Faithful (Action.orElse p q) := by
  intro s i hi hlen
  apply (hp s i hi hlen).bind
  intro vs first hfirst
  split
  · exact .pure (by simpa using hfirst)
  · refine (hq s i hi hlen).bind fun us second hsecond => .pure ?_
    simpa [Visit.failuresOf_append] using hsecond.mergeWith hfirst (Int.le_refl i)

end Sequences

section Loops

variable {s : Text} {start : Int}

/-- The list of the values of a loop ends it. -/
theorem continues_listReply :
    Continues s start fun i context values =>
      Pure.pure (Action.listReply i context values) := by
  intro i context values log hstart hlen hcontext
  refine .pure ?_
  simpa [failuresOf, Action.listReply] using Reply.Meets.ok_merge _ hcontext hstart hlen

theorem continues_required (hp : Faithful p) (h0 : 0 ≤ start)
    {done : Int → Option Reply → List Value → Watched Reply} (hdone : Continues s start done)
    (count : Nat) : Continues s start (Action.required p s done count) := by
  induction count with
  | zero => exact hdone
  | succ count ih =>
      intro i context values log hstart hlen hcontext
      apply (hp.later h0 hstart hlen).bind
      intro vs reply hreply
      have hmerged := hreply.merge hcontext hstart
      simp only
      split
      · next hok =>
        obtain ⟨hle, hle'⟩ := hreply.success hok
        have hnext := ih reply.index _ (reply.value :: values) _ (by omega) hle' hmerged.context
        simpa [Visit.failuresOf_append] using hnext
      · exact .pure (by simpa using hmerged)

theorem continues_bounded (hp : Faithful p) (h0 : 0 ≤ start) (count : Nat) :
    Continues s start (Action.bounded p s count) := by
  induction count with
  | zero => exact continues_listReply
  | succ count ih =>
      intro i context values log hstart hlen hcontext
      apply (hp.later h0 hstart hlen).bind
      intro vs reply hreply
      have hmerged := hreply.merge hcontext hstart
      simp only
      split
      · next hok =>
        obtain ⟨hle, hle'⟩ := hreply.success hok
        have hnext := ih reply.index _ (reply.value :: values) _ (by omega) hle' hmerged.context
        simpa [Visit.failuresOf_append] using hnext
      · have hlast := continues_listReply i _ values _ hstart hlen hmerged.context
        simpa [Visit.failuresOf_append] using hlast

theorem continues_unbounded (hp : Faithful p) (h0 : 0 ≤ start) (budget : Nat) :
    Continues s start (Action.unbounded p s budget) := by
  induction budget with
  | zero => exact fun i context values log _ _ _ => .halt fun w a w' h => by cases h
  | succ budget ih =>
      intro i context values log hstart hlen hcontext
      apply (hp.later h0 hstart hlen).bind
      intro vs reply hreply
      have hmerged := hreply.merge hcontext hstart
      simp only
      split
      · have hlast := continues_listReply i _ values _ hstart hlen hmerged.context
        simpa [Visit.failuresOf_append] using hlast
      · next hok =>
        split
        · exact .halt fun w a w' h => by cases h
        · obtain ⟨hle, hle'⟩ := hreply.success (by simpa using hok)
          have hnext := ih reply.index _ (reply.value :: values) _ (by omega) hle'
            hmerged.context
          simpa [Visit.failuresOf_append] using hnext

theorem faithful_times (hp : Faithful p) (budget : Nat) (r : Repetition) :
    Faithful (Action.times budget p r) := by
  intro s i hi hlen
  have hrun {further : Int → Option Reply → List Value → Watched Reply}
      (hfurther : Continues s i further) :=
    continues_required hp hi hfurther r.least i none [] [] (Int.le_refl i) hlen .start
  simp only [List.nil_append] at hrun
  unfold Action.times
  cases r.most with
  | none => exact hrun (continues_unbounded hp hi budget)
  | some most => exact hrun (continues_bounded hp hi (most - r.least))

theorem continues_seqFrom {ps : List (ActionIn Watched)} (hps : ∀ p ∈ ps, Faithful p)
    (h0 : 0 ≤ start) : Continues s start (Action.seqFrom s ps) := by
  induction ps with
  | nil => exact continues_listReply
  | cons p ps ih =>
      intro i context values log hstart hlen hcontext
      have hp := hps p List.mem_cons_self
      apply (hp.later h0 hstart hlen).bind
      intro vs reply hreply
      have hmerged := hreply.merge hcontext hstart
      simp only
      split
      · next hok =>
        obtain ⟨hle, hle'⟩ := hmerged.success hok
        have hnext := ih (fun q hq => hps q (List.mem_cons_of_mem _ hq)) _ _
          ((reply.merge context).value :: values) _ hle hle' hmerged.context
        simpa [Visit.failuresOf_append] using hnext
      · exact .pure (by simpa using hmerged)

theorem faithful_seq {ps : List (ActionIn Watched)} (hps : ∀ p ∈ ps, Faithful p) :
    Faithful (Action.seq ps) := by
  intro s i hi hlen
  simpa [Action.seq] using continues_seqFrom hps hi i none [] [] (Int.le_refl i) hlen .start

theorem continues_turnsTill (hp : Faithful p) (hq : Faithful q) (h0 : 0 ≤ start)
    (budget : Nat) : Continues s start (Action.turnsTill p q s budget) := by
  induction budget with
  | zero => exact fun i context values log _ _ _ => .halt fun w a w' h => by cases h
  | succ budget ih =>
      intro i context values log hstart hlen hcontext
      apply (hq.later h0 hstart hlen).bind
      intro vs ended hended
      have hstop := hended.merge hcontext hstart
      simp only
      split
      · next hok =>
        obtain ⟨hle, hle'⟩ := hstop.success hok
        exact .pure (by simpa using hstop.ok_mergeWith _ hle hle')
      · apply (hp.later h0 hstart hlen).bind
        intro us reply hreply
        have hmerged := hreply.mergeWith hstop hstart
        split
        · exact .pure (by simpa [Visit.failuresOf_append] using hmerged)
        · next hok =>
          split
          · exact .halt fun w a w' h => by cases h
          · obtain ⟨hle, hle'⟩ := hmerged.success (by simpa using hok)
            have hnext := ih _ _ ((reply.mergeWith (ended.merge context)).value :: values) _
              hle hle' hmerged.context
            simpa [Visit.failuresOf_append] using hnext

theorem faithful_manyTill (hp : Faithful p) (hq : Faithful q) (budget : Nat) :
    Faithful (Action.manyTill budget p q) := by
  intro s i hi hlen
  have hrun := continues_turnsTill hp hq hi budget i none [] [] (Int.le_refl i) hlen .start
  simpa [Action.manyTill] using hrun

end Loops

section Choices

/-- The alternatives after some that have failed, which leave a reply that meets
the invariant. -/
theorem ensures_altFrom {s : Text} {i : Int} (hi : 0 ≤ i) (hlen : i ≤ s.length)
    {ps : List (ActionIn Watched)} (hps : ∀ p ∈ ps, Faithful p) {r : Reply}
    {log : FailureLog} (hr : r.Meets s i log) :
    Ensures i s.length (fun vs r => r.Meets s i (log ++ failuresOf s vs))
      (Action.altFrom s i ps (some r)) := by
  induction ps generalizing r log with
  | nil => exact .pure (by simpa [failuresOf] using hr)
  | cons p ps ih =>
      apply (hps p List.mem_cons_self s i hi hlen).bind
      intro vs reply hreply
      have hmerged := hreply.merge hr.context (Int.le_refl i)
      simp only
      split
      · exact .pure (by simpa using hmerged)
      · have hnext := ih (fun q hq => hps q (List.mem_cons_of_mem _ hq)) hmerged
        simpa [Visit.failuresOf_append] using hnext

theorem faithful_alt {ps : List (ActionIn Watched)} (hps : ∀ p ∈ ps, Faithful p)
    (hne : ps ≠ []) : Faithful (Action.alt ps) := by
  intro s i hi hlen
  cases ps with
  | nil => exact absurd rfl hne
  | cons p ps =>
      apply (hps p List.mem_cons_self s i hi hlen).bind
      intro vs reply hreply
      change Ensures i s.length _ (if reply.status then Pure.pure reply
        else Action.altFrom s i ps (some reply))
      split
      · exact .pure (by simpa using hreply)
      · have hnext := ensures_altFrom hi hlen
          (fun q hq => hps q (List.mem_cons_of_mem _ hq)) hreply
        simpa [Visit.failuresOf_append] using hnext

theorem faithful_lookAhead (hp : Faithful p) : Faithful (Action.lookAhead p) := by
  intro s i hi hlen
  apply (hp s i hi hlen).bind
  intro vs reply hreply
  split
  · next hok => exact .pure (by simpa using hreply.withIndex hok (Int.le_refl i) hlen)
  · exact .pure (by simpa using hreply)

theorem faithful_withDefault (hp : Faithful p) (c : Call Value) :
    Faithful (Action.withDefault p c) := by
  intro s i hi hlen
  apply (hp s i hi hlen).bind
  intro vs reply hreply
  split
  · next hok hnull =>
    obtain ⟨hle, hle'⟩ := hreply.success hok
    refine Ensures.lift_bind _ fun v => .pure ?_
    simpa using hreply.ok_mergeWith v hle hle'
  · exact .pure (by simpa using hreply)

theorem faithful_traced (hp : Faithful p) (label : String) :
    Faithful (Action.traced label p) := by
  intro s i hi hlen
  have hrest (on : Bool) : Ensures i s.length (fun vs r => r.Meets s i (failuresOf s vs))
      (do
        let reply ← p s i
        if on && !reply.status then
          (liftM (Action.writeTrace (label ++ " backtracked") s i) : Watched Unit)
        return reply) := by
    apply (hp s i hi hlen).bind
    intro vs reply hreply
    simp only
    split
    · refine Ensures.lift_bind _ fun _ => .pure ?_
      simpa using hreply
    · exact .pure (by simpa using hreply)
  apply Ensures.lift_bind
  intro on
  simp only
  split
  · apply Ensures.lift_bind
    intro _
    exact hrest on
  · exact hrest on

end Choices

section Visits

/-- An action whose replies meet the invariant, unless it starts nothing and fails
at once with the given expectation. -/
def Grounded (expected : String) (act : ActionIn Watched) : Prop :=
  ∀ (s : Text) (i : Int), 0 ≤ i → i ≤ s.length →
    Ensures i s.length
      (fun vs r => r.Meets s i (failuresOf s vs) ∨ vs = [] ∧ r = .error i expected) (act s i)

variable {act : ActionIn Watched}

theorem Faithful.grounded (h : Faithful act) (expected : String) : Grounded expected act :=
  fun s i hi hlen => (h s i hi hlen).weaken (Int.le_refl i) fun _ _ hr => .inl hr

theorem grounded_lift {expected : String} {a : Action} (ha : Action.Primitive expected a) :
    Grounded expected (Action.lift a) := by
  intro s i hi hlen
  refine Ensures.lift fun w r w' hr => ?_
  rcases ha s i w r w' hi hlen hr with ⟨j, v, rfl, hij, hj⟩ | rfl
  · exact .inl (Reply.Meets.ok v hij hj)
  · exact .inr ⟨rfl, rfl⟩

theorem grounded_alt {ps : List (ActionIn Watched)} (hps : ∀ p ∈ ps, Faithful p) :
    Grounded "no alternatives" (Action.alt ps) := by
  cases ps with
  | nil => exact fun s i hi hlen => .pure (.inr ⟨rfl, rfl⟩)
  | cons p ps => exact (faithful_alt hps (List.cons_ne_nil p ps)).grounded _

/-- A handle leads to a parser, or reports that it is not bound. -/
theorem grounded_perform {descend : Parser → ActionIn Watched}
    (hdescend : ∀ q, Faithful (descend q)) (b : Behaviour) :
    Grounded unboundExpectation (b.perform descend) := by
  intro s i hi hlen
  cases b with
  | run q => exact (hdescend q).grounded _ s i hi hlen
  | unbound r =>
      apply Ensures.lift_bind
      intro _
      exact .pure (.inr ⟨rfl, rfl⟩)
  | dispatch r =>
      apply Ensures.lift_bind
      intro target
      cases target with
      | none => exact .halt fun w a w' h => Run.fault_ne_ok h
      | some q => exact (hdescend q).grounded _ s i hi hlen
  | build l =>
      apply Ensures.lift_bind
      intro _
      exact (hdescend (.deferred l)).grounded _ s i hi hlen

theorem grounded_follow {descend : Parser → ActionIn Watched}
    (hdescend : ∀ q, Faithful (descend q)) (p : Parser) :
    Grounded unboundExpectation (p.follow descend) := by
  intro s i hi hlen
  apply Ensures.lift_bind
  intro b
  exact grounded_perform hdescend b s i hi hlen

theorem faithful_buildAndRun {descend : Parser → ActionIn Watched}
    (hdescend : ∀ q, Faithful (descend q)) (d : Description) (bindings : Bindings) :
    Faithful (Parser.buildAndRun descend d bindings) := by
  intro s i hi hlen
  apply Ensures.lift_bind
  intro p
  exact hdescend p s i hi hlen

theorem faithful_visit {p : Parser} (hp : Visit.Ordinary p) (h : Grounded p.expectation act) :
    Faithful (visit p act) := by
  intro s i hi hlen
  refine .visit (Int.le_refl i) hlen
    ((h s i hi hlen).weaken (Int.le_refl i) fun parts r hr => ?_)
  rw [Visit.failuresOf_singleton, Visit.failures, hp]
  rcases hr with hr | ⟨rfl, rfl⟩
  · by_cases hown : (parts.isEmpty && !r.status) = true
    · -- a failure that meets the invariant has a part that failed
      simp only [Bool.and_eq_true, List.isEmpty_iff, Bool.not_eq_true'] at hown
      obtain ⟨rfl, hfail⟩ := hown
      exact absurd rfl (hr.failure hfail).2.2
    · rw [if_neg hown]
      exact hr
  · exact Reply.Meets.error p.expectation hi hlen

theorem faithful_visit_lift {p : Parser} (hp : Visit.Ordinary p) {a : Action}
    (ha : Action.Primitive p.expectation a) : Faithful (visit p (Action.lift a)) :=
  faithful_visit hp (grounded_lift ha)

theorem Faithful.visit {p : Parser} (hp : Visit.Ordinary p) (h : Faithful act) :
    Faithful (Watched.visit p act) :=
  faithful_visit hp (h.grounded _)

theorem faithful_visit_label {p : Parser} (description : String) (h : Faithful act) :
    Faithful (visit (p.label description) (Action.label act description)) := by
  intro s i hi hlen
  refine .visit (Int.le_refl i) hlen ?_
  apply (h s i hi hlen).bind
  intro parts reply hreply
  split
  · next hok =>
    refine .pure ?_
    rw [List.append_nil, Visit.failuresOf_singleton, Visit.failures, Visit.logFrom, if_pos hok]
    exact hreply
  · next hfail =>
    refine .pure ?_
    rw [List.append_nil, Visit.failuresOf_singleton, Visit.failures, Visit.logFrom, if_neg hfail]
    exact hreply.relabel (by simpa using hfail) hi description

/-- A negative look-ahead reports where the visit that it made has stopped. -/
theorem faithful_visit_notFollowedBy {p : Parser} (description : Option String)
    (h : Faithful act)
    (hstop : ∀ s i w r w', (act s i w).2 = .ok r w' → Visit.stopOf (act s i w).1 = r.index) :
    Faithful (visit (p.notFollowedBy description) (Action.notFollowedBy act description)) := by
  intro s i hi hlen
  refine .visit (Int.le_refl i) hlen ?_
  have hvisit : Ensures i s.length (fun parts r => r.Meets s i (failuresOf s parts) ∧
      Visit.stopOf parts = r.index) (act s i) :=
    (h s i hi hlen).and fun w r w' hr => hstop s i w r w' hr
  apply hvisit.bind
  rintro parts reply ⟨_, hindex⟩
  split
  · refine .pure ?_
    rw [List.append_nil, Visit.failuresOf_singleton, Visit.failures, Visit.logFrom, hindex]
    exact Reply.Meets.error _ hi hlen
  · refine .pure ?_
    rw [List.append_nil, Visit.failuresOf_singleton, Visit.failures, Visit.logFrom]
    exact Reply.Meets.ok .null (Int.le_refl i) hlen

end Visits

/-- The visit of a parser stops where its reply says. -/
theorem stopOf_action {descend : Parser → ActionIn Watched} {turns : Nat} {p : Parser}
    (s : Text) (i : Int) (w : World) (r : Reply) (w' : World)
    (h : (p.action visit descend turns s i w).2 = .ok r w') :
    Visit.stopOf (p.action visit descend turns s i w).1 = r.index := by
  obtain ⟨act, hact⟩ := p.exists_action_eq_visit descend turns
  rw [hact] at h ⊢
  obtain ⟨parts, heq⟩ := visit_of_ok h
  rw [heq]
  rfl

/-- What a parser does is faithful if the parsers it leads to are. -/
theorem faithful_action {descend : Parser → ActionIn Watched}
    (hdescend : ∀ q, Faithful (descend q)) (turns : Nat) (p : Parser) :
    Faithful (p.action visit descend turns) := by
  induction p <;> rw [Parser.action]
  case string t =>
      exact faithful_visit_lift (fun _ _ _ _ _ => rfl) (Action.primitive_string t)
  case pattern p group =>
      exact faithful_visit_lift (fun _ _ _ _ _ => rfl) (Action.primitive_pattern p group)
  case satisfy test expected =>
      exact faithful_visit_lift (fun _ _ _ _ _ => rfl) (Action.primitive_satisfy test expected)
  case takeWhile test =>
      exact faithful_visit_lift (fun _ _ _ _ _ => rfl) (Action.primitive_takeWhile test _)
  case anyChar =>
      exact faithful_visit_lift (fun _ _ _ _ _ => rfl) Action.primitive_anyChar
  case pure v =>
      exact faithful_visit_lift (fun _ _ _ _ _ => rfl) (Action.primitive_succeed v _)
  case fail expected =>
      exact faithful_visit_lift (fun _ _ _ _ _ => rfl) (Action.primitive_fail expected)
  case eof =>
      exact faithful_visit_lift (fun _ _ _ _ _ => rfl) Action.primitive_eof
  case position =>
      exact faithful_visit_lift (fun _ _ _ _ _ => rfl) (Action.primitive_position _)
  case index =>
      exact faithful_visit_lift (fun _ _ _ _ _ => rfl) (Action.primitive_index _)
  case rest =>
      exact faithful_visit_lift (fun _ _ _ _ _ => rfl) (Action.primitive_rest _)
  case trace text =>
      exact faithful_visit_lift (fun _ _ _ _ _ => rfl) (Action.primitive_trace text _)
  case bind p f ihp ihf => exact (faithful_bind ihp ihf).visit fun _ _ _ _ _ => rfl
  case built d bindings =>
      exact (faithful_buildAndRun hdescend d bindings).visit fun _ _ _ _ _ => rfl
  case map p f ihp => exact (faithful_map ihp f).visit fun _ _ _ _ _ => rfl
  case andThen p q ihp ihq =>
      exact (faithful_andThen ihp ihq).visit fun _ _ _ _ _ => rfl
  case skip p q ihp ihq => exact (faithful_skip ihp ihq).visit fun _ _ _ _ _ => rfl
  case orElse p q ihp ihq => exact (faithful_orElse ihp ihq).visit fun _ _ _ _ _ => rfl
  case times p r ihp => exact (faithful_times ihp turns r).visit fun _ _ _ _ _ => rfl
  case label p description ihp => exact faithful_visit_label description ihp
  case withDefault p c ihp =>
      exact (faithful_withDefault ihp c).visit fun _ _ _ _ _ => rfl
  case seq n ps ih =>
      refine (faithful_seq fun act hact => ?_).visit fun _ _ _ _ _ => rfl
      obtain ⟨k, rfl⟩ := List.mem_ofFn.mp hact
      exact ih k
  case alt n ps ih =>
      refine faithful_visit (fun _ _ _ _ _ => rfl) (grounded_alt fun act hact => ?_)
      obtain ⟨k, rfl⟩ := List.mem_ofFn.mp hact
      exact ih k
  case lookAhead p ihp => exact (faithful_lookAhead ihp).visit fun _ _ _ _ _ => rfl
  case notFollowedBy p description ihp =>
      exact faithful_visit_notFollowedBy description ihp stopOf_action
  case manyTill p stop ihp ihstop =>
      exact (faithful_manyTill ihp ihstop turns).visit fun _ _ _ _ _ => rfl
  case traced text p ihp => exact (faithful_traced ihp text).visit fun _ _ _ _ _ => rfl
  case reference r =>
      exact faithful_visit (fun _ _ _ _ _ => rfl) (grounded_follow hdescend _)
  case deferred l =>
      exact faithful_visit (fun _ _ _ _ _ => rfl) (grounded_follow hdescend _)

/-- Every parser is faithful within every budget. -/
theorem faithful_watched (budget : Nat) (p : Parser) : Faithful (p.watched budget) := by
  induction budget generalizing p with
  | zero => exact fun s i _ _ => .halt fun w a w' h => by cases h
  | succ budget ih => exact faithful_action ih budget p

end Watched

end Descent
