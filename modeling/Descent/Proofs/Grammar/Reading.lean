/-
# What parsers read

A parser reads a text before a rest if it succeeds there with a given value and stops
where the rest begins; it refuses a text if it fails at its start. Both are meant within
every large budget, without faults, and in all worlds that are ready: what a grammar needs
of a world, and leaves behind as it found it. There is one rule for each combinator and
each of the two ways it can end, so that a derivation of a grammar is followed part by
part.
-/

import Descent.Proofs.FailureLog
import Descent.Proofs.Pattern.Taking
import Descent.Proofs.Settling

namespace Descent

open Filter

/-- An offset inside a text parts it in two. -/
theorem Text.exists_eq_append {s : Text} {i : Int} (hi : 0 ≤ i) (hlen : i ≤ s.length) :
    ∃ before ahead, s = before ++ ahead ∧ (before.length : Int) = i := by
  refine ⟨s.take i.toNat, s.drop i.toNat, (List.take_append_drop i.toNat s).symm, ?_⟩
  rw [List.length_take]
  omega

namespace Action

/-- A success that stops behind a text and has the given value. -/
structure Read (before t : Text) (v : Value) (r : Reply) : Prop where
  status : r.status = true
  index : r.index = (before.length + t.length : Nat)
  value : r.value = v

/-- The action reads a text before a rest. -/
def Reads (ready : World → Prop) (act : Nat → Action) (t rest : Text) (v : Value) : Prop :=
  ∀ (before : Text) (w : World), ready w → Run.Settles (fun _ => False)
    (fun r u => Read before t v r ∧ ready u)
    (fun n => act n (before ++ (t ++ rest)) before.length) w

/-- The action fails at the start of a text. -/
def Refuses (ready : World → Prop) (act : Nat → Action) (text : Text) : Prop :=
  ∀ (before : Text) (w : World), ready w → Run.Settles (fun _ => False)
    (fun r u => r.status = false ∧ ready u) (fun n => act n (before ++ text) before.length) w

variable {ready : World → Prop} {p q : Nat → Action} {t t' rest text before : Text}
  {v v' : Value} {w : World} {r next : Reply}

theorem Read.merge (h : Read before t v r) (context : Option Reply) :
    Read before t v (r.merge context) := by
  refine ⟨?_, ?_, ?_⟩
  · rw [Reply.merge_status, h.status]
  · rw [Reply.merge_index, h.index]
  · rw [Reply.merge_value, h.value]

theorem Read.mergeWith (h : Read before t v r) (older : Reply) :
    Read before t v (r.mergeWith older) :=
  h.merge (some older)

/-- A second text behind a first one. -/
theorem Read.behind (h : Read (before ++ t) t' v r) : Read before (t ++ t') v r := by
  refine ⟨h.status, ?_, h.value⟩
  rw [h.index, List.length_append, List.length_append, Nat.add_assoc]

theorem read_ok (before t : Text) (v : Value) :
    Read before t v (.ok (before.length + t.length : Nat) v) :=
  ⟨rfl, rfl, rfl⟩

/-- What is read where a first action has stopped. -/
theorem Reads.behind (h : Reads ready q t' rest v') (hr : Read before t v r) (hw : ready w) :
    Run.Settles (fun _ => False) (fun next u => Read before (t ++ t') v' next ∧ ready u)
      (fun n => q n (before ++ (t ++ t' ++ rest)) r.index) w := by
  have hsame : before ++ (t ++ t' ++ rest) = before ++ t ++ (t' ++ rest) := by simp
  rw [hsame, hr.index, ← List.length_append]
  exact (h (before ++ t) w hw).mono fun _ _ hnext => ⟨hnext.1.behind, hnext.2⟩

/-- A step that is made after a success. -/
theorem settles_of_ok {post : Reply → World → Prop} {x y : Nat → Run Reply}
    (hok : r.status = true) (hx : Run.Settles (fun _ => False) post x w) :
    Run.Settles (fun _ => False) post (fun n => if r.status = true then x n else y n) w :=
  .ite (fun _ => hx) fun hnot => absurd hok hnot

/-- A step that is made after a failure. -/
theorem settles_of_failure {post : Reply → World → Prop} {x y : Nat → Run Reply}
    (hfail : r.status = false) (hy : Run.Settles (fun _ => False) post y w) :
    Run.Settles (fun _ => False) post (fun n => if r.status = true then x n else y n) w :=
  .ite (fun hok => by rw [hfail] at hok; cases hok) fun _ => hy

theorem slice_append (before text : Text) (count : Nat) :
    (before ++ text).slice before.length (before.length + count) = text.take count := by
  have hstart : (before ++ text).bound before.length = before.length := by
    rw [Text.bound, if_neg (by omega), Int.toNat_natCast]
  have hstop : (before ++ text).bound (before.length + count) = before.length + count := by
    rw [Text.bound, if_neg (by omega)]
    omega
  rw [Text.slice, Text.suffix, hstart, hstop, List.drop_left, Nat.add_sub_cancel_left]

theorem suffix_append (before text : Text) : (before ++ text).suffix before.length = text := by
  rw [Text.suffix, Text.bound, if_neg (by omega), Int.toNat_natCast, List.drop_left]

theorem length_lt_append (before : Text) (c : Char) (more : Text) :
    (before.length : Int) < (before ++ c :: more).length := by
  rw [List.length_append, List.length_cons]
  omega

theorem charAt_append (before : Text) (c : Char) (more : Text) :
    charAt (before ++ c :: more) before.length = pure c := by
  have hget : (before ++ c :: more).char? before.length = some c := by
    rw [Text.char?, if_pos (by omega), Int.toNat_natCast]
    simp
  rw [charAt, hget]

/-- A character at an offset of the input is tested. -/
theorem satisfy_append (test : Char → Call Bool) (expected : String) (before : Text) (c : Char)
    (more : Text) :
    Action.satisfy test expected (before ++ c :: more) before.length = do
      if ← Run.ofCall (test c) then return .ok (before.length + 1) (.text [c])
      else return .error before.length expected := by
  rw [Action.satisfy, if_pos (length_lt_append before c more), charAt_append]
  rfl

/-- There is no character to test at the end of the input. -/
theorem satisfy_end (test : Char → Call Bool) (expected : String) (before : Text) :
    Action.satisfy test expected (before ++ []) before.length =
      pure (.error before.length expected) := by
  rw [Action.satisfy, if_neg (by simp)]

/-- A given text is read if what is ahead starts with it. -/
theorem string_append (t : String) (before ahead : Text) :
    Action.string t (before ++ ahead) before.length =
      if t.toList <+: ahead then pure (.ok (before.length + t.length) (.str t))
      else pure (.error before.length ("'" ++ t ++ "'")) := by
  have hahead : ahead.take t.length = t.toList ↔ t.toList <+: ahead := by
    rw [List.prefix_iff_eq_take, String.length_toList, eq_comm]
  simp only [Action.string, slice_append, hahead]

/-- A longest run is counted in what is ahead. -/
theorem takeWhile_append (test : Char → Call Bool) (before ahead : Text) :
    Action.takeWhile test (before ++ ahead) before.length = do
      let count ← countWhile test ahead
      return .ok (before.length + count) (.text (ahead.take count)) := by
  have hahead : (before ++ ahead).ahead? before.length = some ahead := by
    rw [Text.ahead?, if_pos (by omega), suffix_append]
  simp only [takeWhile, hahead, slice_append]

/-- The values of turns that were made before the present place. -/
theorem read_listReply (before : Text) (context : Option Reply) (values : List Value) :
    Read before [] (.list values.reverse) (listReply before.length context values) :=
  (read_ok before [] (.list values.reverse)).merge context

end Action

namespace Parser

open Descent.Action (Read read_ok read_listReply settles_of_ok settles_of_failure string_append
  satisfy_append satisfy_end)

variable {ready : World → Prop} {p q sep opening closing : Parser} {ps qs : List Parser}
  {t t' t'' rest text : Text} {v v' v'' : Value} {vs : List Value}

/-- The parser reads a text before a rest. -/
def Reads (ready : World → Prop) (p : Parser) (t rest : Text) (v : Value) : Prop :=
  Action.Reads ready (fun n => p.run (n + 1)) t rest v

/-- The parser fails at the start of a text. -/
def Refuses (ready : World → Prop) (p : Parser) (text : Text) : Prop :=
  Action.Refuses ready (fun n => p.run (n + 1)) text

section Combinators

theorem Reads.bind {f : Value → Parser} (hp : p.Reads ready t (t' ++ rest) v)
    (hf : (f v).Reads ready t' rest v') : (p.bind f).Reads ready (t ++ t') rest v' := by
  intro before w hw
  have hfirst := hp before w hw
  rw [← List.append_assoc t t' rest] at hfirst
  apply hfirst.bind
  rintro r u ⟨hr, hu⟩
  apply settles_of_ok hr.status
  rw [hr.value]
  exact (Action.Reads.behind hf hr hu).bind fun _ _ hnext => .pure ⟨hnext.1.mergeWith r, hnext.2⟩

theorem Refuses.bind (hp : p.Refuses ready text) (f : Value → Parser) :
    (p.bind f).Refuses ready text := by
  intro before w hw
  apply (hp before w hw).bind
  rintro r u ⟨hr, hu⟩
  exact settles_of_failure hr (.pure ⟨hr, hu⟩)

theorem Reads.andThen (hp : p.Reads ready t (t' ++ rest) v) (hq : q.Reads ready t' rest v') :
    (p.andThen q).Reads ready (t ++ t') rest v' :=
  hp.bind (f := fun _ => q) hq

theorem Refuses.andThen (hp : p.Refuses ready text) (q : Parser) :
    (p.andThen q).Refuses ready text :=
  hp.bind fun _ => q

theorem Reads.skip (hp : p.Reads ready t (t' ++ rest) v) (hq : q.Reads ready t' rest v') :
    (p.skip q).Reads ready (t ++ t') rest v := by
  intro before w hw
  have hfirst := hp before w hw
  rw [← List.append_assoc t t' rest] at hfirst
  apply hfirst.bind
  rintro r u ⟨hr, hu⟩
  apply settles_of_ok hr.status
  apply (Action.Reads.behind hq hr hu).bind
  rintro next z ⟨hnext, hz⟩
  have hmerged := hnext.mergeWith r
  apply settles_of_ok hmerged.status
  rw [hmerged.index, hr.value]
  exact .pure ⟨(read_ok before (t ++ t') v).mergeWith _, hz⟩

theorem Refuses.skip (hp : p.Refuses ready text) (q : Parser) :
    (p.skip q).Refuses ready text := by
  intro before w hw
  apply (hp before w hw).bind
  rintro r u ⟨hr, hu⟩
  exact settles_of_failure hr (.pure ⟨hr, hu⟩)

theorem Reads.map (hquiet : World.Quiet ready) (hp : p.Reads ready t rest v)
    {f : Value → Call Value} (hf : (f v).result = .ok v') : (p.map f).Reads ready t rest v' := by
  intro before w hw
  apply (hp before w hw).bind
  rintro r u ⟨hr, hu⟩
  apply settles_of_ok hr.status
  rw [hr.value, hr.index]
  have hcall : Run.Settles (fun _ => False) (fun answer z => answer = v' ∧ ready z)
      (fun _ => Run.ofCall (f v)) u :=
    .of_ok (fun _ => Run.ofCall_of_ok hf u) ⟨rfl, hquiet u _ hu⟩
  apply hcall.bind
  rintro _ z ⟨rfl, hz⟩
  exact .pure ⟨(read_ok before t _).mergeWith r, hz⟩

theorem Refuses.map (hp : p.Refuses ready text) (f : Value → Call Value) :
    (p.map f).Refuses ready text := by
  intro before w hw
  apply (hp before w hw).bind
  rintro r u ⟨hr, hu⟩
  exact settles_of_failure hr (.pure ⟨hr, hu⟩)

theorem Reads.label (hp : p.Reads ready t rest v) (description : String) :
    (p.label description).Reads ready t rest v := by
  intro before w hw
  apply (hp before w hw).bind
  rintro r u ⟨hr, hu⟩
  exact settles_of_ok hr.status (.pure ⟨hr, hu⟩)

theorem Refuses.label (hp : p.Refuses ready text) (description : String) :
    (p.label description).Refuses ready text := by
  intro before w hw
  apply (hp before w hw).bind
  rintro r u ⟨hr, hu⟩
  exact settles_of_failure hr (.pure ⟨hr, hu⟩)

theorem Reads.orElse_left (hp : p.Reads ready t rest v) (q : Parser) :
    (p.orElse q).Reads ready t rest v := by
  intro before w hw
  apply (hp before w hw).bind
  rintro r u ⟨hr, hu⟩
  exact settles_of_ok hr.status (.pure ⟨hr, hu⟩)

theorem Reads.orElse_right (hp : p.Refuses ready (t ++ rest)) (hq : q.Reads ready t rest v) :
    (p.orElse q).Reads ready t rest v := by
  intro before w hw
  apply (hp before w hw).bind
  rintro r u ⟨hr, hu⟩
  apply settles_of_failure hr
  exact (hq before u hu).bind fun _ _ hnext => .pure ⟨hnext.1.mergeWith r, hnext.2⟩

theorem Refuses.orElse (hp : p.Refuses ready text) (hq : q.Refuses ready text) :
    (p.orElse q).Refuses ready text := by
  intro before w hw
  apply (hp before w hw).bind
  rintro r u ⟨hr, hu⟩
  apply settles_of_failure hr
  refine (hq before u hu).bind fun next _ hnext => .pure ⟨?_, hnext.2⟩
  rw [Reply.mergeWith_status, hnext.1]

end Combinators

section Primitives

/-- A parser that answers without a look at the world. -/
theorem reads_of_ok (act : Action)
    (hact : ∀ n, p.run (n + 1) = act)
    (h : ∀ before, ∃ r, Read before t v r ∧
      act (before ++ (t ++ rest)) before.length = Pure.pure r) : p.Reads ready t rest v := by
  intro before w hw
  obtain ⟨r, hr, hend⟩ := h before
  simp only [hact, hend]
  exact .pure ⟨hr, hw⟩

theorem refuses_of_error (act : Action)
    (hact : ∀ n, p.run (n + 1) = act)
    (h : ∀ before, ∃ r : Reply, r.status = false ∧
      act (before ++ text) before.length = Pure.pure r) : p.Refuses ready text := by
  intro before w hw
  obtain ⟨r, hr, hend⟩ := h before
  simp only [hact, hend]
  exact .pure ⟨hr, hw⟩

theorem reads_string (s : String) (rest : Text) :
    (Parser.string s).Reads ready s.toList rest (.str s) := by
  refine reads_of_ok (.string s) (fun _ => rfl) fun before =>
    ⟨_, read_ok before s.toList (.str s), ?_⟩
  rw [string_append, if_pos (List.prefix_append s.toList rest), String.length_toList,
    Int.natCast_add]

theorem refuses_string {s : String} (h : ¬ s.toList <+: text) :
    (Parser.string s).Refuses ready text := by
  refine refuses_of_error (.string s) (fun _ => rfl) fun before =>
    ⟨.error before.length ("'" ++ s ++ "'"), rfl, ?_⟩
  rw [string_append, if_neg h]

theorem reads_pattern {p : Pattern} (h : p.root.Takes t rest) :
    (Parser.pattern p 0).Reads ready t rest (.text t) := by
  refine reads_of_ok (.pattern p 0) (fun _ => rfl) fun before => ⟨_, read_ok before t (.text t), ?_⟩
  simp only [Action.pattern, Pattern.match?_of_takes h before]

theorem refuses_pattern {p : Pattern} (h : p.root.Rejects text) :
    (Parser.pattern p 0).Refuses ready text := by
  refine refuses_of_error (.pattern p 0) (fun _ => rfl) fun before =>
    ⟨.error before.length p.describe, rfl, ?_⟩
  simp only [Action.pattern, Pattern.match?_of_rejects h 0 before]

theorem run_satisfy {test : Char → Call Bool} {expected : String} {c : Char} {met : Bool}
    (h : (test c).result = .ok met) (before more : Text) (w : World) (n : Nat) :
    (Parser.satisfy test expected).run (n + 1) (before ++ c :: more) before.length w =
      .ok (if met then .ok (before.length + 1) (.text [c]) else .error before.length expected)
        (w.noted (test c).events) := by
  change Action.satisfy test expected (before ++ c :: more) before.length w = _
  rw [satisfy_append, Run.bind_of_ok (Run.ofCall_of_ok h w)]
  cases met <;> rfl

theorem reads_satisfy (hquiet : World.Quiet ready) {test : Char → Call Bool} {expected : String}
    {c : Char} (h : (test c).result = .ok true) (rest : Text) :
    (Parser.satisfy test expected).Reads ready [c] rest (.text [c]) :=
  fun before w hw => .of_ok (fun n => run_satisfy h before rest w n)
    ⟨read_ok before [c] (.text [c]), hquiet w _ hw⟩

theorem refuses_satisfy (hquiet : World.Quiet ready) {test : Char → Call Bool} {expected : String}
    (h : Text.Begins (fun c => (test c).result = .ok false) text) :
    (Parser.satisfy test expected).Refuses ready text := by
  intro before w hw
  cases text with
  | nil =>
      refine .of_ok (a := .error before.length expected) (fun n => ?_) ⟨rfl, hw⟩
      change Action.satisfy test expected (before ++ []) before.length w = _
      rw [satisfy_end]
      rfl
  | cons c more =>
      exact .of_ok (fun n => run_satisfy (Text.begins_cons.mp h) before more w n)
        ⟨rfl, hquiet w _ hw⟩

theorem reads_pure (v : Value) (rest : Text) : (Parser.pure v).Reads ready [] rest v :=
  reads_of_ok (.succeed v) (fun _ => rfl) fun before => ⟨_, read_ok before [] v, rfl⟩

end Primitives

section Rows

theorem ofFn_get_action (ps : List Parser) (n : Nat) :
    (List.ofFn fun k => (ps.get k).action (fun _ act => act) (run n) n) =
      ps.map fun p => p.run (n + 1) :=
  (List.map_ofFn ..).symm.trans (by rw [List.ofFn_get]; rfl)

theorem run_choice (ps : List Parser) (n : Nat) :
    (choice ps).run (n + 1) = Action.alt (ps.map fun p => p.run (n + 1)) :=
  congrArg Action.alt (ofFn_get_action ps n)

theorem run_sequence (ps : List Parser) (n : Nat) :
    (sequence ps).run (n + 1) = Action.seq (ps.map fun p => p.run (n + 1)) :=
  congrArg Action.seq (ofFn_get_action ps n)

theorem Reads.altFrom (hps : ∀ q ∈ ps, q.Refuses ready (t ++ rest)) (hp : p.Reads ready t rest v)
    (qs : List Parser) (context : Option Reply) :
    Action.Reads ready (fun n s i =>
      Action.altFrom s i ((ps ++ p :: qs).map fun p => p.run (n + 1)) context) t rest v := by
  induction ps generalizing context with
  | nil =>
      intro before w hw
      apply (hp before w hw).bind
      rintro r u ⟨hr, hu⟩
      have hmerged := hr.merge context
      exact settles_of_ok hmerged.status (.pure ⟨hmerged, hu⟩)
  | cons q ps ih =>
      intro before w hw
      apply (hps q List.mem_cons_self before w hw).bind
      rintro r u ⟨hr, hu⟩
      apply settles_of_failure (by rw [Reply.merge_status, hr])
      exact ih (fun q' hq' => hps q' (List.mem_cons_of_mem _ hq')) _ before u hu

theorem Refuses.altFrom (hps : ∀ q ∈ ps, q.Refuses ready text) (context : Option Reply)
    (hcontext : ∀ r ∈ context, r.status = false) :
    Action.Refuses ready (fun n s i =>
      Action.altFrom s i (ps.map fun p => p.run (n + 1)) context) text := by
  induction ps generalizing context with
  | nil =>
      intro before w hw
      cases context with
      | none => exact .pure ⟨rfl, hw⟩
      | some r => exact .pure ⟨hcontext r rfl, hw⟩
  | cons q ps ih =>
      intro before w hw
      apply (hps q List.mem_cons_self before w hw).bind
      rintro r u ⟨hr, hu⟩
      have hmerged : (r.merge context).status = false := by rw [Reply.merge_status, hr]
      apply settles_of_failure hmerged
      refine ih (fun q' hq' => hps q' (List.mem_cons_of_mem _ hq')) _ ?_ before u hu
      rintro _ ⟨⟩
      exact hmerged

/-- The first alternative that does not refuse the text is the one that reads it. -/
theorem Reads.choice (hp : p.Reads ready t rest v) (hps : ∀ q ∈ ps, q.Refuses ready (t ++ rest))
    (qs : List Parser) : (choice (ps ++ p :: qs)).Reads ready t rest v := by
  have halt := Reads.altFrom hps hp qs none
  unfold Reads
  simp only [run_choice]
  exact halt

theorem Refuses.choice (hps : ∀ p ∈ ps, p.Refuses ready text) :
    (choice ps).Refuses ready text := by
  have halt := Refuses.altFrom hps none (by simp)
  unfold Refuses
  simp only [run_choice]
  exact halt

/-- Parsers that read texts one after another. -/
inductive ReadsEach (ready : World → Prop) : List Parser → Text → Text → List Value → Prop
  | nil {rest : Text} : ReadsEach ready [] [] rest []
  | cons {p : Parser} {ps : List Parser} {t t' rest : Text} {v : Value} {vs : List Value}
      (h : p.Reads ready t (t' ++ rest) v) (h' : ReadsEach ready ps t' rest vs) :
      ReadsEach ready (p :: ps) (t ++ t') rest (v :: vs)

theorem ReadsEach.seqFrom (h : ReadsEach ready ps t rest vs) (context : Option Reply)
    (values : List Value) :
    Action.Reads ready (fun n s i =>
      Action.seqFrom s (ps.map fun p => p.run (n + 1)) i context values) t rest
      (.list (values.reverse ++ vs)) := by
  induction h generalizing context values with
  | nil =>
      intro before w hw
      rw [List.append_nil]
      exact .pure ⟨read_listReply before context values, hw⟩
  | @cons p ps t t' rest v vs hp _ ih =>
      intro before w hw
      have hfirst := hp before w hw
      rw [← List.append_assoc t t' rest] at hfirst
      apply hfirst.bind
      rintro r u ⟨hr, hu⟩
      have hmerged := hr.merge context
      apply settles_of_ok hmerged.status
      rw [hmerged.value]
      have hnext := (ih (some (r.merge context)) (v :: values)).behind hmerged hu
      rw [List.reverse_cons, List.append_assoc, List.singleton_append] at hnext
      exact hnext

theorem ReadsEach.sequence (h : ReadsEach ready ps t rest vs) :
    (sequence ps).Reads ready t rest (.list vs) := by
  have hseq := h.seqFrom none []
  unfold Reads
  simp only [run_sequence]
  exact hseq

theorem Refuses.sequence (hp : p.Refuses ready text) (ps : List Parser) :
    (sequence (p :: ps)).Refuses ready text := by
  intro before w hw
  simp only [run_sequence]
  apply (hp before w hw).bind
  rintro r u ⟨hr, hu⟩
  have hmerged : (r.merge none).status = false := hr
  exact settles_of_failure hmerged (.pure ⟨hr, hu⟩)

/-- A parser that reads texts again and again until it refuses what is left. -/
inductive ReadsAll (ready : World → Prop) (p : Parser) : Text → Text → List Value → Prop
  | nil {rest : Text} (h : p.Refuses ready rest) : ReadsAll ready p [] rest []
  | cons {t t' rest : Text} {v : Value} {vs : List Value} (h : p.Reads ready t (t' ++ rest) v)
      (hne : t ≠ []) (h' : ReadsAll ready p t' rest vs) :
      ReadsAll ready p (t ++ t') rest (v :: vs)

/-- A loop that has used up some of its turns has one left. -/
theorem reads_of_turn {context : Option Reply} {values : List Value} (used : Nat)
    (h : Action.Reads ready (fun n s i =>
      Action.unbounded (p.run (n + 1)) s (n - (used + 1) + 1) i context values) t rest v) :
    Action.Reads ready (fun n s i =>
      Action.unbounded (p.run (n + 1)) s (n - used) i context values) t rest v :=
  fun before w hw => (h before w hw).turn
    (x := fun n turns => Action.unbounded (p.run (n + 1)) _ turns before.length context values) used

/-- A loop that has used up some of its turns has enough of them left. -/
theorem ReadsAll.unbounded (h : ReadsAll ready p t rest vs) (used : Nat) (context : Option Reply)
    (values : List Value) :
    Action.Reads ready (fun n s i =>
      Action.unbounded (p.run (n + 1)) s (n - used) i context values) t rest
      (.list (values.reverse ++ vs)) := by
  -- The induction is on the turns; each takes one step of the budget.
  induction h generalizing used context values with
  | nil hp =>
      refine reads_of_turn used fun before w hw => ?_
      apply (hp before w hw).bind
      rintro r u ⟨hr, hu⟩
      refine .ite (fun _ => .pure ⟨?_, hu⟩) fun hnot => absurd hr (by simpa using hnot)
      rw [List.append_nil]
      exact read_listReply before _ values
  | @cons t t' rest v vs hp hne _ ih =>
      refine reads_of_turn used fun before w hw => ?_
      have hfirst := hp before w hw
      rw [← List.append_assoc t t' rest] at hfirst
      apply hfirst.bind
      rintro r u ⟨hr, hu⟩
      refine .ite (fun hnot => absurd hr.status (by simpa using hnot)) fun _ => ?_
      refine .ite (fun hstays => ?_) fun _ => ?_
      · have hpos := List.length_pos_iff.mpr hne
        have hindex := hr.index
        omega
      · rw [hr.value]
        have hnext := (ih (used + 1) (some (r.merge context)) (v :: values)).behind hr hu
        rw [List.reverse_cons, List.append_assoc, List.singleton_append] at hnext
        exact hnext

theorem ReadsAll.many (h : ReadsAll ready p t rest vs) :
    p.many.Reads ready t rest (.list vs) :=
  h.unbounded 0 none []

end Rows

theorem Reads.between (hopening : opening.Reads ready t (t' ++ (t'' ++ rest)) v)
    (hp : p.Reads ready t' (t'' ++ rest) v') (hclosing : closing.Reads ready t'' rest v'') :
    (between opening closing p).Reads ready (t ++ (t' ++ t'')) rest v' := by
  have h := (hopening.andThen hp).skip hclosing
  rwa [List.append_assoc] at h

end Parser

end Descent
