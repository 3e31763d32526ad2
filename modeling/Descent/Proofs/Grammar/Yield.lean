/-
# What parsers yield

Whatever a parser has consumed when it succeeds is related to its value: the text behind
its offset starts with a text that has that value by the grammar, and it stops behind it.
This is meant within a given budget, so nothing is said of a run that does not come to
its end. There is one rule for each combinator, and a recursive grammar is followed by
induction on the budget.
-/

import Descent.Proofs.Frame
import Descent.Proofs.Grammar.Reading
import Descent.Proofs.Outcome

namespace Descent

variable {α β : Type}

namespace Run

/-- If the run ends with an answer, the answer meets `post`. -/
def Leads (post : α → World → Prop) (x : Run α) (w : World) : Prop :=
  ∀ a u, x w = .ok a u → post a u

namespace Leads

variable {post post' : α → World → Prop} {x : Run α} {w : World}

theorem pure {a : α} (h : post a w) : Leads post (Pure.pure a) w := by
  intro b u hend
  obtain ⟨rfl, rfl⟩ := pure_eq_ok.mp hend
  exact h

theorem bind {mid : β → World → Prop} {y : Run β} {f : β → Run α} (hy : Leads mid y w)
    (hf : ∀ b v, mid b v → Leads post (f b) v) : Leads post (y >>= f) w := by
  intro a u hend
  obtain ⟨b, v, hb, ha⟩ := bind_eq_ok.mp hend
  exact hf b v (hy b v hb) a u ha

theorem ite {c : Prop} [Decidable c] {y : Run α} (hthen : c → Leads post x w)
    (helse : ¬ c → Leads post y w) : Leads post (if c then x else y) w := by
  split
  · next hc => exact hthen hc
  · next hc => exact helse hc

theorem fault {f : Fault} : Leads post (Run.fault f) w :=
  fun _ _ hend => absurd hend fault_ne_ok

theorem unfinished : Leads post Run.unfinished w := by
  intro a u hend
  cases hend

/-- A call that answers changes nothing but the journal. -/
theorem ofCall {ready : World → Prop} (hquiet : World.Quiet ready) (call : Call α)
    (hw : ready w) : Leads (fun a u => call.result = .ok a ∧ ready u) (Run.ofCall call) w := by
  intro a u hend
  rcases hresult : call.result with fault | b
  · rw [ofCall_of_error hresult] at hend
    cases hend
  · rw [ofCall_of_ok hresult] at hend
    cases hend
    exact ⟨rfl, hquiet w _ hw⟩

/-- A plain step changes nothing but the journal. -/
theorem plain {ready : World → Prop} (hquiet : World.Quiet ready) (hx : x.Plain) (hw : ready w) :
    Leads (fun _ u => ready u) x w := by
  intro a u hend
  obtain ⟨events, hafter⟩ := hx.exists_after_eq w
  rw [after_of_ok hend] at hafter
  rw [hafter]
  exact hquiet w events hw

/-- A run that goes on like another one from another world. -/
theorem of_eq {y : Run α} {u : World} (h : Leads post x u) (heq : y w = x u) : Leads post y w :=
  fun a z hend => h a z (heq ▸ hend)

theorem mono (h : Leads post x w) (himp : ∀ a u, post a u → post' a u) : Leads post' x w :=
  fun a u hend => himp a u (h a u hend)

end Leads

end Run

namespace Action

/-- A reply which, if it is a success, stops behind a text that is related to its value. -/
def Taken (before text : Text) (R : Text → Value → Prop) (r : Reply) : Prop :=
  r.status = true → ∃ t rest v, text = t ++ rest ∧ Read before t v r ∧ R t v

/-- The action consumes texts that are related to their values. -/
def Yields (ready : World → Prop) (act : Action) (R : Text → Value → Prop) : Prop :=
  ∀ (before text : Text) (w : World), ready w →
    Run.Leads (fun r u => Taken before text R r ∧ ready u) (act (before ++ text) before.length) w

variable {ready : World → Prop} {p q : Action} {R S : Text → Value → Prop}
  {before t text rest : Text} {v : Value} {w : World} {r : Reply}

theorem Taken.mono {before text : Text} (h : Taken before text R r)
    (himp : ∀ t v, R t v → S t v) : Taken before text S r := by
  intro hok
  obtain ⟨t, rest, v, htext, hread, hR⟩ := h hok
  exact ⟨t, rest, v, htext, hread, himp t v hR⟩

theorem Taken.merge (h : Taken before text R r) (context : Option Reply) :
    Taken before text R (r.merge context) := by
  intro hok
  rw [Reply.merge_status] at hok
  obtain ⟨t, rest, v, htext, hread, hR⟩ := h hok
  exact ⟨t, rest, v, htext, hread.merge context, hR⟩

theorem taken_of_failure (h : r.status = false) : Taken before text R r := by
  intro hok
  rw [h] at hok
  cases hok

/-- What is consumed where a first action has stopped. -/
theorem Yields.behind (h : Yields ready q S) (hr : Read before t v r) (hw : ready w) :
    Run.Leads (fun next u =>
        Taken before (t ++ rest) (fun t' v' => ∃ t₂, t' = t ++ t₂ ∧ S t₂ v') next ∧ ready u)
      (q (before ++ (t ++ rest)) r.index) w := by
  rw [hr.index, ← List.length_append, ← List.append_assoc]
  refine (h (before ++ t) rest w hw).mono fun next u hnext => ⟨fun hok => ?_, hnext.2⟩
  obtain ⟨t₂, rest', v', rfl, hread, hS⟩ := hnext.1 hok
  exact ⟨t ++ t₂, rest', v', by simp, hread.behind, t₂, rfl, hS⟩

/-- The two ways on after a reply. -/
theorem leads_status {post : Reply → World → Prop} {x y : Run Reply}
    (hok : r.status = true → Run.Leads post x w) (hfail : r.status = false → Run.Leads post y w) :
    Run.Leads post (if r.status = true then x else y) w :=
  .ite hok fun hnot => hfail (by simpa using hnot)

end Action

namespace Parser

open Descent.Action (Taken taken_of_failure leads_status read_ok read_listReply suffix_append
  length_lt_append charAt_append string_append satisfy_append satisfy_end takeWhile_append)

variable {ready : World → Prop} {n budget : Nat} {p q : Parser} {ps : List Parser}
  {R S : Text → Value → Prop} {s : Text} {v : Value} {w after : World}

/-- Within a budget, the parser consumes texts that are related to their values. -/
def Yields (ready : World → Prop) (n : Nat) (p : Parser) (R : Text → Value → Prop) : Prop :=
  Action.Yields ready (p.run (n + 1)) R

theorem Yields.mono (h : p.Yields ready n R) (himp : ∀ t v, R t v → S t v) :
    p.Yields ready n S :=
  fun before text w hw => (h before text w hw).mono fun _ _ hr => ⟨hr.1.mono himp, hr.2⟩

/-- A text of two parts, of which the second may depend on the value of the first. -/
def Joined (R : Text → Value → Prop) (S : Value → Text → Value → Prop) (t : Text) (v : Value) :
    Prop :=
  ∃ t₁ t₂ v₁, t = t₁ ++ t₂ ∧ R t₁ v₁ ∧ S v₁ t₂ v

/-- Texts one after another, each related to its value in a way of its own. -/
inductive Each : List (Text → Value → Prop) → Text → List Value → Prop
  | nil : Each [] [] []
  | cons {R : Text → Value → Prop} {Rs : List (Text → Value → Prop)} {t t' : Text} {v : Value}
      {vs : List Value} (h : R t v) (h' : Each Rs t' vs) : Each (R :: Rs) (t ++ t') (v :: vs)

/-- Texts one after another, all related to their values in the same way. -/
def All (R : Text → Value → Prop) (t : Text) (vs : List Value) : Prop :=
  ∃ items : List (Text × Value), (∀ item ∈ items, R item.1 item.2) ∧
    t = (items.map Prod.fst).flatten ∧ vs = items.map Prod.snd

theorem All.nil : All R [] [] :=
  ⟨[], by simp, rfl, rfl⟩

theorem All.cons {t t' : Text} {vs : List Value} (h : R t v) (h' : All R t' vs) :
    All R (t ++ t') (v :: vs) := by
  obtain ⟨items, hitems, rfl, rfl⟩ := h'
  exact ⟨(t, v) :: items, List.forall_mem_cons.mpr ⟨h, hitems⟩, by simp, by simp⟩

/-- The values of further turns after those of earlier ones, which are given last first. -/
def Further (R : Text → Value → Prop) (values : List Value) (t : Text) (v : Value) : Prop :=
  ∃ vs, v = .list (values.reverse ++ vs) ∧ All R t vs

section Combinators

theorem Yields.bind {f : Value → Parser} {S : Value → Text → Value → Prop}
    (hp : p.Yields ready n R) (hf : ∀ v, (f v).Yields ready n (S v)) :
    (p.bind f).Yields ready n (Joined R S) := by
  intro before text w hw
  refine (hp before text w hw).bind ?_
  rintro r u ⟨hr, hu⟩
  refine leads_status ?_ ?_
  · intro hok
    obtain ⟨t, rest, v, rfl, hread, hR⟩ := hr hok
    rw [hread.value]
    refine (Action.Yields.behind (hf v) hread hu).bind fun next z hnext => .pure ⟨?_, hnext.2⟩
    refine (hnext.1.mono ?_).merge (some r)
    rintro _ v' ⟨t₂, rfl, hS⟩
    exact ⟨t, t₂, v, rfl, hR, hS⟩
  · exact fun hfail => .pure ⟨taken_of_failure hfail, hu⟩

theorem Yields.andThen (hp : p.Yields ready n R) (hq : q.Yields ready n S) :
    (p.andThen q).Yields ready n (Joined R fun _ => S) :=
  hp.bind (f := fun _ => q) fun _ => hq

theorem Yields.skip (hp : p.Yields ready n R) (hq : q.Yields ready n S) :
    (p.skip q).Yields ready n (Joined R fun v t' v' => v' = v ∧ ∃ v'', S t' v'') := by
  intro before text w hw
  refine (hp before text w hw).bind ?_
  rintro r u ⟨hr, hu⟩
  refine leads_status ?_ ?_
  · intro hok
    obtain ⟨t, rest, v, rfl, hread, hR⟩ := hr hok
    refine (Action.Yields.behind hq hread hu).bind ?_
    rintro next z ⟨hnext, hz⟩
    refine leads_status ?_ ?_
    · intro hok'
      obtain ⟨_, rest', v', htext, hread', t₂, rfl, hS⟩ := hnext.merge (some r) hok'
      have hindex : (next.mergeWith r).index = (before.length + (t ++ t₂).length : Nat) :=
        hread'.index
      rw [hread.value, hindex]
      refine .pure ⟨fun _ => ⟨t ++ t₂, rest', v, htext, ?_, t, t₂, v, rfl, hR, rfl, v', hS⟩, hz⟩
      exact (read_ok before (t ++ t₂) v).mergeWith _
    · exact fun hfail => .pure ⟨taken_of_failure hfail, hz⟩
  · exact fun hfail => .pure ⟨taken_of_failure hfail, hu⟩

theorem Yields.map (hquiet : World.Quiet ready) (hp : p.Yields ready n R)
    {f : Value → Call Value} (hf : ∀ t v v', R t v → (f v).result = .ok v' → S t v') :
    (p.map f).Yields ready n S := by
  intro before text w hw
  refine (hp before text w hw).bind ?_
  rintro r u ⟨hr, hu⟩
  refine leads_status ?_ ?_
  · intro hok
    obtain ⟨t, rest, v, rfl, hread, hR⟩ := hr hok
    rw [hread.value, hread.index]
    refine (Run.Leads.ofCall hquiet (f v) hu).bind fun v' z hv' => .pure ⟨fun _ => ?_, hv'.2⟩
    exact ⟨t, rest, v', rfl, (read_ok before t v').mergeWith r, hf t v v' hR hv'.1⟩
  · exact fun hfail => .pure ⟨taken_of_failure hfail, hu⟩

theorem Yields.label (hp : p.Yields ready n R) (description : String) :
    (p.label description).Yields ready n R := by
  intro before text w hw
  refine (hp before text w hw).bind ?_
  rintro r u ⟨hr, hu⟩
  refine leads_status ?_ ?_
  · exact fun _ => .pure ⟨hr, hu⟩
  · exact fun hfail => .pure ⟨taken_of_failure hfail, hu⟩

theorem Yields.orElse (hp : p.Yields ready n R) (hq : q.Yields ready n R) :
    (p.orElse q).Yields ready n R := by
  intro before text w hw
  refine (hp before text w hw).bind ?_
  rintro r u ⟨hr, hu⟩
  refine leads_status ?_ ?_
  · exact fun _ => .pure ⟨hr, hu⟩
  · intro _
    exact (hq before text u hu).bind fun next z hnext => .pure ⟨hnext.1.merge (some r), hnext.2⟩

theorem yields_altFrom (hps : ∀ p ∈ ps, p.Yields ready n R) (context : Option Reply)
    (hcontext : ∀ r ∈ context, r.status = false) :
    Action.Yields ready (fun s i =>
      Action.altFrom s i (ps.map fun p => p.run (n + 1)) context) R := by
  induction ps generalizing context with
  | nil =>
      intro before text w hw
      cases context with
      | none => exact .pure ⟨taken_of_failure rfl, hw⟩
      | some r => exact .pure ⟨taken_of_failure (hcontext r rfl), hw⟩
  | cons p ps ih =>
      intro before text w hw
      refine (hps p List.mem_cons_self before text w hw).bind ?_
      rintro r u ⟨hr, hu⟩
      refine leads_status ?_ ?_
      · exact fun _ => .pure ⟨hr.merge context, hu⟩
      · intro hfail
        refine ih (fun q hq => hps q (List.mem_cons_of_mem _ hq)) _ ?_ before text u hu
        rintro _ ⟨⟩
        exact hfail

theorem yields_choice (hps : ∀ p ∈ ps, p.Yields ready n R) :
    (choice ps).Yields ready n R := by
  rw [Yields, run_choice]
  exact yields_altFrom hps none (by simp)

theorem yields_seqFrom {Rs : List (Text → Value → Prop)}
    (h : List.Forall₂ (Yields ready n) ps Rs) (context : Option Reply) (values : List Value) :
    Action.Yields ready
      (fun s i => Action.seqFrom s (ps.map fun p => p.run (n + 1)) i context values)
      fun t v => ∃ vs, v = .list (values.reverse ++ vs) ∧ Each Rs t vs := by
  induction h generalizing context values with
  | nil =>
      intro before text w hw
      refine .pure ⟨fun _ => ⟨[], text, _, rfl, read_listReply before context values, [], ?_⟩, hw⟩
      exact ⟨by rw [List.append_nil], .nil⟩
  | cons hp _ ih =>
      intro before text w hw
      refine (hp before text w hw).bind ?_
      rintro r u ⟨hr, hu⟩
      refine leads_status ?_ ?_
      · intro hok
        obtain ⟨t, rest, v, rfl, hread, hR⟩ := hr.merge context hok
        rw [hread.value]
        refine ((ih _ (v :: values)).behind hread hu).mono fun next z hnext => ⟨?_, hnext.2⟩
        refine hnext.1.mono ?_
        rintro _ v' ⟨t₂, rfl, vs, rfl, heach⟩
        exact ⟨v :: vs, by simp, .cons hR heach⟩
      · exact fun hfail => .pure ⟨taken_of_failure hfail, hu⟩

theorem yields_sequence {Rs : List (Text → Value → Prop)}
    (h : List.Forall₂ (Yields ready n) ps Rs) :
    (sequence ps).Yields ready n fun t v => ∃ vs, v = .list vs ∧ Each Rs t vs := by
  rw [Yields, run_sequence]
  exact yields_seqFrom h none []

/-- No further turn. -/
theorem taken_listReply (R : Text → Value → Prop) (before text : Text) (context : Option Reply)
    (values : List Value) : Taken before text (Further R values)
      (Action.listReply before.length context values) :=
  fun _ => ⟨[], text, _, rfl, read_listReply before context values, [],
    by rw [List.append_nil], .nil⟩

/-- A turn, and then what follows it. -/
theorem leads_further {next : Action} {values : List Value} {before t rest : Text} {r : Reply}
    (hnext : Action.Yields ready next (Further R (v :: values)))
    (hread : Action.Read before t v r) (hR : R t v) (hw : ready w) :
    Run.Leads (fun r u => Taken before (t ++ rest) (Further R values) r ∧ ready u)
      (next (before ++ (t ++ rest)) r.index) w := by
  refine (hnext.behind hread hw).mono fun next z hnext => ⟨hnext.1.mono ?_, hnext.2⟩
  rintro _ v' ⟨t₂, rfl, vs, rfl, hall⟩
  exact ⟨v :: vs, by simp, .cons hR hall⟩

theorem Yields.required (hp : p.Yields ready n R)
    {done : Text → Int → Option Reply → List Value → Run Reply}
    (hdone : ∀ context values,
      Action.Yields ready (fun s i => done s i context values) (Further R values))
    (count : Nat) (context : Option Reply) (values : List Value) :
    Action.Yields ready
      (fun s i => Action.required (p.run (n + 1)) s (done s) count i context values)
      (Further R values) := by
  induction count generalizing context values with
  | zero => exact hdone context values
  | succ count ih =>
      intro before text w hw
      refine (hp before text w hw).bind ?_
      rintro r u ⟨hr, hu⟩
      refine leads_status ?_ ?_
      · intro hok
        obtain ⟨t, rest, v, rfl, hread, hR⟩ := hr hok
        rw [hread.value]
        exact leads_further (ih _ (v :: values)) hread hR hu
      · intro hfail
        exact .pure ⟨taken_of_failure (by rw [Reply.merge_status, hfail]), hu⟩

theorem Yields.bounded (hp : p.Yields ready n R) (count : Nat) (context : Option Reply)
    (values : List Value) :
    Action.Yields ready (fun s i => Action.bounded (p.run (n + 1)) s count i context values)
      (Further R values) := by
  induction count generalizing context values with
  | zero => exact fun before text w hw => .pure ⟨taken_listReply R before text context values, hw⟩
  | succ count ih =>
      intro before text w hw
      refine (hp before text w hw).bind ?_
      rintro r u ⟨hr, hu⟩
      refine leads_status ?_ ?_
      · intro hok
        obtain ⟨t, rest, v, rfl, hread, hR⟩ := hr hok
        rw [hread.value]
        exact leads_further (ih _ (v :: values)) hread hR hu
      · exact fun _ => .pure ⟨taken_listReply R before text _ values, hu⟩

theorem Yields.unbounded (hp : p.Yields ready n R) (budget : Nat) (context : Option Reply)
    (values : List Value) :
    Action.Yields ready (fun s i => Action.unbounded (p.run (n + 1)) s budget i context values)
      (Further R values) := by
  induction budget generalizing context values with
  | zero => exact fun before text w hw => .unfinished
  | succ budget ih =>
      intro before text w hw
      refine (hp before text w hw).bind ?_
      rintro r u ⟨hr, hu⟩
      refine Run.Leads.ite (fun _ => .pure ⟨taken_listReply R before text _ values, hu⟩) ?_
      refine fun hok => .ite (fun _ => .fault) fun _ => ?_
      obtain ⟨t, rest, v, rfl, hread, hR⟩ := hr (by simpa using hok)
      rw [hread.value]
      exact leads_further (ih _ (v :: values)) hread hR hu

theorem Yields.times (hp : p.Yields ready n R) (r : Repetition) :
    (p.times r).Yields ready n fun t v => ∃ vs, v = .list vs ∧ All R t vs := by
  have hturns : Action.Yields ready (Action.times n (p.run (n + 1)) r) (Further R []) := by
    unfold Action.times
    cases r.most with
    | some most => exact hp.required (hp.bounded (most - r.least)) r.least none []
    | none => exact hp.required (hp.unbounded n) r.least none []
  exact hturns

theorem Yields.many (hp : p.Yields ready n R) :
    p.many.Yields ready n fun t v => ∃ vs, v = .list vs ∧ All R t vs :=
  hp.times .any

/-- Success where a parser fails, which consumes nothing. -/
theorem Yields.notFollowedBy (hp : p.Yields ready n R) (description : Option String) :
    (p.notFollowedBy description).Yields ready n fun t v => t = [] ∧ v = .null := by
  intro before text w hw
  refine (hp before text w hw).bind ?_
  rintro r u ⟨-, hu⟩
  refine leads_status ?_ ?_
  · exact fun _ => .pure ⟨taken_of_failure rfl, hu⟩
  · intro _
    exact .pure ⟨fun _ => ⟨[], text, .null, rfl, read_ok before [] .null, rfl, rfl⟩, hu⟩

theorem Yields.traced (hquiet : World.Quiet ready) (hp : p.Yields ready n R) (label : String) :
    (p.traced label).Yields ready n R := by
  intro before text w hw
  have written (label : String) {u : World} (hu : ready u) :=
    Run.Leads.plain hquiet (Action.plain_writeTrace label (before ++ text) before.length) hu
  have finish (on : Bool) {u : World} (hu : ready u) :
      Run.Leads (fun r z => Taken before text R r ∧ ready z) (do
        let reply ← p.run (n + 1) (before ++ text) before.length
        if on && !reply.status then
          Action.writeTrace (label ++ " backtracked") (before ++ text) before.length
        Pure.pure reply) u := by
    refine (hp before text u hu).bind ?_
    rintro r z ⟨hr, hz⟩
    refine .ite (fun _ => ?_) fun _ => .pure ⟨hr, hz⟩
    exact (written _ hz).bind fun _ _ hlast => .pure ⟨hr, hlast⟩
  refine (Run.Leads.plain hquiet Action.plain_tracing hw).bind fun on u hu => ?_
  refine .ite (fun _ => ?_) fun _ => finish on hu
  exact (written label hu).bind fun _ _ hz => finish on hz

end Combinators

section Primitives

theorem yields_string (s : String) :
    (Parser.string s).Yields ready n fun t v => t = s.toList ∧ v = .str s := by
  intro before text w hw
  change Run.Leads _ (Action.string s (before ++ text) before.length) w
  rw [string_append]
  refine .ite (fun hahead => ?_) fun _ => .pure ⟨taken_of_failure rfl, hw⟩
  obtain ⟨rest, rfl⟩ := hahead
  refine .pure ⟨fun _ => ⟨s.toList, rest, .str s, rfl, ?_, rfl, rfl⟩, hw⟩
  rw [← String.length_toList, ← Int.natCast_add]
  exact read_ok before s.toList (.str s)

theorem yields_pattern (p : Pattern) :
    (Parser.pattern p 0).Yields ready n fun t v => t ∈ p.root.language ∧ v = .text t := by
  intro before text w hw
  have hlength : (before.length : Int) ≤ (before ++ text).length := by
    rw [List.length_append]
    omega
  change Run.Leads _ (Action.pattern p 0 (before ++ text) before.length) w
  unfold Action.pattern
  cases hmatch : p.match? 0 (before ++ text) before.length with
  | none => exact .pure ⟨taken_of_failure rfl, hw⟩
  | some found =>
      obtain ⟨stop, taken⟩ := found
      obtain ⟨t, ht, rest, htext, hstop, htaken⟩ := p.match?_eq_some 0 _ hlength hmatch
      rw [Int.toNat_natCast, List.drop_left] at htext
      rw [htaken rfl]
      refine .pure ⟨fun _ => ⟨t, rest, .text t, htext, ⟨rfl, ?_, rfl⟩, ht, rfl⟩, hw⟩
      rw [hstop]
      rfl

theorem yields_satisfy (hquiet : World.Quiet ready) (test : Char → Call Bool) (expected : String) :
    (Parser.satisfy test expected).Yields ready n fun t v =>
      ∃ c, (test c).result = .ok true ∧ t = [c] ∧ v = .text [c] := by
  intro before text w hw
  cases text with
  | nil =>
      change Run.Leads _ (Action.satisfy test expected (before ++ []) before.length) w
      rw [satisfy_end]
      exact .pure ⟨taken_of_failure rfl, hw⟩
  | cons c more =>
      change Run.Leads _ (Action.satisfy test expected (before ++ c :: more) before.length) w
      rw [satisfy_append]
      refine (Run.Leads.ofCall hquiet (test c) hw).bind ?_
      rintro met u ⟨hmet, hu⟩
      refine .ite (fun hyes => ?_) fun _ => .pure ⟨taken_of_failure rfl, hu⟩
      subst hyes
      have hread := read_ok before [c] (.text [c])
      exact .pure ⟨fun _ => ⟨[c], more, .text [c], rfl, hread, c, hmet, rfl, rfl⟩, hu⟩

/-- A run of characters is no longer than the text it is taken from. -/
theorem leads_countWhile (hquiet : World.Quiet ready) (test : Char → Call Bool) (text : Text)
    (hw : ready w) : Run.Leads (fun count u => count ≤ text.length ∧ ready u)
      (Action.countWhile test text) w := by
  intro count u hend
  refine ⟨Action.countWhile_le test text hend, ?_⟩
  exact Run.Leads.plain hquiet (Action.blind_countWhile test text).plain hw count u hend

theorem yields_takeWhile (hquiet : World.Quiet ready) (test : Char → Call Bool) :
    (Parser.takeWhile test).Yields ready n fun t v => v = .text t := by
  intro before text w hw
  change Run.Leads _ (Action.takeWhile test (before ++ text) before.length) w
  rw [takeWhile_append]
  refine (leads_countWhile hquiet test text hw).bind ?_
  rintro count u ⟨hcount, hu⟩
  have hlength : (text.take count).length = count := List.length_take_of_le hcount
  have hread := read_ok before (text.take count) (.text (text.take count))
  rw [hlength] at hread
  refine .pure ⟨fun _ => ?_, hu⟩
  exact ⟨text.take count, text.drop count, _, (List.take_append_drop count text).symm, hread, rfl⟩

theorem yields_anyChar : Parser.anyChar.Yields ready n fun t v => v = .text t := by
  intro before text w hw
  cases text with
  | nil =>
      change Run.Leads _ (Action.anyChar (before ++ []) before.length) w
      rw [Action.anyChar, if_neg (by simp)]
      exact .pure ⟨taken_of_failure rfl, hw⟩
  | cons c more =>
      change Run.Leads _ (Action.anyChar (before ++ c :: more) before.length) w
      rw [Action.anyChar, if_pos (length_lt_append before c more), charAt_append]
      have hread := read_ok before [c] (.text [c])
      exact .pure ⟨fun _ => ⟨[c], more, .text [c], rfl, hread, rfl⟩, hw⟩

theorem yields_rest : Parser.rest.Yields ready n fun t v => v = .text t := by
  intro before text w hw
  change Run.Leads _ (Action.rest (before ++ text) before.length) w
  rw [Action.rest, suffix_append, List.length_append]
  have hread := read_ok before text (.text text)
  exact .pure ⟨fun _ => ⟨text, [], .text text, by simp, hread, rfl⟩, hw⟩

theorem yields_eof : Parser.eof.Yields ready n fun t v => t = [] ∧ v = .null := by
  intro before text w hw
  change Run.Leads _ (Action.eof (before ++ text) before.length) w
  unfold Action.eof
  split
  · exact .pure ⟨taken_of_failure rfl, hw⟩
  · exact .pure ⟨fun _ => ⟨[], text, .null, rfl, read_ok before [] .null, rfl, rfl⟩, hw⟩

theorem yields_fail (expected : String) : (Parser.fail expected).Yields ready n R :=
  fun _ _ _ hw => .pure ⟨taken_of_failure rfl, hw⟩

theorem yields_pure (v : Value) :
    (Parser.pure v).Yields ready n fun t v' => t = [] ∧ v' = v :=
  fun before text _ hw =>
    .pure ⟨fun _ => ⟨[], text, v, rfl, read_ok before [] v, rfl, rfl⟩, hw⟩

end Primitives

section Whole

/-- A parse that comes to its end has run the parser to its end. -/
theorem exists_run_of_parse {outcome : Outcome} (h : p.parse budget s w = .ok outcome after) :
    ∃ r u, p.run budget s 0 w = .ok r u := by
  obtain ⟨reply, u', hskip, -⟩ := Run.bind_eq_ok.mp h
  cases budget with
  | zero => cases hskip
  | succ budget =>
      obtain ⟨r, u, hrun, -⟩ := Run.bind_eq_ok.mp hskip
      exact ⟨r, u, hrun⟩

/-- An input that is parsed is related to its value as a whole. -/
theorem related_of_parse (hp : ∀ n, p.Yields ready n R) (hw : ready w)
    (h : p.parse budget s w = .ok (.success v) after) : R s v := by
  obtain ⟨r, u, hrun⟩ := exists_run_of_parse h
  rcases parse_cases hrun with ⟨hok, hend, hparse⟩ | ⟨-, f, u', hparse, -⟩
  · rw [hparse] at h
    cases h
    cases budget with
    | zero => cases hrun
    | succ budget =>
        obtain ⟨t, rest, v, rfl, hread, hR⟩ := (hp budget [] s w hw r _ hrun).1 hok
        have hlength : ([] : Text).length + t.length = (t ++ rest).length :=
          Int.ofNat.inj (hread.index.symm.trans hend)
        have hrest : rest = [] := by
          rw [List.length_nil, List.length_append] at hlength
          exact List.length_eq_zero_iff.mp (by omega)
        rw [hrest, List.append_nil, hread.value]
        exact hR
  · rw [hparse] at h
    cases h

/-- An input that is read as a whole is parsed. -/
theorem parse_of_reads (hp : p.Reads ready s [] v) (hw : ready w) :
    ∀ᶠ budget in Filter.atTop, ∃ after, p.parse budget s w = .ok (.success v) after := by
  rcases hp [] w hw with ⟨r, u, ⟨hread, -⟩, hend⟩ | ⟨_, _, hnever, -⟩
  · rw [← Filter.map_add_atTop_eq_nat 1]
    refine hend.mono fun n hn => ⟨u, ?_⟩
    rw [List.append_nil] at hn
    have hrun : p.run (n + 1) s 0 w = .ok r u := hn
    rw [← hread.value]
    exact parse_of_end hrun hread.status (by rw [hread.index]; simp)
  · exact hnever.elim

end Whole

end Parser

end Descent
