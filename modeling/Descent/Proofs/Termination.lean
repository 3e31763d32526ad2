/-
# Parsers without recursion come to an end

Handles are the only way for a parser to come back to itself. A parser that leads to
none of them ends on every input and from every offset inside it, with a reply or in a
fault, and loops without a bound are no exception: a turn that consumes nothing ends the
loop in a fault, and all other turns bring it closer to the end of the input.

The argument follows the description. Parts of a parser are run at offsets inside the
input again, which is what the reply invariant says, and what stands behind a
description that is built in the course of a run is smaller than the description it is
part of. Inside one loop it is what is left of the input that gets smaller.
-/

import Descent.Proofs.Building
import Descent.Proofs.Frame
import Descent.Proofs.ReplyInvariant
import Descent.Proofs.Settling
import Descent.Proofs.Turns

namespace Descent

open Filter

namespace Description

/-- A description without deferred rules, in which all names are known to be harmless. -/
def Direct (known : String → Prop) : Description → Prop
  | .atom _ => True
  | .wrap _ p => p.Direct known
  | .join _ p q => p.Direct known ∧ q.Direct known
  | .between opening closing p => opening.Direct known ∧ closing.Direct known ∧ p.Direct known
  | .seq _ ps => ∀ k, (ps k).Direct known
  | .alt _ ps => ∀ k, (ps k).Direct known
  | .seqMap _ ps _ => ∀ k, (ps k).Direct known
  | .bind p _ q => p.Direct known ∧ q.Direct known
  | .choose _ _ p q => p.Direct known ∧ q.Direct known
  | .known name => known name
  | .deferred .. => False

end Description

namespace Parser

/-- A part that has no parts of its own and is no handle: a primitive, or a description
to be built in the course of a run. -/
inductive Leaf (known : String → Prop) : Parser → Parser → Prop
  | primitive {p : Parser} (h : p.Primitive) : Leaf known p p
  | built {d : Description} (h : d.Direct known) (bindings : Bindings) :
      Leaf known (.built d bindings) (.built d bindings)

/-- A parser that leads to no handle. -/
def Direct (known : String → Prop) (p : Parser) : Prop :=
  p.Alike (Leaf known) p

end Parser

/-- A name that stands for a parser without handles. Names in descriptions that are built
in the course of a run have to be of a lower rank. -/
def World.Direct (w : World) : Nat → String → Prop
  | 0, _ => False
  | rank + 1, name => ∀ p, lookup? name w.names = some p → p.Direct (w.Direct rank)

/-- Names stand for the same in all worlds of a run. -/
theorem World.frame_names : World.Frame fun w v => v.names = w.names where
  refl _ := rfl
  trans h h' := h'.trans h
  noted _ _ := rfl
  grows h := by rw [h.rest]
  keepBehaviour _ _ _ := rfl
  markDispatched _ := rfl

namespace Action

variable {names : List (String × Parser)} {s : Text} {i : Int} {w : World}

/-- A start inside the input, in a world with the given names. -/
structure Start (names : List (String × Parser)) (s : Text) (i : Int) (w : World) : Prop where
  lower : 0 ≤ i
  upper : i ≤ s.length
  names_eq : w.names = names

/-- An action ends wherever it is started inside the input, and a success of it stops
inside the input and not before its start. -/
def Ends (names : List (String × Parser)) (act : Nat → Action) : Prop :=
  ∀ s i w, Start names s i w → Run.Settles (fun _ => True)
    (fun r v => Start names s i v ∧ (r.status = true → i ≤ r.index ∧ Start names s r.index v))
    (fun n => act n s i) w

/-- An action ends wherever it is started inside the input. -/
def Halts (names : List (String × Parser)) (act : Nat → Action) : Prop :=
  ∀ s i w, Start names s i w →
    Run.Settles (fun _ => True) (fun _ _ => True) (fun n => act n s i) w

variable {p q : Nat → Action}

theorem Ends.halts (h : Ends names p) : Halts names p :=
  fun s i w hw => (h s i w hw).mono fun _ _ _ => trivial

theorem Ends.bind {f : Nat → Value → Action} (hp : Ends names p)
    (hf : ∀ v, Ends names fun n => f n v) : Halts names fun n => Action.bind (p n) (f n) := by
  intro s i w hw
  apply (hp s i w hw).bind
  intro r v hr
  apply Run.Settles.ite
  · intro hok
    exact (hf r.value s r.index v (hr.2 hok).2).bind fun _ _ _ => .pure trivial
  · exact fun _ => .pure trivial

theorem Ends.map (hp : Ends names p) (f : Value → Call Value) :
    Halts names fun n => Action.map (p n) f := by
  intro s i w hw
  apply (hp s i w hw).bind
  intro r v hr
  apply Run.Settles.ite
  · intro _
    exact .plain (.bind (.ofCall _) fun _ => .pure _)
  · exact fun _ => .pure trivial

theorem Ends.andThen (hp : Ends names p) (hq : Ends names q) :
    Halts names fun n => Action.andThen (p n) (q n) :=
  hp.bind fun _ => hq

theorem Ends.skip (hp : Ends names p) (hq : Ends names q) :
    Halts names fun n => Action.skip (p n) (q n) := by
  intro s i w hw
  apply (hp s i w hw).bind
  intro r v hr
  apply Run.Settles.ite
  · intro hok
    apply (hq s r.index v (hr.2 hok).2).bind
    intro next u _
    exact .plain (.ite (.pure _) (.pure _))
  · exact fun _ => .pure trivial

theorem Ends.orElse (hp : Ends names p) (hq : Ends names q) :
    Halts names fun n => Action.orElse (p n) (q n) := by
  intro s i w hw
  apply (hp s i w hw).bind
  intro r v hr
  apply Run.Settles.ite
  · exact fun _ => .pure trivial
  · intro _
    exact (hq s i v hr.1).bind fun _ _ _ => .pure trivial

/-- What is made of a reply by plain steps. -/
theorem Ends.bind_plain (hp : Ends names p) {f : Text → Int → Reply → Run Reply}
    (hf : ∀ s i r, (f s i r).Plain) : Halts names fun n s i => p n s i >>= f s i :=
  fun s i w hw => (hp s i w hw).bind fun r _ _ => .plain (hf s i r)

theorem Ends.label (hp : Ends names p) (description : String) :
    Halts names fun n => Action.label (p n) description :=
  hp.bind_plain fun _ _ _ => .ite (.pure _) (.pure _)

theorem Ends.lookAhead (hp : Ends names p) : Halts names fun n => Action.lookAhead (p n) :=
  hp.bind_plain fun _ _ _ => .ite (.pure _) (.pure _)

theorem Ends.notFollowedBy (hp : Ends names p) (description : Option String) :
    Halts names fun n => Action.notFollowedBy (p n) description :=
  hp.bind_plain fun _ _ _ => .ite (.pure _) (.pure _)

theorem Ends.withDefault (hp : Ends names p) (call : Call Value) :
    Halts names fun n => Action.withDefault (p n) call := by
  refine hp.bind_plain fun _ _ r => ?_
  split
  · exact .bind (.ofCall _) fun _ => .pure _
  · exact .pure _

theorem Ends.traced (hp : Ends names p) (text : String) :
    Halts names fun n => Action.traced text (p n) := by
  intro s i w hw
  have hwrite (label : String) := Action.plain_writeTrace label s i
  have finish (on : Bool) {v : World} (hv : Start names s i v) :
      Run.Settles (fun _ => True) (fun _ _ => True) (fun n => p n s i >>= fun r =>
        if (on && !r.status) = true then
          Action.writeTrace (text ++ " backtracked") s i >>= fun _ => pure r else pure r) v :=
    (hp s i v hv).bind fun r _ _ => .plain (.ite (.bind (hwrite _) fun _ => .pure _) (.pure _))
  have started {α : Type} {x : Run α} (hx : x.Plain) {v : World} (hv : Start names s i v) :
      Run.Settles (fun _ => True) (fun _ u => Start names s i u) (fun _ => x) v := by
    refine ((Run.Settles.plain hx).and fun _ a u hu => ?_).mono fun _ _ h => h.2
    have hkept := World.frame_names.plain hx v
    rw [Run.after_of_ok hu] at hkept
    exact ⟨hv.lower, hv.upper, hkept.trans hv.names_eq⟩
  apply (started Action.plain_tracing hw).bind
  intro on v hv
  apply Run.Settles.ite
  · intro _
    apply (started (hwrite text) hv).bind
    intro _ u hu
    exact finish on hu
  · exact fun _ => finish on hv

section Loops

variable {context : Option Reply} {values : List Value}

theorem Ends.required {done : Nat → Int → Option Reply → List Value → Run Reply}
    (hp : Ends names p)
    (hdone : ∀ i w context values, Start names s i w →
      Run.Settles (fun _ => True) (fun _ _ => True) (fun n => done n i context values) w)
    (count : Nat) (hw : Start names s i w) :
    Run.Settles (fun _ => True) (fun _ _ => True)
      (fun n => Action.required (p n) s (done n) count i context values) w := by
  induction count generalizing i w context values with
  | zero => exact hdone i w context values hw
  | succ count ih =>
      apply (hp s i w hw).bind
      intro r v hr
      apply Run.Settles.ite
      · exact fun hok => ih (hr.2 hok).2
      · exact fun _ => .pure trivial

theorem Ends.bounded (hp : Ends names p) (count : Nat) (hw : Start names s i w) :
    Run.Settles (fun _ => True) (fun _ _ => True)
      (fun n => Action.bounded (p n) s count i context values) w := by
  induction count generalizing i w context values with
  | zero => exact .pure trivial
  | succ count ih =>
      apply (hp s i w hw).bind
      intro r v hr
      apply Run.Settles.ite
      · exact fun hok => ih (hr.2 hok).2
      · exact fun _ => .pure trivial

/-- A loop that has used up some of its turns ends, since each further turn consumes
something or ends it. -/
theorem Ends.unbounded (hp : Ends names p) (used : Nat) (hw : Start names s i w) :
    Run.Settles (fun _ => True) (fun _ _ => True)
      (fun n => Action.unbounded (p n) s (n - used) i context values) w := by
  -- The induction is on what is left of the input.
  induction hleft : (s.length - i).toNat using Nat.strong_induction_on
    generalizing i w context values used with
  | _ left ih =>
      refine Run.Settles.turn
        (x := fun n turns => Action.unbounded (p n) s turns i context values) used ?_
      apply (hp s i w hw).bind
      intro r v hr
      apply Run.Settles.ite
      · exact fun _ => .pure trivial
      · intro hok
        apply Run.Settles.ite
        · exact fun _ => .fault trivial
        · intro hmoved
          obtain ⟨hle, hnext⟩ := hr.2 (by simpa using hok)
          have hupper := hnext.upper
          have hshorter : (s.length - r.index).toNat < left := by omega
          exact ih _ hshorter (used + 1) hnext rfl

theorem Ends.times (hp : Ends names p) (r : Repetition) :
    Halts names fun n => Action.times n (p n) r := by
  intro s i w hw
  unfold Action.times
  cases r.most with
  | some most =>
      exact hp.required (fun _ _ _ _ hv => hp.bounded (most - r.least) hv) r.least hw
  | none => exact hp.required (fun _ _ _ _ hv => hp.unbounded 0 hv) r.least hw

/-- The same for a loop that ends where another action succeeds. -/
theorem Ends.turnsTill (hp : Ends names p) (hq : Ends names q) (used : Nat)
    (hw : Start names s i w) :
    Run.Settles (fun _ => True) (fun _ _ => True)
      (fun n => Action.turnsTill (p n) (q n) s (n - used) i context values) w := by
  induction hleft : (s.length - i).toNat using Nat.strong_induction_on
    generalizing i w context values used with
  | _ left ih =>
      refine Run.Settles.turn
        (x := fun n turns => Action.turnsTill (p n) (q n) s turns i context values) used ?_
      apply (hq s i w hw).bind
      intro ended v hended
      apply Run.Settles.ite
      · exact fun _ => .pure trivial
      · intro _
        apply (hp s i v hended.1).bind
        intro r u hr
        apply Run.Settles.ite
        · exact fun _ => .pure trivial
        · intro hok
          apply Run.Settles.ite
          · exact fun _ => .fault trivial
          · intro hmoved
            simp only [Reply.mergeWith_status, Reply.mergeWith_index] at hok hmoved ⊢
            obtain ⟨hle, hnext⟩ := hr.2 (by simpa using hok)
            have hupper := hnext.upper
            have hshorter : (s.length - r.index).toNat < left := by omega
            exact ih _ hshorter (used + 1) hnext rfl

theorem Ends.manyTill (hp : Ends names p) (hq : Ends names q) :
    Halts names fun n => Action.manyTill n (p n) (q n) :=
  fun _ _ _ hw => hp.turnsTill hq 0 hw

theorem ends_seqFrom {ps : List (Nat → Action)} (hps : ∀ p ∈ ps, Ends names p)
    (context : Option Reply) (values : List Value) (hw : Start names s i w) :
    Run.Settles (fun _ => True) (fun _ _ => True)
      (fun n => Action.seqFrom s (ps.map (· n)) i context values) w := by
  induction ps generalizing i w context values with
  | nil => exact .pure trivial
  | cons p ps ih =>
      apply (hps p List.mem_cons_self s i w hw).bind
      intro r v hr
      apply Run.Settles.ite
      · intro hok
        rw [Reply.merge_status] at hok
        rw [Reply.merge_index]
        exact ih (fun q hq => hps q (List.mem_cons_of_mem _ hq)) _ _ (hr.2 hok).2
      · exact fun _ => .pure trivial

theorem ends_altFrom {ps : List (Nat → Action)} (hps : ∀ p ∈ ps, Ends names p)
    (context : Option Reply) (hw : Start names s i w) :
    Run.Settles (fun _ => True) (fun _ _ => True)
      (fun n => Action.altFrom s i (ps.map (· n)) context) w := by
  induction ps generalizing w context with
  | nil =>
      cases context with
      | none => exact .pure trivial
      | some reply => exact .pure trivial
  | cons p ps ih =>
      apply (hps p List.mem_cons_self s i w hw).bind
      intro r v hr
      apply Run.Settles.ite
      · exact fun _ => .pure trivial
      · exact fun _ => ih (fun q hq => hps q (List.mem_cons_of_mem _ hq)) _ hr.1

/-- The actions of a family, as a row. -/
theorem ends_ofFn {n : Nat} {ps : Fin n → Nat → Action} (h : ∀ k, Ends names (ps k)) :
    ∀ p ∈ List.ofFn ps, Ends names p := by
  intro p hp
  obtain ⟨k, rfl⟩ := List.mem_ofFn.mp hp
  exact h k

theorem halts_seq {n : Nat} {ps : Fin n → Nat → Action} (h : ∀ k, Ends names (ps k)) :
    Halts names fun turns => Action.seq (List.ofFn fun k => ps k turns) := by
  intro s i w hw
  have hrow := ends_seqFrom (ends_ofFn h) none [] hw
  simp only [List.map_ofFn] at hrow
  exact hrow

theorem halts_alt {n : Nat} {ps : Fin n → Nat → Action} (h : ∀ k, Ends names (ps k)) :
    Halts names fun turns => Action.alt (List.ofFn fun k => ps k turns) := by
  intro s i w hw
  have hrow := ends_altFrom (ends_ofFn h) none hw
  simp only [List.map_ofFn] at hrow
  exact hrow

end Loops

end Action

namespace Parser

variable {names : List (String × Parser)} {p p' : Parser}

/-- A parser ends wherever it is started inside the input. -/
def Ends (names : List (String × Parser)) (p : Parser) : Prop :=
  Action.Ends names fun n => p.action (fun _ act => act) (run n) n

/-- Where a run stops is known from the reply invariant. -/
theorem ends_of_halts
    (h : Action.Halts names fun n => p.action (fun _ act => act) (run n) n) : p.Ends names := by
  intro s i w hw
  refine ((h s i w hw).and fun n r v hend => ?_).mono fun _ _ hr => hr.2
  have hrun : p.run (n + 1) s i w = .ok r v := hend
  have hnames := World.frame_names.within_run (n + 1) p s i w
  rw [Run.after_of_ok hrun] at hnames
  have hv : v.names = names := hnames.trans hw.names_eq
  refine ⟨⟨hw.lower, hw.upper, hv⟩, fun hok => ?_⟩
  obtain ⟨hle, hlen⟩ := index_of_run hw.lower hw.upper hrun hok
  exact ⟨hle, Int.le_trans hw.lower hle, hlen, hv⟩

theorem Primitive.ends (h : p.Primitive) : p.Ends names := by
  obtain ⟨act, haction, hplain⟩ := h.exists_plain_eq
  refine ends_of_halts fun s i w _ => ?_
  simp only [haction]
  exact .plain (hplain s i)

/-- A part of a parser that ends, compared with any other. -/
def EndingPart (names : List (String × Parser)) (p _p' : Parser) : Prop :=
  p.Ends names

/-- A parser ends if all parts of it that have no parts end. -/
theorem Alike.ends (h : p.Alike (EndingPart names) p') : p.Ends names := by
  induction h with
  | base h => exact h
  | bind _ _ ihp ihf => exact ends_of_halts (ihp.bind ihf)
  | map f _ ihp => exact ends_of_halts (ihp.map f)
  | andThen _ _ ihp ihq => exact ends_of_halts (ihp.andThen ihq)
  | skip _ _ ihp ihq => exact ends_of_halts (ihp.skip ihq)
  | orElse _ _ ihp ihq => exact ends_of_halts (ihp.orElse ihq)
  | times r _ ihp => exact ends_of_halts (ihp.times r)
  | label description _ ihp => exact ends_of_halts (ihp.label description)
  | withDefault call _ ihp => exact ends_of_halts (ihp.withDefault call)
  | seq _ ih => exact ends_of_halts (Action.halts_seq ih)
  | alt _ ih => exact ends_of_halts (Action.halts_alt ih)
  | lookAhead _ ihp => exact ends_of_halts ihp.lookAhead
  | notFollowedBy description _ ihp => exact ends_of_halts (ihp.notFollowedBy description)
  | manyTill _ _ ihp ihq => exact ends_of_halts (ihp.manyTill ihq)
  | traced text _ ihp => exact ends_of_halts (ihp.traced text)

end Parser

namespace Description

variable {names : List (String × Parser)} {w : World}

/-- Building comes to an end, and with a parser that ends if it comes to one at all. -/
def Builds (names : List (String × Parser)) (x : Run Parser) : Prop :=
  ∀ w : World, w.names = names → Run.Settles (fun _ => True)
    (fun p v => p.Ends names ∧ v.names = names) (fun _ => x) w

theorem builds_ofExcept {x : Except Fault Parser}
    (h : BuiltAlike (Parser.EndingPart names) x x) : Builds names (Run.ofExcept x) := by
  intro w hw
  cases h with
  | error f => exact .fault trivial
  | ok h => exact .pure ⟨h.ends, hw⟩

theorem builds_inOrder {steps : List (Run Parser)} (h : ∀ step ∈ steps, Builds names step)
    (hw : w.names = names) :
    Run.Settles (fun _ => True) (fun ps v => (∀ p ∈ ps, p.Ends names) ∧ v.names = names)
      (fun _ => inOrder steps) w := by
  induction steps generalizing w with
  | nil => exact .pure ⟨by simp, hw⟩
  | cons step steps ih =>
      apply (h step List.mem_cons_self w hw).bind
      rintro p v ⟨hp, hv⟩
      apply (ih (fun step hmem => h step (List.mem_cons_of_mem _ hmem)) hv).bind
      rintro ps u ⟨hps, hu⟩
      exact .pure ⟨by simpa using ⟨hp, hps⟩, hu⟩

theorem builds_ofFn {n : Nat} {steps : Fin n → Run Parser} (h : ∀ k, Builds names (steps k))
    (hw : w.names = names) :
    Run.Settles (fun _ => True) (fun ps v => (∀ p ∈ ps, p.Ends names) ∧ v.names = names)
      (fun _ => inOrder (List.ofFn steps)) w := by
  refine builds_inOrder (fun step hmem => ?_) hw
  obtain ⟨k, rfl⟩ := List.mem_ofFn.mp hmem
  exact h k

/-- A parser that is built in the course of a run ends. -/
theorem ends_built {d : Description} {bindings : Bindings} (h : Builds names (d.build bindings)) :
    (Parser.built d bindings).Ends names := by
  refine Parser.ends_of_halts fun s i w hw => ?_
  apply (h w hw.names_eq).bind
  rintro p v ⟨hp, hv⟩
  exact .of_succ (hp.halts s i v ⟨hw.lower, hw.upper, hv⟩)

/-- Building a direct description gives a parser that ends. -/
theorem Direct.builds {known : String → Prop}
    (hknown : ∀ name, known name → ∀ p, World.lookup? name names = some p → p.Ends names)
    {d : Description} (hd : d.Direct known) (bindings : Bindings) :
    Builds names (d.build bindings) := by
  have leaf {p : Parser} (h : p.Ends names) : p.Alike (Parser.EndingPart names) p := .base h
  have leaves {ps : List Parser} (h : ∀ p ∈ ps, p.Ends names) :
      List.Forall₂ (Parser.Alike (Parser.EndingPart names)) ps ps :=
    List.forall₂_same.mpr fun p hp => leaf (h p hp)
  have primitive {p : Parser} (h : p.Primitive) : Parser.EndingPart names p p := h.ends
  induction d generalizing bindings with
  | atom a => exact builds_ofExcept (.atom primitive bindings a)
  | wrap m p ih =>
      intro w hw
      apply (ih hd bindings w hw).bind
      rintro p v ⟨hp, hv⟩
      exact builds_ofExcept (.modifier primitive bindings m (leaf hp)) v hv
  | join j p q ihp ihq =>
      intro w hw
      apply (ihp hd.1 bindings w hw).bind
      rintro p v ⟨hp, hv⟩
      apply (ihq hd.2 bindings v hv).bind
      rintro q u ⟨hq, hu⟩
      exact .pure ⟨(Parser.Alike.joiner primitive j (leaf hp) (leaf hq)).ends, hu⟩
  | between opening closing p iho ihc ihp =>
      intro w hw
      apply (iho hd.1 bindings w hw).bind
      rintro o v ⟨ho, hv⟩
      apply (ihc hd.2.1 bindings v hv).bind
      rintro c u ⟨hc, hu⟩
      apply (ihp hd.2.2 bindings u hu).bind
      rintro p t ⟨hp, ht⟩
      exact .pure ⟨(Parser.Alike.between (leaf ho) (leaf hc) (leaf hp)).ends, ht⟩
  | seq n ps ih =>
      intro w hw
      apply (builds_ofFn (fun k => ih k (hd k) bindings) hw).bind
      rintro qs v ⟨hqs, hv⟩
      exact .pure ⟨(Parser.Alike.sequence (leaves hqs)).ends, hv⟩
  | alt n ps ih =>
      intro w hw
      apply (builds_ofFn (fun k => ih k (hd k) bindings) hw).bind
      rintro qs v ⟨hqs, hv⟩
      exact .pure ⟨(Parser.Alike.choice (leaves hqs)).ends, hv⟩
  | seqMap n ps f ih =>
      intro w hw
      apply (builds_ofFn (fun k => ih k (hd k) bindings) hw).bind
      rintro qs v ⟨hqs, hv⟩
      cases f with
      | none => exact .fault trivial
      | some f => exact .pure ⟨(Parser.Alike.seqMap _ (leaves hqs)).ends, hv⟩
  | bind p name q ihp ihq =>
      intro w hw
      apply (ihp hd.1 bindings w hw).bind
      rintro p v ⟨hp, hv⟩
      have hq (a : Value) := ends_built (ihq hd.2 ((name, a) :: bindings))
      exact .pure ⟨(Parser.Alike.bind (leaf hp) fun a => leaf (hq a)).ends, hv⟩
  | choose first second p q ihp ihq =>
      intro w hw
      have literal (l : Literal) {v : World} (hv : v.names = names) :
          Run.Settles (fun _ => True) (fun _ u => u.names = names)
            (fun _ => Run.ofExcept (l.eval bindings)) v := by
        cases l.eval bindings with
        | error f => exact .fault trivial
        | ok a => exact .pure hv
      apply (literal first hw).bind
      intro a v hv
      apply (literal second hv).bind
      intro b u hu
      exact .ite (fun _ => ihp hd.1 bindings u hu) fun _ => ihq hd.2 bindings u hu
  | known name =>
      intro w hw
      subst hw
      cases hname : World.lookup? name w.names with
      | none => exact .of_fault (fun _ => by unfold build; rw [Run.get_bind, hname]; rfl) trivial
      | some p =>
          exact .of_ok (fun _ => by unfold build; rw [Run.get_bind, hname]; rfl)
            ⟨hknown name hd p hname, rfl⟩
  | deferred rule description => exact hd.elim

end Description

/-- A direct parser ends, if what the names in it stand for does. -/
theorem Parser.Direct.ends {names : List (String × Parser)} {known : String → Prop}
    (hknown : ∀ name, known name → ∀ p, World.lookup? name names = some p → p.Ends names)
    {p : Parser} (hp : p.Direct known) : p.Ends names := by
  have hleaf (q q' : Parser) (h : Parser.Leaf known q q') : Parser.EndingPart names q q' := by
    cases h with
    | primitive h => exact h.ends
    | built h bindings => exact Description.ends_built (h.builds hknown bindings)
  exact (Parser.Alike.mono hp hleaf).ends

/-- Names of every rank stand for parsers that end. -/
theorem World.Direct.ends {w : World} {rank : Nat} {name : String} (h : w.Direct rank name)
    {p : Parser} (hp : World.lookup? name w.names = some p) : p.Ends w.names := by
  induction rank generalizing name p with
  | zero => exact h.elim
  | succ rank ih => exact (h p hp).ends fun name hname q hq => ih hname hq

namespace Description

/-- A description without recursion is run to its end. On every input and from every offset
inside it, all large budgets lead to the same reply or to the same fault, and however
large the budget is, no loop without a bound of its own makes more turns than one more
than there are characters left where it starts. -/
theorem run_ends (d : Description) (bindings : Bindings) (w : World) (rank : Nat) (s : Text)
    (i : Int) (hd : d.Direct (w.Direct rank)) (h0 : 0 ≤ i) (hlen : i ≤ s.length) :
    (∃ result, (∀ v, result ≠ .error .unfinished v) ∧ ∀ᶠ budget in atTop,
      (d.build bindings >>= fun p => p.run budget s i) w = result) ∧
    ∀ p v, d.build bindings w = .ok p v → ∀ budget,
      (p.watched budget s i v).2 = p.run budget s i v ∧
      ∀ visit ∈ Visit.allOf (p.watched budget s i v).1,
        i ≤ visit.offset ∧ visit.offset ≤ s.length ∧ visit.Frugal s := by
  constructor
  · have hends : (Parser.built d bindings).Ends w.names :=
      ends_built (hd.builds (fun _ hname _ hp => hname.ends hp) bindings)
    rcases hends s i w ⟨h0, hlen, rfl⟩ with ⟨r, v, -, hend⟩ | ⟨f, v, -, hend⟩
    · exact ⟨.ok r v, by simp, hend⟩
    · exact ⟨.error (.fault f) v, by simp, hend⟩
  · intro p v _ budget
    exact ⟨p.watched_snd budget s i v, fun visit hvisit => Parser.frugal_of_watched h0 hlen hvisit⟩

/-- A loop inside a loop, both of which may succeed without consuming anything, in a part
that is built in the course of the run. -/
theorem run_ends_of_idle_loops :
    ∃ result, (∀ v, result ≠ .error .unfinished v) ∧ ∀ᶠ budget in atTop,
      ((Description.bind (.known "p") "x" (.wrap .many (.wrap .many (.known "p")))).build [] >>=
        fun p => p.run budget ['a', 'a', 'b'] 0)
          { names := [("p", (Parser.string "a").optional)] } = result := by
  refine (run_ends _ [] _ 1 ['a', 'a', 'b'] 0 ?_ (by decide) (by decide)).1
  have hknown : World.Direct { names := [("p", (Parser.string "a").optional)] } 1 "p" := by
    intro p hp
    cases hp
    exact .orElse (.base (.primitive (.string _))) (.base (.primitive (.pure _)))
  exact ⟨hknown, hknown⟩

end Description

end Descent
