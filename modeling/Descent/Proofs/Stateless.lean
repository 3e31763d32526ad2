/-
# Parsers without memory

A parser that leads to no handle leaves nothing behind but records, and records are never
looked at. So it comes to the same outcome whenever it is run at an offset of an input, be it
for the first time or in a turn of a loop, and one can speak of its reply there. That it comes
to an outcome at all is what running to an end says.
-/

import Descent.Proofs.Termination

namespace Descent

open Filter

variable {α β : Type}

namespace Run

/-- How a run has ended tells what it has come to. -/
theorem ofExcept_injective {o o' : Except Fault α} {v v' : World}
    (h : ofExcept o v = ofExcept o' v') : o = o' := by
  cases o with
  | ok a =>
      cases o' with
      | ok b =>
          obtain ⟨rfl, -⟩ := pure_eq_ok.mp h
          rfl
      | error f => cases h
  | error f =>
      cases o' with
      | ok b => cases h
      | error f' =>
          change EStateM.Result.error (Halt.fault f) v = .error (.fault f') v' at h
          injection h with hhalt
          injection hhalt with hfault
          rw [hfault]

/-- Whatever has been recorded in a world, a run in it comes to the given outcome for all large
budgets, and it changes nothing but what is recorded. -/
def Yields (w : World) (y : Nat → Run α) (o : Except Fault α) : Prop :=
  ∀ events, ∃ events', ∀ᶠ n in atTop, y n (w.noted events) = ofExcept o (w.noted events')

namespace Yields

variable {w : World} {y y' : Nat → Run α} {o o' : Except Fault α}

theorem pure (a : α) : Yields w (fun _ => Pure.pure a) (.ok a) :=
  fun events => ⟨events, .of_forall fun _ => rfl⟩

theorem fault (f : Fault) : Yields w (fun _ => Run.fault f : Nat → Run α) (.error f) :=
  fun events => ⟨events, .of_forall fun _ => rfl⟩

/-- What follows an answer goes on with it. -/
theorem bind_ok {x : Nat → Run β} {f : Nat → β → Run α} {b : β} (hx : Yields w x (.ok b))
    (hf : Yields w (fun n => f n b) o) : Yields w (fun n => x n >>= f n) o := by
  intro events
  obtain ⟨events', hx⟩ := hx events
  obtain ⟨events'', hf⟩ := hf events'
  refine ⟨events'', ?_⟩
  filter_upwards [hx, hf] with n hxn hfn
  rw [bind_of_ok hxn, hfn]

/-- After a fault nothing follows. -/
theorem bind_error {x : Nat → Run β} {f : Nat → β → Run α} {fault : Fault}
    (hx : Yields w x (.error fault)) : Yields w (fun n => x n >>= f n) (.error fault) := by
  intro events
  obtain ⟨events', hx⟩ := hx events
  refine ⟨events', ?_⟩
  filter_upwards [hx] with n hxn
  exact bind_of_error hxn

/-- Only large budgets count. -/
theorem congr (h : Yields w y o) (heq : ∀ᶠ n in atTop, y' n = y n) : Yields w y' o := by
  intro events
  obtain ⟨events', h⟩ := h events
  refine ⟨events', ?_⟩
  filter_upwards [h, heq] with n hn hyn
  rw [hyn, hn]

/-- One more step of budget makes no difference for large budgets. -/
theorem succ_iff : Yields w (fun n => y (n + 1)) o ↔ Yields w y o := by
  unfold Yields
  refine forall_congr' fun events => exists_congr fun events' => ?_
  conv_rhs => rw [← map_add_atTop_eq_nat 1]
  rfl

/-- A run comes to one outcome only. -/
theorem unique (h : Yields w y o) (h' : Yields w y o') : o = o' := by
  obtain ⟨events, h⟩ := h []
  obtain ⟨events', h'⟩ := h' []
  obtain ⟨n, hn, hn'⟩ := (h.and h').exists
  exact ofExcept_injective (hn.symm.trans hn')

end Yields

end Run

theorem Description.Direct.mono {known known' : String → Prop}
    (hknown : ∀ name, known name → known' name) {d : Description} (hd : d.Direct known) :
    d.Direct known' := by
  induction d with
  | atom a => trivial
  | wrap m p ih => exact ih hd
  | join j p q ihp ihq => exact ⟨ihp hd.1, ihq hd.2⟩
  | between opening closing p iho ihc ihp => exact ⟨iho hd.1, ihc hd.2.1, ihp hd.2.2⟩
  | seq n ps ih => exact fun k => ih k (hd k)
  | alt n ps ih => exact fun k => ih k (hd k)
  | seqMap n ps f ih => exact fun k => ih k (hd k)
  | bind p name q ihp ihq => exact ⟨ihp hd.1, ihq hd.2⟩
  | choose first second p q ihp ihq => exact ⟨ihp hd.1, ihq hd.2⟩
  | known name => exact hknown name hd
  | deferred rule description => exact hd

theorem Parser.Leaf.mono {known known' : String → Prop}
    (hknown : ∀ name, known name → known' name) {p p' : Parser} (h : Leaf known p p') :
    Leaf known' p p' := by
  cases h with
  | primitive h => exact .primitive h
  | built h bindings => exact .built (h.mono hknown) bindings

/-- Runs in worlds that differ from a given one in what has been recorded. -/
def Comparison.recording (w : World) : Comparison where
  related v v' := ∃ events events', v = w.noted events ∧ v' = w.noted events'
  later _ _ := True
  faults := Eq
  later_refl _ := trivial
  later_trans _ _ := trivial

namespace Comparison

variable {w v v' : World} {known : String → Prop} {s : Text}

theorem accompanies_recording (w : World) : (recording w).Accompanies where
  noted events h := by
    obtain ⟨first, second, rfl, rfl⟩ := h
    refine ⟨⟨first ++ events, second ++ events, ?_, ?_⟩, trivial, trivial⟩
    · simp [World.noted]
    · simp [World.noted]
  same_fault _ := rfl
  threshold_eq h := by
    obtain ⟨first, second, rfl, rfl⟩ := h
    rfl

variable (hknown : ∀ name, known name → ∀ p, World.lookup? name w.names = some p →
  p.Direct known)

include hknown

/-- A direct description is built alike, whatever has been recorded. -/
theorem buildsAlike_recording {d : Description} (hd : d.Direct known) (bindings : Bindings) :
    (recording w).BuildsAlike (fun _ _ => Parser.Leaf known) bindings d d := by
  have hc : (recording w).Constructs fun _ _ => Parser.Leaf known :=
    ⟨fun _ _ h => h, .primitive, fun _ => rfl⟩
  induction d with
  | atom a => exact hc.atom bindings a
  | wrap m p ih => exact hc.wrap m (ih hd)
  | join j p q ihp ihq => exact hc.join j (ihp hd.1) (ihq hd.2)
  | between opening closing p iho ihc ihp =>
      exact hc.between (iho hd.1) (ihc hd.2.1) (ihp hd.2.2)
  | seq n ps ih => exact hc.seq fun k => ih k (hd k)
  | alt n ps ih => exact hc.alt fun k => ih k (hd k)
  | seqMap n ps f ih => exact hc.seqMap f fun k => ih k (hd k)
  | bind p name q ihp ihq =>
      exact Constructs.bind name (ihp hd.1) fun _ _ _ => .base (.built hd.2 _)
  | choose first second p q ihp ihq => exact hc.choose first second (ihp hd.1) (ihq hd.2)
  | known name =>
      refine hc.known name ?_
      rintro _ _ ⟨first, second, rfl, rfl⟩
      change Option.Rel _ (World.lookup? name w.names) (World.lookup? name w.names)
      cases hname : World.lookup? name w.names with
      | none => exact .none
      | some p => exact .some (hknown name hd p hname)
  | deferred rule description => exact hd.elim

/-- Direct parsers do alike, whatever has been recorded. -/
theorem acts_recording (budget : Nat) {p p' : Parser} (h : p.Alike (Parser.Leaf known) p') :
    (recording w).Acts (.same s) (p.run budget) (fun n => p'.run n) v v' := by
  have hc := accompanies_recording w
  induction budget generalizing p p' v v' with
  | zero => exact fun _ _ _ _ _ _ => .unfinished
  | succ budget ih =>
      intro u u' i i' hreach hi
      refine .of_succ (acts_action hc (fun q q' hleaf => ?_) h u u' i i' hreach hi)
      cases hleaf with
      | primitive hprim => exact acts_primitive hc (.same s) hprim _ _ _
      | built hd bindings =>
          intro t t' j j' hreach' hj
          apply (buildsAlike_recording hknown hd bindings t t' hreach'.related).bind
          intro x x' q q' hbuilt hq
          exact ih hq x x' j j' (.refl hbuilt.related) hj

end Comparison

namespace Parser

/-- A parser comes to an outcome at an offset of an input, whatever has been recorded in the
world, and leaves nothing behind but records. -/
def ComesTo (w : World) (s : Text) (p : Parser) (i : Int) (o : Except Fault Reply) : Prop :=
  Run.Yields w (fun n => p.run n s i) o

variable {w : World} {s : Text} {p : Parser} {i : Int}

theorem ComesTo.endsIn {o : Except Fault Reply} (h : p.ComesTo w s i o) :
    Run.EndsIn (fun n => p.run n s i) w o := by
  obtain ⟨events, h⟩ := h []
  exact ⟨_, h⟩

/-- A description that some outcome meets, and that fits what a parser comes to, is met by nothing
else. -/
theorem comesTo_iff_of_exists {described : Except Fault Reply → Prop} (hsome : ∃ o, described o)
    (hfits : ∀ o, described o → p.ComesTo w s i o) (o : Except Fault Reply) :
    p.ComesTo w s i o ↔ described o := by
  constructor
  · intro h
    obtain ⟨o', ho'⟩ := hsome
    rwa [h.unique (hfits o' ho')]
  · exact hfits o

/-- A parser that comes to a reply at once, without recording anything. -/
theorem comesTo_of_run {r : Reply} (h : ∀ n v, p.run (n + 1) s i v = .ok r v) :
    p.ComesTo w s i (.ok r) :=
  Run.Yields.succ_iff.mp fun events => ⟨events, .of_forall fun n => h n _⟩

/-- A parser without handles comes to an outcome at every offset of every input. -/
theorem Direct.exists_comesTo {rank : Nat} (hp : p.Direct (w.Direct rank)) (h0 : 0 ≤ i)
    (hlen : i ≤ s.length) : ∃ o, p.ComesTo w s i o := by
  -- A name is harmless if it is so at some rank; what it stands for then has harmless names.
  let known : String → Prop := fun name => ∃ rank, w.Direct rank name
  have hmono {q : Parser} {rank : Nat} (hq : q.Direct (w.Direct rank)) : q.Direct known :=
    Alike.mono hq fun _ _ hleaf => hleaf.mono fun _ hname => ⟨rank, hname⟩
  have hknown (name : String) (hname : known name) (q : Parser)
      (hq : World.lookup? name w.names = some q) : q.Direct known := by
    obtain ⟨rank, hname⟩ := hname
    cases rank with
    | zero => exact hname.elim
    | succ rank => exact hmono (hname q hq)
  have hends : p.Ends w.names := Direct.ends (fun _ hname _ hq => hname.ends hq) hp
  obtain ⟨o, v, hrun⟩ := (Run.Settles.of_succ (y := fun n => p.run n s i)
    (hends s i w ⟨h0, hlen, rfl⟩)).exists_endsIn
  refine ⟨o, fun events => ?_⟩
  obtain ⟨n, hn⟩ : ∃ n, p.run n s i w = Run.ofExcept o v := hrun.exists
  have hfollows := Comparison.acts_recording (s := s) hknown n (hmono hp) w (w.noted events) i i
    (.refl ⟨[], events, rfl, rfl⟩) rfl
  cases o with
  | ok r =>
      obtain ⟨_, _, hend, ⟨⟨-, events', -, rfl⟩, -, -⟩, rfl⟩ := hfollows.exists_of_ok hn
      exact ⟨events', hend⟩
  | error f =>
      obtain ⟨_, _, hend, ⟨⟨-, events', -, rfl⟩, -, -⟩, rfl⟩ := hfollows.exists_of_fault hn
      exact ⟨events', hend⟩

end Parser

end Descent
