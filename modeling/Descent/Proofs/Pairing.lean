/-
# Pairs of parsers in loops

Two parsers without handles in a row come to what the second makes of the end of the first. A
loop over such pairs goes on where the second parser has stopped. It ends in front of a pair that
is not complete, also if the first half of this pair has been read; so nothing of such a pair is
swallowed. It gives up at a pair that consumes nothing as a whole.
-/

import Descent.Parser.Combinators
import Descent.Proofs.Equivalence
import Descent.Proofs.Repeating

namespace Descent

open Filter

namespace Reply

/-- What a joined reply expects at an offset that is not passed. -/
theorem Joins.expected_at_iff {r : Reply} {rs : List Reply} (h : r.Joins rs) {j : Int}
    (hle : r.furthest ≤ j) (d : String) :
    (r.furthest = j ∧ d ∈ r.expected) ↔ ∃ t ∈ rs, t.furthest = j ∧ d ∈ t.expected := by
  rw [h.mem_expected_iff]
  constructor
  · rintro ⟨rfl, h⟩
    exact h
  · rintro ⟨t, ht, rfl, hd⟩
    have hge := le_furthestOf ht
    rw [← h.furthest_eq] at hge
    exact ⟨Int.le_antisymm hle hge, t, ht, Int.le_antisymm hge hle, hd⟩

/-- Replies that have been joined on the way may be replaced by what they have joined. -/
theorem Joins.flatten {t : Reply} {rs : List Reply} {parts : List (List Reply)} (h : t.Joins rs)
    (hparts : List.Forall₂ Joins rs parts) : t.Joins parts.flatten where
  furthest_eq := by
    rw [h.furthest_eq]
    clear h
    induction hparts with
    | nil => rfl
    | cons hr _ ih => rw [List.flatten_cons, furthestOf_append, furthestOf, hr.furthest_eq, ih]
  mem_expected_iff d := by
    have hle (r : Reply) (hr : r ∈ rs) : r.furthest ≤ t.furthest :=
      h.furthest_eq ▸ le_furthestOf hr
    -- No reply lies beyond the furthest offset, so each counts there if and only if one of its
    -- parts does.
    rw [h.mem_expected_iff]
    clear h
    induction hparts with
    | nil => simp
    | cons hr _ ih =>
        simp only [List.mem_cons, List.flatten_cons, List.mem_append, or_and_right, exists_or,
          exists_eq_left]
        exact or_congr (hr.expected_at_iff (hle _ List.mem_cons_self) d)
          (ih fun q hq => hle q (List.mem_cons_of_mem _ hq))

/-- The reply of two parsers in a row from the replies of both, with what is picked of the
values. -/
def following (pick : Value → Value → Value) (first second : Reply) : Reply :=
  (second.mapValue (pick first.value)).mergeWith first

section Following

variable {pick : Value → Value → Value} {t u : Reply}

@[simp] theorem following_status : (following pick t u).status = u.status := by
  simp [following]

@[simp] theorem following_index : (following pick t u).index = u.index := by
  simp [following]

theorem following_value (hok : u.status = true) :
    (following pick t u).value = pick t.value u.value := by
  simp [following, mapValue_value hok]

theorem Joins.mapValue {rs : List Reply} (h : u.Joins rs) (f : Value → Value) :
    (u.mapValue f).Joins rs := by
  unfold Reply.mapValue
  split
  · exact h.ok_mergeWith _ _
  · exact h

theorem Joins.following {rs us : List Reply} (h : t.Joins rs) (h' : u.Joins us) :
    (following pick t u).Joins (rs ++ us) :=
  h.mergeWith (h'.mapValue _)

end Following

end Reply

namespace Parser

variable {w : World} {s : Text} {p q c : Parser} {pick : Value → Value → Value} {i j : Int}
  {t u : Reply} {o : Except Fault Reply} {f : Fault}

/-- A parser that starts with another one goes on with its reply. -/
theorem ComesTo.bind {k : Nat → Reply → Run Reply} (h : p.ComesTo w s i (.ok t))
    (hc : ∀ n, c.run (n + 1) s i = p.run (n + 1) s i >>= k n)
    (hk : Run.Yields w (fun n => k n t) o) : c.ComesTo w s i o :=
  Run.Yields.succ_iff.mp
    ((Run.Yields.bind_ok (Run.Yields.succ_iff.mpr h) hk).congr (.of_forall hc))

/-- A parser that starts with another one ends in its fault. -/
theorem ComesTo.bind_error {k : Nat → Reply → Run Reply} (h : p.ComesTo w s i (.error f))
    (hc : ∀ n, c.run (n + 1) s i = p.run (n + 1) s i >>= k n) : c.ComesTo w s i (.error f) :=
  Run.Yields.succ_iff.mp
    ((Run.Yields.bind_error (Run.Yields.succ_iff.mpr h)).congr (.of_forall hc))

/-- Where a success leads to is inside the input. -/
theorem ComesTo.inside (h : p.ComesTo w s i (.ok t)) (hok : t.status = true) (h0 : 0 ≤ i)
    (hlen : i ≤ s.length) : i ≤ t.index ∧ 0 ≤ t.index ∧ t.index ≤ s.length := by
  obtain ⟨log, hmeets⟩ := h.exists_meets h0 hlen
  obtain ⟨hle, hstop⟩ := hmeets.success hok
  exact ⟨hle, Int.le_trans h0 hle, hstop⟩

/-- One parser comes to what two parsers in a row come to, with a value picked of both. -/
structure Pairing (w : World) (s : Text) (p q : Parser) (pick : Value → Value → Value)
    (c : Parser) : Prop where
  both : ∀ {i : Int} {t o}, 0 ≤ i → i ≤ s.length → p.ComesTo w s i (.ok t) → t.status = true →
    q.ComesTo w s t.index o → c.ComesTo w s i (o.map (Reply.following pick t))
  refused : ∀ {i : Int} {t}, p.ComesTo w s i (.ok t) → t.status = false → c.ComesTo w s i (.ok t)
  raised : ∀ {i : Int} {f}, p.ComesTo w s i (.error f) → c.ComesTo w s i (.error f)

theorem Pairing.of_run (join : Reply → Reply → Reply)
    (hrun : ∀ n i, c.run (n + 1) s i = p.run (n + 1) s i >>= fun t =>
      if t.status then q.run (n + 1) s t.index >>= fun u => Pure.pure (join t u) else Pure.pure t)
    (hjoin : ∀ t u, -1 ≤ u.furthest → join t u = Reply.following pick t u) :
    Pairing w s p q pick c where
  both {i t o} h0 hlen hp hok hq := by
    refine hp.bind (fun n => hrun n i) ?_
    simp only [hok, if_true]
    obtain ⟨-, hstart, hstop⟩ := hp.inside hok h0 hlen
    cases o with
    | ok u =>
        rw [Except.map, ← hjoin t u (hq.neg_one_le_furthest hstart hstop)]
        exact .bind_ok (Run.Yields.succ_iff.mpr hq) (.pure _)
    | error f => exact .bind_error (Run.Yields.succ_iff.mpr hq)
  refused {i t} hp hfail := by
    refine hp.bind (fun n => hrun n i) ?_
    simp only [hfail, Bool.false_eq_true, if_false]
    exact .pure _
  raised {i f} hp := hp.bind_error fun n => hrun n i

theorem pairing_andThen (w : World) (s : Text) (p q : Parser) :
    Pairing w s p q (fun _ v => v) (p.andThen q) := by
  refine .of_run (fun t u => u.mergeWith t) (fun n i => rfl) fun t u hu => ?_
  rw [Reply.following, Reply.mapValue]
  split
  · next hok => rw [Reply.ok_mergeWith_self u hu hok]
  · rfl

theorem pairing_skip (w : World) (s : Text) (p q : Parser) :
    Pairing w s p q (fun v _ => v) (p.skip q) := by
  refine .of_run (Reply.following fun v _ => v) (fun n i => ?_) fun _ _ _ => rfl
  refine bind_congr fun t => ?_
  by_cases ht : t.status
  · simp only [ht, if_true]
    refine bind_congr fun u => ?_
    by_cases hu : u.status
    · simp [hu, Reply.following, Reply.mapValue, Reply.mergeWith_assoc]
    · simp [hu, Reply.following, Reply.mapValue]
  · simp [ht]

/-- The values of two parsers may be computed with one after the other. -/
theorem pairing_bind_map (w : World) (s : Text) (p q : Parser) (pick : Value → Value → Value) :
    Pairing w s p q pick (p.bind fun a => q.map fun b => .answer (pick a b)) := by
  refine .of_run (Reply.following pick) (fun n i => ?_) fun _ _ _ => rfl
  refine bind_congr fun t => ?_
  by_cases ht : t.status
  · simp only [ht, if_true]
    refine (congrArg (· >>= _) (Action.map_answer_apply _ _ _ _)).trans ?_
    simp only [bind_assoc, LawfulMonad.pure_bind]
    rfl
  · simp [ht]

/-- Two parsers in a row, over and over from offset `i`, with their replies: both succeed, each
where the other has stopped, and a pair consumes something. The next pair is due at an offset. -/
inductive Pairs (w : World) (s : Text) (p q : Parser) (i : Int) :
    List (Reply × Reply) → Int → Prop
  | start : Pairs w s p q i [] i
  | pair {ts : List (Reply × Reply)} {j : Int} {t u : Reply} (before : Pairs w s p q i ts j)
      (first : p.ComesTo w s j (.ok t)) (hfirst : t.status = true)
      (second : q.ComesTo w s t.index (.ok u)) (hsecond : u.status = true)
      (moves : u.index ≠ j) : Pairs w s p q i (ts ++ [(t, u)]) u.index

/-- Why there is no further pair at an offset: one of the two parsers fails there, and then the
replies are known that have been met on the way; the pair consumes nothing; or one of the two
parsers ends in a fault of its own. -/
inductive Breaks (w : World) (s : Text) (p q : Parser) (j : Int) : Except Fault (List Reply) → Prop
  | first {t : Reply} (first : p.ComesTo w s j (.ok t)) (missing : t.status = false) :
      Breaks w s p q j (.ok [t])
  | second {t u : Reply} (first : p.ComesTo w s j (.ok t)) (found : t.status = true)
      (second : q.ComesTo w s t.index (.ok u)) (missing : u.status = false) :
      Breaks w s p q j (.ok [t, u])
  | idle {t u : Reply} (first : p.ComesTo w s j (.ok t)) (hfirst : t.status = true)
      (second : q.ComesTo w s t.index (.ok u)) (hsecond : u.status = true) (stays : u.index = j) :
      Breaks w s p q j (.error (.idleRepetition j))
  | firstRaised {f : Fault} (first : p.ComesTo w s j (.error f)) : Breaks w s p q j (.error f)
  | secondRaised {t : Reply} {f : Fault} (first : p.ComesTo w s j (.ok t))
      (found : t.status = true) (second : q.ComesTo w s t.index (.error f)) :
      Breaks w s p q j (.error f)

/-- The replies of pairs, one after another. -/
def repliesOf (ts : List (Reply × Reply)) : List Reply :=
  (ts.map fun x => [x.1, x.2]).flatten

theorem repliesOf_append (ts : List (Reply × Reply)) (t u : Reply) :
    repliesOf (ts ++ [(t, u)]) = repliesOf ts ++ [t] ++ [u] := by
  simp [repliesOf]

/-- The values that are picked of pairs. -/
def valuesOf (pick : Value → Value → Value) (ts : List (Reply × Reply)) : Value :=
  .list (ts.map fun x => pick x.1.value x.2.value)

/-- What a loop over pairs comes to. -/
inductive PairsUp (w : World) (s : Text) (p q : Parser) (pick : Value → Value → Value) (i : Int) :
    Except Fault Reply → Prop
  | stopped {ts : List (Reply × Reply)} {j : Int} {last : List Reply} {r : Reply}
      (pairs : Pairs w s p q i ts j) (stop : Breaks w s p q j (.ok last))
      (hr : r.Reports true j (valuesOf pick ts) (repliesOf ts ++ last)) :
      PairsUp w s p q pick i (.ok r)
  | broken {ts : List (Reply × Reply)} {j : Int} {f : Fault} (pairs : Pairs w s p q i ts j)
      (stop : Breaks w s p q j (.error f)) : PairsUp w s p q pick i (.error f)

variable {ts : List (Reply × Reply)} {last : List Reply}

namespace Pairs

theorem inside (h : Pairs w s p q i ts j) (h0 : 0 ≤ i) (hlen : i ≤ s.length) :
    0 ≤ j ∧ j ≤ s.length := by
  induction h with
  | start => exact ⟨h0, hlen⟩
  | pair before first hfirst second hsecond moves ih =>
      obtain ⟨-, hstart, hstop⟩ := first.inside hfirst ih.1 ih.2
      exact (second.inside hsecond hstart hstop).2

/-- The second halves of the pairs have succeeded. -/
theorem status_eq (h : Pairs w s p q i ts j) : ∀ x ∈ ts, x.2.status = true := by
  induction h with
  | start => simp
  | pair before first hfirst second hsecond moves ih =>
      intro x hx
      rcases List.mem_append.mp hx with hx | hx
      · exact ih x hx
      · cases List.mem_singleton.mp hx
        exact hsecond

/-- The next pair is due at the start, or where a second half has stopped. -/
theorem due (h : Pairs w s p q i ts j) :
    j = i ∨ ∃ k u, q.ComesTo w s k (.ok u) ∧ u.status = true ∧ j = u.index := by
  cases h with
  | start => exact .inl rfl
  | pair before first hfirst second hsecond moves => exact .inr ⟨_, _, second, hsecond, rfl⟩

/-- The replies of pairs join what both halves have met. -/
theorem joins (h : Pairs w s p q i ts j) (h0 : 0 ≤ i) (hlen : i ≤ s.length) :
    List.Forall₂ Reply.Joins (ts.map fun x => Reply.following pick x.1 x.2)
      (ts.map fun x => [x.1, x.2]) := by
  induction h with
  | start => exact .nil
  | @pair ts j t u before first hfirst second hsecond moves ih =>
      obtain ⟨hj, hjlen⟩ := before.inside h0 hlen
      obtain ⟨-, hstart, hstop⟩ := first.inside hfirst hj hjlen
      have hboth : (Reply.following pick t u).Joins ([t] ++ [u]) :=
        (Reply.joins_singleton (first.neg_one_le_furthest hj hjlen)).following
          (Reply.joins_singleton (second.neg_one_le_furthest hstart hstop))
      simp only [List.map_append]
      exact List.rel_append ih (.cons hboth .nil)

/-- Pairs are turns of a loop. -/
theorem turns (hc : Pairing w s p q pick c) (h : Pairs w s p q i ts j) (h0 : 0 ≤ i)
    (hlen : i ≤ s.length) :
    Turns w s c .any i (ts.map fun x => Reply.following pick x.1 x.2) j := by
  induction h with
  | start => exact .start
  | @pair ts j t u before first hfirst second hsecond moves ih =>
      obtain ⟨hj, hjlen⟩ := before.inside h0 hlen
      have hturn := ih.turn (hc.both hj hjlen first hfirst second) (by simpa using hsecond)
        fun _ _ => by simpa using moves
      simpa using hturn

theorem map_value (h : Pairs w s p q i ts j) :
    Value.list ((ts.map fun x => Reply.following pick x.1 x.2).map (·.value)) =
      valuesOf pick ts := by
  rw [valuesOf, List.map_map]
  exact congrArg _ (List.map_congr_left fun x hx => Reply.following_value (h.status_eq x hx))

end Pairs

/-- A pair that is not complete fails, and reports what has been met. -/
theorem Breaks.exists_failure (hc : Pairing w s p q pick c) (h : Breaks w s p q j (.ok last))
    (h0 : 0 ≤ j) (hlen : j ≤ s.length) :
    ∃ t, c.ComesTo w s j (.ok t) ∧ t.status = false ∧ t.Joins last := by
  cases h with
  | @first t first missing =>
      exact ⟨t, hc.refused first missing, missing,
        Reply.joins_singleton (first.neg_one_le_furthest h0 hlen)⟩
  | @second t u first found second missing =>
      obtain ⟨-, hstart, hstop⟩ := first.inside found h0 hlen
      refine ⟨_, hc.both h0 hlen first found second, by simpa using missing, ?_⟩
      exact (Reply.joins_singleton (first.neg_one_le_furthest h0 hlen)).following
        (Reply.joins_singleton (second.neg_one_le_furthest hstart hstop))

section Loops

variable (hc : Pairing w s p q pick c) (h0 : 0 ≤ i) (hlen : i ≤ s.length)

include hc h0 hlen

/-- A loop that comes to a pair that is not complete is over. -/
theorem Pairs.exists_comesTo (pairs : Pairs w s p q i ts j)
    (stop : Breaks w s p q j (.ok last)) :
    ∃ r, c.many.ComesTo w s i (.ok r) ∧
      r.Reports true j (valuesOf pick ts) (repliesOf ts ++ last) := by
  obtain ⟨hj, hjlen⟩ := pairs.inside h0 hlen
  obtain ⟨t, made, hfail, hjoins⟩ := stop.exists_failure hc hj hjlen
  have turns := pairs.turns hc h0 hlen
  have hreports := turns.reports_stopped h0 hlen made
  have hflat : (repliesOf ts ++ last) =
      ((ts.map fun x => [x.1, x.2]) ++ [last]).flatten := by simp [repliesOf]
  refine ⟨_, Repeats.comesTo (.stopped turns (Nat.zero_le _) (by simp [Repetition.any]) made
    hfail hreports) (by simp [Repetition.any]) h0 hlen, ?_⟩
  exact {
    toJoins := hflat ▸ hreports.toJoins.flatten
      (List.rel_append (pairs.joins h0 hlen) (.cons hjoins .nil))
    status_eq := hreports.status_eq
    index_eq := hreports.index_eq
    value_eq := hreports.value_eq.trans pairs.map_value }

/-- A loop gives up at a pair that gives up or consumes nothing. -/
theorem Pairs.comesTo_error (pairs : Pairs w s p q i ts j) (stop : Breaks w s p q j (.error f)) :
    c.many.ComesTo w s i (.error f) := by
  obtain ⟨hj, hjlen⟩ := pairs.inside h0 hlen
  have turns := pairs.turns hc h0 hlen
  have room (most : Nat) (h : Repetition.any.most = some most) :
      (ts.map fun x => Reply.following pick x.1 x.2).length < most := by cases h
  refine Repeats.comesTo ?_ (by simp [Repetition.any]) h0 hlen
  cases stop with
  | idle first hfirst second hsecond stays =>
      exact .idle turns (Nat.zero_le _) rfl (hc.both hj hjlen first hfirst second)
        (by simpa using hsecond) (by simpa using stays)
  | firstRaised first => exact .raised turns room (hc.raised first)
  | secondRaised first found second =>
      exact .raised turns room (hc.both hj hjlen first found second)

/-- A loop does come to what its pairs lead to. -/
theorem PairsUp.comesTo (h : PairsUp w s p q pick i o) : c.many.ComesTo w s i o := by
  cases h with
  | stopped pairs stop hr =>
      obtain ⟨r, hrun, hr'⟩ := pairs.exists_comesTo hc h0 hlen stop
      rwa [hr.eq hr']
  | broken pairs stop => exact pairs.comesTo_error hc h0 hlen stop

end Loops

section Existence

variable {rank : Nat} (hp : p.Direct (w.Direct rank)) (hq : q.Direct (w.Direct rank)) (h0 : 0 ≤ i)
  (hlen : i ≤ s.length)

include hp hq h0 hlen

/-- There is a further pair, or a reason why there is none. -/
theorem Pairs.next (pairs : Pairs w s p q i ts j) :
    (∃ e, Breaks w s p q j e) ∨
      ∃ x : Reply × Reply, Pairs w s p q i (ts ++ [x]) x.2.index ∧ j < x.2.index := by
  obtain ⟨hj, hjlen⟩ := pairs.inside h0 hlen
  obtain ⟨f | t, first⟩ := Direct.exists_comesTo hp hj hjlen
  · exact .inl ⟨_, .firstRaised first⟩
  · cases hfirst : t.status with
    | false => exact .inl ⟨_, .first first hfirst⟩
    | true =>
        obtain ⟨hle, hstart, hstop⟩ := first.inside hfirst hj hjlen
        obtain ⟨f | u, second⟩ := Direct.exists_comesTo hq hstart hstop
        · exact .inl ⟨_, .secondRaised first hfirst second⟩
        · cases hsecond : u.status with
          | false => exact .inl ⟨_, .second first hfirst second hsecond⟩
          | true =>
              by_cases hidle : u.index = j
              · exact .inl ⟨_, .idle first hfirst second hsecond hidle⟩
              · have hle' := (second.inside hsecond hstart hstop).1
                refine .inr ⟨(t, u), .pair pairs first hfirst second hsecond hidle, ?_⟩
                exact lt_of_le_of_ne (Int.le_trans hle hle') (Ne.symm hidle)

/-- The input runs out of pairs. -/
theorem Pairs.exists_breaks (pairs : Pairs w s p q i ts j) :
    ∃ ts j e, Pairs w s p q i ts j ∧ Breaks w s p q j e := by
  -- The induction is on what is left of the input.
  induction hleft : (s.length - j).toNat using Nat.strong_induction_on generalizing j ts with
  | _ left ih =>
      rcases pairs.next hp hq h0 hlen with ⟨e, stop⟩ | ⟨x, pairs', hlt⟩
      · exact ⟨ts, j, e, pairs, stop⟩
      · obtain ⟨-, hstop⟩ := pairs'.inside h0 hlen
        have hshorter : (s.length - x.2.index).toNat < left := by omega
        exact ih _ hshorter pairs' rfl

theorem exists_pairsUp (hc : Pairing w s p q pick c) : ∃ o, PairsUp w s p q pick i o := by
  obtain ⟨ts, j, f | last, pairs, stop⟩ := Pairs.start.exists_breaks hp hq h0 hlen
  · exact ⟨_, .broken pairs stop⟩
  · obtain ⟨r, -, hr⟩ := pairs.exists_comesTo hc h0 hlen stop
    exact ⟨_, .stopped pairs stop hr⟩

/-- A loop over pairs comes to what the pairs lead to, and to nothing else. -/
theorem Pairing.many_comesTo_iff (hc : Pairing w s p q pick c) :
    c.many.ComesTo w s i o ↔ PairsUp w s p q pick i o :=
  comesTo_iff_of_exists (exists_pairsUp hp hq h0 hlen hc) (fun _ h => h.comesTo hc h0 hlen) o

end Existence

end Parser

end Descent
