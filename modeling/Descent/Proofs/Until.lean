/-
# Turns until something is found

A loop of its own makes turns of one parser until another one succeeds. The same can be put
together from a negative look-ahead, a loop and a second try of the other parser. The two start
the other parser a different number of times and report different failures, but they go the same
way along the input: they find it at the same offset or miss it at the same offset, with the same
values on the way, and they give up at the same turn.
-/

import Descent.Proofs.Pairing

namespace Descent

open Filter

namespace Action

/-- What a loop has to do after turns with the given replies, those of both parsers at each, the
next turn being made at an offset. -/
def turnsTillFrom (turns : Nat) (p stop : Action) (s : Text) (ts : List (Reply × Reply)) (j : Int) :
    Run Reply :=
  turnsTill p stop s (turns - ts.length) j (Reply.contextOf (Parser.repliesOf ts))
    (ts.map (·.2.value)).reverse

/-- What a loop does with the replies of both parsers, where the one that ends it has failed. -/
def afterTill (turns : Nat) (p stop : Action) (s : Text) (ts : List (Reply × Reply)) (j : Int)
    (missed reply : Reply) : Run Reply :=
  if reply.status then
    if reply.index = j then Run.fault (.idleTurn j)
    else turnsTillFrom turns p stop s (ts ++ [(missed, reply)]) reply.index
  else return reply.merge (Reply.contextOf (Parser.repliesOf ts ++ [missed]))

theorem turnsTillFrom_of_lt {turns : Nat} {p stop : Action} {s : Text}
    {ts : List (Reply × Reply)} {j : Int} (hturns : ts.length < turns) :
    turnsTillFrom turns p stop s ts j = stop s j >>= fun ended =>
      if ended.status then
        pure (listReply ended.index (Reply.contextOf (Parser.repliesOf ts ++ [ended]))
          (ts.map (·.2.value)).reverse)
      else p s j >>= afterTill turns p stop s ts j ended := by
  obtain ⟨budget, hbudget⟩ : ∃ budget, turns - ts.length = budget + 1 :=
    ⟨turns - ts.length - 1, by omega⟩
  have hnext (x : Reply × Reply) : turns - (ts ++ [x]).length = budget := by
    simp only [List.length_append, List.length_singleton]
    omega
  simp only [turnsTillFrom, hbudget, turnsTill, Reply.merge_status, Reply.merge_index]
  refine bind_congr fun ended => ?_
  by_cases hended : ended.status
  · simp only [hended, if_true, listReply, Reply.contextOf_append, Reply.merge_some]
  · simp only [hended, Bool.false_eq_true, if_false]
    refine bind_congr fun reply => ?_
    by_cases hreply : reply.status
    · simp only [afterTill, hreply, turnsTillFrom, hnext, Parser.repliesOf_append,
        Reply.contextOf_append, Reply.merge_some, Reply.mergeWith_status, Reply.mergeWith_index,
        Reply.mergeWith_value, Bool.not_true, Bool.false_eq_true, if_false, if_true,
        List.map_append, List.map_cons, List.map_nil, List.reverse_append, List.reverse_cons,
        List.reverse_nil, List.nil_append, List.singleton_append]
      rfl
    · simp [afterTill, hreply, Reply.contextOf_append, Reply.merge_some]

end Action

namespace Parser

/-- Turns of a parser from offset `i` on, with the replies of the parser that ends them and of
their own: at each, the one that ends them fails, and the turn consumes something. The next turn
is due at an offset. -/
inductive Awaits (w : World) (s : Text) (p stop : Parser) (i : Int) :
    List (Reply × Reply) → Int → Prop
  | start : Awaits w s p stop i [] i
  | turn {ts : List (Reply × Reply)} {j : Int} {e t : Reply} (before : Awaits w s p stop i ts j)
      (sought : stop.ComesTo w s j (.ok e)) (missed : e.status = false)
      (made : p.ComesTo w s j (.ok t)) (hok : t.status = true) (moves : t.index ≠ j) :
      Awaits w s p stop i (ts ++ [(e, t)]) t.index

/-- What turns until another parser succeeds come to. -/
inductive Finds (w : World) (s : Text) (p stop : Parser) (i : Int) : Except Fault Reply → Prop
  /-- The other parser succeeds. -/
  | found {ts : List (Reply × Reply)} {j : Int} {e r : Reply} (turns : Awaits w s p stop i ts j)
      (sought : stop.ComesTo w s j (.ok e)) (hfound : e.status = true)
      (hr : r.Reports true e.index (.list (ts.map (·.2.value))) (repliesOf ts ++ [e])) :
      Finds w s p stop i (.ok r)
  /-- Both parsers fail. -/
  | missing {ts : List (Reply × Reply)} {j : Int} {e t r : Reply}
      (turns : Awaits w s p stop i ts j) (sought : stop.ComesTo w s j (.ok e))
      (missed : e.status = false) (made : p.ComesTo w s j (.ok t)) (hfail : t.status = false)
      (hr : r.Reports false (-1) .null (repliesOf ts ++ [e] ++ [t])) : Finds w s p stop i (.ok r)
  /-- A turn consumes nothing. -/
  | idle {ts : List (Reply × Reply)} {j : Int} {e t : Reply} (turns : Awaits w s p stop i ts j)
      (sought : stop.ComesTo w s j (.ok e)) (missed : e.status = false)
      (made : p.ComesTo w s j (.ok t)) (hok : t.status = true) (stays : t.index = j) :
      Finds w s p stop i (.error (.idleTurn j))
  /-- The other parser ends in a fault. -/
  | soughtRaised {ts : List (Reply × Reply)} {j : Int} {f : Fault}
      (turns : Awaits w s p stop i ts j) (sought : stop.ComesTo w s j (.error f)) :
      Finds w s p stop i (.error f)
  /-- A turn ends in a fault. -/
  | raised {ts : List (Reply × Reply)} {j : Int} {e : Reply} {f : Fault}
      (turns : Awaits w s p stop i ts j) (sought : stop.ComesTo w s j (.ok e))
      (missed : e.status = false) (made : p.ComesTo w s j (.error f)) :
      Finds w s p stop i (.error f)

variable {w : World} {s : Text} {p stop : Parser} {i j : Int} {ts : List (Reply × Reply)}
  {e t : Reply} {o : Except Fault Reply} {f : Fault}

section Turns

/-- What a loop is left with after turns, for all large budgets. -/
def leftTill (p stop : Parser) (s : Text) (ts : List (Reply × Reply)) (j : Int) (n : Nat) :
    Run Reply :=
  Action.turnsTillFrom n (p.run (n + 1)) (stop.run (n + 1)) s ts j

theorem leftTill_of_found (sought : stop.ComesTo w s j (.ok e)) (hfound : e.status = true) :
    Run.Yields w (leftTill p stop s ts j)
      (.ok (Action.listReply e.index (Reply.contextOf (repliesOf ts ++ [e]))
        (ts.map (·.2.value)).reverse)) := by
  refine (Run.Yields.bind_ok (Run.Yields.succ_iff.mpr sought) ?_).congr
    ((eventually_gt_atTop ts.length).mono fun _ hn => Action.turnsTillFrom_of_lt hn)
  simp only [hfound, if_true]
  exact .pure _

theorem leftTill_of_raised (sought : stop.ComesTo w s j (.error f)) :
    Run.Yields w (leftTill p stop s ts j) (.error f) :=
  (Run.Yields.bind_error (Run.Yields.succ_iff.mpr sought)).congr
    ((eventually_gt_atTop ts.length).mono fun _ hn => Action.turnsTillFrom_of_lt hn)

/-- Where the parser that ends a loop fails, the loop goes on with a turn. -/
theorem leftTill_of_missed (sought : stop.ComesTo w s j (.ok e)) (missed : e.status = false)
    (h : Run.Yields w (fun n => p.run (n + 1) s j >>=
      Action.afterTill n (p.run (n + 1)) (stop.run (n + 1)) s ts j e) o) :
    Run.Yields w (leftTill p stop s ts j) o := by
  refine (Run.Yields.bind_ok (Run.Yields.succ_iff.mpr sought) ?_).congr
    ((eventually_gt_atTop ts.length).mono fun _ hn => Action.turnsTillFrom_of_lt hn)
  simpa only [missed, Bool.false_eq_true, if_false] using h

namespace Awaits

theorem inside (h : Awaits w s p stop i ts j) (h0 : 0 ≤ i) (hlen : i ≤ s.length) :
    0 ≤ j ∧ j ≤ s.length := by
  induction h with
  | start => exact ⟨h0, hlen⟩
  | turn before sought missed made hok moves ih => exact (made.inside hok ih.1 ih.2).2

theorem neg_one_le_furthest (h : Awaits w s p stop i ts j) (h0 : 0 ≤ i) (hlen : i ≤ s.length) :
    ∀ r ∈ repliesOf ts, -1 ≤ r.furthest := by
  induction h with
  | start => simp [repliesOf]
  | turn before sought missed made hok moves ih =>
      obtain ⟨hj, hjlen⟩ := before.inside h0 hlen
      intro r hr
      simp only [repliesOf_append, List.mem_append, List.mem_singleton] at hr
      obtain (hr | rfl) | rfl := hr
      · exact ih r hr
      · exact sought.neg_one_le_furthest hj hjlen
      · exact made.neg_one_le_furthest hj hjlen

/-- A loop comes to what it is left with after turns. -/
theorem comesTo (h : Awaits w s p stop i ts j) (hend : Run.Yields w (leftTill p stop s ts j) o) :
    (p.manyTill stop).ComesTo w s i o := by
  induction h with
  | start => exact Run.Yields.succ_iff.mp hend
  | turn before sought missed made hok moves ih =>
      refine ih (leftTill_of_missed sought missed (.bind_ok (Run.Yields.succ_iff.mpr made) ?_))
      simp only [Action.afterTill, hok, if_true, if_neg moves]
      exact hend

theorem neg_one_le_of_sought (h : Awaits w s p stop i ts j) (h0 : 0 ≤ i) (hlen : i ≤ s.length)
    (sought : stop.ComesTo w s j (.ok e)) : ∀ r ∈ repliesOf ts ++ [e], -1 ≤ r.furthest := by
  obtain ⟨hj, hjlen⟩ := h.inside h0 hlen
  intro r hr
  obtain hr | hr := List.mem_append.mp hr
  · exact h.neg_one_le_furthest h0 hlen r hr
  · rw [List.mem_singleton.mp hr]
    exact sought.neg_one_le_furthest hj hjlen

end Awaits

end Turns

/-- A loop does come to what its turns lead to. -/
theorem Finds.comesTo (h : Finds w s p stop i o) (h0 : 0 ≤ i) (hlen : i ≤ s.length) :
    (p.manyTill stop).ComesTo w s i o := by
  cases h with
  | found turns sought hfound hr =>
      rw [hr.eq (reports_listReply (turns.neg_one_le_of_sought h0 hlen sought) _)]
      exact turns.comesTo (leftTill_of_found sought hfound)
  | missing turns sought missed made hfail hr =>
      obtain ⟨hj, hjlen⟩ := turns.inside h0 hlen
      rw [hr.eq (made.reports_merge hfail hj hjlen (turns.neg_one_le_of_sought h0 hlen sought))]
      refine turns.comesTo (leftTill_of_missed sought missed
        (.bind_ok (Run.Yields.succ_iff.mpr made) ?_))
      simp only [Action.afterTill, hfail, Bool.false_eq_true, if_false]
      exact .pure _
  | idle turns sought missed made hok stays =>
      refine turns.comesTo (leftTill_of_missed sought missed
        (.bind_ok (Run.Yields.succ_iff.mpr made) ?_))
      simp only [Action.afterTill, hok, if_true, if_pos stays]
      exact .fault _
  | soughtRaised turns sought => exact turns.comesTo (leftTill_of_raised sought)
  | raised turns sought missed made =>
      exact turns.comesTo (leftTill_of_missed sought missed
        (.bind_error (Run.Yields.succ_iff.mpr made)))

end Parser

/-- The reply of a parser turned into that of its negative look-ahead. -/
def Reply.negated (s : Text) (i : Int) (description : Option String) (r : Reply) : Reply :=
  if r.status then .error i (Action.unwanted s i r.index description) else .ok i .null

namespace Parser

variable {w : World} {s : Text} {p stop : Parser} {i j : Int} {ts : List (Reply × Reply)}
  {e t : Reply} {o : Except Fault Reply} {f : Fault} {description : Option String}

theorem ComesTo.notFollowedBy (h : stop.ComesTo w s j o) (description : Option String) :
    (stop.notFollowedBy description).ComesTo w s j (o.map (Reply.negated s j description)) := by
  cases o with
  | error f => exact h.bind_error fun _ => rfl
  | ok e =>
      refine h.bind (fun _ => rfl) ?_
      simp only [Except.map, Reply.negated]
      split
      · exact .pure _
      · exact .pure _

/-- The same as turns until another parser succeeds, put together from a negative look-ahead, a
loop and a second try. -/
def tillFound (p stop : Parser) (description : Option String) : Parser :=
  (((stop.notFollowedBy description).andThen p).many).skip stop

/-- Two outcomes agree on the success, its index and its value, and on the fault; the two kinds
of loops report turns that consume nothing each in its own words, but at the same offset. -/
inductive Concurs : Except Fault Reply → Except Fault Reply → Prop
  | success {r r' : Reply} (hr : r.status = true) (hr' : r'.status = true)
      (index_eq : r.index = r'.index) (value_eq : r.value = r'.value) : Concurs (.ok r) (.ok r')
  | failure {r r' : Reply} (hr : r.status = false) (hr' : r'.status = false) :
      Concurs (.ok r) (.ok r')
  | idle (j : Int) : Concurs (.error (.idleTurn j)) (.error (.idleRepetition j))
  | raised (f : Fault) : Concurs (.error f) (.error f)

section Definition

variable (h0 : 0 ≤ i) (hlen : i ≤ s.length)

include h0 hlen

/-- Where the loop is over, the other parser is tried once more. -/
theorem exists_comesTo_tillFound {last : List Reply}
    (pairs : Pairs w s (stop.notFollowedBy description) p i ts j)
    (stops : Breaks w s (stop.notFollowedBy description) p j (.ok last))
    (sought : stop.ComesTo w s j (.ok e)) :
    ∃ r, (tillFound p stop description).ComesTo w s i (.ok r) ∧ r.status = e.status ∧
      r.index = e.index ∧ (e.status = true → r.value = .list (ts.map (·.2.value))) := by
  obtain ⟨many, hmany, hreports⟩ := pairs.exists_comesTo
    (pairing_andThen w s (stop.notFollowedBy description) p) h0 hlen stops
  rw [← hreports.index_eq] at sought
  refine ⟨_, (pairing_skip w s _ stop).both h0 hlen hmany hreports.status_eq sought,
    Reply.following_status, Reply.following_index, fun hfound => ?_⟩
  exact (Reply.following_value hfound).trans hreports.value_eq

theorem tillFound_comesTo_error (pairs : Pairs w s (stop.notFollowedBy description) p i ts j)
    (broken : Breaks w s (stop.notFollowedBy description) p j (.error f)) :
    (tillFound p stop description).ComesTo w s i (.error f) :=
  (pairing_skip w s _ stop).raised
    (pairs.comesTo_error (pairing_andThen w s (stop.notFollowedBy description) p) h0 hlen broken)

end Definition

section Agreement

variable {rank : Nat} (hstop : stop.Direct (w.Direct rank)) (h0 : 0 ≤ i) (hlen : i ≤ s.length)

include hstop h0 hlen

/-- What a negative look-ahead comes to is known from the parser that it tries. -/
theorem exists_of_notFollowedBy (h : (stop.notFollowedBy description).ComesTo w s i o) :
    ∃ o', stop.ComesTo w s i o' ∧ o = o'.map (Reply.negated s i description) := by
  obtain ⟨o', ho'⟩ := Direct.exists_comesTo hstop h0 hlen
  exact ⟨o', ho', h.unique (ho'.notFollowedBy description)⟩

theorem exists_missed (h : (stop.notFollowedBy description).ComesTo w s i (.ok t))
    (hok : t.status = true) : t.index = i ∧ ∃ e, stop.ComesTo w s i (.ok e) ∧ e.status = false := by
  obtain ⟨f | e, sought, ht⟩ := exists_of_notFollowedBy hstop h0 hlen h
  · cases ht
  · cases ht
    cases he : e.status with
    | true => simp [Reply.negated, he, Reply.error] at hok
    | false => exact ⟨by simp [Reply.negated, he], e, sought, he⟩

theorem exists_found (h : (stop.notFollowedBy description).ComesTo w s i (.ok t))
    (hfail : t.status = false) : ∃ e, stop.ComesTo w s i (.ok e) ∧ e.status = true := by
  obtain ⟨f | e, sought, ht⟩ := exists_of_notFollowedBy hstop h0 hlen h
  · cases ht
  · cases ht
    cases he : e.status with
    | true => exact ⟨e, sought, he⟩
    | false => simp [Reply.negated, he] at hfail

theorem comesTo_error_of_notFollowedBy
    (h : (stop.notFollowedBy description).ComesTo w s i (.error f)) :
    stop.ComesTo w s i (.error f) := by
  obtain ⟨f' | e, sought, hf⟩ := exists_of_notFollowedBy hstop h0 hlen h
  · cases hf
    exact sought
  · cases hf

/-- Pairs of a negative look-ahead and a turn are turns before the other parser succeeds. -/
theorem Pairs.exists_awaits (pairs : Pairs w s (stop.notFollowedBy description) p i ts j) :
    ∃ ts', Awaits w s p stop i ts' j ∧ ts'.map (·.2) = ts.map (·.2) := by
  induction pairs with
  | start => exact ⟨[], .start, rfl⟩
  | @pair ts j t u before first hfirst second hsecond moves ih =>
      obtain ⟨ts', turns, hvalues⟩ := ih
      obtain ⟨hj, hjlen⟩ := before.inside h0 hlen
      obtain ⟨hindex, e, sought, missed⟩ := exists_missed hstop hj hjlen first hfirst
      rw [hindex] at second
      exact ⟨ts' ++ [(e, u)], .turn turns sought missed second hsecond moves, by simp [hvalues]⟩

/-- Whatever ends the pairs of a negative look-ahead and a turn, both ways come to an end alike. -/
theorem Pairs.exists_concurs (pairs : Pairs w s (stop.notFollowedBy description) p i ts j)
    {ends : Except Fault (List Reply)}
    (h : Breaks w s (stop.notFollowedBy description) p j ends) :
    ∃ o o', Finds w s p stop i o ∧ (tillFound p stop description).ComesTo w s i o' ∧
      Concurs o o' := by
  obtain ⟨ts', turns, hsame⟩ := pairs.exists_awaits hstop h0 hlen
  obtain ⟨hj, hjlen⟩ := pairs.inside h0 hlen
  have hvalues : ts'.map (·.2.value) = ts.map (·.2.value) := by
    simpa only [List.map_map, Function.comp_def] using congrArg (List.map Reply.value) hsame
  cases h with
  | first first missing =>
      -- The look-ahead fails where the other parser succeeds.
      obtain ⟨e, sought, hfound⟩ := exists_found hstop hj hjlen first missing
      have hr := @reports_listReply e.index _ (turns.neg_one_le_of_sought h0 hlen sought)
        (ts'.map (·.2.value))
      obtain ⟨r, hrun, hstatus, hindex, hvalue⟩ :=
        exists_comesTo_tillFound h0 hlen pairs (.first first missing) sought
      refine ⟨_, _, .found turns sought hfound hr, hrun, .success hr.status_eq ?_ ?_ ?_⟩
      · rw [hstatus, hfound]
      · rw [hr.index_eq, hindex]
      · rw [hr.value_eq, hvalue hfound, hvalues]
  | second first found second missing =>
      -- Nothing is consumed by the look-ahead, and both parsers fail at the same offset.
      obtain ⟨hindex, e, sought, missed⟩ := exists_missed hstop hj hjlen first found
      rw [hindex] at second
      have hr := second.reports_merge missing hj hjlen (turns.neg_one_le_of_sought h0 hlen sought)
      obtain ⟨r, hrun, hstatus, -, -⟩ :=
        exists_comesTo_tillFound h0 hlen pairs
          (.second first found (hindex ▸ second) missing) sought
      exact ⟨_, _, .missing turns sought missed second missing hr, hrun,
        .failure hr.status_eq (hstatus.trans missed)⟩
  | idle first found second hsecond stays =>
      obtain ⟨hindex, e, sought, missed⟩ := exists_missed hstop hj hjlen first found
      rw [hindex] at second
      exact ⟨_, _, .idle turns sought missed second hsecond stays,
        tillFound_comesTo_error h0 hlen pairs (.idle first found (hindex ▸ second) hsecond stays),
        .idle j⟩
  | firstRaised first =>
      exact ⟨_, _, .soughtRaised turns (comesTo_error_of_notFollowedBy hstop hj hjlen first),
        tillFound_comesTo_error h0 hlen pairs (.firstRaised first), .raised _⟩
  | secondRaised first found second =>
      obtain ⟨hindex, e, sought, missed⟩ := exists_missed hstop hj hjlen first found
      rw [hindex] at second
      exact ⟨_, _, .raised turns sought missed second,
        tillFound_comesTo_error h0 hlen pairs (.secondRaised first found (hindex ▸ second)),
        .raised _⟩

end Agreement

/-- Turns until another parser succeeds agree with a loop over turns that the other parser does
not match in front of, and a second try of it behind the loop. Both come to an outcome at every
offset of every input. They succeed at the same offset with the same values, or both fail, or
both refuse the same turn that consumes nothing, or end in the same fault of a part. The turns
are made one behind another where the other parser fails, until it succeeds. -/
theorem manyTill_agrees (w : World) (rank : Nat) (p stop : Parser) (description : Option String)
    (s : Text) (i : Int) (hp : p.Direct (w.Direct rank)) (hstop : stop.Direct (w.Direct rank))
    (hi : 0 ≤ i) (hlen : i ≤ s.length) :
    (∃ o o', (p.manyTill stop).ComesTo w s i o ∧
      (((stop.notFollowedBy description).andThen p).many.skip stop).ComesTo w s i o' ∧
      Concurs o o') ∧
    ∀ o, (p.manyTill stop).ComesTo w s i o ↔ Finds w s p stop i o := by
  obtain ⟨ts, j, ends, pairs, h⟩ :=
    Pairs.start.exists_breaks (hstop.notFollowedBy description) hp hi hlen
  obtain ⟨o, o', hfinds, hrun, hconcurs⟩ := pairs.exists_concurs hstop hi hlen h
  exact ⟨⟨o, o', hfinds.comesTo hi hlen, hrun, hconcurs⟩,
    comesTo_iff_of_exists ⟨o, hfinds⟩ fun _ h => h.comesTo hi hlen⟩

/-- The rest of a comment whose end is looked for from its second character on: a star that no
slash follows is part of it, and the end is found behind that star. -/
theorem manyTill_agrees_of_comment :
    let p := Parser.anyChar
    let stop := Parser.string "*/"
    let s := ['-', 'a', '*', '*', '/']
    (p.Direct (World.Direct {} 0) ∧ stop.Direct (World.Direct {} 0)) ∧
    (0 ≤ (1 : Int) ∧ (1 : Int) ≤ s.length) ∧
    (p.manyTill stop).ComesTo {} s 1
      (.ok ⟨true, 5, .list [.str "a", .str "*"], 2, .singleton "'*/'"⟩) ∧
    ∃ r, (((stop.notFollowedBy none).andThen p).many.skip stop).ComesTo {} s 1 (.ok r) ∧
      r.status = true ∧ r.index = 5 ∧ r.value = .list [.str "a", .str "*"] := by
  intro p stop s
  have hp : p.Direct (World.Direct {} 0) := .base (.primitive .anyChar)
  have hstop : stop.Direct (World.Direct {} 0) := .base (.primitive (.string _))
  obtain ⟨⟨o, o', ho, ho', hconcurs⟩, hfinds⟩ :=
    manyTill_agrees {} 0 p stop none s 1 hp hstop (by decide) (by decide)
  have missed : stop.ComesTo {} s 1 (.ok (.error 1 "'*/'")) := comesTo_of_run fun _ _ => rfl
  have letter : p.ComesTo {} s 1 (.ok (.ok 2 (.str "a"))) := comesTo_of_run fun _ _ => rfl
  have missed' : stop.ComesTo {} s 2 (.ok (.error 2 "'*/'")) := comesTo_of_run fun _ _ => rfl
  have star : p.ComesTo {} s 2 (.ok (.ok 3 (.str "*"))) := comesTo_of_run fun _ _ => rfl
  have turns := (Awaits.start.turn missed rfl letter rfl (by decide)).turn missed' rfl star rfl
    (by decide)
  have sought : stop.ComesTo {} s 3 (.ok (.ok 5 (.str "*/"))) := comesTo_of_run fun _ _ => rfl
  have found : (p.manyTill stop).ComesTo {} s 1
      (.ok ⟨true, 5, .list [.str "a", .str "*"], 2, .singleton "'*/'"⟩) :=
    (hfinds _).mpr (.found turns sought rfl
      ⟨⟨rfl, by simp [repliesOf, Reply.ok, Reply.error]⟩, rfl, rfl, rfl⟩)
  refine ⟨⟨hp, hstop⟩, by decide, found, ?_⟩
  cases ho.unique found
  cases hconcurs with
  | success hr hr' index_eq value_eq => exact ⟨_, ho', hr', index_eq.symm, value_eq.symm⟩
  | failure hr hr' => cases hr

end Parser

end Descent
