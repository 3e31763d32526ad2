/-
# What repetitions come to

A repetition makes turns, each where the one before has stopped, and what it comes to can be
read off the replies of its parser at these offsets. It fails if a required turn fails. After
the required turns it stops at the first failure, or as soon as it has made as many turns as
it may; without such a bound it gives up at a turn that consumes nothing. Its reply joins the
furthest failures of exactly the turns that it made.

The turns are described as a path along the input, which does not mention how the loops go
about them. The loops are related to it by what they have to do after a given path.
-/

import Descent.Proofs.Merging
import Descent.Proofs.Stateless
import Mathlib.Data.Int.ConditionallyCompleteOrder
import Mathlib.Order.ConditionallyCompleteLattice.Basic

namespace Descent

open Filter

namespace Reply

/-- The largest furthest offset of replies, `-1` if there is none. -/
def furthestOf : List Reply → Int
  | [] => -1
  | r :: rs => max r.furthest (furthestOf rs)

theorem le_furthestOf {rs : List Reply} {r : Reply} (h : r ∈ rs) : r.furthest ≤ furthestOf rs := by
  induction rs with
  | nil => cases h
  | cons first rs ih =>
      simp only [furthestOf]
      rcases List.mem_cons.mp h with rfl | h
      · omega
      · have := ih h
        omega

theorem neg_one_le_furthestOf (rs : List Reply) : -1 ≤ furthestOf rs := by
  induction rs with
  | nil => exact Int.le_refl _
  | cons r rs ih =>
      simp only [furthestOf]
      omega

theorem furthestOf_append (rs ts : List Reply) :
    furthestOf (rs ++ ts) = max (furthestOf rs) (furthestOf ts) := by
  induction rs with
  | nil => exact (max_eq_right (neg_one_le_furthestOf ts)).symm
  | cons r rs ih => rw [List.cons_append, furthestOf, furthestOf, ih, max_assoc]

/-- A reply joins the failures of others: it carries the largest of their furthest offsets, and
whatever any of them expected there. -/
structure Joins (t : Reply) (rs : List Reply) : Prop where
  furthest_eq : t.furthest = furthestOf rs
  mem_expected_iff : ∀ d, d ∈ t.expected ↔ ∃ r ∈ rs, r.furthest = t.furthest ∧ d ∈ r.expected

/-- A reply ends in the given way and joins the failures of others. -/
structure Reports (status : Bool) (index : Int) (value : Value) (rs : List Reply) (t : Reply) :
    Prop extends t.Joins rs where
  status_eq : t.status = status
  index_eq : t.index = index
  value_eq : t.value = value

theorem Reports.eq {status : Bool} {index : Int} {value : Value} {rs : List Reply} {t t' : Reply}
    (h : t.Reports status index value rs) (h' : t'.Reports status index value rs) : t = t' := by
  have hfurthest : t.furthest = t'.furthest := h.furthest_eq.trans h'.furthest_eq.symm
  refine ext_expected (h.status_eq.trans h'.status_eq.symm) (h.index_eq.trans h'.index_eq.symm)
    (h.value_eq.trans h'.value_eq.symm) hfurthest fun d => ?_
  rw [h.mem_expected_iff, h'.mem_expected_iff, hfurthest]

/-- What a loop has merged after turns with the given replies. -/
def contextOf (rs : List Reply) : Option Reply :=
  rs.foldl (fun context r => some (r.merge context)) none

theorem contextOf_append (rs : List Reply) (t : Reply) :
    contextOf (rs ++ [t]) = some (t.merge (contextOf rs)) := by
  simp [contextOf]

theorem joins_singleton {r : Reply} (hr : -1 ≤ r.furthest) : r.Joins [r] where
  furthest_eq := (max_eq_left hr).symm
  mem_expected_iff d := by simp

theorem Joins.gathers {t : Reply} {rs : List Reply} (h : t.Joins rs) : t.Gathers rs where
  furthest_le r hr := by
    rw [h.furthest_eq]
    exact le_furthestOf hr
  mem_expected_iff := h.mem_expected_iff

/-- Merged replies join the failures of both. -/
theorem Joins.mergeWith {older newer : Reply} {rs ts : List Reply} (h : older.Joins rs)
    (h' : newer.Joins ts) : (newer.mergeWith older).Joins (rs ++ ts) where
  furthest_eq := by
    rw [mergeWith_furthest, furthestOf_append, h.furthest_eq, h'.furthest_eq, max_comm]
  mem_expected_iff := by
    have hgathers := h'.gathers.mergeWith h.gathers
    exact (hgathers.congr fun _ => List.perm_append_comm.mem_iff).mem_expected_iff

theorem joins_ok (j : Int) (v : Value) : (ok j v).Joins [] where
  furthest_eq := rfl
  mem_expected_iff d := by simp [Reply.ok]

/-- A success that ends a loop adds no failure. -/
theorem Joins.ok_mergeWith {older : Reply} {rs : List Reply} (h : older.Joins rs) (j : Int)
    (v : Value) : ((Reply.ok j v).mergeWith older).Joins rs := by
  simpa using h.mergeWith (joins_ok j v)

/-- A turn merged with the turns before it joins the failures of all of them. -/
theorem joins_merge_contextOf {rs : List Reply} {t : Reply} (ht : -1 ≤ t.furthest)
    (hrs : ∀ r ∈ rs, -1 ≤ r.furthest) : (t.merge (contextOf rs)).Joins (rs ++ [t]) := by
  induction rs using List.reverseRecOn generalizing t with
  | nil => exact joins_singleton ht
  | append_singleton rs r ih =>
      rw [contextOf_append]
      exact (ih (hrs r (by simp)) fun q hq => hrs q (by simp [hq])).mergeWith (joins_singleton ht)

theorem joins_ok_merge_contextOf {rs : List Reply} (hrs : ∀ r ∈ rs, -1 ≤ r.furthest) (j : Int)
    (v : Value) : ((Reply.ok j v).merge (contextOf rs)).Joins rs := by
  rcases rs.eq_nil_or_concat' with rfl | ⟨before, r, rfl⟩
  · exact joins_ok j v
  · rw [contextOf_append]
    refine (joins_merge_contextOf (hrs r (by simp)) fun q hq => ?_).ok_mergeWith j v
    exact hrs q (by simp [hq])

end Reply

namespace Action

/-- The turns that a repetition may still make after so many, all required ones among them. -/
def further (turns : Nat) (p : Action) (r : Repetition) (s : Text) (made : Nat) :
    Int → Option Reply → List Value → Run Reply :=
  match r.most with
  | some most => bounded p s (most - made)
  | none => unbounded p s (turns - (made - r.least))

/-- What a repetition has to do after turns with the given replies, the next turn being made at
an offset. -/
def timesFrom (turns : Nat) (p : Action) (r : Repetition) (s : Text) (rs : List Reply) (j : Int) :
    Run Reply :=
  required p s (further turns p r s (max r.least rs.length)) (r.least - rs.length) j
    (Reply.contextOf rs) (rs.map (·.value)).reverse

/-- What a repetition does with the reply of the turn that it makes after turns with the given
replies. -/
def afterTurn (turns : Nat) (p : Action) (r : Repetition) (s : Text) (rs : List Reply) (j : Int)
    (reply : Reply) : Run Reply :=
  if reply.status then
    if r.most = none ∧ r.least ≤ rs.length ∧ reply.index = j then Run.fault (.idleRepetition j)
    else timesFrom turns p r s (rs ++ [reply]) reply.index
  else if rs.length < r.least then return reply.merge (Reply.contextOf rs)
  else return listReply j (Reply.contextOf (rs ++ [reply])) (rs.map (·.value)).reverse

section Steps

variable {turns : Nat} {p : Action} {r : Repetition} {s : Text} {i j : Int} {rs : List Reply}

theorem times_eq_timesFrom : times turns p r s i = timesFrom turns p r s [] i := by
  unfold times timesFrom further
  cases r.most with
  | none => simp [Reply.contextOf]
  | some most => simp [Reply.contextOf]

/-- A required turn. -/
theorem timesFrom_of_lt (h : rs.length < r.least) :
    timesFrom turns p r s rs j = do
      let reply ← p s j
      if reply.status then timesFrom turns p r s (rs ++ [reply]) reply.index
      else return reply.merge (Reply.contextOf rs) := by
  obtain ⟨count, hcount⟩ : ∃ count, r.least - rs.length = count + 1 :=
    ⟨r.least - rs.length - 1, by omega⟩
  have hmade : max r.least rs.length = r.least := by omega
  have hnext (reply : Reply) : r.least - (rs ++ [reply]).length = count := by
    simp only [List.length_append, List.length_singleton]
    omega
  have hmade' (reply : Reply) : max r.least (rs ++ [reply]).length = r.least := by
    simp only [List.length_append, List.length_singleton]
    omega
  simp only [timesFrom, hcount, hmade, hnext, hmade', required, Reply.contextOf_append,
    List.map_append, List.map_cons, List.map_nil, List.reverse_append, List.reverse_cons,
    List.reverse_nil, List.nil_append, List.singleton_append]

/-- After the required turns. -/
theorem timesFrom_of_le (h : r.least ≤ rs.length) :
    timesFrom turns p r s rs j =
      further turns p r s rs.length j (Reply.contextOf rs) (rs.map (·.value)).reverse := by
  have hcount : r.least - rs.length = 0 := by omega
  have hmade : max r.least rs.length = rs.length := by omega
  simp only [timesFrom, hcount, hmade, required]

/-- A further turn of those that a bound admits. -/
theorem timesFrom_of_bounded {most : Nat} (h : r.least ≤ rs.length) (hmost : r.most = some most)
    (hroom : rs.length < most) :
    timesFrom turns p r s rs j = do
      let reply ← p s j
      if reply.status then timesFrom turns p r s (rs ++ [reply]) reply.index
      else return listReply j (Reply.contextOf (rs ++ [reply])) (rs.map (·.value)).reverse := by
  obtain ⟨count, hcount⟩ : ∃ count, most - rs.length = count + 1 :=
    ⟨most - rs.length - 1, by omega⟩
  have hle (reply : Reply) : r.least ≤ (rs ++ [reply]).length := by
    simp only [List.length_append, List.length_singleton]
    omega
  have hnext (reply : Reply) : most - (rs ++ [reply]).length = count := by
    simp only [List.length_append, List.length_singleton]
    omega
  simp only [timesFrom_of_le h, timesFrom_of_le (hle _), further, hmost, hcount, hnext, bounded,
    Reply.contextOf_append, List.map_append, List.map_cons, List.map_nil, List.reverse_append,
    List.reverse_cons, List.reverse_nil, List.nil_append, List.singleton_append]

/-- All turns that a bound admits have been made. -/
theorem timesFrom_of_full (h : r.least ≤ rs.length) (hmost : r.most = some rs.length) :
    timesFrom turns p r s rs j =
      pure (listReply j (Reply.contextOf rs) (rs.map (·.value)).reverse) := by
  simp only [timesFrom_of_le h, further, hmost, Nat.sub_self, bounded]

/-- A further turn without a bound, as long as the budget allows for one. -/
theorem timesFrom_of_unbounded (h : r.least ≤ rs.length) (hmost : r.most = none)
    (hturns : rs.length - r.least < turns) :
    timesFrom turns p r s rs j = p s j >>= fun reply =>
      if !reply.status then
        pure (listReply j (Reply.contextOf (rs ++ [reply])) (rs.map (·.value)).reverse)
      else if reply.index = j then Run.fault (.idleRepetition j)
      else timesFrom turns p r s (rs ++ [reply]) reply.index := by
  obtain ⟨budget, hbudget⟩ : ∃ budget, turns - (rs.length - r.least) = budget + 1 :=
    ⟨turns - (rs.length - r.least) - 1, by omega⟩
  have hle (reply : Reply) : r.least ≤ (rs ++ [reply]).length := by
    simp only [List.length_append, List.length_singleton]
    omega
  have hnext (reply : Reply) : turns - ((rs ++ [reply]).length - r.least) = budget := by
    simp only [List.length_append, List.length_singleton]
    omega
  simp only [timesFrom_of_le h, timesFrom_of_le (hle _), further, hmost, hbudget, hnext, unbounded,
    Reply.contextOf_append, List.map_append, List.map_cons, List.map_nil, List.reverse_append,
    List.reverse_cons, List.reverse_nil, List.nil_append, List.singleton_append]
  rfl

/-- Where another turn is admitted, it is made, as long as the budget allows for one. -/
theorem timesFrom_of_room (hroom : ∀ most, r.most = some most → rs.length < most)
    (hturns : rs.length < turns) :
    timesFrom turns p r s rs j = p s j >>= afterTurn turns p r s rs j := by
  by_cases hearly : rs.length < r.least
  · rw [timesFrom_of_lt hearly]
    refine bind_congr fun reply => ?_
    by_cases hreply : reply.status
    · simp [afterTurn, hreply, hearly]
    · simp [afterTurn, hreply, hearly]
  · have henough : r.least ≤ rs.length := Nat.le_of_not_lt hearly
    cases hmost : r.most with
    | some most =>
        rw [timesFrom_of_bounded henough hmost (hroom most hmost)]
        refine bind_congr fun reply => ?_
        by_cases hreply : reply.status
        · simp [afterTurn, hreply, hmost]
        · simp [afterTurn, hreply, hearly]
    | none =>
        rw [timesFrom_of_unbounded henough hmost (by omega)]
        refine bind_congr fun reply => ?_
        by_cases hreply : reply.status
        · simp [afterTurn, hreply, hmost, henough]
        · simp [afterTurn, hreply, hearly]

end Steps

end Action

namespace Parser

/-- Turns of a repetition that starts at offset `i`, with their replies: each is made where the
one before has stopped, and succeeds. Turns that are not required have to consume something if
there is no greatest count. The next turn is due at offset `j`. -/
inductive Turns (w : World) (s : Text) (p : Parser) (r : Repetition) (i : Int) :
    List Reply → Int → Prop
  | start : Turns w s p r i [] i
  | turn {rs : List Reply} {j : Int} {t : Reply} (before : Turns w s p r i rs j)
      (made : p.ComesTo w s j (.ok t)) (hok : t.status = true)
      (moves : r.most = none → r.least ≤ rs.length → t.index ≠ j) :
      Turns w s p r i (rs ++ [t]) t.index

/-- What a repetition comes to. -/
inductive Repeats (w : World) (s : Text) (p : Parser) (r : Repetition) (i : Int) :
    Except Fault Reply → Prop
  /-- A required turn fails, and so does the repetition. -/
  | refused {rs : List Reply} {j : Int} {last t : Reply} (turns : Turns w s p r i rs j)
      (early : rs.length < r.least) (made : p.ComesTo w s j (.ok last))
      (hlast : last.status = false) (ht : t.Reports false (-1) .null (rs ++ [last])) :
      Repeats w s p r i (.ok t)
  /-- A turn fails that is admitted but not required, and ends the repetition. -/
  | stopped {rs : List Reply} {j : Int} {last t : Reply} (turns : Turns w s p r i rs j)
      (enough : r.least ≤ rs.length) (room : ∀ most, r.most = some most → rs.length < most)
      (made : p.ComesTo w s j (.ok last)) (hlast : last.status = false)
      (ht : t.Reports true j (.list (rs.map (·.value))) (rs ++ [last])) :
      Repeats w s p r i (.ok t)
  /-- The greatest count is reached. -/
  | full {rs : List Reply} {j : Int} {t : Reply} (turns : Turns w s p r i rs j)
      (most : r.most = some rs.length)
      (ht : t.Reports true j (.list (rs.map (·.value))) rs) : Repeats w s p r i (.ok t)
  /-- A turn that is not required consumes nothing, and there is no greatest count. -/
  | idle {rs : List Reply} {j : Int} {last : Reply} (turns : Turns w s p r i rs j)
      (enough : r.least ≤ rs.length) (endless : r.most = none)
      (made : p.ComesTo w s j (.ok last)) (hlast : last.status = true)
      (stays : last.index = j) : Repeats w s p r i (.error (.idleRepetition j))
  /-- A turn ends in a fault of its own. -/
  | raised {rs : List Reply} {j : Int} {f : Fault} (turns : Turns w s p r i rs j)
      (room : ∀ most, r.most = some most → rs.length < most)
      (made : p.ComesTo w s j (.error f)) : Repeats w s p r i (.error f)

variable {w : World} {s : Text} {p : Parser} {r : Repetition} {i j : Int} {rs : List Reply}
  {t : Reply} {o : Except Fault Reply}

/-- The reply that a parser comes to inside the input meets the reply invariant. -/
theorem ComesTo.exists_meets (h : p.ComesTo w s i (.ok t)) (h0 : 0 ≤ i) (hlen : i ≤ s.length) :
    ∃ log, t.Meets s i log := by
  obtain ⟨v, hrun⟩ := h.endsIn
  obtain ⟨n, hn⟩ := hrun.exists
  obtain ⟨parts, -, hmeets⟩ := meets_of_run h0 hlen hn
  exact ⟨_, hmeets⟩

theorem ComesTo.neg_one_le_furthest (h : p.ComesTo w s i (.ok t)) (h0 : 0 ≤ i)
    (hlen : i ≤ s.length) : -1 ≤ t.furthest := by
  obtain ⟨log, hmeets⟩ := h.exists_meets h0 hlen
  rw [hmeets.sums.furthest_eq]
  exact log.neg_one_le_latest

/-- Where another turn is admitted, a loop comes to what it does with the reply. -/
theorem yields_of_made (made : p.ComesTo w s j (.ok t))
    (hroom : ∀ most, r.most = some most → rs.length < most)
    (h : Run.Yields w (fun n => Action.afterTurn n (p.run (n + 1)) r s rs j t) o) :
    Run.Yields w (fun n => Action.timesFrom n (p.run (n + 1)) r s rs j) o :=
  (Run.Yields.bind_ok (Run.Yields.succ_iff.mpr made) h).congr
    ((eventually_gt_atTop rs.length).mono fun _ hn => Action.timesFrom_of_room hroom hn)

/-- A turn that ends in a fault ends the loop. -/
theorem yields_of_error {f : Fault} (made : p.ComesTo w s j (.error f))
    (hroom : ∀ most, r.most = some most → rs.length < most) :
    Run.Yields w (fun n => Action.timesFrom n (p.run (n + 1)) r s rs j) (.error f) :=
  (Run.Yields.bind_error (Run.Yields.succ_iff.mpr made)).congr
    ((eventually_gt_atTop rs.length).mono fun _ hn => Action.timesFrom_of_room hroom hn)

namespace Turns

/-- Turns lead from the start towards the end of the input. -/
theorem inside (h : Turns w s p r i rs j) (h0 : 0 ≤ i) (hlen : i ≤ s.length) :
    0 ≤ j ∧ j ≤ s.length := by
  induction h with
  | start => exact ⟨h0, hlen⟩
  | turn before made hok moves ih =>
      obtain ⟨log, hmeets⟩ := made.exists_meets ih.1 ih.2
      obtain ⟨hle, hstop⟩ := hmeets.success hok
      exact ⟨Int.le_trans ih.1 hle, hstop⟩

theorem neg_one_le_furthest (h : Turns w s p r i rs j) (h0 : 0 ≤ i) (hlen : i ≤ s.length) :
    ∀ t ∈ rs, -1 ≤ t.furthest := by
  induction h with
  | start => simp
  | turn before made hok moves ih =>
      intro t ht
      rcases List.mem_append.mp ht with ht | ht
      · exact ih t ht
      · cases List.mem_singleton.mp ht
        obtain ⟨hj, hjlen⟩ := before.inside h0 hlen
        exact made.neg_one_le_furthest hj hjlen

/-- A repetition comes to what is left to do after turns. -/
theorem yields (h : Turns w s p r i rs j) (hroom : ∀ most, r.most = some most → rs.length ≤ most)
    (hend : Run.Yields w (fun n => Action.timesFrom n (p.run (n + 1)) r s rs j) o) :
    (p.times r).ComesTo w s i o := by
  induction h with
  | start =>
      refine Run.Yields.succ_iff.mp ?_
      simp only [← Action.times_eq_timesFrom] at hend
      exact hend
  | @turn rs j t before made hok moves ih =>
      have hlt (most : Nat) (hmost : r.most = some most) : rs.length < most := by
        have hle := hroom most hmost
        rwa [List.length_append] at hle
      refine ih (fun most hmost => Nat.le_of_lt (hlt most hmost)) (yields_of_made made hlt ?_)
      have hidle : ¬ (r.most = none ∧ r.least ≤ rs.length ∧ t.index = j) :=
        fun h => moves h.1 h.2.1 h.2.2
      simpa only [Action.afterTurn, hok, if_true, if_neg hidle] using hend

end Turns

/-- A failure that ends a loop reports itself and what the loop has met before. -/
theorem ComesTo.reports_merge (made : p.ComesTo w s j (.ok t)) (hfail : t.status = false)
    (h0 : 0 ≤ j) (hlen : j ≤ s.length) (hrs : ∀ q ∈ rs, -1 ≤ q.furthest) :
    (t.merge (Reply.contextOf rs)).Reports false (-1) .null (rs ++ [t]) := by
  obtain ⟨log, hmeets⟩ := made.exists_meets h0 hlen
  obtain ⟨hindex, hvalue, -⟩ := hmeets.failure hfail
  exact {
    toJoins := Reply.joins_merge_contextOf (made.neg_one_le_furthest h0 hlen) hrs
    status_eq := by rw [Reply.merge_status, hfail]
    index_eq := by rw [Reply.merge_index, hindex]
    value_eq := by rw [Reply.merge_value, hvalue] }

theorem Turns.reports_refused (turns : Turns w s p r i rs j) (h0 : 0 ≤ i) (hlen : i ≤ s.length)
    (made : p.ComesTo w s j (.ok t)) (hfail : t.status = false) :
    (t.merge (Reply.contextOf rs)).Reports false (-1) .null (rs ++ [t]) := by
  obtain ⟨hj, hjlen⟩ := turns.inside h0 hlen
  exact made.reports_merge hfail hj hjlen (turns.neg_one_le_furthest h0 hlen)

/-- A loop that ends by a success reports the turns that it has made. -/
theorem reports_listReply (hrs : ∀ t ∈ rs, -1 ≤ t.furthest) (values : List Value) :
    (Action.listReply j (Reply.contextOf rs) values.reverse).Reports true j (.list values) rs where
  toJoins := Reply.joins_ok_merge_contextOf hrs j _
  status_eq := by simp [Action.listReply]
  index_eq := by simp [Action.listReply]
  value_eq := by simp [Action.listReply]

theorem Turns.reports_stopped (turns : Turns w s p r i rs j) (h0 : 0 ≤ i) (hlen : i ≤ s.length)
    (made : p.ComesTo w s j (.ok t)) :
    (Action.listReply j (Reply.contextOf (rs ++ [t])) (rs.map (·.value)).reverse).Reports true j
      (.list (rs.map (·.value))) (rs ++ [t]) := by
  obtain ⟨hj, hjlen⟩ := turns.inside h0 hlen
  refine reports_listReply (fun q hq => ?_) _
  rcases List.mem_append.mp hq with hq | hq
  · exact turns.neg_one_le_furthest h0 hlen q hq
  · cases List.mem_singleton.mp hq
    exact made.neg_one_le_furthest hj hjlen

/-- A repetition does come to what is said of it. -/
theorem Repeats.comesTo (h : Repeats w s p r i o)
    (hr : ∀ most, r.most = some most → r.least ≤ most) (h0 : 0 ≤ i) (hlen : i ≤ s.length) :
    (p.times r).ComesTo w s i o := by
  cases h with
  | @refused rs j last t turns early made hlast ht =>
      have room (most : Nat) (hmost : r.most = some most) : rs.length < most :=
        Nat.lt_of_lt_of_le early (hr most hmost)
      rw [ht.eq (turns.reports_refused h0 hlen made hlast)]
      refine turns.yields (fun most hmost => Nat.le_of_lt (room most hmost))
        (yields_of_made made room ?_)
      simp only [Action.afterTurn, hlast, Bool.false_eq_true, if_false, if_pos early]
      exact .pure _
  | @stopped rs j last t turns enough room made hlast ht =>
      rw [ht.eq (turns.reports_stopped h0 hlen made)]
      refine turns.yields (fun most hmost => Nat.le_of_lt (room most hmost))
        (yields_of_made made room ?_)
      simp only [Action.afterTurn, hlast, Bool.false_eq_true, if_false,
        if_neg (Nat.not_lt.mpr enough)]
      exact .pure _
  | @full rs j t turns most ht =>
      rw [ht.eq (reports_listReply (turns.neg_one_le_furthest h0 hlen) _)]
      refine turns.yields (fun most' hmost => ?_) ?_
      · rw [most] at hmost
        cases hmost
        exact Nat.le_refl _
      · simp only [Action.timesFrom_of_full (hr _ most) most]
        exact .pure _
  | @idle rs j last turns enough endless made hlast stays =>
      have room (most : Nat) (hmost : r.most = some most) : rs.length < most := by
        rw [endless] at hmost
        cases hmost
      refine turns.yields (fun most hmost => Nat.le_of_lt (room most hmost))
        (yields_of_made made room ?_)
      have hidle : r.most = none ∧ r.least ≤ rs.length ∧ last.index = j := ⟨endless, enough, stays⟩
      simp only [Action.afterTurn, hlast, if_true, if_pos hidle]
      exact .fault _
  | raised turns room made =>
      exact turns.yields (fun most hmost => Nat.le_of_lt (room most hmost))
        (yields_of_error made room)

section Existence

variable {rank : Nat} (hp : p.Direct (w.Direct rank)) (h0 : 0 ≤ i) (hlen : i ≤ s.length)

include hp h0 hlen

/-- Where another turn is admitted, it is made or the repetition is over. -/
theorem Turns.next (turns : Turns w s p r i rs j)
    (hroom : ∀ most, r.most = some most → rs.length < most) :
    (∃ o, Repeats w s p r i o) ∨ ∃ t, Turns w s p r i (rs ++ [t]) t.index ∧
      (r.most = none → r.least ≤ rs.length → j < t.index) := by
  obtain ⟨hj, hjlen⟩ := turns.inside h0 hlen
  obtain ⟨o, made⟩ := Direct.exists_comesTo hp hj hjlen
  rcases o with f | t
  · exact .inl ⟨_, .raised turns hroom made⟩
  · obtain ⟨log, hmeets⟩ := made.exists_meets hj hjlen
    cases hok : t.status with
    | false =>
        left
        by_cases hearly : rs.length < r.least
        · exact ⟨_, .refused turns hearly made hok (turns.reports_refused h0 hlen made hok)⟩
        · exact ⟨_, .stopped turns (Nat.le_of_not_lt hearly) hroom made hok
            (turns.reports_stopped h0 hlen made)⟩
    | true =>
        by_cases hidle : r.most = none ∧ r.least ≤ rs.length ∧ t.index = j
        · exact .inl ⟨_, .idle turns hidle.2.1 hidle.1 made hok hidle.2.2⟩
        · have hmoves (hmost : r.most = none) (henough : r.least ≤ rs.length) : t.index ≠ j :=
            fun heq => hidle ⟨hmost, henough, heq⟩
          refine .inr ⟨t, .turn turns made hok hmoves, fun hmost henough => ?_⟩
          have hle := (hmeets.success hok).1
          have hne := hmoves hmost henough
          omega

/-- The turns that are required, and those that a bound admits, are made one by one unless the
repetition is over before. -/
theorem exists_turns (count : Nat) (hcount : count ≤ r.most.getD r.least) :
    (∃ o, Repeats w s p r i o) ∨ ∃ rs j, Turns w s p r i rs j ∧ rs.length = count := by
  induction count with
  | zero => exact .inr ⟨[], i, .start, rfl⟩
  | succ count ih =>
      rcases ih (by omega) with hover | ⟨rs, j, turns, hlength⟩
      · exact .inl hover
      · have hroom (most : Nat) (hmost : r.most = some most) : rs.length < most := by
          rw [hmost, Option.getD_some] at hcount
          omega
        rcases turns.next hp h0 hlen hroom with hover | ⟨t, turns', -⟩
        · exact .inl hover
        · exact .inr ⟨_, _, turns', by simp [hlength]⟩

/-- Without a greatest count the input runs out. -/
theorem Turns.exists_repeats (hmost : r.most = none) (turns : Turns w s p r i rs j)
    (henough : r.least ≤ rs.length) : ∃ o, Repeats w s p r i o := by
  -- The induction is on what is left of the input.
  induction hleft : (s.length - j).toNat using Nat.strong_induction_on generalizing j rs with
  | _ left ih =>
      have hroom (most : Nat) (h : r.most = some most) : rs.length < most := by
        rw [hmost] at h
        cases h
      rcases turns.next hp h0 hlen hroom with hover | ⟨t, turns', hmoves⟩
      · exact hover
      · have hlt := hmoves hmost henough
        obtain ⟨-, hstop⟩ := turns'.inside h0 hlen
        have hshorter : (s.length - t.index).toNat < left := by omega
        refine ih _ hshorter turns' ?_ rfl
        simp only [List.length_append, List.length_singleton]
        omega

/-- A repetition of a parser without handles comes to something of what is said. -/
theorem exists_repeats : ∃ o, Repeats w s p r i o := by
  rcases exists_turns hp h0 hlen (r.most.getD r.least) (Nat.le_refl _) with
    hover | ⟨rs, j, turns, hlength⟩
  · exact hover
  · cases hmost : r.most with
    | none =>
        rw [hmost, Option.getD_none] at hlength
        exact turns.exists_repeats hp h0 hlen hmost (by omega)
    | some most =>
        rw [hmost, Option.getD_some] at hlength
        exact ⟨_, .full turns (by rw [hmost, hlength])
          (reports_listReply (turns.neg_one_le_furthest h0 hlen) _)⟩

/-- What a repetition comes to is what its turns lead to, and nothing else. -/
theorem times_comesTo_iff (hr : ∀ most, r.most = some most → r.least ≤ most) :
    (p.times r).ComesTo w s i o ↔ Repeats w s p r i o :=
  comesTo_iff_of_exists (exists_repeats hp h0 hlen) (fun _ h => h.comesTo hr h0 hlen) o

end Existence

end Parser

namespace Repetition

/-- What a greatest count stands for: an integer for itself, and infinity for no bound. -/
inductive Greatest : Number → WithTop Int → Prop
  | count (n : Int) : Greatest (.int n) n
  | endless {x : Float} (h : Binary64.magnitude x = .infinite)
      (hpos : Binary64.isNegative x = false) : Greatest (.float x) ⊤

theorem less_int (a b : Int) : (Number.int a).less (.int b) = decide (a < b) := by
  simp [Number.less, Number.place?, Number.Place.before]

theorem turnsBelow_int (n : Int) : turnsBelow (.int n) = some n.toNat := by
  simp [turnsBelow, Number.place?]

/-- Nothing lies beyond infinity. -/
theorem less_endless {x : Float} (h : Binary64.magnitude x = .infinite)
    (hpos : Binary64.isNegative x = false) (n : Int) : (Number.float x).less (.int n) = false := by
  have hratio : Binary64.ratio? x = none := by simp [Binary64.ratio?, h]
  simp [Number.less, Number.place?, hratio, h, hpos, Number.Place.before]

variable {least : Int} {greatest : WithTop Int} {bound : Number}

/-- Bounds are out of order if the least is negative or the greatest below it. -/
theorem disordered_iff (h : Greatest bound greatest) :
    ((Number.int least).less (.int 0) || bound.less (.int least)) = true ↔
      least < 0 ∨ greatest < least := by
  cases h with
  | count n => simp [less_int]
  | endless h hpos => simp [less_int, less_endless h hpos]

theorem between_of_disordered (h : Greatest bound greatest)
    (hbad : least < 0 ∨ greatest < least) :
    between (.int least) bound =
      .error (.repetitionBounds (Number.int least).written bound.written) :=
  if_pos ((disordered_iff h).mpr hbad)

/-- Bounds in order make a repetition, if it can be told whether the greatest is infinite. -/
theorem between_of_ordered (h : Greatest bound greatest) (h0 : 0 ≤ least)
    (hle : least ≤ greatest) :
    between (.int least) bound = isInfinite bound >>= fun infinite =>
      .ok ⟨least.toNat, if infinite then none else (turnsBelow bound).map (max least.toNat)⟩ := by
  have hordered : ¬ ((Number.int least).less (.int 0) || bound.less (.int least)) = true := by
    rw [disordered_iff h, not_or, not_lt, not_lt]
    exact ⟨h0, hle⟩
  simp only [between, if_neg hordered, turnsBelow_int]
  rfl

/-- An integer that no double can hold is refused as a greatest count. -/
theorem between_of_none {n : Int} (h0 : 0 ≤ least) (hle : least ≤ n)
    (hlarge : Binary64.ofInt? n = none) : between (.int least) (.int n) = .error .tooLarge := by
  have hinfinite : isInfinite (.int n) = .error .tooLarge := by simp [isInfinite, hlarge]
  rw [between_of_ordered (.count n) h0 (WithTop.coe_le_coe.mpr hle), hinfinite]
  rfl

/-- All other bounds in order make the repetition that they describe. -/
theorem exists_between_eq (h : Greatest bound greatest) (h0 : 0 ≤ least) (hle : least ≤ greatest)
    (hfits : ∀ n : Int, greatest = n → Binary64.ofInt? n ≠ none) :
    ∃ r, between (.int least) bound = .ok r ∧ (r.least : Int) = least ∧
      (r.most.elim ⊤ fun n => ((n : Int) : WithTop Int)) = greatest := by
  rw [between_of_ordered h h0 hle]
  cases h with
  | count n =>
      have hn : least ≤ n := WithTop.coe_le_coe.mp hle
      obtain ⟨x, hx⟩ := Option.ne_none_iff_exists'.mp (hfits n rfl)
      have hinfinite : isInfinite (.int n) = .ok false := by simp [isInfinite, hx]
      have hmost : ((max least.toNat n.toNat : Nat) : Int) = n := by omega
      rw [hinfinite, turnsBelow_int]
      exact ⟨_, rfl, Int.toNat_of_nonneg h0, congrArg _ hmost⟩
  | @endless x h hpos =>
      have hinfinite : isInfinite (.float x) = .ok true := by simp [isInfinite, h]
      rw [hinfinite]
      exact ⟨_, rfl, Int.toNat_of_nonneg h0, rfl⟩

/-- Which of the three it is: bounds out of order, a greatest count that is too large, or a
repetition. -/
theorem between_cases (least : Int) (h : Greatest bound greatest) :
    ((least < 0 ∨ greatest < least) ∧
      ∃ l g, between (.int least) bound = .error (.repetitionBounds l g)) ∨
    ((0 ≤ least ∧ least ≤ greatest) ∧ (∃ n : Int, greatest = n ∧ Binary64.ofInt? n = none) ∧
      between (.int least) bound = .error .tooLarge) ∨
    ((0 ≤ least ∧ least ≤ greatest) ∧ (∀ n : Int, greatest = n → Binary64.ofInt? n ≠ none) ∧
      ∃ r, between (.int least) bound = .ok r ∧ (r.least : Int) = least ∧
        (r.most.elim ⊤ fun n => ((n : Int) : WithTop Int)) = greatest) := by
  by_cases hbad : least < 0 ∨ greatest < least
  · exact .inl ⟨hbad, _, _, between_of_disordered h hbad⟩
  · rw [not_or, not_lt, not_lt] at hbad
    obtain ⟨h0, hle⟩ := hbad
    by_cases hlarge : ∃ n : Int, greatest = n ∧ Binary64.ofInt? n = none
    · obtain ⟨n, rfl, hnone⟩ := hlarge
      cases h
      have hn : least ≤ n := WithTop.coe_le_coe.mp hle
      exact .inr (.inl ⟨⟨h0, hle⟩, ⟨n, rfl, hnone⟩, between_of_none h0 hn hnone⟩)
    · have hfits (n : Int) (hn : greatest = n) (hnone : Binary64.ofInt? n = none) : False :=
        hlarge ⟨n, hn, hnone⟩
      exact .inr (.inr ⟨⟨h0, hle⟩, hfits, exists_between_eq h h0 hle hfits⟩)

/-- Bounds are refused as such exactly if they are out of order. -/
theorem between_refused_iff (least : Int) (h : Greatest bound greatest) :
    (∃ l g, between (.int least) bound = .error (.repetitionBounds l g)) ↔
      least < 0 ∨ greatest < least := by
  have hordered (hgood : 0 ≤ least ∧ least ≤ greatest) : ¬ (least < 0 ∨ greatest < least) := by
    rwa [not_or, not_lt, not_lt]
  rcases between_cases least h with ⟨hbad, hrefused⟩ | ⟨hgood, -, hb⟩ | ⟨hgood, -, r, hb, -⟩
  · exact iff_of_true hrefused hbad
  · exact iff_of_false (by simp [hb]) (hordered hgood)
  · exact iff_of_false (by simp [hb]) (hordered hgood)

/-- Bounds in order are refused exactly if the greatest is an integer that no double can hold. -/
theorem between_tooLarge_iff (least : Int) (h : Greatest bound greatest) :
    between (.int least) bound = .error .tooLarge ↔
      0 ≤ least ∧ least ≤ greatest ∧ ∃ n : Int, greatest = n ∧ Binary64.ofInt? n = none := by
  rcases between_cases least h with
    ⟨hbad, l, g, hb⟩ | ⟨hgood, hlarge, hb⟩ | ⟨hgood, hfits, r, hb, -⟩
  · refine iff_of_false (by simp [hb]) fun hgood => ?_
    rcases hbad with hbad | hbad
    · exact absurd hgood.1 (not_le.mpr hbad)
    · exact absurd hgood.2.1 (not_le.mpr hbad)
  · exact iff_of_true hb ⟨hgood.1, hgood.2, hlarge⟩
  · refine iff_of_false (by simp [hb]) ?_
    rintro ⟨-, -, n, hn, hnone⟩
    exact hfits n hn hnone

/-- The greatest count of a repetition is not below the least. -/
theorem least_le_most {r : Repetition} (hleast : (r.least : Int) = least)
    (hmost : (r.most.elim ⊤ fun n => ((n : Int) : WithTop Int)) = greatest)
    (hle : least ≤ greatest) (most : Nat) (h : r.most = some most) : r.least ≤ most := by
  rw [← hmost, ← hleast, h, Option.elim_some, WithTop.coe_le_coe] at hle
  exact Int.ofNat_le.mp hle

end Repetition

namespace Parser

open Repetition (Greatest)

/-- What a repetition with an integer for its least count, and an integer or infinity for its
greatest, is and comes to. Bounds out of order are refused, and so is a greatest count that
is too large to be asked whether it is infinite. In all other cases the repetition of a
parser without handles comes to an outcome at every offset of every input, and the outcome is
the one that the turns of the parser lead to. -/
theorem repetition_comes_to (least : Int) (greatest : WithTop Int) (bound : Number)
    (hbound : Greatest bound greatest) :
    ((∃ l g, Repetition.between (.int least) bound = .error (.repetitionBounds l g)) ↔
      least < 0 ∨ greatest < least) ∧
    (Repetition.between (.int least) bound = .error .tooLarge ↔
      0 ≤ least ∧ least ≤ greatest ∧ ∃ n : Int, greatest = n ∧ Binary64.ofInt? n = none) ∧
    (0 ≤ least → least ≤ greatest → (∀ n : Int, greatest = n → Binary64.ofInt? n ≠ none) →
      ∃ r, Repetition.between (.int least) bound = .ok r ∧ (r.least : Int) = least ∧
        (r.most.elim ⊤ fun n => ((n : Int) : WithTop Int)) = greatest ∧
        ∀ (w : World) (rank : Nat) (p : Parser) (s : Text) (i : Int),
          p.Direct (w.Direct rank) → 0 ≤ i → i ≤ s.length →
            (∃ o, (p.times r).ComesTo w s i o) ∧
            ∀ o, (p.times r).ComesTo w s i o ↔ Repeats w s p r i o) := by
  refine ⟨Repetition.between_refused_iff least hbound, Repetition.between_tooLarge_iff least hbound,
    fun h0 hle hfits => ?_⟩
  obtain ⟨r, hbetween, hleast, hmost⟩ := Repetition.exists_between_eq hbound h0 hle hfits
  refine ⟨r, hbetween, hleast, hmost, fun w rank p s i hp hi hlen => ?_⟩
  have hordered := Repetition.least_le_most hleast hmost hle
  obtain ⟨o, ho⟩ := exists_repeats hp hi hlen
  exact ⟨⟨o, ho.comesTo hordered hi hlen⟩, fun o => times_comesTo_iff hp hi hlen hordered⟩

/-- Three turns at most, of which the third consumes nothing: with a greatest count this is no
reason to give up, and the failure behind it is reported. -/
theorem repetition_comes_to_of_idle_turn :
    Repetition.between (.int 1) (.int 3) = .ok ⟨1, some 3⟩ ∧
    (Parser.string "a").optional.Direct (World.Direct {} 0) ∧
    ((Parser.string "a").optional.times ⟨1, some 3⟩).ComesTo {} ['a', 'a', 'b'] 0
      (.ok ⟨true, 2, .list [.str "a", .str "a", .null], 2, .singleton "'a'"⟩) := by
  have hbetween : Repetition.between (.int 1) (.int 3) = .ok ⟨1, some 3⟩ := rfl
  have hdirect : (Parser.string "a").optional.Direct (World.Direct {} 0) :=
    .orElse (.base (.primitive (.string _))) (.base (.primitive (.pure _)))
  have hfits (n : Int) (hn : ((3 : Int) : WithTop Int) = n) : Binary64.ofInt? n ≠ none := by
    cases WithTop.coe_inj.mp hn
    exact Option.isSome_iff_ne_none.mp (by decide +kernel)
  obtain ⟨r, hr, -, -, hmeaning⟩ := (repetition_comes_to 1 _ _ (.count 3)).2.2 (by decide)
    (WithTop.coe_le_coe.mpr (by decide)) hfits
  cases hbetween.symm.trans hr
  refine ⟨hbetween, hdirect, ((hmeaning {} 0 _ ['a', 'a', 'b'] 0 hdirect (by decide)
    (by decide)).2 _).mpr ?_⟩
  have first : Turns {} ['a', 'a', 'b'] (Parser.string "a").optional ⟨1, some 3⟩ 0
      [.ok 1 (.str "a")] 1 :=
    .turn .start (comesTo_of_run fun _ _ => rfl) rfl (by simp)
  have second : Turns {} ['a', 'a', 'b'] (Parser.string "a").optional ⟨1, some 3⟩ 0
      ([.ok 1 (.str "a")] ++ [.ok 2 (.str "a")]) 2 :=
    .turn first (comesTo_of_run fun _ _ => rfl) rfl (by simp)
  have third : Turns {} ['a', 'a', 'b'] (Parser.string "a").optional ⟨1, some 3⟩ 0
      ([.ok 1 (.str "a")] ++ [.ok 2 (.str "a")] ++ [⟨true, 2, .null, 2, .singleton "'a'"⟩]) 2 :=
    .turn second (comesTo_of_run fun _ _ => rfl) rfl (by simp)
  refine .full third rfl ⟨⟨rfl, fun d => ?_⟩, rfl, rfl, rfl⟩
  simp [Reply.ok]

/-- Not all bounds in order make a repetition: an integer that no double can hold is refused. -/
theorem not_forall_repetition_exists :
    ¬ ∀ least greatest : Int, 0 ≤ least → least ≤ greatest →
      ∃ r, Repetition.between (.int least) (.int greatest) = .ok r := by
  intro h
  obtain ⟨r, hr⟩ := h (10 ^ 400) (10 ^ 400) (by decide +kernel) (Int.le_refl _)
  have hlarge : Repetition.between (.int (10 ^ 400)) (.int (10 ^ 400)) = .error .tooLarge :=
    Repetition.between_of_none (by decide +kernel) (Int.le_refl _)
      (Option.isNone_iff_eq_none.mp (by decide +kernel))
  cases hlarge.symm.trans hr

end Parser

end Descent
