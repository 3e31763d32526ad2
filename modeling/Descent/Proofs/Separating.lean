/-
# Items and separators

A list with separators between its items reads an item and then pairs of a separator and an item;
a list with separators behind its items reads pairs of an item and a separator. Either list ends
where the last complete pair has ended. So a separator that no item follows is left to whoever
comes next, and an item that no separator follows is not part of a list of the second kind.
-/

import Descent.Proofs.Pairing

namespace Descent

namespace Parser

/-- What one or more items with separators between them come to, in terms of the first item and
of the pairs of a separator and an item behind it. -/
inductive Itemizes (w : World) (s : Text) (p sep : Parser) (i : Int) : Except Fault Reply → Prop
  /-- The first item ends in a fault. -/
  | raised {f : Fault} (first : p.ComesTo w s i (.error f)) : Itemizes w s p sep i (.error f)
  /-- There is no first item, and its reply is that of the list. -/
  | refused {t : Reply} (first : p.ComesTo w s i (.ok t)) (missing : t.status = false) :
      Itemizes w s p sep i (.ok t)
  /-- A separator or the item behind it is missing, and the list ends in front of both. -/
  | stopped {t r : Reply} {ts : List (Reply × Reply)} {j : Int} {last : List Reply}
      (first : p.ComesTo w s i (.ok t)) (found : t.status = true)
      (pairs : Pairs w s sep p t.index ts j) (stop : Breaks w s sep p j (.ok last))
      (hr : r.Reports true j (.list (t.value :: ts.map (·.2.value)))
        (t :: (repliesOf ts ++ last))) : Itemizes w s p sep i (.ok r)
  /-- A separator and an item consume nothing, or one of them ends in a fault. -/
  | broken {t : Reply} {ts : List (Reply × Reply)} {j : Int} {f : Fault}
      (first : p.ComesTo w s i (.ok t)) (found : t.status = true)
      (pairs : Pairs w s sep p t.index ts j) (stop : Breaks w s sep p j (.error f)) :
      Itemizes w s p sep i (.error f)

variable {w : World} {s : Text} {p sep : Parser} {i : Int} {t r : Reply}
  {o : Except Fault Reply} {f : Fault}

theorem pairing_sepBy1 (w : World) (s : Text) (p sep : Parser) :
    Pairing w s p (sep.andThen p).many (fun a b => .list (a :: b.items)) (p.sepBy1 sep) :=
  pairing_bind_map w s p _ _

section Items

variable (h0 : 0 ≤ i) (hlen : i ≤ s.length)

include h0 hlen

theorem exists_comesTo_sepBy1 {ts : List (Reply × Reply)} {j : Int} {last : List Reply}
    (first : p.ComesTo w s i (.ok t)) (found : t.status = true)
    (pairs : Pairs w s sep p t.index ts j) (stop : Breaks w s sep p j (.ok last)) :
    ∃ r, (p.sepBy1 sep).ComesTo w s i (.ok r) ∧
      r.Reports true j (.list (t.value :: ts.map (·.2.value))) (t :: (repliesOf ts ++ last)) := by
  obtain ⟨-, hstart, hstop⟩ := first.inside found h0 hlen
  obtain ⟨u, hu, hreports⟩ :=
    pairs.exists_comesTo (pairing_andThen w s sep p) hstart hstop stop
  refine ⟨_, (pairing_sepBy1 w s p sep).both h0 hlen first found hu, ?_⟩
  exact {
    toJoins := (Reply.joins_singleton (first.neg_one_le_furthest h0 hlen)).following
      hreports.toJoins
    status_eq := by simp [hreports.status_eq]
    index_eq := by simp [hreports.index_eq]
    value_eq := by
      rw [Reply.following_value hreports.status_eq, hreports.value_eq]
      rfl }

theorem Itemizes.comesTo (h : Itemizes w s p sep i o) : (p.sepBy1 sep).ComesTo w s i o := by
  cases h with
  | raised first => exact (pairing_sepBy1 w s p sep).raised first
  | refused first missing => exact (pairing_sepBy1 w s p sep).refused first missing
  | stopped first found pairs stop hr =>
      obtain ⟨r', hrun, hr'⟩ := exists_comesTo_sepBy1 h0 hlen first found pairs stop
      rwa [hr.eq hr']
  | broken first found pairs stop =>
      obtain ⟨-, hstart, hstop⟩ := first.inside found h0 hlen
      exact (pairing_sepBy1 w s p sep).both h0 hlen first found
        (pairs.comesTo_error (pairing_andThen w s sep p) hstart hstop stop)

variable {rank : Nat} (hp : p.Direct (w.Direct rank)) (hsep : sep.Direct (w.Direct rank))

include hp hsep

theorem exists_itemizes : ∃ o, Itemizes w s p sep i o := by
  obtain ⟨f | t, first⟩ := Direct.exists_comesTo hp h0 hlen
  · exact ⟨_, .raised first⟩
  · cases found : t.status with
    | false => exact ⟨_, .refused first found⟩
    | true =>
        obtain ⟨-, hstart, hstop⟩ := first.inside found h0 hlen
        obtain ⟨ts, j, f | last, pairs, stop⟩ :=
          Pairs.start.exists_breaks hsep hp hstart hstop
        · exact ⟨_, .broken first found pairs stop⟩
        · obtain ⟨r, -, hr⟩ := exists_comesTo_sepBy1 h0 hlen first found pairs stop
          exact ⟨_, .stopped first found pairs stop hr⟩

/-- One or more items come to what the first item and the pairs behind it lead to. -/
theorem sepBy1_comesTo_iff (o : Except Fault Reply) :
    (p.sepBy1 sep).ComesTo w s i o ↔ Itemizes w s p sep i o :=
  comesTo_iff_of_exists (exists_itemizes h0 hlen hp hsep) (fun _ h => h.comesTo h0 hlen) o

end Items

theorem comesTo_pure (w : World) (s : Text) (i : Int) (v : Value) :
    (Parser.pure v).ComesTo w s i (.ok (.ok i v)) :=
  comesTo_of_run fun _ _ => rfl

section Fallback

variable {q : Parser} {u : Reply}

theorem ComesTo.orElse_of_success (h : p.ComesTo w s i (.ok t)) (hok : t.status = true) :
    (p.orElse q).ComesTo w s i (.ok t) := by
  refine h.bind (fun _ => rfl) ?_
  simp only [hok, if_true]
  exact .pure _

theorem ComesTo.orElse_of_error (h : p.ComesTo w s i (.error f)) :
    (p.orElse q).ComesTo w s i (.error f) :=
  h.bind_error fun _ => rfl

theorem ComesTo.orElse_of_failure (h : p.ComesTo w s i (.ok t)) (hfail : t.status = false)
    (hq : q.ComesTo w s i (.ok u)) : (p.orElse q).ComesTo w s i (.ok (u.mergeWith t)) := by
  refine h.bind (fun _ => rfl) ?_
  simp only [hfail, Bool.false_eq_true, if_false]
  exact .bind_ok (Run.Yields.succ_iff.mpr hq) (.pure _)

end Fallback

section Lists

variable {rank : Nat} (hp : p.Direct (w.Direct rank)) (hsep : sep.Direct (w.Direct rank))
  (h0 : 0 ≤ i) (hlen : i ≤ s.length)

include hp hsep h0 hlen

theorem exists_comesTo_items : ∃ o, (p.sepBy1 sep).ComesTo w s i o := by
  obtain ⟨o, ho⟩ := exists_itemizes h0 hlen hp hsep
  exact ⟨o, ho.comesTo h0 hlen⟩

/-- A list of one or more items fails as its first item does. -/
theorem sepBy1_failure_iff (hfail : t.status = false) :
    (p.sepBy1 sep).ComesTo w s i (.ok t) ↔ p.ComesTo w s i (.ok t) := by
  rw [sepBy1_comesTo_iff h0 hlen hp hsep]
  constructor
  · intro h
    cases h with
    | refused first missing => exact first
    | stopped first found pairs stop hr =>
        rw [hr.status_eq] at hfail
        cases hfail
  · exact fun first => .refused first hfail

/-- A list of one or more items stops where an item ends. -/
theorem sepBy1_index (h : (p.sepBy1 sep).ComesTo w s i (.ok r)) (hok : r.status = true) :
    ∃ k u, p.ComesTo w s k (.ok u) ∧ u.status = true ∧ r.index = u.index := by
  rw [sepBy1_comesTo_iff h0 hlen hp hsep] at h
  cases h with
  | refused first missing =>
      rw [missing] at hok
      cases hok
  | stopped first found pairs stop hr =>
      rw [hr.index_eq]
      obtain heq | hlater := pairs.due
      · exact ⟨_, _, first, found, heq⟩
      · exact hlater

/-- Any number of items are one or more, if there is a first one. -/
theorem sepBy_comesTo_iff (hfound : ∀ t, p.ComesTo w s i (.ok t) → t.status = true)
    (o : Except Fault Reply) :
    (p.sepBy sep).ComesTo w s i o ↔ (p.sepBy1 sep).ComesTo w s i o := by
  refine comesTo_iff_of_exists (exists_comesTo_items hp hsep h0 hlen) (fun o ho => ?_) o
  cases o with
  | error f => exact ho.orElse_of_error
  | ok r =>
      cases hr : r.status with
      | true => exact ho.orElse_of_success hr
      | false =>
          have hsome := hfound r ((sepBy1_failure_iff hp hsep h0 hlen hr).mp ho)
          rw [hr] at hsome
          cases hsome

/-- Without a first item there are no items. -/
theorem sepBy_comesTo_iff_of_failure (hfirst : p.ComesTo w s i (.ok t)) (hfail : t.status = false)
    (o : Except Fault Reply) :
    (p.sepBy sep).ComesTo w s i o ↔ ∃ r, o = .ok r ∧ r.Reports true i (.list []) [t] := by
  have hrun : (p.sepBy sep).ComesTo w s i (.ok ((Reply.ok i (.list [])).mergeWith t)) :=
    ((sepBy1_failure_iff hp hsep h0 hlen hfail).mpr hfirst).orElse_of_failure hfail
      (comesTo_pure w s i _)
  have hreports : ((Reply.ok i (.list [])).mergeWith t).Reports true i (.list []) [t] :=
    { toJoins := (Reply.joins_singleton (hfirst.neg_one_le_furthest h0 hlen)).ok_mergeWith i _
      status_eq := by simp
      index_eq := by simp
      value_eq := by simp }
  have hsome : ∃ (o : Except Fault Reply) (r : Reply), o = .ok r ∧
      r.Reports true i (.list []) [t] := ⟨_, _, rfl, hreports⟩
  refine comesTo_iff_of_exists hsome ?_ o
  rintro _ ⟨r, rfl, hr⟩
  rwa [hr.eq hreports]

theorem exists_comesTo_sepBy : ∃ o, (p.sepBy sep).ComesTo w s i o := by
  obtain ⟨f | r, h⟩ := exists_comesTo_items hp hsep h0 hlen
  · exact ⟨_, h.orElse_of_error⟩
  · cases hr : r.status with
    | true => exact ⟨_, h.orElse_of_success hr⟩
    | false => exact ⟨_, h.orElse_of_failure hr (comesTo_pure w s i _)⟩

/-- Items that are each ended by a separator are pairs of both. -/
theorem endBy_comesTo_iff (o : Except Fault Reply) :
    (p.endBy sep).ComesTo w s i o ↔ PairsUp w s p sep (fun v _ => v) i o :=
  (pairing_skip w s p sep).many_comesTo_iff hp hsep h0 hlen

/-- Items that are each ended by a separator stop where they have started or where a separator
ends, and never fail. -/
theorem endBy_index (h : (p.endBy sep).ComesTo w s i (.ok r)) :
    r.status = true ∧ (r.index = i ∨
      ∃ k u, sep.ComesTo w s k (.ok u) ∧ u.status = true ∧ r.index = u.index) := by
  rw [endBy_comesTo_iff hp hsep h0 hlen] at h
  cases h with
  | stopped pairs stop hr =>
      rw [hr.index_eq]
      exact ⟨hr.status_eq, pairs.due⟩

end Lists

/-- Lists never swallow a separator that is not followed by an item, or an item that is not
followed by its separator. One or more items fail exactly as their first item does. If there is
a first item, pairs of a separator and an item are read as long as both are there, and the list
stops where its last item ends; it gives up at a pair that consumes nothing. Any number of items
does the same if there is a first item, and is empty otherwise. Items that are each ended by a
separator are pairs of an item and a separator, and the list stops at its start or where the
separator of its last pair ends. In each case the list reports all failures on the way, and what
one of the two parsers ends in is passed on if it is a fault. -/
theorem separators_stay_between_items (w : World) (rank : Nat) (p sep : Parser) (s : Text) (i : Int)
    (hp : p.Direct (w.Direct rank)) (hsep : sep.Direct (w.Direct rank)) (hi : 0 ≤ i)
    (hlen : i ≤ s.length) :
    ((∃ o, (p.sepBy1 sep).ComesTo w s i o) ∧
      (∀ o, (p.sepBy1 sep).ComesTo w s i o ↔ Itemizes w s p sep i o) ∧
      (∀ t, t.status = false →
        ((p.sepBy1 sep).ComesTo w s i (.ok t) ↔ p.ComesTo w s i (.ok t))) ∧
      ∀ r, (p.sepBy1 sep).ComesTo w s i (.ok r) → r.status = true →
        ∃ k u, p.ComesTo w s k (.ok u) ∧ u.status = true ∧ r.index = u.index) ∧
    ((∃ o, (p.sepBy sep).ComesTo w s i o) ∧
      ((∀ t, p.ComesTo w s i (.ok t) → t.status = true) → ∀ o,
        ((p.sepBy sep).ComesTo w s i o ↔ (p.sepBy1 sep).ComesTo w s i o)) ∧
      ∀ t, p.ComesTo w s i (.ok t) → t.status = false → ∀ o,
        ((p.sepBy sep).ComesTo w s i o ↔ ∃ r, o = .ok r ∧ r.Reports true i (.list []) [t])) ∧
    ((∃ o, (p.endBy sep).ComesTo w s i o) ∧
      (∀ o, (p.endBy sep).ComesTo w s i o ↔ PairsUp w s p sep (fun v _ => v) i o) ∧
      ∀ r, (p.endBy sep).ComesTo w s i (.ok r) →
        r.status = true ∧ (r.index = i ∨
          ∃ k u, sep.ComesTo w s k (.ok u) ∧ u.status = true ∧ r.index = u.index)) := by
  obtain ⟨o, hends⟩ := exists_pairsUp hp hsep hi hlen (pairing_skip w s p sep)
  refine ⟨⟨exists_comesTo_items hp hsep hi hlen, sepBy1_comesTo_iff hi hlen hp hsep,
      fun t => sepBy1_failure_iff hp hsep hi hlen, fun r => sepBy1_index hp hsep hi hlen⟩,
    ⟨exists_comesTo_sepBy hp hsep hi hlen, sepBy_comesTo_iff hp hsep hi hlen,
      fun t => sepBy_comesTo_iff_of_failure hp hsep hi hlen⟩,
    ⟨o, (endBy_comesTo_iff hp hsep hi hlen o).mpr hends⟩, endBy_comesTo_iff hp hsep hi hlen,
    fun r => endBy_index hp hsep hi hlen⟩

/-- Two items, each with a separator behind it, from the second character on: the list with
separators between its items leaves the last separator, and the other list takes it. -/
theorem separators_stay_between_items_of_dangling_separator :
    let p := Parser.string "a"
    let sep := Parser.string ","
    let s := ['-', 'a', ',', 'a', ',', '-']
    (p.Direct (World.Direct {} 0) ∧ sep.Direct (World.Direct {} 0)) ∧
    (0 ≤ (1 : Int) ∧ (1 : Int) ≤ s.length) ∧
    (p.sepBy1 sep).ComesTo {} s 1
      (.ok ⟨true, 4, .list [.str "a", .str "a"], 5, .singleton "'a'"⟩) ∧
    (p.endBy sep).ComesTo {} s 1
      (.ok ⟨true, 5, .list [.str "a", .str "a"], 5, .singleton "'a'"⟩) := by
  intro p sep s
  have hp : p.Direct (World.Direct {} 0) := .base (.primitive (.string _))
  have hsep : sep.Direct (World.Direct {} 0) := .base (.primitive (.string _))
  obtain ⟨⟨-, hlist, -⟩, -, -, hended, -⟩ := separators_stay_between_items {} 0 p sep s 1 hp hsep
    (by decide) (by decide)
  have item : p.ComesTo {} s 1 (.ok (.ok 2 (.str "a"))) := comesTo_of_run fun _ _ => rfl
  have comma : sep.ComesTo {} s 2 (.ok (.ok 3 (.str ","))) := comesTo_of_run fun _ _ => rfl
  have item' : p.ComesTo {} s 3 (.ok (.ok 4 (.str "a"))) := comesTo_of_run fun _ _ => rfl
  have comma' : sep.ComesTo {} s 4 (.ok (.ok 5 (.str ","))) := comesTo_of_run fun _ _ => rfl
  have none : p.ComesTo {} s 5 (.ok (.error 5 "'a'")) := comesTo_of_run fun _ _ => rfl
  refine ⟨⟨hp, hsep⟩, by decide, (hlist _).mpr ?_, (hended _).mpr ?_⟩
  · have pairs := Pairs.start.pair comma rfl item' rfl (by decide)
    exact .stopped item rfl pairs (.second comma' rfl none rfl)
      ⟨⟨rfl, by simp [repliesOf, Reply.ok, Reply.error]⟩, rfl, rfl, rfl⟩
  · have pairs := (Pairs.start.pair item rfl comma rfl (by decide)).pair item' rfl comma' rfl
      (by decide)
    exact .stopped pairs (.first none rfl)
      ⟨⟨rfl, by simp [repliesOf, Reply.ok, Reply.error]⟩, rfl, rfl, rfl⟩

end Parser

end Descent
