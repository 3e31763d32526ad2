/-
# The language of a pattern

A pattern tree stands for a set of texts, put together from single characters by
union, concatenation and repetition. What a tree takes from a text is always a text of
its language, whatever has to match after it.
-/

import Descent.Pattern
import Mathlib.Computability.Language

namespace Descent.Pattern

open scoped Computability

/-- The texts of one character that meets a test. -/
def oneOf (holds : Char → Bool) : Language Char :=
  {t | ∃ x, holds x = true ∧ t = [x]}

/-- The texts of some turns, without a bound or at most so many. -/
def turnsOf (L : Language Char) : Option Nat → Language Char
  | none => L∗
  | some extra => (1 + L) ^ extra

/-- The texts that a tree may take. Conditions on the surroundings take nothing, and what
a group took before may be anything. -/
def Node.language : Node → Language Char
  | .empty => 1
  | .set a outside items => oneOf fun x => items.any (·.covers a x) != outside
  | .any lineBreaks => oneOf fun x => lineBreaks || x != '\n'
  | .cat first second => first.language * second.language
  | .either first second => first.language + second.language
  | .repeated _ least extra body => body.language ^ least * turnsOf body.language extra
  | .group _ body => body.language
  | .atomic body => body.language
  | .again .. => ⊤
  | .ahead .. => 1
  | .behind .. => 1
  | .anchor _ => 1

/-- What a way of matching takes from the text is in a language, and it hands on the rest. -/
def Consumes (L : Language Char) (turn : Continuation → Continuation) : Prop :=
  ∀ (k : Continuation) (c found : Cursor), turn k c = some found →
    ∃ t ∈ L, ∃ next : Cursor, c.rest = t ++ next.rest ∧ next.offset = c.offset + t.length ∧
      k next = some found

namespace Consumes

variable {L L' : Language Char} {turn turn' : Continuation → Continuation}

theorem mono (h : Consumes L turn) (himp : ∀ t ∈ L, t ∈ L') : Consumes L' turn := by
  intro k c found hrun
  obtain ⟨t, ht, next, hnext⟩ := h k c found hrun
  exact ⟨t, himp t ht, next, hnext⟩

/-- Handing on the very place that was given. -/
theorem of_stay (hL : [] ∈ L) (h : ∀ k c found, turn k c = some found →
    ∃ taken, k { c with taken } = some found) : Consumes L turn := by
  intro k c found hrun
  obtain ⟨taken, hk⟩ := h k c found hrun
  exact ⟨[], hL, { c with taken }, rfl, rfl, hk⟩

/-- One way of matching after another. -/
theorem comp (h : Consumes L turn) (h' : Consumes L' turn') :
    Consumes (L * L') fun k => turn (turn' k) := by
  intro k c found hrun
  obtain ⟨t, ht, mid, hrest, hoffset, hrun'⟩ := h (turn' k) c found hrun
  obtain ⟨t', ht', next, hrest', hoffset', hk⟩ := h' k mid found hrun'
  refine ⟨t ++ t', Language.append_mem_mul ht ht', next, ?_, ?_, hk⟩
  · rw [hrest, hrest', List.append_assoc]
  · rw [hoffset', hoffset, List.length_append, Nat.add_assoc]

theorem exactTurns (h : Consumes L turn) (count : Nat) :
    Consumes (L ^ count) (Pattern.exactTurns turn count) := by
  induction count with
  | zero => exact of_stay (by simp) fun k c found hrun => ⟨c.taken, hrun⟩
  | succ count ih =>
      rw [pow_succ']
      exact h.comp ih

theorem nil_mem_turnsOf (L : Language Char) (left : Option Nat) : [] ∈ turnsOf L left := by
  cases left with
  | none => exact Language.nil_mem_kstar L
  | some extra =>
      induction extra with
      | zero => exact Language.nil_mem_one
      | succ extra ih =>
          have hturn : [] ∈ 1 + L := (Language.mem_add ..).mpr (.inl Language.nil_mem_one)
          simp only [turnsOf] at ih ⊢
          rw [pow_succ']
          exact Language.append_mem_mul hturn ih

/-- A turn before the others is one of them. -/
theorem append_mem_turnsOf {t t' : Text} {left : Option Nat} (hleft : left ≠ some 0) (ht : t ∈ L)
    (ht' : t' ∈ turnsOf L (left.map (· - 1))) : t ++ t' ∈ turnsOf L left := by
  cases left with
  | none =>
      have hstar : L * L∗ ≤ L∗ := mul_kstar_le_kstar
      exact hstar (Language.append_mem_mul ht ht')
  | some extra =>
      cases extra with
      | zero => exact absurd rfl hleft
      | succ extra =>
          have hturn : t ∈ 1 + L := (Language.mem_add ..).mpr (.inr ht)
          simp only [turnsOf]
          rw [pow_succ']
          exact Language.append_mem_mul hturn ht'

theorem furtherTurns {left : Option Nat} (h : Consumes L turn)
    (h' : Consumes (turnsOf L (left.map (· - 1))) turn') (hleft : left ≠ some 0) :
    Consumes (turnsOf L left) fun k => turn (turn' k) := by
  refine (h.comp h').mono ?_
  rintro _ ⟨t, ht, t', ht', rfl⟩
  exact append_mem_turnsOf hleft ht ht'

/-- If a repetition may make a further turn, its count is not used up. -/
theorem left_ne_zero {left last : Option Nat} {c : Cursor} (h : ¬ turnsEnd left last c = true) :
    left ≠ some 0 := by
  rintro rfl
  exact h (by simp [turnsEnd])

theorem mostTurns (h : Consumes L turn) (budget : Nat) (left last : Option Nat) :
    Consumes (turnsOf L left) fun k => Pattern.mostTurns turn k budget left last := by
  induction budget generalizing left last with
  | zero => exact of_stay (nil_mem_turnsOf L left) fun k c found hrun => ⟨c.taken, hrun⟩
  | succ budget ih =>
      intro k c found hrun
      have stay (hk : k c = some found) : ∃ t ∈ turnsOf L left, ∃ next : Cursor,
          c.rest = t ++ next.rest ∧ next.offset = c.offset + t.length ∧ k next = some found :=
        ⟨[], nil_mem_turnsOf L left, c, rfl, rfl, hk⟩
      simp only [Pattern.mostTurns] at hrun
      split at hrun
      · exact stay hrun
      · next hend =>
        split at hrun
        · next hturn =>
          exact h.furtherTurns (ih _ _) (left_ne_zero hend) k c found (hturn.trans hrun)
        · exact stay hrun

theorem fewestTurns (h : Consumes L turn) (budget : Nat) (left last : Option Nat) :
    Consumes (turnsOf L left) fun k => Pattern.fewestTurns turn k budget left last := by
  induction budget generalizing left last with
  | zero => exact of_stay (nil_mem_turnsOf L left) fun k c found hrun => ⟨c.taken, hrun⟩
  | succ budget ih =>
      intro k c found hrun
      simp only [Pattern.fewestTurns] at hrun
      split at hrun
      · next hk => exact ⟨[], nil_mem_turnsOf L left, c, rfl, rfl, hk.trans hrun⟩
      · split at hrun
        · cases hrun
        · next hend =>
          exact h.furtherTurns (ih _ _) (left_ne_zero hend) k c found hrun

/-- Matching in one way only. -/
theorem once (h : Consumes L turn) :
    Consumes L fun k c =>
      match turn some c with
      | some next => k next
      | none => none := by
  intro k c found hrun
  simp only at hrun
  split at hrun
  · next mid hmid =>
    obtain ⟨t, ht, next, hrest, hoffset, heq⟩ := h some c mid hmid
    obtain rfl : next = mid := Option.some.inj heq
    exact ⟨t, ht, next, hrest, hoffset, hrun⟩
  · cases hrun

theorem allTurns (h : Consumes L turn) (budget : Nat) (left last : Option Nat) (c : Cursor) :
    ∃ t ∈ turnsOf L left, c.rest = t ++ (Pattern.allTurns turn budget left last c).rest ∧
      (Pattern.allTurns turn budget left last c).offset = c.offset + t.length := by
  induction budget generalizing left last c with
  | zero => exact ⟨[], nil_mem_turnsOf L left, rfl, rfl⟩
  | succ budget ih =>
      simp only [Pattern.allTurns]
      split
      · exact ⟨[], nil_mem_turnsOf L left, rfl, rfl⟩
      · next hend =>
        split
        · next mid hmid =>
          obtain ⟨t, ht, next, hrest, hoffset, heq⟩ := h some c mid hmid
          obtain rfl : next = mid := Option.some.inj heq
          obtain ⟨t', ht', hrest', hoffset'⟩ := ih (left.map (· - 1)) (some c.offset) next
          refine ⟨t ++ t', ?_, ?_, ?_⟩
          · exact append_mem_turnsOf (left_ne_zero hend) ht ht'
          · rw [hrest, List.append_assoc, ← hrest']
          · rw [hoffset', hoffset, List.length_append, Nat.add_assoc]
        · exact ⟨[], nil_mem_turnsOf L left, rfl, rfl⟩

end Consumes

/-- Taking a character that meets a test. -/
theorem Cursor.take?_eq_some {c next : Cursor} {holds : Char → Bool}
    (h : c.take? holds = some next) : ∃ x, holds x = true ∧ c.rest = [x] ++ next.rest ∧
      next.offset = c.offset + 1 := by
  unfold Cursor.take? at h
  split at h
  · cases h
  · next x rest hrest =>
    split at h
    · next hx =>
      cases h
      exact ⟨x, hx, hrest, rfl⟩
    · cases h

theorem Cursor.follow_eq_some (plain caseless : Bool) (text : Text) {c next : Cursor}
    (h : Cursor.follow plain caseless text c = some next) :
    ∃ t, c.rest = t ++ next.rest ∧ next.offset = c.offset + t.length := by
  induction text generalizing c with
  | nil =>
      cases h
      exact ⟨[], rfl, rfl⟩
  | cons x text ih =>
      simp only [Cursor.follow] at h
      split at h
      · cases h
      · next mid hmid =>
        obtain ⟨y, -, hrest, hoffset⟩ := Cursor.take?_eq_some hmid
        obtain ⟨t, hrest', hoffset'⟩ := ih h
        refine ⟨y :: t, by rw [hrest, hrest']; rfl, ?_⟩
        rw [hoffset', hoffset, List.length_cons]
        omega

/-- One character that meets a test. -/
theorem consumes_take? (holds : Char → Bool) :
    Consumes (oneOf holds) fun k c =>
      match c.take? holds with
      | some next => k next
      | none => none := by
  intro k c found hrun
  simp only at hrun
  split at hrun
  · next next hnext =>
    obtain ⟨x, hx, hrest, hoffset⟩ := Cursor.take?_eq_some hnext
    exact ⟨[x], ⟨x, hx, rfl⟩, next, hrest, hoffset, hrun⟩
  · cases hrun

/-- What a tree takes is a text of its language. -/
theorem Node.consumes_run (whole : Text) (n : Node) : Consumes n.language (n.run whole) := by
  induction n with
  | empty => exact .of_stay Language.nil_mem_one fun k c found hrun => ⟨c.taken, hrun⟩
  | set a outside items => exact consumes_take? _
  | any lineBreaks => exact consumes_take? _
  | cat first second ihf ihs => exact ihf.comp ihs
  | either first second ihf ihs =>
      intro k c found hrun
      simp only [Node.run] at hrun
      split at hrun
      · next hfirst =>
        have himp : ∀ t ∈ first.language, t ∈ (either first second).language :=
          fun t ht => (Language.mem_add ..).mpr (.inl ht)
        exact ihf.mono himp k c found (hfirst.trans hrun)
      · have himp : ∀ t ∈ second.language, t ∈ (either first second).language :=
          fun t ht => (Language.mem_add ..).mpr (.inr ht)
        exact ihs.mono himp k c found hrun
  | repeated greed least extra body ih =>
      cases greed with
      | most =>
          have further : Consumes (turnsOf body.language extra) fun k c =>
              mostTurns (body.run whole) k (turnBudget c) extra none c :=
            fun k c found hrun => ih.mostTurns _ extra none k c found hrun
          exact (ih.exactTurns least).comp further
      | fewest =>
          have further : Consumes (turnsOf body.language extra) fun k c =>
              fewestTurns (body.run whole) k (turnBudget c) extra none c :=
            fun k c found hrun => ih.fewestTurns _ extra none k c found hrun
          exact (ih.exactTurns least).comp further
      | possessive =>
          have further : Consumes (turnsOf body.language extra) fun k c =>
              k (allTurns (body.run whole) (turnBudget c) extra none c) := by
            intro k c found hrun
            obtain ⟨t, ht, hrest, hoffset⟩ := ih.allTurns (turnBudget c) extra none c
            exact ⟨t, ht, _, hrest, hoffset, hrun⟩
          exact (ih.once.exactTurns least).comp further
  | group number body ih =>
      intro k c found hrun
      obtain ⟨t, ht, next, hrest, hoffset, hk⟩ := ih _ c found hrun
      exact ⟨t, ht, c.close next number, hrest, hoffset, hk⟩
  | again number a =>
      intro k c found hrun
      simp only [Node.run] at hrun
      split at hrun
      · cases hrun
      · split at hrun
        · next next hnext =>
          obtain ⟨t, hrest, hoffset⟩ := Cursor.follow_eq_some a.plain a.caseless _ hnext
          exact ⟨t, trivial, next, hrest, hoffset, hrun⟩
        · cases hrun
  | ahead holds body ih =>
      refine .of_stay Language.nil_mem_one fun k c found hrun => ?_
      cases holds <;> simp only [Node.run] at hrun <;> split at hrun
      · cases hrun
      · exact ⟨c.taken, hrun⟩
      · exact ⟨_, hrun⟩
      · cases hrun
  | behind holds width body ih =>
      refine .of_stay Language.nil_mem_one fun k c found hrun => ?_
      cases holds <;> simp only [Node.run] at hrun <;> split at hrun
      · exact ⟨c.taken, hrun⟩
      · split at hrun
        · cases hrun
        · exact ⟨c.taken, hrun⟩
      · cases hrun
      · split at hrun
        · exact ⟨_, hrun⟩
        · cases hrun
  | anchor a =>
      refine .of_stay Language.nil_mem_one fun k c found hrun => ?_
      simp only [Node.run] at hrun
      split at hrun
      · exact ⟨c.taken, hrun⟩
      · cases hrun
  | atomic body ih => exact ih.once

/-- A match at an offset of the text takes a text of the language of the pattern, which as a
whole is group zero. -/
theorem match?_eq_some (p : Pattern) (group : Nat) (s : Text) {offset : Int} {stop : Nat}
    {taken : Option Text} (hlength : offset ≤ s.length)
    (h : p.match? group s offset = some (stop, taken)) :
    ∃ t ∈ p.root.language, ∃ rest, s.drop offset.toNat = t ++ rest ∧
      stop = offset.toNat + t.length ∧ (group = 0 → taken = some t) := by
  simp only [match?] at h
  have hstart : min offset.toNat s.length = offset.toNat := by omega
  rw [hstart] at h
  split at h
  · cases h
  · next found hfound =>
    obtain ⟨t, ht, next, hrest, hnext, heq⟩ := p.root.consumes_run s some _ found hfound
    obtain rfl : next = found := Option.some.inj heq
    simp only at hrest hnext
    split at h
    · next hgroup =>
      cases h
      refine ⟨t, ht, next.rest, hrest, hnext, fun _ => ?_⟩
      rw [hrest, hnext, Nat.add_sub_cancel_left, List.take_left]
    · next hgroup =>
      cases h
      exact ⟨t, ht, next.rest, hrest, hnext, fun h => absurd h hgroup⟩

/-- A match at an offset of the text ends between that offset and the end. -/
theorem match?_extent (p : Pattern) (group : Nat) (s : Text) {offset : Int} {stop : Nat}
    {taken : Option Text} (hoffset : 0 ≤ offset) (hlength : offset ≤ s.length)
    (h : p.match? group s offset = some (stop, taken)) :
    offset ≤ stop ∧ stop ≤ s.length := by
  obtain ⟨t, -, rest, hrest, hstop, -⟩ := p.match?_eq_some group s hlength h
  have hlen := congrArg List.length hrest
  simp only [List.length_drop, List.length_append] at hlen
  omega

end Descent.Pattern
