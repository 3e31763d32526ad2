/-
# What a pattern takes

A tree tries its ways in order and takes the first one after which all the rest matches.
Where the next character decides between the ways, what it takes can be told from the text
alone. A tree is predictable before some characters if it takes every text of its language
wherever one of them, or the end, stands behind it: a repetition then goes on as long as its
part can be taken, and a choice leads to the branch that the first character belongs to.
-/

import Descent.Proofs.Pattern.Language

namespace Descent

namespace Text

/-- The text is empty or its first character is of a class. -/
def Begins (holds : Char → Prop) (t : Text) : Prop :=
  ∀ c ∈ t.head?, holds c

/-- The text is not empty and its first character is of a class. -/
def Starts (holds : Char → Prop) (t : Text) : Prop :=
  ∃ c ∈ t.head?, holds c

variable {holds holds' : Char → Prop} {t rest : Text} {c : Char}

@[simp] theorem begins_nil : Begins holds [] := by
  simp [Begins]

@[simp] theorem begins_cons : Begins holds (c :: t) ↔ holds c := by
  simp [Begins]

@[simp] theorem starts_cons : Starts holds (c :: t) ↔ holds c := by
  simp [Starts]

theorem Begins.mono (h : Begins holds t) (himp : ∀ c, holds c → holds' c) : Begins holds' t :=
  fun c hc => himp c (h c hc)

theorem Begins.append (h : Begins holds t) (hrest : Begins holds rest) :
    Begins holds (t ++ rest) := by
  cases t with
  | nil => exact hrest
  | cons c t => exact begins_cons.mpr (begins_cons.mp h)

theorem Starts.mono (h : Starts holds t) (himp : ∀ c, holds c → holds' c) : Starts holds' t :=
  h.imp fun c hc => ⟨hc.1, himp c hc.2⟩

theorem Starts.begins (h : Starts holds t) : Begins holds t := by
  obtain ⟨c, hc, hholds⟩ := h
  intro c' hc'
  rwa [Option.mem_unique hc' hc]

theorem Starts.append (h : Starts holds t) (rest : Text) : Starts holds (t ++ rest) := by
  cases t with
  | nil => simp [Starts] at h
  | cons c t => exact starts_cons.mpr (starts_cons.mp h)

theorem Starts.ne_nil (h : Starts holds t) : t ≠ [] := by
  rintro rfl
  simp [Starts] at h

end Text

namespace Pattern

open scoped Computability

namespace Node

/-- Given a text and what stands behind it, the tree takes the text, provided that what has
to match afterwards does so. -/
def Takes (n : Node) (t rest : Text) : Prop :=
  ∀ (whole : Text) (goal : Cursor → Prop) (k : Continuation) (c : Cursor), c.rest = t ++ rest →
    (∀ next : Cursor, next.rest = rest → next.offset = c.offset + t.length →
      ∃ found, k next = some found ∧ goal found) →
    ∃ found, n.run whole k c = some found ∧ goal found

/-- The tree takes nothing from the text, not even an empty part. -/
def Rejects (n : Node) (text : Text) : Prop :=
  ∀ (whole : Text) (k : Continuation) (c : Cursor), c.rest = text → n.run whole k c = none

/-- A text made of turns of a tree, one after another, until what stands behind them is
refused. -/
inductive Turns (n : Node) : Text → Text → Prop
  | nil {rest : Text} (h : n.Rejects rest) : Turns n [] rest
  | cons {t t' rest : Text} (h : n.Takes t (t' ++ rest)) (hne : t ≠ []) (h' : Turns n t' rest) :
      Turns n (t ++ t') rest

variable {n first second : Node} {t t' rest text : Text}

theorem Takes.cat (h : first.Takes t (t' ++ rest)) (h' : second.Takes t' rest) :
    (cat first second).Takes (t ++ t') rest := by
  intro whole goal k c hc hk
  refine h whole goal _ c (by rw [hc, List.append_assoc]) fun mid hmid hoffset => ?_
  refine h' whole goal k mid hmid fun next hnext hoffset' => hk next hnext ?_
  rw [hoffset', hoffset, List.length_append, Nat.add_assoc]

theorem Takes.either_left (h : first.Takes t rest) : (either first second).Takes t rest := by
  intro whole goal k c hc hk
  obtain ⟨found, hfound, hgoal⟩ := h whole goal k c hc hk
  exact ⟨found, by simp only [run, hfound], hgoal⟩

theorem Takes.either_right (hfirst : first.Rejects (t ++ rest)) (h : second.Takes t rest) :
    (either first second).Takes t rest := by
  intro whole goal k c hc hk
  obtain ⟨found, hfound, hgoal⟩ := h whole goal k c hc hk
  exact ⟨found, by simp only [run, hfirst whole k c hc, hfound], hgoal⟩

theorem Takes.group (number : Nat) (h : n.Takes t rest) : (group number n).Takes t rest := by
  intro whole goal k c hc hk
  exact h whole goal _ c hc fun next hnext hoffset => hk (c.close next number) hnext hoffset

/-- Further turns go on until they are refused. -/
theorem Turns.mostTurns (h : Turns n t rest) {whole : Text} {goal : Cursor → Prop}
    {k : Continuation} {c : Cursor} (hc : c.rest = t ++ rest) (budget : Nat) (last : Option Nat)
    (hbudget : t.length < budget) (hlast : last ≠ some c.offset)
    (hk : ∀ next : Cursor, next.rest = rest → next.offset = c.offset + t.length →
      ∃ found, k next = some found ∧ goal found) :
    ∃ found, mostTurns (n.run whole) k budget none last c = some found ∧ goal found := by
  have hopen {c : Cursor} {last : Option Nat} (hlast : last ≠ some c.offset) :
      turnsEnd none last c = false := by
    simp [turnsEnd, hlast]
  induction h generalizing c budget last with
  | nil hrejects =>
      obtain ⟨budget, rfl⟩ : ∃ m, budget = m + 1 := ⟨budget - 1, by omega⟩
      have hnone := hrejects whole
        (Pattern.mostTurns (n.run whole) k budget none (some c.offset)) c hc
      simp only [Pattern.mostTurns, hopen hlast, Option.map_none, hnone]
      exact hk c hc rfl
  | cons htakes hne _ ih =>
      obtain ⟨budget, rfl⟩ : ∃ m, budget = m + 1 := ⟨budget - 1, by omega⟩
      have hpos := List.length_pos_iff.mpr hne
      rw [List.length_append] at hbudget
      obtain ⟨found, hfound, hgoal⟩ := htakes whole goal
        (Pattern.mostTurns (n.run whole) k budget none (some c.offset)) c
        (by rw [hc, List.append_assoc]) fun mid hmid hoffset => by
          refine ih hmid budget _ (by omega) ?_ fun next hnext hoffset' => hk next hnext ?_
          · simp only [ne_eq, Option.some.injEq]
            omega
          · rw [hoffset', hoffset, List.length_append, Nat.add_assoc]
      refine ⟨found, ?_, hgoal⟩
      simp only [Pattern.mostTurns, hopen hlast, Option.map_none, hfound]
      rfl

theorem Turns.star (h : Turns n t rest) : (star n).Takes t rest := by
  intro whole goal k c hc hk
  refine h.mostTurns hc _ none ?_ (by simp) hk
  rw [turnBudget, hc, List.length_append]
  omega

theorem Takes.plus (h : n.Takes t (t' ++ rest)) (h' : Turns n t' rest) :
    (plus n).Takes (t ++ t') rest := by
  intro whole goal k c hc hk
  refine h whole goal _ c (by rw [hc, List.append_assoc]) fun mid hmid hoffset => ?_
  refine h'.star whole goal k mid hmid fun next hnext hoffset' => hk next hnext ?_
  rw [hoffset', hoffset, List.length_append, Nat.add_assoc]

theorem Rejects.plus (h : n.Rejects text) : (Node.plus n).Rejects text :=
  fun whole _ c hc => h whole _ c hc

theorem Takes.maybe (h : n.Takes t rest) : (maybe n).Takes t rest := by
  intro whole goal k c hc hk
  have hopen : turnsEnd (some 1) none c = false := by simp [turnsEnd]
  obtain ⟨budget, hbudget⟩ : ∃ m, turnBudget c = m + 1 := ⟨c.rest.length + 1, rfl⟩
  obtain ⟨found, hfound, hgoal⟩ := h whole goal
    (mostTurns (n.run whole) k budget (some 0) (some c.offset)) c hc fun mid hmid hoffset => by
      have hclosed : mostTurns (n.run whole) k budget (some 0) (some c.offset) mid = k mid := by
        cases budget with
        | zero => rfl
        | succ budget => simp [mostTurns, turnsEnd]
      rw [hclosed]
      exact hk mid hmid hoffset
  refine ⟨found, ?_, hgoal⟩
  change mostTurns (n.run whole) k (turnBudget c) (some 1) none c = some found
  rw [hbudget]
  simp only [mostTurns, hopen, Option.map_some, hfound]
  rfl

/-- A part that may be left out is left out where it is refused. -/
theorem Rejects.run_maybe {c : Cursor} (h : n.Rejects c.rest) (whole : Text) (k : Continuation) :
    (Node.maybe n).run whole k c = k c := by
  have hopen : turnsEnd (some 1) none c = false := by simp [turnsEnd]
  obtain ⟨budget, hbudget⟩ : ∃ m, turnBudget c = m + 1 := ⟨c.rest.length + 1, rfl⟩
  change mostTurns (n.run whole) k (turnBudget c) (some 1) none c = k c
  rw [hbudget]
  simp only [mostTurns, hopen, h whole _ c rfl]
  rfl

theorem Rejects.maybe (h : n.Rejects rest) : (Node.maybe n).Takes [] rest := by
  intro whole goal k c hc hk
  rw [List.nil_append] at hc
  subst hc
  rw [h.run_maybe]
  exact hk c rfl rfl

section Characters

variable {a : Alphabet} {outside : Bool} {items : List Item} {x : Char}

theorem takes_set (hx : (items.any (·.covers a x) != outside) = true) (rest : Text) :
    (set a outside items).Takes [x] rest := by
  intro whole goal k c hc hk
  have htake : c.take? (fun x => items.any (·.covers a x) != outside) =
      some { c with rest, offset := c.offset + 1 } := by
    simp only [Cursor.take?, hc, List.singleton_append, hx, if_true]
  simp only [run, htake]
  exact hk _ rfl rfl

theorem takes_any {lineBreaks : Bool} (hx : (lineBreaks || x != '\n') = true) (rest : Text) :
    (any lineBreaks).Takes [x] rest := by
  intro whole goal k c hc hk
  have htake : c.take? (fun x => lineBreaks || x != '\n') =
      some { c with rest, offset := c.offset + 1 } := by
    simp only [Cursor.take?, hc, List.singleton_append, hx, if_true]
  simp only [run, htake]
  exact hk _ rfl rfl

end Characters

section Languages

variable {holds holds' follow follow' : Char → Prop}

theorem language_maybe (n : Node) : (maybe n).language = 1 + n.language := by
  simp [maybe, language, turnsOf]

theorem language_star (n : Node) : (star n).language = n.language∗ := by
  simp [star, language, turnsOf]

theorem language_plus (n : Node) : (plus n).language = n.language * n.language∗ := by
  simp [plus, language, turnsOf]

/-- Every text of the tree starts with a character of a class. -/
def Opens (n : Node) (holds : Char → Prop) : Prop :=
  ∀ t ∈ n.language, Text.Starts holds t

theorem Opens.mono (h : n.Opens holds)
    (himp : ∀ c, holds c → holds' c) : n.Opens holds' :=
  fun t ht => (h t ht).mono himp

theorem Opens.cat (h : first.Opens holds) : (cat first second).Opens holds := by
  rintro _ ⟨t, ht, t', -, rfl⟩
  exact (h t ht).append t'

theorem Opens.cat_maybe (h : first.Opens holds) (h' : second.Opens holds) :
    (Node.cat (maybe first) second).Opens holds := by
  rintro _ ⟨t, ht, t', ht', rfl⟩
  rw [language_maybe] at ht
  rcases (Language.mem_add ..).mp ht with rfl | ht
  · exact h' t' ht'
  · exact (h t ht).append t'

theorem Opens.either (h : first.Opens holds) (h' : second.Opens holds) :
    (either first second).Opens holds := by
  intro t ht
  exact ((Language.mem_add ..).mp ht).elim (h t) (h' t)

theorem Opens.plus (h : n.Opens holds) : (plus n).Opens holds := by
  rw [Opens, language_plus]
  rintro _ ⟨t, ht, t', -, rfl⟩
  exact (h t ht).append t'

/-- A part that may be left out takes nothing or starts as it would otherwise. -/
theorem Opens.begins_maybe (h : n.Opens holds) (ht : t ∈ (maybe n).language) :
    Text.Begins holds t := by
  rw [language_maybe] at ht
  rcases (Language.mem_add ..).mp ht with rfl | ht
  · exact Text.begins_nil
  · exact (h t ht).begins

/-- A tree takes nothing from a text that starts with none of its texts. -/
theorem rejects_of_not_isPrefix (h : ∀ t ∈ n.language, ¬ t <+: text) : n.Rejects text := by
  intro whole k c hc
  by_contra hsome
  obtain ⟨found, hfound⟩ := Option.ne_none_iff_exists'.mp hsome
  obtain ⟨t, ht, next, hrest, -⟩ := n.consumes_run whole k c found hfound
  exact h t ht ⟨next.rest, hrest.symm.trans hc⟩

/-- A tree takes nothing where none of its texts can start. -/
theorem Opens.rejects (h : n.Opens holds) (htext : Text.Begins (fun c => ¬ holds c) text) :
    n.Rejects text := by
  refine rejects_of_not_isPrefix ?_
  rintro t ht ⟨rest, rfl⟩
  obtain ⟨x, hx, hholds⟩ := (h t ht).append rest
  exact htext x hx hholds

/-- The tree takes every text of its language if what stands behind it begins with a
character of a class. -/
def Predictable (n : Node) (follow : Char → Prop) : Prop :=
  ∀ t ∈ n.language, ∀ rest, Text.Begins follow rest → n.Takes t rest

theorem Predictable.mono (h : n.Predictable follow) (himp : ∀ c, follow' c → follow c) :
    n.Predictable follow' :=
  fun t ht rest hrest => h t ht rest (hrest.mono himp)

/-- What follows the first part is the second one, or what stands behind that. -/
theorem Predictable.cat (h : first.Predictable follow) (h' : second.Predictable follow')
    (hjoint : ∀ t ∈ second.language, ∀ rest, Text.Begins follow' rest →
      Text.Begins follow (t ++ rest)) : (cat first second).Predictable follow' := by
  rintro _ ⟨t, ht, t', ht', rfl⟩ rest hrest
  exact (h t ht _ (hjoint t' ht' rest hrest)).cat (h' t' ht' rest hrest)

/-- The second branch must not start as the first one does. -/
theorem Predictable.either (h : first.Predictable follow) (h' : second.Predictable follow)
    (hfirst : first.Opens holds) (hsecond : second.Opens fun c => ¬ holds c) :
    (either first second).Predictable follow := by
  intro t ht rest hrest
  rcases (Language.mem_add ..).mp ht with ht | ht
  · exact (h t ht rest hrest).either_left
  · have hrejects := hfirst.rejects ((hsecond t ht).append rest).begins
    exact (h' t ht rest hrest).either_right hrejects

theorem Predictable.group (number : Nat) (h : n.Predictable follow) :
    (group number n).Predictable follow :=
  fun t ht rest hrest => (h t ht rest hrest).group number

/-- What stands behind a part that may be left out must not start as it does. -/
theorem Predictable.maybe (h : n.Predictable follow) (hopens : n.Opens fun c => ¬ follow c) :
    (maybe n).Predictable follow := by
  intro t ht rest hrest
  rw [language_maybe] at ht
  rcases (Language.mem_add ..).mp ht with rfl | ht
  · exact (hopens.rejects (hrest.mono fun c hc => not_not_intro hc)).maybe
  · exact (h t ht rest hrest).maybe

/-- Turns that need not look at what comes after them. -/
theorem Predictable.turns (h : n.Predictable fun _ => True) (hopens : n.Opens fun c => ¬ follow c)
    (ht : t ∈ n.language∗) (hrest : Text.Begins follow rest) : Turns n t rest := by
  obtain ⟨pieces, rfl, hpieces⟩ := Language.mem_kstar.mp ht
  clear ht
  induction pieces with
  | nil => exact .nil (hopens.rejects (hrest.mono fun c hc => not_not_intro hc))
  | cons piece pieces ih =>
      have hpiece := hpieces piece List.mem_cons_self
      have hall : ∀ text, Text.Begins (fun _ => True) text := fun _ _ _ => trivial
      exact .cons (h piece hpiece _ (hall _)) (hopens piece hpiece).ne_nil
        (ih fun y hy => hpieces y (List.mem_cons_of_mem _ hy))

theorem Predictable.star (h : n.Predictable fun _ => True) (hopens : n.Opens fun c => ¬ follow c) :
    (star n).Predictable follow := by
  intro t ht rest hrest
  rw [language_star] at ht
  exact (h.turns hopens ht hrest).star

theorem Predictable.plus (h : n.Predictable fun _ => True) (hopens : n.Opens fun c => ¬ follow c) :
    (plus n).Predictable follow := by
  intro t ht rest hrest
  rw [language_plus] at ht
  obtain ⟨t, ht, t', ht', rfl⟩ := ht
  exact .plus (h t ht _ fun _ _ => trivial) (h.turns hopens ht' hrest)

theorem opens_set {a : Alphabet} {outside : Bool} {items : List Item}
    (h : ∀ x, (items.any (·.covers a x) != outside) = true → holds x) :
    (set a outside items).Opens holds := by
  rintro _ ⟨x, hx, rfl⟩
  exact Text.starts_cons.mpr (h x hx)

theorem predictable_set (a : Alphabet) (outside : Bool) (items : List Item) :
    (set a outside items).Predictable fun _ => True := by
  rintro _ ⟨x, hx, rfl⟩ rest -
  exact takes_set hx rest

theorem predictable_any (lineBreaks : Bool) : (any lineBreaks).Predictable fun _ => True := by
  rintro _ ⟨x, hx, rfl⟩ rest -
  exact takes_any hx rest

theorem opens_one (c : Char) : (one c).Opens (· = c) := by
  refine opens_set fun x hx => ?_
  have hcode : c.toNat = x.toNat := by simpa [Item.covers, Alphabet.codes] using hx
  exact (Char.toNat_inj.mp hcode).symm

theorem opens_range {c d : Char}
    (h : ∀ x : Char, c.toNat ≤ x.toNat → x.toNat ≤ d.toNat → holds x) :
    (among [.range c.toNat d.toNat]).Opens holds := by
  refine opens_set fun x hx => ?_
  have hcode : c.toNat ≤ x.toNat ∧ x.toNat ≤ d.toNat := by
    simpa [Item.covers, Alphabet.codes] using hx
  exact h x hcode.1 hcode.2

theorem opens_pair (c d : Char) :
    (among [.code c.toNat, .code d.toNat]).Opens fun x => x = c ∨ x = d := by
  refine opens_set fun x hx => ?_
  have hcode : c.toNat = x.toNat ∨ d.toNat = x.toNat := by
    simpa [Item.covers, Alphabet.codes] using hx
  exact hcode.imp (fun h => (Char.toNat_inj.mp h).symm) fun h => (Char.toNat_inj.mp h).symm

theorem opens_digit : digit.Opens (Char.isDigit · = true) :=
  opens_range fun x hlo hhi => by simpa [Char.isDigit, UInt32.le_iff_toNat_le] using ⟨hlo, hhi⟩

/-- Whatever text lies ahead, the tree takes a part of it or rejects it. What lies behind and
what is asked for next play no part in this. -/
def Certain (n : Node) : Prop :=
  ∀ text, (∃ t rest, text = t ++ rest ∧ n.Takes t rest) ∨ n.Rejects text

section Sets

variable {a : Alphabet} {outside : Bool} {items : List Item}

theorem rejects_set {text : Text}
    (h : Text.Begins (fun x => (items.any (·.covers a x) != outside) = false) text) :
    (set a outside items).Rejects text :=
  (opens_set fun _ hx => hx).rejects (h.mono fun _ hx => by simp [hx])

theorem certain_set (a : Alphabet) (outside : Bool) (items : List Item) :
    (set a outside items).Certain := by
  intro text
  cases text with
  | nil => exact .inr (rejects_set Text.begins_nil)
  | cons x text =>
      cases hx : items.any (·.covers a x) != outside with
      | true => exact .inl ⟨[x], text, rfl, takes_set hx text⟩
      | false => exact .inr (rejects_set (Text.begins_cons.mpr hx))

/-- Whether a set takes a character. -/
def admits (a : Alphabet) (outside : Bool) (items : List Item) (x : Char) : Bool :=
  items.any (·.covers a x) != outside

/-- A set is repeated as long as its characters come. -/
theorem turns_set (a : Alphabet) (outside : Bool) (items : List Item) (text : Text) :
    Turns (set a outside items) (text.takeWhile (admits a outside items))
      (text.dropWhile (admits a outside items)) := by
  induction text with
  | nil => exact .nil (rejects_set Text.begins_nil)
  | cons x text ih =>
      cases hx : admits a outside items x with
      | true =>
          rw [List.takeWhile_cons_of_pos hx, List.dropWhile_cons_of_pos hx]
          exact .cons (takes_set hx _) (List.cons_ne_nil x []) ih
      | false =>
          have hnot := Bool.eq_false_iff.mp hx
          rw [List.takeWhile_cons_of_neg hnot, List.dropWhile_cons_of_neg hnot]
          exact .nil (rejects_set (Text.begins_cons.mpr hx))

theorem exists_turns_set (text : Text) :
    ∃ t rest, text = t ++ rest ∧ Turns (set a outside items) t rest :=
  ⟨_, _, List.takeWhile_append_dropWhile.symm, turns_set a outside items text⟩

theorem certain_star_set (a : Alphabet) (outside : Bool) (items : List Item) :
    (star (set a outside items)).Certain := by
  intro text
  obtain ⟨t, rest, rfl, hturns⟩ := exists_turns_set text
  exact .inl ⟨t, rest, rfl, hturns.star⟩

theorem certain_plus_set (a : Alphabet) (outside : Bool) (items : List Item) :
    (plus (set a outside items)).Certain := by
  intro text
  rcases certain_set a outside items text with ⟨t, rest, rfl, htakes⟩ | hrejects
  · obtain ⟨t', rest', rfl, hturns⟩ := exists_turns_set rest
    exact .inl ⟨t ++ t', rest', by simp, htakes.plus hturns⟩
  · exact .inr hrejects.plus

end Sets

/-- Digits go on until another character comes. -/
theorem predictable_plus_digit : (plus digit).Predictable (Char.isDigit · = false) :=
  .plus (predictable_set _ _ _) (opens_digit.mono fun _ h => by simp [h])

end Languages

end Node

/-- A pattern matches what its tree takes. -/
theorem match?_of_takes {p : Pattern} {t rest : Text} (h : p.root.Takes t rest) (before : Text) :
    p.match? 0 (before ++ (t ++ rest)) before.length = some (before.length + t.length, some t) := by
  have hstart : min (before.length : Int).toNat (before ++ (t ++ rest)).length = before.length := by
    simp
  obtain ⟨found, hfound, hoffset⟩ := h (before ++ (t ++ rest))
    (fun found => found.offset = before.length + t.length) some
    ⟨t ++ rest, before.length, List.replicate p.groups none⟩ rfl
    fun next _ hoffset => ⟨next, rfl, hoffset⟩
  simp only [match?, hstart, List.drop_left, hfound, if_true]
  rw [hoffset, Nat.add_sub_cancel_left, List.take_left]

theorem match?_of_rejects {p : Pattern} {text : Text} (h : p.root.Rejects text) (group : Nat)
    (before : Text) : p.match? group (before ++ text) before.length = none := by
  have hstart : min (before.length : Int).toNat (before ++ text).length = before.length := by
    simp
  have hnone := h (before ++ text) some
    ⟨text, before.length, List.replicate p.groups none⟩ rfl
  simp only [match?, hstart, List.drop_left, hnone]

end Pattern

end Descent
