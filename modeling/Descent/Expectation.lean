/-
# Sets of descriptions

What was expected at an offset is a finite set of descriptions. The set is kept
as its increasing list, so that two sets with the same members are equal.
-/

import Descent.Ordered

namespace Descent

/-- A finite set of descriptions, kept in increasing order. -/
structure Expectation where
  toList : List String
  increasing : toList.Pairwise fun x y => decide (x < y)

namespace Expectation

/-- The order of descriptions in the list, by code point. -/
def precedes (x y : String) : Bool :=
  decide (x < y)

theorem precedes_irrefl (x : String) : precedes x x = false := by
  simp [precedes]

theorem precedes_trans (x y z : String) (hxy : precedes x y) (hyz : precedes y z) :
    precedes x z := by
  simp only [precedes, decide_eq_true_eq] at *
  exact String.lt_trans hxy hyz

theorem precedes_total (x y : String) (h : x ≠ y) : precedes x y ∨ precedes y x := by
  simp only [precedes, decide_eq_true_eq]
  rcases Decidable.em (x < y) with hxy | hxy
  · exact .inl hxy
  · rcases Decidable.em (y < x) with hyx | hyx
    · exact .inr hyx
    · exact (h (String.le_antisymm (String.not_lt.mp hyx) (String.not_lt.mp hxy))).elim

/-- The set of the members of a list. -/
def ofList (descriptions : List String) : Expectation :=
  ⟨Ordered.ofList precedes descriptions,
    Ordered.pairwise_ofList precedes_trans precedes_total descriptions⟩

/-- Nothing is expected. -/
def empty : Expectation :=
  ⟨[], .nil⟩

/-- One thing is expected. -/
def singleton (description : String) : Expectation :=
  ⟨[description], List.pairwise_singleton _ _⟩

/-- Whatever is expected by either side. -/
def union (first second : Expectation) : Expectation :=
  ⟨first.toList.foldr (Ordered.insert precedes) second.toList, by
    induction first.toList with
    | nil => exact second.increasing
    | cons d rest ih => exact Ordered.pairwise_insert precedes_trans precedes_total d ih⟩

instance : EmptyCollection Expectation := ⟨empty⟩
instance : Union Expectation := ⟨union⟩
instance : Membership String Expectation := ⟨fun e d => d ∈ e.toList⟩

instance : DecidableEq Expectation := fun first second =>
  if h : first.toList = second.toList then
    .isTrue (by cases first; cases second; cases h; rfl)
  else .isFalse (fun he => h (congrArg toList he))

theorem mem_iff {d : String} {e : Expectation} : d ∈ e ↔ d ∈ e.toList := Iff.rfl

/-- Sets with the same members are equal. -/
theorem ext_mem {first second : Expectation} (h : ∀ d, d ∈ first ↔ d ∈ second) :
    first = second := by
  have hlist : first.toList = second.toList :=
    Ordered.eq_of_mem_iff precedes_irrefl precedes_trans first.increasing second.increasing h
  cases first; cases second; cases hlist; rfl

theorem mem_ofList {d : String} {descriptions : List String} :
    d ∈ ofList descriptions ↔ d ∈ descriptions :=
  Ordered.mem_ofList

@[simp] theorem not_mem_empty {d : String} : ¬ d ∈ (∅ : Expectation) :=
  List.not_mem_nil

@[simp] theorem mem_singleton {d description : String} :
    d ∈ singleton description ↔ d = description :=
  List.mem_singleton

@[simp] theorem mem_union {d : String} {first second : Expectation} :
    d ∈ first ∪ second ↔ d ∈ first ∨ d ∈ second := by
  change d ∈ first.toList.foldr (Ordered.insert precedes) second.toList ↔ _
  rw [mem_iff, mem_iff]
  induction first.toList with
  | nil => simp
  | cons a rest ih =>
      rw [List.foldr_cons, Ordered.mem_insert, ih, List.mem_cons, or_assoc]

end Expectation

end Descent
