/-
# Ordered lists without repetition

Insertion into a list that is strictly increasing for a given relation. An
element that stands in the list already is not inserted again, so the result of
inserting many elements depends only on which elements they are.
-/

namespace Descent.Ordered

variable {α : Type}

/-- Put an element in its place in an increasing list, unless it is there. -/
def insert [DecidableEq α] (precedes : α → α → Bool) (a : α) : List α → List α
  | [] => [a]
  | b :: rest =>
      if a = b then b :: rest
      else if precedes a b then a :: b :: rest
      else b :: insert precedes a rest

/-- The increasing list of the elements of a list. -/
def ofList [DecidableEq α] (precedes : α → α → Bool) (elements : List α) : List α :=
  elements.foldr (insert precedes) []

/-- Insertion adds the element and keeps all others. -/
theorem mem_insert [DecidableEq α] {precedes : α → α → Bool} {a x : α} {elements : List α} :
    x ∈ insert precedes a elements ↔ x = a ∨ x ∈ elements := by
  induction elements with
  | nil => simp [insert]
  | cons b rest ih =>
      unfold insert
      split
      · next h => subst h; simp
      · split
        · simp
        · simp only [List.mem_cons, ih]
          constructor
          · rintro (h | h | h) <;> simp [h]
          · rintro (h | h | h) <;> simp [h]

/-- Ordering a list keeps its elements. -/
theorem mem_ofList [DecidableEq α] {precedes : α → α → Bool} {x : α} {elements : List α} :
    x ∈ ofList precedes elements ↔ x ∈ elements := by
  induction elements with
  | nil => simp [ofList]
  | cons a rest ih =>
      rw [List.mem_cons, ← ih]
      exact mem_insert

/-- Insertion keeps a list strictly increasing, for a relation that is transitive
and compares any two distinct elements. -/
theorem pairwise_insert [DecidableEq α] {precedes : α → α → Bool}
    (trans : ∀ a b c, precedes a b → precedes b c → precedes a c)
    (total : ∀ a b, a ≠ b → precedes a b ∨ precedes b a)
    (a : α) {elements : List α}
    (h : elements.Pairwise fun x y => precedes x y) :
    (insert precedes a elements).Pairwise fun x y => precedes x y := by
  induction elements with
  | nil => simp [insert]
  | cons b rest ih =>
      obtain ⟨hb, hrest⟩ := List.pairwise_cons.mp h
      unfold insert
      split
      · exact h
      · next hne =>
        split
        · next hab =>
          refine List.pairwise_cons.mpr ⟨fun y hy => ?_, h⟩
          rcases List.mem_cons.mp hy with rfl | hy
          · exact hab
          · exact trans _ _ _ hab (hb y hy)
        · next hab =>
          refine List.pairwise_cons.mpr ⟨fun y hy => ?_, ih hrest⟩
          rcases mem_insert.mp hy with rfl | hy
          · exact (total _ _ hne).resolve_left hab
          · exact hb y hy

/-- Ordering a list makes it strictly increasing. -/
theorem pairwise_ofList [DecidableEq α] {precedes : α → α → Bool}
    (trans : ∀ a b c, precedes a b → precedes b c → precedes a c)
    (total : ∀ a b, a ≠ b → precedes a b ∨ precedes b a)
    (elements : List α) :
    (ofList precedes elements).Pairwise fun x y => precedes x y := by
  induction elements with
  | nil => simp [ofList]
  | cons a rest ih => exact pairwise_insert trans total a ih

/-- Strictly increasing lists with the same elements are equal. -/
theorem eq_of_mem_iff {precedes : α → α → Bool}
    (irrefl : ∀ a, precedes a a = false)
    (trans : ∀ a b c, precedes a b → precedes b c → precedes a c) :
    ∀ {first second : List α},
      (first.Pairwise fun x y => precedes x y) →
      (second.Pairwise fun x y => precedes x y) →
      (∀ x, x ∈ first ↔ x ∈ second) → first = second
  | [], [], _, _, _ => rfl
  | [], b :: _, _, _, h => by simpa using h b
  | a :: _, [], _, _, h => by simpa using h a
  | a :: first, b :: second, hf, hs, h => by
      obtain ⟨ha, hfirst⟩ := List.pairwise_cons.mp hf
      obtain ⟨hb, hsecond⟩ := List.pairwise_cons.mp hs
      have never (x : α) (hx : precedes x x) : False := by simp [irrefl] at hx
      have heads : a = b := by
        rcases List.mem_cons.mp ((h a).mp (List.mem_cons_self ..)) with hab | hab
        · exact hab
        · rcases List.mem_cons.mp ((h b).mpr (List.mem_cons_self ..)) with hba | hba
          · exact hba.symm
          · exact (never a (trans _ _ _ (ha b hba) (hb a hab))).elim
      subst heads
      have tails (x : α) : x ∈ first ↔ x ∈ second := by
        constructor
        · intro hx
          rcases List.mem_cons.mp ((h x).mp (List.mem_cons_of_mem _ hx)) with rfl | hx'
          · exact (never _ (ha _ hx)).elim
          · exact hx'
        · intro hx
          rcases List.mem_cons.mp ((h x).mpr (List.mem_cons_of_mem _ hx)) with rfl | hx'
          · exact (never _ (hb _ hx)).elim
          · exact hx'
      rw [eq_of_mem_iff irrefl trans hfirst hsecond tails]

end Descent.Ordered
