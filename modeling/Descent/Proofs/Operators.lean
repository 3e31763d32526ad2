/-
# Operators of a chain

A chain is read as its first operand and its links, each an operator with the operand behind it.
From the left the operators are applied in the order in which they are read. From the right the
loop goes through the operators backwards, each with the operand in front of it; this nests the
applications the other way round.
-/

import Descent.Parser.Combinators

namespace Descent

namespace Call

instance : LawfulMonad Call := by
  refine .mk' Call ?_ ?_ ?_
  · rintro α ⟨events, _ | a⟩
    · rfl
    · exact congrArg (Call.mk · _) (List.append_nil events)
  · intros
    rfl
  · rintro α β γ ⟨events, _ | a⟩ f g
    · rfl
    · change ((Call.mk events (.ok a)).bind f).bind g =
        (Call.mk events (.ok a)).bind fun a => (f a).bind g
      simp only [Call.bind]
      cases (f a).result with
      | error fault => rfl
      | ok b => exact congrArg (Call.mk · _) (List.append_assoc ..)

end Call

namespace Parser

/-- An operator and the operand behind it, as one value. -/
def linkValue (link : Value × Value) : Value :=
  .list [link.1, link.2]

/-- The operators applied from the left: `fₙ(… f₂(f₁(x₀, x₁), x₂) …, xₙ)`. -/
def applyLeft (first : Value) (links : List (Value × Value)) : Call Value :=
  links.foldlM (fun front link => link.1.call [front, link.2]) first

/-- The operators applied from the right: `f₁(x₀, f₂(x₁, … fₙ(xₙ₋₁, xₙ) …))`. -/
def applyRight : Value → List (Value × Value) → Call Value
  | first, [] => .answer first
  | first, link :: links => do
      let back ← applyRight link.2 links
      link.1.call [first, back]

theorem foldLeft_map (first : Value) (links : List (Value × Value)) :
    foldLeft first (links.map linkValue) = applyLeft first links := by
  induction links generalizing first with
  | nil => rfl
  | cons link links ih => exact bind_congr fun next => ih next

theorem linksOf_map (links : List (Value × Value)) :
    linksOf (links.map linkValue) = some links := by
  induction links with
  | nil => rfl
  | cons link links ih => simp [linkValue, linksOf, ih]

/-- The loop from the last operand back to the first nests the applications. -/
theorem foldRight_map (first : Value) (links : List (Value × Value)) :
    foldRight first (links.map linkValue) = applyRight first links := by
  simp only [foldRight, linksOf_map]
  induction links generalizing first with
  | nil => rfl
  | cons link links ih =>
      -- The first operator and the first operand are the last ones that the loop comes to.
      have hlength : (links.map (·.1)).reverse.length =
          (link.2 :: links.map (·.2)).dropLast.reverse.length := by simp
      simp only [List.map_cons, List.reverse_cons, List.dropLast_cons_cons, List.getLast_cons_cons]
      rw [List.zip_append hlength, List.foldlM_append, ih, applyRight]
      simp

example :
    let links := [(Value.function .subtract, Value.int 4), (.function .subtract, .int 3)]
    (applyLeft (.int 9) links).result = .ok (.int 2) ∧
      (applyRight (.int 9) links).result = .ok (.int 8) := ⟨rfl, rfl⟩

end Parser

end Descent
