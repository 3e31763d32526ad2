/-
# Derivations of calculations

The grammar of calculations and the values of its texts. A chain of operators of one rank is
applied from the left, and a minus before a factor binds tightest. The operations are those
of an algebra and may be undefined: the reader works with values, where a quotient is a
double and may not exist. A text without division has the same value among the integers,
where nothing is rounded.
-/

import Descent.Proofs.Grammar.Arithmetic.Token

namespace Descent.Reader.Arithmetic

/-- What the numerals and signs of a calculation stand for. The operations are partial. -/
structure Algebra (α : Type) where
  numeral : Nat → α
  negate : α → Option α
  /-- The operation of a sign. -/
  apply : Char → α → α → Option α

/-- The values of the reader with the functions that it applies to them. -/
def values : Algebra Value where
  numeral n := .int n
  negate v := v.negated.toOption
  apply sign v w := (operations.lookup sign).bind fun f => (f.apply [v, w]).result.toOption

/-- The integers, of which quotients are not taken. -/
def integers : Algebra Int where
  numeral n := n
  negate m := some (-m)
  apply sign m n := [('+', m + n), ('-', m - n), ('*', m * n)].lookup sign

/-- An operator of a chain with the operand behind it. -/
structure Link (α : Type) where
  sign : Char
  blanks : Text
  operand : Text
  value : α

/-- The text of an operator and its operand. -/
def Link.text {α : Type} (link : Link α) : Text :=
  link.sign :: link.blanks ++ link.operand

/-- The value of a chain, whose operators are applied from the left. -/
def Algebra.chain {α : Type} (A : Algebra α) (first : α) (links : List (Link α)) : Option α :=
  links.foldlM (fun x link => A.apply link.sign x link.value) first

@[simp] theorem Algebra.chain_cons {α : Type} (A : Algebra α) (x : α) (link : Link α)
    (links : List (Link α)) :
    A.chain x (link :: links) = (A.apply link.sign x link.value).bind (A.chain · links) :=
  List.foldlM_cons ..

example : integers.chain 7 [⟨'-', [], ['2'], 2⟩, ⟨'-', [], ['1'], 1⟩] = some 4 := by decide

/-- The ranks of calculations, the tightest first. -/
inductive Rank
  | factor
  | term
  | expression

namespace Rank

/-- The rank of the operands of a chain. A factor is none and has no operators. -/
def operand : Rank → Rank
  | factor => factor
  | term => factor
  | expression => term

/-- The signs of the operators of a chain. -/
def signs : Rank → String
  | factor => ""
  | term => "*/"
  | expression => "+-"

end Rank

/-- The rank of the texts of a rule. -/
def Rule.rank : Rule → Rank
  | factor => .factor
  | expression => .expression

/-- A text of a rank and its value in an algebra. -/
inductive Derives {α : Type} (A : Algebra α) : Rank → Text → α → Prop
  | numeral {t : Text} {n : Nat} (h : NumeralToken t n) : Derives A .factor t (A.numeral n)
  | negative {minus t : Text} {x y : α} (hminus : minus.Sign "-") (h : Derives A .factor t x)
      (hy : A.negate x = some y) : Derives A .factor (minus ++ t) y
  | brackets {opening t closing : Text} {x : α} (hopening : opening.Sign "(")
      (h : Derives A .expression t x) (hclosing : closing.Sign ")") :
      Derives A .factor (opening ++ (t ++ closing)) x
  /-- An operand of the next tighter rank, and operators with further ones. -/
  | chain {rank : Rank} {t : Text} {x y : α} {links : List (Link α)} (hrank : rank ≠ .factor)
      (hfirst : Derives A rank.operand t x)
      (hsigns : ∀ link ∈ links, link.sign ∈ rank.signs.toList)
      (hblanks : ∀ link ∈ links, link.blanks.Blank)
      (hlinks : ∀ link ∈ links, Derives A rank.operand link.operand link.value)
      (hy : A.chain x links = some y) :
      Derives A rank (t ++ (links.map Link.text).flatten) y

/-- A calculation: an expression with white space before it. -/
def Calculation {α : Type} (A : Algebra α) (s : Text) (x : α) : Prop :=
  ∃ blanks t, s = blanks ++ t ∧ blanks.Blank ∧ Derives A .expression t x

theorem Derives.starts {α : Type} {A : Algebra α} {rank : Rank} {t : Text} {x : α}
    (h : Derives A rank t x) : t.Starts fun c => Character.isBlank c = false := by
  induction h with
  | numeral h => exact h.starts.mono fun _ => Character.isBlank_of_isDigit
  | negative hminus => exact (hminus.starts (by simp +decide)).append _
  | brackets hopening => exact (hopening.starts (by simp +decide)).append _
  | chain _ _ _ _ _ _ ih => exact ih.append _

section Integers

variable {α β : Type} {A : Algebra α} {B : Algebra β} {R : α → β → Prop} {allowed : Char → Prop}

/-- The link with another value. -/
def Link.withValue (link : Link α) (y : β) : Link β :=
  ⟨link.sign, link.blanks, link.operand, y⟩

/-- Operations of allowed signs that are defined in the first algebra are defined in the
second one, with related results. -/
structure Algebra.Simulates (A : Algebra α) (B : Algebra β) (R : α → β → Prop)
    (allowed : Char → Prop) : Prop where
  numeral : ∀ n, R (A.numeral n) (B.numeral n)
  negate : ∀ {x y x'}, R x y → A.negate x = some x' → ∃ y', R x' y' ∧ B.negate y = some y'
  apply : ∀ {sign x₁ x₂ y₁ y₂ x}, allowed sign → R x₁ y₁ → R x₂ y₂ →
    A.apply sign x₁ x₂ = some x → ∃ y, R x y ∧ B.apply sign y₁ y₂ = some y

theorem Algebra.Simulates.chain (h : A.Simulates B R allowed) {links : List (Link α)}
    {g : Link α → β} (hsigns : ∀ link ∈ links, allowed link.sign)
    (hvalues : ∀ link ∈ links, R link.value (g link)) {x x' : α} {y : β} (hxy : R x y)
    (hx' : A.chain x links = some x') :
    ∃ y', R x' y' ∧ B.chain y (links.map fun link => link.withValue (g link)) = some y' := by
  induction links generalizing x y with
  | nil =>
      cases hx'
      exact ⟨y, hxy, rfl⟩
  | cons link links ih =>
      obtain ⟨hsign, hsigns⟩ := List.forall_mem_cons.mp hsigns
      obtain ⟨hvalue, hvalues⟩ := List.forall_mem_cons.mp hvalues
      rw [Algebra.chain_cons, Option.bind_eq_some_iff] at hx'
      obtain ⟨next, hnext, hrest⟩ := hx'
      obtain ⟨next', hrelated, hnext'⟩ := h.apply hsign hxy hvalue hnext
      obtain ⟨y', hy', hchain⟩ := ih hsigns hvalues hrelated hrest
      refine ⟨y', hy', ?_⟩
      rw [List.map_cons, Algebra.chain_cons]
      exact Option.bind_eq_some_iff.mpr ⟨next', hnext', hchain⟩

/-- A text of allowed characters has related values in the two algebras. -/
theorem Algebra.Simulates.derives (h : A.Simulates B R allowed) {rank : Rank} {t : Text} {x : α}
    (hx : Derives A rank t x) (ht : ∀ c ∈ t, allowed c) : ∃ y, R x y ∧ Derives B rank t y := by
  induction hx with
  | numeral htoken => exact ⟨_, h.numeral _, .numeral htoken⟩
  | negative hminus _ hx' ih =>
      obtain ⟨y, hxy, hy⟩ := ih fun c hc => ht c (List.mem_append_right _ hc)
      obtain ⟨y', hy', hnegate⟩ := h.negate hxy hx'
      exact ⟨y', hy', .negative hminus hy hnegate⟩
  | brackets hopening _ hclosing ih =>
      obtain ⟨y, hxy, hy⟩ := ih fun c hc =>
        ht c (List.mem_append_right _ (List.mem_append_left _ hc))
      exact ⟨y, hxy, .brackets hopening hy hclosing⟩
  | @chain rank t x x' links hrank _ hsigns hblanks _ hx' ihfirst ihlinks =>
      have : Nonempty β := ⟨B.numeral 0⟩
      have hallowed : ∀ link ∈ links, ∀ c ∈ link.text, allowed c := fun link hlink c hc =>
        ht c (List.mem_append_right _
          (List.mem_flatten.mpr ⟨link.text, List.mem_map_of_mem hlink, hc⟩))
      obtain ⟨y, hxy, hy⟩ := ihfirst fun c hc => ht c (List.mem_append_left _ hc)
      have hoperands : ∀ link ∈ links, ∃ y, R link.value y ∧
          Derives B rank.operand link.operand y := fun link hlink =>
        ihlinks link hlink fun c hc => hallowed link hlink c (List.mem_append_right _ hc)
      -- The links of the second chain differ from those of the first in their values only.
      choose! g hrelated hderives using hoperands
      obtain ⟨y', hy', hchain⟩ := h.chain
        (fun link hlink => hallowed link hlink _ List.mem_cons_self) hrelated hxy hx'
      have htexts : (links.map fun link => link.withValue (g link)).map Link.text =
          links.map Link.text := List.map_map
      refine ⟨y', hy', htexts ▸ .chain hrank hy ?_ ?_ ?_ hchain⟩
      · exact List.forall_mem_map.mpr hsigns
      · exact List.forall_mem_map.mpr hblanks
      · exact List.forall_mem_map.mpr hderives

/-- Apart from division, integers are combined exactly. -/
theorem apply_int {sign : Char} (h : sign ≠ '/') (m n : Int) :
    values.apply sign (.int m) (.int n) = (integers.apply sign m n).map .int := by
  by_cases hsign : sign ∈ ['+', '-', '*']
  · simp only [List.mem_cons, List.not_mem_nil, or_false] at hsign
    rcases hsign with rfl | rfl | rfl <;> rfl
  · simp only [List.mem_cons, List.not_mem_nil, or_false, not_or] at hsign
    have hlookup : operations.lookup sign = none := by
      simpa [operations, List.lookup_eq_none_iff, h] using hsign
    have hintegers : integers.apply sign m n = none := by
      simpa [integers, List.lookup_eq_none_iff] using hsign
    simp [values, hlookup, hintegers]

theorem simulates_integers : values.Simulates integers (fun v m => v = .int m) (· ≠ '/') where
  numeral n := rfl
  negate := by
    rintro _ m _ rfl ⟨⟩
    exact ⟨-m, rfl, rfl⟩
  apply := by
    rintro sign _ _ m n v hsign rfl rfl hv
    rw [apply_int hsign] at hv
    obtain ⟨k, hk, rfl⟩ := Option.map_eq_some_iff.mp hv
    exact ⟨k, rfl, hk⟩

theorem simulates_values : integers.Simulates values (fun m v => v = .int m) (· ≠ '/') where
  numeral n := rfl
  negate := by
    rintro m _ _ rfl ⟨⟩
    exact ⟨.int (-m), rfl, rfl⟩
  apply := by
    rintro sign m n _ _ k hsign rfl rfl hk
    exact ⟨.int k, rfl, by rw [apply_int hsign, hk, Option.map_some]⟩

theorem sign_ne_of_chain {x y : Int} {links : List (Link Int)}
    (h : integers.chain x links = some y) : ∀ link ∈ links, link.sign ≠ '/' := by
  induction links generalizing x with
  | nil => simp
  | cons link links ih =>
      rw [Algebra.chain_cons, Option.bind_eq_some_iff] at h
      obtain ⟨next, hnext, hrest⟩ := h
      refine List.forall_mem_cons.mpr ⟨fun hsign => ?_, ih hrest⟩
      rw [hsign] at hnext
      cases hnext

/-- No text with a division has a value among the integers. -/
theorem Derives.ne_of_mem {rank : Rank} {t : Text} {m : Int} (h : Derives integers rank t m) :
    ∀ c ∈ t, c ≠ '/' := by
  have hblank {blanks : Text} (hblanks : blanks.Blank) : ∀ c ∈ blanks, c ≠ '/' := by
    rintro _ hc rfl
    exact absurd (hblanks _ hc) (by decide)
  have hsymbol {s : String} {t : Text} (ht : t.Sign s) (hs : '/' ∉ s.toList) :
      ∀ c ∈ t, c ≠ '/' := by
    obtain ⟨blanks, hblanks, rfl⟩ := ht
    refine List.forall_mem_append.mpr ⟨?_, hblank hblanks⟩
    rintro _ hc rfl
    exact hs hc
  induction h with
  | numeral h =>
      obtain ⟨digits, blanks, rfl, -, hdigits, -, hblanks⟩ := h
      refine List.forall_mem_append.mpr ⟨?_, hblank hblanks⟩
      rintro _ hc rfl
      exact absurd (hdigits _ hc) (by decide)
  | negative hminus _ _ ih =>
      exact List.forall_mem_append.mpr ⟨hsymbol hminus (by decide), ih⟩
  | brackets hopening _ hclosing ih =>
      exact List.forall_mem_append.mpr ⟨hsymbol hopening (by decide),
        List.forall_mem_append.mpr ⟨ih, hsymbol hclosing (by decide)⟩⟩
  | chain _ _ _ hblanks _ hy ihfirst ihlinks =>
      refine List.forall_mem_append.mpr ⟨ihfirst, fun c hc => ?_⟩
      obtain ⟨_, htext, hc⟩ := List.mem_flatten.mp hc
      obtain ⟨link, hlink, rfl⟩ := List.mem_map.mp htext
      have hhead : ∀ c ∈ link.sign :: link.blanks, c ≠ '/' :=
        List.forall_mem_cons.mpr ⟨sign_ne_of_chain hy link hlink, hblank (hblanks link hlink)⟩
      exact List.forall_mem_append.mpr ⟨hhead, ihlinks link hlink⟩ c hc

/-- The calculations without division are those of the integers. -/
theorem calculation_integers_iff {s : Text} {v : Value} :
    ('/' ∉ s ∧ Calculation values s v) ↔ ∃ m : Int, v = .int m ∧ Calculation integers s m := by
  constructor
  · rintro ⟨hs, blanks, t, rfl, hblanks, ht⟩
    have hallowed : ∀ c ∈ t, c ≠ '/' := by
      rintro _ hc rfl
      exact hs (List.mem_append_right _ hc)
    obtain ⟨m, rfl, hm⟩ := simulates_integers.derives ht hallowed
    exact ⟨m, rfl, blanks, t, rfl, hblanks, hm⟩
  · rintro ⟨m, rfl, blanks, t, rfl, hblanks, ht⟩
    obtain ⟨_, rfl, hv⟩ := simulates_values.derives ht ht.ne_of_mem
    refine ⟨fun hc => ?_, blanks, t, rfl, hblanks, hv⟩
    rcases List.mem_append.mp hc with hc | hc
    · exact absurd (hblanks _ hc) (by decide)
    · exact ht.ne_of_mem _ hc rfl

end Integers

end Descent.Reader.Arithmetic
