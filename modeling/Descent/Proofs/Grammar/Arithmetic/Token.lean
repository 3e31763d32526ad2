/-
# Tokens of calculations

A numeral is made of decimal digits and stands for the number that they write. An operator
is one of a few signs and stands for a function. Both swallow the white space behind them.
-/

import Descent.Proofs.Grammar.Arithmetic.Rules
import Mathlib.Data.Nat.Digits.Defs

namespace Descent

open scoped Computability

namespace Reader.Arithmetic

section Numerals

/-- The number that decimal digits stand for. -/
def decimal (digits : Text) : Nat :=
  Nat.ofDigits 10 (digits.reverse.map fun c => c.toNat - '0'.toNat)

/-- A numeral, with its number and white space behind it. -/
def NumeralToken (t : Text) (n : Nat) : Prop :=
  ∃ digits blanks, t = digits ++ blanks ∧ digits ≠ [] ∧ (∀ c ∈ digits, c.isDigit = true) ∧
    n = decimal digits ∧ blanks.Blank

theorem decimal_cons (c : Char) (digits : Text) :
    decimal (c :: digits) = 10 ^ digits.length * (c.toNat - '0'.toNat) + decimal digits := by
  simp only [decimal, List.reverse_cons, List.map_append, List.map_singleton,
    Nat.ofDigits_append, Nat.ofDigits_singleton, List.length_map, List.length_reverse]
  omega

theorem decimalValue?_of_isDigit {c : Char} (h : c.isDigit = true) :
    Character.decimalValue? c = some (c.toNat - '0'.toNat) := by
  obtain ⟨hlo, hhi⟩ := Character.toNat_of_isDigit h
  rw [Character.decimalValue?, Character.decimalRanges, Character.rowValue?,
    if_pos (by simpa using ⟨hlo, hhi⟩), Nat.mod_eq_of_lt (by omega)]
  rfl

/-- Digits continue the number that stands before them. -/
theorem digitsFrom?_of_isDigit {digits : Text} (h : ∀ c ∈ digits, c.isDigit = true) (n : Nat)
    (fresh : Bool) (hfresh : fresh = true → digits ≠ []) :
    Text.digitsFrom? n fresh digits = some (10 ^ digits.length * n + decimal digits) := by
  induction digits generalizing n fresh with
  | nil =>
      cases fresh with
      | false => simp [Text.digitsFrom?, decimal]
      | true => exact absurd rfl (hfresh rfl)
  | cons c digits ih =>
      obtain ⟨hc, hdigits⟩ := List.forall_mem_cons.mp h
      have hline : c ≠ '_' := by
        rintro rfl
        cases hc
      simp only [Text.digitsFrom?, if_neg hline, decimalValue?_of_isDigit hc,
        ih hdigits _ false nofun, decimal_cons, List.length_cons, pow_succ]
      congr 1
      ring

theorem isPadding_of_isDigit {c : Char} (h : c.isDigit = true) : Text.isPadding c = false := by
  obtain ⟨hlo, hhi⟩ := Character.toNat_of_isDigit h
  have hspace : c.toNat ≠ 0x20 := by omega
  have hcontrol : ¬ c.toNat ≤ 0x0D := by omega
  rw [Text.isPadding, if_pos (by omega)]
  simp [Character.isPlainBlank, hspace, hcontrol]

/-- Nothing is stripped from a text without padding. -/
theorem strip_of_unpadded {t : Text} (h : ∀ c ∈ t, Text.isPadding c = false) : t.strip = t := by
  have hkept {t : Text} (ht : ∀ c ∈ t, Text.isPadding c = false) :
      t.dropWhile Text.isPadding = t := by
    cases t with
    | nil => rfl
    | cons c t => simp [ht c List.mem_cons_self]
  rw [Text.strip, hkept h, hkept (by simpa using h), List.reverse_reverse]

theorem strip_of_isDigit {digits : Text} (h : ∀ c ∈ digits, c.isDigit = true) :
    digits.strip = digits :=
  strip_of_unpadded fun c hc => isPadding_of_isDigit (h c hc)

/-- Decimal digits are read as the number that they stand for. -/
theorem toInt?_of_isDigit {digits : Text} (hne : digits ≠ [])
    (h : ∀ c ∈ digits, c.isDigit = true) :
    Text.toInt? digits = some (decimal digits : Int) := by
  have hdigits : Text.digitsFrom? 0 true digits = some (decimal digits) := by
    rw [digitsFrom?_of_isDigit h 0 true fun _ => hne, Nat.mul_zero, Nat.zero_add]
  rw [Text.toInt?, strip_of_isDigit h]
  split
  · exact absurd (h '+' List.mem_cons_self) (by decide)
  · exact absurd (h '-' List.mem_cons_self) (by decide)
  · rw [hdigits]
    rfl

theorem integer_text {digits : Text} (hne : digits ≠ []) (h : ∀ c ∈ digits, c.isDigit = true) :
    (Value.text digits).integer = .ok (.int (decimal digits)) := by
  simp [Value.integer, Value.text, toInt?_of_isDigit hne h]

theorem language_digit : Pattern.Node.digit.language = Pattern.oneOf Char.isDigit := by
  refine congrArg Pattern.oneOf (funext fun c => Bool.eq_iff_iff.mpr ?_)
  simp [Pattern.Item.covers, Pattern.Alphabet.codes, Char.isDigit, UInt32.le_iff_toNat_le]

theorem mem_language_integerPattern {t : Text} :
    t ∈ integerPattern.root.language ↔ t ≠ [] ∧ ∀ c ∈ t, c.isDigit = true := by
  have hroot : integerPattern.root.language =
      Pattern.oneOf Char.isDigit * (Pattern.oneOf Char.isDigit)∗ := by
    rw [← language_digit]
    exact Pattern.Node.language_plus _
  rw [hroot]
  constructor
  · rintro ⟨_, ⟨c, hc, rfl⟩, digits, hdigits, rfl⟩
    exact ⟨List.cons_ne_nil c digits,
      List.forall_mem_cons.mpr ⟨hc, Pattern.mem_kstar_oneOf.mp hdigits⟩⟩
  · rintro ⟨hne, h⟩
    cases t with
    | nil => exact absurd rfl hne
    | cons c digits =>
        obtain ⟨hc, hdigits⟩ := List.forall_mem_cons.mp h
        exact ⟨[c], ⟨c, hc, rfl⟩, digits, Pattern.mem_kstar_oneOf.mpr hdigits, rfl⟩

variable {ready : World → Prop} {n : Nat} {t text rest : Text}

theorem NumeralToken.starts {m : Nat} (h : NumeralToken t m) :
    t.Starts (Char.isDigit · = true) := by
  obtain ⟨digits, blanks, rfl, hne, hdigits, -⟩ := h
  have hopens : integerPattern.root.Opens (Char.isDigit · = true) :=
    Pattern.Node.opens_digit.plus
  exact (hopens digits (mem_language_integerPattern.mpr ⟨hne, hdigits⟩)).append blanks

theorem reads_integer (hquiet : World.Quiet ready) {m : Nat} (h : NumeralToken t m)
    (hrest : rest.Solid) (hend : rest.Begins (Char.isDigit · = false)) :
    integerParser.Reads ready t rest (.int m) := by
  obtain ⟨digits, blanks, rfl, hne, hdigits, rfl, hblanks⟩ := h
  have hbehind : Text.Begins (Char.isDigit · = false) (blanks ++ rest) := by
    refine (hblanks.begins fun {c} hc => ?_).append hend
    by_contra hdigit
    rw [Character.isBlank_of_isDigit (by simpa using hdigit)] at hc
    cases hc
  have htakes := Pattern.Node.predictable_plus_digit digits
    (mem_language_integerPattern.mpr ⟨hne, hdigits⟩) _ hbehind
  have hpattern : (Parser.pattern integerPattern 0).Reads ready digits (blanks ++ rest)
      (.text digits) := Parser.reads_pattern htakes
  exact ((hpattern.lexeme hblanks hrest).map hquiet (integer_text hne hdigits)).label _

theorem refuses_integer (h : text.Begins (Char.isDigit · = false)) :
    integerParser.Refuses ready text := by
  have hopens : integerPattern.root.Opens (Char.isDigit · = true) :=
    Pattern.Node.opens_digit.plus
  have hrejects := hopens.rejects (h.mono fun c hc => by simp [hc])
  exact ((Parser.refuses_pattern hrejects).lexeme.map _).label _

theorem yields_integer (hquiet : World.Quiet ready) :
    integerParser.Yields ready n fun t v => ∃ m : Nat, v = .int m ∧ NumeralToken t m := by
  refine ((Parser.yields_pattern integerPattern).lexeme.map hquiet ?_).label _
  rintro _ _ v' ⟨digits, blanks, rfl, ⟨hmem, rfl⟩, hblanks⟩ hvalue
  obtain ⟨hne, hdigits⟩ := mem_language_integerPattern.mp hmem
  cases (integer_text hne hdigits).symm.trans hvalue
  exact ⟨_, rfl, digits, blanks, rfl, hne, hdigits, rfl, hblanks⟩

end Numerals

section Operators

/-- The signs of arithmetic and the functions that they stand for. -/
def operations : List (Char × Callback) :=
  [('+', .add), ('-', .subtract), ('*', .multiply), ('/', .divide)]

/-- A sign that stands for a function, with white space behind it. -/
def OperatorToken (sign : Char) (t : Text) (f : Callback) : Prop :=
  ∃ blanks : Text, t = sign :: blanks ∧ operations.lookup sign = some f ∧ blanks.Blank

theorem toOption_operation_text (c : Char) :
    (Value.text [c]).operation.toOption = (operations.lookup c).map .function := by
  by_cases hc : c ∈ ['+', '-', '*', '/']
  · simp only [List.mem_cons, List.not_mem_nil, or_false] at hc
    rcases hc with rfl | rfl | rfl | rfl <;> rfl
  · have hnone : operations.lookup c = none := by
      simpa [operations, List.lookup_eq_none_iff] using hc
    have hother {d : Char} (hd : d ∈ ['+', '-', '*', '/']) :
        Value.text [c] ≠ .str (String.ofList [d]) := by
      rintro h
      have heq : c = d := by simpa [Value.text] using h
      exact hc (heq ▸ hd)
    rw [hnone]
    unfold Value.operation
    split
    · next h => exact absurd h (hother (by decide))
    · next h => exact absurd h (hother (by decide))
    · next h => exact absurd h (hother (by decide))
    · next h => exact absurd h (hother (by decide))
    · rfl

theorem operation_text_eq_ok_iff {c : Char} {v : Value} :
    (Value.text [c]).operation = .ok v ↔
      ∃ f, operations.lookup c = some f ∧ v = .function f := by
  rw [← toOption_eq_some_iff, toOption_operation_text, Option.map_eq_some_iff]
  simp only [eq_comm]

variable {ready : World → Prop} {n : Nat} {t text rest : Text} {signs : String} {sign : Char}
  {f : Callback}

theorem reads_operator (hquiet : World.Quiet ready) (h : OperatorToken sign t f)
    (hsign : sign ∈ signs.toList) (hrest : rest.Solid) :
    (operatorParser signs).Reads ready t rest (.function f) := by
  obtain ⟨blanks, rfl, hf, hblanks⟩ := h
  have hheld : (Call.ofExcept ((Value.str signs).holds sign)).result = .ok true := by
    simpa [Call.ofExcept, Value.holds] using hsign
  have hone : (Parser.oneOf (.str signs)).Reads ready [sign] (blanks ++ rest) (.text [sign]) := by
    refine Parser.Reads.label (Parser.reads_satisfy hquiet ?_ _) _
    exact hheld
  exact (hone.lexeme hblanks hrest).map hquiet (operation_text_eq_ok_iff.mpr ⟨f, hf, rfl⟩)

theorem refuses_operator (hquiet : World.Quiet ready) (h : text.Begins (· ∉ signs.toList)) :
    (operatorParser signs).Refuses ready text := by
  have hmissed := h.mono fun c hc =>
    show (Call.ofExcept ((Value.str signs).holds c)).result = .ok false by
      simpa [Call.ofExcept, Value.holds] using hc
  exact (((Parser.refuses_satisfy hquiet hmissed).label _).lexeme).map _

theorem yields_operator (hquiet : World.Quiet ready) (signs : String) :
    (operatorParser signs).Yields ready n fun t v =>
      ∃ sign f, v = .function f ∧ sign ∈ signs.toList ∧ OperatorToken sign t f := by
  refine (((Parser.yields_satisfy hquiet _ _).label _).lexeme).map hquiet ?_
  rintro _ _ v' ⟨_, blanks, rfl, ⟨c, hheld, rfl, rfl⟩, hblanks⟩ hvalue
  obtain ⟨f, hf, rfl⟩ := operation_text_eq_ok_iff.mp hvalue
  refine ⟨c, f, rfl, ?_, blanks, rfl, hf, hblanks⟩
  simpa [Call.ofExcept, Value.holds] using hheld

end Operators

end Reader.Arithmetic

end Descent
