/-
# Tokens of symbolic expressions

Integers and symbols, both of which may start with a minus sign. An integer is tried
first, so a symbol is read as one only if no integer stands at its start. Either ends
where a delimiter follows: white space, a parenthesis or a quote mark.
-/

import Descent.Proofs.Grammar.Arithmetic.Token
import Descent.Proofs.Grammar.Json.Token
import Descent.Reader.Lisp

namespace Descent

open scoped Computability

/-- The code points of a table of ranges. -/
theorem Character.mem_of_inRanges {code : Nat} {ranges : List (Nat × Nat)}
    (h : inRanges code ranges = true) :
    code ∈ ranges.flatMap fun range => List.range' range.1 (range.2 + 1 - range.1) := by
  induction ranges with
  | nil => cases h
  | cons range ranges ih =>
      rw [List.flatMap_cons, List.mem_append, List.mem_range'_1]
      simp only [inRanges] at h
      split at h
      · cases h
      · split at h
        · omega
        · exact .inr (ih h)

namespace Reader.Lisp

/-- The characters that end a token. -/
def Delimits (c : Char) : Prop :=
  Character.isBlank c = true ∨ c = '(' ∨ c = ')' ∨ c = '\''

theorem isDigit_of_delimits {c : Char} (h : Delimits c) : c.isDigit = false := by
  rcases h with hblank | rfl | rfl | rfl
  · by_contra hdigit
    rw [Character.isBlank_of_isDigit (by simpa using hdigit)] at hblank
    cases hblank
  · rfl
  · rfl
  · rfl

section Integers

open Arithmetic (decimal)

theorem decimal_eq_ofDigitChars (digits : Text) :
    decimal digits = Nat.ofDigitChars 10 digits 0 := by
  induction digits with
  | nil => rfl
  | cons c digits ih =>
      rw [Arithmetic.decimal_cons, ih, Nat.ofDigitChars_cons, Nat.mul_zero, Nat.zero_add]
      exact Nat.ofDigitChars_eq_ofDigitChars_zero.symm

theorem isDigit_of_mem_toDigits {m : Nat} {c : Char} (h : c ∈ Nat.toDigits 10 m) :
    c.isDigit = true :=
  Nat.isDigit_of_mem_toDigits (by decide) (by decide) h

/-- An integer is written with its digits, behind a minus sign if it is negative. -/
theorem toList_toString (n : Int) : (toString n).toList =
    (if 0 ≤ n then [] else ['-']) ++ Nat.toDigits 10 n.natAbs := by
  rw [Int.toString_eq_repr, Int.repr_eq_if]
  split
  · next hn => simp [Nat.toList_repr, show n.toNat = n.natAbs by omega]
  · next hn => simp [Nat.toList_repr, show (-n).toNat = n.natAbs by omega]

/-- A minus sign before digits makes their number negative. -/
theorem toInt?_minus {digits : Text} (hne : digits ≠ []) (h : ∀ c ∈ digits, c.isDigit = true) :
    Text.toInt? ('-' :: digits) = some (-(decimal digits : Int)) := by
  have hdigits : Text.digitsFrom? 0 true digits = some (decimal digits) := by
    rw [Arithmetic.digitsFrom?_of_isDigit h 0 true fun _ => hne, Nat.mul_zero, Nat.zero_add]
  have hpadding : ∀ c ∈ '-' :: digits, Text.isPadding c = false :=
    List.forall_mem_cons.mpr ⟨by decide, fun c hc => Arithmetic.isPadding_of_isDigit (h c hc)⟩
  rw [Text.toInt?, Arithmetic.strip_of_unpadded hpadding]
  simp only [hdigits]
  rfl

theorem toInt?_toString (n : Int) : Text.toInt? (toString n).toList = some n := by
  have hdigits : ∀ c ∈ Nat.toDigits 10 n.natAbs, c.isDigit = true :=
    fun _ => isDigit_of_mem_toDigits
  have hdecimal : decimal (Nat.toDigits 10 n.natAbs) = n.natAbs := by
    rw [decimal_eq_ofDigitChars, Nat.ofDigitChars_ten_toDigits]
  rw [toList_toString]
  by_cases hn : 0 ≤ n
  · rw [if_pos hn, List.nil_append, Arithmetic.toInt?_of_isDigit Nat.toDigits_ne_nil hdigits,
      hdecimal, Int.natAbs_of_nonneg hn]
  · rw [if_neg hn, List.singleton_append, toInt?_minus Nat.toDigits_ne_nil hdigits, hdecimal]
    congr 1
    omega

/-- The digits of a number that is not zero do not start with a zero. -/
theorem head?_toDigits_ne_zero {m : Nat} (hm : 0 < m) :
    (Nat.toDigits 10 m).head? ≠ some '0' := by
  induction m using Nat.strongRecOn with
  | ind m ih =>
    rw [Nat.toDigits_eq_if (by decide)]
    split
    · next hlt =>
      intro h
      have hzero := congrArg Char.toNat (Option.some.inj h)
      rw [Nat.toNat_digitChar_of_lt_ten hlt] at hzero
      change 48 + m = 48 at hzero
      omega
    · next hge =>
      rw [List.head?_append_of_ne_nil _ Nat.toDigits_ne_nil]
      exact ih (m / 10) (by omega) (by omega)

theorem mem_language_wholeTree (m : Nat) : Nat.toDigits 10 m ∈ Json.wholeTree.language := by
  rcases Nat.eq_zero_or_pos m with rfl | hm
  · exact (Language.mem_add ..).mpr (.inl ⟨'0', by decide, by simp⟩)
  · refine (Language.mem_add ..).mpr (.inr ?_)
    have hhead := head?_toDigits_ne_zero hm
    rcases hdigits : Nat.toDigits 10 m with _ | ⟨c, digits⟩
    · exact absurd hdigits Nat.toDigits_ne_nil
    · have hall : ∀ d ∈ c :: digits, d.isDigit = true :=
        fun d hd => isDigit_of_mem_toDigits (hdigits ▸ hd)
      obtain ⟨hc, hrest⟩ := List.forall_mem_cons.mp hall
      obtain ⟨hlo, hhi⟩ := Character.toNat_of_isDigit hc
      have hzero : c.toNat ≠ '0'.toNat := fun h => hhead (by rw [hdigits, Char.toNat_inj.mp h]; rfl)
      change c.toNat ≠ 48 at hzero
      refine ⟨[c], ⟨c, ?_, rfl⟩, digits, ?_, rfl⟩
      · simp only [List.any_cons, List.any_nil, Pattern.Item.covers, Pattern.Alphabet.codes]
        simp
        omega
      · rw [Pattern.Node.language_star, Arithmetic.language_digit]
        exact Pattern.mem_kstar_oneOf.mpr hrest

theorem isDigit_of_mem_wholeTree {t : Text} (h : t ∈ Json.wholeTree.language) :
    t ≠ [] ∧ ∀ c ∈ t, c.isDigit = true := by
  refine ⟨(Json.opens_wholeTree t h).ne_nil, ?_⟩
  rcases (Language.mem_add ..).mp h with hzero | ⟨first, hfirst, digits, hdigits, rfl⟩
  · have hstarts := Pattern.Node.opens_one '0' t hzero
    obtain ⟨c, -, rfl⟩ := hzero
    rw [List.forall_mem_singleton, Text.starts_cons.mp hstarts]
    decide
  · have hstarts := Json.opens_positive first hfirst
    obtain ⟨c, -, rfl⟩ := hfirst
    rw [Pattern.Node.language_star, Arithmetic.language_digit] at hdigits
    exact List.forall_mem_cons.mpr
      ⟨(Text.starts_cons.mp hstarts).1, Pattern.mem_kstar_oneOf.mp hdigits⟩

/-- Every text that the pattern of integers takes is read as one. -/
theorem exists_toInt?_eq {t : Text} (h : t ∈ numberPattern.root.language) :
    ∃ n, Text.toInt? t = some n := by
  obtain ⟨sign, hsign, digits, hmem, rfl⟩ := h
  obtain ⟨hne, hdigits⟩ := isDigit_of_mem_wholeTree hmem
  rw [Pattern.Node.language_maybe] at hsign
  rcases (Language.mem_add ..).mp hsign with rfl | hsign
  · exact ⟨_, Arithmetic.toInt?_of_isDigit hne hdigits⟩
  · obtain ⟨c, hc, rfl⟩ := hsign
    have hcode : '-'.toNat = c.toNat := by
      simpa [Pattern.Item.covers, Pattern.Alphabet.codes] using hc
    obtain rfl := Char.toNat_inj.mp hcode
    exact ⟨_, toInt?_minus hne hdigits⟩

theorem toString_mem_language (n : Int) : (toString n).toList ∈ numberPattern.root.language := by
  rw [toList_toString]
  refine Language.append_mem_mul ?_ (mem_language_wholeTree n.natAbs)
  rw [Pattern.Node.language_maybe]
  split
  · exact (Language.mem_add ..).mpr (.inl Language.nil_mem_one)
  · exact (Language.mem_add ..).mpr (.inr ⟨'-', by decide, rfl⟩)

theorem opens_numberPattern : numberPattern.root.Opens fun c => c = '-' ∨ c.isDigit = true :=
  ((Pattern.Node.opens_one '-').mono fun _ => .inl).cat_maybe
    (Json.opens_wholeTree.mono fun _ => .inr)

/-- An integer goes on until a character comes that is no digit. -/
theorem predictable_numberPattern : numberPattern.root.Predictable (Char.isDigit · = false) := by
  have hsign : (Pattern.Node.maybe (.one '-')).Predictable (· ≠ '-') :=
    .maybe ((Pattern.Node.predictable_set _ _ _).mono fun _ _ => trivial)
      ((Pattern.Node.opens_one '-').mono fun _ h hnot => hnot h)
  refine hsign.cat Json.predictable_wholeTree fun t ht rest _ => ?_
  exact ((Json.opens_wholeTree t ht).append rest).begins.mono (by rintro c h rfl; cases h)

/-- No integer stands where neither a digit comes nor a minus sign with a digit behind it. -/
theorem rejects_numberPattern {text : Text} (hfirst : text.Begins (Char.isDigit · = false))
    (hsign : ∀ more, text = '-' :: more → Text.Begins (Char.isDigit · = false) more) :
    numberPattern.root.Rejects text := by
  refine Pattern.Node.rejects_of_not_isPrefix ?_
  rintro _ ⟨sign, hmem, digits, hdigits, rfl⟩ ⟨rest, rfl⟩
  obtain ⟨d, hd, hdigit⟩ := (Json.opens_wholeTree digits hdigits).append rest
  have hnot (h : Text.Begins (Char.isDigit · = false) (digits ++ rest)) : False := by
    rw [h d hd] at hdigit
    cases hdigit
  rw [Pattern.Node.language_maybe] at hmem
  rcases (Language.mem_add ..).mp hmem with rfl | hmem
  · exact hnot hfirst
  · obtain ⟨c, hc, rfl⟩ := hmem
    have hcode : '-'.toNat = c.toNat := by
      simpa [Pattern.Item.covers, Pattern.Alphabet.codes] using hc
    obtain rfl := Char.toNat_inj.mp hcode
    exact hnot (hsign _ rfl)

variable {ready : World → Prop} {n : Nat} {text rest blanks : Text}

theorem integer_text {t : Text} {k : Int} (h : Text.toInt? t = some k) :
    (Callback.integer.apply [.text t]).result = .ok (.int k) := by
  have happly (v : Value) : (Callback.integer.apply [v]).result = v.integer := rfl
  rw [happly, Value.text, Value.integer, String.toList_ofList, h]

theorem reads_number (hquiet : World.Quiet ready) (k : Int) (hblanks : blanks.Blank)
    (hrest : rest.Solid) (hend : Text.Begins Delimits (blanks ++ rest)) :
    number.Reads ready ((toString k).toList ++ blanks) rest (.int k) := by
  have htakes := predictable_numberPattern _ (toString_mem_language k) _
    (hend.mono fun _ => isDigit_of_delimits)
  have hpattern : (Parser.pattern numberPattern 0).Reads ready (toString k).toList (blanks ++ rest)
      (.text (toString k).toList) := Parser.reads_pattern htakes
  have hvalue := integer_text (toInt?_toString k)
  have hmapped := (hpattern.lexeme hblanks hrest).map hquiet
    (f := fun v => Callback.integer.apply [v]) hvalue
  exact hmapped.label "number"

theorem refuses_number (h : numberPattern.root.Rejects text) : number.Refuses ready text :=
  ((Parser.refuses_pattern h).lexeme.map _).label _

end Integers

section Symbols

/-- The items of a character that may start a symbol. -/
abbrev firstItems : List Pattern.Item :=
  letterItem :: signs

/-- The items of a further character of a symbol. -/
abbrev laterItems : List Pattern.Item :=
  letterItem :: .range '0'.toNat '9'.toNat :: signs

/-- Whether a character belongs to one of some items when case is ignored. -/
def within (items : List Pattern.Item) (c : Char) : Bool :=
  items.any (·.covers { caseless := true } c)

/-- A symbol: a text that the pattern matches as a whole, and that does not begin as a
negative integer does. -/
structure Symbol where
  name : Text
  matched : symbolPattern.match? 0 name 0 = some (name.length, some name)
  unsigned : ∀ d more, name = '-' :: d :: more → d.isDigit = false

theorem within_of_delimits {c : Char} (h : Delimits c) : within laterItems c = false := by
  rcases h with hblank | rfl | rfl | rfl
  · -- White space is a short table, and none of it counts as a letter.
    have htable : ((Character.blankRanges.flatMap fun range =>
        List.range' range.1 (range.2 + 1 - range.1)).all
          fun code => !within laterItems (Char.ofNat code)) = true := by
      decide +kernel
    have hcode := List.all_eq_true.mp htable _ (Character.mem_of_inRanges hblank)
    rw [Char.ofNat_toNat] at hcode
    simpa using hcode
  · decide +kernel
  · decide +kernel
  · decide +kernel

theorem within_first_of_isDigit {c : Char} (h : c.isDigit = true) :
    within firstItems c = false := by
  have htable : ((List.range' 0x30 10).all fun code => !within firstItems (Char.ofNat code)) =
      true := by
    decide +kernel
  obtain ⟨hlo, hhi⟩ := Character.toNat_of_isDigit h
  have hcode := List.all_eq_true.mp htable c.toNat (List.mem_range'_1.mpr (by omega))
  rw [Char.ofNat_toNat] at hcode
  simpa using hcode

/-- What may start a symbol may also stand further on in it. -/
theorem within_later {c : Char} (h : within firstItems c = true) :
    within laterItems c = true := by
  simp only [within, List.any_cons, Bool.or_eq_true] at h ⊢
  exact h.imp_right .inr

theorem mem_language_symbolPattern {t : Text} : t ∈ symbolPattern.root.language ↔
    ∃ c more, t = c :: more ∧ within firstItems c = true ∧
      ∀ d ∈ more, within laterItems d = true := by
  have hset (items : List Pattern.Item) :
      (Pattern.Node.set { caseless := true } false items).language =
        Pattern.oneOf (within items) := by
    exact congrArg Pattern.oneOf (funext fun c => Bool.xor_false _)
  have hroot : symbolPattern.root.language =
      Pattern.oneOf (within firstItems) * (Pattern.oneOf (within laterItems))∗ := by
    rw [← hset, ← hset, ← Pattern.Node.language_star]
    rfl
  rw [hroot]
  constructor
  · rintro ⟨_, ⟨c, hc, rfl⟩, more, hmore, rfl⟩
    exact ⟨c, more, rfl, hc, Pattern.mem_kstar_oneOf.mp hmore⟩
  · rintro ⟨c, more, rfl, hc, hmore⟩
    exact ⟨[c], ⟨c, hc, rfl⟩, more, Pattern.mem_kstar_oneOf.mpr hmore, rfl⟩

namespace Symbol

variable (s : Symbol)

theorem mem_language : s.name ∈ symbolPattern.root.language := by
  obtain ⟨t, ht, rest, htext, hstop, -⟩ :=
    symbolPattern.match?_eq_some 0 s.name (Int.natCast_nonneg _) s.matched
  have hlength := congrArg List.length htext
  simp only [Int.toNat_zero, List.drop_zero, List.length_append, Nat.zero_add] at *
  have hrest : rest = [] := List.length_eq_zero_iff.mp (by omega)
  rw [htext, hrest, List.append_nil]
  exact ht

theorem within_of_mem {c : Char} (h : c ∈ s.name) : within laterItems c = true := by
  obtain ⟨d, more, heq, hd, hmore⟩ := mem_language_symbolPattern.mp s.mem_language
  rw [heq] at h
  rcases List.mem_cons.mp h with rfl | h
  · exact within_later hd
  · exact hmore c h

theorem not_delimits_of_mem {c : Char} (h : c ∈ s.name) : ¬ Delimits c := by
  intro hdelimits
  have hwithin := s.within_of_mem h
  rw [within_of_delimits hdelimits] at hwithin
  cases hwithin

theorem starts : s.name.Starts fun c => c.isDigit = false ∧ ¬ Delimits c := by
  obtain ⟨c, more, heq, hc, -⟩ := mem_language_symbolPattern.mp s.mem_language
  have hmem : c ∈ s.name := heq ▸ List.mem_cons_self
  rw [heq]
  refine Text.starts_cons.mpr ⟨?_, s.not_delimits_of_mem hmem⟩
  by_contra hdigit
  rw [within_first_of_isDigit (by simpa using hdigit)] at hc
  cases hc

/-- No integer stands at the start of a symbol. -/
theorem rejects {rest : Text} (hrest : rest.Begins Delimits) :
    numberPattern.root.Rejects (s.name ++ rest) := by
  refine rejects_numberPattern ((s.starts.append rest).begins.mono fun _ h => h.1) ?_
  intro more hmore
  rcases hname : s.name with _ | ⟨c, name⟩
  · exact absurd hname s.starts.ne_nil
  · rw [hname, List.cons_append] at hmore
    obtain ⟨rfl, rfl⟩ := List.cons.inj hmore
    refine Text.Begins.append ?_ (hrest.mono fun _ => isDigit_of_delimits)
    intro d hd
    obtain ⟨more, rfl⟩ := List.head?_eq_some_iff.mp hd
    exact s.unsigned d more hname

end Symbol

theorem opens_symbolPattern : symbolPattern.root.Opens fun c => ¬ Delimits c := by
  intro t ht
  obtain ⟨c, more, rfl, hc, -⟩ := mem_language_symbolPattern.mp ht
  refine Text.starts_cons.mpr fun hdelimits => ?_
  have hwithin := within_later hc
  rw [within_of_delimits hdelimits] at hwithin
  cases hwithin

/-- A symbol goes on until a delimiter comes. -/
theorem predictable_symbolPattern : symbolPattern.root.Predictable Delimits := by
  have hlater : (Pattern.Node.set { caseless := true } false laterItems).Opens
      fun c => ¬ Delimits c := by
    refine Pattern.Node.opens_set fun c hc hdelimits => ?_
    have hwithin : within laterItems c = true := by simpa [within] using hc
    rw [within_of_delimits hdelimits] at hwithin
    cases hwithin
  exact (Pattern.Node.predictable_set _ _ _).cat
    ((Pattern.Node.predictable_set _ _ _).star hlater) fun _ _ _ _ _ _ => trivial

variable {ready : World → Prop} {text rest blanks : Text}

theorem reads_word (s : Symbol) (hblanks : blanks.Blank) (hrest : rest.Solid)
    (hend : Text.Begins Delimits (blanks ++ rest)) :
    word.Reads ready (s.name ++ blanks) rest (.text s.name) := by
  have htakes := predictable_symbolPattern s.name s.mem_language _ hend
  exact ((Parser.reads_pattern htakes).lexeme hblanks hrest).label _

theorem refuses_word (h : text.Begins Delimits) : word.Refuses ready text :=
  (Parser.refuses_pattern
    (opens_symbolPattern.rejects (h.mono fun _ hc => not_not_intro hc))).lexeme.label _

end Symbols

end Reader.Lisp

end Descent
