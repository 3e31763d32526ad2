/-
# Tokens of data documents

Which texts are numbers and strings, and what ends them. A number is taken as a whole
unless the next character could be a part of it; a string ends at its closing quote.
-/

import Descent.Proofs.Grammar.Token
import Descent.Reader.Json

namespace Descent

namespace Reader.Json

section Numbers

open Pattern.Node

/-- The digits before the point of a number. -/
abbrev wholeTree : Pattern.Node :=
  .group 1 (.either (.one '0') (.cat (.among [.range '1'.toNat '9'.toNat]) (.star .digit)))

/-- The digits behind the point of a number. -/
abbrev fractionTree : Pattern.Node :=
  .group 2 (.cat (.one '.') (.plus .digit))

/-- The exponent of a number. -/
abbrev exponentTree : Pattern.Node :=
  .group 3 (.cat (.among [.code 'e'.toNat, .code 'E'.toNat])
    (.cat (.maybe (.among [.code '+'.toNat, .code '-'.toNat])) (.plus .digit)))

/-- The characters that may not stand behind a number, since they would be part of it. -/
def Continues (c : Char) : Prop :=
  c.isDigit = true ∨ c = '.' ∨ c = 'e' ∨ c = 'E'

instance : DecidablePred Continues :=
  fun c => inferInstanceAs (Decidable (c.isDigit = true ∨ c = '.' ∨ c = 'e' ∨ c = 'E'))

theorem opens_positive :
    (among [.range '1'.toNat '9'.toNat]).Opens fun c => c.isDigit = true ∧ c ≠ '0' := by
  refine opens_range fun x hlo hhi => ⟨?_, ?_⟩
  · have hzero : '0'.toNat ≤ x.toNat := Nat.le_trans (by decide) hlo
    simpa [Char.isDigit, UInt32.le_iff_toNat_le] using ⟨hzero, hhi⟩
  · rintro rfl
    exact absurd hlo (by decide)

theorem opens_wholeTree : wholeTree.Opens (Char.isDigit · = true) :=
  Opens.either ((opens_one '0').mono (by rintro _ rfl; decide))
    (opens_positive.mono fun _ h => h.1).cat

theorem opens_fractionTree : fractionTree.Opens (· = '.') :=
  (opens_one '.').cat

theorem opens_exponentTree : exponentTree.Opens fun c => c = 'e' ∨ c = 'E' :=
  (opens_pair 'e' 'E').cat

theorem opens_numberPattern : numberPattern.root.Opens fun c => c = '-' ∨ c.isDigit = true :=
  ((opens_one '-').mono fun _ => .inl).cat_maybe (opens_wholeTree.mono fun _ => .inr).cat

theorem predictable_wholeTree : wholeTree.Predictable (Char.isDigit · = false) := by
  have hdigits : (star digit).Predictable (Char.isDigit · = false) :=
    .star (predictable_set _ _ _) (opens_digit.mono fun _ h => by simp [h])
  refine .group 1 (.either ((predictable_set _ _ _).mono fun _ _ => trivial) ?_ (opens_one '0')
    (opens_positive.mono fun _ h => h.2).cat)
  exact (predictable_set _ _ _).cat hdigits fun _ _ _ _ _ _ => trivial

theorem predictable_fractionTree :
    (maybe fractionTree).Predictable fun c => c.isDigit = false ∧ c ≠ '.' := by
  have hdigits := predictable_plus_digit.mono
    fun c (h : c.isDigit = false ∧ c ≠ '.') => h.1
  refine .maybe (.group 2 ?_) (opens_fractionTree.mono fun _ h hnot => hnot.2 h)
  exact (predictable_set _ _ _).cat hdigits fun _ _ _ _ _ _ => trivial

theorem predictable_exponentTree :
    (maybe exponentTree).Predictable fun c => c.isDigit = false ∧ c ≠ 'e' ∧ c ≠ 'E' := by
  have hdigits := predictable_plus_digit.mono
    fun c (h : c.isDigit = false ∧ c ≠ 'e' ∧ c ≠ 'E') => h.1
  have hsign : (maybe (among [.code '+'.toNat, .code '-'.toNat])).Predictable
      fun c => c.isDigit = true :=
    .maybe ((predictable_set _ _ _).mono fun _ _ => trivial)
      ((opens_pair '+' '-').mono (by rintro _ (rfl | rfl) <;> decide))
  refine .maybe (.group 3 ?_) (opens_exponentTree.mono ?_)
  · refine (predictable_set _ _ _).cat (hsign.cat hdigits fun t ht rest _ => ?_)
      fun _ _ _ _ _ _ => trivial
    exact ((opens_digit.plus t ht).append rest).begins
  · rintro _ (rfl | rfl) hnot
    · exact hnot.2.1 rfl
    · exact hnot.2.2 rfl

/-- A number is taken as a whole unless a character that continues it stands behind it. -/
theorem predictable_numberPattern : numberPattern.root.Predictable fun c => ¬ Continues c := by
  have hexponent := predictable_exponentTree.mono fun c (h : ¬ Continues c) => by
    simp only [Continues, not_or] at h
    exact ⟨by simpa using h.1, h.2.2⟩
  have hfraction := predictable_fractionTree.cat hexponent fun t ht rest hrest => by
    refine Text.Begins.append ((opens_exponentTree.begins_maybe ht).mono ?_) (hrest.mono ?_)
    · rintro _ (rfl | rfl) <;> decide
    · intro c h
      simp only [Continues, not_or] at h
      exact ⟨by simpa using h.1, h.2.1⟩
  have hwhole := predictable_wholeTree.cat hfraction fun t ht rest hrest => by
    obtain ⟨t₁, ht₁, t₂, ht₂, rfl⟩ := ht
    refine Text.Begins.append (Text.Begins.append ?_ ?_) (hrest.mono ?_)
    · exact (opens_fractionTree.begins_maybe ht₁).mono (by rintro _ rfl; decide)
    · exact (opens_exponentTree.begins_maybe ht₂).mono (by rintro _ (rfl | rfl) <;> decide)
    · intro c h
      simp only [Continues, not_or] at h
      simpa using h.1
  have hsign : (maybe (one '-')).Predictable (· ≠ '-') :=
    .maybe ((predictable_set _ _ _).mono fun _ _ => trivial)
      ((opens_one '-').mono fun _ h hnot => hnot h)
  refine hsign.cat hwhole fun t ht rest _ => ?_
  exact ((opens_wholeTree.cat t ht).append rest).begins.mono (by rintro c h rfl; cases h)

end Numbers

section Strings

open Pattern.Node

/-- A character of a string that stands for itself. -/
abbrev plainTree : Pattern.Node :=
  .set {} true [.code '"'.toNat, .code '\\'.toNat]

/-- A character of a string behind a backslash. -/
abbrev escapedTree : Pattern.Node :=
  .cat (.one '\\') (.any false)

theorem opens_plainTree : plainTree.Opens fun c => c ≠ '"' ∧ c ≠ '\\' := by
  refine opens_set fun x hx => ?_
  constructor <;> rintro rfl <;> exact absurd hx (by decide)

theorem opens_escapedTree : escapedTree.Opens (· = '\\') :=
  (opens_one '\\').cat

theorem opens_stringPattern : stringPattern.root.Opens (· = '"') :=
  (opens_one '"').cat

/-- A string ends at the first quote without a backslash before it, whatever follows. -/
theorem predictable_stringPattern : stringPattern.root.Predictable fun _ => True := by
  have hpart : (either plainTree escapedTree).Predictable fun _ => True := by
    refine .either (predictable_set _ _ _) ?_ opens_plainTree
      (opens_escapedTree.mono fun _ h hnot => hnot.2 h)
    exact (predictable_set _ _ _).cat (predictable_any false) fun _ _ _ _ _ _ => trivial
  have hquote : (either plainTree escapedTree).Opens fun c => ¬ c = '"' :=
    (opens_plainTree.mono fun _ h => h.1).either
      (opens_escapedTree.mono (by rintro _ rfl; decide))
  have hclosed := ((hpart.star hquote).group 1).cat (predictable_set {} false [.code '"'.toNat])
    fun t ht rest _ => ((opens_one '"' t ht).append rest).begins
  exact (predictable_set _ _ _).cat hclosed fun _ _ _ _ _ _ => trivial

end Strings

section Tokens

/-- A number, with its value and white space behind it. -/
def NumberToken (d : Decoder) (t : Text) (v : Value) : Prop :=
  ∃ body blanks, t = body ++ blanks ∧ body ∈ numberPattern.root.language ∧
    v = d.number body ∧ blanks.Blank

/-- A string that can be decoded, with its code points and white space behind it. -/
def StringToken (d : Decoder) (t : Text) (codes : List Nat) : Prop :=
  ∃ body blanks, t = body ++ blanks ∧ body ∈ stringPattern.root.language ∧
    d.string body = .ok codes ∧ blanks.Blank

variable {d : Decoder} {ready : World → Prop} {n : Nat} {t text rest body : Text} {v : Value}
  {codes : List Nat}

theorem NumberToken.starts (h : NumberToken d t v) :
    t.Starts fun c => c = '-' ∨ c.isDigit = true := by
  obtain ⟨body, blanks, rfl, hbody, -⟩ := h
  exact (opens_numberPattern body hbody).append blanks

theorem StringToken.starts (h : StringToken d t codes) : t.Starts (· = '"') := by
  obtain ⟨body, blanks, rfl, hbody, -⟩ := h
  exact (opens_stringPattern body hbody).append blanks

/-- White space is no part of a number. -/
theorem not_continues_of_isBlank {c : Char} (h : Character.isBlank c = true) :
    ¬ Continues c := by
  rintro (hdigit | rfl | rfl | rfl)
  · rw [Character.isBlank_of_isDigit hdigit] at h
    cases h
  · exact absurd h (by decide)
  · exact absurd h (by decide)
  · exact absurd h (by decide)

/-- Every number token has a value. -/
theorem decodeNumber_text (d : Decoder) (body : Text) :
    d.decodeNumber (.text body) = .ok (d.number body) := by
  simp [Decoder.decodeNumber, Value.text]

theorem decodeString_text (d : Decoder) (body : Text) :
    d.decodeString (.text body) = (d.string body).map stringOf := by
  simp [Decoder.decodeString, Value.text]

theorem reads_number (hquiet : World.Quiet ready) (h : NumberToken d t v) (hrest : rest.Solid)
    (hend : rest.Begins fun c => ¬ Continues c) : (number d).Reads ready t rest v := by
  obtain ⟨body, blanks, rfl, hbody, rfl, hblanks⟩ := h
  have hbehind : Text.Begins (fun c => ¬ Continues c) (blanks ++ rest) :=
    (hblanks.begins not_continues_of_isBlank).append hend
  have htakes := predictable_numberPattern body hbody _ hbehind
  have hvalue := decodeNumber_text d body
  exact (((Parser.reads_pattern htakes).lexeme hblanks hrest).map hquiet hvalue).label _

theorem reads_string (hquiet : World.Quiet ready) (h : StringToken d t codes)
    (hrest : rest.Solid) : (string d).Reads ready t rest (stringOf codes) := by
  obtain ⟨body, blanks, rfl, hbody, hcodes, hblanks⟩ := h
  have htakes := predictable_stringPattern body hbody (blanks ++ rest) fun _ _ => trivial
  have hdecoded : d.decodeString (.text body) = .ok (stringOf codes) := by
    rw [decodeString_text, hcodes]
    rfl
  exact (((Parser.reads_pattern htakes).lexeme hblanks hrest).map hquiet hdecoded).label _

theorem refuses_number (h : text.Begins fun c => ¬ (c = '-' ∨ c.isDigit = true)) :
    (number d).Refuses ready text :=
  ((Parser.refuses_pattern (opens_numberPattern.rejects h)).lexeme.map _).label _

theorem refuses_string (h : text.Begins (· ≠ '"')) : (string d).Refuses ready text :=
  ((Parser.refuses_pattern (opens_stringPattern.rejects h)).lexeme.map _).label _

theorem yields_number (d : Decoder) (hquiet : World.Quiet ready) :
    (number d).Yields ready n (NumberToken d) := by
  refine ((Parser.yields_pattern numberPattern).lexeme.map hquiet ?_).label _
  rintro _ _ v' ⟨body, blanks, rfl, ⟨hbody, rfl⟩, hblanks⟩ hvalue
  refine ⟨body, blanks, rfl, hbody, ?_, hblanks⟩
  exact Except.ok.inj (hvalue.symm.trans (decodeNumber_text d body))

theorem yields_string (d : Decoder) (hquiet : World.Quiet ready) :
    (string d).Yields ready n fun t v => ∃ codes, v = stringOf codes ∧ StringToken d t codes := by
  refine ((Parser.yields_pattern stringPattern).lexeme.map hquiet ?_).label _
  rintro _ _ v' ⟨body, blanks, rfl, ⟨hbody, rfl⟩, hblanks⟩ hvalue
  have hdecoded : (d.string body).map stringOf = .ok v' :=
    (decodeString_text d body).symm.trans hvalue
  rcases hcodes : d.string body with fault | codes
  · rw [hcodes] at hdecoded
    cases hdecoded
  · rw [hcodes] at hdecoded
    cases hdecoded
    exact ⟨codes, rfl, body, blanks, rfl, hbody, hcodes, hblanks⟩

end Tokens

end Reader.Json

end Descent
