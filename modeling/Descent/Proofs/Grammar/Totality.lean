/-
# Readers come to an end

Each of the three readers comes to an end on every input, well formed or not. No loop makes
a turn that consumes nothing, no reference is left unbound, and no other fault can end a
reading than those of the functions that a grammar applies: the reader of symbolic
expressions has none, that of documents may fail to decode a string, and that of
calculations may fail to compute. The way back to a rule always leads over a token, so
everything follows by induction on the length of the text that is left.
-/

import Descent.Proofs.Grammar.Arithmetic.Calculation
import Descent.Proofs.Grammar.Conclusion
import Descent.Proofs.Grammar.Json.Document
import Descent.Proofs.Grammar.Lisp.Expression

namespace Descent.Reader

open Filter

namespace Lisp

variable {n : Nat} {text : Text} {faults : Text → Fault → Prop}

/-- Whatever is consumed as an expression is not empty. -/
theorem yields_expression (n : Nat) : expression.Yields Ready n fun t _ => t ≠ [] := by
  refine Parser.yields_reference (fun n hexpression => Parser.yields_choice ?_) n
  have hbracket := ((Parser.yields_symbol "(").andThen hexpression.many).skip
    (Parser.yields_symbol ")")
  have hquote := (Parser.yields_symbol "'").andThen hexpression
  simp only [List.forall_mem_cons]
  refine ⟨?_, ?_, hbracket.mono ?_, hquote.map quiet_ready ?_, by simp⟩
  · refine ((Parser.yields_pattern numberPattern).lexeme.map quiet_ready ?_).label _
    rintro _ _ _ ⟨body, blanks, rfl, ⟨hbody, -⟩, -⟩ -
    exact ((opens_numberPattern body hbody).append blanks).ne_nil
  · refine ((Parser.yields_pattern symbolPattern).lexeme.label _).mono ?_
    rintro _ _ ⟨body, blanks, rfl, ⟨hbody, -⟩, -⟩
    exact ((opens_symbolPattern body hbody).append blanks).ne_nil
  · rintro _ _ ⟨_, closing, _, rfl, ⟨opening, row, _, rfl, ⟨blanks, -, rfl⟩, -⟩, -⟩
    simp
  · rintro _ _ _ ⟨mark, t, _, rfl, ⟨blanks, -, rfl⟩, -⟩ -
    simp

theorem concludes_number (text : Text) : number.Concludes Ready faults text := by
  have hpattern : (lexeme (.pattern numberPattern 0)).Concludes Ready faults text :=
    (Parser.concludes_pattern _ 0 text).lexeme fun _ => Parser.yields_pattern _
  refine (hpattern.map quiet_ready (fun n => (Parser.yields_pattern numberPattern).lexeme)
    ?_).label (by decide)
  rintro before _ rest _ fault - ⟨body, blanks, rfl, ⟨hbody, rfl⟩, -⟩ hfault
  obtain ⟨k, hk⟩ := exists_toInt?_eq hbody
  cases (integer_text hk).symm.trans hfault

theorem concludes_word (text : Text) : word.Concludes Ready faults text :=
  ((Parser.concludes_pattern symbolPattern 0 text).lexeme
    fun _ => Parser.yields_pattern symbolPattern).label (by decide)

theorem concludes_expression (text : Text) : expression.Concludes Ready faults text := by
  induction hlength : text.length using Nat.strongRecOn generalizing text with
  | ind length ih =>
    have hshorter (rest : Text) (hrest : rest.length < text.length) :
        expression.Concludes Ready faults rest :=
      ih rest.length (by omega) rest rfl
    have hitems (rest : Text) (hrest : rest.length < text.length) :
        expression.many.Concludes Ready faults rest :=
      Parser.Concludes.many (fun rest' hrest' => hshorter rest' (by omega)) yields_expression
        fun _ _ ht => ht
    have hlist : list.Concludes Ready faults text :=
      Parser.concludes_between (by simp) hitems fun n => (yields_expression n).many
    have hquotation : quotation.Concludes Ready faults text := by
      refine (Parser.concludes_symbol_andThen (by simp) hshorter).map quiet_ready
        (fun n => (Parser.yields_symbol "'").andThen (yields_expression n)) ?_
      exact fun _ _ _ _ _ _ _ hfault => by cases hfault
    have hbody : expressionBody.Concludes Ready faults text := by
      refine Parser.concludes_choice ?_
      simp only [List.forall_mem_cons]
      exact ⟨concludes_number text, concludes_word text, hlist, hquotation, by simp⟩
    exact hbody.reference

theorem concludes_program (text : Text) : program.Concludes Ready faults text := by
  refine (Parser.concludes_optionalWhitespace text).andThen
    (fun _ => Parser.yields_optionalWhitespace) fun _ rest _ _ _ => ?_
  exact Parser.Concludes.many (fun rest' _ => concludes_expression rest') yields_expression
    fun _ _ ht => ht

end Lisp

namespace Json

/-- The fault is one of decoding a string: the pattern of strings matches somewhere in the
input, and what it takes is not well formed inside. -/
def StringFault (s : Text) (f : Fault) : Prop :=
  ∃ (offset : Int) (stop : Nat) (body : Text),
    stringPattern.match? 0 s offset = some (stop, some body) ∧
      Decoder.standard.string body = .error f ∧ ∃ problem place, f = .malformedToken problem place

theorem exists_malformed_of_codeUnits {inside : Text} {offset : Nat} {f : Fault}
    (h : codeUnits offset inside = .error f) :
    ∃ problem place, f = .malformedToken problem place := by
  have hnext {x : Nat} {more : Except Fault (List Nat)}
      (h : (do return x :: (← more)) = Except.error f) : more = .error f := by
    cases more with
    | error fault => exact h
    | ok units => cases h
  fun_induction codeUnits offset inside with
  | case1 => cases h
  | case2 offset a b c d rest hhex ih => exact ih (hnext h)
  | case3 =>
      cases h
      exact ⟨_, _, rfl⟩
  | case4 =>
      cases h
      exact ⟨_, _, rfl⟩
  | case5 offset c rest _ _ x hx ih => exact ih (hnext h)
  | case6 =>
      cases h
      exact ⟨_, _, rfl⟩
  | case7 =>
      cases h
      exact ⟨_, _, rfl⟩
  | case8 offset c rest _ _ _ _ hcontrol ih => exact ih (hnext h)
  | case9 => cases h

/-- The fault is the one of a decoder for a text that the pattern of strings takes somewhere in
the input. -/
def DecodingFault (d : Decoder) (s : Text) (f : Fault) : Prop :=
  ∃ (offset : Int) (stop : Nat) (body : Text), body ∈ stringPattern.root.language ∧
    stringPattern.match? 0 s offset = some (stop, some body) ∧ d.string body = .error f

/-- A text that is taken as a string where it stands is one that the pattern matches. -/
theorem decodingFault_of_mem {d : Decoder} {before body rest : Text} {f : Fault}
    (hbody : body ∈ stringPattern.root.language) (hf : d.string body = .error f) :
    DecodingFault d (before ++ (body ++ rest)) f := by
  have htakes := predictable_stringPattern body hbody rest fun _ _ => trivial
  exact ⟨before.length, _, body, hbody, Pattern.match?_of_takes htakes before, hf⟩

/-- The decoder of the format refuses a string only for what is inside. -/
theorem DecodingFault.stringFault {s : Text} {f : Fault} (h : DecodingFault .standard s f) :
    StringFault s f := by
  obtain ⟨offset, stop, body, hbody, hmatch, hf⟩ := h
  refine ⟨offset, stop, body, hmatch, hf, ?_⟩
  obtain ⟨c, hc, rfl⟩ := opens_stringPattern body hbody
  obtain ⟨inside, rfl⟩ := List.head?_eq_some_iff.mp hc
  have hcodes : Decoder.standard.string ('"' :: inside) =
      (codeUnits 1 inside).map joinSurrogates := rfl
  rw [hcodes] at hf
  rcases hunits : codeUnits 1 inside with fault | units
  · rw [hunits] at hf
    cases hf
    exact exists_malformed_of_codeUnits hunits
  · rw [hunits] at hf
    cases hf

variable {d : Decoder} {n : Nat} {text : Text}

theorem concludes_word {s : String} {v : Value} (text : Text) :
    ((symbol s).result v).Concludes (Ready d) (DecodingFault d) text :=
  (Parser.concludes_symbol s text).map (quiet_ready d) (fun _ => Parser.yields_symbol s)
    fun _ _ _ _ _ _ _ hfault => by cases hfault

theorem concludes_number (text : Text) :
    (number d).Concludes (Ready d) (DecodingFault d) text := by
  have hpattern : (lexeme (.pattern numberPattern 0)).Concludes (Ready d) (DecodingFault d) text :=
    (Parser.concludes_pattern _ 0 text).lexeme fun _ => Parser.yields_pattern _
  refine (hpattern.map (quiet_ready d) (fun n => (Parser.yields_pattern numberPattern).lexeme)
    ?_).label (by decide)
  rintro before _ rest _ fault - ⟨body, blanks, rfl, ⟨hbody, rfl⟩, -⟩ hfault
  cases (decodeNumber_text d body).symm.trans hfault

theorem concludes_string (text : Text) :
    (string d).Concludes (Ready d) (DecodingFault d) text := by
  have hpattern : (lexeme (.pattern stringPattern 0)).Concludes (Ready d) (DecodingFault d) text :=
    (Parser.concludes_pattern _ 0 text).lexeme fun _ => Parser.yields_pattern _
  refine (hpattern.map (quiet_ready d) (fun n => (Parser.yields_pattern stringPattern).lexeme)
    ?_).label (by decide)
  rintro before _ rest _ fault rfl ⟨body, blanks, rfl, ⟨hbody, rfl⟩, -⟩ hfault
  have hdecoded : (d.string body).map stringOf = .error fault :=
    (decodeString_text d body).symm.trans hfault
  rw [List.append_assoc]
  rcases hstring : d.string body with f | codes
  · rw [hstring] at hdecoded
    cases hdecoded
    exact decodingFault_of_mem hbody hstring
  · rw [hstring] at hdecoded
    cases hdecoded

/-- An entry concludes if values do on all shorter texts, since a key stands before them. -/
theorem concludes_entry
    (hvalue : ∀ rest, rest.length < text.length →
      value.Concludes (Ready d) (DecodingFault d) rest) :
    (entry d).Concludes (Ready d) (DecodingFault d) text := by
  have hrow : Parser.ConcludesEach (Ready d) (DecodingFault d) [string d, symbol ":", value]
      text := by
    refine .cons (concludes_string text) (fun _ => yields_string d (quiet_ready d)) ?_
    rintro name more _ rfl ⟨key, -, hname⟩
    have hpos := List.length_pos_iff.mpr hname.starts.ne_nil
    refine .cons (Parser.concludes_symbol ":" more) (fun _ => Parser.yields_symbol ":") ?_
    rintro colon rest _ rfl -
    refine .cons (hvalue rest ?_) yields_value fun _ _ _ _ _ => .nil
    simp only [List.length_append]
    omega
  refine hrow.sequence.map (quiet_ready d) (fun n => Parser.yields_sequence
    (.cons (yields_string d (quiet_ready d)) (.cons (Parser.yields_symbol ":")
      (.cons (yields_value n) .nil)))) ?_
  rintro before t rest _ fault - ⟨vs, rfl, heach⟩ hfault
  cases heach with
  | cons _ heach =>
      cases heach with
      | cons _ heach =>
          cases heach with
          | cons _ heach =>
              cases heach
              cases hfault

theorem concludes_object
    (hvalue : ∀ rest, rest.length < text.length →
      value.Concludes (Ready d) (DecodingFault d) rest) :
    (object d).Concludes (Ready d) (DecodingFault d) text := by
  have hentries (rest : Text) (hrest : rest.length < text.length) :
      ((entry d).sepBy (symbol ",")).Concludes (Ready d) (DecodingFault d) rest :=
    Parser.Concludes.sepBy (quiet_ready d) (by simp)
      (fun rest' hrest' => concludes_entry fun more hmore => hvalue more (by omega))
      fun n => yields_entry (yields_value n)
  have hrows (n : Nat) := (yields_entry (yields_value n)).sepBy (quiet_ready d) ","
  refine (Parser.concludes_between (by simp) hentries hrows).map (quiet_ready d)
    (fun n => (Parser.yields_symbol "\x7b").between (hrows n) (Parser.yields_symbol "\x7d")) ?_
  rintro before _ rest _ fault - ⟨opening, row, closing, _, _, rfl, -, ⟨items, hitems, -, rfl⟩, -⟩
    hfault
  obtain ⟨entries, -, -, hvalues⟩ := exists_entries hitems
  rw [hvalues] at hfault
  cases (dictionary_list entries).symm.trans hfault

theorem concludes_array
    (hvalue : ∀ rest, rest.length < text.length →
      value.Concludes (Ready d) (DecodingFault d) rest) :
    array.Concludes (Ready d) (DecodingFault d) text := by
  have hitems (rest : Text) (hrest : rest.length < text.length) :
      (value.sepBy (symbol ",")).Concludes (Ready d) (DecodingFault d) rest :=
    Parser.Concludes.sepBy (quiet_ready d) (by simp)
      (fun rest' hrest' => hvalue rest' (by omega)) yields_value
  exact Parser.concludes_between (by simp) hitems
    fun n => (yields_value n).sepBy (quiet_ready d) ","

theorem concludes_value (text : Text) : value.Concludes (Ready d) (DecodingFault d) text := by
  induction hlength : text.length using Nat.strongRecOn generalizing text with
  | ind length ih =>
    have hshorter (rest : Text) (hrest : rest.length < text.length) :
        value.Concludes (Ready d) (DecodingFault d) rest :=
      ih rest.length (by omega) rest rfl
    have hbody : (valueBody d).Concludes (Ready d) (DecodingFault d) text := by
      refine Parser.concludes_choice ?_
      simp only [List.forall_mem_cons]
      exact ⟨concludes_word text, concludes_word text, concludes_word text, concludes_string text,
        concludes_number text, concludes_object hshorter, concludes_array hshorter, by simp⟩
    exact hbody.reference

theorem concludes_document (text : Text) : document.Concludes (Ready d) (DecodingFault d) text :=
  (Parser.concludes_optionalWhitespace text).andThen
    (fun _ => Parser.yields_optionalWhitespace) fun _ rest _ _ _ => concludes_value rest

end Json

namespace Arithmetic

/-- The faults of arithmetic: a division by zero, and an integer too large for a double. -/
def ArithmeticFault (f : Fault) : Prop :=
  f = .divisionByZero ∨ f = .tooLarge

/-- The value is a number. -/
def IsNumber (v : Value) : Prop :=
  ∃ a : Number, v = a.toValue

/-- What arithmetic comes to: a number or a fault of its own. -/
structure Computed (e : Except Fault Value) : Prop where
  number : ∀ v, e = .ok v → IsNumber v
  fault : ∀ f, e = .error f → ArithmeticFault f

section Numbers

theorem eq_tooLarge_of_toFloat {a : Number} {f : Fault} (h : a.toFloat = .error f) :
    f = .tooLarge := by
  cases a with
  | float x => cases h
  | int m =>
      simp only [Number.toFloat] at h
      split at h
      · cases h
      · cases h
        rfl

/-- An operation on two doubles fails only where an integer is no double. -/
theorem eq_tooLarge_of_rounded {a b : Number} {rounded : Float → Float → Float} {f : Fault}
    (h : (do return .float (rounded (← a.toFloat) (← b.toFloat)) : Except Fault Number) =
      .error f) : f = .tooLarge := by
  rcases ha : a.toFloat with fault | x
  · rw [ha] at h
    cases h
    exact eq_tooLarge_of_toFloat ha
  · rcases hb : b.toFloat with fault | y
    · rw [ha, hb] at h
      cases h
      exact eq_tooLarge_of_toFloat hb
    · rw [ha, hb] at h
      cases h

theorem fault_of_combine {exact : Int → Int → Int} {rounded : Float → Float → Float}
    {a b : Number} {f : Fault} (h : Number.combine exact rounded a b = .error f) :
    ArithmeticFault f := by
  unfold Number.combine at h
  split at h
  · cases h
  · exact .inr (eq_tooLarge_of_rounded h)

theorem fault_of_divide {a b : Number} {f : Fault} (h : Number.divide a b = .error f) :
    ArithmeticFault f := by
  unfold Number.divide at h
  split at h
  · cases h
    exact .inl rfl
  · split at h
    · split at h
      · cases h
      · cases h
        exact .inr rfl
    · exact .inr (eq_tooLarge_of_rounded h)

theorem Computed.ok {v : Value} (h : IsNumber v) : Computed (.ok v) where
  number _ hv := by
    cases hv
    exact h
  fault _ hf := by cases hf

theorem Computed.error {f : Fault} (h : ArithmeticFault f) : Computed (.error f) where
  number _ hv := by cases hv
  fault _ hf := by
    cases hf
    exact h

/-- An operation on numbers that fails only as arithmetic does. -/
theorem computed_arithmetic {operation : Number → Number → Except Fault Number} {v w : Value}
    (hv : IsNumber v) (hw : IsNumber w)
    (hfault : ∀ a b f, operation a b = .error f → ArithmeticFault f) :
    Computed (v.arithmetic operation w) := by
  obtain ⟨a, rfl⟩ := hv
  obtain ⟨b, rfl⟩ := hw
  have heq : a.toValue.arithmetic operation b.toValue = (operation a b).map Number.toValue := by
    simp only [Value.arithmetic, Number.ofValue?_toValue]
  rcases hresult : operation a b with f | c
  · rw [heq, hresult]
    exact .error (hfault a b f hresult)
  · rw [heq, hresult]
    exact .ok ⟨c, rfl⟩

theorem add_toValue (a b : Number) : a.toValue.add b.toValue =
    a.toValue.arithmetic (Number.combine (· + ·) (· + ·)) b.toValue := by
  cases a <;> cases b <;> rfl

/-- The functions of the signs compute with numbers. -/
theorem computed_apply {sign : Char} {f : Callback} (hf : operations.lookup sign = some f)
    {v w : Value} (hv : IsNumber v) (hw : IsNumber w) : Computed (f.apply [v, w]).result := by
  have hmem : (sign, f) ∈ operations := by
    obtain ⟨before, after, heq, -⟩ := List.lookup_eq_some_iff.mp hf
    exact heq ▸ List.mem_append_right _ List.mem_cons_self
  simp only [operations, List.mem_cons, Prod.mk.injEq, List.not_mem_nil, or_false] at hmem
  rcases hmem with ⟨-, rfl⟩ | ⟨-, rfl⟩ | ⟨-, rfl⟩ | ⟨-, rfl⟩
  · obtain ⟨a, rfl⟩ := hv
    obtain ⟨b, rfl⟩ := hw
    change Computed (a.toValue.add b.toValue)
    rw [add_toValue]
    exact computed_arithmetic ⟨a, rfl⟩ ⟨b, rfl⟩ fun _ _ _ => fault_of_combine
  · exact computed_arithmetic hv hw fun _ _ _ => fault_of_combine
  · exact computed_arithmetic hv hw fun _ _ _ => fault_of_combine
  · exact computed_arithmetic hv hw fun _ _ _ => fault_of_divide

theorem negated_toValue (a : Number) : a.toValue.negated = .ok a.negate.toValue := by
  rw [Value.negated, Number.ofValue?_toValue]

/-- A chain of numbers is computed from the left. -/
theorem computed_foldLeft {links : List (Link Value)} {pairs : List Value}
    (h : List.Forall₂ Link.IsPair links pairs) (hlinks : ∀ link ∈ links, IsNumber link.value)
    {first : Value} (hfirst : IsNumber first) : Computed (Parser.foldLeft first pairs).result := by
  induction h generalizing first with
  | nil => exact .ok hfirst
  | @cons link _ links pairs hpair _ ih =>
      obtain ⟨f, hf, rfl⟩ := hpair
      obtain ⟨hlink, hlinks⟩ := List.forall_mem_cons.mp hlinks
      have hstep := computed_apply hf hfirst hlink
      have hfold : (Parser.foldLeft first (.list [.function f, link.value] :: pairs)).result =
          (Call.bind (f.apply [first, link.value])
            fun next => Parser.foldLeft next pairs).result := rfl
      rcases hcall : (f.apply [first, link.value]).result with fault | next
      · have hresult : (Call.bind (f.apply [first, link.value])
            fun next => Parser.foldLeft next pairs).result = .error fault := by
          simp [Call.bind, hcall]
        rw [hfold, hresult]
        exact .error (hstep.fault fault hcall)
      · have hresult : (Call.bind (f.apply [first, link.value])
            fun next => Parser.foldLeft next pairs).result =
              (Parser.foldLeft next pairs).result := by
          simp [Call.bind, hcall]
        rw [hfold, hresult]
        exact ih hlinks (hstep.number next hcall)

theorem Derives.isNumber {rank : Rank} {t : Text} {v : Value} (h : Derives values rank t v) :
    IsNumber v := by
  induction h with
  | @numeral t m h => exact ⟨.int m, rfl⟩
  | negative hminus h hy ih =>
      obtain ⟨a, rfl⟩ := ih
      have hvalue := toOption_eq_some_iff.mp hy
      rw [negated_toValue] at hvalue
      cases hvalue
      exact ⟨a.negate, rfl⟩
  | brackets hopening h hclosing ih => exact ih
  | @chain rank t x y links hrank hfirst hsigns hblanks hlinks hy ihfirst ihlinks =>
      have hpairs : ∃ pairs, List.Forall₂ Link.IsPair links pairs := by
        clear hy hblanks hlinks ihlinks
        induction links with
        | nil => exact ⟨[], .nil⟩
        | cons link links ih =>
            obtain ⟨hsign, hsigns⟩ := List.forall_mem_cons.mp hsigns
            obtain ⟨f, hf⟩ := Rank.exists_operation hsign
            obtain ⟨pairs, hpairs⟩ := ih hsigns
            exact ⟨_, .cons ⟨f, hf, rfl⟩ hpairs⟩
      obtain ⟨pairs, hpairs⟩ := hpairs
      have hfold := (toOption_foldLeft hpairs x).trans hy
      exact (computed_foldLeft hpairs ihlinks ihfirst).number y (toOption_eq_some_iff.mp hfold)

end Numbers

/-- The faults that the reader may end in. -/
abbrev faults (_ : Text) : Fault → Prop :=
  ArithmeticFault

variable {w₀ : World} {a b : Nat} {text : Text} {rank : Rank}

theorem concludes_integer (text : Text) : integerParser.Concludes (Ready w₀) faults text := by
  have hpattern : (lexeme (.pattern integerPattern 0)).Concludes (Ready w₀) faults text :=
    (Parser.concludes_pattern _ 0 text).lexeme fun _ => Parser.yields_pattern _
  refine (hpattern.map (quiet_ready w₀) (fun n => (Parser.yields_pattern integerPattern).lexeme)
    ?_).label (by decide)
  rintro before _ rest _ fault - ⟨digits, blanks, rfl, ⟨hmem, rfl⟩, -⟩ hfault
  obtain ⟨hne, hdigits⟩ := mem_language_integerPattern.mp hmem
  cases (integer_text hne hdigits).symm.trans hfault

theorem concludes_operator (rank : Rank) (text : Text) :
    (operatorParser rank.signs).Concludes (Ready w₀) faults text := by
  have htest (c : Char) : ∃ met,
      (Call.ofExcept ((Value.str rank.signs).holds c)).result = .ok met := ⟨_, rfl⟩
  have hone : (Parser.oneOf (.str rank.signs)).Concludes (Ready w₀) faults text := by
    refine (Parser.concludes_satisfy (quiet_ready w₀) htest (by decide) text).label ?_
    cases rank <;> decide
  have hyields (n : Nat) := (Parser.yields_satisfy (n := n) (quiet_ready w₀)
    (fun c => .ofExcept ((Value.str rank.signs).holds c)) "a character matching <lambda>").label
      ("a character in '" ++ (Value.str rank.signs).shown ++ "'")
  refine (hone.lexeme hyields).map (quiet_ready w₀) (fun n => (hyields n).lexeme) ?_
  rintro before _ rest _ fault - ⟨_, blanks, rfl, ⟨c, hheld, rfl, rfl⟩, -⟩ hfault
  have hsign : c ∈ rank.signs.toList := by simpa [Call.ofExcept, Value.holds] using hheld
  obtain ⟨f, hf⟩ := Rank.exists_operation hsign
  cases (operation_text_eq_ok_iff.mpr ⟨f, hf, rfl⟩).symm.trans hfault

/-- A factor concludes if the handles do on all shorter texts, since a sign stands before
them. -/
theorem concludes_factor (hab : Handles w₀ a b)
    (ha : ∀ rest, rest.length < text.length → (Parser.deferred a).Concludes (Ready w₀) faults rest)
    (hb : ∀ rest, rest.length < text.length →
      (Parser.deferred b).Concludes (Ready w₀) faults rest) :
    (factorParser a b).Concludes (Ready w₀) faults text := by
  have hfactor (n : Nat) := yields_handle n .factor w₀ a hab.factor
  have hexpression (n : Nat) := yields_handle n .expression w₀ b hab.expression
  refine .orElse (.orElse ?_ (concludes_integer text)) ?_
  · refine (Parser.concludes_symbol_andThen (by simp) ha).map (quiet_ready w₀)
      (fun n => (Parser.yields_symbol "-").andThen (hfactor n)) ?_
    rintro before _ rest v fault - ⟨minus, t, _, rfl, -, hv⟩ hfault
    obtain ⟨c, rfl⟩ := hv.isNumber
    cases (negated_toValue c).symm.trans hfault
  · exact Parser.concludes_between (by simp) hb hexpression

/-- A chain concludes if its operands do on all texts that are not longer. -/
theorem concludes_chain (hrank : rank ≠ .factor) (hab : Handles w₀ a b)
    (h : ∀ rest, rest.length ≤ text.length →
      (rank.operand.parser a b).Concludes (Ready w₀) faults rest) :
    (rank.parser a b).Concludes (Ready w₀) faults text := by
  have hoperand (n : Nat) := yields_rank (yields_handle n .factor w₀ a hab.factor)
    (yields_handle n .expression w₀ b hab.expression) rank.operand
  rw [Rank.parser_of_ne_factor hrank]
  refine Parser.Concludes.chainLeft (quiet_ready w₀) h (concludes_operator rank) hoperand
    (fun n => yields_operator (quiet_ready w₀) rank.signs) ?_ ?_
  · rintro _ _ ⟨sign, f, -, -, blanks, rfl, -⟩
    exact List.cons_ne_nil sign blanks
  · rintro before t₁ _ first _ fault hfirst ⟨pieces, hpieces, rfl, rfl⟩ hfault
    obtain ⟨links, -, -, hlinks, -, hpairs⟩ := exists_links hpieces
    exact (computed_foldLeft hpairs (fun link hlink => (hlinks link hlink).isNumber)
      hfirst.isNumber).fault fault hfault

/-- All ranks conclude on a text and on all shorter ones, if the handles do on those that are
shorter. -/
theorem concludes_rank (hab : Handles w₀ a b)
    (ha : ∀ rest, rest.length < text.length → (Parser.deferred a).Concludes (Ready w₀) faults rest)
    (hb : ∀ rest, rest.length < text.length → (Parser.deferred b).Concludes (Ready w₀) faults rest)
    (rank : Rank) (rest : Text) (hrest : rest.length ≤ text.length) :
    (rank.parser a b).Concludes (Ready w₀) faults rest := by
  have hfactor (rest : Text) (hrest : rest.length ≤ text.length) :
      (Rank.factor.parser a b).Concludes (Ready w₀) faults rest :=
    concludes_factor hab (fun more hmore => ha more (by omega)) fun more hmore => hb more (by omega)
  have hterm (rest : Text) (hrest : rest.length ≤ text.length) :
      (Rank.term.parser a b).Concludes (Ready w₀) faults rest :=
    concludes_chain nofun hab fun more hmore => hfactor more (by omega)
  cases rank with
  | factor => exact hfactor rest hrest
  | term => exact hterm rest hrest
  | expression => exact concludes_chain nofun hab fun more hmore => hterm more (by omega)

theorem concludes_handle (r : Rule) (l : Nat) (hl : w₀.ruleOf l = some r.name) (text : Text) :
    (Parser.deferred l).Concludes (Ready w₀) faults text := by
  -- A handle that is built on the way brings new handles, so the worlds vary with the text.
  induction hlength : text.length using Nat.strongRecOn generalizing w₀ r l text with
  | ind length ih =>
    have hbody (w₁ : World) (a b : Nat) (hab : Handles w₁ a b) :
        (r.body a b).Concludes (Ready w₁) faults text := by
      have hrank (rank : Rank) : (rank.parser a b).Concludes (Ready w₁) faults text := by
        refine concludes_rank hab (fun rest hrest => ?_) (fun rest hrest => ?_) rank text le_rfl
        · exact ih rest.length (by omega) .factor a hab.factor rest rfl
        · exact ih rest.length (by omega) .expression b hab.expression rest rfl
      cases r with
      | factor => exact hrank .factor
      | expression => exact hrank .expression
    intro before w hw
    exact settles_deferred (fun w₁ a b hab u hu => hbody w₁ a b hab before u hu) hl hw

theorem concludes_calculation (hab : Handles w₀ a b) (text : Text) :
    (Parser.optionalWhitespace.andThen (expressionParser a b)).Concludes (Ready w₀) faults
      text := by
  refine (Parser.concludes_optionalWhitespace text).andThen
    (fun _ => Parser.yields_optionalWhitespace) fun _ rest _ _ _ => ?_
  exact concludes_rank hab (fun more _ => concludes_handle .factor a hab.factor more)
    (fun more _ => concludes_handle .expression b hab.expression more) .expression rest le_rfl

end Arithmetic

/-- The readers come to an end on every input, and never with an unbound reference. The
reader of symbolic expressions ends in no fault, that of documents only in one of decoding a
string of the input, and that of calculations only in one of arithmetic. -/
theorem readers_conclude (level : Level) (s : Text) :
    Lisp.reader.Concludes level s (fun _ => False) ∧
      Json.reader.Concludes level s (Json.StringFault s) ∧
      Arithmetic.reader.Concludes level s Arithmetic.ArithmeticFault := by
  refine ⟨?_, ?_, ?_⟩
  · have hready : Lisp.Ready { Lisp.world with threshold := level, journal := [] } := ⟨false, rfl⟩
    have hprogram : Lisp.program.Concludes Lisp.Ready (fun _ _ => False) s :=
      Lisp.concludes_program s
    exact concludes_of_parse (fun _ => rfl) hready hprogram
  · have hready : Json.Ready .standard
        { Json.world .standard with threshold := level, journal := [] } := ⟨false, rfl⟩
    have hreader : Json.reader.Concludes level s (Json.DecodingFault .standard s) :=
      concludes_of_parse (fun _ => rfl) hready (Json.concludes_document s)
    exact hreader.mono fun _ => Json.DecodingFault.stringFault
  · let w : World := { Arithmetic.world with threshold := level, journal := [] }
    have hw : Arithmetic.Ready w w := ⟨rfl, .refl w, by simp [w, Arithmetic.world]⟩
    have hab : Arithmetic.Handles (Arithmetic.grown w) 0 1 := Arithmetic.handles_grown hw
    have hparse (budget : Nat) : Arithmetic.reader.parse budget s w =
        (Parser.optionalWhitespace.andThen (Arithmetic.expressionParser 0 1)).parse budget s
          (Arithmetic.grown w) :=
      Run.bind_of_ok (Arithmetic.build_calculation w)
    exact concludes_of_parse hparse hw.grown.self (Arithmetic.concludes_calculation hab s)

end Descent.Reader
