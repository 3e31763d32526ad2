/-
# Calculations are read exactly

The reader of calculations accepts just the texts of the grammar whose values are defined,
and yields these values. A rank is read to its end since none of the characters that may
stand behind it is an operator of the rank. The rules that contain each other are followed
through their handles, whatever has been built before.
-/

import Descent.Proofs.Grammar.Arithmetic.Derivation

namespace Descent.Reader.Arithmetic

open Filter

section Chains

/-- The value stands for an operator and its operand: it is a pair of a function and a value. -/
def Link.IsPair (link : Link Value) (v : Value) : Prop :=
  ∃ f, operations.lookup link.sign = some f ∧ v = .list [.function f, link.value]

/-- The functions of a chain are applied as the algebra of values says. -/
theorem toOption_foldLeft {links : List (Link Value)} {pairs : List Value}
    (h : List.Forall₂ Link.IsPair links pairs) (first : Value) :
    (Parser.foldLeft first pairs).result.toOption = values.chain first links := by
  induction h generalizing first with
  | nil => rfl
  | @cons link _ links pairs hpair _ ih =>
      obtain ⟨f, hf, rfl⟩ := hpair
      have happly : values.apply link.sign first link.value =
          (f.apply [first, link.value]).result.toOption := by
        simp [values, hf]
      rw [Algebra.chain_cons, happly]
      change (Call.bind (f.apply [first, link.value])
        fun next => Parser.foldLeft next pairs).result.toOption = _
      cases hcall : (f.apply [first, link.value]).result with
      | error fault => simp [Call.bind, hcall, Except.toOption]
      | ok next => simpa [Call.bind, hcall, Except.toOption] using ih next

end Chains

section Reading

namespace Rank

/-- The parser of a rank, given handles of factors and expressions. -/
def parser : Rank → Nat → Nat → Parser
  | factor => factorParser
  | term => termParser
  | expression => expressionParser

/-- The characters that may stand behind a text of a rank. -/
def follow : Rank → List Char
  | factor => ['*', '/', '+', '-', ')']
  | term => ['+', '-', ')']
  | expression => [')']

variable {rank : Rank} {c : Char} {rest : Text}

theorem parser_of_ne_factor (h : rank ≠ .factor) (a b : Nat) :
    rank.parser a b = (rank.operand.parser a b).chainLeft (operatorParser rank.signs) := by
  cases rank with
  | factor => exact absurd rfl h
  | term => rfl
  | expression => rfl

theorem isBlank_of_mem_follow (h : c ∈ rank.follow) : Character.isBlank c = false := by
  have hall : rank.follow.all (Character.isBlank · == false) = true := by
    cases rank <;> decide
  simpa using List.all_eq_true.mp hall c h

theorem isDigit_of_mem_follow (h : c ∈ rank.follow) : c.isDigit = false := by
  have hall : rank.follow.all (Char.isDigit · == false) = true := by
    cases rank <;> decide
  simpa using List.all_eq_true.mp hall c h

theorem not_mem_signs_of_mem_follow (h : c ∈ rank.follow) : c ∉ rank.signs.toList := by
  have hall : rank.follow.all (!rank.signs.toList.contains ·) = true := by
    cases rank <;> decide
  simpa using List.all_eq_true.mp hall c h

/-- Behind an operand stands an operator of the chain, or what stands behind the chain. -/
theorem mem_follow_operand (h : c ∈ rank.signs.toList ∨ c ∈ rank.follow) :
    c ∈ rank.operand.follow := by
  have hall : (rank.signs.toList ++ rank.follow).all (rank.operand.follow.contains ·) = true := by
    cases rank <;> decide
  simpa using List.all_eq_true.mp hall c (List.mem_append.mpr h)

theorem exists_operation (h : c ∈ rank.signs.toList) : ∃ f, operations.lookup c = some f := by
  have hall : rank.signs.toList.all (fun c => (operations.lookup c).isSome) = true := by
    cases rank <;> decide
  exact Option.isSome_iff_exists.mp (List.all_eq_true.mp hall c h)

theorem solid_of_follow (h : rest.Begins (· ∈ rank.follow)) : rest.Solid :=
  h.mono fun _ => isBlank_of_mem_follow

end Rank

variable {ready : World → Prop} {rank : Rank} {t text rest : Text} {v : Value} {a b : Nat}
  {w₀ : World}

/-- The operators of a chain with their operands are read as pairs. -/
theorem readsAll_links (hquiet : World.Quiet ready) {p : Parser} {links : List (Link Value)}
    (hsigns : ∀ link ∈ links, link.sign ∈ rank.signs.toList)
    (hblanks : ∀ link ∈ links, link.blanks.Blank)
    (hmembers : ∀ link ∈ links,
      Parser.Member ready p (· ∈ rank.operand.follow) (link.operand, link.value))
    (hrest : rest.Begins (· ∈ rank.follow)) :
    Text.Begins (· ∈ rank.operand.follow) ((links.map Link.text).flatten ++ rest) ∧
      ∃ pairs, List.Forall₂ Link.IsPair links pairs ∧
        (Parser.sequence [operatorParser rank.signs, p]).ReadsAll ready
          (links.map Link.text).flatten rest pairs := by
  induction links with
  | nil =>
      refine ⟨hrest.mono fun _ h => Rank.mem_follow_operand (.inr h), [], .nil, .nil ?_⟩
      exact (refuses_operator hquiet
        (hrest.mono fun _ => Rank.not_mem_signs_of_mem_follow)).sequence _
  | cons link links ih =>
      obtain ⟨hsign, hsigns⟩ := List.forall_mem_cons.mp hsigns
      obtain ⟨hblank, hblanks⟩ := List.forall_mem_cons.mp hblanks
      obtain ⟨hmember, hmembers⟩ := List.forall_mem_cons.mp hmembers
      obtain ⟨hbehind, pairs, hpairs, hall⟩ := ih hsigns hblanks hmembers
      obtain ⟨f, hf⟩ := Rank.exists_operation hsign
      have hlink : Parser.ReadsEach ready [operatorParser rank.signs, p]
          (link.sign :: link.blanks ++ (link.operand ++ []))
          ((links.map Link.text).flatten ++ rest) [.function f, link.value] := by
        refine .cons (reads_operator hquiet ⟨_, rfl, hf, hblank⟩ hsign ?_) (.cons ?_ .nil)
        · rw [List.append_assoc]
          exact (hmember.starts.append _).begins
        · exact hmember.reads _ hbehind
      rw [List.append_nil] at hlink
      refine ⟨Text.begins_cons.mpr (Rank.mem_follow_operand (.inl hsign)),
        .list [.function f, link.value] :: pairs, .cons ⟨f, hf, rfl⟩ hpairs, ?_⟩
      exact .cons hlink.sequence (List.cons_ne_nil _ _) hall

theorem refuses_negated (h : text.Begins (· ≠ '-')) : (negatedParser a).Refuses ready text :=
  ((Parser.refuses_symbol_of_begins (by simp) h).andThen _).map _

/-- A text with a value is read as that value. -/
theorem Derives.reads (h : Derives values rank t v) (hab : Handles w₀ a b)
    (hrest : rest.Begins (· ∈ rank.follow)) : (rank.parser a b).Reads (Ready w₀) t rest v := by
  -- A handle that is reached may be built only then, with new handles in its body, so the
  -- hypotheses have to hold for all of them.
  induction h generalizing w₀ a b rest with
  | numeral h =>
      have hinteger := reads_integer (quiet_ready w₀) h (Rank.solid_of_follow hrest)
        (hrest.mono fun _ => Rank.isDigit_of_mem_follow)
      have hother : Text.Begins (· ≠ '-') (_ ++ rest) :=
        (h.starts.append rest).begins.mono (by rintro _ hc rfl; cases hc)
      exact (hinteger.orElse_right (refuses_negated hother)).orElse_left _
  | @negative minus t x y hminus h hy ih =>
      have hfactor : (Parser.deferred a).Reads (Ready w₀) t rest x :=
        reads_deferred (r := .factor) (fun _ _ _ hab => ih hab hrest) hab.factor
      have hvalue : (Callback.negate.apply [x]).result = .ok y := toOption_eq_some_iff.mp hy
      have hnegated : (negatedParser a).Reads (Ready w₀) (minus ++ t) rest y :=
        ((Parser.reads_symbol hminus (h.starts.append rest).begins).andThen hfactor).map
          (quiet_ready w₀) hvalue
      exact (hnegated.orElse_left _).orElse_left _
  | @brackets opening t closing x hopening h hclosing ih =>
      have hbehind : (closing ++ rest).Begins (· ∈ Rank.expression.follow) :=
        ((hclosing.starts (by simp [Rank.follow])).append rest).begins
      have hexpression : (Parser.deferred b).Reads (Ready w₀) t (closing ++ rest) x :=
        reads_deferred (r := .expression) (fun _ _ _ hab => ih hab hbehind) hab.expression
      have hother : (opening ++ (t ++ closing) ++ rest).Starts (· = '(') :=
        ((hopening.starts (by simp)).append _).append _
      refine .orElse_right (.orElse (refuses_negated ?_) (refuses_integer ?_)) ?_
      · exact hother.begins.mono (by rintro _ rfl; decide)
      · exact hother.begins.mono (by rintro _ rfl; decide)
      · have hsolid : (t ++ (closing ++ rest)).Solid := (h.starts.append _).begins
        exact (Parser.reads_symbol hopening hsolid).between hexpression
          (Parser.reads_symbol hclosing (Rank.solid_of_follow hrest))
  | chain hrank hfirst hsigns hblanks hlinks hy ihfirst ihlinks =>
      rw [Rank.parser_of_ne_factor hrank]
      obtain ⟨hbehind, pairs, hpairs, hall⟩ := readsAll_links (quiet_ready w₀) hsigns hblanks
        (fun link hlink => ⟨(hlinks link hlink).starts, fun _ => ihlinks link hlink hab⟩) hrest
      have hfold := (toOption_foldLeft hpairs _).trans hy
      exact Parser.reads_chainLeft (quiet_ready w₀) (ihfirst hab hbehind) hall
        (toOption_eq_some_iff.mp hfold)

end Reading

section Yielding

variable {n a b : Nat} {rank : Rank} {w₀ : World}

/-- Pairs that were consumed one after another are the links of a chain. -/
theorem exists_links {R : Text → Value → Prop} {pieces : List (Text × Value)}
    (h : ∀ piece ∈ pieces, Parser.Link R (fun t v => ∃ sign f, v = .function f ∧
      sign ∈ rank.signs.toList ∧ OperatorToken sign t f) piece.1 piece.2) :
    ∃ links : List (Link Value), (∀ link ∈ links, link.sign ∈ rank.signs.toList) ∧
      (∀ link ∈ links, link.blanks.Blank) ∧ (∀ link ∈ links, R link.operand link.value) ∧
      links.map Link.text = pieces.map Prod.fst ∧
      List.Forall₂ Link.IsPair links (pieces.map Prod.snd) := by
  induction pieces with
  | nil => exact ⟨[], by simp, by simp, by simp, rfl, .nil⟩
  | cons piece pieces ih =>
      obtain ⟨hpiece, hpieces⟩ := List.forall_mem_cons.mp h
      obtain ⟨links, hsigns, hblanks, hlinks, htexts, hpairs⟩ := ih hpieces
      obtain ⟨o, u, _, x, htext, ⟨sign, f, rfl, hsign, blanks, rfl, hf, hblank⟩, hx, hvalue⟩ :=
        hpiece
      refine ⟨⟨sign, blanks, u, x⟩ :: links, List.forall_mem_cons.mpr ⟨hsign, hsigns⟩,
        List.forall_mem_cons.mpr ⟨hblank, hblanks⟩, List.forall_mem_cons.mpr ⟨hx, hlinks⟩, ?_,
        .cons ⟨f, hf, hvalue⟩ hpairs⟩
      rw [List.map_cons, List.map_cons, htexts, htext]
      rfl

theorem yields_factor (hfactor : (Parser.deferred a).Yields (Ready w₀) n (Derives values .factor))
    (hexpression : (Parser.deferred b).Yields (Ready w₀) n (Derives values .expression)) :
    (factorParser a b).Yields (Ready w₀) n (Derives values .factor) := by
  refine .orElse (.orElse ?_ ?_) ?_
  · refine ((Parser.yields_symbol "-").andThen hfactor).map (quiet_ready w₀) ?_
    rintro _ x y ⟨minus, t, _, rfl, hminus, hx⟩ hy
    exact .negative hminus hx (toOption_eq_some_iff.mpr hy)
  · refine (yields_integer (quiet_ready w₀)).mono ?_
    rintro t _ ⟨m, rfl, h⟩
    exact .numeral h
  · refine ((Parser.yields_symbol "(").between hexpression (Parser.yields_symbol ")")).mono ?_
    rintro _ x ⟨opening, t, closing, _, _, rfl, hopening, hx, hclosing⟩
    exact .brackets hopening hx hclosing

theorem yields_chain (hrank : rank ≠ .factor)
    (h : (rank.operand.parser a b).Yields (Ready w₀) n (Derives values rank.operand)) :
    (rank.parser a b).Yields (Ready w₀) n (Derives values rank) := by
  rw [Rank.parser_of_ne_factor hrank]
  refine (h.chainLeft (quiet_ready w₀) (yields_operator (quiet_ready w₀) rank.signs)).mono ?_
  rintro _ y ⟨t, _, x, _, rfl, hx, ⟨pieces, hpieces, rfl, rfl⟩, hfold⟩
  obtain ⟨links, hsigns, hblanks, hlinks, htexts, hpairs⟩ := exists_links hpieces
  rw [← htexts]
  refine .chain hrank hx hsigns hblanks hlinks ?_
  rw [← toOption_foldLeft hpairs, hfold]
  rfl

/-- Whatever is consumed at a rank has the value that it is taken for, if this is so for what
the handles consume. -/
theorem yields_rank (hfactor : (Parser.deferred a).Yields (Ready w₀) n (Derives values .factor))
    (hexpression : (Parser.deferred b).Yields (Ready w₀) n (Derives values .expression))
    (rank : Rank) : (rank.parser a b).Yields (Ready w₀) n (Derives values rank) := by
  have hterm : (Rank.term.parser a b).Yields (Ready w₀) n (Derives values .term) :=
    yields_chain nofun (yields_factor hfactor hexpression)
  cases rank with
  | factor => exact yields_factor hfactor hexpression
  | term => exact hterm
  | expression => exact yields_chain nofun hterm

/-- Whatever a handle consumes has the value that it is taken for. -/
theorem yields_handle (n : Nat) (r : Rule) (w₀ : World) (l : Nat)
    (hl : w₀.ruleOf l = some r.name) :
    (Parser.deferred l).Yields (Ready w₀) n (Derives values r.rank) := by
  refine yields_deferred (R := fun r => Derives values r.rank) ?_ n r w₀ l hl
  intro n hhandles r w₀ a b hab
  have hparser := yields_rank (hhandles .factor w₀ a hab.factor)
    (hhandles .expression w₀ b hab.expression)
  cases r with
  | factor => exact hparser .factor
  | expression => exact hparser .expression

end Yielding

section Whole

variable {w₀ : World} {a b : Nat}

theorem build_calculation (w : World) :
    calculation.build [] w = .ok (.andThen .optionalWhitespace
      (expressionParser w.deferred.size (w.deferred.size + 1))) (grown w) := by
  have hblanks : (Description.atom (.named .optionalWhitespace)).build [] w =
      .ok .optionalWhitespace w := rfl
  exact (Run.bind_of_ok hblanks).trans ((Run.bind_of_ok (build_expression w)).trans rfl)

theorem Calculation.reads {s : Text} {v : Value} (h : Calculation values s v)
    (hab : Handles w₀ a b) :
    (Parser.optionalWhitespace.andThen (expressionParser a b)).Reads (Ready w₀) s [] v := by
  obtain ⟨blanks, t, rfl, hblanks, ht⟩ := h
  have hsolid : (t ++ []).Solid := (ht.starts.append []).begins
  exact (Parser.reads_optionalWhitespace hblanks hsolid).andThen (ht.reads hab Text.begins_nil)

theorem yields_calculation (hab : Handles w₀ a b) (n : Nat) :
    (Parser.optionalWhitespace.andThen (expressionParser a b)).Yields (Ready w₀) n
      (Calculation values) := by
  have hexpression := yields_rank (yields_handle n .factor w₀ a hab.factor)
    (yields_handle n .expression w₀ b hab.expression) .expression
  refine (Parser.yields_optionalWhitespace.andThen hexpression).mono ?_
  rintro _ v ⟨blanks, t, _, rfl, hblanks, ht⟩
  exact ⟨blanks, t, rfl, hblanks, ht⟩

end Whole

/-- The reader accepts just the calculations whose values are defined, and yields these
values. If it does so within some budget, it does so within every large one. Where nothing
is divided, these are the exact values among the integers. -/
theorem read_success_iff_calculation (level : Level) (s : Text) (v : Value) :
    ((∃ budget, (reader.read budget level s).result = .ok (.success v)) ↔
        Calculation values s v) ∧
      ((∀ᶠ budget in atTop, (reader.read budget level s).result = .ok (.success v)) ↔
        Calculation values s v) ∧
      (('/' ∉ s ∧ ∃ budget, (reader.read budget level s).result = .ok (.success v)) ↔
        ∃ m : Int, v = .int m ∧ Calculation integers s m) := by
  let w : World := { world with threshold := level, journal := [] }
  have hw : Ready w w := ⟨rfl, .refl w, by simp [w, world]⟩
  have hready : Ready (grown w) (grown w) := hw.grown.self
  have hab : Handles (grown w) 0 1 := handles_grown hw
  have hparse (budget : Nat) (s : Text) : reader.parse budget s w =
      (Parser.optionalWhitespace.andThen (expressionParser 0 1)).parse budget s (grown w) :=
    Run.bind_of_ok (build_calculation w)
  obtain ⟨hsome, hmost⟩ := Reader.read_success_iff hparse hready (fun _ _ h => h.reads hab)
    (yields_calculation hab) s v
  refine ⟨hsome, hmost, ?_⟩
  rw [hsome]
  exact calculation_integers_iff

end Descent.Reader.Arithmetic
