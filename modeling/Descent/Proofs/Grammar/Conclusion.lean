/-
# Parsers that conclude

A parser concludes on a text if every run at its start comes to the same end within all
large budgets: a reply that reports no unbound reference, or a fault that is allowed for
the input. There is one rule for each combinator. What stands behind a first part is
shorter by what that part has consumed, so a recursive grammar concludes by induction on
the length of the text, as long as every way back to a rule consumes something, and a loop
does if each turn consumes something. What parts consume is taken from what they yield.
-/

import Descent.Proofs.Grammar.Recursion
import Descent.Proofs.Grammar.Token

namespace Descent

open Filter

namespace Reply

/-- The reply does not report a reference that is not bound. -/
def Bound (r : Reply) : Prop :=
  unboundExpectation ∉ r.expected

variable {r older : Reply}

theorem bound_ok (index : Int) (v : Value) : (Reply.ok index v).Bound :=
  Expectation.not_mem_empty

theorem bound_error {description : String} (h : description ≠ unboundExpectation) (i : Int) :
    (Reply.error i description).Bound :=
  fun hmem => h (Expectation.mem_singleton.mp hmem).symm

/-- Whatever a merged reply expects, one of its parts does. -/
theorem Bound.mergeWith (h : r.Bound) (holder : older.Bound) : (r.mergeWith older).Bound := by
  unfold Reply.mergeWith
  split
  · exact h
  · split
    · exact fun hmem => (Expectation.mem_union.mp hmem).elim h holder
    · exact holder

theorem Bound.merge (h : r.Bound) {context : Option Reply} (hcontext : ∀ c ∈ context, c.Bound) :
    (r.merge context).Bound := by
  cases context with
  | none => exact h
  | some older => exact h.mergeWith (hcontext older rfl)

end Reply

/-- The outcome does not report a reference that is not bound. -/
def Outcome.Bound (outcome : Outcome) : Prop :=
  ∀ f, outcome = .failure f → unboundExpectation ∉ f.expected

namespace Action

/-- The action comes to an end at the start of a text, whatever stands before it. Which
faults are allowed may depend on the whole input. -/
def Concludes (ready : World → Prop) (faults : Text → Fault → Prop) (act : Nat → Action)
    (text : Text) : Prop :=
  ∀ (before : Text) (w : World), ready w → Run.Settles (faults (before ++ text))
    (fun r u => r.Bound ∧ ready u) (fun n => act n (before ++ text) before.length) w

variable {ready : World → Prop} {faults : Text → Fault → Prop} {q : Nat → Action}
  {before t rest : Text} {v : Value} {w : World} {r : Reply}

/-- An end that is reached where a first action has stopped. -/
theorem Concludes.behind (h : Concludes ready faults q rest) (hr : Read before t v r)
    (hw : ready w) :
    Run.Settles (faults (before ++ (t ++ rest))) (fun next u => next.Bound ∧ ready u)
      (fun n => q n (before ++ (t ++ rest)) r.index) w := by
  rw [hr.index, ← List.length_append, ← List.append_assoc]
  exact h (before ++ t) w hw

theorem bound_listReply (i : Int) {context : Option Reply} (hcontext : ∀ c ∈ context, c.Bound)
    (values : List Value) : (listReply i context values).Bound :=
  (Reply.bound_ok i (.list values.reverse)).merge hcontext

end Action

namespace Parser

open Descent.Action (Taken bound_listReply satisfy_append)

variable {ready : World → Prop} {faults : Text → Fault → Prop} {p q sep op : Parser}
  {ps : List Parser} {R S : Text → Value → Prop} {text : Text}

/-- The parser comes to an end at the start of a text. -/
def Concludes (ready : World → Prop) (faults : Text → Fault → Prop) (p : Parser) (text : Text) :
    Prop :=
  Action.Concludes ready faults (fun n => p.run (n + 1)) text

/-- The reply in which a parser concludes stops behind what it yields. -/
theorem Concludes.taken (hp : p.Concludes ready faults text)
    (hyields : ∀ n, p.Yields ready n R) (before : Text) {w : World} (hw : ready w) :
    Run.Settles (faults (before ++ text))
      (fun r u => (r.Bound ∧ ready u) ∧ Taken before text R r)
      (fun n => p.run (n + 1) (before ++ text) before.length) w :=
  (hp before w hw).and fun n r u hend => (hyields n before text w hw r u hend).1

section Primitives

/-- A parser that answers without a look at the world. -/
theorem concludes_of_pure (act : Action) (hact : ∀ n, p.run (n + 1) = act)
    (h : ∀ s i, ∃ r : Reply, r.Bound ∧ act s i = Pure.pure r) (text : Text) :
    p.Concludes ready faults text := by
  intro before w hw
  obtain ⟨r, hr, hend⟩ := h (before ++ text) before.length
  simp only [hact, hend]
  exact .pure ⟨hr, hw⟩

/-- A description that starts with a sign of its own is not that of an unbound reference. -/
theorem ne_unboundExpectation {c : Char} (hc : c ≠ 'a') {s : String} (h : s.toList.head? = some c) :
    s ≠ unboundExpectation := by
  rintro rfl
  exact hc (Option.some.inj h).symm

theorem concludes_string (s : String) (text : Text) :
    (Parser.string s).Concludes ready faults text := by
  refine concludes_of_pure (.string s) (fun _ => rfl) (fun input i => ?_) text
  by_cases hslice : input.slice i (i + s.length) = s.toList
  · exact ⟨_, Reply.bound_ok _ _, if_pos hslice⟩
  · refine ⟨_, Reply.bound_error (ne_unboundExpectation (c := '\'') (by decide) ?_) i,
      if_neg hslice⟩
    simp

theorem concludes_pattern (pattern : Pattern) (group : Nat) (text : Text) :
    (Parser.pattern pattern group).Concludes ready faults text := by
  refine concludes_of_pure (.pattern pattern group) (fun _ => rfl) (fun input i => ?_) text
  unfold Action.pattern
  cases hmatch : pattern.match? group input i with
  | none =>
      refine ⟨_, Reply.bound_error (ne_unboundExpectation (c := '/') (by decide) ?_) i, rfl⟩
      simp [Pattern.describe]
  | some found => exact ⟨_, Reply.bound_ok _ _, rfl⟩

theorem concludes_pure (v : Value) (text : Text) : (Parser.pure v).Concludes ready faults text :=
  concludes_of_pure (.succeed v) (fun _ => rfl) (fun _ i => ⟨_, Reply.bound_ok i v, rfl⟩) text

theorem concludes_satisfy (hquiet : World.Quiet ready) {test : Char → Call Bool}
    {expected : String} (htest : ∀ c, ∃ met, (test c).result = .ok met)
    (hexpected : expected ≠ unboundExpectation) (text : Text) :
    (Parser.satisfy test expected).Concludes ready faults text := by
  intro before w hw
  cases text with
  | nil =>
      refine .of_ok (a := .error before.length expected) (fun n => ?_)
        ⟨Reply.bound_error hexpected _, hw⟩
      change Action.satisfy test expected (before ++ []) before.length w = _
      rw [Action.satisfy, if_neg (by simp)]
      rfl
  | cons c more =>
      obtain ⟨met, hmet⟩ := htest c
      refine .of_ok (fun n => run_satisfy hmet before more w n) ⟨?_, hquiet w _ hw⟩
      cases met with
      | true => exact Reply.bound_ok _ _
      | false => exact Reply.bound_error hexpected _

end Primitives

section Combinators

theorem Concludes.bind {f : Value → Parser} (hp : p.Concludes ready faults text)
    (hyields : ∀ n, p.Yields ready n R)
    (hf : ∀ t rest v, text = t ++ rest → R t v → (f v).Concludes ready faults rest) :
    (p.bind f).Concludes ready faults text := by
  intro before w hw
  apply (hp.taken hyields before hw).bind
  rintro r u ⟨⟨hbound, hu⟩, htaken⟩
  refine .ite (fun hok => ?_) fun _ => .pure ⟨hbound, hu⟩
  obtain ⟨t, rest, v, rfl, hread, hR⟩ := htaken hok
  rw [hread.value]
  exact (Action.Concludes.behind (hf t rest v rfl hR) hread hu).bind
    fun next z hnext => .pure ⟨hnext.1.mergeWith hbound, hnext.2⟩

theorem Concludes.andThen (hp : p.Concludes ready faults text)
    (hyields : ∀ n, p.Yields ready n R)
    (hq : ∀ t rest v, text = t ++ rest → R t v → q.Concludes ready faults rest) :
    (p.andThen q).Concludes ready faults text :=
  hp.bind (f := fun _ => q) hyields hq

theorem Concludes.skip (hp : p.Concludes ready faults text) (hyields : ∀ n, p.Yields ready n R)
    (hq : ∀ t rest v, text = t ++ rest → R t v → q.Concludes ready faults rest) :
    (p.skip q).Concludes ready faults text := by
  intro before w hw
  apply (hp.taken hyields before hw).bind
  rintro r u ⟨⟨hbound, hu⟩, htaken⟩
  refine .ite (fun hok => ?_) fun _ => .pure ⟨hbound, hu⟩
  obtain ⟨t, rest, v, rfl, hread, hR⟩ := htaken hok
  apply (Action.Concludes.behind (hq t rest v rfl hR) hread hu).bind
  rintro next z ⟨hnext, hz⟩
  have hmerged := hnext.mergeWith hbound
  refine .ite (fun _ => ?_) fun _ => .pure ⟨hmerged, hz⟩
  exact .pure ⟨(Reply.bound_ok _ _).mergeWith hmerged, hz⟩

/-- The function may only give up with a fault that is allowed. -/
theorem Concludes.map (hquiet : World.Quiet ready) (hp : p.Concludes ready faults text)
    (hyields : ∀ n, p.Yields ready n R) {f : Value → Call Value}
    (hf : ∀ before t rest v fault, text = t ++ rest → R t v → (f v).result = .error fault →
      faults (before ++ text) fault) : (p.map f).Concludes ready faults text := by
  intro before w hw
  apply (hp.taken hyields before hw).bind
  rintro r u ⟨⟨hbound, hu⟩, htaken⟩
  refine .ite (fun hok => ?_) fun _ => .pure ⟨hbound, hu⟩
  obtain ⟨t, rest, v, htext, hread, hR⟩ := htaken hok
  rw [hread.value]
  have hcall : Run.Settles (faults (before ++ text)) (fun _ z => ready z)
      (fun _ => Run.ofCall (f v)) u := by
    rcases hresult : (f v).result with fault | v'
    · exact .of_fault (fun _ => Run.ofCall_of_error hresult u)
        (hf before t rest v fault htext hR hresult)
    · exact .of_ok (fun _ => Run.ofCall_of_ok hresult u) (hquiet u _ hu)
  exact hcall.bind fun v' z hz => .pure ⟨(Reply.bound_ok _ _).mergeWith hbound, hz⟩

theorem Concludes.label (hp : p.Concludes ready faults text) {description : String}
    (h : description ≠ unboundExpectation) :
    (p.label description).Concludes ready faults text := by
  intro before w hw
  apply (hp before w hw).bind
  rintro r u ⟨hbound, hu⟩
  refine .ite (fun _ => .pure ⟨hbound, hu⟩) fun _ => .pure ⟨?_, hu⟩
  exact Reply.bound_error h 0

theorem Concludes.orElse (hp : p.Concludes ready faults text) (hq : q.Concludes ready faults text) :
    (p.orElse q).Concludes ready faults text := by
  intro before w hw
  apply (hp before w hw).bind
  rintro r u ⟨hbound, hu⟩
  refine .ite (fun _ => .pure ⟨hbound, hu⟩) fun _ => ?_
  exact (hq before u hu).bind fun next z hnext => .pure ⟨hnext.1.mergeWith hbound, hnext.2⟩

theorem concludes_altFrom (hps : ∀ p ∈ ps, p.Concludes ready faults text)
    (context : Option Reply) (hcontext : ∀ c ∈ context, c.Bound) :
    Action.Concludes ready faults (fun n s i =>
      Action.altFrom s i (ps.map fun p => p.run (n + 1)) context) text := by
  induction ps generalizing context with
  | nil =>
      intro before w hw
      cases context with
      | none => exact .pure ⟨Reply.bound_error (by decide) _, hw⟩
      | some r => exact .pure ⟨hcontext r rfl, hw⟩
  | cons p ps ih =>
      intro before w hw
      apply (hps p List.mem_cons_self before w hw).bind
      rintro r u ⟨hbound, hu⟩
      have hmerged := hbound.merge hcontext
      refine .ite (fun _ => .pure ⟨hmerged, hu⟩) fun _ => ?_
      refine ih (fun q hq => hps q (List.mem_cons_of_mem _ hq)) _ ?_ before u hu
      rintro _ ⟨⟩
      exact hmerged

theorem concludes_choice (hps : ∀ p ∈ ps, p.Concludes ready faults text) :
    (choice ps).Concludes ready faults text := by
  have halt := concludes_altFrom hps none (by simp)
  unfold Concludes
  simp only [run_choice]
  exact halt

/-- Parsers each of which concludes where those before it have stopped. -/
inductive ConcludesEach (ready : World → Prop) (faults : Text → Fault → Prop) :
    List Parser → Text → Prop
  | nil {text : Text} : ConcludesEach ready faults [] text
  | cons {p : Parser} {ps : List Parser} {R : Text → Value → Prop} {text : Text}
      (hp : p.Concludes ready faults text) (hyields : ∀ n, p.Yields ready n R)
      (hps : ∀ t rest v, text = t ++ rest → R t v → ConcludesEach ready faults ps rest) :
      ConcludesEach ready faults (p :: ps) text

theorem ConcludesEach.seqFrom (h : ConcludesEach ready faults ps text) (context : Option Reply)
    (hcontext : ∀ c ∈ context, c.Bound) (values : List Value) :
    Action.Concludes ready faults (fun n s i =>
      Action.seqFrom s (ps.map fun p => p.run (n + 1)) i context values) text := by
  induction h generalizing context values with
  | nil => exact fun before w hw => .pure ⟨bound_listReply _ hcontext values, hw⟩
  | cons hp hyields _ ih =>
      intro before w hw
      apply (hp.taken hyields before hw).bind
      rintro r u ⟨⟨hbound, hu⟩, htaken⟩
      have hmerged := hbound.merge hcontext
      refine .ite (fun hok => ?_) fun _ => .pure ⟨hmerged, hu⟩
      obtain ⟨t, rest, v, rfl, hread, hR⟩ := htaken.merge context hok
      refine (ih t rest v rfl hR (some (r.merge context)) ?_ _).behind hread hu
      rintro _ ⟨⟩
      exact hmerged

theorem ConcludesEach.sequence (h : ConcludesEach ready faults ps text) :
    (sequence ps).Concludes ready faults text := by
  have hseq := h.seqFrom none (by simp) []
  unfold Concludes
  simp only [run_sequence]
  exact hseq

/-- A loop that has used up some of its turns concludes, since each further turn consumes
something. -/
theorem Concludes.unbounded (hp : ∀ rest, rest.length ≤ text.length →
    p.Concludes ready faults rest) (hyields : ∀ n, p.Yields ready n R)
    (hne : ∀ t v, R t v → t ≠ []) (used : Nat) (context : Option Reply)
    (hcontext : ∀ c ∈ context, c.Bound) (values : List Value) :
    Action.Concludes ready faults (fun n s i =>
      Action.unbounded (p.run (n + 1)) s (n - used) i context values) text := by
  -- The induction is on how much text is left.
  induction hlength : text.length using Nat.strongRecOn generalizing text used context values with
  | ind length ih =>
    intro before w hw
    refine .turn (x := fun n turns =>
      Action.unbounded (p.run (n + 1)) _ turns before.length context values) used ?_
    apply ((hp text le_rfl).taken hyields before hw).bind
    rintro r u ⟨⟨hbound, hu⟩, htaken⟩
    have hmerged : ∀ c ∈ some (r.merge context), c.Bound := by
      rintro _ ⟨⟩
      exact hbound.merge hcontext
    refine .ite (fun _ => .pure ⟨bound_listReply _ hmerged values, hu⟩) fun hok => ?_
    obtain ⟨t, rest, v, rfl, hread, hR⟩ := htaken (by simpa using hok)
    have hpos := List.length_pos_iff.mpr (hne t v hR)
    have hindex := hread.index
    rw [List.length_append] at hlength
    refine .ite (fun hstays => by omega) fun _ => ?_
    have hrest (rest' : Text) (hshort : rest'.length ≤ rest.length) :
        p.Concludes ready faults rest' :=
      hp rest' (by rw [List.length_append]; omega)
    exact (ih rest.length (by omega) hrest (used + 1) _ hmerged _ rfl).behind hread hu

theorem Concludes.many (hp : ∀ rest, rest.length ≤ text.length → p.Concludes ready faults rest)
    (hyields : ∀ n, p.Yields ready n R) (hne : ∀ t v, R t v → t ≠ []) :
    p.many.Concludes ready faults text :=
  Concludes.unbounded hp hyields hne 0 none (by simp) []

end Combinators

section Tokens

open Reader

theorem concludes_optionalWhitespace (text : Text) :
    optionalWhitespace.Concludes ready faults text :=
  (concludes_pattern _ _ text).label (by decide)

theorem Concludes.lexeme (hp : p.Concludes ready faults text) (hyields : ∀ n, p.Yields ready n R) :
    (lexeme p).Concludes ready faults text :=
  hp.skip hyields fun _ rest _ _ _ => concludes_optionalWhitespace rest

theorem concludes_symbol (s : String) (text : Text) : (symbol s).Concludes ready faults text :=
  (concludes_string s text).lexeme fun _ => yields_string s

/-- What stands behind a sign is shorter than the text that starts with it. -/
theorem length_lt_of_sign {s : String} (hs : s.toList ≠ []) {t rest : Text} (ht : t.Sign s)
    (htext : text = t ++ rest) : rest.length < text.length := by
  obtain ⟨blanks, -, rfl⟩ := ht
  have hpos := List.length_pos_iff.mpr hs
  rw [htext, List.length_append, List.length_append]
  omega

/-- Behind a sign the next parser meets a shorter text. -/
theorem concludes_symbol_andThen {s : String} (hs : s.toList ≠ [])
    (hp : ∀ rest, rest.length < text.length → p.Concludes ready faults rest) :
    ((symbol s).andThen p).Concludes ready faults text :=
  (concludes_symbol s text).andThen (fun _ => yields_symbol s)
    fun _ rest _ htext ht => hp rest (length_lt_of_sign hs ht htext)

theorem concludes_between {left right : String} (hleft : left.toList ≠ [])
    (hp : ∀ rest, rest.length < text.length → p.Concludes ready faults rest)
    (hyields : ∀ n, p.Yields ready n R) :
    (between (symbol left) (symbol right) p).Concludes ready faults text :=
  (concludes_symbol_andThen hleft hp).skip
    (fun n => (yields_symbol left).andThen (hyields n))
    fun _ rest _ _ _ => concludes_symbol right rest

/-- A row concludes if its members do on all texts that are not longer. -/
theorem Concludes.sepBy (hquiet : World.Quiet ready) {s : String} (hs : s.toList ≠ [])
    (hp : ∀ rest, rest.length ≤ text.length → p.Concludes ready faults rest)
    (hyields : ∀ n, p.Yields ready n R) :
    (p.sepBy (symbol s)).Concludes ready faults text := by
  refine Concludes.orElse ((hp text le_rfl).bind hyields ?_) (concludes_pure _ text)
  rintro t rest first rfl -
  have hturn (n : Nat) : ((symbol s).andThen p).Yields ready n (Joined (fun t _ => t.Sign s) _) :=
    (yields_symbol s).andThen (hyields n)
  have hmany : ((symbol s).andThen p).many.Concludes ready faults rest := by
    refine Concludes.many (fun rest' hshort => ?_) hturn ?_
    · refine concludes_symbol_andThen hs fun more hmore => hp more ?_
      rw [List.length_append]
      omega
    · rintro _ _ ⟨b, t', _, rfl, ⟨blanks, -, rfl⟩, -⟩ hnil
      exact hs (List.append_eq_nil_iff.mp (List.append_eq_nil_iff.mp hnil).1).1
  exact hmany.map hquiet (fun n => (hturn n).many) fun _ _ _ _ _ _ _ hfault => by cases hfault

/-- A chain concludes if its operands do on all texts that are not longer, its operators
consume something, and its fold gives up only with faults that are allowed. -/
theorem Concludes.chainLeft (hquiet : World.Quiet ready)
    (hp : ∀ rest, rest.length ≤ text.length → p.Concludes ready faults rest)
    (hop : ∀ rest, op.Concludes ready faults rest) (hyields : ∀ n, p.Yields ready n R)
    (hyieldsOp : ∀ n, op.Yields ready n S) (hne : ∀ t v, S t v → t ≠ [])
    (hfold : ∀ before t₁ t₂ first pairs fault, R t₁ first → All (Link R S) t₂ pairs →
      (foldLeft first pairs).result = .error fault → faults (before ++ text) fault) :
    (p.chainLeft op).Concludes ready faults text := by
  have hlinkYields (n : Nat) : (sequence [op, p]).Yields ready n (Link R S) :=
    yields_link (hyields n) (hyieldsOp n)
  have hlink (rest : Text) (hshort : rest.length ≤ text.length) :
      (sequence [op, p]).Concludes ready faults rest := by
    refine ConcludesEach.sequence (.cons (hop rest) hyieldsOp fun o more _ hrest _ => ?_)
    have hmore : more.length ≤ text.length := by
      rw [hrest, List.length_append] at hshort
      omega
    exact .cons (hp more hmore) hyields fun _ _ _ _ _ => .nil
  have hloop (t rest : Text) (htext : text = t ++ rest) :
      (sequence [op, p]).many.Concludes ready faults rest := by
    refine Concludes.many (fun rest' hshort => hlink rest' ?_) hlinkYields ?_
    · rw [htext, List.length_append]
      omega
    · rintro _ _ ⟨o, u, f, x, rfl, ho, -⟩ hnil
      exact hne o f ho (List.append_eq_nil_iff.mp hnil).1
  have hrow : (sequence [p, (sequence [op, p]).many]).Concludes ready faults text :=
    ConcludesEach.sequence (.cons (hp text le_rfl) hyields fun t rest _ htext _ =>
      .cons (hloop t rest htext) (fun n => (hlinkYields n).many) fun _ _ _ _ _ => .nil)
  refine hrow.map hquiet
    (fun n => yields_sequence (.cons (hyields n) (.cons (hlinkYields n).many .nil))) ?_
  rintro before _ _ _ fault - ⟨vs, rfl, heach⟩ hfault
  cases heach with
  | cons hfirst heach =>
      cases heach with
      | cons hpairs heach =>
          cases heach
          obtain ⟨pairs, rfl, hall⟩ := hpairs
          exact hfold before _ _ _ pairs fault hfirst hall hfault

end Tokens

section Whole

variable {budget budget' : Nat} {s : Text} {w w' : World} {r : Reply}

/-- What a parse comes to depends on the budget only through the run of the parser. -/
theorem parse_congr (h : p.run budget s 0 w = .ok r w') (h' : p.run budget' s 0 w = .ok r w') :
    p.parse budget s w = p.parse budget' s w := by
  unfold parse
  rw [Run.bind_of_ok (run_skip_eof h), Run.bind_of_ok (run_skip_eof h')]

theorem parse_of_fault {halt : Halt} (h : p.run (budget + 1) s 0 w = .error halt w') :
    p.parse (budget + 1) s w = .error halt w' :=
  Run.bind_of_error (Run.bind_of_error h)

/-- What a failed parse expects was expected by the parser, or it is the end of the input. -/
theorem bound_of_explains {f : Failure} (h : f.Explains s r) (hbound : r.Bound) :
    unboundExpectation ∉ f.expected := by
  intro hmem
  by_cases hok : r.status = true
  · rcases Int.lt_trichotomy r.furthest r.index with hlt | heq | hgt
    · exact absurd ((h.mem_of_short hok hlt _).mp hmem) (by decide)
    · rcases (h.mem_of_tie hok heq _).mp hmem with hexpected | hend
      · exact hbound hexpected
      · exact absurd hend (by decide)
    · exact hbound ((h.mem_of_failed (.inr hgt) _).mp hmem)
  · exact hbound ((h.mem_of_failed (.inl (by simpa using hok)) _).mp hmem)

/-- A parser that concludes on an input parses it to an outcome or a fault, the same within
all large budgets. -/
theorem Concludes.parse (hp : p.Concludes ready faults s) (hw : ready w) :
    (∃ outcome : Outcome, outcome.Bound ∧
        ∀ᶠ budget in atTop, ∃ after, p.parse budget s w = .ok outcome after) ∨
      ∃ f, faults s f ∧ ∀ᶠ budget in atTop, ∃ after,
        p.parse budget s w = .error (.fault f) after := by
  rcases hp [] w hw with ⟨r, u, ⟨hbound, -⟩, hend⟩ | ⟨f, u, hfault, hend⟩
  · obtain ⟨n, hn⟩ := hend.exists
    have hrun : p.run (n + 1) s 0 w = .ok r u := hn
    have hsame (outcome : Outcome) (after : World)
        (hparse : p.parse (n + 1) s w = .ok outcome after) :
        ∀ᶠ budget in atTop, ∃ after, p.parse budget s w = .ok outcome after := by
      rw [← map_add_atTop_eq_nat 1]
      exact hend.mono fun m hm => ⟨after, (parse_congr hm hrun).trans hparse⟩
    rcases parse_cases hrun with ⟨hok, hindex, hparse⟩ | ⟨hnot, f, after, hparse, hexplains⟩
    · refine .inl ⟨.success r.value, ?_, hsame _ _ hparse⟩
      rintro f ⟨⟩
    · refine .inl ⟨.failure f, ?_, hsame _ _ hparse⟩
      rintro _ ⟨⟩
      exact bound_of_explains hexplains hbound
  · refine .inr ⟨f, hfault, ?_⟩
    rw [← map_add_atTop_eq_nat 1]
    exact hend.mono fun m hm => ⟨u, parse_of_fault hm⟩

end Whole

theorem Concludes.reference {r : Nat} {target : Parser}
    (h : target.Concludes (World.Targets · r target) faults text) :
    (Parser.reference r).Concludes (World.Targets · r target) faults text := by
  intro before w hw
  have htarget := h before (w.markDispatched r) hw.markDispatched
  exact (Run.Settles.of_succ htarget).of_eq fun n => run_reference hw n _ _

end Parser

namespace Reader

/-- Reading an input comes to an end: an outcome that reports no unbound reference, or a
fault that is allowed, and the same one within all large budgets. -/
def Concludes (r : Reader) (level : Level) (s : Text) (faults : Fault → Prop) : Prop :=
  (∃ outcome : Outcome, outcome.Bound ∧
      ∀ᶠ budget in atTop, (r.read budget level s).result = .ok outcome) ∨
    ∃ f, faults f ∧ ∀ᶠ budget in atTop, (r.read budget level s).result = .error (.fault f)

theorem Concludes.mono {r : Reader} {level : Level} {s : Text} {faults faults' : Fault → Prop}
    (h : r.Concludes level s faults) (himp : ∀ f, faults f → faults' f) :
    r.Concludes level s faults' :=
  h.imp_right fun ⟨f, hf, hend⟩ => ⟨f, himp f hf, hend⟩

/-- A reader concludes if its parser does. -/
theorem concludes_of_parse {r : Reader} {p : Parser} {ready : World → Prop}
    {faults : Text → Fault → Prop} {level : Level} {s : Text} {u : World}
    (hparse : ∀ budget, r.parse budget s { r.world with threshold := level, journal := [] } =
      p.parse budget s u)
    (hu : ready u) (hp : p.Concludes ready faults s) : r.Concludes level s (faults s) := by
  rcases hp.parse hu with ⟨outcome, hbound, hend⟩ | ⟨f, hfault, hend⟩
  · refine .inl ⟨outcome, hbound, hend.mono fun budget ⟨after, h⟩ => ?_⟩
    exact read_result_eq_ok_iff.mpr ⟨after, (hparse budget).trans h⟩
  · refine .inr ⟨f, hfault, hend.mono fun budget ⟨after, h⟩ => ?_⟩
    exact read_result_of_error ((hparse budget).trans h)

end Reader

end Descent
