/-
# Parsing at another place

A parse does not depend on where in a text it happens, unless the grammar asks for positions
or offsets or uses patterns of its own, which may look behind. All other descriptions are
portable: at another place with the same text ahead they come to the same reply, in which only
the offsets are moved, or to the same fault, in which only the offset of a loop without end is
moved. What they lead to through names, rules, references and handles has to be portable too.
-/

import Descent.Proofs.Forward

namespace Descent

/-- The named parsers but for those of positions and offsets. -/
def Named.IsPortable : Named → Prop
  | .position | .index => False
  | _ => True

def Atom.IsPortable : Atom → Prop
  | .named n => n.IsPortable
  | .pattern .. => False
  | _ => True

/-- A mark holds two positions. -/
def Modifier.IsPortable : Modifier → Prop
  | .mark => False
  | _ => True

/-- The descriptions without positions, offsets, marks and patterns of their own. -/
def Fragment.portable : Fragment where
  atom := Atom.IsPortable
  modifier := Modifier.IsPortable
  joiner _ := True
  between := True
  seqMap := True
  bind := True

namespace Parser

/-- The parsers that may be run at another place: their primitives look forward only, and
nothing that they call reports a place. -/
inductive Portable (scope : Scope) : Parser → Prop
  | forward {p : Parser} {act : Action} (hp : p.Primitive)
      (haction : ∀ descend turns, p.action (fun _ act => act) descend turns = act)
      (hact : act.Forward) : Portable scope p
  | trace (label : String) : Portable scope (.trace label)
  | built {d : Description} (bindings : Bindings) (hd : d.Written .portable scope) :
      Portable scope (.built d bindings)
  | bind {p : Parser} {f : Value → Parser} (hp : Portable scope p)
      (hf : ∀ v, Portable scope (f v)) : Portable scope (.bind p f)
  | map {p : Parser} {f : Value → Call Value} (hf : ∀ v, Placeless (f v).result)
      (hp : Portable scope p) : Portable scope (.map p f)
  | andThen {p q : Parser} (hp : Portable scope p) (hq : Portable scope q) :
      Portable scope (.andThen p q)
  | skip {p q : Parser} (hp : Portable scope p) (hq : Portable scope q) :
      Portable scope (.skip p q)
  | orElse {p q : Parser} (hp : Portable scope p) (hq : Portable scope q) :
      Portable scope (.orElse p q)
  | times {p : Parser} (r : Repetition) (hp : Portable scope p) : Portable scope (.times p r)
  | label {p : Parser} (description : String) (hp : Portable scope p) :
      Portable scope (.label p description)
  | withDefault {p : Parser} {call : Call Value} (hcall : Placeless call.result)
      (hp : Portable scope p) : Portable scope (.withDefault p call)
  | seq {n : Nat} {ps : Fin n → Parser} (hps : ∀ k, Portable scope (ps k)) :
      Portable scope (.seq n ps)
  | alt {n : Nat} {ps : Fin n → Parser} (hps : ∀ k, Portable scope (ps k)) :
      Portable scope (.alt n ps)
  | lookAhead {p : Parser} (hp : Portable scope p) : Portable scope (.lookAhead p)
  | notFollowedBy {p : Parser} (description : Option String) (hp : Portable scope p) :
      Portable scope (.notFollowedBy p description)
  | manyTill {p q : Parser} (hp : Portable scope p) (hq : Portable scope q) :
      Portable scope (.manyTill p q)
  | traced {p : Parser} (label : String) (hp : Portable scope p) :
      Portable scope (.traced label p)
  | reference {r : Nat} (h : scope.reference r) : Portable scope (.reference r)
  | deferred {l : Nat} (h : scope.handle l) : Portable scope (.deferred l)

namespace Portable

variable {scope : Scope} {p q r : Parser} {ps : List Parser}

theorem string (s : String) : (Parser.string s).Portable scope :=
  .forward (.string s) (fun _ _ => rfl) (Action.forward_string s)

theorem pattern {own : Pattern} (h : own.root.Certain) : (Parser.pattern own 0).Portable scope :=
  .forward (.pattern own 0) (fun _ _ => rfl) (Action.forward_pattern h)

theorem satisfy {test : Char → Call Bool} (h : ∀ c, Placeless (test c).result)
    (expected : String) : (Parser.satisfy test expected).Portable scope :=
  .forward (.satisfy test expected) (fun _ _ => rfl) (Action.forward_satisfy h expected)

theorem takeWhile {test : Char → Call Bool} (h : ∀ c, Placeless (test c).result) :
    (Parser.takeWhile test).Portable scope :=
  .forward (.takeWhile test) (fun _ _ => rfl) (Action.forward_takeWhile h)

theorem pure (v : Value) : (Parser.pure v).Portable scope :=
  .forward (.pure v) (fun _ _ => rfl) (Action.forward_succeed v)

theorem fail (expected : String) : (Parser.fail expected).Portable scope :=
  .forward (.fail expected) (fun _ _ => rfl) (Action.forward_fail expected)

theorem char (c : Value) : (Parser.char c).Portable scope :=
  .label _ (.satisfy (fun _ => .ok _) _)

theorem oneOf (cs : Value) : (Parser.oneOf cs).Portable scope :=
  .label _ (.satisfy (fun x => cs.placeless_holds x) _)

theorem noneOf (cs : Value) : (Parser.noneOf cs).Portable scope :=
  .label _ (.satisfy (fun x => .map _ (cs.placeless_holds x)) _)

theorem satisfying (test : Predicate) : (Parser.satisfying test).Portable scope :=
  .satisfy test.placeless_test _

theorem result (v : Value) (hp : p.Portable scope) : (p.result v).Portable scope :=
  .map (fun _ => .ok v) hp

theorem named {n : Named} (h : n.IsPortable) : n.parser.Portable scope := by
  cases n with
  | anyChar => exact .forward .anyChar (fun _ _ => rfl) Action.forward_anyChar
  | letter => exact .label _ (.pattern (Pattern.Node.certain_set _ _ _))
  | letters => exact .pattern (Pattern.Node.certain_star_set _ _ _)
  | digit => exact .label _ (.pattern (Pattern.Node.certain_set _ _ _))
  | digits => exact .label _ (.pattern (Pattern.Node.certain_star_set _ _ _))
  | whitespace => exact .label _ (.pattern (Pattern.Node.certain_plus_set _ _ _))
  | optionalWhitespace => exact .label _ (.pattern (Pattern.Node.certain_star_set _ _ _))
  | newline => exact .label _ (.char _)
  | crlf => exact .label _ ((string _).result _)
  | endOfLine => exact .label _ (.orElse (.label _ (.char _)) (.label _ ((string _).result _)))
  | space => exact .label _ (.satisfying _)
  | upper => exact .label _ (.satisfying _)
  | lower => exact .label _ (.satisfying _)
  | alphaNum => exact .label _ (.satisfying _)
  | hexDigit => exact .label _ (.oneOf _)
  | octDigit => exact .label _ (.oneOf _)
  | eof => exact .forward .eof (fun _ _ => rfl) Action.forward_eof
  | rest => exact .forward .rest (fun _ _ => rfl) Action.forward_rest
  | position => exact h.elim
  | index => exact h.elim

theorem atom {bindings : Bindings} {a : Atom} (h : a.IsPortable)
    (hbuild : a.build bindings = .ok p) : p.Portable scope := by
  cases a with
  | named n =>
      cases hbuild
      exact .named h
  | string s =>
      obtain ⟨v, hv⟩ := exists_of_bind_eq_ok hbuild
      rcases Atom.stringParser_eq_ok hv with ⟨text, rfl⟩ | ⟨expected, rfl⟩
      · exact .string text
      · exact .fail expected
  | char c =>
      obtain ⟨v, hv⟩ := exists_of_bind_eq_ok hbuild
      cases hv
      exact .char v
  | oneOf cs =>
      obtain ⟨v, hv⟩ := exists_of_bind_eq_ok hbuild
      cases hv
      exact .oneOf v
  | noneOf cs =>
      obtain ⟨v, hv⟩ := exists_of_bind_eq_ok hbuild
      cases hv
      exact .noneOf v
  | fail expected =>
      obtain ⟨text, htext⟩ := exists_of_bind_eq_ok hbuild
      cases htext
      exact .fail text
  | pure v =>
      obtain ⟨value, hvalue⟩ := exists_of_bind_eq_ok hbuild
      cases hvalue
      exact .pure value
  | trace label =>
      obtain ⟨text, htext⟩ := exists_of_bind_eq_ok hbuild
      cases htext
      exact .trace text
  | satisfy test =>
      cases hbuild
      exact .satisfying test
  | takeWhile test =>
      cases hbuild
      exact .takeWhile test.placeless_test
  | pattern source group options compiled => exact h.elim

theorem many (hp : p.Portable scope) : p.many.Portable scope :=
  .times _ hp

theorem andMany (r : Repetition) (hp : p.Portable scope) : (p.andMany r).Portable scope :=
  .bind (.times r hp) fun _ => .map (fun _ => .ok _) hp.many

theorem modifier {bindings : Bindings} {m : Modifier} (h : m.IsPortable) (hp : p.Portable scope)
    (hbuild : m.build bindings p = .ok q) : q.Portable scope := by
  cases m with
  | map f =>
      cases hbuild
      exact .map (fun v => f.placeless_apply [v]) hp
  | result v =>
      obtain ⟨value, hvalue⟩ := exists_of_bind_eq_ok hbuild
      cases hvalue
      exact hp.result value
  | label description =>
      obtain ⟨text, htext⟩ := exists_of_bind_eq_ok hbuild
      cases htext
      exact .label text hp
  | many =>
      cases hbuild
      exact hp.many
  | mark => exact h.elim
  | optional =>
      cases hbuild
      exact .orElse hp (.pure _)
  | atMost n =>
      obtain ⟨count, hcount⟩ := exists_of_bind_eq_ok hbuild
      obtain ⟨r, hr⟩ := exists_of_bind_eq_ok hcount
      cases hr
      exact .times r hp
  | atLeast n =>
      obtain ⟨count, hcount⟩ := exists_of_bind_eq_ok hbuild
      obtain ⟨r, hr⟩ := exists_of_bind_eq_ok hcount
      cases hr
      exact hp.andMany r
  | times least most =>
      obtain ⟨low, hlow⟩ := exists_of_bind_eq_ok hbuild
      obtain ⟨high, hhigh⟩ := exists_of_bind_eq_ok hlow
      obtain ⟨r, hr⟩ := exists_of_bind_eq_ok hhigh
      cases hr
      exact .times r hp
  | count n =>
      obtain ⟨count, hcount⟩ := exists_of_bind_eq_ok hbuild
      obtain ⟨r, hr⟩ := exists_of_bind_eq_ok hcount
      cases hr
      exact .times r hp
  | option v =>
      obtain ⟨value, hvalue⟩ := exists_of_bind_eq_ok hbuild
      cases hvalue
      exact .orElse hp (.pure value)
  | withDefault d =>
      cases d with
      | value v =>
          obtain ⟨value, hvalue⟩ := exists_of_bind_eq_ok hbuild
          cases hvalue
          exact .withDefault (.ok value) hp
      | call f =>
          cases hbuild
          exact .withDefault (f.placeless_apply _) hp
  | many1 =>
      cases hbuild
      exact hp.andMany _
  | skipMany =>
      cases hbuild
      exact hp.many.result _
  | lookAhead =>
      cases hbuild
      exact .lookAhead hp
  | notFollowedBy description =>
      cases hbuild
      exact .notFollowedBy description hp
  | traced label =>
      cases hbuild
      exact .traced label hp

theorem sequence (hps : ∀ p ∈ ps, p.Portable scope) : (Parser.sequence ps).Portable scope :=
  .seq fun k => hps _ (List.get_mem ps k)

theorem choice (hps : ∀ p ∈ ps, p.Portable scope) : (Parser.choice ps).Portable scope :=
  .alt fun k => hps _ (List.get_mem ps k)

theorem seqMap {f : List Value → Call Value} (hf : ∀ vs, Placeless (f vs).result)
    (hps : ∀ p ∈ ps, p.Portable scope) : (Parser.seqMap ps f).Portable scope :=
  .map (fun v => hf v.items) (sequence hps)

theorem sepBy1 (hp : p.Portable scope) (hq : q.Portable scope) : (p.sepBy1 q).Portable scope :=
  .bind hp fun _ => .map (fun _ => .ok _) (many (.andThen hq hp))

/-- A chain whose operators are applied without a look at the input. -/
theorem chain {fold : Value → List Value → Call Value}
    (hfold : ∀ first pairs, Placeless (fold first pairs).result) (hp : p.Portable scope)
    (hq : q.Portable scope) : (Parser.chain fold p q).Portable scope := by
  have hrow {a b : Parser} (ha : a.Portable scope) (hb : b.Portable scope) :
      ∀ c ∈ [a, b], c.Portable scope := by
    intro c hc
    rcases List.mem_pair.mp hc with rfl | rfl
    · exact ha
    · exact hb
  refine .seqMap (fun vs => ?_) (hrow hp (many (sequence (hrow hq hp))))
  split
  · exact hfold _ _
  · exact .error fun _ => rfl

theorem joiner (j : Joiner) (hp : p.Portable scope) (hq : q.Portable scope) :
    (j.build p q).Portable scope := by
  cases j with
  | andThen => exact .andThen hp hq
  | skip => exact .skip hp hq
  | orElse => exact .orElse hp hq
  | both => exact .bind hp fun _ => .map (fun _ => .ok _) hq
  | ap => exact .bind hp fun f => .map (fun v => f.placeless_call [v]) hq
  | sepBy => exact .orElse (hp.sepBy1 hq) (.pure _)
  | sepBy1 => exact hp.sepBy1 hq
  | endBy => exact many (.skip hp hq)
  | chainLeft => exact .chain placeless_foldLeft hp hq
  | chainRight => exact .chain placeless_foldRight hp hq
  | manyTill => exact .manyTill hp hq

end Portable

end Parser

/-- What descriptions of the fragment build is portable. -/
theorem Fragment.makes_portable (scope : Scope) :
    Fragment.portable.Makes scope (Parser.Portable scope) where
  atom h hbuild := .atom h hbuild
  modifier h hp hbuild := .modifier h hp hbuild
  joiner {j p q} _ hp hq := .joiner j hp hq
  between _ hp hq hr := .skip (.andThen hp hr) hq
  sequence hps := .sequence hps
  choice hps := .choice hps
  seqMap f _ hps := .seqMap f.placeless_apply hps
  bind _ hp hd := .bind hp fun _ => .built _ hd
  label description hp := .label description hp
  reference h := by
    cases h with
    | forward hp => cases hp
    | reference h => exact h
  handle := by
    refine ⟨fun h => ?_, .deferred⟩
    cases h with
    | forward hp => cases hp
    | deferred h => exact h

/-- A world in which everything in the scope is portable. -/
abbrev World.Portable (scope : Scope) : World → Prop :=
  World.Confined Fragment.portable scope (Parser.Portable scope)

/-- Portable descriptions have no patterns, so building them reports no place. -/
theorem Description.placeless_build_portable {scope : Scope} {d : Description}
    (hd : d.Written .portable scope) (bindings : Bindings) : (d.build bindings).Placeless :=
  d.placeless_build (fun _ _ _ _ h => h) hd bindings

variable {scope : Scope} {s s' : Text} {k : Int} {w w' : World}

/-- Portable parsers do alike at places with the same text ahead, provided that this is so for
what they lead to. -/
theorem Parser.Portable.acts {p : Parser} {descend : Parser → Action}
    {descend' : Nat → Parser → Action} {turns : Nat} (hp : p.Portable scope)
    (hexits : ∀ q q', Exits (fun _ d d' => d = d' ∧ d.Written .portable scope)
      (Portable scope) q q' →
      (Comparison.abreast Level.Any .portable scope (Portable scope) k).Acts (.shift s s' k)
        (q.action (fun _ act => act) descend turns)
        (fun n => q'.action (fun _ act => act) (descend' n) n) w w') :
    (Comparison.abreast Level.Any .portable scope (Portable scope) k).Acts (.shift s s' k)
      (p.action (fun _ act => act) descend turns)
      (fun n => p.action (fun _ act => act) (descend' n) n) w w' := by
  have hquiet : World.Quiet (World.Portable scope) := World.Confined.quiet
  have hc : (Comparison.abreast Level.Any .portable scope (Portable scope) k).Overlooks :=
    Comparison.overlooks_beside hquiet
  have hidle : (Comparison.abreast Level.Any .portable scope (Portable scope) k).IdleTurns
      (.shift s s' k) := by
    intro i i' hi
    rw [Text.Aligned.add_eq hi]
    exact ⟨rfl, rfl⟩
  have repeats {call : Call Value} (hcall : Placeless call.result) :
      (Comparison.abreast Level.Any .portable scope (Portable scope) k).Repeats call :=
    Comparison.repeats_beside hquiet fun f hf => hcall f hf k
  induction hp with
  | forward hp haction hact =>
      simp only [haction]
      exact hact.acts hquiet s s' k w w'
  | trace label =>
      intro v v' i i' hreach hi
      obtain ⟨⟨hlo, hhi⟩, hlo', hhi'⟩ := Text.Aligned.inside hi
      exact hc.inert (Action.inert_trace label hlo hhi) (Action.inert_trace label hlo' hhi')
        hreach.related (Reply.Moves.ok .null hi)
  | built bindings hd => exact hexits _ _ (.built ⟨rfl, hd⟩)
  | bind _ _ ihp ihf => exact ihp.bind ihf
  | map hf _ ihp => exact ihp.map fun v => repeats (hf v)
  | andThen _ _ ihp ihq => exact ihp.andThen ihq
  | skip _ _ ihp ihq => exact ihp.skip ihq
  | orElse _ _ ihp ihq => exact ihp.orElse ihq
  | times r _ ihp => exact ihp.times hidle turns r
  | label description _ ihp => exact ihp.label description
  | withDefault hcall _ ihp => exact ihp.withDefault (repeats hcall)
  | seq _ ih => exact .seq ih
  | alt _ ih => exact .alt ih
  | lookAhead _ ihp => exact ihp.lookAhead
  | notFollowedBy description _ ihp => exact ihp.notFollowedBy description
  | manyTill _ _ ihp ihq => exact ihp.manyTill hidle turns ihq
  | traced label _ ihp =>
      intro v v' i i' hreach hi
      have htraced := Comparison.harmless_traced hc (L := .shift s s' k) Text.Aligned.inside label
      refine htraced.left hreach.related hi fun u u' hru => ?_
      refine htraced.right hru.related hi fun z z' hrz => ?_
      exact ihp z z' i i' (hreach.trans (hru.trans hrz)) hi
  | reference h => exact hexits _ _ (.handle trivial (.reference h))
  | deferred h => exact hexits _ _ (.handle trivial (.deferred h))

/-- Runs of portable parsers side by side, at places of two texts. -/
theorem Parallel.portable (scope : Scope) (s s' : Text) (k : Int) :
    Parallel Level.Any .portable scope (Parser.Portable scope) (.shift s s' k) k
      (fun _ d d' => d = d' ∧ d.Written .portable scope)
      (fun p p' => p = p' ∧ p.Portable scope) where
  makes := Fragment.makes_portable scope
  same_fault hd hend := Description.placeless_build_portable hd _ _ _ _ hend k
  self hp := ⟨rfl, hp⟩
  builds := by
    rintro bindings d _ w w' ⟨rfl, hd⟩ h hw
    exact h.build_self (Fragment.makes_portable scope)
      (fun hend => Description.placeless_build_portable hd _ _ _ _ hend k) hd hw
  acts := by
    rintro p _ descend descend' turns w w' ⟨rfl, hp⟩ hexits
    exact hp.acts hexits

/-- The answer for a place that lies `k` characters further on. -/
def Answer.moved (k : Int) : Answer → Answer
  | .reply r => .reply (r.moved k)
  | a => a

@[simp] theorem Answer.moved_zero (a : Answer) : a.moved 0 = a := by
  cases a <;> simp [moved]

namespace Session

/-- Calls at places with the same text ahead do alike. -/
theorem follows_call_of_aligned {d : Description} {i i' : Int} (hw : w.Portable scope)
    (hd : d.Written .portable scope) (hi : s.Aligned s' k i i') (n : Nat) :
    (Comparison.abreast Level.Any .portable scope (Parser.Portable scope) k).Follows
      (fun _ _ a b => b = a.moved k) (Step.perform n (.call d s i))
      (fun m => Step.perform m (.call d s' i')) w w := by
  refine ((Parallel.portable scope s s' k).call ⟨rfl, hd⟩ ⟨trivial, rfl, rfl, rfl, rfl⟩ hw hi
    n).weaken (fun _ _ h => h) (fun _ _ h => h) fun _ _ a a' ha => ?_
  cases ha with
  | reply hr => exact congrArg Answer.reply hr.eq_moved

/-- A parse does not depend on where in the text it happens. Let a portable description be called
inside an input, in a world in which everything that it may lead to is portable as well, and let
the same be done with a text put in front of the input. One call ends if and only if the other
one does, with the same reply but for offsets, which are moved by the length of that text, or
with the same fault, likewise. -/
theorem call_independent_of_place (scope : Scope) (w : World) (d : Description) (u s : Text)
    (i : Int) (hw : w.Portable scope) (hd : d.Written .portable scope) (hi : 0 ≤ i)
    (hlen : i ≤ s.length) :
    ((∃ budget, (observe w (Step.perform budget (.call d s i))).1.Ended) ↔
      ∃ budget, (observe w (Step.perform budget (.call d (u ++ s) (u.length + i)))).1.Ended) ∧
    ∀ budget budget', (observe w (Step.perform budget (.call d s i))).1.Ended →
      (observe w (Step.perform budget' (.call d (u ++ s) (u.length + i)))).1.Ended →
      (observe w (Step.perform budget' (.call d (u ++ s) (u.length + i)))).1.result =
        ((observe w (Step.perform budget (.call d s i))).1.result.mapError
          (Halt.moved u.length)).map (Answer.moved u.length) := by
  have hcleared : w.cleared.Portable scope := hw.congr rfl rfl rfl rfl
  have hplace := Text.Aligned.append_left u hi hlen
  obtain ⟨-, hlo, hhi⟩ := hplace.inside
  have hself (n : Nat) :
      (Comparison.abreast Level.Any .portable scope (Parser.Portable scope) 0).Follows
      (fun _ _ a b => b = id a) (Step.perform n (.call d (u ++ s) (u.length + i)))
      (fun m => Step.perform m (.call d (u ++ s) (u.length + i))) w.cleared w.cleared :=
    (follows_call_of_aligned hcleared hd (.refl hlo hhi) n).weaken (fun _ _ h => h)
      (fun _ _ h => h) fun _ _ a _ hab => hab.trans a.moved_zero
  exact results_correspond (follows_call_of_aligned hcleared hd hplace)
    (follows_call_of_aligned hcleared hd hplace.symm) hself

/-- Brackets around digits by a rule that contains itself. -/
def bracketSteps : List Step :=
  [.rule "brackets" (.join .orElse (.sequence [.atom (.string (.value (.str "("))),
    .deferred "brackets" none, .atom (.string (.value (.str ")")))])
    (.wrap .many1 (.atom (.named .digit))))]

/-- Brackets that no letters come after. The letters would be quoted. -/
def bracketsAlone : Description :=
  .join .skip (.deferred "brackets" none)
    (.wrap (.notFollowedBy none) (.wrap .many1 (.atom (.named .letter))))

theorem bracketSteps_written : ∀ step ∈ bracketSteps, step.Written .portable := by
  simp [bracketSteps, Step.Written, Description.Written, Description.sequence, Fragment.portable,
    Atom.IsPortable, Modifier.IsPortable, Named.IsPortable, Fin.forall_fin_succ, Scope.all]

theorem bracketsAlone_written : bracketsAlone.Written .portable .all := by
  simp [bracketsAlone, Description.Written, Fragment.portable, Atom.IsPortable,
    Modifier.IsPortable, Named.IsPortable, Scope.all]

/-- A failure that quotes a part of the input, two characters further on. -/
theorem call_independent_of_place_of_brackets :
    ∃ w r, Leads {} bracketSteps w ∧
      (observe w (Step.perform 12
        (.call bracketsAlone ['-', '(', '1', ')', 'a', 'b'] 1))).1.result = .ok (.reply r) ∧
      r.status = false ∧ r.furthest = 4 ∧ r.expected.toList = ["not 'ab'"] ∧
      (observe w (Step.perform 12
        (.call bracketsAlone ['x', 'y', '-', '(', '1', ')', 'a', 'b'] 3))).1.result =
        .ok (.reply (r.moved 2)) := by
  obtain ⟨w, hleads, hstops, hended⟩ : ∃ w, Leads {} bracketSteps w ∧
      (((observe w (Step.perform 12 (.call bracketsAlone ['-', '(', '1', ')', 'a', 'b']
        1))).1.result.toOption.bind Answer.reply?).map
          fun r => (r.status, r.furthest, r.expected.toList)) =
        some (false, 4, ["not 'ab'"]) ∧
      (observe w (Step.perform 12 (.call bracketsAlone
        ['x', 'y', '-', '(', '1', ')', 'a', 'b'] 3))).1.Ended :=
    ⟨_, .cons 0 (by decide +kernel) (.nil _), by decide +kernel, by decide +kernel⟩
  have hworld := hleads.confined (Fragment.makes_portable .all) (fun _ => .reference trivial)
    bracketSteps_written .empty
  obtain ⟨r, hr, htold⟩ := Option.map_eq_some_iff.mp hstops
  obtain ⟨hstatus, hmore⟩ := Prod.mk.inj htold
  obtain ⟨hfurthest, hexpected⟩ := Prod.mk.inj hmore
  have hend := Report.result_eq_of_reply? hr
  have hplace := (call_independent_of_place .all w bracketsAlone ['x', 'y']
    ['-', '(', '1', ')', 'a', 'b'] 1 hworld bracketsAlone_written (by decide) (by decide)).2 12 12
  rw [Report.Ended, hend] at hplace
  exact ⟨w, r, hleads, hend, hstatus, hfurthest, hexpected, hplace trivial hended⟩

end Session

end Descent
