/-
# The rules of calculations

A factor may contain an expression and an expression contains factors, so both are rules
that are built when a run reaches them. Each time a rule is built, two new handles come
into being, one for each rule. Whatever has been built so far, a handle of a rule reads
and yields what any parser built from the rule does.
-/

import Descent.Proofs.Grammar.Recursion
import Descent.Proofs.Grammar.Token
import Descent.Proofs.Memory
import Descent.Reader.Arithmetic

namespace Descent

theorem toOption_eq_some_iff {ε α : Type} {e : Except ε α} {a : α} :
    e.toOption = some a ↔ e = .ok a := by
  cases e <;> simp [Except.toOption]

namespace Reader.Arithmetic

/-- The pattern of integers. -/
def integerPattern : Pattern where
  source := "[0-9]+"
  flags := ""
  root := .plus .digit

theorem compile_integerPattern :
    (Pattern.compile "[0-9]+" {}).toOption = some integerPattern := by
  decide +kernel

/-- The parser of integers. -/
def integerParser : Parser :=
  ((lexeme (.pattern integerPattern 0)).map fun v => Callback.integer.apply [v]).label "integer"

/-- The parser of operators, given their signs. -/
def operatorParser (signs : String) : Parser :=
  (lexeme (.oneOf (.str signs))).map fun v => Callback.operation.apply [v]

/-- The parser of a factor with a minus before it, given the handle of factors. -/
def negatedParser (a : Nat) : Parser :=
  ((symbol "-").andThen (.deferred a)).map fun v => Callback.negate.apply [v]

/-- The parser of factors, given the handles of factors and expressions. -/
def factorParser (a b : Nat) : Parser :=
  ((negatedParser a).orElse integerParser).orElse
    (.between (symbol "(") (symbol ")") (.deferred b))

/-- The parser of terms. -/
def termParser (a b : Nat) : Parser :=
  (factorParser a b).chainLeft (operatorParser "*/")

/-- The parser of expressions. -/
def expressionParser (a b : Nat) : Parser :=
  (termParser a b).chainLeft (operatorParser "+-")

/-- The rules that are built when a run reaches them. -/
inductive Rule
  | factor
  | expression

namespace Rule

/-- The name of a rule. -/
def name : Rule → String
  | factor => "factor"
  | expression => "expression"

/-- The parser that is built from a rule, given new handles of factors and expressions. -/
def body : Rule → Nat → Nat → Parser
  | factor => factorParser
  | expression => expressionParser

theorem name_injective {r r' : Rule} (h : r.name = r'.name) : r = r' := by
  cases r <;> cases r' <;> first | rfl | exact absurd h (by decide)

end Rule

/-- The world with a new handle for each of the two rules. -/
def grown (w : World) : World :=
  (w.withDeferred "factor").withDeferred "expression"

section Building

theorem patternParser_integer :
    Atom.patternParser "[0-9]+" (.number 0) {} none = .ok (.pattern integerPattern 0) := by
  unfold Atom.patternParser
  rw [toOption_eq_some_iff.mp compile_integerPattern]
  rfl

theorem build_integer : integer.build [] = pure integerParser := by
  simp only [integer, token, Description.build, Atom.build, patternParser_integer]
  rfl

theorem build_factor (w : World) :
    factor.build [] w = .ok (factorParser w.deferred.size (w.deferred.size + 1)) (grown w) := by
  let u := w.withDeferred "factor"
  have hsize : u.deferred.size = w.deferred.size + 1 := Array.size_push ..
  have hnegated : negated.build [] w = .ok (negatedParser w.deferred.size) u := rfl
  have hinteger : integer.build [] u = .ok integerParser u := by
    rw [build_integer]
    rfl
  have hbrackets : (Description.between (sign "(") (sign ")")
      (.deferred "expression" none)).build [] u =
        .ok (.between (symbol "(") (symbol ")") (.deferred u.deferred.size)) (grown w) := rfl
  rw [hsize] at hbrackets
  have hleft : (Description.join .orElse negated integer).build [] w =
      .ok ((negatedParser w.deferred.size).orElse integerParser) u :=
    (Run.bind_of_ok hnegated).trans ((Run.bind_of_ok hinteger).trans rfl)
  exact (Run.bind_of_ok hleft).trans ((Run.bind_of_ok hbrackets).trans rfl)

theorem build_expression (w : World) :
    expression.build [] w =
      .ok (expressionParser w.deferred.size (w.deferred.size + 1)) (grown w) := by
  have hterm : term.build [] w = .ok (termParser w.deferred.size (w.deferred.size + 1)) (grown w) :=
    (Run.bind_of_ok (build_factor w)).trans rfl
  exact (Run.bind_of_ok hterm).trans rfl

theorem build_rule (r : Rule) : ∃ d, World.lookup? r.name world.rules = some d ∧
    ∀ w, d.build [] w = .ok (r.body w.deferred.size (w.deferred.size + 1)) (grown w) := by
  cases r with
  | factor => exact ⟨factor, rfl, build_factor⟩
  | expression => exact ⟨expression, rfl, build_expression⟩

end Building

/-- The numbers are those of a handle of factors and one of expressions. -/
structure Handles (w : World) (a b : Nat) : Prop where
  factor : w.ruleOf a = some "factor"
  expression : w.ruleOf b = some "expression"

/-- A handle of one of the rules, which has not been built or stands for a parser that was. -/
def Behaves (w : World) (l : Nat) (handle : Deferred) : Prop :=
  ∃ r : Rule, handle.rule = r.name ∧ (handle.behaviour = .build l ∨
    ∃ a b, Handles w a b ∧ handle.behaviour = .run (r.body a b))

/-- What a run needs of a world: all handles behave, and those of an earlier world are there. -/
structure Ready (w₀ w : World) : Prop where
  rules : w.rules = world.rules
  later : w₀.Later w
  behaves : ∀ l handle, w.deferred[l]? = some handle → Behaves w l handle

section Handles

variable {w₀ w u : World} {l a b : Nat} {r : Rule}

theorem Ready.self (hw : Ready w₀ w) : Ready w w :=
  ⟨hw.rules, .refl w, hw.behaves⟩

theorem Ready.trans (hw : Ready w₀ w) (hu : Ready w u) : Ready w₀ u :=
  ⟨hu.rules, hw.later.trans hu.later, hu.behaves⟩

theorem Handles.later (h : Handles w a b) (hlater : w.Later u) : Handles u a b :=
  ⟨hlater a _ h.factor, hlater b _ h.expression⟩

theorem Behaves.later {handle : Deferred} (h : Behaves w l handle) (hlater : w.Later u) :
    Behaves u l handle := by
  obtain ⟨r, hrule, hbuild | ⟨a, b, hab, hrun⟩⟩ := h
  · exact ⟨r, hrule, .inl hbuild⟩
  · exact ⟨r, hrule, .inr ⟨a, b, hab.later hlater, hrun⟩⟩

theorem quiet_ready (w₀ : World) : World.Quiet (Ready w₀) :=
  fun _ _ hw => ⟨hw.rules, hw.later, fun l handle hl =>
    (hw.behaves l handle hl).later fun _ _ h => h⟩

/-- A new handle of a rule changes nothing of the others. -/
theorem Ready.withDeferred (hw : Ready w w) (r : Rule) : Ready w (w.withDeferred r.name) := by
  have hlater := ((World.Grows.refl w).withDeferred r.name).later
  refine ⟨hw.rules, hlater, fun l handle hl => ?_⟩
  rw [World.withDeferred, Array.getElem?_push] at hl
  split at hl
  · next heq =>
    cases hl
    exact ⟨r, rfl, .inl (by rw [heq])⟩
  · exact (hw.behaves l handle hl).later hlater

theorem Ready.grown (hw : Ready w w) : Ready w (grown w) :=
  (hw.withDeferred .factor).trans ((hw.withDeferred .factor).self.withDeferred .expression)

theorem handles_grown (hw : Ready w w) :
    Handles (Arithmetic.grown w) w.deferred.size (w.deferred.size + 1) := by
  have hsize : (w.withDeferred "factor").deferred.size = w.deferred.size + 1 := Array.size_push ..
  have hnext := (hw.withDeferred .factor).self.withDeferred .expression
  refine ⟨hnext.later _ _ (World.ruleOf_withDeferred w "factor"), ?_⟩
  rw [← hsize]
  exact World.ruleOf_withDeferred _ "expression"

theorem later_keepBehaviour (w : World) (l : Nat) (behaviour : Behaviour) :
    w.Later (w.keepBehaviour l behaviour) := by
  intro k rule hk
  rwa [World.Descends.ruleOf_keepBehaviour]

theorem getElem?_keepBehaviour (w : World) (l k : Nat) (behaviour : Behaviour) :
    (w.keepBehaviour l behaviour).deferred[k]? =
      if l = k then (w.deferred[k]?).map fun c => { c with behaviour } else w.deferred[k]? := by
  simp [World.keepBehaviour, Array.getElem?_modify]

/-- A handle may keep a parser that was built from its rule. -/
theorem Ready.keepBehaviour (hw : Ready w w) {handle : Deferred}
    (hl : w.deferred[l]? = some handle) (hrule : handle.rule = r.name) (hab : Handles w a b) :
    Ready w (w.keepBehaviour l (.run (r.body a b))) := by
  have hlater := later_keepBehaviour w l (.run (r.body a b))
  refine ⟨hw.rules, hlater, fun k kept hk => ?_⟩
  rw [getElem?_keepBehaviour] at hk
  split at hk
  · next heq =>
    rw [← heq, hl] at hk
    cases hk
    exact ⟨r, hrule, .inr ⟨a, b, hab.later hlater, rfl⟩⟩
  · exact (hw.behaves k kept hk).later hlater

theorem buildRule_eq (hw : Ready w w) (hl : w.ruleOf l = some r.name) :
    Behaviour.buildRule l w = .ok () ((Arithmetic.grown (w.noted [.built r.name])).keepBehaviour l
      (.run (r.body w.deferred.size (w.deferred.size + 1)))) := by
  obtain ⟨handle, hcell, hname⟩ := Option.map_eq_some_iff.mp hl
  obtain ⟨d, hlookup, hbuild⟩ := build_rule r
  let v := w.noted [.built r.name]
  have hnote : Run.note (.built handle.rule) w = .ok () v := by
    rw [hname]
    rfl
  have hrules : World.lookup? handle.rule v.rules = some d := by
    rw [← hlookup, ← hw.rules, hname]
    rfl
  have hkept : (Arithmetic.grown v).behaviour (r.body w.deferred.size (w.deferred.size + 1)) =
      .run (r.body w.deferred.size (w.deferred.size + 1)) := by
    cases r <;> rfl
  unfold Behaviour.buildRule
  rw [Run.get_bind, hcell]
  refine (Run.bind_of_ok hnote).trans ?_
  rw [Run.get_bind, hrules]
  refine (Run.bind_of_ok (hbuild v)).trans ?_
  rw [← hkept]
  rfl

/-- Building a rule leaves a world behind in which the handle stands for what was built. -/
theorem exists_buildRule (hw : Ready w w) (hl : w.ruleOf l = some r.name) :
    ∃ u a b, Behaviour.buildRule l w = .ok () u ∧ Ready w u ∧ Handles u a b ∧
      u.deferred[l]? = some ⟨r.name, .run (r.body a b)⟩ := by
  let v := w.noted [.built r.name]
  have hv : Ready w v := quiet_ready w w _ hw
  have hgrown : Ready w (Arithmetic.grown v) := hv.trans hv.self.grown
  have hab := handles_grown hv.self
  obtain ⟨handle, hcell, hname⟩ := Option.map_eq_some_iff.mp (hgrown.later l _ hl)
  have hkept := hgrown.self.keepBehaviour hcell hname hab
  refine ⟨_, v.deferred.size, v.deferred.size + 1, buildRule_eq hw hl, hgrown.trans hkept,
    hab.later hkept.later, ?_⟩
  rw [getElem?_keepBehaviour, if_pos rfl, hcell, ← hname]
  rfl

/-- The handle has been built: its runs are those of a parser built from the rule. -/
def Built (r : Rule) (l : Nat) (w : World) : Prop :=
  ∃ a b, Handles w a b ∧
    ∀ n s i, (Parser.deferred l).run (n + 1) s i w = (r.body a b).run n s i w

/-- A run that reaches a handle goes on with a parser built from the rule, after building it
if need be. -/
theorem Ready.built_or_builds (hw : Ready w₀ w) (hl : w₀.ruleOf l = some r.name) :
    Built r l w ∨ ∃ u, Ready w u ∧ Built r l u ∧
      ∀ n s i, (Parser.deferred l).run (n + 1) s i w = (Parser.deferred l).run n s i u := by
  have hrule := hw.later l _ hl
  obtain ⟨handle, hcell, hname⟩ := Option.map_eq_some_iff.mp hrule
  obtain ⟨r', hname', hbuild | ⟨a, b, hab, hrun⟩⟩ := hw.behaves l handle hcell
  · obtain ⟨u, a, b, hbuilds, hu, hab, hcell'⟩ := exists_buildRule hw.self hrule
    have hunbuilt : w.deferred[l]? = some ⟨handle.rule, .build l⟩ := by
      rw [hcell, ← hbuild]
    exact .inr ⟨u, hu, ⟨a, b, hab, Parser.run_deferred_of_run hcell'⟩,
      Parser.run_deferred_of_build hunbuilt hbuilds⟩
  · obtain rfl := Rule.name_injective (hname.symm.trans hname')
    have hkept : w.deferred[l]? = some ⟨handle.rule, .run (r.body a b)⟩ := by
      rw [hcell, ← hrun]
    exact .inl ⟨a, b, hab, Parser.run_deferred_of_run hkept⟩

/-- A run of a handle comes to the same end as those of every parser built from its rule. -/
theorem settles_deferred {faults : Fault → Prop} {post : Reply → Prop} {s : Text} {i : Int}
    (h : ∀ w₀ a b, Handles w₀ a b → ∀ u, Ready w₀ u →
      Run.Settles faults (fun reply z => post reply ∧ Ready w₀ z)
        (fun n => (r.body a b).run (n + 1) s i) u)
    (hl : w₀.ruleOf l = some r.name) (hw : Ready w₀ w) :
    Run.Settles faults (fun reply z => post reply ∧ Ready w₀ z)
      (fun n => (Parser.deferred l).run (n + 1) s i) w := by
  have hbuilt {u : World} (hu : Ready w₀ u) (hready : Built r l u) :
      Run.Settles faults (fun reply z => post reply ∧ Ready w₀ z)
        (fun n => (Parser.deferred l).run (n + 1) s i) u := by
    obtain ⟨a, b, hab, hrun⟩ := hready
    refine Run.Settles.of_eq (y := fun n => (r.body a b).run n s i) (.of_succ ?_)
      fun n => hrun n s i
    exact (h u a b hab u hu.self).mono fun _ _ hpost => ⟨hpost.1, hu.trans hpost.2⟩
  rcases hw.built_or_builds hl with hready | ⟨u, hu, hready, hrun⟩
  · exact hbuilt hw hready
  · exact (Run.Settles.of_succ (hbuilt (hw.trans hu) hready)).of_eq fun n => hrun n s i

/-- A handle reads what every parser built from its rule does. -/
theorem reads_deferred {t rest : Text} {v : Value}
    (h : ∀ w₀ a b, Handles w₀ a b → (r.body a b).Reads (Ready w₀) t rest v)
    (hl : w₀.ruleOf l = some r.name) : (Parser.deferred l).Reads (Ready w₀) t rest v :=
  fun before _ hw => settles_deferred (fun w₀ a b hab u hu => h w₀ a b hab before u hu) hl hw

/-- What parsers built from the rules yield may be derived from what the handles yield, since
each passage takes a step of the budget. -/
theorem yields_deferred {R : Rule → Text → Value → Prop}
    (h : ∀ n, (∀ (r : Rule) (w₀ : World) (l : Nat), w₀.ruleOf l = some r.name →
        (Parser.deferred l).Yields (Ready w₀) n (R r)) →
      ∀ (r : Rule) (w₀ : World) (a b : Nat), Handles w₀ a b →
        (r.body a b).Yields (Ready w₀) n (R r))
    (n : Nat) (r : Rule) (w₀ : World) (l : Nat) (hl : w₀.ruleOf l = some r.name) :
    (Parser.deferred l).Yields (Ready w₀) n (R r) := by
  induction n generalizing r w₀ l with
  | zero =>
      intro before text w hw
      rcases hw.built_or_builds hl with ⟨a, b, hab, hrun⟩ | ⟨u, hu, hready, hrun⟩
      · exact .of_eq .unfinished (hrun 0 _ _)
      · exact .of_eq .unfinished (hrun 0 _ _)
  | succ n ih =>
      intro before text w hw
      rcases hw.built_or_builds hl with ⟨a, b, hab, hrun⟩ | ⟨u, hu, hready, hrun⟩
      · have hbody := h n ih r w a b hab before text w hw.self
        exact (hbody.of_eq (hrun (n + 1) _ _)).mono
          fun _ _ hpost => ⟨hpost.1, hw.trans hpost.2⟩
      · exact (ih r w₀ l hl before text u (hw.trans hu)).of_eq (hrun (n + 1) _ _)

end Handles

end Reader.Arithmetic

end Descent
