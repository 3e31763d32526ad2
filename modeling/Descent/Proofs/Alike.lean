/-
# Parsers that do alike

Parsers are compared part by part, down to parts that are known to do alike. All
that is left of a comparison of parsers is then what it says about those parts:
primitives, and the handles and descriptions that lead out of the tree.
-/

import Descent.Parser.Run
import Descent.Proofs.Likeness

namespace Descent

open Filter

namespace Parser

/-- A parser that has no parts and leads to no other parser. -/
inductive Primitive : Parser → Prop
  | string (s : String) : Primitive (.string s)
  | pattern (p : Pattern) (group : Nat) : Primitive (.pattern p group)
  | satisfy (test : Char → Call Bool) (expected : String) : Primitive (.satisfy test expected)
  | takeWhile (test : Char → Call Bool) : Primitive (.takeWhile test)
  | anyChar : Primitive .anyChar
  | pure (v : Value) : Primitive (.pure v)
  | fail (expected : String) : Primitive (.fail expected)
  | eof : Primitive .eof
  | position : Primitive .position
  | index : Primitive .index
  | rest : Primitive .rest
  | trace (label : String) : Primitive (.trace label)

/-- A parser that stands for one kept elsewhere. -/
def IsHandle : Parser → Prop
  | .reference _ | .deferred _ => True
  | _ => False

/-- The parts of two parsers are, one by one, related by `base` or of the same kind
with related parts. -/
inductive Alike (base : Parser → Parser → Prop) : Parser → Parser → Prop
  | base {p p' : Parser} (h : base p p') : Alike base p p'
  | bind {p p' : Parser} {f f' : Value → Parser} (hp : Alike base p p')
      (hf : ∀ v, Alike base (f v) (f' v)) : Alike base (.bind p f) (.bind p' f')
  | map {p p' : Parser} (f : Value → Call Value) (hp : Alike base p p') :
      Alike base (.map p f) (.map p' f)
  | andThen {p p' q q' : Parser} (hp : Alike base p p') (hq : Alike base q q') :
      Alike base (.andThen p q) (.andThen p' q')
  | skip {p p' q q' : Parser} (hp : Alike base p p') (hq : Alike base q q') :
      Alike base (.skip p q) (.skip p' q')
  | orElse {p p' q q' : Parser} (hp : Alike base p p') (hq : Alike base q q') :
      Alike base (.orElse p q) (.orElse p' q')
  | times {p p' : Parser} (r : Repetition) (hp : Alike base p p') :
      Alike base (.times p r) (.times p' r)
  | label {p p' : Parser} (description : String) (hp : Alike base p p') :
      Alike base (.label p description) (.label p' description)
  | withDefault {p p' : Parser} (call : Call Value) (hp : Alike base p p') :
      Alike base (.withDefault p call) (.withDefault p' call)
  | seq {n : Nat} {ps ps' : Fin n → Parser} (h : ∀ k, Alike base (ps k) (ps' k)) :
      Alike base (.seq n ps) (.seq n ps')
  | alt {n : Nat} {ps ps' : Fin n → Parser} (h : ∀ k, Alike base (ps k) (ps' k)) :
      Alike base (.alt n ps) (.alt n ps')
  | lookAhead {p p' : Parser} (hp : Alike base p p') :
      Alike base (.lookAhead p) (.lookAhead p')
  | notFollowedBy {p p' : Parser} (description : Option String) (hp : Alike base p p') :
      Alike base (.notFollowedBy p description) (.notFollowedBy p' description)
  | manyTill {p p' q q' : Parser} (hp : Alike base p p') (hq : Alike base q q') :
      Alike base (.manyTill p q) (.manyTill p' q')
  | traced {p p' : Parser} (text : String) (hp : Alike base p p') :
      Alike base (.traced text p) (.traced text p')

/-- A part that is no combinator, and the same part. -/
inductive Outlet : Parser → Parser → Prop
  | primitive {p : Parser} (h : p.Primitive) : Outlet p p
  | built (d : Description) (bindings : Bindings) : Outlet (.built d bindings) (.built d bindings)
  | handle {p : Parser} (h : p.IsHandle) : Outlet p p

/-- Every parser is made of such parts. -/
theorem alike_self (p : Parser) : p.Alike Outlet p := by
  induction p with
  | string t => exact .base (.primitive (.string t))
  | pattern p group => exact .base (.primitive (.pattern p group))
  | satisfy test expected => exact .base (.primitive (.satisfy test expected))
  | takeWhile test => exact .base (.primitive (.takeWhile test))
  | anyChar => exact .base (.primitive .anyChar)
  | pure v => exact .base (.primitive (.pure v))
  | fail expected => exact .base (.primitive (.fail expected))
  | eof => exact .base (.primitive .eof)
  | position => exact .base (.primitive .position)
  | index => exact .base (.primitive .index)
  | rest => exact .base (.primitive .rest)
  | trace text => exact .base (.primitive (.trace text))
  | bind p f ihp ihf => exact .bind ihp ihf
  | built d bindings => exact .base (.built d bindings)
  | map p f ihp => exact .map f ihp
  | andThen p q ihp ihq => exact .andThen ihp ihq
  | skip p q ihp ihq => exact .skip ihp ihq
  | orElse p q ihp ihq => exact .orElse ihp ihq
  | times p r ihp => exact .times r ihp
  | label p description ihp => exact .label description ihp
  | withDefault p call ihp => exact .withDefault call ihp
  | seq n ps ih => exact .seq ih
  | alt n ps ih => exact .alt ih
  | lookAhead p ihp => exact .lookAhead ihp
  | notFollowedBy p description ihp => exact .notFollowedBy description ihp
  | manyTill p stop ihp ihstop => exact .manyTill ihp ihstop
  | traced text p ihp => exact .traced text ihp
  | reference r => exact .base (.handle trivial)
  | deferred l => exact .base (.handle trivial)

/-- What a primitive does depends on no other parser. It is a blind step, but for traces. -/
theorem Primitive.exists_action_eq {p : Parser} (h : p.Primitive) :
    ∃ act : Action, (∀ descend turns, p.action (fun _ act => act) descend turns = act) ∧
      (∃ expected, Action.Primitive expected act) ∧
      ((∃ label, p = .trace label ∧ act = .trace label) ∨ ∀ s i, (act s i).Blind) := by
  cases h with
  | string t =>
      exact ⟨_, fun _ _ => rfl, ⟨_, Action.primitive_string t⟩, .inr (Action.blind_string t)⟩
  | pattern p group =>
      exact ⟨_, fun _ _ => rfl, ⟨_, Action.primitive_pattern p group⟩,
        .inr (Action.blind_pattern p group)⟩
  | satisfy test expected =>
      exact ⟨_, fun _ _ => rfl, ⟨_, Action.primitive_satisfy test expected⟩,
        .inr (Action.blind_satisfy test expected)⟩
  | takeWhile test =>
      exact ⟨_, fun _ _ => rfl, ⟨"", Action.primitive_takeWhile test ""⟩,
        .inr (Action.blind_takeWhile test)⟩
  | anyChar =>
      exact ⟨_, fun _ _ => rfl, ⟨_, Action.primitive_anyChar⟩, .inr Action.blind_anyChar⟩
  | pure v =>
      exact ⟨_, fun _ _ => rfl, ⟨"", Action.primitive_succeed v ""⟩, .inr fun _ _ => .pure _⟩
  | fail expected =>
      exact ⟨_, fun _ _ => rfl, ⟨_, Action.primitive_fail expected⟩, .inr fun _ _ => .pure _⟩
  | eof => exact ⟨_, fun _ _ => rfl, ⟨_, Action.primitive_eof⟩, .inr fun _ _ => .pure _⟩
  | position =>
      exact ⟨_, fun _ _ => rfl, ⟨"", Action.primitive_position ""⟩, .inr Action.blind_position⟩
  | index =>
      exact ⟨_, fun _ _ => rfl, ⟨"", Action.primitive_index ""⟩, .inr fun _ _ => .pure _⟩
  | rest =>
      exact ⟨_, fun _ _ => rfl, ⟨"", Action.primitive_rest ""⟩, .inr fun _ _ => .pure _⟩
  | trace label =>
      exact ⟨_, fun _ _ => rfl, ⟨"", Action.primitive_trace label ""⟩, .inl ⟨label, rfl, rfl⟩⟩

theorem Primitive.exists_plain_eq {p : Parser} (h : p.Primitive) :
    ∃ act : Action, (∀ descend turns, p.action (fun _ act => act) descend turns = act) ∧
      ∀ s i, (act s i).Plain := by
  obtain ⟨act, haction, -, ⟨label, -, rfl⟩ | hblind⟩ := h.exists_action_eq
  · exact ⟨_, haction, Action.plain_trace label⟩
  · exact ⟨act, haction, fun s i => (hblind s i).plain⟩

end Parser

namespace Comparison

variable {c : Comparison} {s : Text} {w w' : World}

/-- A primitive does the same in corresponding worlds. -/
theorem acts_primitive (hc : c.Accompanies) {L : Likeness s s} (hL : L.Fixed) {p : Parser}
    (hp : p.Primitive) (descend : Parser → Action) (descend' : Nat → Parser → Action)
    (turns : Nat) :
    c.Acts L (p.action (fun _ act => act) descend turns)
      (fun n => p.action (fun _ act => act) (descend' n) n) w w' := by
  obtain ⟨act, haction, hplain⟩ := hp.exists_plain_eq
  intro v v' i i' hreach hi
  cases hL.offsets_eq hi
  simp only [haction]
  refine (hc.plain (hplain s i) hreach.related).weaken (fun _ _ h => h) (fun _ _ h => h) ?_
  rintro _ _ r _ rfl
  exact hL.replies_refl r

/-- Parsers that are alike do alike, provided that this is so for the parts that are
related as such. -/
theorem acts_action (hc : c.Accompanies) {base : Parser → Parser → Prop}
    {descend : Parser → Action} {descend' : Nat → Parser → Action} {turns : Nat}
    (hbase : ∀ p p', base p p' → c.Acts (.same s) (p.action (fun _ act => act) descend turns)
      (fun n => p'.action (fun _ act => act) (descend' n) n) w w')
    {p p' : Parser} (h : p.Alike base p') :
    c.Acts (.same s) (p.action (fun _ act => act) descend turns)
      (fun n => p'.action (fun _ act => act) (descend' n) n) w w' := by
  have hidle : c.IdleTurns (.same s) := fun hi => by
    cases hi
    exact ⟨hc.same_fault _, hc.same_fault _⟩
  induction h with
  | base h => exact hbase _ _ h
  | bind _ _ ihp ihf => exact ihp.bind ihf
  | map f _ ihp => exact ihp.map fun v => hc.ofCall (f v)
  | andThen _ _ ihp ihq => exact ihp.andThen ihq
  | skip _ _ ihp ihq => exact ihp.skip ihq
  | orElse _ _ ihp ihq => exact ihp.orElse ihq
  | times r _ ihp => exact ihp.times hidle turns r
  | label description _ ihp => exact ihp.label description
  | withDefault call _ ihp => exact ihp.withDefault (hc.ofCall call)
  | seq _ ih => exact .seq ih
  | alt _ ih => exact .alt ih
  | lookAhead _ ihp => exact ihp.lookAhead
  | notFollowedBy description _ ihp => exact ihp.notFollowedBy description
  | manyTill _ _ ihp ihq => exact ihp.manyTill hidle turns ihq
  | traced text _ ihp => exact ihp.traced hc (.same s) text

end Comparison

end Descent
