/-
# Values that spell what was consumed

A value that is put together from strings only, by lists and tuples of any depth and with
nothing in place of what is absent, spells a text. There are parsers whose values spell
just what they have consumed: those of characters, texts and whole matches, and whatever is
made of such parsers by sequences, choices and repetitions, also through deferred rules and
references. Nothing of the text is lost in their values and nothing stands there twice,
whichever branches were given up on the way.
-/

import Descent.Proofs.Grammar.Yield
import Descent.Proofs.Scope

namespace Descent

namespace Value

mutual

/-- The strings in a value from left to right as one text, if there is nothing else in it. -/
def spelling : Value → Option Text
  | .null => some []
  | .str s => some s.toList
  | .list items => spellings items
  | .tuple items => spellings items
  | _ => none

/-- The texts of values one after another. -/
def spellings : List Value → Option Text
  | [] => some []
  | v :: vs => do return (← v.spelling) ++ (← spellings vs)

end

/-- The value spells a text. -/
def Spells (t : Text) (v : Value) : Prop :=
  v.spelling = some t

variable {t t' : Text} {v v' : Value} {vs vs' : List Value}

theorem spells_text (t : Text) : Spells t (.text t) := by
  simp [Spells, Value.text, spelling]

theorem spellings_cons (h : Spells t v) (h' : spellings vs = some t') :
    spellings (v :: vs) = some (t ++ t') := by
  have hv : v.spelling = some t := h
  simp [spellings, hv, h']

theorem spellings_append (h : spellings vs = some t) (h' : spellings vs' = some t') :
    spellings (vs ++ vs') = some (t ++ t') := by
  induction vs generalizing t with
  | nil =>
      simp only [spellings, Option.some.injEq] at h
      subst h
      exact h'
  | cons v vs ih =>
      simp only [spellings, Option.bind_eq_bind, Option.bind_eq_some_iff] at h
      obtain ⟨a, hv, b, hvs, hab⟩ := h
      cases hab
      rw [List.cons_append, List.append_assoc]
      exact spellings_cons hv (ih hvs)

end Value

namespace Parser

open Value (Spells spellings spellings_cons spellings_append spells_text)

theorem All.spellings {t : Text} {vs : List Value} (h : All Spells t vs) :
    Value.spellings vs = some t := by
  obtain ⟨items, hitems, rfl, rfl⟩ := h
  induction items with
  | nil => rfl
  | cons item items ih =>
      obtain ⟨hitem, hrest⟩ := List.forall_mem_cons.mp hitems
      exact spellings_cons hitem (ih hrest)

theorem Each.spellings {ps : List Parser} {t : Text} {vs : List Value}
    (h : Each (ps.map fun _ => Spells) t vs) : Value.spellings vs = some t := by
  induction ps generalizing t vs with
  | nil =>
      cases h
      rfl
  | cons p ps ih =>
      cases h with
      | cons hv hvs => exact spellings_cons hv (ih hvs)

/-- The parsers whose values spell what they have consumed. -/
inductive Verbatim (scope : Scope) : Parser → Prop
  | string (s : String) : Verbatim scope (.string s)
  | pattern (p : Pattern) : Verbatim scope (.pattern p 0)
  | satisfy (test : Char → Call Bool) (expected : String) : Verbatim scope (.satisfy test expected)
  | takeWhile (test : Char → Call Bool) : Verbatim scope (.takeWhile test)
  | anyChar : Verbatim scope .anyChar
  | rest : Verbatim scope .rest
  | eof : Verbatim scope .eof
  | fail (expected : String) : Verbatim scope (.fail expected)
  | label {p : Parser} (description : String) (hp : Verbatim scope p) :
      Verbatim scope (.label p description)
  | traced {p : Parser} (label : String) (hp : Verbatim scope p) :
      Verbatim scope (.traced label p)
  | orElse {p q : Parser} (hp : Verbatim scope p) (hq : Verbatim scope q) :
      Verbatim scope (.orElse p q)
  | optional {p : Parser} (hp : Verbatim scope p) : Verbatim scope p.optional
  | both {p q : Parser} (hp : Verbatim scope p) (hq : Verbatim scope q) :
      Verbatim scope (p.both q)
  | times {p : Parser} (r : Repetition) (hp : Verbatim scope p) : Verbatim scope (.times p r)
  | andMany {p : Parser} (r : Repetition) (hp : Verbatim scope p) :
      Verbatim scope (p.andMany r)
  | notFollowedBy {p : Parser} (description : Option String) (hp : Verbatim scope p) :
      Verbatim scope (.notFollowedBy p description)
  | sequence {ps : List Parser} (hps : ∀ p ∈ ps, Verbatim scope p) :
      Verbatim scope (.sequence ps)
  | choice {ps : List Parser} (hps : ∀ p ∈ ps, Verbatim scope p) : Verbatim scope (.choice ps)
  | reference {r : Nat} (h : scope.reference r) : Verbatim scope (.reference r)
  | deferred {l : Nat} (h : scope.handle l) : Verbatim scope (.deferred l)

end Parser

/-- The named parsers whose values spell what they have consumed. -/
def Named.IsVerbatim : Named → Prop
  | .crlf | .endOfLine | .position | .index => False
  | _ => True

def Atom.IsVerbatim : Atom → Prop
  | .named n => n.IsVerbatim
  | .pattern _ group _ _ => group = .number 0
  | .fail _ | .pure _ | .trace _ => False
  | _ => True

def Modifier.IsVerbatim : Modifier → Prop
  | .label _ | .many | .optional | .atMost _ | .atLeast _ | .times .. | .count _ | .many1
  | .notFollowedBy _ | .traced _ => True
  | _ => False

def Joiner.IsVerbatim : Joiner → Prop
  | .orElse | .both => True
  | _ => False

/-- The descriptions of parsers whose values spell what they have consumed. -/
def Fragment.verbatim : Fragment where
  atom := Atom.IsVerbatim
  modifier := Modifier.IsVerbatim
  joiner := Joiner.IsVerbatim
  between := False
  seqMap := False
  bind := False

namespace Parser.Verbatim

variable {scope : Scope} {p q : Parser}

theorem named {n : Named} (h : n.IsVerbatim) : n.parser.Verbatim scope := by
  cases n with
  | anyChar => exact .anyChar
  | letter => exact .label _ (.pattern _)
  | letters => exact .pattern _
  | digit => exact .label _ (.pattern _)
  | digits => exact .label _ (.pattern _)
  | whitespace => exact .label _ (.pattern _)
  | optionalWhitespace => exact .label _ (.pattern _)
  | newline => exact .label _ (.label _ (.satisfy _ _))
  | space => exact .label _ (.satisfy _ _)
  | upper => exact .label _ (.satisfy _ _)
  | lower => exact .label _ (.satisfy _ _)
  | alphaNum => exact .label _ (.satisfy _ _)
  | hexDigit => exact .label _ (.label _ (.satisfy _ _))
  | octDigit => exact .label _ (.label _ (.satisfy _ _))
  | eof => exact .eof
  | rest => exact .rest
  | _ => exact h.elim

theorem atom {bindings : Bindings} {a : Atom} (h : a.IsVerbatim)
    (hbuild : a.build bindings = .ok p) : p.Verbatim scope := by
  cases a with
  | named n =>
      cases hbuild
      exact named h
  | string s =>
      obtain ⟨v, hv⟩ := exists_of_bind_eq_ok hbuild
      rcases Atom.stringParser_eq_ok hv with ⟨text, rfl⟩ | ⟨expected, rfl⟩
      · exact .string text
      · exact .fail expected
  | char c =>
      obtain ⟨v, hv⟩ := exists_of_bind_eq_ok hbuild
      cases hv
      exact .label _ (.satisfy _ _)
  | oneOf cs =>
      obtain ⟨v, hv⟩ := exists_of_bind_eq_ok hbuild
      cases hv
      exact .label _ (.satisfy _ _)
  | noneOf cs =>
      obtain ⟨v, hv⟩ := exists_of_bind_eq_ok hbuild
      cases hv
      exact .label _ (.satisfy _ _)
  | satisfy test =>
      cases hbuild
      exact .satisfy _ _
  | takeWhile test =>
      cases hbuild
      exact .takeWhile _
  | pattern source group options compiled =>
      have selected {own : Pattern}
          (hown : (own.select group >>= fun chosen => .ok (.pattern own chosen)) = .ok p) :
          p.Verbatim scope := by
        have hgroup : group = .number 0 := h
        have hselect : own.select (.number 0) = .ok 0 := by simp [Pattern.select]
        rw [hgroup, hselect] at hown
        cases hown
        exact .pattern own
      cases compiled with
      | none =>
          obtain ⟨own, hown⟩ := exists_of_bind_eq_ok (x := Pattern.compile source options) hbuild
          exact selected hown
      | some flags =>
          obtain ⟨own, hown⟩ := exists_of_bind_eq_ok (x := Pattern.compile source flags) hbuild
          split at hown
          · exact selected hown
          · cases hown
  | _ => exact h.elim

theorem modifier {bindings : Bindings} {m : Modifier} (h : m.IsVerbatim) (hp : p.Verbatim scope)
    (hbuild : m.build bindings p = .ok q) : q.Verbatim scope := by
  cases m with
  | label description =>
      obtain ⟨text, htext⟩ := exists_of_bind_eq_ok hbuild
      cases htext
      exact .label text hp
  | many =>
      cases hbuild
      exact .times _ hp
  | optional =>
      cases hbuild
      exact .optional hp
  | atMost n =>
      obtain ⟨count, hcount⟩ := exists_of_bind_eq_ok hbuild
      obtain ⟨r, hr⟩ := exists_of_bind_eq_ok hcount
      cases hr
      exact .times r hp
  | atLeast n =>
      obtain ⟨count, hcount⟩ := exists_of_bind_eq_ok hbuild
      obtain ⟨r, hr⟩ := exists_of_bind_eq_ok hcount
      cases hr
      exact .andMany r hp
  | times least most =>
      obtain ⟨low, hlow⟩ := exists_of_bind_eq_ok hbuild
      obtain ⟨high, hhigh⟩ := exists_of_bind_eq_ok hlow
      obtain ⟨r, hr⟩ := exists_of_bind_eq_ok hhigh
      cases hr
      exact .times r hp
  | count n =>
      obtain ⟨count, hcount⟩ := exists_of_bind_eq_ok hbuild
      obtain ⟨r, hr⟩ := exists_of_bind_eq_ok hcount
      cases hr
      exact .times r hp
  | many1 =>
      cases hbuild
      exact .andMany _ hp
  | notFollowedBy description =>
      cases hbuild
      exact .notFollowedBy description hp
  | traced label =>
      cases hbuild
      exact .traced label hp
  | _ => exact h.elim

end Parser.Verbatim

/-- What descriptions of the fragment build is verbatim. -/
theorem Fragment.makes_verbatim (scope : Scope) :
    Fragment.verbatim.Makes scope (Parser.Verbatim scope) where
  atom h hbuild := .atom h hbuild
  modifier h hp hbuild := .modifier h hp hbuild
  joiner {j p q} h hp hq := by
    cases j with
    | orElse => exact .orElse hp hq
    | both => exact .both hp hq
    | _ => exact h.elim
  between h := h.elim
  sequence hps := .sequence hps
  choice hps := .choice hps
  seqMap _ h := h.elim
  bind h := h.elim
  label description hp := .label description hp
  reference h := by
    cases h with
    | reference h => exact h
  handle := by
    refine ⟨fun h => ?_, .deferred⟩
    cases h with
    | deferred h => exact h

/-- A world in which everything in the scope is verbatim. -/
abbrev World.Verbatim (scope : Scope) : World → Prop :=
  World.Confined Fragment.verbatim scope (Parser.Verbatim scope)

namespace Parser

open Value (Spells spells_text spellings_append)
open Descent.Action (Taken taken_of_failure)

variable {scope : Scope} {n : Nat} {p q : Parser} {w : World}

theorem Yields.both_spells (hp : p.Yields (World.Verbatim scope) n Spells)
    (hq : q.Yields (World.Verbatim scope) n Spells) :
    (p.both q).Yields (World.Verbatim scope) n Spells := by
  have hpair (a : Value) : (q.map fun b => .answer (.tuple [a, b])).Yields (World.Verbatim scope) n
      fun t v => ∃ b, v = .tuple [a, b] ∧ Spells t b := by
    refine hq.map World.Confined.quiet ?_
    intro t b v' hb hv'
    cases hv'
    exact ⟨b, rfl, hb⟩
  refine (hp.bind hpair).mono ?_
  rintro _ _ ⟨t, t', a, rfl, ha, b, rfl, hb⟩
  have hlast : Value.spellings [b] = some (t' ++ []) := Value.spellings_cons hb rfl
  rw [List.append_nil] at hlast
  exact Value.spellings_cons ha hlast

theorem Yields.andMany_spells (hp : p.Yields (World.Verbatim scope) n Spells) (r : Repetition) :
    (p.andMany r).Yields (World.Verbatim scope) n Spells := by
  have hback (front : Value) :
      (p.many.map fun back => .answer (.list (front.items ++ back.items))).Yields
        (World.Verbatim scope) n
        fun t v => ∃ vs, v = .list (front.items ++ vs) ∧ Value.spellings vs = some t := by
    refine hp.many.map World.Confined.quiet ?_
    rintro t _ v' ⟨vs, rfl, hvs⟩ hv'
    cases hv'
    exact ⟨vs, rfl, hvs.spellings⟩
  refine ((hp.times r).bind hback).mono ?_
  rintro _ _ ⟨t, t', _, rfl, ⟨front, rfl, hfront⟩, vs, rfl, hvs⟩
  exact spellings_append hfront.spellings hvs

/-- What a handle does, from the parsers it leads to. -/
theorem leads_perform (hdescend : ∀ q : Parser, q.Verbatim scope →
      Action.Yields (World.Verbatim scope) (q.run n) Spells) {b : Behaviour}
    (hb : b.Confined scope (Verbatim scope)) (before text : Text) (hw : w.Verbatim scope) :
    Run.Leads (fun r u => Taken before text Spells r ∧ u.Verbatim scope)
      (b.perform (run n) (before ++ text) before.length) w := by
  cases hb with
  | run hp => exact hdescend _ hp before text w hw
  | unbound r =>
      obtain ⟨events, hend⟩ := Behaviour.perform_unbound r (before ++ text) before.length w
      intro reply u hu
      cases (hend _).symm.trans hu
      exact ⟨taken_of_failure rfl, World.Confined.quiet w events hw⟩
  | @dispatch r hr =>
      have hentered : Run.Leads (fun target u => (∀ q ∈ target, Verbatim scope q) ∧
          u.Verbatim scope) (Run.enterReference r) w := by
        intro target u hend
        have hmarked := hw.markDispatched r
        cases hend
        refine ⟨fun q hq => ?_, hmarked⟩
        obtain ⟨c, hc, htarget⟩ := Option.bind_eq_some_iff.mp hq
        exact hmarked.targets r c q hr hc htarget
      refine hentered.bind ?_
      rintro (_ | target) u ⟨htarget, hu⟩
      · exact .fault
      · exact hdescend target (htarget target rfl) before text u hu
  | @build l hl =>
      have hbuilt : Run.Leads (fun _ u => u.Verbatim scope) (Behaviour.buildRule l) w :=
        (hw.buildRule (Fragment.makes_verbatim scope) hl).1
      exact hbuilt.bind fun _ u hu => hdescend (.deferred l) (.deferred hl) before text u hu

/-- Runs with one more step of budget, from those that handles lead to. -/
theorem Verbatim.yields_of (hdescend : ∀ q : Parser, q.Verbatim scope →
      Action.Yields (World.Verbatim scope) (q.run n) Spells) (hp : p.Verbatim scope) :
    p.Yields (World.Verbatim scope) n Spells := by
  have hquiet : World.Quiet (World.Verbatim scope) := World.Confined.quiet
  have nothing {t : Text} {v : Value} (h : t = [] ∧ v = .null) : Spells t v := by
    rw [h.1, h.2]
    rfl
  have follow (p : Parser) (hp : p.Verbatim scope) (before text : Text) (w : World)
      (hw : w.Verbatim scope) :=
    leads_perform hdescend (hw.behaviour (Fragment.makes_verbatim scope) hp) before text hw
  induction hp with
  | string s =>
      refine (yields_string s).mono ?_
      rintro _ _ ⟨rfl, rfl⟩
      rfl
  | pattern p =>
      refine (yields_pattern p).mono ?_
      rintro t _ ⟨-, rfl⟩
      exact spells_text t
  | satisfy test expected =>
      refine (yields_satisfy hquiet test expected).mono ?_
      rintro _ _ ⟨c, -, rfl, rfl⟩
      exact spells_text [c]
  | takeWhile test => exact (yields_takeWhile hquiet test).mono fun t _ hv => hv ▸ spells_text t
  | anyChar => exact yields_anyChar.mono fun t _ hv => hv ▸ spells_text t
  | rest => exact yields_rest.mono fun t _ hv => hv ▸ spells_text t
  | eof => exact yields_eof.mono fun _ _ => nothing
  | fail expected => exact yields_fail expected
  | label description _ ih => exact ih.label description
  | traced label _ ih => exact ih.traced hquiet label
  | orElse _ _ ihp ihq => exact ihp.orElse ihq
  | optional _ ih => exact ih.orElse ((yields_pure .null).mono fun _ _ => nothing)
  | both _ _ ihp ihq => exact ihp.both_spells ihq
  | times r _ ih =>
      refine (ih.times r).mono ?_
      rintro t _ ⟨vs, rfl, hvs⟩
      exact hvs.spellings
  | andMany r _ ih => exact ih.andMany_spells r
  | notFollowedBy description _ ih => exact (ih.notFollowedBy description).mono fun _ _ => nothing
  | @sequence ps _ ih =>
      have hrow : List.Forall₂ (Yields (World.Verbatim scope) n) ps (ps.map fun _ => Spells) := by
        rw [List.forall₂_map_right_iff, List.forall₂_same]
        exact ih
      refine (yields_sequence hrow).mono ?_
      rintro t _ ⟨vs, rfl, hvs⟩
      exact hvs.spellings
  | choice _ ih => exact yields_choice ih
  | reference h => exact follow _ (.reference h)
  | deferred h => exact follow _ (.deferred h)

/-- Whatever a verbatim parser has consumed is spelled by its value. -/
theorem Verbatim.yields (n : Nat) (hp : p.Verbatim scope) :
    Action.Yields (World.Verbatim scope) (p.run n) Spells := by
  induction n generalizing p with
  | zero => exact fun _ _ _ _ => .unfinished
  | succ n ih => exact hp.yields_of fun q hq => ih hq

end Parser

namespace Session

variable {scope : Scope} {w : World}

/-- Consumed text is neither lost nor duplicated. If a verbatim description is called inside
an input, in a world in which everything that it may lead to is verbatim as well, and
succeeds, then its value spells the stretch of the input up to the offset where it stops. -/
theorem consumed_text_spelled (scope : Scope) (w : World) (d : Description) (s : Text) (i : Int)
    (budget : Nat) (r : Reply) (hw : w.Verbatim scope) (hd : d.Written .verbatim scope)
    (hi : 0 ≤ i) (hlen : i ≤ s.length)
    (hend : (observe w (Step.perform budget (.call d s i))).1.result = .ok (.reply r))
    (hok : r.status = true) : r.value.spelling = some (s.slice i r.index) := by
  have hcleared : w.cleared.Verbatim scope := hw.congr rfl rfl rfl rfl
  obtain ⟨p, v, u, hbuild, hrun⟩ := exists_run_of_call hend
  obtain ⟨hp, hv⟩ := (hcleared.build (Fragment.makes_verbatim scope) hd []).1 p v hbuild
  have hsplit : s.take i.toNat ++ s.drop i.toNat = s := List.take_append_drop ..
  have hstart : ((s.take i.toNat).length : Int) = i := by
    rw [List.length_take]
    omega
  have hyields := hp.yields budget (s.take i.toNat) (s.drop i.toNat) v hv
  rw [hsplit, hstart] at hyields
  obtain ⟨t, rest, value, htext, hread, hspells⟩ := (hyields r u hrun).1 hok
  have hslice := Action.slice_append (s.take i.toNat) (s.drop i.toNat) t.length
  rw [hsplit, htext, List.take_left, hstart] at hslice
  rw [hread.value, hread.index, Int.natCast_add, hstart, hslice]
  exact hspells

/-- Nested brackets by a rule that contains itself, and a reference to brackets with an
optional mark behind them. -/
def nestSteps : List Step :=
  [.rule "nest" (.join .orElse (.sequence [.atom (.string (.value (.str "("))),
      .deferred "nest" none, .atom (.string (.value (.str ")")))])
      (.wrap .many1 (.atom (.named .letter)))),
    .reference "marked", .bindReference "marked" (.join .both (.deferred "nest" none)
      (.wrap .optional (.atom (.char (.value (.str ";"))))))]

theorem nestSteps_written : ∀ step ∈ nestSteps, step.Written .verbatim := by
  simp [nestSteps, Step.Written, Description.Written, Description.sequence, Fragment.verbatim,
    Atom.IsVerbatim, Modifier.IsVerbatim, Joiner.IsVerbatim, Named.IsVerbatim,
    Fin.forall_fin_succ, Scope.all]

/-- A repetition of marked brackets that starts inside the input. -/
theorem consumed_text_spelled_of_nest :
    ∃ w r, Leads {} nestSteps w ∧
      (observe w (Step.perform 12 (.call (.wrap .many (.known "marked"))
        ['-', '(', 'a', 'b', ')', ';', 'c'] 1))).1.result = .ok (.reply r) ∧
      r.status = true ∧ r.index = 7 ∧
      r.value.spelling = some ['(', 'a', 'b', ')', ';', 'c'] := by
  obtain ⟨w, hleads, hstops⟩ : ∃ w, Leads {} nestSteps w ∧
      (((observe w (Step.perform 12 (.call (.wrap .many (.known "marked"))
        ['-', '(', 'a', 'b', ')', ';', 'c'] 1))).1.result.toOption.bind Answer.reply?).map
          fun r => (r.status, r.index)) = some (true, 7) :=
    ⟨_, .cons 0 (by decide +kernel) (.cons 0 (by decide +kernel)
      (.cons 0 (by decide +kernel) (.nil _))), by decide +kernel⟩
  have hworld := hleads.confined (Fragment.makes_verbatim .all) (fun _ => .reference trivial)
    nestSteps_written .empty
  obtain ⟨r, hr, hpair⟩ := Option.map_eq_some_iff.mp hstops
  obtain ⟨hstatus, hindex⟩ := Prod.mk.inj hpair
  have hend := Report.result_eq_of_reply? hr
  have hspells := consumed_text_spelled .all w _ _ 1 12 r hworld
    (by simp [Description.Written, Fragment.verbatim, Modifier.IsVerbatim, Scope.all])
    (by decide) (by decide) hend hstatus
  rw [hindex] at hspells
  exact ⟨w, r, hleads, hend, hstatus, hindex, hspells⟩

end Session

end Descent
