/-
# Building in two worlds

A description that is built in two worlds gives parsers that are alike, or it ends
in the same fault. The two parsers need not be equal, since every deferred rule of
the description becomes a new handle in each world.
-/

import Descent.Description.Build
import Descent.Proofs.Alike

namespace Descent

namespace Parser.Alike

variable {base base' : Parser → Parser → Prop} {p p' q q' : Parser}

theorem mono (h : p.Alike base p') (hbase : ∀ q q', base q q' → base' q q') :
    p.Alike base' p' := by
  induction h with
  | base h => exact .base (hbase _ _ h)
  | bind _ _ ihp ihf => exact .bind ihp ihf
  | map f _ ihp => exact .map f ihp
  | andThen _ _ ihp ihq => exact .andThen ihp ihq
  | skip _ _ ihp ihq => exact .skip ihp ihq
  | orElse _ _ ihp ihq => exact .orElse ihp ihq
  | times r _ ihp => exact .times r ihp
  | label description _ ihp => exact .label description ihp
  | withDefault call _ ihp => exact .withDefault call ihp
  | seq _ ih => exact .seq ih
  | alt _ ih => exact .alt ih
  | lookAhead _ ihp => exact .lookAhead ihp
  | notFollowedBy description _ ihp => exact .notFollowedBy description ihp
  | manyTill _ _ ihp ihq => exact .manyTill ihp ihq
  | traced text _ ihp => exact .traced text ihp

theorem symm (h : p.Alike base p') (hbase : ∀ q q', base q q' → base' q' q) :
    p'.Alike base' p := by
  induction h with
  | base h => exact .base (hbase _ _ h)
  | bind _ _ ihp ihf => exact .bind ihp ihf
  | map f _ ihp => exact .map f ihp
  | andThen _ _ ihp ihq => exact .andThen ihp ihq
  | skip _ _ ihp ihq => exact .skip ihp ihq
  | orElse _ _ ihp ihq => exact .orElse ihp ihq
  | times r _ ihp => exact .times r ihp
  | label description _ ihp => exact .label description ihp
  | withDefault call _ ihp => exact .withDefault call ihp
  | seq _ ih => exact .seq ih
  | alt _ ih => exact .alt ih
  | lookAhead _ ihp => exact .lookAhead ihp
  | notFollowedBy description _ ihp => exact .notFollowedBy description ihp
  | manyTill _ _ ihp ihq => exact .manyTill ihp ihq
  | traced text _ ihp => exact .traced text ihp

/-- Parsers that are alike down to equal parts are equal. -/
theorem eq (h : p.Alike Eq p') : p = p' := by
  induction h with
  | base h => exact h
  | bind _ _ ihp ihf => rw [ihp, funext ihf]
  | map f _ ihp => rw [ihp]
  | andThen _ _ ihp ihq => rw [ihp, ihq]
  | skip _ _ ihp ihq => rw [ihp, ihq]
  | orElse _ _ ihp ihq => rw [ihp, ihq]
  | times r _ ihp => rw [ihp]
  | label description _ ihp => rw [ihp]
  | withDefault call _ ihp => rw [ihp]
  | seq _ ih => rw [funext ih]
  | alt _ ih => rw [funext ih]
  | lookAhead _ ihp => rw [ihp]
  | notFollowedBy description _ ihp => rw [ihp]
  | manyTill _ _ ihp ihq => rw [ihp, ihq]
  | traced text _ ihp => rw [ihp]

theorem sequence {ps ps' : List Parser} (h : List.Forall₂ (Alike base) ps ps') :
    (Parser.sequence ps).Alike base (Parser.sequence ps') := by
  obtain ⟨hlength, hget⟩ := List.forall₂_iff_get.mp h
  have hcast {n n' : Nat} (hn : n = n') (f : Fin n → Parser) (f' : Fin n' → Parser)
      (hf : ∀ k, (f k).Alike base (f' (k.cast hn))) : (Parser.seq n f).Alike base (.seq n' f') := by
    subst hn
    exact .seq hf
  exact hcast hlength _ _ fun k => hget k.1 k.2 (hlength ▸ k.2)

theorem choice {ps ps' : List Parser} (h : List.Forall₂ (Alike base) ps ps') :
    (Parser.choice ps).Alike base (Parser.choice ps') := by
  obtain ⟨hlength, hget⟩ := List.forall₂_iff_get.mp h
  have hcast {n n' : Nat} (hn : n = n') (f : Fin n → Parser) (f' : Fin n' → Parser)
      (hf : ∀ k, (f k).Alike base (f' (k.cast hn))) : (Parser.alt n f).Alike base (.alt n' f') := by
    subst hn
    exact .alt hf
  exact hcast hlength _ _ fun k => hget k.1 k.2 (hlength ▸ k.2)

theorem result (v : Value) (hp : p.Alike base p') : (p.result v).Alike base (p'.result v) :=
  .map _ hp

theorem many (hp : p.Alike base p') : p.many.Alike base p'.many :=
  .times _ hp

theorem andMany (r : Repetition) (hp : p.Alike base p') :
    (p.andMany r).Alike base (p'.andMany r) :=
  .bind (.times r hp) fun _ => .map _ hp.many

theorem sepBy1 (hp : p.Alike base p') (hq : q.Alike base q') :
    (p.sepBy1 q).Alike base (p'.sepBy1 q') :=
  .bind hp fun _ => .map _ (hq.andThen hp).many

theorem ap (hp : p.Alike base p') (hq : q.Alike base q') : (p.ap q).Alike base (p'.ap q') :=
  .bind hp fun _ => .map _ hq

theorem both (hp : p.Alike base p') (hq : q.Alike base q') :
    (p.both q).Alike base (p'.both q') :=
  .bind hp fun _ => .map _ hq

theorem between {r r' : Parser} (hp : p.Alike base p') (hq : q.Alike base q')
    (hr : r.Alike base r') : (Parser.between p q r).Alike base (.between p' q' r') :=
  .skip (.andThen hp hr) hq

theorem seqMap {ps ps' : List Parser} (f : List Value → Call Value)
    (h : List.Forall₂ (Alike base) ps ps') :
    (Parser.seqMap ps f).Alike base (Parser.seqMap ps' f) :=
  .map _ (.sequence h)

theorem chain (fold : Value → List Value → Call Value) (hp : p.Alike base p')
    (hq : q.Alike base q') : (Parser.chain fold p q).Alike base (Parser.chain fold p' q') :=
  .seqMap _ (.cons hp (.cons (sequence (.cons hq (.cons hp .nil))).many .nil))

variable (hbase : ∀ {p : Parser}, p.Primitive → base p p)

include hbase

theorem option (v : Value) (hp : p.Alike base p') : (p.option v).Alike base (p'.option v) :=
  .orElse hp (.base (hbase (.pure v)))

theorem mark (hp : p.Alike base p') : p.mark.Alike base p'.mark :=
  .bind (.base (hbase .position)) fun _ => .bind hp fun _ => .map _ (.base (hbase .position))

/-- What a name stands for has no other parts than primitives. -/
theorem named (n : Named) : n.parser.Alike base n.parser := by
  have prim {p : Parser} (hp : p.Primitive) : p.Alike base p := .base (hbase hp)
  cases n with
  | anyChar => exact prim .anyChar
  | letter => exact .label _ (prim (.pattern _ _))
  | letters => exact prim (.pattern _ _)
  | digit => exact .label _ (prim (.pattern _ _))
  | digits => exact .label _ (prim (.pattern _ _))
  | whitespace => exact .label _ (prim (.pattern _ _))
  | optionalWhitespace => exact .label _ (prim (.pattern _ _))
  | newline => exact .label _ (.label _ (prim (.satisfy _ _)))
  | crlf => exact .label _ (.result _ (prim (.string _)))
  | endOfLine =>
      exact .label _ (.orElse (.label _ (.label _ (prim (.satisfy _ _))))
        (.label _ (.result _ (prim (.string _)))))
  | space => exact .label _ (prim (.satisfy _ _))
  | upper => exact .label _ (prim (.satisfy _ _))
  | lower => exact .label _ (prim (.satisfy _ _))
  | alphaNum => exact .label _ (prim (.satisfy _ _))
  | hexDigit => exact .label _ (.label _ (prim (.satisfy _ _)))
  | octDigit => exact .label _ (.label _ (prim (.satisfy _ _)))
  | eof => exact prim .eof
  | position => exact prim .position
  | index => exact prim .index
  | rest => exact prim .rest

/-- What a joiner makes of parsers that are alike is alike. -/
theorem joiner (j : Joiner) (hp : p.Alike base p') (hq : q.Alike base q') :
    (j.build p q).Alike base (j.build p' q') := by
  cases j with
  | andThen => exact .andThen hp hq
  | skip => exact .skip hp hq
  | orElse => exact .orElse hp hq
  | both => exact .both hp hq
  | ap => exact .ap hp hq
  | sepBy => exact .option hbase _ (.sepBy1 hp hq)
  | sepBy1 => exact .sepBy1 hp hq
  | endBy => exact (hp.skip hq).many
  | chainLeft => exact .chain _ hp hq
  | chainRight => exact .chain _ hp hq
  | manyTill => exact .manyTill hp hq

end Parser.Alike

/-- Two constructions end alike: with the same fault, or with parsers that are alike. -/
inductive BuiltAlike (base : Parser → Parser → Prop) :
    Except Fault Parser → Except Fault Parser → Prop
  | error (f : Fault) : BuiltAlike base (.error f) (.error f)
  | ok {p p' : Parser} (h : p.Alike base p') : BuiltAlike base (.ok p) (.ok p')

namespace BuiltAlike

variable {base : Parser → Parser → Prop} {p p' : Parser}

/-- What goes before and does not depend on the parsers may be left out. -/
theorem bind {α : Type} (x : Except Fault α) {f f' : α → Except Fault Parser}
    (h : ∀ a, BuiltAlike base (f a) (f' a)) : BuiltAlike base (x >>= f) (x >>= f') := by
  cases x with
  | error fault => exact .error fault
  | ok a => exact h a

variable (hbase : ∀ {p : Parser}, p.Primitive → base p p)

include hbase

theorem atom (bindings : Bindings) (a : Atom) :
    BuiltAlike base (a.build bindings) (a.build bindings) := by
  have prim {p : Parser} (hp : p.Primitive) : p.Alike base p := .base (hbase hp)
  cases a with
  | named n => exact .ok (.named hbase n)
  | string t =>
      refine .bind _ fun v => ?_
      unfold Atom.stringParser
      split
      · exact .ok (prim (.string _))
      · exact .ok (prim (.fail _))
      · exact .ok (prim (.fail _))
      · exact .ok (prim (.fail _))
      · exact .error _
  | char v => exact .bind _ fun v => .ok (.label _ (prim (.satisfy _ _)))
  | oneOf vs => exact .bind _ fun v => .ok (.label _ (prim (.satisfy _ _)))
  | noneOf vs => exact .bind _ fun v => .ok (.label _ (prim (.satisfy _ _)))
  | fail expected => exact .bind _ fun v => .ok (prim (.fail _))
  | pure v => exact .bind _ fun v => .ok (prim (.pure _))
  | trace label => exact .bind _ fun v => .ok (prim (.trace _))
  | satisfy test => exact .ok (prim (.satisfy _ _))
  | takeWhile test => exact .ok (prim (.takeWhile _))
  | pattern source group options compiled =>
      have selected (p : Pattern) :
          BuiltAlike base (p.select group >>= fun chosen => .ok (.pattern p chosen))
            (p.select group >>= fun chosen => .ok (.pattern p chosen)) :=
        .bind _ fun chosen => .ok (prim (.pattern p chosen))
      cases compiled with
      | none => exact .bind _ selected
      | some own =>
          refine .bind (Pattern.compile source own) fun p => ?_
          split
          · exact selected p
          · exact .error _

/-- What a modifier makes of parsers that are alike is alike. -/
theorem modifier (bindings : Bindings) (m : Modifier) (hp : p.Alike base p') :
    BuiltAlike base (m.build bindings p) (m.build bindings p') := by
  cases m with
  | map f => exact .ok (.map _ hp)
  | result v => exact .bind _ fun v => .ok (hp.result v)
  | label description => exact .bind _ fun text => .ok (.label text hp)
  | many => exact .ok hp.many
  | mark => exact .ok (.mark hbase hp)
  | optional => exact .ok (.option hbase _ hp)
  | atMost n => exact .bind _ fun n => .bind _ fun r => .ok (.times r hp)
  | atLeast n => exact .bind _ fun n => .bind _ fun r => .ok (hp.andMany r)
  | times least most =>
      exact .bind _ fun n => .bind _ fun n' => .bind _ fun r => .ok (.times r hp)
  | count n => exact .bind _ fun n => .bind _ fun r => .ok (.times r hp)
  | option v => exact .bind _ fun v => .ok (.option hbase v hp)
  | withDefault d =>
      cases d with
      | value v => exact .bind _ fun v => .ok (.withDefault _ hp)
      | call f => exact .ok (.withDefault _ hp)
  | many1 => exact .ok (hp.andMany _)
  | skipMany => exact .ok (hp.many.result _)
  | lookAhead => exact .ok (.lookAhead hp)
  | notFollowedBy description => exact .ok (.notFollowedBy _ hp)
  | traced text => exact .ok (.traced text hp)

end BuiltAlike

namespace Comparison

variable {c : Comparison} {w w' v v' : World}

/-- What a comparison must say of parts so that building keeps to it: primitives are
related to themselves, and what is related stays so in later worlds. -/
structure Constructs (c : Comparison) (base : World → World → Parser → Parser → Prop) : Prop where
  later : ∀ {w w' v v' p p'}, c.later w v → c.later w' v' → base w w' p p' → base v v' p p'
  primitive : ∀ {w w' p}, p.Primitive → base w w' p p
  same_fault : ∀ f, c.faults f f

/-- Two descriptions, built in corresponding worlds, give parsers that are alike, or end
in the same fault. -/
def BuildsAlike (c : Comparison) (base : World → World → Parser → Parser → Prop)
    (bindings : Bindings) (d d' : Description) : Prop :=
  ∀ w w', c.related w w' →
    c.Follows (fun v v' => Parser.Alike (base v v')) (d.build bindings)
      (fun _ => d'.build bindings) w w'

namespace Constructs

variable {base : World → World → Parser → Parser → Prop} (hb : c.Constructs base)
  {bindings : Bindings} {d d' e e' : Description}

include hb

theorem after {p p' : Parser} (hreach : c.Reaches w w' v v') (h : p.Alike (base w w') p') :
    p.Alike (base v v') p' :=
  h.mono fun _ _ => hb.later hreach.left hreach.right

/-- A construction that needs no world. -/
theorem ofExcept {x x' : Except Fault Parser} (hrelated : c.related w w')
    (h : BuiltAlike (base w w') x x') :
    c.Follows (fun v v' => Parser.Alike (base v v')) (Run.ofExcept x)
      (fun _ => Run.ofExcept x') w w' := by
  cases h with
  | error f => exact .fault hrelated (hb.same_fault f)
  | ok h => exact .pure hrelated h

/-- Constructions in order, one by one. -/
theorem inOrder {ds ds' : List Description} (h : List.Forall₂ (c.BuildsAlike base bindings) ds ds')
    (hrelated : c.related w w') :
    c.Follows (fun v v' => List.Forall₂ (Parser.Alike (base v v')))
      (Description.inOrder (ds.map (·.build bindings)))
      (fun _ => Description.inOrder (ds'.map (·.build bindings))) w w' := by
  induction h generalizing w w' with
  | nil => exact .pure hrelated .nil
  | cons hd _ ih =>
      apply (hd w w' hrelated).bind
      intro v v' p p' hreach hp
      apply (ih hreach.related).bind
      intro u u' ps ps' hreach' hps
      exact .pure hreach'.related (.cons (hb.after hreach' hp) hps)

theorem inOrder_ofFn {n : Nat} {ds ds' : Fin n → Description}
    (h : ∀ k, c.BuildsAlike base bindings (ds k) (ds' k)) (hrelated : c.related w w') :
    c.Follows (fun v v' => List.Forall₂ (Parser.Alike (base v v')))
      (Description.inOrder (List.ofFn fun k => (ds k).build bindings))
      (fun _ => Description.inOrder (List.ofFn fun k => (ds' k).build bindings)) w w' := by
  have hrow : List.Forall₂ (c.BuildsAlike base bindings) (List.ofFn ds) (List.ofFn ds') :=
    List.forall₂_iff_get.mpr ⟨by simp, fun k _ _ => by simpa using h _⟩
  have horder := hb.inOrder hrow hrelated
  simp only [List.map_ofFn] at horder
  exact horder

theorem atom (bindings : Bindings) (a : Atom) :
    c.BuildsAlike base bindings (.atom a) (.atom a) :=
  fun _ _ hrelated => hb.ofExcept hrelated (.atom hb.primitive bindings a)

theorem wrap (m : Modifier) (hd : c.BuildsAlike base bindings d d') :
    c.BuildsAlike base bindings (.wrap m d) (.wrap m d') := by
  intro w w' hrelated
  apply (hd w w' hrelated).bind
  intro v v' p p' hreach hp
  exact hb.ofExcept hreach.related (.modifier hb.primitive bindings m hp)

theorem join (j : Joiner) (hd : c.BuildsAlike base bindings d d')
    (he : c.BuildsAlike base bindings e e') :
    c.BuildsAlike base bindings (.join j d e) (.join j d' e') := by
  intro w w' hrelated
  apply (hd w w' hrelated).bind
  intro v v' p p' hreach hp
  apply (he v v' hreach.related).bind
  intro u u' q q' hreach' hq
  exact .pure hreach'.related (.joiner hb.primitive j (hb.after hreach' hp) hq)

theorem between {g g' : Description} (hd : c.BuildsAlike base bindings d d')
    (he : c.BuildsAlike base bindings e e') (hg : c.BuildsAlike base bindings g g') :
    c.BuildsAlike base bindings (.between d e g) (.between d' e' g') := by
  intro w w' hrelated
  apply (hd w w' hrelated).bind
  intro v v' o o' hreach ho
  apply (he v v' hreach.related).bind
  intro u u' q q' hreach' hq
  apply (hg u u' hreach'.related).bind
  intro t t' p p' hreach'' hp
  have ho' := hb.after (hreach'.trans hreach'') ho
  exact .pure hreach''.related (.between ho' (hb.after hreach'' hq) hp)

theorem seq {n : Nat} {ds ds' : Fin n → Description}
    (h : ∀ k, c.BuildsAlike base bindings (ds k) (ds' k)) :
    c.BuildsAlike base bindings (.seq n ds) (.seq n ds') := by
  intro w w' hrelated
  apply (hb.inOrder_ofFn h hrelated).bind
  intro v v' qs qs' hreach hqs
  exact .pure hreach.related (.sequence hqs)

theorem alt {n : Nat} {ds ds' : Fin n → Description}
    (h : ∀ k, c.BuildsAlike base bindings (ds k) (ds' k)) :
    c.BuildsAlike base bindings (.alt n ds) (.alt n ds') := by
  intro w w' hrelated
  apply (hb.inOrder_ofFn h hrelated).bind
  intro v v' qs qs' hreach hqs
  exact .pure hreach.related (.choice hqs)

theorem seqMap {n : Nat} {ds ds' : Fin n → Description} (f : Option Callback)
    (h : ∀ k, c.BuildsAlike base bindings (ds k) (ds' k)) :
    c.BuildsAlike base bindings (.seqMap n ds f) (.seqMap n ds' f) := by
  intro w w' hrelated
  apply (hb.inOrder_ofFn h hrelated).bind
  intro v v' qs qs' hreach hqs
  cases f with
  | none => exact .fault hreach.related (hb.same_fault _)
  | some f => exact .pure hreach.related (.seqMap _ hqs)

omit hb in
/-- Of the second part only the description is kept, together with the bindings. -/
theorem bind (name : String) (hd : c.BuildsAlike base bindings d d')
    (he : ∀ w w' v, (Parser.built e ((name, v) :: bindings)).Alike (base w w')
      (.built e' ((name, v) :: bindings))) :
    c.BuildsAlike base bindings (.bind d name e) (.bind d' name e') := by
  intro w w' hrelated
  apply (hd w w' hrelated).bind
  intro v v' p p' hreach hp
  exact .pure hreach.related (.bind hp fun a => he v v' a)

theorem choose (first second : Literal) (hd : c.BuildsAlike base bindings d d')
    (he : c.BuildsAlike base bindings e e') :
    c.BuildsAlike base bindings (.choose first second d e) (.choose first second d' e') := by
  have literal (l : Literal) {v v' : World} (hv : c.related v v') :
      c.Follows (fun _ _ a b => a = b) (Run.ofExcept (l.eval bindings))
        (fun _ => Run.ofExcept (l.eval bindings)) v v' := by
    cases l.eval bindings with
    | error f => exact .fault hv (hb.same_fault f)
    | ok a => exact .pure hv rfl
  intro w w' hrelated
  apply (literal first hrelated).bind
  intro v v' a a' hreach ha
  apply (literal second hreach.related).bind
  intro u u' b b' hreach' hb'
  subst ha hb'
  exact .ite Iff.rfl (fun _ => hd u u' hreach'.related) (fun _ => he u u' hreach'.related)

/-- Names that stand for parsers that are alike. -/
theorem known (name : String)
    (h : ∀ w w', c.related w w' → Option.Rel (Parser.Alike (base w w'))
      (World.lookup? name w.names) (World.lookup? name w'.names)) :
    c.BuildsAlike base bindings (.known name) (.known name) := by
  intro w w' hrelated
  have hknown := h w w' hrelated
  unfold Description.build
  apply Follows.get
  generalize World.lookup? name w.names = entry at hknown ⊢
  generalize World.lookup? name w'.names = entry' at hknown ⊢
  cases hknown with
  | none => exact .fault hrelated (hb.same_fault _)
  | some hp => exact .pure hrelated hp

end Constructs

/-- What a comparison must say of the parts that lead out of the tree so that
building keeps to it: names stand for parsers that are alike, and new handles are
related. -/
structure Builds (c : Comparison) (base : World → World → Parser → Parser → Prop) : Prop
    extends c.Constructs base where
  built : ∀ {w w'} d bindings, base w w' (.built d bindings) (.built d bindings)
  known : ∀ {w w'} name, c.related w w' →
    Option.Rel (Parser.Alike (base w w')) (World.lookup? name w.names)
      (World.lookup? name w'.names)
  newDeferred : ∀ {w w'} rule, c.related w w' →
    c.Follows (fun v v' => Parser.Alike (base v v')) (Run.newDeferred rule)
      (fun _ => Run.newDeferred rule) w w'

/-- Building a description in corresponding worlds gives parsers that are alike, or
ends in the same fault. -/
theorem Builds.build {base : World → World → Parser → Parser → Prop} (hb : c.Builds base)
    (d : Description) (bindings : Bindings) : c.BuildsAlike base bindings d d := by
  have hc := hb.toConstructs
  induction d with
  | atom a => exact hc.atom bindings a
  | wrap m p ih => exact hc.wrap m ih
  | join j p q ihp ihq => exact hc.join j ihp ihq
  | between opening closing p iho ihc ihp => exact hc.between iho ihc ihp
  | seq n ps ih => exact hc.seq ih
  | alt n ps ih => exact hc.alt ih
  | seqMap n ps f ih => exact hc.seqMap f ih
  | bind p name q ihp ihq => exact Constructs.bind name ihp fun _ _ _ => .base (hb.built _ _)
  | choose first second p q ihp ihq => exact hc.choose first second ihp ihq
  | known name => exact hc.known name fun _ _ => hb.known name
  | deferred rule description =>
      intro w w' hrelated
      apply (hb.newDeferred rule hrelated).bind
      intro v v' p p' hreach hp
      cases description with
      | none => exact .pure hreach.related hp
      | some text => exact .pure hreach.related (.label text hp)

end Comparison

end Descent
