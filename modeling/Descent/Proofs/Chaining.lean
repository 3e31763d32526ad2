/-
# Chains of operators

A chain from the left, a chain from the right and a list with separators read the same input
in the same way: an operand, and then operators with operands behind them until one of the two is
missing. They differ only in what they make of the values, and the chains do so at the very end.
-/

import Descent.Proofs.Operators
import Descent.Proofs.Regrouping

namespace Descent

namespace Reply

/-- Values that are computed turn by turn may be computed from the list of all turns. -/
theorem resume_mapValue (r : Reply) {t : Reply} (ht : -1 ≤ t.furthest) (values : List Value)
    (h : Value → Value) :
    (r.mapValue fun v => .list (v.items.map h)).resume (some (t.mapValue h)) (values.map h) =
      (r.resume (some t) values).mapValue fun v => .list (v.items.map h) := by
  simp only [resume, merge_some, mapValue_mergeWith, mapValue_mapValue, mergeWith_mapValue _ ht,
    Value.items_list, List.map_append, List.map_reverse]

end Reply

namespace Action

variable {m : Type → Type} [Monad m] [LawfulMonad m] [MonadLiftT Run m] [LawfulMonadLiftT Run m]

/-- Two actions in a row, with the list of both values. -/
theorem seq_pair (p q : ActionIn m) :
    seq [p, q] = bind p fun a => map q fun b => .answer (.list [a, b]) := by
  funext s i
  simp only [seq, seqFrom, bind, Reply.merge_none, Reply.merge_some]
  refine bind_congr fun first => ?_
  by_cases hfirst : first.status
  · simp only [hfirst, if_true, map_answer_apply, bind_assoc, pure_bind]
    refine bind_congr fun second => ?_
    by_cases hsecond : second.status
    · simp [hsecond, Reply.mapValue, listReply, Reply.merge_some, Reply.mergeWith_assoc]
    · simp [hsecond, Reply.mapValue]
  · simp [hfirst]

end Action

namespace Parser

variable {joint : Parser → Bool} {s : Text} {p q op : Parser}

section Gathering

variable (hmap : ∀ p f, joint (.map p f)) (hbind : ∀ p f, joint (.bind p f))
  (htimes : ∀ p r, joint (.times p r))

include hmap in
/-- A loop without turns before it, over a parser whose value is computed. -/
theorem unbounded_map {h : Value → Value} (hq : Equivalent joint s q (p.map fun v => .answer (h v)))
    (n turns : Nat) {i : Int} (hi : 0 ≤ i) (hlen : i ≤ s.length) :
    Action.unbounded (q.outline joint (n + 1)) s turns i none [] = do
      let r ← Action.unbounded (p.outline joint (n + 1)) s turns i none []
      return r.mapValue fun v => .list (v.items.map h) := by
  induction turns generalizing i with
  | zero => exact (Action.halt_bind_pure _ _).symm
  | succ turns ih =>
      have hturn : q.outline joint (n + 1) s i = do
          let t ← p.outline joint (n + 1) s i
          return t.mapValue h := by
        rw [(hq i hi hlen).outline_ext (n + 1), outline_map (hmap _ _), Action.map_answer_apply]
      simp only [Action.unbounded, hturn, bind_assoc, LawfulMonad.pure_bind, Reply.merge_none]
      refine Watched.bind_congr_of_ok fun w t w' ht => ?_
      have hfurthest := neg_one_le_furthest hi hlen ht
      by_cases hok : t.status
      · by_cases hidle : t.index = i
        · simp only [Reply.mapValue_status, Reply.mapValue_index, hok, hidle, Bool.not_true,
            Bool.false_eq_true, if_false, if_true]
          exact (Action.halt_bind_pure _ _).symm
        · rw [outline_snd] at ht
          obtain ⟨hstart, hstop⟩ := index_of_run hi hlen ht hok
          simp only [Reply.mapValue_status, Reply.mapValue_index, Reply.mapValue_value hok, hok,
            hidle, Bool.not_true, Bool.false_eq_true, if_false]
          -- The turn just made is taken out of both loops, so that the rest starts afresh.
          rw [Action.resumes_unbounded, ih (Int.le_trans hi hstart) hstop,
            Action.resumes_unbounded (p.outline joint (n + 1)) s turns t.index (some t)]
          simp only [bind_assoc, LawfulMonad.pure_bind]
          exact bind_congr fun r => congrArg _ (Reply.resume_mapValue r hfurthest [t.value] h)
      · simp [hok, Reply.mapValue, Action.listReply, Reply.merge_some,
          Reply.ok_mergeWith_ok_mergeWith, Value.items_list]

include hmap htimes in
/-- Values that are computed in each turn may be computed from the whole list. -/
theorem many_map {h : Value → Value} (hq : Equivalent joint s q (p.map fun v => .answer (h v))) :
    Equivalent joint s q.many (p.many.map fun v => .answer (.list (v.items.map h))) := by
  intro i hi hlen
  refine .of_outline fun n => ?_
  rw [many, many, outline_map (hmap _ _), outline_times (htimes _ _), outline_times (htimes _ _),
    Action.map_answer_apply]
  exact unbounded_map hmap hq n n hi hlen

variable (hseq : ∀ ps, joint (sequence ps)) (handThen : ∀ p q, joint (.andThen p q))

include hmap hbind

include hseq in
theorem sequence_pair (p q : Parser) :
    Equivalent joint s (sequence [p, q])
      (p.bind fun a => q.map fun b => .answer (.list [a, b])) := by
  intro i hi hlen
  refine .of_outline fun n => ?_
  rw [outline_sequence (hseq _), outline_bind (hbind _ _)]
  simp only [outline_map (hmap _ _)]
  exact congrFun₂ (Action.seq_pair _ _) s i

include hseq handThen in
/-- The second of two parsers in a row may be picked from the list of both values. -/
theorem andThen_pair (p q : Parser) :
    Equivalent joint s (p.andThen q) ((sequence [p, q]).map fun v => .answer (v.item 1)) := by
  have hsecond : Equivalent joint s (p.andThen q) (p.bind fun _ => q.map fun b => .answer b) := by
    intro i hi hlen
    refine .of_outline fun n => ?_
    rw [outline_andThen (handThen _ _), outline_bind (hbind _ _)]
    simp only [outline_map (hmap _ _)]
    exact andThen_outline hi hlen
  calc
    Equivalent joint s _ (p.bind fun _ => q.map fun b => .answer b) := hsecond
    Equivalent joint s _ (p.bind fun a =>
        (q.map fun b => .answer (.list [a, b])).map fun v => .answer (v.item 1)) :=
      .bind_congr hbind (.refl p) fun a =>
        (Equivalent.map_map hmap q (fun b => .list [a, b]) fun v => v.item 1).symm
    Equivalent joint s _ ((p.bind fun a => q.map fun b => .answer (.list [a, b])).map fun v =>
        .answer (v.item 1)) := (Equivalent.map_bind hmap hbind p _ _).symm
    Equivalent joint s _ _ := (sequence_pair hmap hbind hseq p q).symm.map_congr hmap _

/-- An operand, and then any number of operators with operands behind them. -/
def linked (p op : Parser) : Parser :=
  sequence [p, (sequence [op, p]).many]

/-- The operands alone. -/
def operands (v : Value) : Value :=
  .list (v.item 0 :: (v.item 1).items.map (·.item 1))

include htimes hseq handThen in
/-- A list with separators keeps the operands. -/
theorem sepBy1_linked (p op : Parser) :
    Equivalent joint s (p.sepBy1 op) ((linked p op).map fun v => .answer (operands v)) := by
  have htail : Equivalent joint s (op.andThen p).many _ :=
    many_map hmap htimes (andThen_pair hmap hbind hseq handThen op p)
  calc
    Equivalent joint s _ (p.bind fun first => ((sequence [op, p]).many.map fun v =>
        .answer (.list (v.items.map (·.item 1)))).map fun rest =>
          .answer (.list (first :: rest.items))) :=
      .bind_congr hbind (.refl p) fun first => htail.map_congr hmap _
    Equivalent joint s _ (p.bind fun first => (sequence [op, p]).many.map fun v =>
        .answer (.list (first :: v.items.map (·.item 1)))) :=
      .bind_congr hbind (.refl p) fun first => .map_map hmap _ _ _
    Equivalent joint s _ (p.bind fun first => ((sequence [op, p]).many.map fun v =>
        .answer (.list [first, v])).map fun v => .answer (operands v)) :=
      .bind_congr hbind (.refl p) fun first =>
        (Equivalent.map_map hmap (sequence [op, p]).many (fun v => .list [first, v]) operands).symm
    Equivalent joint s _ _ := (Equivalent.map_bind hmap hbind p _ _).symm
    Equivalent joint s _ _ := (sequence_pair hmap hbind hseq p _).symm.map_congr hmap _

end Gathering

section Maps

variable {n : Nat} {i : Int} {w w' : World} {r : Reply} {f : Value → Call Value}

/-- A function that is called starts no parser. -/
theorem outline_map_fst (hmap : ∀ p f, joint (.map p f)) (n : Nat) (s : Text) (i : Int)
    (w : World) : ((q.map f).outline joint n s i w).1 = (q.outline joint n s i w).1 := by
  cases n with
  | zero => rfl
  | succ n =>
      rw [outline_map (hmap _ _)]
      rcases hq : q.outline joint (n + 1) s i w with ⟨visits, ⟨r, v⟩ | ⟨halt, v⟩⟩
      · refine (congrArg Prod.fst (Watched.bind_of_ok hq)).trans ?_
        by_cases hok : r.status
        · have hlift : (do
                let x ← (liftM (Run.ofCall (f r.value)) : Watched Value)
                return (Reply.ok r.index x).mergeWith r) =
              liftM (do
                let x ← Run.ofCall (f r.value)
                return (Reply.ok r.index x).mergeWith r) := by
            simp only [liftM_bind, liftM_pure]
          simp only [hok, if_true, hlift]
          exact List.append_nil visits
        · simp only [hok]
          exact List.append_nil visits
      · exact congrArg Prod.fst (Watched.bind_of_error hq)

end Maps

/-- An operand at offset `i` and operators with operands behind them, each found where the one
before has stopped, in runs one after another. The last operand ends at an offset, and leaves a
world behind. An operator with its operand has to consume something. -/
inductive Chained (n : Nat) (s : Text) (p op : Parser) (i : Int) (w : World) :
    Value → List (Value × Value) → Int → World → Prop
  | first {r : Reply} {u : World} (operand : p.run n s i w = .ok r u) (found : r.status = true) :
      Chained n s p op i w r.value [] r.index u
  | link {x : Value} {links : List (Value × Value)} {j : Int} {u v t : World} {f r : Reply}
      (before : Chained n s p op i w x links j u) (operator : op.run n s j u = .ok f v)
      (applies : f.status = true) (operand : p.run n s f.index v = .ok r t)
      (found : r.status = true) (moves : r.index ≠ j) :
      Chained n s p op i w x (links ++ [(f.value, r.value)]) r.index t

/-- No operator with an operand behind it is found at an offset. -/
inductive Unlinked (n : Nat) (s : Text) (p op : Parser) (j : Int) (u : World) : World → Prop
  | operator {f : Reply} {v : World} (run : op.run n s j u = .ok f v) (missing : f.status = false) :
      Unlinked n s p op j u v
  | operand {f r : Reply} {v t : World} (run : op.run n s j u = .ok f v) (found : f.status = true)
      (next : p.run n s f.index v = .ok r t) (missing : r.status = false) : Unlinked n s p op j u t

section Links

variable {n : Nat} {i j : Int} {w w' u : World} {r : Reply} {x : Value}
  {links : List (Value × Value)}

theorem run_sequence_pair (n : Nat) (p q : Parser) :
    (sequence [p, q]).run (n + 1) =
      Action.bind (p.run (n + 1)) fun a =>
        Action.map (q.run (n + 1)) fun b => .answer (.list [a, b]) :=
  Action.seq_pair (p.run (n + 1)) (q.run (n + 1))

/-- Both of two parsers in a row succeed, or one of them is not found. -/
theorem unlinked_or_of_run_pair (h : (sequence [p, q]).run n s i w = .ok r w') :
    (r.status = false ∧ Unlinked n s q p i w w') ∨
      (r.status = true ∧ ∃ a v b, p.run n s i w = .ok a v ∧ a.status = true ∧
        q.run n s a.index v = .ok b w' ∧ b.status = true ∧ r.index = b.index ∧
        r.value = .list [a.value, b.value]) := by
  cases n with
  | zero => cases h
  | succ n =>
      rw [run_sequence_pair] at h
      obtain ⟨a, v, hp, h⟩ := Run.bind_eq_ok.mp h
      by_cases ha : a.status
      · simp only [ha, if_true, Action.map_answer_apply] at h
        obtain ⟨t, v', hq, h⟩ := Run.bind_eq_ok.mp h
        obtain ⟨rfl, rfl⟩ := Run.pure_eq_ok.mp h
        obtain ⟨b, v'', hrun, h⟩ := Run.bind_eq_ok.mp hq
        obtain ⟨rfl, rfl⟩ := Run.pure_eq_ok.mp h
        by_cases hb : b.status
        · exact .inr ⟨by simp [hb], a, v, b, hp, ha, hrun, hb, by simp,
            by simp [Reply.mapValue_value hb]⟩
        · exact .inl ⟨by simpa using hb, .operand hp ha hrun (by simpa using hb)⟩
      · simp only [ha] at h
        obtain ⟨rfl, rfl⟩ := Run.pure_eq_ok.mp h
        exact .inl ⟨by simpa using ha, .operator hp (by simpa using ha)⟩

/-- A loop over operators and operands goes on with a chain until it ends. -/
theorem Chained.exists_of_unbounded {turns : Nat} {context : Option Reply}
    (hbefore : Chained n s p op i w x links j u)
    (h : Action.unbounded ((sequence [op, p]).run n) s turns j context
      (links.map linkValue).reverse u = .ok r w') :
    r.status = true ∧ ∃ links' v, Chained n s p op i w x links' r.index v ∧
      Unlinked n s p op r.index v w' ∧ r.value = .list (links'.map linkValue) := by
  -- The values that the loop carries along are the links of the chain so far.
  induction turns generalizing j u context links with
  | zero => cases h
  | succ turns ih =>
      obtain ⟨t, v, hturn, h⟩ := Run.bind_eq_ok.mp h
      obtain ⟨ht, hend⟩ | ⟨ht, f, v', operand, hop, hf, hp, hb, hindex, hvalue⟩ :=
        unlinked_or_of_run_pair hturn
      · simp only [ht, Bool.not_false, if_true] at h
        obtain ⟨rfl, rfl⟩ := Run.pure_eq_ok.mp h
        refine ⟨by simp [Action.listReply], links, u, ?_, ?_, ?_⟩
        · simpa [Action.listReply] using hbefore
        · simpa [Action.listReply] using hend
        · simp [Action.listReply]
      · by_cases hidle : t.index = j
        · simp only [ht, hidle, Bool.not_true, Bool.false_eq_true, if_false, if_true] at h
          cases h
        · simp only [ht, hidle, Bool.not_true, Bool.false_eq_true, if_false] at h
          have hnext := hbefore.link hop hf hp hb (hindex ▸ hidle)
          have hvalues : t.value :: (links.map linkValue).reverse =
              ((links ++ [(f.value, operand.value)]).map linkValue).reverse := by
            simp [hvalue, linkValue]
          rw [hindex, hvalues] at h
          exact ih hnext h

/-- What is read of a chain before anything is made of it. -/
theorem exists_of_run_linked (h : (linked p op).run n s i w = .ok r w') (hok : r.status = true) :
    ∃ x links v, Chained n s p op i w x links r.index v ∧ Unlinked n s p op r.index v w' ∧
      r.value = .list [x, .list (links.map linkValue)] := by
  obtain ⟨hr, -⟩ | ⟨-, a, v, b, hfirst, ha, hrest, hb, hindex, hvalue⟩ := unlinked_or_of_run_pair h
  · rw [hr] at hok
    cases hok
  · cases n with
    | zero => cases hrest
    | succ n =>
        have hloop : Action.unbounded ((sequence [op, p]).run (n + 1)) s n a.index none
            (([] : List (Value × Value)).map linkValue).reverse v = .ok b w' := hrest
        obtain ⟨-, links, u, hchain, hend, hlinks⟩ :=
          (Chained.first hfirst ha).exists_of_unbounded hloop
        refine ⟨a.value, links, u, hindex ▸ hchain, hindex ▸ hend, ?_⟩
        rw [hvalue, hlinks]

end Links

/-- A chain makes something of what is read, and does nothing else. -/
theorem exists_chain_eq_map (fold : Value → List Value → Call Value) (p op : Parser) :
    ∃ f, chain fold p op = (linked p op).map f ∧
      ∀ x pairs, f (.list [x, .list pairs]) = fold x pairs :=
  ⟨_, rfl, fun _ _ => rfl⟩

section Chains

variable {n : Nat} {i : Int} {w v : World} (fold : Value → List Value → Call Value)

theorem run_chain_of_halt {halt : Halt} (h : (linked p op).run n s i w = .error halt v) :
    (chain fold p op).run n s i w = .error halt v := by
  obtain ⟨f, hf, -⟩ := exists_chain_eq_map fold p op
  rw [hf]
  exact run_map_of_halt h

theorem run_chain_of_failure {r : Reply} (h : (linked p op).run n s i w = .ok r v)
    (hfail : r.status = false) : (chain fold p op).run n s i w = .ok r v := by
  obtain ⟨f, hf, -⟩ := exists_chain_eq_map fold p op
  rw [hf]
  exact run_map_of_failure h hfail

/-- The operators of a chain are applied once it has been read. -/
theorem run_chain_of_success (hi : 0 ≤ i) (hlen : i ≤ s.length) {r : Reply}
    (h : (linked p op).run n s i w = .ok r v) (hok : r.status = true) {x : Value}
    {links : List (Value × Value)} (hvalue : r.value = .list [x, .list (links.map linkValue)]) :
    (chain fold p op).run n s i w =
      (do
        let y ← Run.ofCall (fold x (links.map linkValue))
        return { r with value := y }) v := by
  obtain ⟨f, hf, hfold⟩ := exists_chain_eq_map fold p op
  rw [hf, run_map_of_success hi hlen h hok, hvalue, hfold]

section Gathered

variable (hi : 0 ≤ i) (hlen : i ≤ s.length)

include hi hlen

theorem sepBy1_course (p op : Parser) :
    SameCourse isGathering s i (p.sepBy1 op) ((linked p op).map fun v => .answer (operands v)) :=
  sepBy1_linked (fun _ _ => rfl) (fun _ _ => rfl) (fun _ _ => rfl) (fun _ => rfl) (fun _ _ => rfl)
    p op i hi hlen

theorem outline_chain_fst (p op : Parser) (n : Nat) (w : World) :
    ((chain fold p op).outline isGathering n s i w).1 =
      ((p.sepBy1 op).outline isGathering n s i w).1 := by
  obtain ⟨f, hf, -⟩ := exists_chain_eq_map fold p op
  rw [hf, outline_map_fst fun _ _ => rfl, (sepBy1_course hi hlen p op).outline_eq,
    outline_map_fst fun _ _ => rfl]

/-- How a list of operands ends, in terms of what is read. -/
theorem run_sepBy1_cases (p op : Parser) (n : Nat) (w : World) :
    (∃ halt v, (linked p op).run n s i w = .error halt v ∧
      (p.sepBy1 op).run n s i w = .error halt v) ∨
    (∃ r v, (linked p op).run n s i w = .ok r v ∧ r.status = false ∧
      (p.sepBy1 op).run n s i w = .ok r v) ∨
    (∃ r v, (linked p op).run n s i w = .ok r v ∧ r.status = true ∧
      (p.sepBy1 op).run n s i w = .ok { r with value := operands r.value } v) := by
  rw [(sepBy1_course hi hlen p op).run_eq]
  rcases hlinked : (linked p op).run n s i w with ⟨r, v⟩ | ⟨halt, v⟩
  · cases hok : r.status with
    | false => exact .inr (.inl ⟨r, v, rfl, hok, run_map_of_failure hlinked hok⟩)
    | true =>
        refine .inr (.inr ⟨r, v, rfl, hok, ?_⟩)
        rw [run_map_of_success hi hlen hlinked hok]
        rfl
  · exact .inl ⟨halt, v, rfl, run_map_of_halt hlinked⟩

end Gathered

end Chains

/-- Chains of operators read what a list with separators reads: they start the same parsers at
the same offsets in the same order, and end in the same fault or with the same failure if it
does. If it succeeds, it has found operands with operators between them, up to where no further
operator with an operand is found. Then the operators are applied, each once, either from the
left or from the right. The chains end as the list does except for the value, unless one of the
operators gives up. -/
theorem chains_agree (p op : Parser) (n : Nat) (s : Text) (i : Int) (w : World) (hi : 0 ≤ i)
    (hlen : i ≤ s.length) :
    ((chainLeft p op).outline isGathering n s i w).1 =
      ((p.sepBy1 op).outline isGathering n s i w).1 ∧
    ((chainRight p op).outline isGathering n s i w).1 =
      ((p.sepBy1 op).outline isGathering n s i w).1 ∧
    (∀ halt v, (p.sepBy1 op).run n s i w = .error halt v →
      (chainLeft p op).run n s i w = .error halt v ∧
      (chainRight p op).run n s i w = .error halt v) ∧
    (∀ r v, (p.sepBy1 op).run n s i w = .ok r v → r.status = false →
      (chainLeft p op).run n s i w = .ok r v ∧ (chainRight p op).run n s i w = .ok r v) ∧
    (∀ r v, (p.sepBy1 op).run n s i w = .ok r v → r.status = true →
      ∃ x links u, Chained n s p op i w x links r.index u ∧ Unlinked n s p op r.index u v ∧
        r.value = .list (x :: links.map (·.2)) ∧
        (chainLeft p op).run n s i w =
          (do
            let y ← Run.ofCall (applyLeft x links)
            return { r with value := y }) v ∧
        (chainRight p op).run n s i w =
          (do
            let y ← Run.ofCall (applyRight x links)
            return { r with value := y }) v) := by
  refine ⟨outline_chain_fst foldLeft hi hlen p op n w, outline_chain_fst foldRight hi hlen p op n w,
    ?_⟩
  rcases run_sepBy1_cases hi hlen p op n w with
    ⟨halt, v, hlinked, hlist⟩ | ⟨r, v, hlinked, hfail, hlist⟩ | ⟨r, v, hlinked, hok, hlist⟩
  · rw [hlist]
    refine ⟨?_, fun _ _ h => (by cases h), fun _ _ h => (by cases h)⟩
    rintro _ _ ⟨⟩
    exact ⟨run_chain_of_halt foldLeft hlinked, run_chain_of_halt foldRight hlinked⟩
  · rw [hlist]
    refine ⟨fun _ _ h => (by cases h), ?_, ?_⟩
    · rintro _ _ ⟨⟩ -
      exact ⟨run_chain_of_failure foldLeft hlinked hfail,
        run_chain_of_failure foldRight hlinked hfail⟩
    · rintro _ _ ⟨⟩ hok
      rw [hfail] at hok
      cases hok
  · rw [hlist]
    refine ⟨fun _ _ h => (by cases h), ?_, ?_⟩
    · rintro _ _ ⟨⟩ hfail
      rw [hok] at hfail
      cases hfail
    · rintro _ _ ⟨⟩ -
      obtain ⟨x, links, u, hchain, hend, hvalue⟩ := exists_of_run_linked hlinked hok
      refine ⟨x, links, u, hchain, hend, ?_, ?_, ?_⟩
      · rw [hvalue]
        simp [operands, linkValue, Value.item, Value.items]
      · rw [← foldLeft_map]
        exact run_chain_of_success foldLeft hi hlen hlinked hok hvalue
      · rw [← foldRight_map]
        exact run_chain_of_success foldRight hi hlen hlinked hok hvalue

/-- Three operands, each of which yields the offset it ends at, with two minus signs between them
and one more sign that no operand follows: the list stops in front of it and reports what is
missing behind it. -/
theorem chains_agree_of_dangling_operator :
    let p := (Parser.string "x").andThen .index
    let op := (Parser.string "-").result (.function .subtract)
    let s := ['-', 'x', '-', 'x', '-', 'x', '-']
    (0 ≤ (1 : Int) ∧ (1 : Int) ≤ s.length) ∧
    (∃ r v, (p.sepBy1 op).run 4 s 1 {} = .ok r v ∧ r.status = true ∧ r.index = 6 ∧
      r.furthest = 7 ∧ r.expected.toList = ["'x'"] ∧
      ∃ x links u, Chained 4 s p op 1 {} x links r.index u ∧ Unlinked 4 s p op r.index u v ∧
        r.value = .list (x :: links.map (·.2)) ∧
        (chainLeft p op).run 4 s 1 {} =
          (do
            let y ← Run.ofCall (applyLeft x links)
            return { r with value := y }) v ∧
        (chainRight p op).run 4 s 1 {} =
          (do
            let y ← Run.ofCall (applyRight x links)
            return { r with value := y }) v) ∧
    (∃ r v, (chainLeft p op).run 4 s 1 {} = .ok r v ∧ r.value = .int (-8)) ∧
    (∃ r v, (chainRight p op).run 4 s 1 {} = .ok r v ∧ r.value = .int 4) := by
  refine ⟨by decide, ⟨_, _, rfl, rfl, rfl, rfl, rfl, ?_⟩, ⟨_, _, rfl, rfl⟩, ⟨_, _, rfl, rfl⟩⟩
  exact (chains_agree ((Parser.string "x").andThen .index)
    ((Parser.string "-").result (.function .subtract)) 4 ['-', 'x', '-', 'x', '-', 'x', '-'] 1 {}
    (by decide) (by decide)).2.2.2.2 _ _ rfl rfl

end Parser

end Descent
