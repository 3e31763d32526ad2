/-
# Rows and choices

Rows and choices of any length agree with the same parsers joined two at a time. A row is
the chain of binds that collects the values and yields them at the end; a choice is the
chain of its alternatives, whichever way the chain is grouped; and every way to run two or
three parsers one after another is their row, with a function that picks or applies the
values. The loops over a row or a choice carry a context along where the chains merge the
replies on the way back, so the agreement is shown for loops that start with any context.
-/

import Descent.Parser.Combinators
import Descent.Proofs.MonadLaws

namespace Descent

namespace Action

variable {m : Type → Type} [Monad m] [LawfulMonad m]

/-- Of three alternatives it does not matter which two are joined first. -/
theorem orElse_assoc (p q r : ActionIn m) : orElse (orElse p q) r = orElse p (orElse q r) := by
  funext s i
  simp only [orElse, bind_assoc]
  refine bind_congr fun first => ?_
  by_cases hfirst : first.status
  · simp [hfirst]
  · simp only [hfirst, Bool.false_eq_true, if_false, bind_assoc]
    refine bind_congr fun second => ?_
    by_cases hsecond : second.status
    · simp [hsecond]
    · simp [hsecond, Reply.mergeWith_assoc]

theorem alt_singleton (p : ActionIn m) : alt [p] = p := by
  funext s i
  calc
    _ = p s i >>= pure := bind_congr fun reply => by
          by_cases hreply : reply.status
          · exact if_pos hreply
          · exact if_neg hreply
    _ = p s i := bind_pure _

/-- Alternatives that are tried with a context merge it into their reply. -/
theorem altFrom_some (s : Text) (i : Int) (p : ActionIn m) (ps : List (ActionIn m))
    (context : Reply) :
    altFrom s i (p :: ps) (some context) = do
      let reply ← alt (p :: ps) s i
      return reply.mergeWith context := by
  induction ps generalizing p context with
  | nil =>
      rw [alt_singleton]
      refine bind_congr fun reply => ?_
      by_cases hreply : reply.status
      · simp [Reply.merge, hreply]
      · simp [Reply.merge, hreply, altFrom]
  | cons q ps ih =>
      simp only [alt]
      rw [altFrom, altFrom, bind_assoc]
      refine bind_congr fun first => ?_
      by_cases hfirst : first.status
      · simp [Reply.merge, hfirst]
      · simp [Reply.merge, hfirst, ih, Reply.mergeWith_assoc]

/-- The alternatives after the first may be tried as one. -/
theorem alt_cons (p q : ActionIn m) (ps : List (ActionIn m)) :
    alt (p :: q :: ps) = orElse p (alt (q :: ps)) := by
  funext s i
  refine bind_congr fun first => ?_
  by_cases hfirst : first.status
  · simp [Reply.merge, hfirst]
  · simp [Reply.merge, hfirst, altFrom_some]

/-- The first two alternatives may be tried as one. -/
theorem alt_orElse (p q : ActionIn m) (ps : List (ActionIn m)) :
    alt (orElse p q :: ps) = alt (p :: q :: ps) := by
  cases ps with
  | nil => rw [alt_cons, alt_singleton, alt_singleton]
  | cons r ps => rw [alt_cons, alt_cons, alt_cons, orElse_assoc]

variable [MonadLiftT Run m] [LawfulMonadLiftT Run m]

/-- To keep the first value is to map the second action to it. -/
theorem skip_eq_bind (p q : ActionIn m) :
    skip p q = bind p fun v => map q fun _ => .answer v := by
  funext s i
  have hcall (v : Value) : Run.ofCall (.answer v) = pure v := rfl
  refine bind_congr fun first => ?_
  by_cases hfirst : first.status
  · simp only [hfirst, if_true, map, bind_assoc]
    refine bind_congr fun second => ?_
    by_cases hsecond : second.status
    · simp [hsecond, hcall, Reply.mergeWith_assoc]
    · simp [hsecond]
  · simp [hfirst]

end Action

/-- The item of a list at a place, absent if there is none. -/
def Value.item (v : Value) (k : Nat) : Value :=
  v.items.getD k .null

namespace Parser

/-- The values of parsers in a row, collected one by one after those that are there already. -/
def collecting : List Parser → List Value → Parser
  | [], values => .pure (.list values)
  | p :: ps, values => p.bind fun v => collecting ps (values ++ [v])

/-- The first parser of a chain that succeeds, grouped from the right. -/
def firstOf : Parser → List Parser → Parser
  | p, [] => p
  | p, q :: qs => p.orElse (firstOf q qs)

section Outlines

variable {joint : Parser → Bool} {budget : Nat} {p q : Parser} {ps : List Parser}

theorem outline_andThen (h : joint (p.andThen q)) :
    (p.andThen q).outline joint (budget + 1) =
      Action.andThen (p.outline joint (budget + 1)) (q.outline joint (budget + 1)) :=
  if_pos h

theorem outline_skip (h : joint (p.skip q)) :
    (p.skip q).outline joint (budget + 1) =
      Action.skip (p.outline joint (budget + 1)) (q.outline joint (budget + 1)) :=
  if_pos h

theorem outline_orElse (h : joint (p.orElse q)) :
    (p.orElse q).outline joint (budget + 1) =
      Action.orElse (p.outline joint (budget + 1)) (q.outline joint (budget + 1)) :=
  if_pos h

/-- What the parsers of a row do, one after another. -/
theorem ofFn_get_eq_map {α : Type} (f : Parser → α) (ps : List Parser) :
    (List.ofFn fun k => f (ps.get k)) = ps.map f := by
  calc
    _ = (List.ofFn ps.get).map f := List.map_ofFn.symm
    _ = ps.map f := by rw [List.ofFn_get]

theorem outline_sequence (h : joint (sequence ps)) :
    (sequence ps).outline joint (budget + 1) =
      Action.seq (ps.map (outline joint (budget + 1))) := by
  refine (if_pos h).trans (congrArg Action.seq ?_)
  exact ofFn_get_eq_map _ ps

theorem outline_choice (h : joint (choice ps)) :
    (choice ps).outline joint (budget + 1) =
      Action.alt (ps.map (outline joint (budget + 1))) := by
  refine (if_pos h).trans (congrArg Action.alt ?_)
  exact ofFn_get_eq_map _ ps

section Rows

variable (hpure : ∀ v, joint (.pure v)) (hbind : ∀ p f, joint (.bind p f))

include hpure hbind

/-- A row that starts with a context collects the values and merges the context in the end. -/
theorem seqFrom_outline (s : Text) (ps : List Parser) (i : Int) (context : Option Reply)
    (values : List Value) :
    Action.seqFrom s (ps.map (outline joint (budget + 1))) i context values = do
      let reply ← (collecting ps values.reverse).outline joint (budget + 1) s i
      return reply.merge context := by
  induction ps generalizing i context values with
  | nil =>
      rw [collecting, outline_pure (hpure _)]
      rfl
  | cons p ps ih =>
      simp only [List.map_cons, Action.seqFrom, collecting]
      rw [outline_bind (hbind _ _)]
      simp only [Action.bind, bind_assoc]
      refine bind_congr fun first => ?_
      by_cases hfirst : first.status
      · simp only [Reply.merge_status, Reply.merge_index, Reply.merge_value, hfirst, if_true, ih,
          List.reverse_cons, bind_assoc, pure_bind, Reply.mergeWith_merge]
        rfl
      · simp [hfirst]

/-- A row does what the chain of binds does that collects its values. -/
theorem seq_outline (ps : List Parser) :
    Action.seq (ps.map (outline joint (budget + 1))) =
      (collecting ps []).outline joint (budget + 1) := by
  funext s i
  calc
    _ = (collecting ps []).outline joint (budget + 1) s i >>= Pure.pure :=
      seqFrom_outline hpure hbind s ps i none []
    _ = (collecting ps []).outline joint (budget + 1) s i := bind_pure _

variable (hmap : ∀ p f, joint (.map p f)) (hseq : ∀ ps, joint (sequence ps))

include hmap hseq

/-- A function of the values of two parsers in a row. -/
theorem outline_map_pair (p q : Parser) (f : Value → Call Value) :
    ((sequence [p, q]).map f).outline joint (budget + 1) =
      Action.bind (p.outline joint (budget + 1)) fun a =>
        Action.map (q.outline joint (budget + 1)) fun b => f (.list [a, b]) := by
  rw [outline_map (hmap _ _), outline_sequence (hseq _), seq_outline hpure hbind]
  simp only [collecting, outline_bind (hbind _ _), outline_pure (hpure _), Action.map_bind]
  refine congrArg _ (funext fun a => ?_)
  exact Action.bind_map_succeed _ (fun b => .list [a, b]) fun _ => f

/-- A function of the values of three parsers in a row. -/
theorem outline_map_triple (p q r : Parser) (f : Value → Call Value) :
    ((sequence [p, q, r]).map f).outline joint (budget + 1) =
      Action.bind (p.outline joint (budget + 1)) fun a =>
        Action.bind (q.outline joint (budget + 1)) fun b =>
          Action.map (r.outline joint (budget + 1)) fun c => f (.list [a, b, c]) := by
  rw [outline_map (hmap _ _), outline_sequence (hseq _), seq_outline hpure hbind]
  simp only [collecting, outline_bind (hbind _ _), outline_pure (hpure _), Action.map_bind]
  refine congrArg _ (funext fun a => congrArg _ (funext fun b => ?_))
  exact Action.bind_map_succeed _ (fun c => .list [a, b, c]) fun _ => f

end Rows

end Outlines

/-- The value of the second of two parsers in a row is given to itself. This takes a start
inside the input: a furthest failure before `-1` would be lost. -/
theorem andThen_outline {joint : Parser → Bool} {budget : Nat} {p q : Parser} {s : Text} {i : Int}
    (hi : 0 ≤ i) (hlen : i ≤ s.length) :
    Action.andThen (p.outline joint budget) (q.outline joint budget) s i =
      Action.bind (p.outline joint budget)
        (fun _ => Action.map (q.outline joint budget) fun b => .answer b) s i := by
  refine Watched.bind_congr_of_ok fun w first w' hfirst => ?_
  by_cases hok : first.status
  · rw [outline_snd] at hfirst
    obtain ⟨hstart, hstop⟩ := index_of_run hi hlen hfirst hok
    have hsecond : Action.map (q.outline joint budget) (fun b => .answer b) s first.index =
        q.outline joint budget s first.index := by
      rw [Action.map_answer_eq_bind]
      exact Watched.bind_ok_mergeWith_self fun w r w' hr =>
        neg_one_le_furthest (Int.le_trans hi hstart) hstop hr
    simp only [if_pos hok, hsecond]
  · simp only [if_neg hok]

/-- A choice does what its alternatives do, grouped from the right. -/
theorem alt_outline_firstOf {joint : Parser → Bool} {budget : Nat}
    (horElse : ∀ p q, joint (.orElse p q)) (p : Parser) (ps : List Parser) :
    Action.alt ((p :: ps).map (outline joint (budget + 1))) =
      (firstOf p ps).outline joint (budget + 1) := by
  induction ps generalizing p with
  | nil => exact Action.alt_singleton _
  | cons q ps ih =>
      rw [firstOf, outline_orElse (horElse _ _), ← ih]
      exact Action.alt_cons _ _ _

/-- A choice does what its alternatives do, grouped from the left. -/
theorem alt_outline_foldl {joint : Parser → Bool} {budget : Nat}
    (horElse : ∀ p q, joint (.orElse p q)) (p : Parser) (ps : List Parser) :
    Action.alt ((p :: ps).map (outline joint (budget + 1))) =
      (ps.foldl orElse p).outline joint (budget + 1) := by
  induction ps generalizing p with
  | nil => exact Action.alt_singleton _
  | cons q ps ih =>
      rw [List.foldl_cons, ← ih]
      simp only [List.map_cons, outline_orElse (horElse _ _), Action.alt_orElse]

/-- Whether a parser only joins others in a row or a choice, or yields a value. -/
def isJoint : Parser → Bool
  | .pure _ | .bind _ _ | .map _ _ | .andThen _ _ | .skip _ _ | .orElse _ _ | .seq _ _
  | .alt _ _ => true
  | _ => false

/-- Joining parsers many at a time agrees with joining them two at a time. Each pair of parsers
takes the same course at every offset of every input: the replies are the same in all
respects, or else the fault is, and the parsers that are joined are started at the same
offsets in the same order. -/
theorem joints_agree (p q r : Parser) (ps : List Parser) (f : List Value → Call Value)
    (s : Text) (i : Int) (hi : 0 ≤ i) (hlen : i ≤ s.length) :
    SameCourse isJoint s i (sequence ps) (collecting ps []) ∧
    SameCourse isJoint s i (choice (p :: ps)) (ps.foldl orElse p) ∧
    SameCourse isJoint s i (choice (p :: ps)) (firstOf p ps) ∧
    SameCourse isJoint s i (p.andThen q) ((sequence [p, q]).map fun v => .answer (v.item 1)) ∧
    SameCourse isJoint s i (p.skip q) ((sequence [p, q]).map fun v => .answer (v.item 0)) ∧
    SameCourse isJoint s i (p.both q) ((sequence [p, q]).map fun v => .answer (.tuple v.items)) ∧
    SameCourse isJoint s i (p.ap q) ((sequence [p, q]).map fun v => (v.item 0).call [v.item 1]) ∧
    SameCourse isJoint s i (between p r q)
      ((sequence [p, q, r]).map fun v => .answer (v.item 1)) ∧
    SameCourse isJoint s i (seqMap ps f) ((sequence ps).map fun v => f v.items) := by
  have hpure (v : Value) : isJoint (.pure v) := rfl
  have hbind (p : Parser) (f : Value → Parser) : isJoint (.bind p f) := rfl
  have hmap (p : Parser) (f : Value → Call Value) : isJoint (.map p f) := rfl
  have horElse (p q : Parser) : isJoint (.orElse p q) := rfl
  have hseq (ps : List Parser) : isJoint (sequence ps) := rfl
  refine ⟨.of_outline fun n => ?_, .of_outline fun n => ?_, .of_outline fun n => ?_,
    .of_outline fun n => ?_, .of_outline fun n => ?_, .of_outline fun n => ?_,
    .of_outline fun n => ?_, .of_outline fun n => ?_, .refl _⟩
  · rw [outline_sequence rfl, seq_outline hpure hbind]
  · rw [outline_choice rfl, alt_outline_foldl horElse]
  · rw [outline_choice rfl, alt_outline_firstOf horElse]
  · rw [outline_map_pair hpure hbind hmap hseq, outline_andThen rfl]
    exact andThen_outline hi hlen
  · rw [outline_map_pair hpure hbind hmap hseq, outline_skip rfl, Action.skip_eq_bind]
    rfl
  · rw [outline_map_pair hpure hbind hmap hseq]
    rfl
  · rw [outline_map_pair hpure hbind hmap hseq]
    rfl
  · rw [outline_map_triple hpure hbind hmap hseq, between, outline_skip rfl, outline_andThen rfl,
      Action.skip_eq_bind]
    exact congrFun₂ (Action.bind_assoc (p.outline isJoint (n + 1))
      (fun _ => q.outline isJoint (n + 1)) _) s i

/-- A choice of three whose failures tie at the furthest offset, started behind the first
character: the chain from the left and the chain from the right report all of them. -/
theorem joints_agree_of_tied_failures :
    let p := (Parser.string "a").andThen (.string "b")
    let ps := [Parser.string "x", (Parser.string "a").skip (.string "c")]
    let s := ['-', 'a', 'd']
    (0 ≤ (1 : Int) ∧ (1 : Int) ≤ s.length) ∧
    (∃ r w', (choice (p :: ps)).run 1 s 1 {} = .ok r w' ∧
      r.furthest = 2 ∧ r.expected.toList = ["'b'", "'c'"]) ∧
    SameCourse isJoint s 1 (choice (p :: ps)) (ps.foldl orElse p) ∧
    SameCourse isJoint s 1 (choice (p :: ps)) (firstOf p ps) := by
  refine ⟨by decide, ⟨_, _, rfl, rfl, rfl⟩, ?_⟩
  have h := joints_agree ((Parser.string "a").andThen (.string "b")) .eof .eof
    [Parser.string "x", (Parser.string "a").skip (.string "c")] (fun _ => .giveUp .mismatch)
    ['-', 'a', 'd'] 1 (by decide) (by decide)
  exact ⟨h.2.1, h.2.2.1⟩

end Parser

end Descent
