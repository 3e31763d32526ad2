/-
# Turns of a repetition in other groups

A repetition may be taken apart at any count of turns that it has to make, and a row of copies
of its parser goes through the same turns. So the ways to ask for a number of occurrences agree:
they run the parser at the same offsets, report the same failures and give up at the same turn.

A loop that has made some turns carries their failures and their values along, while the parsers
that are joined instead add them on the way back. That this makes no difference is shown once for
all loops, and leads to the equation that the rest is computed with: the first required turn
stands apart from the others.
-/

import Descent.Proofs.Equivalence
import Descent.Proofs.Repeating
import Descent.Proofs.Sequencing
import Mathlib.Data.Int.ConditionallyCompleteOrder
import Mathlib.Order.ConditionallyCompleteLattice.Basic

namespace Descent

namespace Reply

/-- The reply of a loop that starts with a context and with the values of earlier turns, the
last first, from its reply without them. -/
def resume (context : Option Reply) (values : List Value) (r : Reply) : Reply :=
  (r.mapValue fun v => .list (values.reverse ++ v.items)).merge context

section Resume

variable (context : Option Reply) (values : List Value)

/-- To start with a turn and then with the turns before it is to start with all of them. -/
theorem resume_resume (r t : Reply) (v : Value) :
    (r.resume (some t) [v]).resume context values =
      r.resume (some (t.merge context)) (v :: values) := by
  by_cases hr : r.status
  · simp [resume, mapValue, hr, merge_some, mergeWith_merge, ← mergeWith_assoc, ok_mergeWith_ok,
      Value.items_list]
  · simp [resume, mapValue, hr, merge_some, mergeWith_merge]

/-- A loop that is over at once is over with what it started with. -/
theorem resume_listReply_none (j : Int) :
    (Action.listReply j none []).resume context values = Action.listReply j context values := by
  simp [Action.listReply, resume, mapValue, merge_none, ok_mergeWith_ok, Value.items_list]

theorem resume_listReply_some (j : Int) (t : Reply) :
    (Action.listReply j (some t) []).resume context values =
      Action.listReply j (some (t.merge context)) values := by
  simp [Action.listReply, resume, mapValue, merge_some, ok_mergeWith_ok_mergeWith,
    mergeWith_merge, Value.items_list]

end Resume

end Reply

namespace Action

variable {m : Type → Type} [Monad m]

/-- A loop that may start after turns made before: their failures and their values are only
added to what it comes to without them. -/
def Resumes (loop : Int → Option Reply → List Value → m Reply) : Prop :=
  ∀ i context values, loop i context values = do
    let reply ← loop i none []
    return reply.resume context values

/-- What a repetition does after its required turns. -/
def closing [MonadLiftT Run m] (budget : Nat) (p : ActionIn m) (s : Text) (r : Repetition) :
    Int → Option Reply → List Value → m Reply :=
  r.most.elim (unbounded p s budget) fun most => bounded p s (most - r.least)

theorem times_eq_required [MonadLiftT Run m] (budget : Nat) (p : ActionIn m) (r : Repetition)
    (s : Text) (i : Int) :
    times budget p r s i = required p s (closing budget p s r) r.least i none [] := by
  unfold times closing
  cases r.most with
  | none => rfl
  | some most => rfl

/-- A row of copies goes through the turns of a repetition. -/
theorem seqFrom_replicate (p : ActionIn m) (s : Text) (count : Nat) (i : Int)
    (context : Option Reply) (values : List Value) :
    seqFrom s (List.replicate count p) i context values =
      required p s (bounded p s 0) count i context values := by
  induction count generalizing i context values with
  | zero => rfl
  | succ count ih =>
      simp only [List.replicate_succ, seqFrom, required, ih, Reply.merge_status,
        Reply.merge_index, Reply.merge_value]

theorem times_eq_seq [MonadLiftT Run m] (budget : Nat) (p : ActionIn m) (count : Nat) :
    times budget p ⟨count, some count⟩ = seq (List.replicate count p) := by
  funext s i
  simp only [times, seq, seqFrom_replicate, Nat.sub_self]

/-- After a halt nothing is computed from a reply. -/
theorem halt_bind_pure [MonadLiftT Run m] [LawfulMonadLiftT Run m] (halt : Halt)
    (f : Reply → Reply) :
    (do let reply ← (liftM (throw halt : Run Reply) : m Reply); return f reply) =
      liftM (throw halt : Run Reply) := by
  calc
    _ = (liftM ((throw halt : Run Reply) >>= fun r => (pure (f r) : Run Reply)) : m Reply) := by
          simp only [liftM_bind, liftM_pure]
    _ = _ := rfl

section Loops

variable [LawfulMonad m]

/-- One turn, after which a loop goes on. -/
theorem Resumes.turn {loop : Int → Option Reply → List Value → m Reply} (h : Resumes loop)
    (i : Int) (t : Reply) (context : Option Reply) (values : List Value) :
    loop i (some (t.merge context)) (t.value :: values) = do
      let reply ← loop i (some t) [t.value]
      return reply.resume context values := by
  rw [h i _ (t.value :: values), h i (some t) [t.value]]
  simp only [bind_assoc, pure_bind, Reply.resume_resume]

theorem resumes_bounded (p : ActionIn m) (s : Text) (count : Nat) :
    Resumes (bounded p s count) := by
  induction count with
  | zero =>
      intro i context values
      simp only [bounded, pure_bind, Reply.resume_listReply_none]
  | succ count ih =>
      intro i context values
      simp only [bounded, bind_assoc]
      refine bind_congr fun turn => ?_
      by_cases hturn : turn.status
      · simp only [hturn, if_true]
        rw [ih.turn]
        rfl
      · simp only [hturn, Bool.false_eq_true, if_false, pure_bind, Reply.merge_none,
          Reply.resume_listReply_some]

/-- Required turns in front of a loop. -/
theorem Resumes.required {loop : Int → Option Reply → List Value → m Reply} (h : Resumes loop)
    (p : ActionIn m) (s : Text) (count : Nat) : Resumes (required p s loop count) := by
  induction count with
  | zero => exact h
  | succ count ih =>
      intro i context values
      simp only [Action.required, bind_assoc]
      refine bind_congr fun turn => ?_
      by_cases hturn : turn.status
      · simp only [hturn, if_true]
        rw [ih.turn]
        rfl
      · simp [hturn, Reply.merge_none, Reply.resume, Reply.mapValue]

variable [MonadLiftT Run m] [LawfulMonadLiftT Run m]

theorem resumes_unbounded (p : ActionIn m) (s : Text) (budget : Nat) :
    Resumes (unbounded p s budget) := by
  induction budget with
  | zero => exact fun i context values => (halt_bind_pure _ _).symm
  | succ budget ih =>
      intro i context values
      simp only [unbounded, bind_assoc]
      refine bind_congr fun turn => ?_
      by_cases hturn : turn.status
      · by_cases hidle : turn.index = i
        · simp only [hturn, hidle, Bool.not_true, Bool.false_eq_true, if_false, if_true]
          exact (halt_bind_pure _ _).symm
        · simp only [hturn, hidle, Bool.not_true, Bool.false_eq_true, if_false]
          rw [ih.turn]
          rfl
      · simp only [hturn, Bool.not_false, if_true, pure_bind, Reply.merge_none,
          Reply.resume_listReply_some]

theorem resumes_times (budget : Nat) (p : ActionIn m) (s : Text) (r : Repetition) (count : Nat) :
    Resumes (required p s (closing budget p s r) count) := by
  refine Resumes.required ?_ p s count
  unfold closing
  cases r.most with
  | none => exact resumes_unbounded p s budget
  | some most => exact resumes_bounded p s _

/-- The first of the required turns stands apart from the others. -/
theorem times_succ (budget : Nat) (p : ActionIn m) (least : Nat) (most : Option Nat) :
    times budget p ⟨least + 1, most.map (· + 1)⟩ =
      bind p fun v => map (times budget p ⟨least, most⟩) fun back =>
        .answer (.list (v :: back.items)) := by
  funext s i
  have hclosing : closing budget p s ⟨least + 1, most.map (· + 1)⟩ =
      closing budget p s ⟨least, most⟩ := by
    cases most with
    | none => rfl
    | some most => simp [closing]
  simp only [times_eq_required, hclosing, required, bind]
  refine bind_congr fun turn => ?_
  by_cases hturn : turn.status
  · simp only [hturn, if_true]
    rw [resumes_times, map_answer_apply, times_eq_required]
    simp only [bind_assoc, pure_bind]
    rfl
  · simp only [hturn, Bool.false_eq_true, if_false]
    rfl

/-- A repetition yields a list. -/
theorem map_items_times (budget : Nat) (p : ActionIn m) (r : Repetition) :
    (map (times budget p r) fun v => .answer (.list v.items)) = times budget p r := by
  funext s i
  rw [map_answer_apply, times_eq_required]
  exact (resumes_times budget p s r r.least i none []).symm

end Loops

end Action

namespace Parser

/-- Whether a parser only gathers the values of parsers that it runs in a row. -/
def isGathering : Parser → Bool
  | .bind _ _ | .map _ _ | .andThen _ _ | .times _ _ | .seq _ _ => true
  | _ => false

/-- The lists of two parsers in a row as one list. -/
def concat (p q : Parser) : Parser :=
  p.bind fun front => q.map fun back => .answer (.list (front.items ++ back.items))

/-- The value of a parser in front of the list of another one. -/
def cons (p q : Parser) : Parser :=
  p.bind fun v => q.map fun back => .answer (.list (v :: back.items))

section Repetitions

variable {joint : Parser → Bool} {s : Text} {p q : Parser}

theorem outline_times {budget : Nat} {r : Repetition} (h : joint (p.times r)) :
    (p.times r).outline joint (budget + 1) =
      Action.times budget (p.outline joint (budget + 1)) r :=
  if_pos h

variable (hmap : ∀ p f, joint (.map p f)) (hbind : ∀ p f, joint (.bind p f))
  (htimes : ∀ p r, joint (.times p r))

include hmap hbind in
/-- What is put in front of both lists may be put in front of the first. -/
theorem map_concat (p q : Parser) (v : Value) :
    Equivalent joint s ((p.concat q).map fun back => .answer (.list (v :: back.items)))
      ((p.map fun back => .answer (.list (v :: back.items))).concat q) := by
  calc
    Equivalent joint s _ (p.bind fun front => (q.map fun back =>
        .answer (.list (front.items ++ back.items))).map fun back =>
          .answer (.list (v :: back.items))) := .map_bind hmap hbind p _ _
    Equivalent joint s _ (p.bind fun front => q.map fun back =>
        .answer (.list (v :: front.items ++ back.items))) :=
      .bind_congr hbind (.refl p) fun front => .map_map hmap q _ _
    Equivalent joint s _ _ := (Equivalent.bind_map hmap hbind p
      (fun front => .list (v :: front.items)) fun front => q.map fun back =>
        .answer (.list (front.items ++ back.items))).symm

include htimes in
/-- A row of copies makes the turns of a repetition. -/
theorem times_exactly (hseq : ∀ ps, joint (sequence ps)) (p : Parser) (a : Nat) :
    Equivalent joint s (p.times ⟨a, some a⟩) (sequence (List.replicate a p)) := by
  intro i hi hlen
  refine .of_outline fun n => ?_
  rw [outline_times (htimes _ _), outline_sequence (hseq _), List.map_replicate,
    Action.times_eq_seq]

include hmap hbind htimes

/-- The first of the required turns stands apart from the others. -/
theorem times_succ (p : Parser) (least : Nat) (most : Option Nat) :
    Equivalent joint s (p.times ⟨least + 1, most.map (· + 1)⟩)
      (p.cons (p.times ⟨least, most⟩)) := by
  intro i hi hlen
  refine .of_outline fun n => ?_
  simp only [cons, outline_bind (hbind _ _), outline_map (hmap _ _), outline_times (htimes _ _),
    Action.times_succ]

/-- A repetition that makes no turns adds nothing. -/
theorem times_zero_concat (p : Parser) (r : Repetition) :
    Equivalent joint s ((p.times ⟨0, some 0⟩).concat (p.times r)) (p.times r) := by
  intro i hi hlen
  refine .of_outline fun n => ?_
  have hnone : (p.times ⟨0, some 0⟩).outline joint (n + 1) s i =
      Pure.pure (Reply.ok i (.list [])) := by
    rw [outline_times (htimes _ _)]
    rfl
  have hback : ((p.times r).map fun back => .answer (.list ([] ++ back.items))).outline joint
      (n + 1) = (p.times r).outline joint (n + 1) := by
    rw [outline_map (hmap _ _), outline_times (htimes _ _)]
    exact Action.map_items_times _ _ _
  rw [concat, outline_bind (hbind _ _)]
  simp only [Action.bind, hnone, LawfulMonad.pure_bind, Reply.ok_status, Reply.ok_value,
    Reply.ok_index, if_true, Value.items_list, hback]
  exact Watched.bind_mergeWith_ok (x := (p.times r).outline joint (n + 1) s i)
    (fun w t w' ht => neg_one_le_furthest hi hlen ht) i (.list [])

/-- Turns that have to be made may be made first. -/
theorem times_after (p : Parser) (r : Repetition) (a : Nat) :
    Equivalent joint s (p.times ⟨a + r.least, r.most.map (a + ·)⟩)
      ((p.times ⟨a, some a⟩).concat (p.times r)) := by
  induction a with
  | zero =>
      have hzero : (⟨0 + r.least, r.most.map (0 + ·)⟩ : Repetition) = r := by simp
      rw [hzero]
      exact (times_zero_concat hmap hbind htimes p r).symm
  | succ a ih =>
      have hsucc : (⟨a + 1 + r.least, r.most.map (a + 1 + ·)⟩ : Repetition) =
          ⟨a + r.least + 1, (r.most.map (a + ·)).map (· + 1)⟩ := by
        simp [Nat.add_right_comm, Function.comp_def]
      rw [hsucc]
      calc
        Equivalent joint s _ (p.cons (p.times ⟨a + r.least, r.most.map (a + ·)⟩)) :=
          times_succ hmap hbind htimes p _ _
        Equivalent joint s _ (p.cons ((p.times ⟨a, some a⟩).concat (p.times r))) :=
          .bind_congr hbind (.refl p) fun v => ih.map_congr hmap _
        Equivalent joint s _ (p.bind fun v => ((p.times ⟨a, some a⟩).map
            fun back => .answer (.list (v :: back.items))).concat (p.times r)) :=
          .bind_congr hbind (.refl p) fun v => map_concat hmap hbind _ _ v
        Equivalent joint s _ ((p.cons (p.times ⟨a, some a⟩)).concat (p.times r)) :=
          (Equivalent.bind_assoc hbind p _ _).symm
        Equivalent joint s _ ((p.times ⟨a + 1, some (a + 1)⟩).concat (p.times r)) :=
          .bind_congr hbind (times_succ hmap hbind htimes p a (some a)).symm fun _ => .refl _

end Repetitions

end Parser

namespace Repetition

/-- What the greatest count of a repetition stands for. -/
def height (most : Option Nat) : WithTop Int :=
  most.elim ⊤ fun n => ((n : Int) : WithTop Int)

theorem height_injective : Function.Injective height := by
  intro most most' h
  cases most with
  | none =>
      cases most' with
      | none => rfl
      | some n => exact absurd h.symm WithTop.coe_ne_top
  | some n =>
      cases most' with
      | none => exact absurd h WithTop.coe_ne_top
      | some n' => exact congrArg some (Int.ofNat_inj.mp (WithTop.coe_inj.mp h))

/-- A count that a double can hold. -/
def Fits (n : Nat) : Prop :=
  Binary64.ofInt? n ≠ none

variable {least : Nat} {most : Option Nat} {bound : Number}

/-- The repetition that bounds in order make, if a double can hold the greatest. -/
theorem between_eq_ok (hbound : Greatest bound (height most))
    (hle : ∀ n, most = some n → least ≤ n) (hfits : ∀ n, most = some n → Fits n) :
    between (.int least) bound = .ok ⟨least, most⟩ := by
  have hordered : ((least : Int) : WithTop Int) ≤ height most := by
    cases most with
    | none => exact le_top
    | some n => exact WithTop.coe_le_coe.mpr (Int.ofNat_le.mpr (hle n rfl))
  have hholds (n : Int) (hn : height most = n) : Binary64.ofInt? n ≠ none := by
    cases most with
    | none => exact absurd hn.symm WithTop.coe_ne_top
    | some k =>
        rw [← WithTop.coe_inj.mp hn]
        exact hfits k rfl
  obtain ⟨⟨l, g⟩, hr, hleast, hmost⟩ :=
    exists_between_eq hbound (Int.natCast_nonneg least) hordered hholds
  cases Int.ofNat_inj.mp hleast
  cases height_injective hmost
  exact hr

theorem exactly_of_fits (h : Fits least) : exactly (.int least) = .ok ⟨least, some least⟩ := by
  refine between_eq_ok (.count least) ?_ ?_
  · rintro n ⟨⟩
    exact Nat.le_refl _
  · rintro n ⟨⟩
    exact h

theorem exactly_of_not_fits (h : ¬ Fits least) : exactly (.int least) = .error .tooLarge :=
  between_of_none (Int.natCast_nonneg least) (Int.le_refl _) (not_not.mp h)

theorem atLeastZero_natCast (n : Nat) : atLeastZero (.int n) = .int n := by
  unfold atLeastZero
  rw [less_int]
  split
  · rfl
  · next h =>
    have hzero : (n : Int) = 0 := by
      rw [decide_eq_true_iff] at h
      omega
    rw [hzero]

end Repetition

namespace Modifier

open Repetition (Greatest Fits height)

variable (bindings : Bindings) (p : Parser) {n : Nat} {most : Option Nat} {bound : Number}

theorem number_value (a : Number) : (Literal.value a.toValue).number bindings = .ok a := by
  cases a <;> rfl

theorem build_times (hbound : Greatest bound (height most)) (hle : ∀ k, most = some k → n ≤ k)
    (hfits : ∀ k, most = some k → Fits k) :
    (times (.value (.int n)) (some (.value bound.toValue))).build bindings p =
      .ok (p.times ⟨n, most⟩) := by
  have hleast : (Literal.value (.int n)).number bindings = .ok (.int n) := rfl
  simp only [build, greatest, hleast, number_value]
  change (do return p.times (← Repetition.between (.int n) bound)) = _
  rw [Repetition.between_eq_ok hbound hle hfits]
  rfl

theorem build_times_none (n : Int) : (times (.value (.int n)) none).build bindings p =
    (do return p.times (← Repetition.exactly (.int n))) := rfl

theorem build_atLeast (n : Int) : (atLeast (.value (.int n))).build bindings p =
    (do return p.andMany (← Repetition.exactly (.int n))) := rfl

theorem build_count (n : Nat) : (count (.value (.int n))).build bindings p =
    (do return p.times (← Repetition.exactly (.int n))) := by
  rw [← Repetition.atLeastZero_natCast]
  rfl

/-- The modifiers that ask for a count of occurrences. -/
def counting (n : Nat) : List Modifier :=
  [.times (.value (.int n)) none, .atLeast (.value (.int n)), .count (.value (.int n))]

/-- A count that no double can hold is refused. -/
theorem build_of_not_fits (h : ¬ Fits n) (m : Modifier) (hm : m ∈ counting n) :
    m.build bindings p = .error .tooLarge := by
  have hrefused := Repetition.exactly_of_not_fits h
  simp only [counting, List.mem_cons, List.not_mem_nil, or_false] at hm
  rcases hm with rfl | rfl | rfl
  · rw [build_times_none, hrefused]
    rfl
  · rw [build_atLeast, hrefused]
    rfl
  · rw [build_count, hrefused]
    rfl

end Modifier

namespace Parser

open Repetition (Greatest Fits height)

/-- The ways to ask for a number of occurrences agree wherever they are allowed to. A repetition
makes its required turns first and then the others; at least so many occurrences are a
repetition without a bound; the turns of an exact count may be split; a count makes the turns of
a row of copies; and one or more occurrences are one and then any number. Each pair of parsers
takes the same course at every offset of every input: the replies are the same in all respects,
or else the fault is, and the parser is started at the same offsets in the same order. They are
made if a double can hold the counts that they are made with, and refused otherwise. -/
theorem repetitions_regroup (p : Parser) (bindings : Bindings) (a b : Nat) (rest : Option Nat)
    (bound remaining endless : Number) (hbound : Greatest bound (height (rest.map (a + ·))))
    (hremaining : Greatest remaining (height rest)) (hendless : Greatest endless ⊤)
    (s : Text) (i : Int) (hi : 0 ≤ i) (hlen : i ≤ s.length) :
    (Fits a → (∀ n, rest = some n → Fits n ∧ Fits (a + n)) → ∃ whole front back,
      (Modifier.times (.value (.int a)) (some (.value bound.toValue))).build bindings p =
        .ok whole ∧
      (Modifier.times (.value (.int a)) none).build bindings p = .ok front ∧
      (Modifier.times (.value (.int 0)) (some (.value remaining.toValue))).build bindings p =
        .ok back ∧
      SameCourse isGathering s i whole (front.concat back)) ∧
    (Fits a → ∃ least whole,
      (Modifier.atLeast (.value (.int a))).build bindings p = .ok least ∧
      (Modifier.times (.value (.int a)) (some (.value endless.toValue))).build bindings p =
        .ok whole ∧
      SameCourse isGathering s i least whole) ∧
    (Fits a → Fits b → Fits (a + b) → ∃ whole front back,
      (Modifier.times (.value (.int (a + b : Nat))) none).build bindings p = .ok whole ∧
      (Modifier.times (.value (.int a)) none).build bindings p = .ok front ∧
      (Modifier.times (.value (.int b)) none).build bindings p = .ok back ∧
      SameCourse isGathering s i whole (front.concat back)) ∧
    (Fits a → ∃ copies, (Modifier.count (.value (.int a))).build bindings p = .ok copies ∧
      SameCourse isGathering s i copies (sequence (List.replicate a p))) ∧
    (∃ several, Modifier.many1.build bindings p = .ok several ∧
      SameCourse isGathering s i several (p.cons p.many)) ∧
    (¬ Fits a → ∀ m ∈ Modifier.counting a, m.build bindings p = .error .tooLarge) := by
  have hmap (p : Parser) (f : Value → Call Value) : isGathering (.map p f) := rfl
  have hbind (p : Parser) (f : Value → Parser) : isGathering (.bind p f) := rfl
  have htimes (p : Parser) (r : Repetition) : isGathering (.times p r) := rfl
  have hseq (ps : List Parser) : isGathering (sequence ps) := rfl
  have hexactly {n : Nat} (h : Fits n) : (Modifier.times (.value (.int n)) none).build bindings p =
      .ok (p.times ⟨n, some n⟩) := by
    rw [Modifier.build_times_none, Repetition.exactly_of_fits h]
    rfl
  refine ⟨fun ha hrest => ?_, fun ha => ?_, fun ha hb hab => ?_, fun ha => ?_, ?_,
    Modifier.build_of_not_fits bindings p⟩
  · refine ⟨p.times ⟨a, rest.map (a + ·)⟩, p.times ⟨a, some a⟩, p.times ⟨0, rest⟩,
      Modifier.build_times bindings p hbound ?_ ?_, hexactly ha,
      Modifier.build_times bindings p hremaining ?_ fun n hn => (hrest n hn).1,
      times_after hmap hbind htimes p ⟨0, rest⟩ a i hi hlen⟩
    · intro n hn
      obtain ⟨k, -, rfl⟩ := Option.map_eq_some_iff.mp hn
      exact Nat.le_add_right a k
    · intro n hn
      obtain ⟨k, hk, rfl⟩ := Option.map_eq_some_iff.mp hn
      exact (hrest k hk).2
    · exact fun n _ => Nat.zero_le n
  · refine ⟨p.andMany ⟨a, some a⟩, p.times ⟨a, none⟩, ?_,
      Modifier.build_times bindings p hendless ?_ ?_,
      (times_after hmap hbind htimes p .any a i hi hlen).symm⟩
    · rw [Modifier.build_atLeast, Repetition.exactly_of_fits ha]
      rfl
    · exact fun n hn => by cases hn
    · exact fun n hn => by cases hn
  · exact ⟨_, _, _, hexactly hab, hexactly ha, hexactly hb,
      times_after hmap hbind htimes p ⟨b, some b⟩ a i hi hlen⟩
  · refine ⟨p.times ⟨a, some a⟩, ?_, times_exactly htimes hseq p a i hi hlen⟩
    rw [Modifier.build_count, Repetition.exactly_of_fits ha]
    rfl
  · refine ⟨p.many1, rfl, ?_⟩
    have hmany1 : SameCourse isGathering s i p.many1 (p.times ⟨1, none⟩) :=
      (times_after hmap hbind htimes p .any 1 i hi hlen).symm
    exact hmany1.trans (times_succ hmap hbind htimes p 0 none i hi hlen)

/-- One turn and then up to two more, of which the last is refused where the turn before it had
met a failure: the repetition and its two parts report both. -/
theorem repetitions_regroup_of_refused_turn :
    let p := ((Parser.string "a").andThen (.string "b")).orElse (.string "a")
    let s := ['-', 'a', 'b', 'a', 'c']
    (Fits 1 ∧ Fits 2 ∧ Fits (1 + 2)) ∧
    (Modifier.times (.value (.int 1)) (some (.value (.int 3)))).build [] p =
      .ok (p.times ⟨1, some 3⟩) ∧
    (∃ r w', (p.times ⟨1, some 3⟩).run 1 s 1 {} = .ok r w' ∧
      r.index = 4 ∧ r.furthest = 4 ∧ r.expected.toList = ["'a'", "'b'"]) ∧
    SameCourse isGathering s 1 (p.times ⟨1, some 3⟩)
      ((p.times ⟨1, some 1⟩).concat (p.times ⟨0, some 2⟩)) := by
  have hfits (n : Nat) (h : (Binary64.ofInt? n).isSome) : Fits n :=
    Option.isSome_iff_ne_none.mp h
  have hone : Fits 1 := hfits 1 (by decide +kernel)
  have htwo : Fits 2 := hfits 2 (by decide +kernel)
  have hthree : Fits (1 + 2) := hfits 3 (by decide +kernel)
  have hrest (n : Nat) (hn : some 2 = some n) : Fits n ∧ Fits (1 + n) := by
    cases hn
    exact ⟨htwo, hthree⟩
  have hendless : Greatest (.float (Binary64.signed false Binary64.infinityBits)) ⊤ :=
    .endless rfl rfl
  obtain ⟨whole, front, back, hwhole, hfront, hback, hcourse⟩ :=
    (repetitions_regroup (((Parser.string "a").andThen (.string "b")).orElse (.string "a")) []
      1 0 (some 2) _ _ _ (.count 3) (.count 2) hendless ['-', 'a', 'b', 'a', 'c'] 1 (by decide)
      (by decide)).1 hone hrest
  refine ⟨⟨hone, htwo, hthree⟩, rfl, ⟨_, _, rfl, rfl, rfl, rfl⟩, ?_⟩
  cases hwhole
  cases hfront
  cases hback
  exact hcourse

/-- Not every count can be asked for as a least one: one that no double can hold is refused,
while the repetition from that count on without a bound is made. -/
theorem not_forall_least_count_made :
    ¬ ∀ (p : Parser) (a : Nat) (endless : Number), Greatest endless ⊤ → ∀ whole,
      (Modifier.times (.value (.int a)) (some (.value endless.toValue))).build [] p = .ok whole →
      ∃ least, (Modifier.atLeast (.value (.int a))).build [] p = .ok least ∧
        ∀ s i, 0 ≤ i → i ≤ (s.length : Int) → SameCourse isGathering s i least whole := by
  intro h
  have hendless : Greatest (.float (Binary64.signed false Binary64.infinityBits)) ⊤ :=
    .endless rfl rfl
  have hlarge : ¬ Fits (Binary64.tenTo 400) := by
    intro hfits
    exact absurd (Option.isSome_iff_ne_none.mpr hfits) (by decide +kernel)
  have hmade : (Modifier.times (.value (.int (Binary64.tenTo 400 : Nat)))
      (some (.value (Number.float (Binary64.signed false Binary64.infinityBits)).toValue))).build
        [] (.string "a") = .ok ((Parser.string "a").times ⟨Binary64.tenTo 400, none⟩) :=
    Modifier.build_times [] (.string "a") hendless (fun k hk => by cases hk) fun k hk => by cases hk
  obtain ⟨least, hleast, -⟩ := h _ _ _ hendless _ hmade
  have hrefused := Modifier.build_of_not_fits [] (.string "a") hlarge
    (.atLeast (.value (.int (Binary64.tenTo 400)))) (by simp [Modifier.counting])
  cases hrefused.symm.trans hleast

end Parser

end Descent
