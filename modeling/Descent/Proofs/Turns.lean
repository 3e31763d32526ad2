/-
# Turns of loops

Loops without a bound of their own are bounded by the input: every turn but the last
consumes something. The visits of a run show how many turns each loop has made, whichever
way it ended and also if it was cut short. A repetition without a greatest count makes its
least count of turns first, and then at most one turn more than there are characters
left; the same holds of a loop that ends where another parser succeeds.
-/

import Descent.Proofs.ReplyInvariant

namespace Descent

namespace Visit

/-- The visited parser and the offset it was started at. -/
def start : Visit → Parser × Int
  | .mk p i _ _ => (p, i)

/-- The offset that the visited parser was started at. -/
def offset (v : Visit) : Int :=
  v.start.2

mutual

/-- The visits made in a visit, itself first. -/
def all : Visit → List Visit
  | .mk p i reply parts => .mk p i reply parts :: allOf parts

/-- The visits made in visits one after another. -/
def allOf : List Visit → List Visit
  | [] => []
  | v :: vs => v.all ++ allOf vs

end

mutual

theorem starts_eq_map : ∀ v : Visit, v.starts = v.all.map start
  | .mk p i reply parts => by simp [starts, all, start, startsOf_eq_map parts]

theorem startsOf_eq_map : ∀ vs : List Visit, startsOf vs = (allOf vs).map start
  | [] => rfl
  | v :: vs => by simp [startsOf, allOf, starts_eq_map v, startsOf_eq_map vs]

end

theorem allOf_append (us vs : List Visit) : allOf (us ++ vs) = allOf us ++ allOf vs := by
  induction us with
  | nil => rfl
  | cons u us ih => simp [allOf, ih]

/-- A loop without a bound of its own makes at most one turn more than there are characters
left where it starts. The turns that a repetition has to make come first and do not
count. A loop that ends where another parser succeeds makes up to two visits a turn. -/
structure Frugal (s : Text) (v : Visit) : Prop where
  times : ∀ q least i reply parts first rest, v = .mk (.times q ⟨least, none⟩) i reply parts →
    parts.drop least = first :: rest →
    i ≤ first.offset ∧ ((first :: rest).length : Int) ≤ s.length - first.offset + 1
  manyTill : ∀ q stop i reply parts, v = .mk (.manyTill q stop) i reply parts →
    (parts.length : Int) ≤ 2 * (s.length - i + 1)

theorem frugal_handle {s : Text} {p : Parser} (h : p.IsHandle) (i : Int) (reply : Option Reply)
    (parts : List Visit) : (Visit.mk p i reply parts).Frugal s := by
  constructor
  · intro q least j reply' parts' first rest heq
    cases heq
    cases h
  · intro q stop j reply' parts' heq
    cases heq
    cases h

end Visit

namespace Watched

/-- An action that is one visit and stops inside the input. -/
def Turn (s : Text) (p : ActionIn Watched) : Prop :=
  ∀ (i : Int) w, 0 ≤ i → i ≤ s.length → ∃ v : Visit, v.offset = i ∧
    ((∃ halt u, p s i w = ([v], .error halt u)) ∨
      ∃ r u, p s i w = ([v], .ok r u) ∧ (r.status = true → i ≤ r.index ∧ r.index ≤ s.length))

theorem turn_visit {q : Parser} {act : ActionIn Watched} (h : Faithful (visit q act)) (s : Text) :
    Turn s (visit q act) := by
  intro i w h0 hlen
  have hpost := (h s i h0 hlen w).2
  rcases hact : act s i w with ⟨parts, ⟨r, u⟩ | ⟨halt, u⟩⟩
  · have hvisit : visit q act s i w = ([.mk q i (some r) parts], .ok r u) := by
      unfold visit
      rw [hact]
    rw [hvisit] at hpost
    exact ⟨_, rfl, .inr ⟨r, u, hvisit, (hpost r u rfl).success⟩⟩
  · have hvisit : visit q act s i w = ([.mk q i none parts], .error halt u) := by
      unfold visit
      rw [hact]
    exact ⟨_, rfl, .inl ⟨halt, u, hvisit⟩⟩

variable {s : Text} {p q : ActionIn Watched} {i : Int}

/-- Each further turn but the last consumes something. -/
theorem Turn.unbounded (hp : Turn s p) (turns : Nat) (h0 : 0 ≤ i) (hlen : i ≤ s.length)
    (context : Option Reply) (values : List Value) (w : World) :
    ((Action.unbounded p s turns i context values w).1.length : Int) ≤ s.length - i + 1 ∧
      ∀ first rest, (Action.unbounded p s turns i context values w).1 = first :: rest →
        first.offset = i := by
  induction turns generalizing i w context values with
  | zero =>
      refine ⟨?_, fun first rest h => by cases h⟩
      change (0 : Int) ≤ _
      omega
  | succ turns ih =>
      unfold Action.unbounded
      obtain ⟨v, hv, ⟨halt, u, hend⟩ | ⟨r, u, hend, hindex⟩⟩ := hp i w h0 hlen
      · rw [bind_of_error hend]
        refine ⟨by simp only [List.length_singleton]; omega, fun first rest h => ?_⟩
        cases h
        exact hv
      · rw [bind_of_ok hend]
        refine ⟨?_, fun first rest h => ?_⟩
        · simp only [List.length_append, List.length_singleton]
          split
          · change ((1 + 0 : Nat) : Int) ≤ _
            omega
          · next hok =>
            split
            · change ((1 + 0 : Nat) : Int) ≤ _
              omega
            · next hmoved =>
              obtain ⟨hle, hupper⟩ := hindex (by simpa using hok)
              have hturns := (ih (Int.le_trans h0 hle) hupper (some (r.merge context))
                (r.value :: values) u).1
              omega
        · cases h
          exact hv

/-- The turns that must be made are left behind by dropping as many visits. -/
theorem Turn.required (hp : Turn s p) {done : Int → Option Reply → List Value → Watched Reply}
    (count : Nat) (h0 : 0 ≤ i) (hlen : i ≤ s.length) (context : Option Reply)
    (values : List Value) (w : World) :
    (Action.required p s done count i context values w).1.drop count = [] ∨
      ∃ j context' values' u, i ≤ j ∧ j ≤ s.length ∧
        (Action.required p s done count i context values w).1.drop count =
          (done j context' values' u).1 := by
  induction count generalizing i w context values with
  | zero => exact .inr ⟨i, context, values, w, Int.le_refl i, hlen, rfl⟩
  | succ count ih =>
      unfold Action.required
      obtain ⟨v, -, ⟨halt, u, hend⟩ | ⟨r, u, hend, hindex⟩⟩ := hp i w h0 hlen
      · rw [bind_of_error hend]
        exact .inl (by simp)
      · rw [bind_of_ok hend]
        simp only [List.singleton_append, List.drop_succ_cons]
        split
        · next hok =>
          obtain ⟨hle, hupper⟩ := hindex hok
          refine (ih (Int.le_trans h0 hle) hupper _ _ u).imp_right ?_
          rintro ⟨j, context', values', u', hj, hjlen, heq⟩
          exact ⟨j, context', values', u', Int.le_trans hle hj, hjlen, heq⟩
        · exact .inl List.drop_nil

/-- A loop that ends where another action succeeds makes two visits in each turn but the
last, in which it may make one only. -/
theorem Turn.turnsTill (hp : Turn s p) (hq : Turn s q) (turns : Nat) (h0 : 0 ≤ i)
    (hlen : i ≤ s.length) (context : Option Reply) (values : List Value) (w : World) :
    ((Action.turnsTill p q s turns i context values w).1.length : Int) ≤
      2 * (s.length - i + 1) := by
  induction turns generalizing i w context values with
  | zero =>
      change (0 : Int) ≤ _
      omega
  | succ turns ih =>
      unfold Action.turnsTill
      obtain ⟨v, -, ⟨halt, u, hend⟩ | ⟨ended, u, hend, -⟩⟩ := hq i w h0 hlen
      · rw [bind_of_error hend]
        simp only [List.length_singleton]
        omega
      · rw [bind_of_ok hend]
        simp only [List.length_append, List.length_singleton]
        split
        · change ((1 + 0 : Nat) : Int) ≤ _
          omega
        · obtain ⟨v', -, ⟨halt, t, hturn⟩ | ⟨r, t, hturn, hindex⟩⟩ := hp i u h0 hlen
          · rw [bind_of_error hturn]
            simp only [List.length_singleton]
            omega
          · rw [bind_of_ok hturn]
            simp only [List.length_append, List.length_singleton]
            split
            · change ((1 + (1 + 0) : Nat) : Int) ≤ _
              omega
            · next hok =>
              split
              · change ((1 + (1 + 0) : Nat) : Int) ≤ _
                omega
              · next hmoved =>
                simp only [Reply.mergeWith_status, Reply.mergeWith_index] at hok hmoved ⊢
                obtain ⟨hle, hupper⟩ := hindex (by simpa using hok)
                have hturns := ih (Int.le_trans h0 hle) hupper
                  (some (r.mergeWith (ended.merge context)))
                  ((r.mergeWith (ended.merge context)).value :: values) t
                omega

/-- No loop of a watched step makes too many turns, as far as it starts inside the input. -/
def Spends (s : Text) {α : Type} (x : Watched α) : Prop :=
  ∀ w, ∀ v ∈ Visit.allOf (x w).1, 0 ≤ v.offset → v.offset ≤ s.length → v.Frugal s

theorem spends_lift (s : Text) (x : Run α) : Spends s (liftM x : Watched α) := by
  intro w v hv
  cases hv

theorem Spends.bind {x : Watched α} {f : α → Watched β} (hx : Spends s x)
    (hf : ∀ a, Spends s (f a)) : Spends s (x >>= f) := by
  intro w v hv
  rcases hxw : x w with ⟨vs, ⟨a, u⟩ | ⟨halt, u⟩⟩
  · rw [bind_of_ok hxw, Visit.allOf_append] at hv
    rcases List.mem_append.mp hv with hv | hv
    · exact hx w v (by rw [hxw]; exact hv)
    · exact hf a u v hv
  · rw [bind_of_error hxw] at hv
    exact hx w v (by rw [hxw]; exact hv)

/-- Watched steps as far as they do not spend too many turns, whatever is done beside. -/
def spending (s : Text) : Correspondence Watched Run where
  rel x _ := Spends s x
  pure a := spends_lift s (Pure.pure a)
  bind hx hf := hx.bind hf
  plain _ := spends_lift s _
  unfinished := spends_lift s _

/-- A visit has the visits made in its course as its parts. -/
theorem exists_visit_fst (p : Parser) (act : ActionIn Watched) (s : Text) (i : Int) (w : World) :
    ∃ reply, (visit p act s i w).1 = [.mk p i reply (act s i w).1] := by
  unfold visit
  rcases act s i w with ⟨parts, ⟨r, u⟩ | ⟨halt, u⟩⟩
  · exact ⟨some r, rfl⟩
  · exact ⟨none, rfl⟩

/-- A visit does not spend too many turns if it does not do so itself, nor any visit made
in its course. -/
theorem Spends.visit {p : Parser} {act : ActionIn Watched} (hact : Spends s (act s i))
    (hself : ∀ reply w, 0 ≤ i → i ≤ s.length →
      (Visit.mk p i reply (act s i w).1).Frugal s) : Spends s (visit p act s i) := by
  intro w v hv h0 hlen
  obtain ⟨reply, hvisit⟩ := exists_visit_fst p act s i w
  rw [hvisit] at hv
  simp only [Visit.allOf, Visit.all, List.append_nil] at hv
  rcases List.mem_cons.mp hv with rfl | hv
  · exact hself reply w h0 hlen
  · exact hact w v hv h0 hlen

/-- What a parser does by itself is known from the visits. -/
theorem parts_eq {p : Parser} {act act' : ActionIn Watched}
    (h : Watched.visit p act = Watched.visit p act') (s : Text) (i : Int) (w : World) :
    (act s i w).1 = (act' s i w).1 := by
  obtain ⟨reply, hvisit⟩ := exists_visit_fst p act s i w
  obtain ⟨reply', hvisit'⟩ := exists_visit_fst p act' s i w
  rw [h, hvisit'] at hvisit
  simp only [List.cons.injEq, Visit.mk.injEq] at hvisit
  exact hvisit.1.2.2.2.symm

variable {descend : Parser → ActionIn Watched} {turns : Nat}

theorem turn_action (hdescend : ∀ q, Faithful (descend q)) (turns : Nat) (p : Parser) (s : Text) :
    Turn s (p.action Watched.visit descend turns) := by
  have hfaithful := faithful_action hdescend turns p
  obtain ⟨act, hact⟩ := p.exists_action_eq_visit descend turns
  rw [hact] at hfaithful ⊢
  exact turn_visit hfaithful s

/-- What a parser does by itself does not take too many turns. -/
theorem frugal_action (hdescend : ∀ q, Faithful (descend q)) {p : Parser}
    {act : ActionIn Watched} (hact : p.action Watched.visit descend turns = Watched.visit p act)
    (h0 : 0 ≤ i) (hlen : i ≤ s.length) (reply : Option Reply) (w : World) :
    (Visit.mk p i reply (act s i w).1).Frugal s := by
  constructor
  · rintro q least j reply' parts first rest heq hdrop
    cases heq
    have hq := turn_action hdescend turns q s
    have hparts : (act s i w).1 = (Action.required (q.action Watched.visit descend turns) s
        (Action.unbounded (q.action Watched.visit descend turns) s turns) least i none [] w).1 :=
      (parts_eq hact s i w).symm
    rw [hparts] at hdrop
    rcases hq.required least h0 hlen none [] w with hnil | ⟨j, context, values, u, hj, hjlen, hend⟩
    · rw [hnil] at hdrop
      cases hdrop
    · obtain ⟨hlength, hfirst⟩ := hq.unbounded turns (Int.le_trans h0 hj) hjlen context values u
      rw [← hend, hdrop] at hlength
      have hoffset : first.offset = j := hfirst first rest (hend ▸ hdrop)
      rw [hoffset]
      exact ⟨hj, hlength⟩
  · rintro q stop j reply' parts heq
    cases heq
    have hparts : (act s i w).1 = (Action.turnsTill (q.action Watched.visit descend turns)
        (stop.action Watched.visit descend turns) s turns i none [] w).1 :=
      (parts_eq hact s i w).symm
    rw [hparts]
    exact (turn_action hdescend turns q s).turnsTill (turn_action hdescend turns stop s) turns h0
      hlen none [] w

/-- Following a handle leads to no loop of its own. -/
theorem spends_follow (hdescend : ∀ q i, Spends s (descend q s i)) (p : Parser) (i : Int) :
    Spends s (p.follow descend s i) := by
  refine (spends_lift s (Run.behaviour p)).bind fun b => ?_
  cases b with
  | run q => exact hdescend q i
  | unbound r =>
      have hrecord := spends_lift s (Run.record .warning .references
        s!"reference used before assignment at offset {i}")
      exact hrecord.bind fun _ => spends_lift s (Pure.pure _)
  | dispatch r =>
      refine (spends_lift s (Run.enterReference r)).bind ?_
      rintro (_ | target)
      · exact spends_lift s (Run.fault _)
      · exact hdescend target i
  | build l => exact (spends_lift s (Behaviour.buildRule l)).bind fun _ => hdescend (.deferred l) i

/-- No loop in the course of a run makes too many turns. -/
theorem spends_watched (budget : Nat) (p : Parser) (s : Text) (i : Int) :
    Spends s (p.watched budget s i) := by
  have agrees : ∀ p : Parser, (spending s).Agree s (p.watched budget) (p.run budget) := by
    induction budget with
    | zero => exact fun _ _ => (spending s).unfinished
    | succ budget ih =>
        intro p
        apply (spending s).agree_action
        · intro p act act' _ heq _ hact i
          exact (hact i).visit fun reply w h0 hlen =>
            frugal_action (faithful_watched budget) heq h0 hlen reply w
        · intro p hhandle i
          exact Spends.visit (spends_follow ih p i) fun reply w _ _ =>
            Visit.frugal_handle hhandle i reply _
        · exact fun d bindings i => (spends_lift s (d.build bindings)).bind fun q => ih q i
  exact agrees p i

end Watched

/-- Every loop in the course of a run inside the input starts inside the input and makes no
more turns than it takes to consume all that is left, and one more. -/
theorem Parser.frugal_of_watched {budget : Nat} {p : Parser} {s : Text} {i : Int} {w : World}
    {v : Visit} (h0 : 0 ≤ i) (hlen : i ≤ s.length)
    (hv : v ∈ Visit.allOf (p.watched budget s i w).1) :
    i ≤ v.offset ∧ v.offset ≤ s.length ∧ v.Frugal s := by
  have hstart : v.start ∈ Visit.startsOf (p.watched budget s i w).1 := by
    rw [Visit.startsOf_eq_map]
    exact List.mem_map_of_mem hv
  obtain ⟨hle, hupper⟩ := (Watched.faithful_watched budget p s i h0 hlen w).1 _ hstart
  have hlower : 0 ≤ v.offset := Int.le_trans h0 hle
  exact ⟨hle, hupper, Watched.spends_watched budget p s i w v hv hlower hupper⟩

end Descent
