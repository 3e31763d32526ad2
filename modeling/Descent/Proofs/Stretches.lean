/-
# Stretches of text

Several characters can be read at once, by a given text, by a loop over the input or by a
pattern, or one after another by parsers of single characters. Both ways find the same stretch
of the input, and where the characters do not come they fail alike. What is compared is how a
reply ends; the failures on the way differ, because reading one by one meets a failure where a
stretch is over.
-/

import Descent.Proofs.Equivalence
import Descent.Proofs.Grammar.Reading

namespace Descent

/-- How a reply ends, without the failures on the way. -/
structure Ending where
  status : Bool
  index : Int
  value : Value

namespace Reply

/-- How the reply ends. -/
def ending (r : Reply) : Ending :=
  ⟨r.status, r.index, r.value⟩

@[simp] theorem error_status (i : Int) (d : String) : (error i d).status = false := rfl

@[simp] theorem ending_merge (newer : Reply) (context : Option Reply) :
    (newer.merge context).ending = newer.ending := by
  simp [ending]

@[simp] theorem ending_mergeWith (newer older : Reply) :
    (newer.mergeWith older).ending = newer.ending := by
  simp [ending]

@[simp] theorem ending_ok (i : Int) (v : Value) : (ok i v).ending = ⟨true, i, v⟩ := rfl

@[simp] theorem ending_error (i : Int) (d : String) : (error i d).ending = ⟨false, -1, .null⟩ := rfl

end Reply

/-- Texts of single characters are joined to the text of them all. -/
theorem Value.joined_characters (t : Text) :
    (Value.list (t.map fun c => .text [c])).joined = .ok (.text t) := by
  have hstrings : strings? (t.map fun c => .text [c]) =
      some (t.map fun c => String.ofList [c]) := by
    induction t with
    | nil => rfl
    | cons c t ih =>
        rw [List.map_cons, List.map_cons]
        change (strings? (t.map fun c => Value.text [c])).map _ = _
        rw [ih]
        rfl
  have hjoin : String.join (t.map fun c => String.ofList [c]) = String.ofList t := by
    apply String.toList_injective
    rw [String.toList_join, List.flatMap_map]
    simp
  unfold Value.joined
  simp only [hstrings, hjoin]
  rfl

namespace Parser

/-- How a parser ends. -/
def ending (p : Parser) (n : Nat) (s : Text) (i : Int) : Run Ending :=
  Reply.ending <$> p.run n s i

/-- How a map ends can be told from how the parser ends that it is made of. -/
theorem ending_map (p : Parser) (f : Value → Call Value) (n : Nat) (s : Text) (i : Int) :
    (p.map f).ending (n + 1) s i = do
      let e ← p.ending (n + 1) s i
      if e.status then
        let v ← Run.ofCall (f e.value)
        return ⟨true, e.index, v⟩
      else return e := by
  change Reply.ending <$> Action.map (p.run (n + 1)) f s i = _
  rw [ending, bind_map_left, Action.map, map_bind]
  refine bind_congr fun reply => ?_
  by_cases hok : reply.status
  · simp [hok, Reply.ending]
  · simp [hok, Reply.ending]

/-- The texts in a list, joined to one. -/
def joined (p : Parser) : Parser :=
  p.map fun v => Callback.join.apply [v]

theorem ofCall_join (t : Text) :
    Run.ofCall (Callback.join.apply [.list (t.map fun c => .text [c])]) = Pure.pure (.text t) :=
  congrArg (fun r => Run.ofCall (.ofExcept r)) (Value.joined_characters t)

section Rows

variable (n : Nat) (before ahead : Text)

theorem run_char_append (c x : Char) (more : Text) :
    (char (.text [c])).run (n + 1) (before ++ x :: more) before.length =
      Pure.pure (if x = c then .ok (before.length + 1) (.text [x])
        else .error before.length ("'" ++ (Value.text [c]).shown ++ "'")) := by
  have hsame : (Value.text [x]).same (.text [c]) = (x == c) := by
    simp [Value.text, Value.same]
  have hcall : Run.ofCall (.ofExcept (.ok ((Value.text [x]).same (.text [c])))) =
      Pure.pure (x == c) := by
    rw [hsame]
    rfl
  change Action.label (Action.satisfy _ _) _ _ _ = _
  simp only [Action.label, Action.satisfy_append, hcall, pure_bind]
  by_cases hx : x = c
  · simp [hx]
  · simp only [if_neg hx, beq_false_of_ne hx, Bool.false_eq_true, if_false, pure_bind]
    rfl

theorem run_char_end (c : Char) :
    (char (.text [c])).run (n + 1) (before ++ []) before.length =
      Pure.pure (.error before.length ("'" ++ (Value.text [c]).shown ++ "'")) := by
  change Action.label (Action.satisfy _ _) _ _ _ = _
  simp only [Action.label, Action.satisfy_end]
  rfl

/-- A row of characters ends as it must if the text ahead does or does not start with them. -/
theorem ending_row (t : Text) (context : Option Reply) (values : List Value) :
    Reply.ending <$> Action.seqFrom (before ++ ahead)
        (t.map fun c => (char (.text [c])).run (n + 1)) before.length context values =
      Pure.pure (if t <+: ahead then
        ⟨true, before.length + t.length, .list (values.reverse ++ t.map fun c => .text [c])⟩
      else ⟨false, -1, .null⟩) := by
  -- The place moves on with each character that is met; what was merged so far has no part in it.
  induction t generalizing before ahead context values with
  | nil => simp [Action.seqFrom, Action.listReply]
  | cons c t ih =>
      cases ahead with
      | nil =>
          simp only [List.map_cons, Action.seqFrom, run_char_end]
          simp
      | cons x more =>
          simp only [List.map_cons, Action.seqFrom, run_char_append]
          by_cases hx : x = c
          · subst hx
            have hnext := ih (before ++ [x]) more
              (some ((Reply.ok (before.length + 1) (.text [x])).merge context))
              (.text [x] :: values)
            have hindex :
                (before.length : Int) + (t.length + 1) = before.length + 1 + t.length := by
              omega
            simpa [List.cons_prefix_cons, hindex] using hnext
          · simp [hx, Ne.symm hx]

theorem ending_sequence_char (t : Text) :
    (sequence (t.map fun c => char (.text [c]))).ending (n + 1) (before ++ ahead) before.length =
      Pure.pure (if t <+: ahead then
        ⟨true, before.length + t.length, .list (t.map fun c => .text [c])⟩
      else ⟨false, -1, .null⟩) := by
  rw [ending, run_sequence, List.map_map]
  exact ending_row n before ahead t none []

theorem ending_string (t : String) :
    (Parser.string t).ending (n + 1) (before ++ ahead) before.length =
      Pure.pure (if t.toList <+: ahead then ⟨true, before.length + t.length, .str t⟩
        else ⟨false, -1, .null⟩) := by
  change Reply.ending <$> Action.string t (before ++ ahead) before.length = _
  rw [Action.string_append]
  by_cases hahead : t.toList <+: ahead
  · simp [hahead]
  · simp [hahead]

/-- A given text is read exactly if the input goes on with it, and is missed where it was looked
for. -/
theorem exists_run_string (t : String) {s : Text} {i : Int} (hi : 0 ≤ i) (hlen : i ≤ s.length)
    (w : World) :
    ∃ r, (Parser.string t).run (n + 1) s i w = .ok r w ∧
      (r.status = true ↔ t.toList <+: s.drop i.toNat) ∧ (r.status = false → r.furthest = i) := by
  obtain ⟨before, ahead, rfl, rfl⟩ := Text.exists_eq_append hi hlen
  have hrun := congrFun (Action.string_append t before ahead) w
  rw [Int.toNat_natCast, List.drop_left]
  by_cases hahead : t.toList <+: ahead
  · rw [if_pos hahead] at hrun
    exact ⟨_, hrun, by simp [hahead], by simp⟩
  · rw [if_neg hahead] at hrun
    exact ⟨_, hrun, by simp [hahead], fun _ => rfl⟩

/-- A given text is read as its characters are in a row. -/
theorem ending_string_eq (t : String) {s : Text} {i : Int} (hi : 0 ≤ i) (hlen : i ≤ s.length) :
    (Parser.string t).ending n s i =
      (sequence (t.toList.map fun c => char (.text [c]))).joined.ending n s i := by
  obtain ⟨before, ahead, rfl, rfl⟩ := Text.exists_eq_append hi hlen
  cases n with
  | zero => rfl
  | succ n =>
      rw [ending_string, joined, ending_map, ending_sequence_char]
      by_cases hahead : t.toList <+: ahead
      · simp only [hahead, if_true, pure_bind, ofCall_join]
        simp [Value.text, String.length_toList]
      · simp [hahead]

end Rows

section Repetitions

/-- A repetition of tests of single characters ends where the first of them is not met. -/
theorem ending_unbounded (test : Char → Call Bool) (expected : String) (before ahead : Text)
    (budget : Nat) (context : Option Reply) (values : List Value)
    (hbudget : ahead.length < budget) :
    Reply.ending <$> Action.unbounded (Action.satisfy test expected) (before ++ ahead) budget
        before.length context values = do
      let count ← Action.countWhile test ahead
      return ⟨true, before.length + count,
        .list (values.reverse ++ (ahead.take count).map fun c => .text [c])⟩ := by
  -- Both go through the text ahead; the repetition ends by the turn that fails.
  induction ahead generalizing before budget context values with
  | nil =>
      obtain ⟨budget, rfl⟩ : ∃ m, budget = m + 1 := ⟨budget - 1, by omega⟩
      simp only [Action.unbounded, Action.satisfy_end]
      simp [Action.listReply, Action.countWhile]
  | cons c more ih =>
      obtain ⟨budget, rfl⟩ : ∃ m, budget = m + 1 := ⟨budget - 1, by omega⟩
      simp only [Action.unbounded, Action.satisfy_append, Action.countWhile, bind_assoc, map_bind]
      refine bind_congr fun met => ?_
      cases met with
      | false => simp [Action.listReply]
      | true =>
          have hnext := ih (before ++ [c]) budget
            (some ((Reply.ok (before.length + 1) (.text [c])).merge context)) (.text [c] :: values)
            (Nat.lt_of_succ_lt_succ hbudget)
          have hindex (count : Nat) :
              (before.length : Int) + (count + 1) = before.length + 1 + count := by
            omega
          have hmoves : (before.length : Int) + 1 ≠ before.length := by
            omega
          simpa [hindex, hmoves] using hnext

theorem ending_many_satisfy (test : Char → Call Bool) (expected : String) (before : Text)
    {ahead : Text} {n : Nat} (hn : ahead.length < n) :
    (Parser.satisfy test expected).many.ending (n + 1) (before ++ ahead) before.length = do
      let count ← Action.countWhile test ahead
      return ⟨true, before.length + count, .list ((ahead.take count).map fun c => .text [c])⟩ :=
  ending_unbounded test expected before ahead n none [] hn

theorem ending_takeWhile (test : Char → Call Bool) (n : Nat) (before ahead : Text) :
    (Parser.takeWhile test).ending (n + 1) (before ++ ahead) before.length = do
      let count ← Action.countWhile test ahead
      return ⟨true, before.length + count, .text (ahead.take count)⟩ := by
  change Reply.ending <$> Action.takeWhile test (before ++ ahead) before.length = _
  rw [Action.takeWhile_append, map_bind]
  rfl

/-- The longest run of characters that meet a test is read as the characters are one by one. -/
theorem ending_takeWhile_eq (test : Char → Call Bool) (expected : String) {n : Nat} {s : Text}
    {i : Int} (hi : 0 ≤ i) (hlen : i ≤ s.length) (hn : s.length < n) :
    (Parser.takeWhile test).ending (n + 1) s i =
      (Parser.satisfy test expected).many.joined.ending (n + 1) s i := by
  obtain ⟨before, ahead, rfl, rfl⟩ := Text.exists_eq_append hi hlen
  rw [List.length_append] at hn
  rw [ending_takeWhile, joined, ending_map, ending_many_satisfy test expected before (by omega)]
  simp only [bind_assoc, pure_bind, if_true, ofCall_join]

end Repetitions

/-- What a count of characters that meet a test comes to: a run of such characters up to one that
does not meet the test, or at which the test gives up. -/
theorem exists_countWhile_eq (test : Char → Call Bool) (text : Text) :
    ∃ taken rest, text = taken ++ rest ∧ (∀ c ∈ taken, (test c).result = .ok true) ∧
      (((∀ c ∈ rest.head?, (test c).result = .ok false) ∧
          ∀ w, ∃ w', Action.countWhile test text w = .ok taken.length w') ∨
        ∃ c ∈ rest.head?, ∃ f, (test c).result = .error f ∧
          ∀ w, ∃ w', Action.countWhile test text w = .error (.fault f) w') := by
  induction text with
  | nil => exact ⟨[], [], rfl, by simp, .inl ⟨by simp, fun w => ⟨w, rfl⟩⟩⟩
  | cons c text ih =>
      rcases hresult : (test c).result with f | met
      · have hraised (w : World) : Action.countWhile test (c :: text) w =
            .error (.fault f) (w.noted (test c).events) :=
          Run.bind_of_error (Run.ofCall_of_error hresult w)
        exact ⟨[], c :: text, rfl, by simp, .inr ⟨c, rfl, f, hresult, fun w => ⟨_, hraised w⟩⟩⟩
      · have htested (w : World) : Action.countWhile test (c :: text) w = _ :=
          Run.bind_of_ok (Run.ofCall_of_ok hresult w)
        cases met with
        | false =>
            refine ⟨[], c :: text, rfl, by simp, .inl ⟨?_, fun w => ⟨_, htested w⟩⟩⟩
            rintro _ ⟨⟩
            exact hresult
        | true =>
            obtain ⟨taken, rest, rfl, htaken, hend⟩ := ih
            refine ⟨c :: taken, rest, rfl, List.forall_mem_cons.mpr ⟨hresult, htaken⟩, ?_⟩
            refine hend.imp (fun ⟨hrest, hcount⟩ => ⟨hrest, fun w => ?_⟩)
              fun ⟨d, hd, f, hf, hcount⟩ => ⟨d, hd, f, hf, fun w => ?_⟩
            · obtain ⟨w', hw'⟩ := hcount (w.noted (test c).events)
              exact ⟨w', (htested w).trans (Run.bind_of_ok hw')⟩
            · obtain ⟨w', hw'⟩ := hcount (w.noted (test c).events)
              exact ⟨w', (htested w).trans (Run.bind_of_error hw')⟩

/-- A longest run is all that meets the test up to a character that does not, or a fault of the
test. -/
theorem exists_run_takeWhile (test : Char → Call Bool) {s : Text} {i : Int} (hi : 0 ≤ i)
    (hlen : i ≤ s.length) :
    ∃ taken rest, s.drop i.toNat = taken ++ rest ∧ (∀ c ∈ taken, (test c).result = .ok true) ∧
      (((∀ c ∈ rest.head?, (test c).result = .ok false) ∧
          ∀ n w, ∃ w', (Parser.takeWhile test).run (n + 1) s i w =
            .ok (.ok (i + taken.length) (.text taken)) w') ∨
        ∃ c ∈ rest.head?, ∃ f, (test c).result = .error f ∧
          ∀ n w, ∃ w', (Parser.takeWhile test).run (n + 1) s i w = .error (.fault f) w') := by
  obtain ⟨before, ahead, rfl, rfl⟩ := Text.exists_eq_append hi hlen
  have hrun (n : Nat) (w : World) :
      (Parser.takeWhile test).run (n + 1) (before ++ ahead) before.length w = _ :=
    congrFun (Action.takeWhile_append test before ahead) w
  obtain ⟨taken, rest, rfl, htaken, hend⟩ := exists_countWhile_eq test ahead
  refine ⟨taken, rest, by simp, htaken, ?_⟩
  refine hend.imp (fun ⟨hrest, hcount⟩ => ⟨hrest, fun n w => ?_⟩)
    fun ⟨d, hd, f, hf, hcount⟩ => ⟨d, hd, f, hf, fun n w => ?_⟩
  · obtain ⟨w', hw'⟩ := hcount w
    refine ⟨w', (hrun n w).trans ((Run.bind_of_ok hw').trans ?_)⟩
    rw [List.take_left]
    rfl
  · obtain ⟨w', hw'⟩ := hcount w
    exact ⟨w', (hrun n w).trans (Run.bind_of_error hw')⟩

section Patterns

open Pattern Pattern.Node

/-- The parser succeeds on a text that is a single character. -/
def accepts (p : Parser) (c : Char) : Bool :=
  ((p.run 1 [c] 0).run' {}).any (·.status)

theorem accepts_of_run {p : Parser} {c : Char} {r : Reply} {w : World}
    (h : p.run 1 [c] 0 {} = .ok r w) : p.accepts c = r.status := by
  rw [accepts, Run.run'_of_ok h]
  rfl

theorem countWhile_answer (holds : Char → Bool) (text : Text) :
    Action.countWhile (fun c => .answer (holds c)) text =
      Pure.pure (text.takeWhile holds).length := by
  have hcall (c : Char) : Run.ofCall (.answer (holds c)) = Pure.pure (holds c) := rfl
  induction text with
  | nil => rfl
  | cons c text ih =>
      simp only [Action.countWhile, hcall, pure_bind, ih]
      by_cases hc : holds c
      · simp [hc]
      · simp [hc]

/-- The longest run of characters of a class. -/
theorem run_takeWhile_answer (holds : Char → Bool) (n : Nat) (before ahead : Text) :
    (Parser.takeWhile fun c => .answer (holds c)).run (n + 1) (before ++ ahead) before.length =
      Pure.pure (.ok (before.length + (ahead.takeWhile holds).length)
        (.text (ahead.takeWhile holds))) := by
  have htake : ahead.take (ahead.takeWhile holds).length = ahead.takeWhile holds :=
    (List.prefix_iff_eq_take.mp (List.takeWhile_prefix holds)).symm
  change Action.takeWhile _ (before ++ ahead) before.length = _
  rw [Action.takeWhile_append, countWhile_answer, pure_bind, htake]

variable {p : Pattern} {q : Parser} {a : Alphabet} {outside : Bool} {items : List Item}

/-- A pattern of a single set is a test of a character. -/
theorem run_pattern_set (h : p.root = .set a outside items) (n : Nat) (before ahead : Text) :
    (Parser.pattern p 0).run (n + 1) (before ++ ahead) before.length =
      (Parser.satisfy (fun c => .answer (admits a outside items c)) p.describe).run (n + 1)
        (before ++ ahead) before.length := by
  have hcall (c : Char) : Run.ofCall (.answer (admits a outside items c)) =
      Pure.pure (admits a outside items c) := rfl
  change Action.pattern p 0 _ _ = Action.satisfy _ _ _ _
  rw [Action.pattern]
  cases ahead with
  | nil =>
      have hrejects : p.root.Rejects [] := h ▸ rejects_set Text.begins_nil
      rw [match?_of_rejects hrejects, Action.satisfy_end]
  | cons c more =>
      rw [Action.satisfy_append, hcall, pure_bind]
      cases hc : admits a outside items c with
      | true =>
          have htakes : p.root.Takes [c] more := h ▸ takes_set hc more
          have hmatch := match?_of_takes htakes before
          rw [List.singleton_append] at hmatch
          rw [hmatch]
          rfl
      | false =>
          have hrejects : p.root.Rejects (c :: more) :=
            h ▸ rejects_set (Text.begins_cons.mpr hc)
          rw [match?_of_rejects hrejects]
          rfl

/-- A pattern of a repeated set reads the longest run of characters of the set. -/
theorem run_pattern_star (h : p.root = .star (.set a outside items)) (n : Nat)
    (before ahead : Text) :
    (Parser.pattern p 0).run (n + 1) (before ++ ahead) before.length =
      (Parser.takeWhile fun c => .answer (admits a outside items c)).run (n + 1)
        (before ++ ahead) before.length := by
  have htakes : p.root.Takes (ahead.takeWhile (admits a outside items))
      (ahead.dropWhile (admits a outside items)) := h ▸ (turns_set a outside items ahead).star
  have hmatch := match?_of_takes htakes before
  rw [List.takeWhile_append_dropWhile] at hmatch
  change Action.pattern p 0 _ _ = _
  rw [run_takeWhile_answer, Action.pattern, hmatch]
  rfl

/-- If a set has to be met at least once, an empty run is a failure. -/
theorem run_pattern_plus (h : p.root = .plus (.set a outside items)) (n : Nat)
    (before ahead : Text) :
    (Parser.pattern p 0).run (n + 1) (before ++ ahead) before.length =
      if ahead.takeWhile (admits a outside items) = [] then
        Pure.pure (.error before.length p.describe)
      else
        (Parser.takeWhile fun c => .answer (admits a outside items c)).run (n + 1)
          (before ++ ahead) before.length := by
  change Action.pattern p 0 _ _ = _
  rw [run_takeWhile_answer, Action.pattern]
  cases ahead with
  | nil =>
      have hrejects : p.root.Rejects [] := h ▸ (rejects_set Text.begins_nil).plus
      rw [match?_of_rejects hrejects, List.takeWhile_nil, if_pos rfl]
  | cons c more =>
      cases hc : admits a outside items c with
      | false =>
          have hrejects : p.root.Rejects (c :: more) :=
            h ▸ (rejects_set (Text.begins_cons.mpr hc)).plus
          rw [match?_of_rejects hrejects, List.takeWhile_cons_of_neg (by simp [hc]), if_pos rfl]
      | true =>
          have htakes : p.root.Takes ([c] ++ more.takeWhile (admits a outside items))
              (more.dropWhile (admits a outside items)) :=
            h ▸ (takes_set hc _).plus (turns_set a outside items more)
          have hmatch := match?_of_takes htakes before
          rw [List.append_assoc, List.takeWhile_append_dropWhile, List.singleton_append,
            List.singleton_append] at hmatch
          rw [hmatch, List.takeWhile_cons_of_pos hc, if_neg (List.cons_ne_nil _ _)]
          rfl

/-- A pattern of a single set succeeds where the next character belongs to the set. -/
theorem exists_run_set (h : p.root = .set a outside items) (description : String) (n : Nat)
    (before ahead : Text) (w : World) :
    ∃ r, ((Parser.pattern p 0).label description).run (n + 1) (before ++ ahead) before.length w =
      .ok r w ∧ (r.status = true ↔ ∃ c ∈ ahead.head?, admits a outside items c = true) := by
  have hrun := congrFun (run_pattern_set h n before ahead) w
  cases ahead with
  | nil =>
      have hend : (Parser.pattern p 0).run (n + 1) (before ++ []) before.length w =
          .ok (.error before.length p.describe) w :=
        hrun.trans (congrFun (Action.satisfy_end _ _ before) w)
      exact ⟨_, run_label_of_ok hend description, by simp [Reply.error]⟩
  | cons c more =>
      have hmet : (Call.answer (admits a outside items c)).result =
          .ok (admits a outside items c) := rfl
      rw [run_satisfy hmet] at hrun
      refine ⟨_, run_label_of_ok hrun description, ?_⟩
      cases hc : admits a outside items c with
      | true => simp [hc]
      | false => simp [hc, Reply.error]

theorem accepts_set (h : p.root = .set a outside items) (description : String) (c : Char) :
    ((Parser.pattern p 0).label description).accepts c = admits a outside items c := by
  obtain ⟨r, hrun, hstatus⟩ := exists_run_set h description 0 [] [c] {}
  rw [accepts_of_run hrun, Bool.eq_iff_iff, hstatus]
  simp

theorem admits_blank : admits {} false [.family .blank false] = Character.isBlank := by
  funext c
  simp [admits, Item.covers, Family.holds]

section Places

variable {s : Text} {i : Int} (hi : 0 ≤ i) (hlen : i ≤ s.length) (n : Nat)

include hi hlen

/-- What a pattern of a single set accepts it accepts at every place. -/
theorem exists_run_accepts (h : p.root = .set a outside items) (description : String) (w : World) :
    ∃ r, ((Parser.pattern p 0).label description).run (n + 1) s i w = .ok r w ∧
      (r.status = true ↔ ∃ c ∈ (s.drop i.toNat).head?,
        ((Parser.pattern p 0).label description).accepts c = true) := by
  obtain ⟨before, ahead, rfl, rfl⟩ := Text.exists_eq_append hi hlen
  simp only [accepts_set h, Int.toNat_natCast, List.drop_left]
  exact exists_run_set h description n before ahead w

/-- The test that a single set makes of a character is the one that a run is made of. -/
theorem run_star_eq (h : p.root = .set a outside items) {many : Pattern}
    (hmany : many.root = .star (.set a outside items)) (description : String) :
    (Parser.pattern many 0).run n s i =
      (Parser.takeWhile fun c =>
        .answer (((Parser.pattern p 0).label description).accepts c)).run n s i := by
  obtain ⟨before, ahead, rfl, rfl⟩ := Text.exists_eq_append hi hlen
  cases n with
  | zero => rfl
  | succ n =>
      simp only [accepts_set h]
      exact run_pattern_star hmany n before ahead

/-- A run of characters never fails, so a label of it is without effect. -/
theorem run_label_takeWhile {test : Char → Call Bool}
    (h : q.run n s i = (Parser.takeWhile test).run n s i) (description : String) :
    (q.label description).run n s i = (Parser.takeWhile test).run n s i := by
  obtain ⟨before, ahead, rfl, rfl⟩ := Text.exists_eq_append hi hlen
  cases n with
  | zero => rfl
  | succ n =>
      have hrun : (Parser.takeWhile test).run (n + 1) (before ++ ahead) before.length = _ :=
        Action.takeWhile_append test before ahead
      change Action.label (q.run (n + 1)) description (before ++ ahead) before.length = _
      rw [Action.label, h, hrun, bind_assoc]
      rfl

/-- White space that may be missing is the longest run of blanks. -/
theorem run_optionalWhitespace :
    optionalWhitespace.run n s i = (Parser.takeWhile Predicate.blank.test).run n s i := by
  apply run_label_takeWhile hi hlen
  obtain ⟨before, ahead, rfl, rfl⟩ := Text.exists_eq_append hi hlen
  cases n with
  | zero => rfl
  | succ n =>
      have hrun := run_pattern_star (p := Pattern.optionalBlanks) rfl n before ahead
      rw [admits_blank] at hrun
      exact hrun

/-- White space is read where there is some. -/
theorem exists_run_whitespace (w : World) :
    ∃ r taken, whitespace.run (n + 1) s i w = .ok r w ∧
      (Parser.takeWhile Predicate.blank.test).run (n + 1) s i w =
        .ok (.ok (i + taken.length) (.text taken)) w ∧
      (r.status = true ↔ taken ≠ []) ∧
      (r.status = true → r.index = i + taken.length ∧ r.value = .text taken) := by
  obtain ⟨before, ahead, rfl, rfl⟩ := Text.exists_eq_append hi hlen
  have hlongest := congrFun (run_takeWhile_answer Character.isBlank n before ahead) w
  have hrun := congrFun (run_pattern_plus (p := Pattern.blanks) rfl n before ahead) w
  rw [admits_blank] at hrun
  by_cases hnone : ahead.takeWhile Character.isBlank = []
  · rw [if_pos hnone] at hrun
    exact ⟨_, _, run_label_of_ok hrun "whitespace", hlongest, by simp [hnone], by simp⟩
  · rw [if_neg hnone] at hrun
    have hread := hrun.trans hlongest
    exact ⟨_, _, run_label_of_ok hread "whitespace", hlongest, by simp [hnone], by simp⟩

end Places

end Patterns

/-- What is read at once is what is read character by character. A given text ends as its characters
in a row do when they are joined; it is read exactly if the input goes on with it, and its failure
is reported where it was looked for. The longest run of characters that meet a test ends as a
repetition of the test does, joined: it is all that meets the test up to a character that does not,
or the test gives up there. Digits and letters are in full such runs, of the characters that make
the parser of a single one succeed; so is white space that may be missing, and other white space
succeeds exactly if that run is not empty. -/
theorem stretches_agree (t : String) (test : Char → Call Bool) (expected : String) (s : Text)
    (i : Int) (hi : 0 ≤ i) (hlen : i ≤ s.length) :
    (∀ n, (Parser.string t).ending n s i =
      (sequence (t.toList.map fun c => char (.text [c]))).joined.ending n s i) ∧
    (∀ n w, ∃ r, (Parser.string t).run (n + 1) s i w = .ok r w ∧
      (r.status = true ↔ t.toList <+: s.drop i.toNat) ∧ (r.status = false → r.furthest = i)) ∧
    (∀ n, s.length < n → (Parser.takeWhile test).ending (n + 1) s i =
      (Parser.satisfy test expected).many.joined.ending (n + 1) s i) ∧
    (∃ taken rest, s.drop i.toNat = taken ++ rest ∧ (∀ c ∈ taken, (test c).result = .ok true) ∧
      (((∀ c ∈ rest.head?, (test c).result = .ok false) ∧
          ∀ n w, ∃ w', (Parser.takeWhile test).run (n + 1) s i w =
            .ok (.ok (i + taken.length) (.text taken)) w') ∨
        ∃ c ∈ rest.head?, ∃ f, (test c).result = .error f ∧
          ∀ n w, ∃ w', (Parser.takeWhile test).run (n + 1) s i w = .error (.fault f) w')) ∧
    (∀ n, digits.run n s i = (Parser.takeWhile fun c => .answer (digit.accepts c)).run n s i) ∧
    (∀ n, letters.run n s i = (Parser.takeWhile fun c => .answer (letter.accepts c)).run n s i) ∧
    (∀ p ∈ [digit, letter], ∀ n w, ∃ r, p.run (n + 1) s i w = .ok r w ∧
      (r.status = true ↔ ∃ c ∈ (s.drop i.toNat).head?, p.accepts c = true)) ∧
    (∀ n, optionalWhitespace.run n s i = (Parser.takeWhile Predicate.blank.test).run n s i) ∧
    (∀ n w, ∃ r taken, whitespace.run (n + 1) s i w = .ok r w ∧
      (Parser.takeWhile Predicate.blank.test).run (n + 1) s i w =
        .ok (.ok (i + taken.length) (.text taken)) w ∧
      (r.status = true ↔ taken ≠ []) ∧
      (r.status = true → r.index = i + taken.length ∧ r.value = .text taken)) := by
  refine ⟨fun n => ending_string_eq n t hi hlen, fun n w => exists_run_string n t hi hlen w,
    fun n hn => ending_takeWhile_eq test expected hi hlen hn, exists_run_takeWhile test hi hlen,
    fun n => ?_, fun n => ?_, fun p hp n w => ?_, run_optionalWhitespace hi hlen,
    exists_run_whitespace hi hlen⟩
  · exact run_label_takeWhile hi hlen n (run_star_eq hi hlen n (p := .digit) rfl rfl _) _
  · exact run_star_eq hi hlen n (p := .letter) rfl rfl _
  · rcases List.mem_pair.mp hp with rfl | rfl
    · exact exists_run_accepts hi hlen n (p := .digit) rfl _ w
    · exact exists_run_accepts hi hlen n (p := .letter) rfl _ w

/-- A text that the input goes on with, and a run that ends before the input does. -/
theorem stretches_agree_of_word :
    let s := ['1', 'a', 'b', 'x', 'a']
    let row := sequence [char (.text ['a']), char (.text ['b'])]
    let turns := (Parser.satisfy Predicate.notX.test "").many
    (0 ≤ (1 : Int) ∧ (1 : Int) ≤ s.length ∧ s.length < 6) ∧
    row.joined.ending 1 s 1 {} = .ok ⟨true, 3, .str "ab"⟩ {} ∧
    turns.joined.ending 7 s 1 {} = .ok ⟨true, 3, .str "ab"⟩ {} := by
  intro s row turns
  have hstart : 0 ≤ (1 : Int) := by decide
  have hstop : (1 : Int) ≤ s.length := by decide
  obtain ⟨hrow, -, hturns, -⟩ :=
    stretches_agree "ab" Predicate.notX.test "" s 1 hstart hstop
  refine ⟨⟨hstart, hstop, by decide⟩, ?_, ?_⟩
  · exact (congrFun (hrow 1) {}).symm.trans rfl
  · exact (congrFun (hturns 6 (by decide)) {}).symm.trans rfl

end Parser

end Descent
