/-
# Looking forward only

Most primitives look at nothing but the text ahead of them. What they find there, so many
characters with a value or nothing that they expect, is then put into a reply for the offset
they were started at. Hence they do alike at places of two texts that have the same text ahead.
This holds of a pattern if its tree takes or rejects what is ahead whatever lies behind.
-/

import Descent.Proofs.Parallel
import Descent.Proofs.Placeless

namespace Descent

/-- What a primitive finds in the text ahead. -/
inductive Finding
  | taken (count : Nat) (v : Value)
  | missing (expected : String)

/-- The reply for what is found at an offset. -/
def Finding.reply (i : Int) : Finding → Reply
  | .taken count v => .ok (i + count) v
  | .missing expected => .error i expected

namespace Action

/-- The action looks at the text ahead only, and reports no place in its faults. -/
def Forward (act : Action) : Prop :=
  ∀ ahead : Text, ∃ find : Run Finding, find.Blind ∧ find.Placeless ∧
    (∀ w count v w', find w = .ok (.taken count v) w' → count ≤ ahead.length) ∧
    ∀ before : Text, act (before ++ ahead) before.length =
      find >>= fun found => pure (found.reply before.length)

/-- An action that makes no step of its own. -/
theorem Forward.of_pure {act : Action}
    (h : ∀ ahead : Text, ∃ found : Finding,
      (∀ count v, found = .taken count v → count ≤ ahead.length) ∧
      ∀ before : Text, act (before ++ ahead) before.length = pure (found.reply before.length)) :
    act.Forward := by
  intro ahead
  obtain ⟨found, hcount, heq⟩ := h ahead
  refine ⟨pure found, .pure found, .pure found, fun w count v w' hend => ?_, heq⟩
  exact hcount count v (Run.pure_eq_ok.mp hend).1

theorem forward_string (t : String) : (string t).Forward := by
  apply Forward.of_pure
  intro ahead
  by_cases hahead : t.toList <+: ahead
  · refine ⟨.taken t.length (.str t), ?_, fun before => ?_⟩
    · rintro _ _ ⟨⟩
      rw [← String.length_toList]
      exact hahead.length_le
    · rw [string_append, if_pos hahead, Finding.reply]
  · refine ⟨.missing ("'" ++ t ++ "'"), ?_, fun before => ?_⟩
    · rintro _ _ ⟨⟩
    · rw [string_append, if_neg hahead, Finding.reply]

theorem forward_pattern {p : Pattern} (h : p.root.Certain) : (pattern p 0).Forward := by
  apply Forward.of_pure
  intro ahead
  rcases h ahead with ⟨t, rest, rfl, htakes⟩ | hrejects
  · refine ⟨.taken t.length (.text t), ?_, fun before => ?_⟩
    · rintro _ _ ⟨⟩
      simp
    · simp only [pattern, Pattern.match?_of_takes htakes before, Finding.reply, Int.natCast_add]
  · refine ⟨.missing p.describe, ?_, fun before => ?_⟩
    · rintro _ _ ⟨⟩
    · simp only [pattern, Pattern.match?_of_rejects hrejects 0 before, Finding.reply]

theorem forward_satisfy {test : Char → Call Bool} (h : ∀ c, Placeless (test c).result)
    (expected : String) : (satisfy test expected).Forward := by
  intro ahead
  cases ahead with
  | nil =>
      refine ⟨pure (.missing expected), .pure _, .pure _, fun w count v w' hend => ?_,
        fun before => ?_⟩
      · cases (Run.pure_eq_ok.mp hend).1
      · rw [satisfy_end]
        rfl
  | cons c more =>
      refine ⟨Run.ofCall (test c) >>= fun met =>
          pure (if met then .taken 1 (.text [c]) else .missing expected),
        .bind (.ofCall _) fun _ => .pure _, .bind (.ofCall (h c)) fun _ => .pure _,
        fun w count v w' hend => ?_, fun before => ?_⟩
      · obtain ⟨met, u, -, hend⟩ := Run.bind_eq_ok.mp hend
        have hfound := (Run.pure_eq_ok.mp hend).1
        split at hfound
        · cases hfound
          simp
        · cases hfound
      · rw [satisfy_append, bind_assoc]
        congr 1
        funext met
        cases met <;> rfl

theorem placeless_countWhile {test : Char → Call Bool} (h : ∀ c, Placeless (test c).result)
    (t : Text) : (countWhile test t).Placeless := by
  induction t with
  | nil => exact .pure 0
  | cons c rest ih =>
      exact .bind (.ofCall (h c)) fun met => .ite (ih.bind fun _ => .pure _) (.pure _)

theorem forward_takeWhile {test : Char → Call Bool} (h : ∀ c, Placeless (test c).result) :
    (takeWhile test).Forward := by
  intro ahead
  refine ⟨do let count ← countWhile test ahead; return .taken count (.text (ahead.take count)),
    (blind_countWhile test ahead).bind fun _ => .pure _,
    (placeless_countWhile h ahead).bind fun _ => .pure _, fun w count v w' hend => ?_,
    fun before => ?_⟩
  · obtain ⟨n, u, hcount, hend⟩ := Run.bind_eq_ok.mp hend
    cases (Run.pure_eq_ok.mp hend).1
    exact countWhile_le test ahead hcount
  · simp only [takeWhile_append, bind_assoc, pure_bind, Finding.reply]

theorem forward_anyChar : anyChar.Forward := by
  apply Forward.of_pure
  intro ahead
  cases ahead with
  | nil =>
      refine ⟨.missing "any character", by rintro _ _ ⟨⟩, fun before => ?_⟩
      rw [anyChar, if_neg (by simp)]
      rfl
  | cons c more =>
      refine ⟨.taken 1 (.text [c]), by rintro _ _ ⟨⟩; simp, fun before => ?_⟩
      rw [anyChar, if_pos (length_lt_append before c more), charAt_append]
      rfl

theorem forward_succeed (v : Value) : (succeed v).Forward :=
  .of_pure fun ahead => ⟨.taken 0 v, by rintro _ _ ⟨⟩; simp, fun before => by
    simp [succeed, Finding.reply]⟩

theorem forward_fail (expected : String) : (fail expected).Forward :=
  .of_pure fun _ => ⟨.missing expected, by rintro _ _ ⟨⟩, fun _ => rfl⟩

theorem forward_eof : eof.Forward := by
  apply Forward.of_pure
  intro ahead
  cases ahead with
  | nil =>
      refine ⟨.taken 0 .null, by rintro _ _ ⟨⟩; simp, fun before => ?_⟩
      rw [eof, if_neg (by simp)]
      simp [Finding.reply]
  | cons c more =>
      refine ⟨.missing "end of input", by rintro _ _ ⟨⟩, fun before => ?_⟩
      rw [eof, if_pos (length_lt_append before c more)]
      rfl

theorem forward_rest : rest.Forward := by
  apply Forward.of_pure
  intro ahead
  refine ⟨.taken ahead.length (.text ahead), by rintro _ _ ⟨⟩; simp, fun before => ?_⟩
  rw [rest, suffix_append, List.length_append, Int.natCast_add]
  rfl

/-- What looks forward only does alike at places that have the same text ahead. -/
theorem Forward.acts {act : Action} (h : act.Forward) {levels : Level → Level → Prop}
    {holds : World → Prop} (hquiet : World.Quiet holds) (s s' : Text) (k : Int) (w w' : World) :
    (Comparison.beside levels holds k).Acts (.shift s s' k) act (fun _ => act) w w' := by
  intro v v' i i' hreach hi
  obtain ⟨before, before', ahead, rfl, rfl, rfl, rfl, hk⟩ := hi
  obtain ⟨find, ⟨call, rfl⟩, hplaceless, hcount, heq⟩ := h ahead
  have hrepeats : (Comparison.beside levels holds k).Repeats call :=
    Comparison.repeats_beside hquiet fun f hf =>
      hplaceless v f _ (Run.ofCall_of_error hf v) k
  have hfind : (Comparison.beside levels holds k).Follows
      (fun _ _ found found' => found = found' ∧
        ∀ count v, found = .taken count v → count ≤ ahead.length)
      (Run.ofCall call) (fun _ => Run.ofCall call) v v' := by
    refine (hrepeats hreach.related).transfer (fun found _ u _ hend hru heq => ⟨hru, heq, ?_⟩)
      fun _ _ _ _ _ hru hsame => ⟨hru, hsame⟩
    rintro count value rfl
    exact hcount v count value u hend
  simp only [heq]
  apply hfind.bind
  rintro u u' found _ hru ⟨rfl, hle⟩
  refine .pure hru.related ?_
  cases found with
  | taken count value => exact Reply.Moves.ok value (Text.Aligned.add hk (hle count value rfl))
  | missing expected =>
      exact Reply.Moves.error expected ⟨before, before', ahead, rfl, rfl, rfl, rfl, hk⟩

end Action

end Descent
