/-
# Outcomes of whole inputs

A parse of a whole input runs its parser followed by the end of the input, so its
outcome can be read off the reply of the parser alone. It succeeds exactly if the
parser succeeds at the end of the input. Otherwise it fails where the parser failed
furthest or where it stopped, whichever is later, and the end of the input is among
what was expected if the parser stopped there.
-/

import Descent.Proofs.Listing
import Descent.Proofs.Locating
import Descent.Proofs.ReplyInvariant

namespace Descent

namespace Reply

theorem mem_expectedList {r : Reply} {d : String} : d ∈ r.expectedList ↔ d ∈ r.expected :=
  Ordered.mem_ofList

/-- The reply of a parser with the end of the input after it. -/
def thenEnd (s : Text) (r : Reply) : Reply :=
  if r.status then
    if r.index < s.length then (Reply.error r.index "end of input").mergeWith r
    else (Reply.ok r.index r.value).mergeWith ((Reply.ok r.index .null).mergeWith r)
  else r

variable {s : Text} {r : Reply}

theorem thenEnd_of_failed (h : r.status = false) : r.thenEnd s = r := by
  simp [thenEnd, h]

/-- Short of the end there is one more failure, where the parser stopped. -/
theorem thenEnd_of_short (h : r.status = true) (hshort : r.index < s.length) :
    r.thenEnd s = (Reply.error r.index "end of input").mergeWith r := by
  simp [thenEnd, h, hshort]

/-- At the end the parser keeps its value. -/
theorem thenEnd_of_end (h : r.status = true) (hend : r.index = s.length) :
    (r.thenEnd s).status = true ∧ (r.thenEnd s).value = r.value := by
  have hnot : ¬ r.index < s.length := by omega
  unfold thenEnd
  rw [if_pos h, if_neg hnot]
  exact ⟨by simp [Reply.ok], by simp [Reply.ok]⟩

theorem mergeWith_expected_of_lt {newer older : Reply} (h : newer.furthest < older.furthest) :
    (newer.mergeWith older).expected = older.expected := by
  unfold mergeWith
  rw [if_neg (by omega), if_neg (by omega)]

theorem mergeWith_expected_of_gt {newer older : Reply} (h : older.furthest < newer.furthest) :
    (newer.mergeWith older).expected = newer.expected := by
  unfold mergeWith
  rw [if_pos h]

theorem mergeWith_expected_of_eq {newer older : Reply} (h : newer.furthest = older.furthest) :
    (newer.mergeWith older).expected = newer.expected ∪ older.expected := by
  unfold mergeWith
  rw [if_neg (by omega), if_pos h]

end Reply

/-- A failed parse is the one that the reply of the parser asks for: it lies where
the parser failed furthest or where it stopped, whichever is later, and lists what
was expected there in the order of messages, each text once. -/
structure Failure.Explains (f : Failure) (s : Text) (r : Reply) : Prop where
  offset_of_failed : r.status = false → f.position.offset = r.furthest
  offset_of_short : r.status = true → f.position.offset = max r.furthest r.index
  located : Position.locate s f.position.offset = .ok f.position
  expected_ne_nil : f.expected ≠ []
  increasing : f.expected.Pairwise Diagnostic.Before
  mem_of_failed : r.status = false ∨ r.index < r.furthest → ∀ d, d ∈ f.expected ↔ d ∈ r.expected
  mem_of_short : r.status = true → r.furthest < r.index →
    ∀ d, d ∈ f.expected ↔ d = "end of input"
  mem_of_tie : r.status = true → r.furthest = r.index →
    ∀ d, d ∈ f.expected ↔ d ∈ r.expected ∨ d = "end of input"

namespace Parser

variable {p : Parser} {budget : Nat} {s : Text} {w w' : World} {r : Reply}

/-- Asking for the end of the input after a parser changes its reply only. -/
theorem run_skip_eof {i : Int} (h : p.run budget s i w = .ok r w') :
    (p.skip .eof).run budget s i w = .ok (r.thenEnd s) w' := by
  cases budget with
  | zero => cases h
  | succ budget =>
      have hskip : (p.skip .eof).run (budget + 1) s i
          = Action.skip (p.run (budget + 1)) Action.eof s i := rfl
      rw [hskip]
      unfold Action.skip
      rw [Run.bind_eq_ok]
      refine ⟨r, w', h, ?_⟩
      unfold Reply.thenEnd
      split
      · rw [Run.bind_eq_ok]
        refine ⟨_, w', rfl, ?_⟩
        by_cases hshort : r.index < s.length
        · simp [hshort, Reply.error, Run.pure_eq_ok]
        · simp [hshort, Reply.ok, Run.pure_eq_ok]
      · rfl

/-- A success that is not at the end of the input stops short of it. -/
theorem index_lt_of_not_end (h : p.run budget s 0 w = .ok r w')
    (hnot : ¬ (r.status = true ∧ r.index = s.length)) (hok : r.status = true) :
    r.index < s.length := by
  have hindex := index_of_run (by omega) (by omega) h hok
  have hne : r.index ≠ s.length := fun hend => hnot ⟨hok, hend⟩
  omega

/-- Unless the parser succeeds at the end of the input, its reply with the end of
the input after it is a failure. -/
theorem thenEnd_status_of_run (h : p.run budget s 0 w = .ok r w')
    (hnot : ¬ (r.status = true ∧ r.index = s.length)) : (r.thenEnd s).status = false := by
  cases hstatus : r.status with
  | false =>
      rw [Reply.thenEnd_of_failed hstatus]
      exact hstatus
  | true =>
      have hshort := index_lt_of_not_end h hnot hstatus
      rw [Reply.thenEnd_of_short hstatus hshort, Reply.mergeWith_status]
      rfl

/-- The failure that such a reply is turned into explains the reply of the parser. -/
theorem exists_explains (h : p.run budget s 0 w = .ok r w')
    (hnot : ¬ (r.status = true ∧ r.index = s.length)) :
    ∃ position, Position.locate s (r.thenEnd s).furthest = .ok position ∧
      Failure.Explains ⟨position, (r.thenEnd s).expectedList⟩ s r := by
  have hstatus := thenEnd_status_of_run h hnot
  obtain ⟨hlo, hhi, hne⟩ := furthest_of_run (by omega) (by omega) (run_skip_eof h) hstatus
  obtain ⟨position, hlocate, hoffset⟩ := Position.exists_locate_eq hlo hhi
  -- What is left depends on where the parser stopped only through the last merge.
  have short (hok : r.status = true) :
      r.thenEnd s = (Reply.error r.index "end of input").mergeWith r :=
    Reply.thenEnd_of_short hok (index_lt_of_not_end h hnot hok)
  refine ⟨position, hlocate, ?_, ?_, ?_, ?_, ?_, ?_, ?_, ?_⟩
  · intro hfail
    rw [hoffset, Reply.thenEnd_of_failed hfail]
  · intro hok
    rw [hoffset, short hok, Reply.mergeWith_furthest]
    simp only [Reply.error]
    omega
  · rw [hoffset]
    exact hlocate
  · intro (hnil : (r.thenEnd s).expectedList = [])
    refine hne (Expectation.ext_mem fun d => ?_)
    rw [← Reply.mem_expectedList, hnil]
    simp
  · exact Diagnostic.pairwise_sortExpected _
  · intro hcase d
    rw [Reply.mem_expectedList]
    cases hok : r.status with
    | false => rw [Reply.thenEnd_of_failed hok]
    | true =>
        have hlt : r.index < r.furthest := hcase.resolve_left (by simp [hok])
        rw [short hok, Reply.mergeWith_expected_of_lt hlt]
  · intro hok hlt d
    rw [Reply.mem_expectedList, short hok, Reply.mergeWith_expected_of_gt hlt]
    exact Expectation.mem_singleton
  · intro hok heq d
    rw [Reply.mem_expectedList, short hok, Reply.mergeWith_expected_of_eq heq.symm,
      Expectation.mem_union, or_comm]
    simp [Reply.error]

/-- A parser that succeeds at the end of the input makes the parse succeed. -/
theorem parse_of_end (h : p.run budget s 0 w = .ok r w') (hok : r.status = true)
    (hend : r.index = s.length) : p.parse budget s w = .ok (.success r.value) w' := by
  obtain ⟨hstatus, hvalue⟩ := Reply.thenEnd_of_end hok hend
  unfold parse
  rw [Run.bind_eq_ok]
  refine ⟨r.thenEnd s, w', run_skip_eof h, ?_⟩
  rw [if_pos hstatus, hvalue]
  rfl

/-- Any other reply of the parser makes the parse fail as the reply asks for. -/
theorem exists_parse_of_not_end (h : p.run budget s 0 w = .ok r w')
    (hnot : ¬ (r.status = true ∧ r.index = s.length)) :
    ∃ f after, p.parse budget s w = .ok (.failure f) after ∧ f.Explains s r := by
  obtain ⟨position, hlocate, hexplains⟩ := exists_explains h hnot
  have hstatus := thenEnd_status_of_run h hnot
  obtain ⟨after, hrecord⟩ := Run.exists_record_eq .debug .parsing
    (Failure.record ⟨position, (r.thenEnd s).expectedList⟩) w'
  refine ⟨_, after, ?_, hexplains⟩
  unfold parse
  rw [Run.bind_eq_ok]
  refine ⟨r.thenEnd s, w', run_skip_eof h, ?_⟩
  rw [hstatus, if_neg (by decide), hlocate, Run.bind_eq_ok]
  refine ⟨position, w', rfl, ?_⟩
  rw [Run.bind_eq_ok]
  exact ⟨(), after, hrecord, rfl⟩

/-- Parsing for a value or an error goes the way of the parse. -/
theorem parseValue_eq {outcome : Outcome} (h : p.parse budget s w = .ok outcome w') :
    p.parseValue budget s w = .ok (match outcome with
      | .success v => .ok v
      | .failure f => .error ⟨s, f⟩) w' := by
  unfold parseValue
  rw [Run.bind_eq_ok]
  refine ⟨outcome, w', h, ?_⟩
  cases outcome with
  | success v => rfl
  | failure f => rfl

/-- Parsing for a pair goes the way of the parse. -/
theorem parsePair_eq {outcome : Outcome} (h : p.parse budget s w = .ok outcome w') :
    p.parsePair budget s w = .ok (match outcome with
      | .success v => (some v, none)
      | .failure f => (none, some ⟨s, f⟩)) w' := by
  unfold parsePair
  rw [Run.bind_eq_ok]
  refine ⟨outcome, w', h, ?_⟩
  cases outcome with
  | success v => rfl
  | failure f => rfl

/-- The two ways a parse can go once the run of its parser has come to a reply. -/
theorem parse_cases (h : p.run budget s 0 w = .ok r w') :
    (r.status = true ∧ r.index = s.length ∧ p.parse budget s w = .ok (.success r.value) w') ∨
      (¬ (r.status = true ∧ r.index = s.length) ∧
        ∃ f after, p.parse budget s w = .ok (.failure f) after ∧ f.Explains s r) := by
  by_cases hend : r.status = true ∧ r.index = s.length
  · exact .inl ⟨hend.1, hend.2, parse_of_end h hend.1 hend.2⟩
  · exact .inr ⟨hend, exists_parse_of_not_end h hend⟩

/-- The outcome of a whole input is settled by the reply of the parser. All entry
points answer with a value exactly if the parser succeeds at the end of the input,
and the value is the parser's. Otherwise they all report the one failure that
explains the reply, with one message, and never the fault of a position outside the
input. -/
theorem outcome_of_reply (p : Parser) (budget : Nat) (s : Text) (w w' : World) (r : Reply)
    (hrun : p.run budget s 0 w = .ok r w') :
    (∀ v,
      ((∃ after, p.parse budget s w = .ok (.success v) after) ↔
        r.status = true ∧ r.index = s.length ∧ r.value = v) ∧
      ((∃ after, p.parseValue budget s w = .ok (.ok v) after) ↔
        r.status = true ∧ r.index = s.length ∧ r.value = v) ∧
      ((∃ after, p.parsePair budget s w = .ok (some v, none) after) ↔
        r.status = true ∧ r.index = s.length ∧ r.value = v)) ∧
    (¬ (r.status = true ∧ r.index = s.length) →
      ∃ (f : Failure) (e : ParseError) (after : World),
        p.parse budget s w = .ok (.failure f) after ∧ f.Explains s r ∧
        p.parseValue budget s w = .ok (.error e) after ∧
        p.parsePair budget s w = .ok (none, some e) after ∧
        e.input = s ∧ e.failure = f ∧
        ∀ style, e.message style = Diagnostic.formatError s f.position f.expected style) := by
  rcases parse_cases hrun with ⟨hok, hend, hparse⟩ | ⟨hnot, f, after, hparse, hexplains⟩
  · have hvalue := parseValue_eq hparse
    have hpair := parsePair_eq hparse
    refine ⟨fun v => ⟨?_, ?_, ?_⟩, fun hnot => absurd ⟨hok, hend⟩ hnot⟩
    · rw [hparse]
      simp [hok, hend]
    · rw [hvalue]
      simp [hok, hend]
    · rw [hpair]
      simp [hok, hend]
  · have hvalue := parseValue_eq hparse
    have hpair := parsePair_eq hparse
    have never (v : Value) : ¬ (r.status = true ∧ r.index = s.length ∧ r.value = v) :=
      fun h => hnot ⟨h.1, h.2.1⟩
    refine ⟨fun v => ⟨?_, ?_, ?_⟩, fun _ => ⟨f, ⟨s, f⟩, after, hparse, hexplains, hvalue, hpair,
      rfl, rfl, fun style => rfl⟩⟩
    · rw [hparse]
      simp [never v]
    · rw [hvalue]
      simp [never v]
    · rw [hpair]
      simp [never v]

/-- A loop that stops before the end, where its last turn was refused: the failure
lists the refused turn and the end of the input. -/
theorem outcome_of_reply_of_stopped_loop :
    ∃ (f : Failure) (e : ParseError) (after : World),
      (Parser.string "a").many.parse 4 ['a', '\n', 'a'] {} = .ok (.failure f) after ∧
      (Parser.string "a").many.parseValue 4 ['a', '\n', 'a'] {} = .ok (.error e) after ∧
      f.position = ⟨1, 1, 2⟩ ∧
      ∀ d, d ∈ f.expected ↔ d ∈ Expectation.singleton "'a'" ∨ d = "end of input" := by
  obtain ⟨f, e, after, hparse, hexplains, hvalue, -⟩ :=
    (outcome_of_reply (Parser.string "a").many 4 ['a', '\n', 'a'] {} _ _ rfl).2 (by decide)
  refine ⟨f, e, after, hparse, hvalue, ?_, hexplains.mem_of_tie rfl rfl⟩
  have hlocated := hexplains.located
  rw [hexplains.offset_of_short rfl] at hlocated
  exact Except.ok.inj (hlocated.symm.trans rfl)

end Parser

end Descent
