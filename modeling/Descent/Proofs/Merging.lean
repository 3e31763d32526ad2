/-
# Merging replies

A merged reply ends as the newer of the two does, and reports the failures of both:
the later offset of the two, and whatever either reply expected there. So it does not
matter in which order the contexts of a run are merged, and a success that met no
failure adds nothing to the account.
-/

import Descent.Proofs.FailureLog

namespace Descent

namespace Reply

variable {a b : Reply}

@[simp] theorem ok_status (i : Int) (v : Value) : (ok i v).status = true := rfl

@[simp] theorem ok_index (i : Int) (v : Value) : (ok i v).index = i := rfl

@[simp] theorem ok_value (i : Int) (v : Value) : (ok i v).value = v := rfl

theorem merge_none (r : Reply) : r.merge none = r := rfl

theorem merge_some (newer older : Reply) : newer.merge (some older) = newer.mergeWith older := rfl

/-- Replies are equal if they end alike, at the same furthest failure, and expect the
same there. -/
theorem ext_expected (hstatus : a.status = b.status) (hindex : a.index = b.index)
    (hvalue : a.value = b.value) (hfurthest : a.furthest = b.furthest)
    (hexpected : ∀ d, d ∈ a.expected ↔ d ∈ b.expected) : a = b := by
  cases a
  cases b
  cases hstatus
  cases hindex
  cases hvalue
  cases hfurthest
  cases Expectation.ext_mem hexpected
  rfl

/-- What is expected at the later of the two furthest failures comes from the replies
that got there. -/
theorem mem_mergeWith_expected (newer older : Reply) (d : String) :
    d ∈ (newer.mergeWith older).expected ↔
      older.furthest ≤ newer.furthest ∧ d ∈ newer.expected ∨
        newer.furthest ≤ older.furthest ∧ d ∈ older.expected := by
  unfold mergeWith
  split
  · next hlt =>
    have hnot : ¬ newer.furthest ≤ older.furthest := by omega
    simp [hnot, Int.le_of_lt hlt]
  · next hle =>
    split
    · next heq => simp [heq]
    · next hne =>
      have hnot : ¬ older.furthest ≤ newer.furthest := by omega
      have hlt : newer.furthest ≤ older.furthest := by omega
      simp [hnot, hlt]

/-- A reply gathers the failures of others: none of them got further, and it expects whatever those
that got as far expected. -/
structure Gathers (t : Reply) (rs : List Reply) : Prop where
  furthest_le : ∀ r ∈ rs, r.furthest ≤ t.furthest
  mem_expected_iff : ∀ d, d ∈ t.expected ↔ ∃ r ∈ rs, r.furthest = t.furthest ∧ d ∈ r.expected

/-- Merged replies gather what both of them gather. -/
theorem Gathers.mergeWith {rs ts : List Reply} (h : a.Gathers rs) (h' : b.Gathers ts) :
    (a.mergeWith b).Gathers (rs ++ ts) where
  furthest_le r hr := by
    rw [mergeWith_furthest]
    rcases List.mem_append.mp hr with hr | hr
    · have hle := h.furthest_le r hr
      omega
    · have hle := h'.furthest_le r hr
      omega
  mem_expected_iff d := by
    rw [mem_mergeWith_expected, h.mem_expected_iff, h'.mem_expected_iff, mergeWith_furthest]
    constructor
    · rintro (⟨hle, r, hr, hfurthest, hd⟩ | ⟨hle, r, hr, hfurthest, hd⟩)
      · exact ⟨r, List.mem_append_left _ hr, by omega, hd⟩
      · exact ⟨r, List.mem_append_right _ hr, by omega, hd⟩
    · rintro ⟨r, hr, hfurthest, hd⟩
      -- A reply at the later offset got there on its side, for none gets beyond what gathers it.
      rcases List.mem_append.mp hr with hr | hr
      · have hle := h.furthest_le r hr
        exact .inl ⟨by omega, r, hr, by omega, hd⟩
      · have hle := h'.furthest_le r hr
        exact .inr ⟨by omega, r, hr, by omega, hd⟩

/-- Which failures are gathered counts, but not in which order and how often. -/
theorem Gathers.congr {rs ts : List Reply} (h : a.Gathers rs) (hsame : ∀ r, r ∈ rs ↔ r ∈ ts) :
    a.Gathers ts where
  furthest_le r hr := h.furthest_le r ((hsame r).mpr hr)
  mem_expected_iff d := by simpa only [hsame] using h.mem_expected_iff d

/-- Of three replies it does not matter which two are merged first. -/
theorem mergeWith_assoc (a b c : Reply) :
    (a.mergeWith b).mergeWith c = a.mergeWith (b.mergeWith c) := by
  refine ext_expected (by simp) (by simp) (by simp) ?_ fun d => ?_
  · simp only [mergeWith_furthest]
    omega
  · simp only [mem_mergeWith_expected, mergeWith_furthest]
    constructor
    · rintro (⟨hc, ⟨hb, hd⟩ | ⟨hb, hd⟩⟩ | ⟨hc, hd⟩)
      · exact .inl ⟨by omega, hd⟩
      · exact .inr ⟨by omega, .inl ⟨by omega, hd⟩⟩
      · exact .inr ⟨by omega, .inr ⟨by omega, hd⟩⟩
    · rintro (⟨hb, hd⟩ | ⟨hb, ⟨hc, hd⟩ | ⟨hc, hd⟩⟩)
      · exact .inl ⟨by omega, .inl ⟨by omega, hd⟩⟩
      · exact .inl ⟨by omega, .inr ⟨by omega, hd⟩⟩
      · exact .inr ⟨by omega, hd⟩

/-- A context may be merged before or after an older one has been merged into it. -/
theorem mergeWith_merge (newer older : Reply) (context : Option Reply) :
    (newer.mergeWith older).merge context = newer.mergeWith (older.merge context) := by
  cases context with
  | none => rfl
  | some c => exact mergeWith_assoc newer older c

/-- A success that met no failure is no context. -/
theorem mergeWith_ok (r : Reply) (hr : -1 ≤ r.furthest) (i : Int) (v : Value) :
    r.mergeWith (.ok i v) = r := by
  refine ext_expected (by simp) (by simp) (by simp) ?_ fun d => ?_
  · simp only [mergeWith_furthest, Reply.ok]
    omega
  · simp [mem_mergeWith_expected, Reply.ok, hr]

/-- Giving a success its own index and value back changes nothing. -/
theorem ok_mergeWith_self (r : Reply) (hr : -1 ≤ r.furthest) (hok : r.status = true) :
    (Reply.ok r.index r.value).mergeWith r = r := by
  refine ext_expected (by simp [hok]) (by simp) (by simp) ?_ fun d => ?_
  · simp only [mergeWith_furthest, Reply.ok]
    omega
  · simp [mem_mergeWith_expected, Reply.ok, hr]

/-- Of two successes that met no failure, the newer hides the older. -/
theorem ok_mergeWith_ok (i j : Int) (v u : Value) : (ok i v).mergeWith (ok j u) = ok i v :=
  mergeWith_ok (ok i v) (Int.le_refl _) j u

theorem ok_mergeWith_ok_mergeWith (i j : Int) (v u : Value) (r : Reply) :
    (ok i v).mergeWith ((ok j u).mergeWith r) = (ok i v).mergeWith r := by
  rw [← mergeWith_assoc, ok_mergeWith_ok]

end Reply

end Descent
