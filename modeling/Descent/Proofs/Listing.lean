/-
# Lists of expectations

What is expected at an offset is a set of descriptions, and a set can be enumerated in many ways.
The list in a message does not show in which: small-letter form and text together order any two
descriptions that differ, so there is only one strictly increasing list with given members. Sorting
finds it, and whatever is made of the list depends on the set alone.
-/

import Descent.Parser.Outcome
import Descent.Proofs.Run

namespace Descent

namespace Diagnostic

/-- The order of expectations in messages, by small-letter form first. -/
def Before (x y : String) : Prop :=
  lowerCase x < lowerCase y ∨ lowerCase x = lowerCase y ∧ x < y

theorem precedes_iff {x y : String} : precedes x y = true ↔ Before x y := by
  simp [precedes, Before]

theorem Before.trans {x y z : String} (hxy : Before x y) (hyz : Before y z) : Before x z := by
  rcases hxy with hxy | ⟨hxy, hxy'⟩
  · rcases hyz with hyz | ⟨hyz, -⟩
    · exact .inl (String.lt_trans hxy hyz)
    · rw [hyz] at hxy
      exact .inl hxy
  · rcases hyz with hyz | ⟨hyz, hyz'⟩
    · rw [← hxy] at hyz
      exact .inl hyz
    · exact .inr ⟨hxy.trans hyz, String.lt_trans hxy' hyz'⟩

/-- Texts that are neither before nor after each other are equal. -/
theorem before_or_before_of_ne {x y : String} (hne : x ≠ y) : Before x y ∨ Before y x := by
  have compare (a b : String) (hab : a ≠ b) : a < b ∨ b < a := by
    have htotal := Expectation.precedes_total a b hab
    simp only [Expectation.precedes, decide_eq_true_eq] at htotal
    exact htotal
  by_cases hlower : lowerCase x = lowerCase y
  · rcases compare x y hne with h | h
    · exact .inl (.inr ⟨hlower, h⟩)
    · exact .inr (.inr ⟨hlower.symm, h⟩)
  · rcases compare _ _ hlower with h | h
    · exact .inl (.inl h)
    · exact .inr (.inl h)

theorem precedes_trans (x y z : String) (hxy : precedes x y) (hyz : precedes y z) :
    precedes x z := by
  rw [precedes_iff] at *
  exact hxy.trans hyz

theorem precedes_total (x y : String) (hne : x ≠ y) : precedes x y ∨ precedes y x := by
  rw [precedes_iff, precedes_iff]
  exact before_or_before_of_ne hne

/-- The list of expectations in a message is strictly increasing. -/
theorem pairwise_sortExpected (expected : List String) :
    (sortExpected expected).Pairwise Before := by
  have hsorted := Ordered.pairwise_ofList precedes_trans precedes_total expected
  simp only [precedes_iff] at hsorted
  exact hsorted

/-- No description comes before itself. -/
theorem Before.ne {x y : String} (h : Before x y) : x ≠ y := by
  rintro rfl
  rcases h with h | ⟨-, h⟩
  · exact String.lt_irrefl _ h
  · exact String.lt_irrefl _ h

theorem precedes_irrefl (x : String) : precedes x x = false := by
  rw [Bool.eq_false_iff, ne_eq, precedes_iff]
  exact fun h => h.ne rfl

section Canonical

variable {expected first second listing : List String} {d : String}

theorem mem_sortExpected : d ∈ sortExpected expected ↔ d ∈ expected :=
  Ordered.mem_ofList

/-- The only strictly increasing list of some descriptions is the sorted one. -/
theorem eq_sortExpected (hincreasing : listing.Pairwise Before)
    (hmem : ∀ d, d ∈ listing ↔ d ∈ expected) : listing = sortExpected expected := by
  have hprecedes : listing.Pairwise fun x y => precedes x y := by
    simpa only [precedes_iff] using hincreasing
  have hsorted : (sortExpected expected).Pairwise fun x y => precedes x y := by
    simpa only [precedes_iff] using pairwise_sortExpected expected
  exact Ordered.eq_of_mem_iff precedes_irrefl precedes_trans hprecedes hsorted
    fun d => (hmem d).trans mem_sortExpected.symm

theorem sortExpected_congr (h : ∀ d, d ∈ first ↔ d ∈ second) :
    sortExpected first = sortExpected second :=
  eq_sortExpected (pairwise_sortExpected first) fun d => mem_sortExpected.trans (h d)

theorem sortExpected_sortExpected (expected : List String) :
    sortExpected (sortExpected expected) = sortExpected expected :=
  sortExpected_congr fun _ => mem_sortExpected

theorem nodup_sortExpected (expected : List String) : (sortExpected expected).Nodup :=
  (pairwise_sortExpected expected).imp Before.ne

/-- Not to come after a description, as the comparison of a sort. -/
def notAfter (x y : String) : Bool :=
  !precedes y x

theorem notAfter_iff {x y : String} : notAfter x y = true ↔ x = y ∨ Before x y := by
  have hback : notAfter x y = true ↔ ¬ Before y x := by
    rw [notAfter, Bool.not_eq_true', Bool.eq_false_iff, ne_eq, precedes_iff]
  rw [hback]
  constructor
  · intro h
    by_cases heq : x = y
    · exact .inl heq
    · exact .inr ((before_or_before_of_ne heq).resolve_right h)
  · rintro (rfl | h) hback
    · exact hback.ne rfl
    · exact (h.trans hback).ne rfl

/-- Sorting any enumeration of a set of descriptions gives their sorted list. -/
theorem mergeSort_eq_sortExpected (hnodup : listing.Nodup)
    (hmem : ∀ d, d ∈ listing ↔ d ∈ expected) :
    listing.mergeSort notAfter = sortExpected expected := by
  have htrans (x y z : String) (hxy : notAfter x y) (hyz : notAfter y z) : notAfter x z := by
    rw [notAfter_iff] at *
    rcases hxy with rfl | hxy
    · exact hyz
    · rcases hyz with rfl | hyz
      · exact .inr hxy
      · exact .inr (hxy.trans hyz)
  have htotal (x y : String) : (notAfter x y || notAfter y x) = true := by
    rw [Bool.or_eq_true, notAfter_iff, notAfter_iff]
    by_cases heq : x = y
    · exact .inl (.inl heq)
    · exact (before_or_before_of_ne heq).imp .inr .inr
  have hperm := List.mergeSort_perm listing notAfter
  have hdistinct : (listing.mergeSort notAfter).Nodup := hperm.nodup_iff.mpr hnodup
  have hsorted := (List.pairwise_mergeSort htrans htotal listing).and hdistinct
  refine eq_sortExpected (hsorted.imp fun h => ?_) fun d => hperm.mem_iff.trans (hmem d)
  exact (notAfter_iff.mp h.1).resolve_left h.2

theorem formatExpected_of_several (h : expected.length ≠ 1) :
    formatExpected expected = "one of " ++ ", ".intercalate (sortExpected expected) := by
  cases expected with
  | nil => rfl
  | cons a rest =>
      cases rest with
      | nil => exact absurd rfl h
      | cons b rest => rfl

/-- A single expectation stands for itself in either list, and several ones are sorted. -/
theorem formatExpected_perm (h : first.Perm second) :
    formatExpected first = formatExpected second := by
  by_cases hsingle : first.length = 1
  · obtain ⟨d, rfl⟩ := List.length_eq_one_iff.mp hsingle
    rw [h.singleton_eq]
  · rw [formatExpected_of_several hsingle, formatExpected_of_several (h.length_eq ▸ hsingle),
      sortExpected_congr fun _ => h.mem_iff]

theorem formatError_perm (h : first.Perm second) (input : Text) (p : Position) (style : Style) :
    formatError input p first style = formatError input p second style := by
  rw [formatError, formatError, formatExpected_perm h]

/-- An enumeration without repetition is the sorted list in another order. -/
theorem perm_sortExpected (hnodup : listing.Nodup) (hmem : ∀ d, d ∈ listing ↔ d ∈ expected) :
    listing.Perm (sortExpected expected) :=
  (List.perm_ext_iff_of_nodup hnodup (nodup_sortExpected expected)).mpr fun d =>
    (hmem d).trans mem_sortExpected.symm

end Canonical

/-- A failed parse lists what the reply of its run expected. -/
theorem exists_reply_of_failure {p : Parser} {budget : Nat} {input : Text} {w w' : World}
    {f : Failure} (h : p.parse budget input w = .ok (.failure f) w') :
    ∃ r after, (p.skip .eof).run budget input 0 w = .ok r after ∧ r.status = false ∧
      f.expected = r.expectedList := by
  obtain ⟨r, after, hrun, h⟩ := Run.bind_eq_ok.mp h
  cases hstatus : r.status with
  | true =>
      rw [if_pos hstatus] at h
      cases (Run.pure_eq_ok.mp h).1
  | false =>
      rw [if_neg (by simp [hstatus])] at h
      obtain ⟨position, u, -, h⟩ := Run.bind_eq_ok.mp h
      obtain ⟨_, u', -, h⟩ := Run.bind_eq_ok.mp h
      cases (Run.pure_eq_ok.mp h).1
      exact ⟨r, after, hrun, hstatus, rfl⟩

/-- What a failed parse lists and says can be told from any enumeration of what its reply
expected. -/
theorem listed_of_failure {p : Parser} {budget : Nat} {input : Text} {w w' : World} {f : Failure}
    (h : p.parse budget input w = .ok (.failure f) w') :
    ∃ r after, (p.skip .eof).run budget input 0 w = .ok r after ∧ r.status = false ∧
      ∀ listing : List String, listing.Nodup → (∀ d, d ∈ listing ↔ d ∈ r.expected) →
        f.expected = listing.mergeSort notAfter ∧ f.expected = sortExpected listing ∧
        ∀ style, (ParseError.mk input f).message style =
          formatError input f.position listing style := by
  obtain ⟨r, after, hrun, hstatus, hexpected⟩ := exists_reply_of_failure h
  refine ⟨r, after, hrun, hstatus, fun listing hnodup hmem => ?_⟩
  have hsame : f.expected = sortExpected listing :=
    hexpected.trans (sortExpected_congr fun d => (hmem d).symm)
  have hperm : f.expected.Perm listing := by
    rw [hsame]
    exact (perm_sortExpected hnodup fun _ => Iff.rfl).symm
  exact ⟨hsame.trans (mergeSort_eq_sortExpected hnodup fun _ => Iff.rfl).symm, hsame,
    fun style => formatError_perm hperm input f.position style⟩

/-- The list of expectations and the message of a failure have one form. Sorting keeps the members
of a list, each once, in strictly increasing order of small-letter form and text, and it gives the
same list for all lists with these members: for the sorted list itself, and for any enumeration of
the set put in order by comparing small-letter forms and then texts. The message is the same for
every order of the expectations. So what a failed parse lists, and what is said about it, depends
only on the set that the reply expected, however that set is enumerated. -/
theorem listing_canonical :
    (∀ expected, (∀ d, d ∈ sortExpected expected ↔ d ∈ expected) ∧
      (sortExpected expected).Nodup ∧ (sortExpected expected).Pairwise Before) ∧
    (∀ first second : List String, (∀ d, d ∈ first ↔ d ∈ second) →
      sortExpected first = sortExpected second) ∧
    (∀ expected, sortExpected (sortExpected expected) = sortExpected expected) ∧
    (∀ listing expected : List String, listing.Nodup → (∀ d, d ∈ listing ↔ d ∈ expected) →
      listing.mergeSort notAfter = sortExpected expected) ∧
    (∀ (input : Text) (p : Position) (style : Style) (first second : List String),
      first.Perm second → formatError input p first style = formatError input p second style) ∧
    (∀ (p : Parser) (budget : Nat) (input : Text) (w w' : World) (f : Failure),
      p.parse budget input w = .ok (.failure f) w' →
      ∃ r after, (p.skip .eof).run budget input 0 w = .ok r after ∧ r.status = false ∧
        ∀ listing : List String, listing.Nodup → (∀ d, d ∈ listing ↔ d ∈ r.expected) →
          f.expected = listing.mergeSort notAfter ∧ f.expected = sortExpected listing ∧
          ∀ style, (ParseError.mk input f).message style =
            formatError input f.position listing style) := by
  refine ⟨fun expected => ⟨fun d => mem_sortExpected, nodup_sortExpected expected,
    pairwise_sortExpected expected⟩, ?_, sortExpected_sortExpected, ?_, ?_, ?_⟩
  · exact fun first second h => sortExpected_congr h
  · exact fun listing expected hnodup hmem => mergeSort_eq_sortExpected hnodup hmem
  · exact fun input p style first second h => formatError_perm h input p style
  · exact fun p budget input w w' f h => listed_of_failure h

/-- Two descriptions with the same small-letter form, enumerated in either order. -/
theorem listing_canonical_of_equal_small_forms :
    let first := ["b", "a", "A"]
    let second := ["A", "b", "a"]
    let p := ((Parser.fail "b").orElse (.fail "a")).orElse (.fail "A")
    (first.Nodup ∧ first.Perm second ∧ ∀ d, d ∈ first ↔ d ∈ second) ∧
    sortExpected first = sortExpected second ∧ sortExpected first = ["A", "a", "b"] ∧
    first.mergeSort notAfter = sortExpected second ∧
    formatError [] {} first {} = formatError [] {} second {} ∧
    ∃ f w', p.parse 2 [] {} = .ok (.failure f) w' ∧ f.expected = second.mergeSort notAfter := by
  intro first second p
  obtain ⟨-, hcongr, -, hsort, hformat, hparse⟩ := listing_canonical
  have hnodup : first.Nodup := by decide
  have hperm : first.Perm second := by decide
  have hmem (d : String) : d ∈ first ↔ d ∈ second := hperm.mem_iff
  refine ⟨⟨hnodup, hperm, hmem⟩, hcongr first second hmem, by decide +kernel,
    hsort first second hnodup hmem, hformat [] {} {} first second hperm, ?_⟩
  obtain ⟨r, after, hrun, -, hlist⟩ := hparse p 2 [] {} _ _ rfl
  obtain ⟨rfl, -⟩ := EStateM.Result.ok.inj (hrun.symm.trans rfl)
  have hreported : second.Perm ["A", "a", "b"] := by decide
  exact ⟨_, _, rfl, (hlist second (by decide) fun d => hreported.mem_iff).1⟩

end Diagnostic

end Descent
