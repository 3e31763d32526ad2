/-
# Merging many replies

Several replies can be merged two at a time in many ways, and none of them shows in the result. The
newest reply says how it ended; the furthest failure is the furthest of all, and what is expected
there is whatever the replies that got so far expected. Hence the older replies can be merged in any
order, and once more, without a difference.
-/

import Descent.Proofs.Merging

namespace Descent

namespace Reply

variable {t u a a' : Reply} {rs rs' : List Reply}

/-- A reply unites others: it ends as the newest of them does, at the largest of their furthest
offsets, and expects whatever those that got there expected. -/
structure Unites (t newest : Reply) (rs : List Reply) : Prop extends t.Gathers rs where
  status_eq : t.status = newest.status
  index_eq : t.index = newest.index
  value_eq : t.value = newest.value
  furthest_mem : ∃ r ∈ rs, r.furthest = t.furthest

theorem unites_singleton (r : Reply) : r.Unites r [r] where
  furthest_le := by simp
  mem_expected_iff d := by simp
  status_eq := rfl
  index_eq := rfl
  value_eq := rfl
  furthest_mem := by simp

/-- Merged replies unite what both of them unite, under the newest of the newer one. -/
theorem Unites.mergeWith (h : t.Unites a rs) (h' : u.Unites a' rs') :
    (t.mergeWith u).Unites a (rs ++ rs') where
  toGathers := h.toGathers.mergeWith h'.toGathers
  status_eq := (mergeWith_status t u).trans h.status_eq
  index_eq := (mergeWith_index t u).trans h.index_eq
  value_eq := (mergeWith_value t u).trans h.value_eq
  furthest_mem := by
    obtain ⟨r, hr, hfurthest⟩ := h.furthest_mem
    obtain ⟨r', hr', hfurthest'⟩ := h'.furthest_mem
    rw [mergeWith_furthest]
    by_cases hle : u.furthest ≤ t.furthest
    · exact ⟨r, List.mem_append_left _ hr, by omega⟩
    · exact ⟨r', List.mem_append_right _ hr', by omega⟩

/-- Which replies are united counts, but not in which order and how often. -/
theorem Unites.congr (h : t.Unites a rs) (hsame : ∀ r, r ∈ rs ↔ r ∈ rs') : t.Unites a rs' where
  toGathers := h.toGathers.congr hsame
  status_eq := h.status_eq
  index_eq := h.index_eq
  value_eq := h.value_eq
  furthest_mem := by simpa only [hsame] using h.furthest_mem

/-- Only one reply unites given replies under a given one. -/
theorem Unites.eq (h : t.Unites a rs) (h' : u.Unites a rs) : t = u := by
  have hfurthest : t.furthest = u.furthest := by
    obtain ⟨r, hr, hrt⟩ := h.furthest_mem
    obtain ⟨r', hr', hru⟩ := h'.furthest_mem
    have hle := h'.furthest_le r hr
    have hle' := h.furthest_le r' hr'
    omega
  refine ext_expected (h.status_eq.trans h'.status_eq.symm) (h.index_eq.trans h'.index_eq.symm)
    (h.value_eq.trans h'.value_eq.symm) hfurthest fun d => ?_
  rw [h.mem_expected_iff, h'.mem_expected_iff, hfurthest]

/-- A way to merge several replies two at a time. -/
inductive Bracketing where
  | reply (r : Reply)
  | merge (newer older : Bracketing)

namespace Bracketing

variable {b b' : Bracketing} {older older' : List Reply}

/-- The merged replies, the newest first. -/
def replies : Bracketing → List Reply
  | reply r => [r]
  | merge newer older => newer.replies ++ older.replies

/-- What the merges come to. -/
def result : Bracketing → Reply
  | reply r => r
  | merge newer older => newer.result.merge (some older.result)

/-- The reply that all others are older context of. -/
def newest : Bracketing → Reply
  | reply r => r
  | merge newer _ => newer.newest

theorem exists_replies_eq (b : Bracketing) : ∃ older, b.replies = b.newest :: older := by
  induction b with
  | reply r => exact ⟨[], rfl⟩
  | merge newer older ihNewer _ =>
      obtain ⟨rest, hrest⟩ := ihNewer
      exact ⟨rest ++ older.replies, by rw [replies, hrest, newest, List.cons_append]⟩

/-- The newest reply is the first. -/
theorem newest_eq (h : b.replies = a :: older) : b.newest = a := by
  obtain ⟨rest, hrest⟩ := b.exists_replies_eq
  exact (List.cons.inj (hrest.symm.trans h)).1

/-- All merges together unite the replies that went into them. -/
theorem result_unites (b : Bracketing) : b.result.Unites b.newest b.replies := by
  induction b with
  | reply r => exact unites_singleton r
  | merge newer older ihNewer ihOlder => exact ihNewer.mergeWith ihOlder

theorem result_unites_of_replies_eq (h : b.replies = a :: older) :
    b.result.Unites a (a :: older) := by
  have hunites := b.result_unites
  rwa [newest_eq h, h] at hunites

/-- The result is the same for the same newest reply and the same replies in all. -/
theorem result_eq_of_same (h : b.replies = a :: older) (h' : b'.replies = a :: older')
    (hsame : ∀ r, r ∈ a :: older ↔ r ∈ a :: older') : b.result = b'.result :=
  ((result_unites_of_replies_eq h).congr hsame).eq (result_unites_of_replies_eq h')

section Folds

/-- Further replies merged one after another as older context. -/
def withOlder (b : Bracketing) (rs : List Reply) : Bracketing :=
  rs.foldl (fun merged r => merge merged (reply r)) b

/-- Further replies merged one after another as newer ones. -/
def withNewer (b : Bracketing) (rs : List Reply) : Bracketing :=
  rs.foldl (fun merged r => merge (reply r) merged) b

theorem replies_withOlder (b : Bracketing) (rs : List Reply) :
    (b.withOlder rs).replies = b.replies ++ rs := by
  induction rs generalizing b with
  | nil => exact (List.append_nil _).symm
  | cons r rs ih =>
      have hrest := ih (merge b (reply r))
      simpa [withOlder, replies] using hrest

theorem replies_withNewer (b : Bracketing) (rs : List Reply) :
    (b.withNewer rs).replies = rs.reverse ++ b.replies := by
  induction rs generalizing b with
  | nil => rfl
  | cons r rs ih =>
      have hrest := ih (merge (reply r) b)
      simpa [withNewer, replies] using hrest

/-- After each step, folding replies as older context has merged all of them so far. -/
theorem getElem?_mergeOlder (b : Bracketing) (rest : List Reply) {k : Nat}
    (hk : k < rest.length) :
    (mergeOlder (some b.result) (rest.map some))[k]? =
      some (some (b.withOlder (rest.take (k + 1))).result) := by
  induction rest generalizing b k with
  | nil => exact absurd hk (Nat.not_lt_zero k)
  | cons r rest ih =>
      cases k with
      | zero => rfl
      | succ k => exact ih (merge b (reply r)) (Nat.lt_of_succ_lt_succ hk)

/-- After each step, folding replies as newer ones has merged all of them so far. -/
theorem getElem?_mergeNewer (b : Bracketing) (rest : List Reply) {k : Nat}
    (hk : k < rest.length) :
    (mergeNewer (some b.result) (rest.map some))[k]? =
      some (some (b.withNewer (rest.take (k + 1))).result) := by
  induction rest generalizing b k with
  | nil => exact absurd hk (Nat.not_lt_zero k)
  | cons r rest ih =>
      cases k with
      | zero => rfl
      | succ k => exact ih (merge (reply r) b) (Nat.lt_of_succ_lt_succ hk)

/-- Every list of replies can be bracketed, for instance by folding it. -/
theorem exists_replies_eq_cons (a : Reply) (older : List Reply) :
    ∃ b : Bracketing, b.replies = a :: older :=
  ⟨(reply a).withOlder older, replies_withOlder (reply a) older⟩

/-- Each result of folding replies as older context unites the replies so far under the first. -/
theorem mergeOlder_unites (first : Reply) (rest : List Reply) {k : Nat} (hk : k < rest.length) :
    ∃ b : Bracketing, b.replies = first :: rest.take (k + 1) ∧
      (mergeOlder (some first) (rest.map some))[k]? = some (some b.result) ∧
      b.result.Unites first (first :: rest.take (k + 1)) := by
  have hreplies := replies_withOlder (reply first) (rest.take (k + 1))
  exact ⟨_, hreplies, getElem?_mergeOlder (reply first) rest hk,
    result_unites_of_replies_eq hreplies⟩

/-- Each result of folding replies as newer ones unites the replies so far under the last. -/
theorem mergeNewer_unites (first : Reply) (rest : List Reply) {k : Nat} (hk : k < rest.length) :
    ∃ b : Bracketing, b.replies = (first :: rest.take (k + 1)).reverse ∧
      (mergeNewer (some first) (rest.map some))[k]? = some (some b.result) ∧
      b.result.Unites rest[k] (first :: rest.take (k + 1)) := by
  have hreplies : ((reply first).withNewer (rest.take (k + 1))).replies =
      (first :: rest.take (k + 1)).reverse := by
    rw [replies_withNewer, replies, List.reverse_cons]
  have hlast : (first :: rest.take (k + 1)).reverse =
      rest[k] :: (first :: rest.take k).reverse := by
    rw [← List.take_concat_get' rest k hk, ← List.cons_append, List.reverse_append]
    rfl
  have hunites := result_unites_of_replies_eq (hreplies.trans hlast)
  rw [← hlast] at hunites
  exact ⟨_, hreplies, getElem?_mergeNewer (reply first) rest hk,
    hunites.congr fun _ => List.mem_reverse⟩

end Folds

/-- All merges of a list of replies come to one reply, however they are bracketed. It ends as the
newest of them does, at the largest of their furthest offsets, and expects whatever is expected by
those of them that got there. Folding replies as older context is such a merge at every step, with
the first one as the newest, and so is folding them as newer ones, with the last one as the newest.
The older replies can be merged in any order, and any reply once more among them, with the same
result. -/
theorem merges_unite :
    (∀ (newest : Reply) (older : List Reply),
      (∃ b : Bracketing, b.replies = newest :: older) ∧
      ∃ t : Reply, t.Unites newest (newest :: older) ∧
        ∀ b : Bracketing, b.replies = newest :: older → b.result = t) ∧
    (∀ (first : Reply) (rest : List Reply) (k : Nat) (hk : k < rest.length),
      (∃ b : Bracketing, b.replies = first :: rest.take (k + 1) ∧
        (mergeOlder (some first) (rest.map some))[k]? = some (some b.result) ∧
        b.result.Unites first (first :: rest.take (k + 1))) ∧
      ∃ b : Bracketing, b.replies = (first :: rest.take (k + 1)).reverse ∧
        (mergeNewer (some first) (rest.map some))[k]? = some (some b.result) ∧
        b.result.Unites rest[k] (first :: rest.take (k + 1))) ∧
    (∀ (b b' : Bracketing) (newest : Reply) (older older' : List Reply),
      b.replies = newest :: older → b'.replies = newest :: older' →
      (older'.Perm older → b'.result = b.result) ∧
      ∀ r ∈ newest :: older, older'.Perm (r :: older) → b'.result = b.result) := by
  refine ⟨fun newest older => ?_, fun first rest k hk => ?_, ?_⟩
  · obtain ⟨b, hb⟩ := exists_replies_eq_cons newest older
    have hunites := result_unites_of_replies_eq hb
    exact ⟨⟨b, hb⟩, b.result, hunites, fun b' hb' => (result_unites_of_replies_eq hb').eq hunites⟩
  · exact ⟨mergeOlder_unites first rest hk, mergeNewer_unites first rest hk⟩
  · intro b b' newest older older' hb hb'
    refine ⟨fun hperm => ?_, fun r hr hperm => ?_⟩
    · exact result_eq_of_same hb' hb fun q => (hperm.cons newest).mem_iff
    · refine result_eq_of_same hb' hb fun q => ?_
      rw [(hperm.cons newest).mem_iff, (List.Perm.swap r newest older).mem_iff, List.mem_cons]
      refine or_iff_right_of_imp ?_
      rintro rfl
      exact hr

/-- A success behind two failures at one offset and one before every offset: the older replies in
two orders, one of them twice, and all of them folded from the oldest on. -/
theorem merges_unite_of_tied_failures :
    let newest : Reply := ⟨true, 2, .str "v", 1, .singleton "'a'"⟩
    let early : Reply := ⟨false, 7, .int 4, -5, .singleton "'b'"⟩
    let x : Reply := .error 3 "'x'"
    let y : Reply := .error 3 "'y'"
    let b := merge (reply newest) (merge (merge (reply x) (reply early)) (reply y))
    let b' := merge (merge (reply newest) (reply early)) (merge (reply y) (reply x))
    let twice := merge b (reply x)
    (b.replies = newest :: [x, early, y] ∧ b'.replies = newest :: [early, y, x] ∧
      twice.replies = newest :: [x, early, y, x] ∧ x ∈ newest :: [x, early, y] ∧
      [early, y, x].Perm [x, early, y] ∧ [x, early, y, x].Perm (x :: [x, early, y]) ∧
      2 < [early, x, newest].length) ∧
    b.result.status = true ∧ b.result.index = 2 ∧ b.result.furthest = 3 ∧
    b.result.expected.toList = ["'x'", "'y'"] ∧ b'.result = b.result ∧
    twice.result = b.result ∧
    (mergeNewer (some y) ([early, x, newest].map some))[2]? = some (some b.result) := by
  intro newest early x y b b' twice
  obtain ⟨hform, hfold, hsame⟩ := merges_unite
  have hperm : [early, y, x].Perm [x, early, y] := List.perm_append_singleton x [early, y]
  have hagain : [x, early, y, x].Perm (x :: [x, early, y]) :=
    List.perm_append_singleton x [x, early, y]
  have hmem : x ∈ newest :: [x, early, y] := by simp
  obtain ⟨-, folded, hreplies, hstep, -⟩ := hfold y [early, x, newest] 2 (by decide)
  have hfolded : folded.result = b.result :=
    (hsame b folded newest [x, early, y] _ rfl hreplies).1 (.refl _)
  refine ⟨⟨rfl, rfl, rfl, hmem, hperm, hagain, by decide⟩, rfl, rfl, rfl, rfl,
    (hsame b b' newest _ _ rfl rfl).1 hperm, (hsame b twice newest _ _ rfl rfl).2 x hmem hagain, ?_⟩
  rw [hstep, hfolded]

end Bracketing

end Reply

end Descent
