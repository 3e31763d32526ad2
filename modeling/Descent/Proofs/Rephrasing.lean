/-
# Rules in other words

The rules of a world may be rephrased as well as the grammar that is called. Deferred rules make
a difference here: a handle that was built while a reference was unbound keeps the failure of
that reference, and whether a rule that leads to this handle keeps it as well depends on whether
a label stands between the two. In worlds that were set up before anything was run, calls still
end in the same way; without that condition, a label in a rule can change how far a parse gets.
-/

import Descent.Proofs.Wording

namespace Descent

/-- Two worlds that have been set up alike, but for the wording of their rules. -/
structure World.Rephrases (o o' : World) : Prop where
  threshold_eq : o.threshold = o'.threshold
  names_eq : o.names = o'.names
  references_eq : o.references = o'.references
  deferred_eq : o.deferred = o'.deferred
  rules : ∀ rule, Option.Rel (Description.Rephrased []) (lookup? rule o.rules)
    (lookup? rule o'.rules)

namespace World

variable {o o' w w' : World} {d d' : Description}

theorem Rephrases.symm (h : o.Rephrases o') : o'.Rephrases o where
  threshold_eq := h.threshold_eq.symm
  names_eq := h.names_eq.symm
  references_eq := h.references_eq.symm
  deferred_eq := h.deferred_eq.symm
  rules rule := by
    have hrule := h.rules rule
    generalize lookup? rule o.rules = entry at hrule ⊢
    generalize lookup? rule o'.rules = entry' at hrule ⊢
    cases hrule with
    | none => exact .none
    | some hd => exact .some hd.symm

/-- One rule is given a description in other words. -/
theorem Rephrases.assign (name : String) (hrule : lookup? name o.rules = some d)
    (hd : d.Rephrased [] d') : o.Rephrases { o with rules := World.assign name d' o.rules } where
  threshold_eq := rfl
  names_eq := rfl
  references_eq := rfl
  deferred_eq := rfl
  rules rule := by
    rw [lookup?_assign]
    split
    · next heq =>
      rw [← heq, hrule]
      exact .some hd
    · cases lookup? rule o.rules with
      | none => exact .none
      | some e => exact .some (.refl [] e)

theorem Rephrases.unrun (h : o.Rephrases o') (ho : o.Unrun) : o'.Unrun :=
  ho.congr h.names_eq.symm h.references_eq.symm h.deferred_eq.symm

theorem reflects_wording (s : Text) : (Revision.wording s).Reflects where
  leaf h := .primitive h
  same _ d := ⟨[], .refl [] d, by simp [Bindings.Covers]⟩

/-- Building in worlds that were set up alike, but for wording. -/
theorem Rephrases.growth (h : o.Rephrases o') (ho : o.Unrun) (hw : o.Kin w) (hw' : o'.Kin w')
    (s : Text) : (Comparison.growth w w').Rewords (Revision.wording s).Revises where
  later hv hv' hp := hp.later hv hv'
  primitive hp := .base (.leaf (.primitive hp))
  same_fault _ := rfl
  built d bindings := .base (.built ((reflects_wording s).same bindings d))
  known name hrelated :=
    optionRel_mono ((reflects_wording s).known h.deferred_eq ho h.names_eq (hw.grows hrelated.1)
      (hw'.grows hrelated.2) name) fun _ _ => .base
  newDeferred rule hrelated :=
    follows_newDeferred rule hrelated fun hl hl' => .base (.base (.deferred hl hl'))
  fail e e' := .base (.leaf (.fail e e'))
  labelLeft text hp :=
    .left (.label _ text) (.of_alike (Revision.wording s).pairs_traced hp fun _ _ h => h)
  labelRight text hp :=
    .right (.label _ text) (.of_alike (Revision.wording s).pairs_traced hp fun _ _ h => h)
  notFollowedBy t t' hp :=
    .pair (.notFollowedBy t t' _ _) (.of_alike (Revision.wording s).pairs_traced hp fun _ _ h => h)
  rebuilt hd hbindings := .base (.built ⟨_, hd, hbindings⟩)

/-- Changes of wording make no difference to runs. -/
theorem Rephrases.joins (h : o.Rephrases o') (ho : o.Unrun) (s : Text) :
    (Revision.wording s).Joins o o' where
  toRespects := Revision.respects_wording (accompanies_across h.threshold_eq) s
  unrun := ho
  unrun' := h.unrun ho
  behaviour_eq r := by
    unfold behaviour
    rw [h.references_eq]
  target := (reflects_wording s).target h.deferred_eq ho h.references_eq
  rules rule :=
    optionRel_mono (h.rules rule) fun _ _ hd => ⟨[], hd, by simp [Bindings.Covers]⟩
  builds hw hw' := by
    rintro ⟨scope, hd, hbindings⟩
    exact hd.buildsAlike (h.growth ho hw hw' s) hbindings
  builds_back hw hw' := by
    rintro ⟨scope, hd, hbindings⟩ hbuild
    have hback := hd.symm.buildsAlike (h.symm.growth (h.unrun ho) hw' hw s) hbindings
    obtain ⟨p, v, hp, -⟩ := hback.exists_eq_ok hbuild
    exact ⟨p, v, hp⟩

end World

/-- The offset at which a reply stops. -/
def Answer.index? : Answer → Option Int
  | .reply r => some r.index
  | _ => none

theorem Report.Matches.index?_eq {r r' : Report Answer}
    (h : r.Matches (Answer.Replies Reply.Tallies) r') :
    r.result.toOption.bind Answer.index? = r'.result.toOption.bind Answer.index? := by
  cases h with
  | answer h =>
      cases h with
      | reply h => exact congrArg some h.index_eq
  | fault f => rfl

namespace Session

/-- Descriptions that differ in wording are called alike in worlds whose rules do so as well,
whatever was run since everything was set up. -/
theorem callsTally_of_rephrases {o o' w w' : World} {d d' : Description} (ho : o.Rephrases o')
    (hunrun : o.Unrun) (hw : o.Descends w) (hw' : o'.Descends w') (hd : d.Rephrased [] d')
    (s : Text) (i : Int) : CallsTally w w' d d' s i := by
  have hunrun' := ho.unrun hunrun
  have hcovers : Bindings.Covers [] [] := by simp [Bindings.Covers]
  apply Report.matches_of_eventually
  · intro n hended
    exact (ho.joins hunrun s).eventually_matches hw hw' ⟨[], hd, hcovers⟩ rfl hended
  · intro m hended
    obtain ⟨n, hn⟩ := ((ho.symm.joins hunrun' s).eventually_matches hw' hw ⟨[], hd.symm, hcovers⟩
      rfl hended).exists
    exact ⟨n, hn.ended⟩
  · intro m hended
    exact eventually_steady hended

/-- Nested brackets around an `x`. -/
def nest (inner : Description) : Description :=
  .join .orElse
    (.between (.atom (.string (.value (.str "(")))) (.atom (.string (.value (.str ")")))) inner)
    (.atom (.string (.value (.str "x"))))

/-- Two deferred rules are made, one leading to a reference and the other one to the first rule,
and they are run before the reference is bound. The first then keeps the failure of the
reference, the second one goes on building the first anew. -/
def lateBinding : List Step :=
  [.reference "r", .rule "Z" (.known "r"), .assign "j" (.deferred "Z" none),
    .rule "W" (.known "j"), .assign "m" (.deferred "W" none), .call (.known "m") ['a'] 0,
    .bindReference "r" (.atom (.string (.value (.str "a")))), .rule "V" (.known "j")]

theorem leads_lateBinding : Leads {} lateBinding (worldAfter 20 {} lateBinding) :=
  leads_worldAfter (by decide +kernel)

/-- The wording of what is called never steers a parse, nor does that of rules which were set up
before the first run. Let a description be called, and one in other words. In every world,
whatever has been run and bound in it, the two calls end in the same way: one ends if and only if
the other one does, and however much budget both are given, they have the same fault, or replies
that differ at most in what they expected. If everything was set up before the first run, the
rules of the world may be rephrased as well, and any runs may have been made in each of the two
worlds since. -/
theorem rephrased_calls_tally (d d' : Description) (s : Text) (i : Int)
    (hd : d.Rephrased [] d') :
    (∀ w : World, CallsTally w w d d' s i) ∧
    ∀ (setUp history history' : List Step) (o o' w w' : World),
      (∀ step ∈ setUp, ¬ step.IsRun) → Leads {} setUp o → o.Rephrases o' →
      (∀ step ∈ history, step.IsRun) → Leads o history w →
      (∀ step ∈ history', step.IsRun) → Leads o' history' w' →
      CallsTally w w' d d' s i := by
  refine ⟨fun w => callsTally_of_rephrased w hd s i, ?_⟩
  intro setUp history history' o o' w w' hsetUp hstart ho hruns hhistory hruns' hhistory'
  have hunrun : o.Unrun := hstart.unrun (.empty .warning) hsetUp
  have hunrun' := ho.unrun hunrun
  exact callsTally_of_rephrases ho hunrun (hhistory.descends hunrun hunrun.descends hruns)
    (hhistory'.descends hunrun' hunrun'.descends hruns') hd s i

/-- A rule for nested brackets that is run once and then followed by a failure, and the same
in other words: there is a label around the rule, the rule is described where it is deferred,
and the failure is reported under another name. After the late binding, a label around one of
the handles makes no difference either. -/
theorem rephrased_calls_tally_of_nest :
    (∃ o w w', Leads {} [.rule "nest" (nest (.deferred "nest" none))] o ∧
      Leads o [.call (.deferred "nest" none) ['(', 'x', ')'] 0] w ∧
      Leads { o with rules := World.assign "nest" (.wrap (.label (.value (.str "a nest")))
        (nest (.deferred "nest" (some "an inner nest")))) o.rules } [] w' ∧
      (observe w (Step.perform 20 (.call (.join .andThen (.deferred "nest" none)
        (.atom (.fail (.value (.str "more"))))) ['(', 'x', ')'] 0))).1.Matches
        (Answer.Replies Reply.Tallies)
        (observe w' (Step.perform 20 (.call (.join .andThen (.deferred "nest" (some "nest"))
          (.atom (.fail (.value (.str "nothing"))))) ['(', 'x', ')'] 0))).1) ∧
    ∃ w, Leads {} lateBinding w ∧
      (observe w (Step.perform 20 (.call (.join .andThen (.wrap .optional (.known "j"))
        (.known "m")) ['a', 'a'] 0))).1.Matches (Answer.Replies Reply.Tallies)
        (observe w (Step.perform 20 (.call (.join .andThen (.wrap .optional
          (.wrap (.label (.value (.str "x"))) (.known "j"))) (.known "m")) ['a', 'a'] 0))).1 := by
  have hnest : (Description.join .andThen (.deferred "nest" none)
      (.atom (.fail (.value (.str "more"))))).Rephrased [] (.join .andThen
        (.deferred "nest" (some "nest")) (.atom (.fail (.value (.str "nothing"))))) :=
    .join .andThen (.deferred _ _ _) (.fail (.value _ _) (.value _ _))
  have hlabel : (Description.join .andThen (.wrap .optional (.known "j"))
      (.known "m")).Rephrased [] (.join .andThen (.wrap .optional
        (.wrap (.label (.value (.str "x"))) (.known "j"))) (.known "m")) :=
    .join .andThen (.wrap .optional (.labelRight (.value _ _) (.known "j"))) (.known "m")
  refine ⟨⟨_, _, _, .cons 0 (by decide +kernel) (.nil _), .cons 20 (by decide +kernel) (.nil _),
    .nil _, ?_⟩, _, leads_lateBinding, ?_⟩
  · exact ((rephrased_calls_tally _ _ _ _ hnest).2 _ _ _ _ _ _ _ (by simp [Step.IsRun])
      (.cons 0 (by decide +kernel) (.nil _))
      (.assign _ rfl (.labelRight (.value _ _) (.join .orElse
        (.between (.refl _ _) (.refl _ _) (.deferred _ _ _)) (.refl _ _))))
      (by simp [Step.IsRun]) (.cons 20 (by decide +kernel) (.nil _)) (by simp) (.nil _)).2 20 20
      (by decide +kernel) (by decide +kernel)
  · exact ((rephrased_calls_tally _ _ _ _ hlabel).1 _).2 20 20 (by decide +kernel)
      (by decide +kernel)

/-- Where a rule is rephrased after the late binding, a label can change how far a parse gets. -/
theorem not_forall_rephrased_calls_tally :
    ¬ ∀ (steps : List Step) (w w' : World) (d d' : Description) (s : Text) (i : Int)
      (budget budget' : Nat), Leads {} steps w → w.Rephrases w' → d.Rephrased [] d' →
      0 ≤ i → i ≤ s.length →
      (observe w (Step.perform budget (.call d s i))).1.Ended →
      (observe w' (Step.perform budget' (.call d' s i))).1.Ended →
      (observe w (Step.perform budget (.call d s i))).1.Matches (Answer.Replies Reply.Tallies)
        (observe w' (Step.perform budget' (.call d' s i))).1 := by
  intro h
  have hlabel : (Description.known "j").Rephrased []
      (.wrap (.label (.value (.str "x"))) (.known "j")) := .labelRight (.value _ _) (.known "j")
  have hmatches := h lateBinding _ _ (.wrap (.times (.value (.int 2)) none)
      (.join .andThen (.wrap .optional (.deferred "V" none)) (.known "m"))) _ ['a', 'a', 'a'] 0
    20 20 leads_lateBinding
    (.assign "V" rfl hlabel) (.refl [] _) (by decide) (by decide) (by decide +kernel)
    (by decide +kernel)
  exact absurd hmatches.index?_eq (by decide +kernel)

end Session

end Descent
