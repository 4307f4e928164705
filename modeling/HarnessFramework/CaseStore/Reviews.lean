import HarnessFramework.CaseStore.Writes

/-!
# Separation of duties in reviews

`RecordQAResult` refuses a reviewer who made the recommendation, and files its result as a review of
the type `SEMANTIC_QA`. `RecordReview` writes to the same table with the type that the payload gives,
and neither looks the object up nor compares principals.

## Main definitions

* `Separated` — semantic QA is of recommendations, by others than who made them
* `ReviewsOthers` — what a `RecordReview` of that type has to satisfy

## Main results

* `Writes.separated_iff` — a command keeps duties separate exactly if `ReviewsOthers`
* `qa_separation` — in whole runs
-/

namespace HarnessFramework

namespace CaseStore

/-- Every review of the type `SEMANTIC_QA` is of a recommendation of the case, by another principal
than the one who made it. -/
def Separated (s : ObjectTables) : Prop :=
  ∀ r ∈ s.reviews, r.reviewType = "SEMANTIC_QA" →
    ∃ recommendation ∈ s.recommendations, recommendation.recommendationId = r.objectRef ∧
      recommendation.createdBy.principalId ≠ r.reviewer.principalId

/-- A `RecordReview` of the type `SEMANTIC_QA` names a recommendation of the case that another
principal made. -/
def ReviewsOthers (command : BusinessCommand) (s : ObjectTables) : Prop :=
  command.commandType = .recordReview → field command "reviewType" = some (.str "SEMANTIC_QA") →
    ∃ recommendation ∈ s.recommendations,
      field command "objectRef" = some (.str recommendation.recommendationId) ∧
      recommendation.createdBy.principalId ≠ command.actor.principalId

section

variable {command : BusinessCommand} {s s' : ObjectTables} {lineage : List LineageEdge}

theorem Writes.recommendations_subset (h : Writes command s lineage s') :
    s.recommendations ⊆ s'.recommendations := by
  cases h with
  | recommendation r _ hs' => rw [hs']; exact List.subset_append_left _ _
  | other _ hsame => rw [hsame.recommendations]; exact List.Subset.refl _
  | link _ _ hs' | claim _ _ hs' | fact _ _ hs' | finding _ _ hs' | gateResult _ _ hs'
  | qaResult _ _ hs' | review _ _ hs' | disposition _ _ hs' =>
    rw [hs']
    exact List.Subset.refl _

/-- The old reviews stay separated. -/
theorem Writes.separated_old (h : Writes command s lineage s') (hs : Separated s) {r : ReviewRow}
    (hr : r ∈ s.reviews) (htype : r.reviewType = "SEMANTIC_QA") :
    ∃ recommendation ∈ s'.recommendations, recommendation.recommendationId = r.objectRef ∧
      recommendation.createdBy.principalId ≠ r.reviewer.principalId := by
  obtain ⟨recommendation, hmem, hrest⟩ := hs r hr htype
  exact ⟨recommendation, h.recommendations_subset hmem, hrest⟩

/-- **A command keeps duties separate exactly if its semantic QA is of the work of others.** -/
theorem Writes.separated_iff (h : Writes command s lineage s') (hs : Separated s) :
    Separated s' ↔ ReviewsOthers command s := by
  have hold := fun {r} => h.separated_old (r := r) hs
  -- A command of another kind promises nothing, and keeps the reviews or adds a separated one.
  have hkept (htype : command.commandType ≠ .recordReview) (hreviews : s'.reviews = s.reviews) :
      Separated s' ↔ ReviewsOthers command s := by
    refine ⟨fun _ hreview => absurd hreview htype, fun _ r hr => hold ?_⟩
    rwa [← hreviews]
  cases h with
  | review r htype hs' _ hreviewType hobjectRef hreviewer =>
    subst hs'
    rw [Separated, List.forall_mem_append, List.forall_mem_singleton]
    constructor
    · rintro ⟨-, hnew⟩ - hqa
      rw [hreviewType, Option.some_inj, Json.str.injEq] at hqa
      obtain ⟨recommendation, hmem, hid, hne⟩ := hnew hqa
      exact ⟨recommendation, hmem, by rw [hobjectRef, hid], hreviewer ▸ hne⟩
    · intro hothers
      refine ⟨fun r hr => hold hr, fun hqa => ?_⟩
      obtain ⟨recommendation, hmem, hid, hne⟩ := hothers htype (by rw [hreviewType, hqa])
      rw [hobjectRef, Option.some_inj, Json.str.injEq] at hid
      exact ⟨recommendation, hmem, hid.symm, hreviewer ▸ hne⟩
  | qaResult r htype hs' _ _ hreviewer hfound =>
    subst hs'
    rw [Separated, List.forall_mem_append, List.forall_mem_singleton]
    refine ⟨fun _ hreview => absurd hreview (by simp [htype]), fun _ => ⟨fun r hr => hold hr, ?_⟩⟩
    rw [hreviewer]
    exact fun _ => hfound
  | other htype hsame _ =>
    refine hkept (fun heq => ?_) hsame.reviews
    simp [heq] at htype
  | link _ htype hs' | claim _ htype hs' | fact _ htype hs' | finding _ htype hs'
  | recommendation _ htype hs' | gateResult _ htype hs' | disposition _ htype hs' =>
    exact hkept (by simp [htype]) (by rw [hs'])

theorem WrittenHistory.separated_iff {es : List CaseEntry} {t : CaseTables}
    (h : WrittenHistory es t) : Throughout Separated es t ↔ AcceptedOnly ReviewsOthers es := by
  have hempty : Separated .empty := List.forall_mem_nil _
  refine (h.throughout_iff (I := fun _ => True) ⟨trivial, hempty⟩ ?_ ?_).2
  · exact fun _ _ _ => ⟨trivial, id⟩
  · exact fun _ _ _ _ _ _ hwrites _ => ⟨trivial, hwrites.separated_iff⟩

end

namespace Sample

/-- A review of the type `SEMANTIC_QA`, by the analyst who made the recommendation. -/
def selfReviewCalls : List Call :=
  [createCall,
    taggedCall ⟨"recommend", recommend_key⟩ .submitDecisionRecommendation 1
      [("recommendationId", .str "recommendation"), ("findingRefs", .arr [.str "finding"]),
        ("outcome", .str "APPROVE"), ("rationale", .str "rationale")],
    .submitBusinessCommand (env "review") { command checksum ⟨"review", review_key⟩ .recordReview 2
      [("reviewId", .str "review"), ("reviewType", .str "SEMANTIC_QA"), ("outcome", .str "PASS"),
        ("objectRef", .str "recommendation"), ("rationale", .str "rationale")] none with
      actor := analyst ⟨"recommend", by decide⟩ }]

end Sample

section

variable {sha256 : List Char → String} {evidenceRequireScan : Bool} {ι : Type} [DecidableEq ι]
  {s : CaseSystem ι}

/-- **Separation of duties in QA.** In every state that clients of the case store reach side by side,
every semantic QA in the history of a case was of a recommendation of the case by another principal
exactly if every accepted `RecordReview` of the type `SEMANTIC_QA` named such a recommendation. -/
theorem qa_separation
    (h : System.Reachable (caseService sha256 evidenceRequireScan) OutboxRelay noCases s)
    (key : CaseKey) :
    Throughout Separated (s.history (caseService sha256 evidenceRequireScan) key) (s.db key) ↔
      AcceptedOnly ReviewsOthers (s.history (caseService sha256 evidenceRequireScan) key) :=
  WrittenHistory.separated_iff (h.store.history (call_written sha256 evidenceRequireScan) key)

open Sample in
theorem qa_separation_sample :
    Throughout Separated
        ((after checksum selfReviewCalls).history (caseService checksum false)
          (caseKey checksum))
        ((after checksum selfReviewCalls).db (caseKey checksum)) ↔
      AcceptedOnly ReviewsOthers
        ((after checksum selfReviewCalls).history (caseService checksum false)
          (caseKey checksum)) :=
  qa_separation (reachable_after checksum selfReviewCalls) (caseKey checksum)

open Sample in
set_option maxRecDepth 40000 in
/-- The analyst who recommended passes the semantic QA of the recommendation. -/
theorem self_review :
    ¬ ∀ (s : CaseSystem Unit),
      System.Reachable (caseService checksum false) OutboxRelay noCases s →
      ∀ key, Separated (s.db key).objects := by
  intro hclaim
  have hseparated := hclaim _ (reachable_after checksum selfReviewCalls) (caseKey checksum)
  have hobjects :
      let objects := ((after checksum selfReviewCalls).db (caseKey checksum)).objects
      objects.reviews.map (fun r => (r.reviewType, r.objectRef, r.reviewer.principalId.val)) =
          [("SEMANTIC_QA", "recommendation", "recommend")] ∧
        objects.recommendations.map (fun r => r.createdBy.principalId.val) = ["recommend"] := by
    decide +kernel
  obtain ⟨hreviews, hrecommendations⟩ := hobjects
  obtain ⟨r, hr, heq⟩ := List.map_eq_singleton_iff.mp hreviews
  obtain ⟨hqa, -, hreviewer⟩ := Prod.mk.inj heq |>.imp_right Prod.mk.inj
  obtain ⟨recommendation, hmem, -, hne⟩ := hseparated r (hr ▸ List.mem_singleton_self r) hqa
  have hcreator := hrecommendations ▸ List.mem_map_of_mem hmem
  exact hne (Subtype.ext ((List.mem_singleton.mp hcreator).trans hreviewer.symm))

end

end CaseStore

end HarnessFramework
