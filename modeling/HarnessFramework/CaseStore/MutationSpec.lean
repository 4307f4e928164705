import HarnessFramework.CaseStore.Mutation

/-!
# What a command may do

`applyMutation_wp` sums up `Mutation`: a command that is accepted does one of three things. Most
commands leave the status and the dispositions alone; two move the status and write no row; one
writes a disposition and moves the status to its outcome.

## Main definitions

* `Routine`, `Moves`, `Disposes`, `Mutates` — the cases

## Main results

* `addSubject_wp` … `finalizeDisposition_wp` — one for each handler
* `applyMutation_wp` — the three cases
-/

namespace HarnessFramework

namespace CaseStore

/-- The handler leaves the status and the dispositions alone, keeps every recommendation and adds
gate results for existing recommendations only. -/
structure Routine (s : ObjectTables) (result : MutationResult) (s' : ObjectTables) : Prop where
  nextStatus : result.nextStatus = none
  dispositions : s'.dispositions = s.dispositions
  recommendations : s.recommendations ⊆ s'.recommendations
  gateResults : ∀ g ∈ s'.gateResults, g ∈ s.gateResults ∨
    ∃ r ∈ s.recommendations, r.recommendationId = g.recommendationRef

/-- The handler moves the status along the status graph, to no disposition, and writes no row. -/
structure Moves (current : CaseRow) (s : ObjectTables) (result : MutationResult)
    (s' : ObjectTables) : Prop where
  objects : s' = s
  nextStatus : ∃ status ∈ allowedTransitions current.status,
    status ≠ .approved ∧ status ≠ .declined ∧ result.nextStatus = some status

/-- The handler writes the disposition `d`, on the strength of an authorized gate result and with no
open contradiction of high materiality, and moves the status to its outcome. -/
structure Disposes (command : BusinessCommand) (current : CaseRow) (s : ObjectTables)
    (result : MutationResult) (s' : ObjectTables) (d : DispositionRow) : Prop where
  objects : s' = { s with dispositions := s.dispositions ++ [d] }
  nextStatus : result.nextStatus = some d.outcome.status
  actor : command.actor.type = .human ∧ HasKycRole command.actor
  status : current.status = .humanReview
  recommendation : field command "recommendationRef" = some (.str d.recommendationRef)
  gate : ∃ g ∈ s.gateResults, g.gateResultId = d.gateResultRef ∧ g.decision = .authorized ∧
    g.recommendationRef = d.recommendationRef
  contradictions : ¬ ∃ r ∈ s.contradictions, r.BlocksDisposition

/-- What a command that is accepted does. -/
def Mutates (command : BusinessCommand) (current : CaseRow) (s : ObjectTables)
    (result : MutationResult) (s' : ObjectTables) : Prop :=
  command.commandType ≠ .finalizeDisposition ∧ (Routine s result s' ∨ Moves current s result s') ∨
    command.commandType = .finalizeDisposition ∧ ∃ d, Disposes command current s result s' d

theorem Routine.of_same {s s' : ObjectTables} {result : MutationResult}
    (hstatus : result.nextStatus = none) (hd : s'.dispositions = s.dispositions)
    (hr : s'.recommendations = s.recommendations) (hg : s'.gateResults = s.gateResults) :
    Routine s result s' :=
  ⟨hstatus, hd, hr ▸ List.Subset.refl _, fun _ h => .inl (hg ▸ h)⟩

/-! ## Payload checks -/

theorem requiredString_ok {value : Option Json} {f text : String}
    (h : requiredString value f = .ok text) : value = some (.str text) ∧ text ≠ "" := by
  unfold requiredString at h
  split at h
  · split at h
    · obtain rfl := Except.ok.inj h; exact ⟨rfl, by assumption⟩
    · cases h
  · cases h

theorem enumValue_ok {α : Type} {all : List α} {text : α → String} {value : Option Json} {a : α}
    (h : enumValue all text value = .ok a) : a ∈ all := by
  unfold enumValue at h
  split at h
  · split at h
    · next hfind => obtain rfl := Except.ok.inj h; exact List.mem_of_find?_eq_some hfind
    · cases h
  · cases h

section

variable {sha256 : List Char → String} {evidenceRequireScan : Bool} {command : BusinessCommand}
  {current : CaseRow} {env : Env} {s : ObjectTables}

@[simp] theorem wp_check {α : Type} {x : Except Failure α}
    {Q : α → ObjectTables → List OutboxRow → Prop} :
    (check x).wp Q s ↔ ∀ a, x = .ok a → Q a s [] := Txn.wp_ofExcept

@[simp] theorem wp_demand {p : Prop} [Decidable p] {code : String} {httpStatus : ℕ}
    {Q : Unit → ObjectTables → List OutboxRow → Prop} :
    (demand p code httpStatus).wp Q s ↔ (p → Q () s []) := Txn.wp_require

@[simp] theorem wp_givenId {key kind : String} {Q : String → ObjectTables → List OutboxRow → Prop} :
    (givenId command env key kind).wp Q s ↔ ∀ id, optionalString (field command key) = .ok id →
      Q (id.getD (env.opaqueId kind 0)) s [] := by
  simp [givenId]

@[simp] theorem wp_givenRefs {key : String} {minimum : ℕ}
    {Q : List String → ObjectTables → List OutboxRow → Prop} :
    (givenRefs command key minimum).wp Q s ↔ ∀ refs,
      stringArray ((nullish (field command key)).or (some (.arr []))) key minimum = .ok refs →
      Q refs s [] := Txn.wp_ofExcept

@[simp] theorem wp_ensureLinkedEvidence {evidenceRefs : List String}
    {Q : Unit → ObjectTables → List OutboxRow → Prop} :
    (ensureLinkedEvidence evidenceRefs).wp Q s ↔ (evidenceRefs.length = 0 ∨
      (s.evidenceRefs.filter fun r => r.evidenceId ∈ evidenceRefs ∧ r.status = .accepted).length
        = evidenceRefs.length → Q () s []) := by
  unfold ensureLinkedEvidence
  split <;> simp_all

/-! ## The handlers -/

theorem insertIdentifiers_wp {subjectId : String} (identifiers : List SubjectIdentifier) (i : ℕ) :
    (insertIdentifiers sha256 env subjectId identifiers i).wp
      (fun _ s' ms => ms = [] ∧ ∃ rows, s' = { s with subjectIdentifiers := rows }) s := by
  induction identifiers generalizing i s with
  | nil => exact ⟨rfl, s.subjectIdentifiers, rfl⟩
  | cons identifier identifiers ih =>
    simp only [insertIdentifiers, Txn.wp_bind, wp_insertInto]
    intro _
    refine Txn.wp_mono (ih (i + 1)) ?_
    rintro _ s' ms ⟨rfl, rows, rfl⟩
    exact ⟨rfl, rows, rfl⟩

theorem addSubject_wp : (addSubject sha256 command env).wp
    (fun result s' ms => ms = [] ∧ Routine s result s') s := by
  simp only [addSubject, Txn.wp_bind, wp_givenId, wp_check, wp_insertInto]
  intros
  refine Txn.wp_mono (insertIdentifiers_wp _ 0) ?_
  rintro _ s' ms ⟨rfl, rows, rfl⟩
  exact ⟨rfl, .of_same rfl rfl rfl rfl⟩

theorem linkEvidence_wp : (linkEvidence evidenceRequireScan command).wp
    (fun result s' ms => ms = [] ∧ Routine s result s') s := by
  simp only [linkEvidence, Txn.wp_bind, wp_check, Txn.wp_get, Txn.wp_getOrThrow, wp_demand,
    Txn.wp_modify]
  intros
  refine ⟨rfl, ?_⟩
  split <;> exact .of_same rfl rfl rfl rfl

theorem proposeClaim_wp : (proposeClaim command env).wp
    (fun result s' ms => ms = [] ∧ Routine s result s') s := by
  simp only [proposeClaim, Txn.wp_bind, wp_givenId, wp_givenRefs, wp_ensureLinkedEvidence, wp_check,
    Txn.wp_getOrThrow, wp_insertInto]
  intros
  exact ⟨rfl, .of_same rfl rfl rfl rfl⟩

theorem acceptClaimAsFact_wp : (acceptClaimAsFact command env).wp
    (fun result s' ms => ms = [] ∧ Routine s result s') s := by
  simp only [acceptClaimAsFact, Txn.wp_bind, wp_givenId, wp_check, Txn.wp_get, wp_demand,
    Txn.wp_getOrThrow, wp_insertInto, Txn.wp_modify]
  intros
  exact ⟨rfl, .of_same rfl rfl rfl rfl⟩

theorem recordScreeningFinding_wp : (recordScreeningFinding command env).wp
    (fun result s' ms => ms = [] ∧ Routine s result s') s := by
  simp only [recordScreeningFinding, Txn.wp_bind, wp_givenId, wp_givenRefs, wp_ensureLinkedEvidence,
    wp_check, wp_demand, wp_insertInto]
  intros
  exact ⟨rfl, .of_same rfl rfl rfl rfl⟩

theorem recordAssumption_wp : (recordAssumption command env).wp
    (fun result s' ms => ms = [] ∧ Routine s result s') s := by
  simp only [recordAssumption, Txn.wp_bind, wp_givenId, wp_givenRefs, wp_check, wp_insertInto]
  intros
  exact ⟨rfl, .of_same rfl rfl rfl rfl⟩

theorem raiseContradiction_wp : (raiseContradiction command env).wp
    (fun result s' ms => ms = [] ∧ Routine s result s') s := by
  simp only [raiseContradiction, Txn.wp_bind, wp_givenId, wp_check, wp_insertInto]
  intros
  exact ⟨rfl, .of_same rfl rfl rfl rfl⟩

theorem resolveContradiction_wp : (resolveContradiction command).wp
    (fun result s' ms => ms = [] ∧ Routine s result s') s := by
  simp only [resolveContradiction, Txn.wp_bind, wp_givenRefs, wp_check, Txn.wp_get, Txn.wp_modify,
    wp_demand]
  intros
  exact ⟨rfl, .of_same rfl rfl rfl rfl⟩

theorem proposeWorkItem_wp : (proposeWorkItem command env).wp
    (fun result s' ms => ms = [] ∧ Routine s result s') s := by
  simp only [proposeWorkItem, Txn.wp_bind, wp_givenId, wp_check, wp_insertInto]
  intros
  exact ⟨rfl, .of_same rfl rfl rfl rfl⟩

theorem completeWorkItem_wp : (completeWorkItem command).wp
    (fun result s' ms => ms = [] ∧ Routine s result s') s := by
  simp only [completeWorkItem, Txn.wp_bind, wp_givenRefs, wp_check, Txn.wp_get, Txn.wp_modify,
    wp_demand]
  intros
  exact ⟨rfl, .of_same rfl rfl rfl rfl⟩

theorem linkExecution_wp : (linkExecution command).wp
    (fun result s' ms => ms = [] ∧ Routine s result s') s := by
  simp only [linkExecution, Txn.wp_bind, wp_check, Txn.wp_modify]
  intros
  refine ⟨rfl, ?_⟩
  split <;> exact .of_same rfl rfl rfl rfl

theorem submitDecisionRecommendation_wp : (submitDecisionRecommendation command current env).wp
    (fun result s' ms => ms = [] ∧ Routine s result s') s := by
  simp only [submitDecisionRecommendation, Txn.wp_bind, wp_givenId, wp_givenRefs, wp_check, wp_demand,
    wp_insertInto]
  intros
  exact ⟨rfl, rfl, rfl, List.subset_append_left _ _, fun _ h => .inl h⟩

theorem recordGateResult_wp : (recordGateResult command current env).wp
    (fun result s' ms => ms = [] ∧ Routine s result s') s := by
  simp only [recordGateResult, Txn.wp_bind, wp_givenId, wp_check, Txn.wp_get, wp_demand,
    wp_insertInto]
  intro _ _ _ _ hrec _ _ _ _ _
  refine ⟨rfl, rfl, rfl, List.Subset.refl _, fun g hg => ?_⟩
  rcases List.mem_append.mp hg with hg | hg
  · exact .inl hg
  · obtain rfl := List.mem_singleton.mp hg
    exact .inr hrec

theorem recordQAResult_wp : (recordQAResult command env).wp
    (fun result s' ms => ms = [] ∧ Routine s result s') s := by
  simp only [recordQAResult, Txn.wp_bind, wp_givenId, wp_givenRefs, wp_check, Txn.wp_get,
    Txn.wp_getOrThrow, wp_demand, wp_insertInto]
  intros
  exact ⟨rfl, .of_same rfl rfl rfl rfl⟩

theorem recordReview_wp : (recordReview command env).wp
    (fun result s' ms => ms = [] ∧ Routine s result s') s := by
  simp only [recordReview, Txn.wp_bind, wp_givenId, wp_givenRefs, wp_check, wp_insertInto]
  intros
  exact ⟨rfl, .of_same rfl rfl rfl rfl⟩

theorem requestHumanReview_wp : (requestHumanReview command current env).wp
    (fun result s' ms => ms = [] ∧ Moves current s result s') s := by
  simp only [requestHumanReview, Txn.wp_bind, wp_givenRefs, wp_check, Txn.wp_require]
  intro hallowed
  intros
  exact ⟨rfl, rfl, .humanReview, hallowed, by decide, by decide, rfl⟩

theorem transitionCaseStatus_wp : (transitionCaseStatus command current).wp
    (fun result s' ms => ms = [] ∧ Moves current s result s') s := by
  simp only [transitionCaseStatus, Txn.wp_bind, wp_check, wp_demand, Txn.wp_require]
  intro toStatus _ hallowed hno _ _
  exact ⟨rfl, rfl, toStatus, hallowed, fun h => hno (.inl h), fun h => hno (.inr h), rfl⟩

theorem finalizeDisposition_wp : (finalizeDisposition command current env).wp
    (fun result s' ms => ms = [] ∧ ∃ d, Disposes command current s result s' d) s := by
  simp only [finalizeDisposition, Txn.wp_bind, wp_givenId, wp_givenRefs, wp_check, Txn.wp_get,
    wp_demand, wp_insertInto]
  intro hactor hstatus recommendationRef hrec gateResultRef _ outcome _ hgate hopen
  intros
  refine ⟨rfl, _, rfl, rfl, hactor, hstatus, (requiredString_ok hrec).1, ?_, hopen⟩
  obtain ⟨g, hfind, hg⟩ := (Option.any_eq_true _ _).mp hgate
  simp only [decide_eq_true_eq] at hg
  exact ⟨g, List.mem_of_find?_eq_some hfind, by simpa using List.find?_some hfind, hg⟩

/-- **An accepted command does one of three things.** -/
theorem applyMutation_wp : (applyMutation sha256 evidenceRequireScan command current env).wp
    (fun result s' ms => ms = [] ∧ Mutates command current s result s') s := by
  simp only [applyMutation, Txn.wp_bind, wp_check, List.nil_append]
  intro _ _
  have hroutine {p : Query ObjectTables MutationResult}
      (hp : p.wp (fun result s' ms => ms = [] ∧ Routine s result s') s)
      (hne : command.commandType ≠ .finalizeDisposition) :
      p.wp (fun result s' ms => ms = [] ∧ Mutates command current s result s') s := by
    refine Txn.wp_mono hp ?_
    rintro _ _ _ ⟨hms, hr⟩
    exact ⟨hms, .inl ⟨hne, .inl hr⟩⟩
  have hmoves {p : Query ObjectTables MutationResult}
      (hp : p.wp (fun result s' ms => ms = [] ∧ Moves current s result s') s)
      (hne : command.commandType ≠ .finalizeDisposition) :
      p.wp (fun result s' ms => ms = [] ∧ Mutates command current s result s') s := by
    refine Txn.wp_mono hp ?_
    rintro _ _ _ ⟨hms, hr⟩
    exact ⟨hms, .inl ⟨hne, .inr hr⟩⟩
  cases htype : command.commandType with
  | addSubject => exact hroutine addSubject_wp (by simp [htype])
  | linkEvidence => exact hroutine linkEvidence_wp (by simp [htype])
  | proposeClaim => exact hroutine proposeClaim_wp (by simp [htype])
  | acceptClaimAsFact => exact hroutine acceptClaimAsFact_wp (by simp [htype])
  | recordScreeningFinding => exact hroutine recordScreeningFinding_wp (by simp [htype])
  | recordAssumption => exact hroutine recordAssumption_wp (by simp [htype])
  | raiseContradiction => exact hroutine raiseContradiction_wp (by simp [htype])
  | resolveContradiction => exact hroutine resolveContradiction_wp (by simp [htype])
  | proposeWorkItem => exact hroutine proposeWorkItem_wp (by simp [htype])
  | completeWorkItem => exact hroutine completeWorkItem_wp (by simp [htype])
  | linkExecution => exact hroutine linkExecution_wp (by simp [htype])
  | submitDecisionRecommendation => exact hroutine submitDecisionRecommendation_wp (by simp [htype])
  | recordGateResult => exact hroutine recordGateResult_wp (by simp [htype])
  | recordQAResult => exact hroutine recordQAResult_wp (by simp [htype])
  | recordReview => exact hroutine recordReview_wp (by simp [htype])
  | requestHumanReview => exact hmoves requestHumanReview_wp (by simp [htype])
  | transitionCaseStatus => exact hmoves transitionCaseStatus_wp (by simp [htype])
  | finalizeDisposition =>
    refine Txn.wp_mono finalizeDisposition_wp ?_
    rintro _ _ _ ⟨hms, hr⟩
    exact ⟨hms, .inr ⟨htype, hr⟩⟩

end

end CaseStore

end HarnessFramework
