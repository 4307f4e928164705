import HarnessFramework.CaseStore.Disposition

/-!
# What a disposition rests on

A gate result keeps the sequence of the case it was based on, and a disposition names the gate
result. Nothing compares that sequence with the case: findings, contradictions, evidence links,
facts and recommendations may have been added or changed in between, and a later gate result may
have refused the recommendation.

## Main definitions

* `Basis` — the rows that a disposition rests on
* `Revises`, `Refuses` — the commands that change the basis, or refuse a recommendation
* `Fresh` — nothing changed from the sequence of a gate result on
* `Undisturbed` — no such command was accepted from there on

## Main results

* `applyMutation_rests` — which of the eighteen kinds change the basis
* `fresh_iff` — exactly when a disposition rests on a fresh gate result, in every history
-/

namespace HarnessFramework

namespace CaseStore

/-- The rows that a disposition rests on. -/
structure Basis where
  findings : List FindingRow
  contradictions : List ContradictionRow
  evidenceRefs : List EvidenceRefRow
  facts : List FactRow
  recommendations : List RecommendationRow

/-- The rows of a case that a disposition rests on. -/
def ObjectTables.basis (s : ObjectTables) : Basis :=
  ⟨s.findings, s.contradictions, s.evidenceRefs, s.facts, s.recommendations⟩

/-- The command, once accepted, changes the basis: it is of one of five kinds, or links evidence
that is not linked. -/
def Revises (command : BusinessCommand) (s : ObjectTables) : Prop :=
  command.commandType ∈ [.acceptClaimAsFact, .recordScreeningFinding, .raiseContradiction,
      .resolveContradiction, .submitDecisionRecommendation] ∨
    command.commandType = .linkEvidence ∧
      ¬ ∃ r ∈ s.evidenceRefs, field command "evidenceId" = some (.str r.evidenceId)

/-- The command records a gate result that refuses the recommendation. -/
def Refuses (command : BusinessCommand) (recommendationRef : String) : Prop :=
  command.commandType = .recordGateResult ∧
    field command "recommendationRef" = some (.str recommendationRef) ∧
    field command "decision" = some (.str "DENIED")

/-- The call is a command that was accepted, and not the replay of one. -/
def Accepted (entry : CaseEntry) (command : BusinessCommand) : Prop :=
  (∃ env, entry.call = .submitBusinessCommand env command) ∧
    ∃ response, entry.result = .ok (.response response false)

/-- Nothing that a disposition rests on was added or changed from the sequence of the gate result
on, and no later gate result refuses the recommendation. -/
structure Fresh (past : List CaseEntry) (now : CaseTables) (gate : GateResultRow) : Prop where
  basis : ∀ entry ∈ past, gate.caseSequence ≤ entry.before.sequence →
    entry.after.objects.basis = entry.before.objects.basis
  refused : ¬ ∃ later ∈ now.objects.gateResults, gate.caseSequence < later.caseSequence ∧
    later.recommendationRef = gate.recommendationRef ∧ later.decision = .denied

/-- From the sequence of the gate result on, no command was accepted that changes the basis or
refuses the recommendation. -/
structure Undisturbed (past : List CaseEntry) (gate : GateResultRow) : Prop where
  revises : ∀ entry ∈ past, ∀ command, Accepted entry command →
    gate.caseSequence ≤ entry.before.sequence → ¬ Revises command entry.before.objects
  refuses : ∀ entry ∈ past, ∀ command, Accepted entry command →
    gate.caseSequence < entry.before.sequence → ¬ Refuses command gate.recommendationRef

/-! ## What a handler does to the basis -/

/-- The gate result is the one that the command records. -/
structure Gates (command : BusinessCommand) (current : CaseRow) (gate : GateResultRow) : Prop where
  kind : command.commandType = .recordGateResult
  recommendation : field command "recommendationRef" = some (.str gate.recommendationRef)
  decision : field command "decision" = some (.str gate.decision.text)
  caseSequence : gate.caseSequence = current.caseSequence

/-- The handler changes the basis exactly if the command revises it, and adds the gate result that
the command records. -/
structure Rests (command : BusinessCommand) (current : CaseRow) (s s' : ObjectTables) : Prop where
  basis : s'.basis = s.basis ↔ ¬ Revises command s
  gateResults : (∃ gate, Gates command current gate ∧ s'.gateResults = s.gateResults ++ [gate]) ∨
    command.commandType ≠ .recordGateResult ∧ s'.gateResults = s.gateResults

section

variable {command : BusinessCommand} {current : CaseRow} {s s' : ObjectTables}

theorem enumValue_text {α : Type} {all : List α} {text : α → String} {value : Option Json} {a : α}
    (h : enumValue all text value = .ok a) : value = some (.str (text a)) := by
  unfold enumValue at h
  split at h
  · split at h
    · next hfind =>
      obtain rfl := Except.ok.inj h
      have htext := List.find?_some hfind
      simp only [decide_eq_true_eq] at htext
      rw [htext]
    · cases h
  · cases h

/-- A handler of another kind touches neither. -/
theorem Rests.of_same (hr : ¬ Revises command s) (hg : command.commandType ≠ .recordGateResult)
    (hbasis : s'.basis = s.basis) (hgates : s'.gateResults = s.gateResults) :
    Rests command current s s' :=
  ⟨⟨fun _ => hr, fun _ => hbasis⟩, .inr ⟨hg, hgates⟩⟩

/-- A handler that revises the basis. -/
theorem Rests.of_revised (hr : Revises command s) (hg : command.commandType ≠ .recordGateResult)
    (hbasis : s'.basis ≠ s.basis) (hgates : s'.gateResults = s.gateResults) :
    Rests command current s s' :=
  ⟨⟨fun h => absurd h hbasis, fun h => absurd hr h⟩, .inr ⟨hg, hgates⟩⟩

theorem append_singleton_ne {α : Type} (xs : List α) (x : α) : xs ++ [x] ≠ xs := by
  intro h
  simpa using congrArg List.length h

end

section

variable {sha256 : List Char → String} {evidenceRequireScan : Bool} {command : BusinessCommand}
  {current : CaseRow} {env : Env} {s : ObjectTables}

theorem linkEvidence_rests (htype : command.commandType = .linkEvidence) :
    (linkEvidence evidenceRequireScan command).wp (fun _ s' _ => Rests command current s s') s := by
  simp only [linkEvidence, Txn.wp_bind, wp_check, Txn.wp_get, Txn.wp_getOrThrow, wp_demand,
    Txn.wp_modify]
  intro evidenceId hid _ _ _ _ _ _
  have hfield := (requiredString_ok hid).1
  split
  · next hlinked =>
    obtain ⟨r, hr, rfl⟩ := hlinked
    refine .of_same ?_ (by simp [htype]) rfl rfl
    rintro (h | ⟨-, h⟩)
    · simp [htype] at h
    · exact h ⟨r, hr, hfield⟩
  · next hnew =>
    refine .of_revised (.inr ⟨htype, ?_⟩) (by simp [htype]) ?_ rfl
    · rintro ⟨r, hr, h⟩
      rw [hfield] at h
      simp only [Option.some.injEq, Json.str.injEq] at h
      exact hnew ⟨r, hr, h.symm⟩
    · exact fun h => append_singleton_ne _ _ (congrArg Basis.evidenceRefs h)

theorem acceptClaimAsFact_rests (htype : command.commandType = .acceptClaimAsFact) :
    (acceptClaimAsFact command env).wp (fun _ s' _ => Rests command current s s') s := by
  simp only [acceptClaimAsFact, Txn.wp_bind, wp_givenId, wp_check, Txn.wp_get, wp_demand,
    Txn.wp_getOrThrow, wp_insertInto, Txn.wp_modify]
  intros
  refine .of_revised (.inl (by simp [htype])) (by simp [htype]) ?_ rfl
  exact fun h => append_singleton_ne _ _ (congrArg Basis.facts h)

theorem recordScreeningFinding_rests (htype : command.commandType = .recordScreeningFinding) :
    (recordScreeningFinding command env).wp (fun _ s' _ => Rests command current s s') s := by
  simp only [recordScreeningFinding, Txn.wp_bind, wp_givenId, wp_givenRefs, wp_ensureLinkedEvidence,
    wp_check, wp_demand, wp_insertInto]
  intros
  refine .of_revised (.inl (by simp [htype])) (by simp [htype]) ?_ rfl
  exact fun h => append_singleton_ne _ _ (congrArg Basis.findings h)

theorem raiseContradiction_rests (htype : command.commandType = .raiseContradiction) :
    (raiseContradiction command env).wp (fun _ s' _ => Rests command current s s') s := by
  simp only [raiseContradiction, Txn.wp_bind, wp_givenId, wp_check, wp_insertInto]
  intros
  refine .of_revised (.inl (by simp [htype])) (by simp [htype]) ?_ rfl
  exact fun h => append_singleton_ne _ _ (congrArg Basis.contradictions h)

/-- The contradiction that is resolved was open, and is not afterwards. -/
theorem resolveContradiction_rests (htype : command.commandType = .resolveContradiction) :
    (resolveContradiction command).wp (fun _ s' _ => Rests command current s s') s := by
  simp only [resolveContradiction, Txn.wp_bind, wp_givenRefs, wp_check, Txn.wp_get, Txn.wp_modify,
    wp_demand]
  intro contradictionId _ status hstatus _ _ hone _ _
  refine .of_revised (.inl (by simp [htype])) (by simp [htype]) ?_ rfl
  intro h
  obtain ⟨r, hr⟩ := List.exists_mem_of_length_pos (by rw [hone]; exact Nat.one_pos)
  obtain ⟨hmem, hmatch⟩ := List.mem_filter.mp hr
  simp only [decide_eq_true_eq] at hmatch
  have hmap := (congrArg Basis.contradictions h).trans (List.map_id _).symm
  have hsame := List.map_inj_left.mp hmap r hmem
  rw [if_pos hmatch, id_eq] at hsame
  have hopen := hmatch.2
  rw [← hsame] at hopen
  have hclosed := enumValue_ok hstatus
  rcases hopen with hopen | hopen <;> simp_all

theorem submitDecisionRecommendation_rests
    (htype : command.commandType = .submitDecisionRecommendation) :
    (submitDecisionRecommendation command current env).wp
      (fun _ s' _ => Rests command current s s') s := by
  simp only [submitDecisionRecommendation, Txn.wp_bind, wp_givenId, wp_givenRefs, wp_check, wp_demand,
    wp_insertInto]
  intros
  refine .of_revised (.inl (by simp [htype])) (by simp [htype]) ?_ rfl
  exact fun h => append_singleton_ne _ _ (congrArg Basis.recommendations h)

theorem recordGateResult_rests (htype : command.commandType = .recordGateResult) :
    (recordGateResult command current env).wp (fun _ s' _ => Rests command current s s') s := by
  simp only [recordGateResult, Txn.wp_bind, wp_givenId, wp_check, Txn.wp_get, wp_demand,
    wp_insertInto]
  intro _ _ recommendationRef href _ decision hdecision _ _ _
  refine ⟨⟨fun _ => by simp [Revises, htype], fun _ => rfl⟩, .inl ⟨_, ?_, rfl⟩⟩
  exact ⟨htype, (requiredString_ok href).1, enumValue_text hdecision, rfl⟩

/-- The handlers of the other kinds. -/
theorem inert_rests {p : Query ObjectTables MutationResult}
    (htype : command.commandType ∈ [.addSubject, .proposeClaim, .recordAssumption, .proposeWorkItem,
      .completeWorkItem, .linkExecution, .recordQAResult, .recordReview, .requestHumanReview,
      .transitionCaseStatus, .finalizeDisposition])
    (hp : p.wp (fun _ s' _ => s'.basis = s.basis ∧ s'.gateResults = s.gateResults) s) :
    p.wp (fun _ s' _ => Rests command current s s') s := by
  refine Txn.wp_mono hp ?_
  rintro _ s' _ ⟨hbasis, hgates⟩
  refine .of_same ?_ ?_ hbasis hgates <;>
    simp only [List.mem_cons, List.not_mem_nil, or_false] at htype <;>
    rcases htype with h | h | h | h | h | h | h | h | h | h | h <;> simp [Revises, h]

/-- **What an accepted command does to the basis and to the gate results.** -/
theorem applyMutation_rests :
    (applyMutation sha256 evidenceRequireScan command current env).wp
      (fun _ s' _ => Rests command current s s') s := by
  simp only [applyMutation, Txn.wp_bind, wp_check]
  intro _ _
  cases htype : command.commandType with
  | linkEvidence => exact linkEvidence_rests htype
  | acceptClaimAsFact => exact acceptClaimAsFact_rests htype
  | recordScreeningFinding => exact recordScreeningFinding_rests htype
  | raiseContradiction => exact raiseContradiction_rests htype
  | resolveContradiction => exact resolveContradiction_rests htype
  | submitDecisionRecommendation => exact submitDecisionRecommendation_rests htype
  | recordGateResult => exact recordGateResult_rests htype
  | addSubject =>
    refine inert_rests (by simp [htype]) ?_
    simp only [addSubject, Txn.wp_bind, wp_givenId, wp_check, wp_insertInto]
    intros
    refine Txn.wp_mono (insertIdentifiers_wp _ 0) ?_
    rintro _ s' ms ⟨rfl, rows, rfl⟩
    exact ⟨rfl, rfl⟩
  | linkExecution =>
    refine inert_rests (by simp [htype]) ?_
    simp only [linkExecution, Txn.wp_bind, wp_check, Txn.wp_modify]
    intros
    split <;> exact ⟨rfl, rfl⟩
  | _ =>
    refine inert_rests (by simp [htype]) ?_
    simp only [proposeClaim, recordAssumption, proposeWorkItem, completeWorkItem, recordQAResult,
      recordReview, requestHumanReview, transitionCaseStatus, finalizeDisposition, Txn.wp_bind,
      wp_givenId, wp_givenRefs, wp_ensureLinkedEvidence, wp_check, Txn.wp_get, Txn.wp_getOrThrow,
      wp_demand, Txn.wp_require, wp_insertInto, Txn.wp_modify]
    intros
    exact ⟨rfl, rfl⟩

/-! ## What a call does to the basis -/

/-- What a call that returns does to the basis and to the gate results. -/
inductive Rested : Call → CaseTables → Answer → CaseTables → List OutboxRow → Prop
  | accepted (env command t response t' ms current) : t.cases = some current →
      Rests command current t.objects t'.objects →
      Rested (.submitBusinessCommand env command) t (.response response false) t' ms
  | other (call t answer t' ms) : (∀ response, answer ≠ .response response false) →
      t'.objects.basis = t.objects.basis → t'.objects.gateResults = t.objects.gateResults →
      Rested call t answer t' ms

theorem acceptCommand_rested {t : CaseTables} {requestDigest : String}
    (hcurrent : t.cases = some current) :
    (acceptCommand sha256 env evidenceRequireScan command requestDigest current).wp
      (fun answer t' ms => Rested (.submitBusinessCommand env command) t answer t' ms) t := by
  simp only [acceptCommand, Txn.wp_bind, Txn.wp_require, Txn.wp_mapThrow, Txn.wp_get, wp_column,
    Txn.wp_modify]
  intro _ _ _
  refine wp_onObjects (Txn.wp_mono applyMutation_rests ?_)
  rintro mutation objects _ hrests
  refine Txn.wp_mono appendCaseEvent_wp ?_
  rintro ref _ _ ⟨r, -, rfl, rfl, rfl⟩
  refine wp_onObjects (Txn.wp_mono (insertLineage_wp _ 0) ?_)
  rintro _ _ _ ⟨rfl, edges, rfl⟩ updatedAt _
  refine Txn.wp_mono writeReceipt_wp ?_
  rintro _ _ _ ⟨receipt, rfl, rfl, -, -, -, -⟩
  exact .accepted _ _ _ _ _ _ current hcurrent ⟨hrests.basis, hrests.gateResults⟩

theorem call_rested (sha256 : List Char → String) (evidenceRequireScan : Bool)
    (P : CaseTables → Prop) (call : Call) :
    ((caseService sha256 evidenceRequireScan).txn call).underLock P (Rested call) := by
  cases call with
  | createKycCase env request idempotencyKey =>
    refine Txn.underLock_mono (call_underLock sha256 evidenceRequireScan P
      (.createKycCase env request idempotencyKey)) ?_
    rintro t answer t' ms he
    cases he with
    | existing => exact .other _ _ _ _ _ (by simp) rfl rfl
    | created _ _ _ _ _ _ _ _ hc => 
      exact .other _ _ _ _ _ (by simp) (by rw [hc.objects]) (by rw [hc.objects])
  | registerEvidence key evidenceId =>
    refine Txn.underLock_mono (call_underLock sha256 evidenceRequireScan P
      (.registerEvidence key evidenceId)) ?_
    rintro t answer t' ms he
    cases he with
    | registered _ _ _ _ _ hr =>
      obtain ⟨-, rows, rfl⟩ := hr
      exact .other _ _ _ _ _ (by simp) rfl rfl
  | submitBusinessCommand env command =>
    simp only [caseService, Call.txn, submitBusinessCommand, Txn.underLock_require_bind,
      Txn.underLock_mapThrow, Txn.underLock_lockKey_bind, Txn.underLock_get_bind, Txn.wp_bind,
      Txn.wp_get, Txn.wp_getOrThrow]
    intro _ _ _ t current hcurrent
    split
    · simp only [Txn.wp_bind, Txn.wp_require, Txn.wp_pure]
      intro _
      exact .other _ _ _ _ _ (by simp) rfl rfl
    · exact acceptCommand_rested hcurrent

end

/-! ## Histories -/

section

variable {sha256 : List Char → String} {es : List CaseEntry} {t : CaseTables} {entry : CaseEntry}
  {gate : GateResultRow}

/-- A history, by what its calls did to the basis. -/
abbrev RestedHistory : List CaseEntry → CaseTables → Prop := History Rested .empty

/-- A call that was not accepted keeps the basis. -/
theorem RestedHistory.basis_iff (h : RestedHistory es t) (he : entry ∈ es) :
    entry.after.objects.basis = entry.before.objects.basis ↔
      ∀ command, Accepted entry command → ¬ Revises command entry.before.objects := by
  obtain ⟨call, result, before, after⟩ := entry
  cases result with
  | error x =>
    have hsame := h.of_throws he rfl
    exact ⟨fun _ command hc => absurd hc.2 (by simp), fun _ => congrArg (·.objects.basis) hsame⟩
  | ok answer =>
    obtain ⟨ms, hr⟩ := h.of_mem he rfl
    cases hr with
    | accepted env command t response t' ms current _ hrests =>
      refine hrests.basis.trans ⟨?_, fun hall => hall command ⟨⟨env, rfl⟩, response, rfl⟩⟩
      rintro hno command' ⟨⟨env', hcall⟩, -⟩
      obtain ⟨-, rfl⟩ := Call.submitBusinessCommand.inj hcall
      exact hno
    | other call t answer t' ms hanswer hbasis _ =>
      refine ⟨?_, fun _ => hbasis⟩
      rintro - command ⟨-, response, hresult⟩
      exact absurd (Except.ok.inj hresult) (hanswer response)

/-- The call recorded the gate result. -/
def RecordsGate (entry : CaseEntry) (gate : GateResultRow) : Prop :=
  ∃ command current, Accepted entry command ∧ entry.before.cases = some current ∧
    Gates command current gate

/-- A gate result of the case was recorded by one of its calls. -/
theorem RestedHistory.recorded (h : RestedHistory es t) (hg : gate ∈ t.objects.gateResults) :
    ∃ entry ∈ es, RecordsGate entry gate := by
  induction h with
  | nil => exact absurd hg List.not_mem_nil
  | throws call x _ ih =>
    obtain ⟨entry, he, hr⟩ := ih hg
    exact ⟨entry, List.mem_append_left _ he, hr⟩
  | @returns es t call answer t' ms _ hrested ih =>
    have hold (hg : gate ∈ t.objects.gateResults) :
        ∃ entry ∈ es ++ [⟨call, .ok answer, t, t'⟩], RecordsGate entry gate := by
      obtain ⟨entry, he, hr⟩ := ih hg
      exact ⟨entry, List.mem_append_left _ he, hr⟩
    cases hrested with
    | other call t answer t' ms _ _ hgates => exact hold (hgates ▸ hg)
    | accepted env command t response t' ms current hcurrent hrests =>
      rcases hrests.gateResults with ⟨gate', hgates, happend⟩ | ⟨-, hsame⟩
      · rw [happend] at hg
        rcases List.mem_append.mp hg with hg | hg
        · exact hold hg
        · obtain rfl := List.mem_singleton.mp hg
          exact ⟨_, List.mem_append_right _ (List.mem_singleton_self _), command, current,
            ⟨⟨env, rfl⟩, response, rfl⟩, hcurrent, hgates⟩
      · exact hold (hsame ▸ hg)

/-- An accepted `RecordGateResult` left its gate result in the case. -/
theorem RestedHistory.gated (h : RestedHistory es t) (he : entry ∈ es) {command : BusinessCommand}
    (hc : Accepted entry command) (htype : command.commandType = .recordGateResult) :
    ∃ gate ∈ t.objects.gateResults, ∃ current, entry.before.cases = some current ∧
      Gates command current gate := by
  induction h with
  | nil => exact absurd he List.not_mem_nil
  | throws call x _ ih =>
    rcases List.mem_append.mp he with he | he
    · exact ih he
    · obtain rfl := List.mem_singleton.mp he
      exact absurd hc.2 (by simp)
  | @returns es t call answer t' ms _ hrested ih =>
    rcases List.mem_append.mp he with he | he
    · obtain ⟨gate, hg, hrest⟩ := ih he
      refine ⟨gate, ?_, hrest⟩
      cases hrested with
      | other call t answer t' ms _ _ hgates => rwa [hgates]
      | accepted env command t response t' ms current _ hrests =>
        rcases hrests.gateResults with ⟨gate', -, happend⟩ | ⟨-, hsame⟩
        · rw [happend]
          exact List.mem_append_left _ hg
        · rwa [hsame]
    · obtain rfl := List.mem_singleton.mp he
      obtain ⟨⟨env, hcall⟩, response, hresult⟩ := hc
      cases hrested with
      | other call t answer t' ms hanswer _ _ =>
        exact absurd (Except.ok.inj hresult) (hanswer response)
      | accepted env' command' t response' t' ms current hcurrent hrests =>
        obtain ⟨-, rfl⟩ := Call.submitBusinessCommand.inj hcall
        rcases hrests.gateResults with ⟨gate, hgates, happend⟩ | ⟨hne, -⟩
        · refine ⟨gate, ?_, current, hcurrent, hgates⟩
          rw [happend]
          exact List.mem_append_right _ (List.mem_singleton_self _)
        · exact absurd htype hne

/-- **A gate result is fresh exactly if no command revised the basis or refused it.** -/
theorem fresh_iff (h : RestedHistory es t) : Fresh es t gate ↔ Undisturbed es gate := by
  constructor
  · intro hfresh
    refine ⟨?_, ?_⟩
    · intro entry he command hc hseq
      exact (h.basis_iff he).mp (hfresh.basis entry he hseq) command hc
    · rintro entry he command hc hseq ⟨htype, href, hdecision⟩
      obtain ⟨later, hlater, current, hcurrent, hgates⟩ := h.gated he hc htype
      refine hfresh.refused ⟨later, hlater, ?_, ?_, ?_⟩
      · rwa [hgates.caseSequence, ← CaseTables.sequence_of_some hcurrent]
      · have := hgates.recommendation.symm.trans href
        simpa using this
      · have := hgates.decision.symm.trans hdecision
        cases hd : later.decision <;> simp_all [GateDecision.text]
  · intro hun
    refine ⟨?_, ?_⟩
    · intro entry he hseq
      exact (h.basis_iff he).mpr fun command hc => hun.revises entry he command hc hseq
    · rintro ⟨later, hlater, hseq, href, hdenied⟩
      obtain ⟨entry, he, command, current, hc, hcurrent, hgates⟩ := h.recorded hlater
      refine hun.refuses entry he command hc ?_ ⟨hgates.kind, ?_, ?_⟩
      · rwa [CaseTables.sequence_of_some hcurrent, ← hgates.caseSequence]
      · rw [hgates.recommendation, href]
      · rw [hgates.decision, hdenied]; rfl

/-- A call that finalized a disposition was authorized to. -/
theorem CaseHistory.authorizes (h : CaseHistory sha256 es t) (he : entry ∈ es)
    (hf : Finalizes entry) : ∃ d, Authorizes entry d := by
  have hprogress : Progress entry := by
    refine CaseHistory.rule (P := fun es _ => ∀ entry ∈ es, Progress entry)
      (List.forall_mem_nil _) ?_ h entry he
    intro es entry ih hp e he
    rcases List.mem_append.mp he with he | he
    · exact ih e he
    · obtain rfl := List.mem_singleton.mp he
      exact hp
  cases hprogress with
  | same hno => exact absurd hf hno
  | created hno => exact absurd hf hno
  | moved _ _ hno => exact absurd hf hno
  | finalized d _ hd => exact ⟨d, hd⟩

end

/-! ## A case that is approved -/

namespace Sample

/-- A command on the case, with its tag in the ids it draws. -/
def staleCall (tag : IdempotencyKey) (type : BusinessCommandType) (caseSequence : ℕ)
    (payload : List (String × Json)) : Call :=
  .submitBusinessCommand (env tag.val) (command actorDigest tag type caseSequence payload none)

/-- A contradiction of low materiality is raised between the gate result and the disposition. -/
def staleCalls : List Call :=
  [createCall,
    staleCall ⟨"suspend", suspend_key⟩ .transitionCaseStatus 1
      [("toStatus", .str "SUSPENDED"), ("reason", .str "reason")],
    staleCall ⟨"review", review_key⟩ .transitionCaseStatus 2
      [("toStatus", .str "HUMAN_REVIEW"), ("reason", .str "reason")],
    staleCall ⟨"recommend", recommend_key⟩ .submitDecisionRecommendation 3
      [("recommendationId", .str "recommendation"), ("findingRefs", .arr [.str "finding"]),
        ("outcome", .str "APPROVE"), ("rationale", .str "rationale")],
    staleCall ⟨"gate", gate_key⟩ .recordGateResult 4
      [("gateResultId", .str "gate"), ("recommendationRef", .str "recommendation"),
        ("decision", .str "AUTHORIZED"), ("ruleResults", .arr [.obj []])],
    staleCall ⟨"contradict", by decide⟩ .raiseContradiction 5
      [("contradictionId", .str "contradiction"), ("objectRefs", .arr [.str "a", .str "b"]),
        ("description", .str "description"), ("materiality", .str "LOW"),
        ("detectionMethod", .str "method")],
    staleCall ⟨"finalize", finalize_key⟩ .finalizeDisposition 6
      [("recommendationRef", .str "recommendation"), ("gateResultRef", .str "gate"),
        ("outcome", .str "APPROVED"), ("rationale", .str "rationale")]]

/-- The sequences before the call and of the gate results, the contradictions before and after it,
and whether it finalized a disposition. -/
def outline (entry : CaseEntry) : (ℕ × List ℕ) × (ℕ × ℕ) × Bool :=
  ((entry.before.sequence, entry.before.objects.gateResults.map (·.caseSequence)),
    (entry.before.objects.contradictions.length, entry.after.objects.contradictions.length),
    Finalizes entry)

set_option maxRecDepth 40000 in
theorem outline_staleCalls :
    ((after actorDigest staleCalls).history (caseService actorDigest false) (caseKey actorDigest)).map
        outline =
      [((0, []), (0, 0), false), ((1, []), (0, 0), false), ((2, []), (0, 0), false),
        ((3, []), (0, 0), false), ((4, []), (0, 0), false), ((5, [4]), (0, 1), false),
        ((6, [4]), (1, 1), true)] := by decide +kernel

/-- The disposition is the last call, after one that raised a contradiction. -/
theorem finalizes_staleCalls : ∃ past entry stale,
    (after actorDigest staleCalls).history (caseService actorDigest false) (caseKey actorDigest) =
        past ++ [stale] ++ [entry] ∧
      Finalizes entry ∧ entry.before.objects.gateResults.map (·.caseSequence) = [4] ∧
      stale.before.sequence = 5 ∧
      stale.after.objects.contradictions.length ≠ stale.before.objects.contradictions.length := by
  have h := outline_staleCalls
  simp only [List.map_eq_cons_iff, List.map_eq_nil_iff] at h
  obtain ⟨e0, _, h, -, e1, _, rfl, -, e2, _, rfl, -, e3, _, rfl, -, e4, _, rfl, -, stale, _, rfl,
    hstale, entry, _, rfl, hentry, rfl⟩ := h
  simp only [outline, Prod.mk.injEq, decide_eq_true_eq] at hstale hentry
  exact ⟨[e0, e1, e2, e3, e4], entry, stale, h, hentry.2.2, hentry.1.2, hstale.1.1,
    by rw [hstale.2.1.1, hstale.2.1.2]; decide⟩

end Sample

/-! ## Whole runs -/

section

variable {sha256 : List Char → String} {evidenceRequireScan : Bool} {ι : Type} [DecidableEq ι]
  {s : CaseSystem ι}

/-- **Gate freshness.** In every state that clients of the case store reach side by side, a call
that finalized a disposition was authorized to, and the gate result that it named is fresh exactly
if, from the sequence that was based on, no command was accepted that revises the basis or refuses
the recommendation. -/
theorem gate_freshness
    (h : System.Reachable (caseService sha256 evidenceRequireScan) OutboxRelay noCases s)
    (key : CaseKey) {past future : List CaseEntry} {entry : CaseEntry}
    (hhistory : s.history (caseService sha256 evidenceRequireScan) key = past ++ entry :: future)
    (hf : Finalizes entry) :
    ∃ d, Authorizes entry d ∧
      ∀ gate ∈ entry.before.objects.gateResults, gate.gateResultId = d.gateResultRef →
        (Fresh past entry.before gate ↔ Undisturbed past gate) := by
  have hcase := store_history h.store key
  have hrested := h.store.history (call_rested sha256 evidenceRequireScan) key
  rw [hhistory] at hcase hrested
  obtain ⟨d, hd⟩ := CaseHistory.authorizes hcase (List.mem_append_right _ List.mem_cons_self) hf
  exact ⟨d, hd, fun gate _ _ => fresh_iff hrested.upTo⟩

open Sample in
theorem gate_freshness_sample :
    ∃ past entry d,
      (after actorDigest staleCalls).history (caseService actorDigest false) (caseKey actorDigest) =
        past ++ [entry] ∧ Authorizes entry d ∧
      ∀ gate ∈ entry.before.objects.gateResults, gate.gateResultId = d.gateResultRef →
        (Fresh past entry.before gate ↔ Undisturbed past gate) := by
  obtain ⟨past, entry, stale, hsplit, hf, -⟩ := finalizes_staleCalls
  obtain ⟨d, hd, hiff⟩ := gate_freshness (reachable_after actorDigest staleCalls)
    (caseKey actorDigest) hsplit hf
  exact ⟨_, entry, d, hsplit, hd, hiff⟩

open Sample in
/-- A contradiction raised after the gate result does not stop the disposition. -/
theorem stale_gate :
    ¬ ∀ (s : CaseSystem Unit),
      System.Reachable (caseService actorDigest false) OutboxRelay noCases s →
      ∀ key past entry future,
        s.history (caseService actorDigest false) key = past ++ entry :: future → Finalizes entry →
        ∀ d, Authorizes entry d → ∀ gate ∈ entry.before.objects.gateResults,
          gate.gateResultId = d.gateResultRef → Fresh past entry.before gate := by
  intro hclaim
  obtain ⟨past, entry, stale, hsplit, hf, hgates, hseq, hne⟩ := finalizes_staleCalls
  have hreach := reachable_after actorDigest staleCalls
  have hcase := store_history hreach.store (caseKey actorDigest)
  have hmem : entry ∈ past ++ [stale] ++ [entry] :=
    List.mem_append_right _ (List.mem_singleton_self _)
  obtain ⟨d, hd⟩ := CaseHistory.authorizes hcase (hsplit ▸ hmem) hf
  obtain ⟨gate, hgate, hid, -⟩ := hd.gate
  have hgateSeq : gate.caseSequence ∈ [4] := hgates ▸ List.mem_map_of_mem hgate
  have hfresh := hclaim _ hreach _ _ _ _ hsplit hf d hd gate hgate hid
  have hbasis := hfresh.basis stale (List.mem_append_right _ (List.mem_singleton_self _))
    (by rw [List.mem_singleton.mp hgateSeq, hseq]; decide)
  exact hne (congrArg (·.contradictions.length) hbasis)

end

end CaseStore

end HarnessFramework
