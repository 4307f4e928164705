import HarnessFramework.CaseApi.Routes

/-!
# Who acted

A command says who acts, and the case store records it. The API holds it against the caller in two
places only: an agent's execution id against the run of the envelope, if it has one, and nobody but a
workload may be an agent. That a person is who the command says, and that a workload is no person, is
left to the caller.

## Main definitions

* `Attributed` — the recorded actor is the caller
* `Reconciled` — what the checks leave to the caller

## Main results

* `attributed_iff` — for a request that passed the checks, they are the same
* `actor_attribution` — the actors on record, in every run
* `actor_misattributed` — a workload acts as an analyst
-/

namespace HarnessFramework

namespace CaseApi

open CaseStore Checks Execution Identity Persistence

/-- The actor of a command is the one who sent it: a person under their own name with roles of theirs,
or no person, bound to the run of the envelope. -/
structure Attributed (adm : Admission) (actor : CaseActor) : Prop where
  human : actor.type = .human → adm.principal.actorType = .human ∧
    actor.principalId.val = adm.principal.subjectId ∧ ∀ role ∈ actor.roles, role.val ∈ adm.principal.roles
  workload : ∀ claims ∈ adm.envelope, actor.type ≠ .human ∧ ∃ id ∈ actor.executionId, id.val = claims.runId

/-- What the checks leave to the caller: people who act as people are themselves; workloads do not act
as people, name an execution, and name their own where they do not act as agents. -/
structure Reconciled (adm : Admission) (actor : CaseActor) : Prop where
  human : adm.envelope = none → actor.type = .human →
    actor.principalId.val = adm.principal.subjectId ∧ ∀ role ∈ actor.roles, role.val ∈ adm.principal.roles
  workload : ∀ claims ∈ adm.envelope, actor.type ≠ .human ∧
    ∃ id ∈ actor.executionId, actor.type ≠ .agent → id.val = claims.runId

/-- A step by which no request comes that leaves it unclear who acts. -/
def Accountable : State → State → Prop :=
  Incoming fun _ adm => ∀ env command, adm.work = .call (.submitBusinessCommand env command) →
    Reconciled adm command.actor

section

variable {adm : Admission} {env : Env} {command : BusinessCommand}

theorem PrincipalType.eq_human_iff {type : PrincipalType} : type = .human ↔ type ≠ .workload := by
  cases type <;> decide

/-- **What the checks leave open**, they leave open exactly. -/
theorem attributed_iff (hchecked : adm.Checked)
    (hwork : adm.work = .call (.submitBusinessCommand env command)) :
    Attributed adm command.actor ↔ Reconciled adm command.actor := by
  have hhuman : adm.principal.actorType = .human ↔ adm.envelope = none := by
    rw [PrincipalType.eq_human_iff, ne_eq, ← hchecked.envelope, Option.not_isSome_iff_eq_none]
  constructor
  · intro h
    refine ⟨fun _ htype => (h.human htype).2, fun claims hclaims => ?_⟩
    obtain ⟨htype, id, hid, hrun⟩ := h.workload claims hclaims
    exact ⟨htype, id, hid, fun _ => hrun⟩
  · intro h
    refine ⟨fun htype => ?_, fun claims hclaims => ?_⟩
    · have hnone : adm.envelope = none := by
        refine Option.eq_none_iff_forall_not_mem.mpr fun claims hclaims => ?_
        exact (h.workload claims hclaims).1 htype
      exact ⟨hhuman.mpr hnone, h.human hnone htype⟩
    · obtain ⟨htype, id, hid, hrun⟩ := h.workload claims hclaims
      refine ⟨htype, id, hid, ?_⟩
      by_cases hagent : command.actor.type = .agent
      · exact (hchecked.within env command hwork claims hclaims).execution hagent id hid
      · exact hrun hagent

end

/-! ## What is recorded -/

/-- A command that is accepted is recorded with its actor. -/
def RecordsActor : Admission → CaseTables → Answer → CaseTables → List OutboxRow → Prop
  | ⟨_, _, .call (.submitBusinessCommand _ command)⟩, t, .response _ false, t', _ =>
    ∃ r : CaseEventRow, t'.events = t.events ++ [r] ∧ r.actor = .ofJson command.actor.toJson
  | _, _, _, _, _ => True

section

variable {sha256 : List Char → String} {env : Env} {t : CaseTables}

theorem acceptCommand_actor {evidenceRequireScan : Bool} {command : BusinessCommand}
    {requestDigest : String} {current : CaseRow} :
    (acceptCommand sha256 env evidenceRequireScan command requestDigest current).wp
      (fun _ t' _ => ∃ r : CaseEventRow, t'.events = t.events ++ [r] ∧
        r.actor = .ofJson command.actor.toJson) t := by
  simp only [acceptCommand, Txn.wp_bind, Txn.wp_require, Txn.wp_mapThrow, Txn.wp_get, wp_column,
    Txn.wp_modify]
  intro _ _ _
  refine wp_onObjects (Txn.wp_mono applyMutation_wp ?_)
  rintro mutation objects _ -
  refine Txn.wp_mono appendCaseEvent_wp ?_
  rintro ref _ _ ⟨r, hr, rfl, rfl, rfl⟩
  refine wp_onObjects (Txn.wp_mono (insertLineage_wp _ 0) ?_)
  rintro _ _ _ ⟨rfl, edges, rfl⟩ updatedAt _
  refine Txn.wp_mono writeReceipt_wp ?_
  rintro _ _ _ ⟨receipt, rfl, rfl, -⟩
  exact ⟨r, rfl, hr.actor⟩

theorem service_recordsActor (D : Deployment) (P : CaseTables → Prop) (adm : Admission) :
    ((service D).txn adm).underLock P (RecordsActor adm) := by
  obtain ⟨principal, envelope, work⟩ := adm
  cases work with
  | registered key evidenceId => exact fun _ => trivial
  | call call =>
    cases call with
    | submitBusinessCommand env command =>
      simp only [service, Call.txn, submitBusinessCommand, Txn.underLock_require_bind,
        Txn.underLock_mapThrow, Txn.underLock_lockKey_bind, Txn.underLock_get_bind, Txn.wp_bind,
        Txn.wp_get, Txn.wp_getOrThrow]
      intro _ _ _ t current _
      split
      · simp only [Txn.wp_bind, Txn.wp_require, Txn.wp_pure]
        exact fun _ => trivial
      · refine Txn.wp_mono acceptCommand_actor fun answer t' ms hr => ?_
        cases answer with
        | response response replayed =>
          cases replayed with
          | false => exact hr
          | true => trivial
        | created | registered => trivial
    | createKycCase env request idempotencyKey =>
      exact Txn.underLock_mono (call_underLock D.sha256 D.evidenceRequireScan P _) fun _ _ _ _ _ => trivial
    | registerEvidence key evidenceId =>
      exact Txn.underLock_mono (call_underLock D.sha256 D.evidenceRequireScan P _) fun _ _ _ _ _ => trivial

end

namespace Sample

/-- A command that adds a subject. -/
def addSubject (actor : CaseActor) : BusinessCommand :=
  { CaseStore.Sample.command lengthDigest ⟨"add", CaseStore.Sample.add_key⟩ .addSubject 1
      [("subjectType", .str "individual")] none with actor }

/-- The workload adds a subject. -/
def addRequest (actor : CaseActor) : WriteRequest :=
  ⟨workload, .signed claims, .submitCommand (CaseStore.Sample.caseKey lengthDigest).caseId (some (addSubject actor))⟩

/-- That request, after the checks. -/
def added (actor : CaseActor) : Admission where
  principal := ⟨"harness-runtime", "tenant", .workload, ["Case.Api.Access"]⟩
  envelope := some claims
  work := .call (.submitBusinessCommand (CaseStore.Sample.env "2") (addSubject actor))

/-- The node acts as an agent of its run. -/
def agent : CaseActor := ⟨.agent, ⟨"node", by decide⟩, some ⟨"RUN-1", by decide⟩, []⟩

/-- The node acts as an analyst. -/
def impostor : CaseActor := CaseStore.Sample.analyst ⟨"ann", by decide⟩

theorem admission_added {clock : Time} (hclock : clock = 0) {actor : CaseActor}
    (hwithin : assertCommandWithinEnvelope (addSubject actor) claims = .ok ()) :
    admission deployment clock (addRequest actor) (CaseStore.Sample.env "2") none = .ok (added actor) := by
  subst hclock
  have hprincipal : authorize deployment (addRequest actor) .caseWrite = .ok (added actor).principal := by
    change authorize deployment (addRequest agent) .caseWrite = .ok (added agent).principal
    decide +kernel
  have henvelope : workloadEnvelope deployment 0 (addRequest actor) (added actor).principal =
      .ok (some claims) := by
    change workloadEnvelope deployment 0 (addRequest agent) (added agent).principal = _
    decide +kernel
  have hcase : (addSubject actor).caseId.val = (CaseStore.Sample.caseKey lengthDigest).caseId := rfl
  have htenant : (addSubject actor).tenantId.val = (added actor).principal.tenantId := rfl
  have hallowed : assertCommandAllowed (addSubject actor) (added actor).principal (some claims) = .ok () :=
    hwithin
  simp only [admission, addRequest, submitCommand] at hprincipal henvelope ⊢
  rw [hprincipal, ok_bind, orThrow_eq_ok.mpr rfl, ok_bind, ensure_pos hcase, ok_bind,
    ensure_pos htenant, ok_bind, henvelope, ok_bind, hallowed, ok_bind]
  rfl

theorem reconciled_added : ∀ env command, (added agent).work = .call (.submitBusinessCommand env command) →
    Reconciled (added agent) command.actor := by
  rintro _ _ ⟨⟩
  refine ⟨nofun, ?_⟩
  rintro _ ⟨⟩
  exact ⟨by decide, ⟨"RUN-1", by decide⟩, rfl, fun _ => rfl⟩

/-- The command is accepted, with its actor. -/
def isAdded (actor : CaseActor) : Entry Admission CaseTables Failure Answer → Bool
  | ⟨⟨_, envelope, .call (.submitBusinessCommand _ command)⟩, .ok (.response _ false), _, _⟩ =>
    envelope = some claims ∧ command.actor = actor
  | _ => false

theorem of_isAdded {actor : CaseActor} {e : Entry Admission CaseTables Failure Answer}
    (h : isAdded actor e = true) : e.call.envelope = some claims ∧ ∃ env command response,
      e.call.work = .call (.submitBusinessCommand env command) ∧ command.actor = actor ∧
      e.result = .ok (.response response false) := by
  unfold isAdded at h
  split at h
  · next principal envelope env command response before after =>
    obtain ⟨henvelope, hactor⟩ : envelope = some claims ∧ command.actor = actor := of_decide_eq_true h
    exact ⟨henvelope, env, command, response, rfl, hactor, rfl⟩
  · cases h

theorem log_added {actor : CaseActor} (h : actor = agent ∨ actor = impostor) :
    (issued (runs claimOps) [analystCreated "create", added actor]).cases.log.any (isAdded actor) = true := by
  rcases h with rfl | rfl
  · decide +kernel
  · decide +kernel

/-- Requests that create the case and add a subject are served. -/
theorem reachable_added {P : State → State → Prop}
    (hidle : ∀ s s' : State, (∀ id, s.cases.session id = none) → s'.cases = s.cases → P s s')
    (hwork : ∀ (s : State) cases cases', System.Works (service deployment) OutboxRelay cases cases' →
      P { s with cases } { s with cases := cases' }) {actor : CaseActor}
    (hreceive : ∀ (s : State) (adm : Admission), s.toRunSystem = runs claimOps →
      adm = analystCreated "create" ∨ adm = added actor →
      P s { s with cases := s.cases.put 0 ⟨adm, (service deployment).txn adm, none, [], []⟩ })
    (hwithin : assertCommandWithinEnvelope (addSubject actor) claims = .ok ()) :
    Reachable deployment P (issued (runs claimOps) [analystCreated "create", added actor]) := by
  have hissued : Reachable deployment P (issued (runs claimOps) []) := reachable_issued hidle
  have hclock : (issued (runs claimOps) []).clock = 0 := by decide +kernel
  have hcreated : Steps deployment P _ _ :=
    steps_serve (s := issued (runs claimOps) []) rfl (analystRequest "create")
      (by simp [analystRequest]) (admission_analystCreated _ _) (hreceive _ _ rfl (.inl rfl)) (hwork _)
  have hadded : Steps deployment P _ _ :=
    steps_serve (s := issued (runs claimOps) [analystCreated "create"]) rfl (addRequest actor)
      (by simp [addRequest, issued]) (admission_added hclock hwithin) (hreceive _ _ rfl (.inr rfl)) (hwork _)
  exact (hissued.steps hcreated).steps hadded

end Sample

/-! ## Every run -/

section

variable {D : Deployment} {s : State}

/-- **Actor attribution.** In every run in which requests leave no doubt about who acts, every command
that is accepted is recorded with an actor that is its sender; and no workload finalizes a disposition. -/
theorem actor_attribution (h : Reachable D Accountable s)
    {e : Entry Admission CaseTables Failure Answer} (he : e ∈ s.cases.log) {env : Env}
    {command : BusinessCommand} (hwork : e.call.work = .call (.submitBusinessCommand env command))
    {response : Json} (hanswer : e.result = .ok (.response response false)) :
    Attributed e.call command.actor ∧
      (∃ r : CaseEventRow, e.after.events = e.before.events ++ [r] ∧
        r.actor = .ofJson command.actor.toJson) ∧
      (command.commandType = .finalizeDisposition →
        e.call.principal.actorType = .human ∧ e.call.envelope = none) := by
  have hreconciled : s.Requests fun _ adm => ∀ env command,
      adm.work = .call (.submitBusinessCommand env command) → Reconciled adm command.actor :=
    h.requests (fun _ _ _ _ haccountable => haccountable) fun _ _ _ _ _ hadm => hadm
  have hattributed : Attributed e.call command.actor :=
    (attributed_iff (h.checked.log e he) hwork).mpr (hreconciled.log e he env command hwork)
  obtain ⟨ms, hserved⟩ := h.system.store.of_mem_log (fun P c => service_underLock D P c) he hanswer
  obtain ⟨ms', hrecords⟩ := h.system.store.of_mem_log (fun P c => service_recordsActor D P c) he hanswer
  obtain ⟨⟨principal, envelope, work⟩, result, before, after⟩ := e
  obtain rfl : work = .call (.submitBusinessCommand env command) := hwork
  refine ⟨hattributed, hrecords, fun htype => ?_⟩
  cases hserved with
  | call heffect =>
    cases heffect with
    | accepted _ _ _ _ _ _ current mutation haccepts =>
      obtain ⟨objects, edges, hmutates, -⟩ := haccepts.objects
      rcases hmutates with ⟨hne, -⟩ | ⟨-, d, hdisposes⟩
      · exact absurd htype hne
      · have hactor : command.actor.type = .human := hdisposes.actor.1
        refine ⟨(hattributed.human hactor).1, Option.eq_none_iff_forall_not_mem.mpr fun claims hclaims => ?_⟩
        exact (hattributed.workload claims hclaims).1 hactor

end

open Sample in
/-- A workload's command is recorded with an actor of its run. -/
theorem actor_attribution_sample :
    ∃ e ∈ (issued (runs claimOps) [analystCreated "create", added agent]).cases.log, Attributed e.call agent := by
  have hreachable : Reachable deployment Accountable (issued (runs claimOps) [analystCreated "create", added agent]) := by
    refine reachable_added (fun _ _ => incoming_idle) (fun _ _ _ => incoming_work)
      (fun s adm _ hadm => incoming_receive ?_) (by decide +kernel)
    rcases hadm with rfl | rfl
    · exact fun _ _ h => absurd h (by simp [analystCreated])
    · exact reconciled_added
  obtain ⟨e, he, hadded⟩ := List.any_eq_true.mp (log_added (.inl rfl))
  obtain ⟨-, env, command, response, hwork, hactor, hresult⟩ := of_isAdded hadded
  exact ⟨e, he, hactor ▸ (actor_attribution hreachable he hwork hresult).1⟩

open Sample in
/-- A workload acts as an analyst. -/
theorem actor_misattributed : ∃ s, Reachable deployment (fun _ _ => True) s ∧ ∃ e ∈ s.cases.log,
    ∃ env command response, e.call.work = .call (.submitBusinessCommand env command) ∧
      e.result = .ok (.response response false) ∧ e.call.envelope = some Sample.claims ∧
      command.actor.type = .human ∧ ¬ Attributed e.call command.actor := by
  have hreachable : Reachable deployment (fun _ _ => True) (issued (runs claimOps) [analystCreated "create", added impostor]) :=
    reachable_added (fun _ _ _ _ => trivial) (fun _ _ _ _ => trivial) (fun _ _ _ _ => trivial) (by decide +kernel)
  obtain ⟨e, he, hadded⟩ := List.any_eq_true.mp (log_added (.inr rfl))
  obtain ⟨henvelope, env, command, response, hwork, hactor, hresult⟩ := of_isAdded hadded
  refine ⟨_, hreachable, e, he, env, command, response, hwork, hresult, henvelope, by rw [hactor]; rfl, ?_⟩
  intro hattributed
  exact (hattributed.workload _ henvelope).1 (by rw [hactor]; rfl)

end CaseApi

end HarnessFramework
