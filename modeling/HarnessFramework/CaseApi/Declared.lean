import HarnessFramework.CaseApi.Attribution

/-!
# What the plan declares

An envelope carries the command types that the plan declares for its node, and a command of another type
is refused. Nothing ties a request to the case of the run, and an envelope of any node lets its holder
create cases and register evidence.

## Main definitions

* `RunRow.target` — the tenant and the case in the input of a run
* `PlanDecides` — a request of a workload is one that the plan declares, for the case of the run
* `OnCase` — what the checks leave to the workload

## Main results

* `Reachable.granted` — every envelope was issued for a node of the plan of its run
* `planDecides_iff` — for a request that passed the checks, `OnCase` is what is left
* `plan_decides` — in every run in which workloads keep to it
* `undeclared_write` — a workload creates a case
-/

namespace HarnessFramework

namespace CaseApi

open CaseStore Checks Execution Identity Persistence

/-! ## What a plan declares -/

/-- The tenant and the case that the input of a run names. -/
def target (r : RunRow) : Option CaseKey :=
  match r.input.val.get? "tenantId", r.input.val.get? "caseId" with
  | some (.str tenantId), some (.str caseId) => some ⟨tenantId, caseId⟩
  | _, _ => none

/-- The node has an `evidenceCapture`. -/
def CapturesEvidence (plan : HarnessPlan) (nodeId : String) : Prop :=
  ∃ node ∈ plan.nodes.find? (fun node => node.id = nodeId),
    ∃ members, lastMember "evidenceCapture" node.config = some (.obj members)

/-- The plan declares the write for the node. No plan declares the creation of a case. -/
def Declares (plan : HarnessPlan) (nodeId : String) : Work → Prop
  | .call (.submitBusinessCommand _ command) => command.commandType ∈ declaredCaseWrites plan nodeId
  | .call (.registerEvidence ..) | .registered .. => CapturesEvidence plan nodeId
  | .call (.createKycCase ..) => False

section

variable (D : Deployment)

/-- A write with an envelope is one that the plan of its run declares for its node, on the case of the
run. -/
structure PlanDecides (rows : List RunRow) (adm : Admission) (claims : ExecutionEnvelopeClaims) : Prop where
  declared : ∃ plan, getPlan D.plans claims.planDigest = some plan ∧ Declares plan claims.nodeId adm.work
  run : ∃ r ∈ rows, r.runId = claims.runId ∧ r.planDigest = claims.planDigest ∧
    target r = some ((service D).key adm)

/-- What the checks leave to the workload: it creates no case, registers evidence where its node captures
some, and keeps to the case of its run. -/
structure OnCase (rows : List RunRow) (adm : Admission) (claims : ExecutionEnvelopeClaims) : Prop where
  noCase : ∀ env request idempotencyKey, adm.work ≠ .call (.createKycCase env request idempotencyKey)
  evidence : ∀ key evidenceId, adm.work = .call (.registerEvidence key evidenceId) ∨
    adm.work = .registered key evidenceId →
    ∀ plan ∈ getPlan D.plans claims.planDigest, CapturesEvidence plan claims.nodeId
  target : ∀ r ∈ rows, r.runId = claims.runId → target r = some ((service D).key adm)

/-- A step by which no workload comes with a write that is not its own. -/
def KeepsToCase : State → State → Prop :=
  Incoming fun s adm => ∀ claims ∈ adm.envelope, OnCase D s.runs adm claims

end

/-! ## Where envelopes come from -/

/-- The envelope was issued for a node of the plan of its run. -/
structure Granted (plans : List HarnessPlan) (rows : List RunRow) (claims : ExecutionEnvelopeClaims) :
    Prop where
  issued : ∃ plan permission, IssuedFor plans claims plan permission
  run : ∃ r ∈ rows, r.runId = claims.runId ∧ r.planDigest = claims.planDigest

section

variable {D : Deployment} {P : State → State → Prop} {s s' : State} {adm : Admission}
  {claims : ExecutionEnvelopeClaims}

theorem Step.keeps (h : Step D s s') (hvalid : s.toRunSystem.Valid) :
    ∀ r ∈ s.runs, ∃ r' ∈ s'.runs, r'.runId = r.runId ∧ r'.planDigest = r.planDigest ∧ r'.input = r.input := by
  intro r hr
  cases h with
  | run op now hnow hlease =>
    obtain ⟨r', hr', hchange⟩ := (op.exec_evolves hvalid.ids hlease).forward r hr
    exact ⟨r', hr', hchange.keeps⟩
  | advance | issue | receive | work => exact ⟨r, hr, rfl, rfl, rfl⟩

theorem Granted.step (h : Granted D.plans s.runs claims) (hvalid : s.toRunSystem.Valid)
    (hstep : Step D s s') : Granted D.plans s'.runs claims := by
  obtain ⟨r, hr, hid, hplan⟩ := h.run
  obtain ⟨r', hr', hid', hplan', -⟩ := hstep.keeps hvalid r hr
  exact ⟨h.issued, r', hr', hid'.trans hid, hplan'.trans hplan⟩

/-- **Every envelope was issued for a node of the plan of its run.** -/
theorem Reachable.granted (h : Reachable D P s) : ∀ claims ∈ s.envelopes, Granted D.plans s.runs claims := by
  obtain ⟨clock, hsteps⟩ := h
  induction hsteps with
  | refl => exact List.forall_mem_nil _
  | @tail s s' hsteps hstep ih =>
    have hvalid : s.toRunSystem.Valid := Reachable.valid ⟨clock, hsteps⟩
    have hstays (claims) (hclaims : claims ∈ s.envelopes) : Granted D.plans s'.runs claims :=
      (ih claims hclaims).step hvalid hstep.1
    cases hstep.1 with
    | issue grant request claims hissue =>
      refine List.forall_mem_append.mpr ⟨hstays, ?_⟩
      rintro _ hmem
      obtain rfl := List.mem_singleton.mp hmem
      exact ⟨issueExecutionEnvelope_issuedFor hissue, (issueExecutionEnvelope_ok hissue).1⟩
    | run | advance | receive | work => exact hstays

/-- The envelope of a request that comes in was issued. -/
theorem Reachable.grantedRequests (h : Reachable D P s) :
    s.Requests fun s adm => ∀ claims ∈ adm.envelope, Granted D.plans s.runs claims := by
  refine h.requests (fun s s' hreachable hstep _ id x hnone hx claims hclaims => ?_)
    fun s s' adm hreachable hstep hadm claims hclaims => (hadm claims hclaims).step hreachable.valid hstep
  obtain ⟨request, env, registered, hissued, hadm⟩ := hstep.admitted hnone hx
  have hsigned := ((admission_ok hadm).2 claims hclaims).1
  exact (hreachable.granted claims (hissued claims hsigned)).step hreachable.valid hstep

/-- **What the checks leave open**, for an envelope that was issued. -/
theorem planDecides_iff (hchecked : adm.Checked) (hclaims : claims ∈ adm.envelope) {rows : List RunRow}
    (hids : (rows.map (·.runId)).Nodup) (hgranted : Granted D.plans rows claims) :
    PlanDecides D rows adm claims ↔ OnCase D rows adm claims := by
  obtain ⟨⟨plan, permission, hissued⟩, r, hr, hid, hplan⟩ := hgranted
  have hsame {q : RunRow} (hq : q ∈ rows) (hqid : q.runId = claims.runId) : q = r :=
    List.inj_on_of_nodup_map hids hq hr (hqid.trans hid.symm)
  constructor
  · rintro ⟨⟨plan', hplan', hdeclares⟩, q, hq, hqid, -, htarget⟩
    obtain rfl := Option.some_inj.mp (hissued.admitted.symm.trans hplan')
    refine ⟨fun env request idempotencyKey hwork => ?_, fun key evidenceId hwork plan' hplan' => ?_,
      fun q' hq' hqid' => ?_⟩
    · rw [hwork] at hdeclares
      exact hdeclares
    · obtain rfl := Option.some_inj.mp (hissued.admitted.symm.trans hplan')
      rcases hwork with hwork | hwork <;> rw [hwork] at hdeclares <;> exact hdeclares
    · rw [hsame hq' hqid', ← hsame hq hqid]
      exact htarget
  · intro h
    refine ⟨⟨plan, hissued.admitted, ?_⟩, r, hr, hid, hplan, h.target r hr hid⟩
    cases hwork : adm.work with
    | registered key evidenceId => exact h.evidence key evidenceId (.inr hwork) plan hissued.admitted
    | call call =>
      cases call with
      | createKycCase env request idempotencyKey => exact absurd hwork (h.noCase env request idempotencyKey)
      | registerEvidence key evidenceId => exact h.evidence key evidenceId (.inl hwork) plan hissued.admitted
      | submitBusinessCommand env command =>
        change command.commandType ∈ declaredCaseWrites plan claims.nodeId
        rw [← hissued.caseWrites]
        exact (hchecked.within env command hwork claims hclaims).declared

/-- A write that keeps to its case goes on to. -/
theorem OnCase.step (h : OnCase D s.runs adm claims) (hgranted : Granted D.plans s.runs claims)
    (hvalid : s.toRunSystem.Valid) (hvalid' : s'.toRunSystem.Valid) (hstep : Step D s s') :
    OnCase D s'.runs adm claims := by
  refine ⟨h.noCase, h.evidence, fun q hq hqid => ?_⟩
  obtain ⟨r, hr, hid, -⟩ := hgranted.run
  obtain ⟨r', hr', hid', -, hinput⟩ := hstep.keeps hvalid r hr
  have hsame : q = r' := List.inj_on_of_nodup_map hvalid'.ids hq hr' (hqid.trans (hid'.trans hid).symm)
  have htarget := h.target r hr hid
  rw [hsame, CaseApi.target, hinput]
  exact htarget

/-- **The plan decides.** In every run in which workloads create no cases, register evidence only where
their node captures some, and keep to the case of their run: every write of a workload that passes the
checks is one that the admitted plan of the run declares for the node of the envelope, on the case of the run. -/
theorem plan_decides (h : Reachable D (KeepsToCase D) s)
    {e : Entry Admission CaseTables Failure Answer} (he : e ∈ s.cases.log) (hworkload : e.call.principal.actorType = .workload) :
    ∃ claims ∈ e.call.envelope, PlanDecides D s.runs e.call claims := by
  have honCase : s.Requests fun s adm => ∀ claims ∈ adm.envelope,
      Granted D.plans s.runs claims ∧ OnCase D s.runs adm claims := by
    refine h.requests (fun s s' hreachable hstep hkeeps id x hnone hx claims hclaims => ?_)
      fun s s' adm hreachable hstep hadm claims hclaims => ?_
    · have hreachable' : Reachable D (KeepsToCase D) s' := hreachable.steps (.single ⟨hstep, hkeeps⟩)
      exact ⟨hreachable'.grantedRequests.sessions id x hx claims hclaims, hkeeps id x hnone hx claims hclaims⟩
    · obtain ⟨hgranted, hcase⟩ := hadm claims hclaims
      have hvalid' : s'.toRunSystem.Valid := hreachable.valid.steps hstep.runs
      exact ⟨hgranted.step hreachable.valid hstep, hcase.step hgranted hreachable.valid hvalid' hstep⟩
  have hchecked : e.call.Checked := h.checked.log e he
  obtain ⟨claims, hclaims⟩ := Option.isSome_iff_exists.mp (hchecked.envelope.mpr hworkload)
  obtain ⟨hgranted, hcase⟩ := honCase.log e he claims hclaims
  exact ⟨claims, hclaims, (planDecides_iff hchecked hclaims h.valid.ids hgranted).mpr hcase⟩

end

namespace Sample

theorem onCase_added : OnCase deployment (runs claimOps).runs (added agent) claims := by
  refine ⟨nofun, nofun, ?_⟩
  decide +kernel

/-- The workload's case is created. -/
def isWorkloadCase : Entry Admission CaseTables Failure Answer → Bool
  | ⟨⟨principal, _, .call (.createKycCase ..)⟩, .ok _, _, _⟩ => isWorkload principal
  | _ => false

theorem log_workloadCase : (issued (runs claimOps) [created]).cases.log.any isWorkloadCase = true := by
  decide +kernel

end Sample

open Sample in
/-- A workload adds a subject to the case of its run, as its plan declares. -/
theorem plan_decides_sample : ∃ e ∈ (issued (runs claimOps) [analystCreated "create", added agent]).cases.log,
    ∃ claims ∈ e.call.envelope, PlanDecides deployment (runs claimOps).runs e.call claims := by
  have hreachable : Reachable deployment (KeepsToCase deployment)
      (issued (runs claimOps) [analystCreated "create", added agent]) := by
    refine reachable_added (fun _ _ => incoming_idle) (fun _ _ _ => incoming_work)
      (fun s adm hruns hadm => incoming_receive ?_) (by decide +kernel)
    rcases hadm with rfl | rfl
    · exact fun _ hclaims => absurd hclaims (by simp [analystCreated])
    · rintro _ ⟨⟩
      change OnCase deployment s.runs (added agent) _
      rw [hruns]
      exact onCase_added
  have hcalls : (issued (runs claimOps) [analystCreated "create", added agent]).cases.log.map Entry.call =
      [analystCreated "create", added agent] := Store.calls_log _ _
  have hmem : added agent ∈ (issued (runs claimOps) [analystCreated "create", added agent]).cases.log.map
      Entry.call := by
    rw [hcalls]
    exact List.mem_cons_of_mem _ (List.mem_singleton_self _)
  obtain ⟨e, he, hcall⟩ := List.mem_map.mp hmem
  exact ⟨e, he, plan_decides hreachable he (by rw [hcall]; rfl)⟩

/-- A workload creates a case, which no plan declares. -/
theorem undeclared_write : ∃ s, Reachable Sample.deployment (fun _ _ => True) s ∧ ∃ e ∈ s.cases.log,
    ∃ answer, e.result = .ok answer ∧ e.call.principal.actorType = .workload ∧
      ∀ claims, ¬ PlanDecides Sample.deployment s.runs e.call claims := by
  have hissued : Reachable Sample.deployment (fun _ _ => True) (Sample.issued (Sample.runs Sample.claimOps) []) :=
    Sample.reachable_issued fun _ _ _ _ => trivial
  have hserved : Steps Sample.deployment (fun _ _ => True) _ _ :=
    steps_serve (s := Sample.issued (Sample.runs Sample.claimOps) []) rfl Sample.createRequest
      (by simp [Sample.createRequest, Sample.issued]) (Sample.admission_created (by decide +kernel)) trivial
      fun _ _ _ => trivial
  obtain ⟨e, he, hcreated⟩ := List.any_eq_true.mp Sample.log_workloadCase
  refine ⟨_, hissued.steps hserved, e, he, ?_⟩
  unfold Sample.isWorkloadCase at hcreated
  split at hcreated
  · next principal envelope env request idempotencyKey answer before after =>
    refine ⟨answer, rfl, of_decide_eq_true hcreated, fun claims hdecides => ?_⟩
    obtain ⟨plan, -, hdeclares⟩ := hdecides.declared
    exact hdeclares
  · cases hcreated

end CaseApi

end HarnessFramework
