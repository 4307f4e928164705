import HarnessFramework.CaseStore.Ledger
import HarnessFramework.Execution.Envelope
import HarnessFramework.Identity.Authorization
import HarnessFramework.Persistence.RunLifecycle

/-!
# The case API

`apps/case-api`: who may write to a case, and the three routes that write. A workload presents an
execution envelope with its request, and its token is the claims that were signed. The routes that read
change nothing and are left out.

The API verifies an envelope when the request comes in, and the transaction of the request runs after
that, statement by statement, beside those of other requests. Meanwhile runs are claimed, cancelled and
completed, and envelopes are issued.

## Main definitions

* `verifyCaseWriteAuthority`, `assertCommandWithinEnvelope`, `assertActorTypePermitted` — the checks
* `createCase`, `submitCommand`, `registerEvidence` — the routes
* `State`, `Step`, `Reachable` — runs, envelopes and requests side by side

## Main results

* `Admission.Checked` — what the checks say about a request that passed
* `Reachable.checked` — every request that is or was served has passed them
* `Reachable.serve` — a request that is served alone
-/

namespace HarnessFramework

namespace CaseApi

open CaseStore Checks Execution Identity Persistence

/-! ## Requests -/

/-- What a route throws or refuses with. -/
structure ApiError where
  httpStatus : ℕ
  code : String
deriving DecidableEq

/-- `AuthorizationError`. -/
def authorizationError (reasonCode : String) : ApiError :=
  ⟨if reasonCode = "authorization.principal_unauthenticated" then 401 else 403, reasonCode⟩

/-- What `x-execution-envelope` holds. -/
inductive EnvelopeToken
  | absent
  /-- No envelope that was issued. -/
  | invalid
  | signed (claims : ExecutionEnvelopeClaims)
deriving DecidableEq

/-- The claims that were signed. -/
def EnvelopeToken.claims? : EnvelopeToken → Option ExecutionEnvelopeClaims
  | signed claims => some claims
  | _ => none

/-- `registerEvidenceRequestSchema`, as far as the API reads it. -/
structure RegisterEvidenceRequest where
  tenantId : NonEmpty
  caseId : NonEmpty
deriving DecidableEq

/-- A route that writes, with its body if that is well formed. -/
inductive WriteRoute
  /-- `POST /v1/cases`. -/
  | createCase (body : Option CreateKycCaseRequest) (idempotencyKey : String)
  /-- `POST /v1/cases/:caseId/commands`. -/
  | submitCommand (caseId : String) (body : Option BusinessCommand)
  /-- `POST /v1/evidence:register`. -/
  | registerEvidence (body : Option RegisterEvidenceRequest)

structure WriteRequest where
  headers : RequestHeaders
  envelope : EnvelopeToken
  route : WriteRoute

/-- What an accepted request asks of the case store. -/
inductive Work
  | call (call : Call)
  /-- The evidence is registered already: its registration receipt is answered. -/
  | registered (key : CaseKey) (evidenceId : String)

/-- A request that passed the checks: who sent it, and the envelope that was verified. -/
structure Admission where
  principal : Principal
  envelope : Option ExecutionEnvelopeClaims
  work : Work

/-! ## Checks -/

/-- `isWorkload`. -/
def isWorkload (principal : Principal) : Bool := principal.actorType = .workload

/-- `verifyCaseWriteAuthority`, with a verification key or without. -/
def verifyCaseWriteAuthority (executionSecret : Bool) (now : Time) (token : EnvelopeToken) :
    Except ApiError ExecutionEnvelopeClaims := do
  ensure (token ≠ .absent) ⟨401, "authorization.execution_envelope_required"⟩
  ensure (executionSecret = true) ⟨503, "authorization.envelope_verifier_unavailable"⟩
  let claims ← orThrow ⟨403, "authorization.execution_envelope_invalid"⟩ token.claims?
  ensure (¬ EnvelopeExpired now claims) ⟨403, "authorization.execution_envelope_invalid"⟩
  return claims

/-- `assertCommandWithinEnvelope`. -/
def assertCommandWithinEnvelope (command : BusinessCommand) (claims : ExecutionEnvelopeClaims) :
    Except ApiError Unit := do
  ensure (command.commandType ∈ claims.caseWrites) ⟨403, "authorization.command_not_declared"⟩
  ensure (command.authority.planDigest.val = claims.planDigest)
    ⟨403, "authorization.command_plan_mismatch"⟩
  ensure (command.authority.permissionEnvelopeDigest.val = claims.permissionDigest)
    ⟨403, "authorization.command_permission_mismatch"⟩
  ensure (¬ (command.actor.type = .agent ∧ ∃ id ∈ command.actor.executionId, id.val ≠ claims.runId))
    ⟨403, "authorization.command_execution_mismatch"⟩

/-- `assertActorTypePermitted`. -/
def assertActorTypePermitted (command : BusinessCommand) (principal : Principal) : Except ApiError Unit :=
  ensure (¬ (isWorkload principal = false ∧ command.actor.type = .agent))
    ⟨403, "authorization.agent_actor_requires_execution"⟩

/-- The check of a command, with the envelope of a workload or without one. -/
def assertCommandAllowed (command : BusinessCommand) (principal : Principal) :
    Option ExecutionEnvelopeClaims → Except ApiError Unit
  | some claims => assertCommandWithinEnvelope command claims
  | none => assertActorTypePermitted command principal

/-! ## Routes -/

/-- How the API is deployed. -/
structure Deployment where
  sha256 : List Char → String
  plans : List HarnessPlan
  envelopeTtlSeconds : Option ℤ
  workloadResolver : PrincipalResolver
  /-- A key to verify envelopes with is configured. -/
  executionSecret : Bool
  evidenceRequireScan : Bool

section

variable (D : Deployment) (now : Time) (request : WriteRequest)

/-- `authorize`: requests that name an actor are delegated. -/
def authorize (action : PlatformAction) : Except ApiError Principal :=
  let resolver := if request.headers.actorId.isSome then resolveDelegated D.workloadResolver
    else D.workloadResolver
  (require resolver request.headers action request.headers.tenantId).mapError authorizationError

/-- The envelope of a workload, verified. -/
def workloadEnvelope (principal : Principal) : Except ApiError (Option ExecutionEnvelopeClaims) :=
  if isWorkload principal then do
    let claims ← verifyCaseWriteAuthority D.executionSecret now request.envelope
    return some claims
  else return none

/-- `POST /v1/cases`. -/
def createCase (body : Option CreateKycCaseRequest) (idempotencyKey : String) (env : Env) :
    Except ApiError Admission := do
  let principal ← authorize D request .caseWrite
  let envelope ← workloadEnvelope D now request principal
  let body ← orThrow ⟨400, "case.request_invalid"⟩ body
  ensure (body.tenantId.val = principal.tenantId) ⟨403, "authorization.tenant_mismatch"⟩
  return ⟨principal, envelope, .call (.createKycCase env body idempotencyKey)⟩

/-- `POST /v1/cases/:caseId/commands`. -/
def submitCommand (caseId : String) (body : Option BusinessCommand) (env : Env) :
    Except ApiError Admission := do
  let principal ← authorize D request .caseWrite
  let command ← orThrow ⟨400, "command.request_invalid"⟩ body
  ensure (command.caseId.val = caseId) ⟨400, "command.case_id_mismatch"⟩
  ensure (command.tenantId.val = principal.tenantId) ⟨403, "authorization.tenant_mismatch"⟩
  let envelope ← workloadEnvelope D now request principal
  assertCommandAllowed command principal envelope
  return ⟨principal, envelope, .call (.submitBusinessCommand env command)⟩

/-- `POST /v1/evidence:register`. Registration receipts belong to a tenant and not to a case, and what
the request finds there is given. -/
def registerEvidence (body : Option RegisterEvidenceRequest) (env : Env) (registered : Option String) :
    Except ApiError Admission := do
  let principal ← authorize D request .evidenceWrite
  let envelope ← workloadEnvelope D now request principal
  let body ← orThrow ⟨400, "evidence.request_invalid"⟩ body
  ensure (body.tenantId.val = principal.tenantId) ⟨403, "authorization.tenant_mismatch"⟩
  let key : CaseKey := ⟨body.tenantId, body.caseId⟩
  return ⟨principal, envelope, match registered with
    | some evidenceId => .registered key evidenceId
    | none => .call (.registerEvidence key (env.opaqueId "ev" 0))⟩

/-- What a request comes to, before the case store. -/
def admission (env : Env) (registered : Option String) : Except ApiError Admission :=
  match request.route with
  | .createCase body idempotencyKey => createCase D now request body idempotencyKey env
  | .submitCommand caseId body => submitCommand D now request caseId body env
  | .registerEvidence body => registerEvidence D now request body env registered

/-- The case store, for requests that passed the checks. -/
def service : Service CaseKey Admission CaseTables OutboxRow Failure Answer where
  key admission := match admission.work with
    | .call call => call.key D.sha256
    | .registered key _ => key
  txn admission := match admission.work with
    | .call call => call.txn D.sha256 D.evidenceRequireScan
    | .registered _ evidenceId => .ret (.registered evidenceId)

end

/-! ## What the checks say -/

/-- The command is one that the claims allow. -/
structure WithinEnvelope (command : BusinessCommand) (claims : ExecutionEnvelopeClaims) : Prop where
  declared : command.commandType ∈ claims.caseWrites
  plan : command.authority.planDigest.val = claims.planDigest
  permission : command.authority.permissionEnvelopeDigest.val = claims.permissionDigest
  execution : command.actor.type = .agent → ∀ id ∈ command.actor.executionId, id.val = claims.runId

/-- What the checks say about a request that passed: a workload has an envelope that allows its
commands, and nobody else commands as an agent. -/
structure Admission.Checked (admission : Admission) : Prop where
  envelope : admission.envelope.isSome ↔ admission.principal.actorType = .workload
  within : ∀ env command, admission.work = .call (.submitBusinessCommand env command) →
    ∀ claims ∈ admission.envelope, WithinEnvelope command claims
  permitted : ∀ env command, admission.work = .call (.submitBusinessCommand env command) →
    admission.principal.actorType ≠ .workload → command.actor.type ≠ .agent

section

variable {D : Deployment} {now : Time} {request : WriteRequest} {principal : Principal}
  {envelope : Option ExecutionEnvelopeClaims}

theorem verifyCaseWriteAuthority_ok {executionSecret : Bool} {token : EnvelopeToken}
    {claims : ExecutionEnvelopeClaims}
    (h : verifyCaseWriteAuthority executionSecret now token = .ok claims) :
    token = .signed claims ∧ ¬ EnvelopeExpired now claims := by
  simp only [verifyCaseWriteAuthority, ensure_bind_eq_ok, orThrow_bind_eq_ok, pure_eq_ok] at h
  obtain ⟨-, -, found, hfound, hexpired, rfl⟩ := h
  cases token with
  | signed claims =>
    obtain rfl := Option.some_inj.mp hfound
    exact ⟨rfl, hexpired⟩
  | absent | invalid => cases hfound

theorem assertCommandWithinEnvelope_ok {command : BusinessCommand} {claims : ExecutionEnvelopeClaims}
    (h : assertCommandWithinEnvelope command claims = .ok ()) : WithinEnvelope command claims := by
  simp only [assertCommandWithinEnvelope, ensure_bind_eq_ok, ensure_eq_ok] at h
  obtain ⟨hdeclared, hplan, hpermission, hexecution⟩ := h
  refine ⟨hdeclared, hplan, hpermission, fun htype id hid => ?_⟩
  by_contra hne
  exact hexecution ⟨htype, id, hid, hne⟩

/-- The envelope of a request that goes on. -/
theorem workloadEnvelope_ok (h : workloadEnvelope D now request principal = .ok envelope) :
    (envelope.isSome ↔ principal.actorType = .workload) ∧
      ∀ claims ∈ envelope, request.envelope = .signed claims ∧ ¬ EnvelopeExpired now claims := by
  unfold workloadEnvelope at h
  split at h
  · next hworkload =>
    rw [bind_eq_ok] at h
    obtain ⟨claims, hverified, h⟩ := h
    obtain rfl := pure_eq_ok.mp h
    refine ⟨iff_of_true rfl (by simpa [isWorkload] using hworkload), ?_⟩
    rintro _ ⟨⟩
    exact verifyCaseWriteAuthority_ok hverified
  · next hworkload =>
    obtain rfl := pure_eq_ok.mp h
    exact ⟨iff_of_false (by simp) (by simpa [isWorkload] using hworkload), nofun⟩

/-- What the check of a command says. -/
theorem assertCommandAllowed_ok {command : BusinessCommand}
    (h : assertCommandAllowed command principal envelope = .ok ()) :
    (∀ claims ∈ envelope, WithinEnvelope command claims) ∧
      (envelope = none → principal.actorType ≠ .workload → command.actor.type ≠ .agent) := by
  cases envelope with
  | some claims =>
    refine ⟨?_, nofun⟩
    rintro _ ⟨⟩
    exact assertCommandWithinEnvelope_ok h
  | none =>
    refine ⟨nofun, fun _ hprincipal htype => ?_⟩
    have hnot : ¬ (isWorkload principal = false ∧ command.actor.type = .agent) := ensure_eq_ok.mp h
    exact hnot ⟨by simpa [isWorkload] using hprincipal, htype⟩

/-- **What the checks say.** -/
theorem admission_ok {env : Env} {registered : Option String} {adm : Admission}
    (h : admission D now request env registered = .ok adm) :
    adm.Checked ∧ ∀ claims ∈ adm.envelope,
      request.envelope = .signed claims ∧ ¬ EnvelopeExpired now claims := by
  have hother {principal : Principal} {envelope : Option ExecutionEnvelopeClaims} {work : Work}
      (henvelope : workloadEnvelope D now request principal = .ok envelope)
      (hwork : ∀ env command, work ≠ .call (.submitBusinessCommand env command)) :
      (Admission.mk principal envelope work).Checked :=
    ⟨(workloadEnvelope_ok henvelope).1, fun env command h => absurd h (hwork env command),
      fun env command h => absurd h (hwork env command)⟩
  unfold admission at h
  split at h
  · next body idempotencyKey _ =>
    simp only [createCase, bind_eq_ok (x := authorize _ _ _), bind_eq_ok (x := workloadEnvelope _ _ _ _),
      ensure_bind_eq_ok, orThrow_bind_eq_ok, pure_eq_ok] at h
    obtain ⟨principal, -, envelope, henvelope, body, -, -, rfl⟩ := h
    exact ⟨hother henvelope fun _ _ => by simp, (workloadEnvelope_ok henvelope).2⟩
  · next caseId body _ =>
    simp only [submitCommand, bind_eq_ok (x := authorize _ _ _),
      bind_eq_ok (x := workloadEnvelope _ _ _ _), bind_eq_ok (x := assertCommandAllowed _ _ _),
      ensure_bind_eq_ok, orThrow_bind_eq_ok, pure_eq_ok] at h
    obtain ⟨principal, -, command, -, -, -, envelope, henvelope, ⟨⟩, hallowed, rfl⟩ := h
    obtain ⟨hwithin, hpermitted⟩ := assertCommandAllowed_ok hallowed
    have hiff := (workloadEnvelope_ok henvelope).1
    refine ⟨⟨hiff, ?_, ?_⟩, (workloadEnvelope_ok henvelope).2⟩
    · rintro _ _ ⟨⟩
      exact hwithin
    · rintro _ _ ⟨⟩ hprincipal
      refine hpermitted (Option.not_isSome_iff_eq_none.mp fun hsome => ?_) hprincipal
      exact hprincipal (hiff.mp hsome)
  · next body _ =>
    simp only [registerEvidence, bind_eq_ok (x := authorize _ _ _),
      bind_eq_ok (x := workloadEnvelope _ _ _ _), ensure_bind_eq_ok, orThrow_bind_eq_ok, pure_eq_ok] at h
    obtain ⟨principal, -, envelope, henvelope, body, -, -, rfl⟩ := h
    refine ⟨hother henvelope fun env command => ?_, (workloadEnvelope_ok henvelope).2⟩
    split <;> simp

end

/-! ## Requests side by side -/

/-- Runs, the envelopes that were issued, and the requests that work on cases. -/
structure State extends RunSystem where
  envelopes : List ExecutionEnvelopeClaims
  cases : System ℕ CaseKey Admission CaseTables OutboxRow Failure Answer

section

variable (D : Deployment)

/-- What happens: a statement on runs, the clock, an envelope, a request that comes in and passes the
checks, or a statement of a request. A request that does not pass them leaves nothing. -/
inductive Step (s : State) : State → Prop
  | run (op : RunOp) (now : Time) : now ≤ s.clock → (∀ l ∈ op.lease?, l ∈ s.issued) →
      Step s { s with toRunSystem := s.toRunSystem.after D.sha256 now op }
  | advance (clock : Time) : s.clock ≤ clock → Step s { s with clock }
  | issue (grant request claims) :
      issueExecutionEnvelope D.plans D.envelopeTtlSeconds s.clock s.runs grant request = .ok claims →
      Step s { s with envelopes := s.envelopes ++ [claims] }
  | receive (id : ℕ) (request env registered adm) : s.cases.session id = none →
      (∀ claims, request.envelope = .signed claims → claims ∈ s.envelopes) →
      admission D s.clock request env registered = .ok adm →
      Step s { s with cases := s.cases.put id ⟨adm, (service D).txn adm, none, [], []⟩ }
  | work (cases) : System.Works (service D) OutboxRelay s.cases cases → Step s { s with cases }

/-- Steps that follow one another, each of which is as `P` says. -/
abbrev Steps (P : State → State → Prop) : State → State → Prop :=
  Relation.ReflTransGen fun s s' => Step D s s' ∧ P s s'

/-- No run and no request, at some time. -/
def start (clock : Time) : State := ⟨RunSystem.start clock, [], System.idle ⟨noCases, [], []⟩⟩

/-- The requests that come in by a step are of a kind. -/
def Incoming (A : State → Admission → Prop) (s s' : State) : Prop :=
  ∀ id x, s.cases.session id = none → s'.cases.session id = some x → A s' x.call

/-- The states that such steps reach. -/
def Reachable (P : State → State → Prop) (s : State) : Prop := ∃ clock, Steps D P (start clock) s

end

section

variable {D : Deployment} {P : State → State → Prop} {s s' : State}

/-! ## What a step does -/

/-- Runs go their own way. -/
theorem Step.runs (h : Step D s s') :
    Relation.ReflTransGen (RunSystem.Step D.sha256) s.toRunSystem s'.toRunSystem := by
  cases h with
  | run op now hnow hlease => exact .single (.op s.toRunSystem op now hnow hlease)
  | advance clock hclock => exact .single (.advance s.toRunSystem clock hclock)
  | issue | receive | work => exact .refl

/-- So do cases. -/
theorem Step.cases_eq (h : Step D s s') :
    s'.cases = s.cases ∨ System.Step (service D) OutboxRelay s.cases s'.cases := by
  cases h with
  | run | advance | issue => exact .inl rfl
  | receive id request env registered adm hnone => exact .inr (.begin s.cases id adm hnone)
  | work cases hworks => exact .inr hworks.1

theorem Steps.runs (h : Steps D P s s') :
    RunSystem.Steps D.sha256 s.toRunSystem s'.toRunSystem := by
  induction h with
  | refl => exact .refl
  | tail _ hstep ih => exact ih.trans hstep.1.runs

theorem Reachable.valid (h : Reachable D P s) : s.toRunSystem.Valid := by
  obtain ⟨clock, hsteps⟩ := h
  exact (RunSystem.start_valid clock).steps hsteps.runs

theorem Reachable.system (h : Reachable D P s) :
    System.Reachable (service D) OutboxRelay noCases s.cases := by
  obtain ⟨clock, hsteps⟩ := h
  induction hsteps with
  | refl => exact .start
  | tail _ hstep ih =>
    rcases hstep.1.cases_eq with heq | hcases
    · rw [heq]
      exact ih
    · exact ih.step hcases

theorem Reachable.steps (h : Reachable D P s) (hsteps : Steps D P s s') : Reachable D P s' := by
  obtain ⟨clock, h⟩ := h
  exact ⟨clock, h.trans hsteps⟩

/-- A request that is served was served before, or has just come in. -/
theorem Step.session (h : Step D s s') {id : ℕ}
    {x : Session Admission CaseTables OutboxRow Failure Answer} (hx : s'.cases.session id = some x) :
    s.cases.session id = none ∨ ∃ y, s.cases.session id = some y ∧ y.call = x.call := by
  rcases h.cases_eq with heq | hcases
  · exact .inr ⟨x, heq ▸ hx, rfl⟩
  · exact hcases.session hx

/-- The log grows by what became of a request. -/
theorem Step.log_eq (h : Step D s s') : s'.cases.log = s.cases.log ∨
    ∃ id x e, s.cases.session id = some x ∧ e.call = x.call ∧ s'.cases.log = s.cases.log ++ [e] := by
  rcases h.cases_eq with heq | hcases
  · rw [heq]
    exact .inl rfl
  · exact hcases.log_eq

/-- All requests that are served, or were, are of a kind. -/
structure State.Requests (A : State → Admission → Prop) (s : State) : Prop where
  sessions : ∀ id x, s.cases.session id = some x → A s x.call
  log : ∀ e ∈ s.cases.log, A s e.call

/-- **Requests are of a kind when all that come in are and stay so.** -/
theorem Reachable.requests {A : State → Admission → Prop}
    (hA : ∀ s s', Reachable D P s → Step D s s' → P s s' → Incoming A s s')
    (hstays : ∀ s s' adm, Reachable D P s → Step D s s' → A s adm → A s' adm) (h : Reachable D P s) :
    s.Requests A := by
  obtain ⟨clock, hsteps⟩ := h
  induction hsteps with
  | refl => exact ⟨fun _ _ hx => absurd hx (by simp [start, System.idle]), List.forall_mem_nil _⟩
  | @tail s s' hsteps hstep ih =>
    have hreachable : Reachable D P s := ⟨clock, hsteps⟩
    have hstay (adm : Admission) : A s adm → A s' adm := hstays s s' adm hreachable hstep.1
    refine ⟨fun id x hx => ?_, fun e he => ?_⟩
    · rcases hstep.1.session hx with hnone | ⟨y, hy, hcall⟩
      · exact hA s s' hreachable hstep.1 hstep.2 id x hnone hx
      · rw [← hcall]
        exact hstay _ (ih.sessions id y hy)
    · rcases hstep.1.log_eq with heq | ⟨id, x, e', hx, hcall, heq⟩ <;> rw [heq] at he
      · exact hstay _ (ih.log e he)
      · rcases List.mem_append.mp he with he | he
        · exact hstay _ (ih.log e he)
        · obtain rfl := List.mem_singleton.mp he
          rw [hcall]
          exact hstay _ (ih.sessions id x hx)

/-- A request that comes in has passed the checks. -/
theorem Step.admitted (h : Step D s s') {id : ℕ}
    {x : Session Admission CaseTables OutboxRow Failure Answer} (hnone : s.cases.session id = none)
    (hx : s'.cases.session id = some x) : ∃ request env registered,
      (∀ claims, request.envelope = .signed claims → claims ∈ s.envelopes) ∧
      admission D s.clock request env registered = .ok x.call := by
  cases h with
  | run | advance | issue => rw [hnone] at hx; cases hx
  | receive id' request env registered adm _ hissued hadm =>
    rcases System.session_put hx with ⟨-, rfl⟩ | ⟨-, hx⟩
    · exact ⟨request, env, registered, hissued, hadm⟩
    · rw [hnone] at hx; cases hx
  | work cases hworks =>
    have hstill : cases.session id = none := hworks.2 id hnone
    exact absurd (hstill.symm.trans hx) nofun

/-- **Every request that is or was served has passed the checks.** -/
theorem Reachable.checked (h : Reachable D P s) : s.Requests fun _ => Admission.Checked := by
  refine h.requests (fun s s' _ hstep _ id x hnone hx => ?_) fun _ _ _ _ _ hadm => hadm
  obtain ⟨request, env, registered, -, hadm⟩ := hstep.admitted hnone hx
  exact (admission_ok hadm).1

section

variable {A : State → Admission → Prop}

theorem incoming_idle (hidle : ∀ id, s.cases.session id = none) (hcases : s'.cases = s.cases) :
    Incoming A s s' := by
  intro id x _ hx
  rw [hcases, hidle] at hx
  cases hx

theorem incoming_work {cases cases' : System ℕ CaseKey Admission CaseTables OutboxRow Failure Answer}
    (h : System.Works (service D) OutboxRelay cases cases') :
    Incoming A { s with cases } { s with cases := cases' } := by
  intro id x hnone hx
  have hstill : cases'.session id = none := h.2 id hnone
  exact absurd (hstill.symm.trans hx) (by simp)

theorem incoming_receive {x : Session Admission CaseTables OutboxRow Failure Answer}
    (hx : A { s with cases := s.cases.put 0 x } x.call) :
    Incoming A s { s with cases := s.cases.put 0 x } := by
  intro id y hnone hy
  rcases System.session_put hy with ⟨-, rfl⟩ | ⟨-, hy⟩
  · exact hx
  · exact absurd (hnone.symm.trans hy) (by simp)

end

/-! ## A request that is served alone -/

/-- What a request may do to a case. -/
inductive Served (sha256 : List Char → String) :
    Admission → CaseTables → Answer → CaseTables → List OutboxRow → Prop
  | call {principal envelope call t answer t' ms} : Effect sha256 call t answer t' ms →
      Served sha256 ⟨principal, envelope, .call call⟩ t answer t' ms
  | registered {principal envelope key evidenceId t} :
      Served sha256 ⟨principal, envelope, .registered key evidenceId⟩ t (.registered evidenceId) t []

theorem service_underLock (D : Deployment) (Q : CaseTables → Prop) (adm : Admission) :
    ((service D).txn adm).underLock Q (Served D.sha256 adm) := by
  obtain ⟨principal, envelope, work⟩ := adm
  cases work with
  | call call =>
    exact Txn.underLock_mono (call_underLock D.sha256 D.evidenceRequireScan Q call) fun _ _ _ _ => .call
  | registered key evidenceId => exact fun _ => .registered

/-- A request that passes the checks is served alone to its end. -/
theorem steps_serve {st : Store CaseKey Admission CaseTables OutboxRow Failure Answer}
    (hidle : s.cases = System.idle st) (request : WriteRequest) {env : Env} {registered : Option String}
    {adm : Admission} (hissued : ∀ claims, request.envelope = .signed claims → claims ∈ s.envelopes)
    (hadm : admission D s.clock request env registered = .ok adm)
    (hreceive : P s { s with cases := s.cases.put 0 ⟨adm, (service D).txn adm, none, [], []⟩ })
    (hwork : ∀ cases cases', System.Works (service D) OutboxRelay cases cases' →
      P { s with cases } { s with cases := cases' }) :
    Steps D P s { s with cases := System.idle (st.call (service D) adm) } := by
  have hnone : s.cases.session 0 = none := by rw [hidle]; rfl
  have hworks : Relation.ReflTransGen (System.Works (service D) OutboxRelay)
      ((System.idle st).put 0 ⟨adm, (service D).txn adm, none, [], []⟩)
      (System.idle (st.call (service D) adm)) :=
    System.works_call (fun Q c => service_underLock D Q c) 0 adm
  rw [← hidle] at hworks
  refine .head ⟨.receive 0 request env registered adm hnone hissued hadm, hreceive⟩ ?_
  generalize System.idle (st.call (service D) adm) = cases at hworks ⊢
  induction hworks with
  | refl => exact .refl
  | tail _ hstep ih => exact ih.tail ⟨.work _ hstep, hwork _ _ hstep⟩

/-- What happens to runs alone. -/
theorem steps_runs {r : RunSystem} (hP : ∀ r r', P { s with toRunSystem := r } { s with toRunSystem := r' })
    (h : RunSystem.Steps D.sha256 s.toRunSystem r) : Steps D P s { s with toRunSystem := r } := by
  induction h with
  | refl => exact .refl
  | @tail r r' _ hstep ih =>
    refine ih.tail ⟨?_, hP r r'⟩
    cases hstep with
    | op op now hnow hlease => exact .run (s := { s with toRunSystem := r }) op now hnow hlease
    | advance clock hclock => exact .advance (s := { s with toRunSystem := r }) clock hclock

end

/-! ## A run and its workload

A run is created and claimed, and an envelope is issued for its only node. -/

namespace Sample

open CaseStore.Sample

/-- A digest that is as good as any here. -/
def lengthDigest (cs : List Char) : String := toString cs.length

/-- A plan with one node, which may add subjects. -/
def plan : HarnessPlan where
  planDigest := digest.val
  budgets := ⟨1, 1, 1⟩
  capabilities := []
  permissionEnvelopes := [⟨"node", [], [], digest.val⟩]
  nodes := [⟨"node", [("caseWrites", .arr [.obj [("commandType", .str "AddSubject")]])]⟩]

def deployment : Deployment where
  sha256 := lengthDigest
  plans := [plan]
  envelopeTtlSeconds := none
  workloadResolver := resolveServiceToken
    [⟨"edge-service-token", "control-surface-edge", ["Edge.Delegate"], "tenant"⟩,
      ⟨"runtime-service-token", "harness-runtime", ["Case.Api.Access"], "tenant"⟩]
  executionSecret := true
  evidenceRequireScan := false

/-- The runs after statements. -/
def runs (ops : List RunOp) : RunSystem :=
  (RunSystem.start 0).afterAll lengthDigest (ops.map fun op => (0, op))

/-- The run is created and claimed. -/
def claimOps : List RunOp :=
  [.createRun "1" ⟨digest.val, .obj [("tenantId", .str (caseKey lengthDigest).tenantId),
      ("caseId", .str (caseKey lengthDigest).caseId)], "key", "tenant"⟩, .claimRun "worker" 60 []]

/-- The envelope of the run. -/
def claims : ExecutionEnvelopeClaims where
  jti := "invocation"
  runId := "RUN-1"
  nodeId := "node"
  attempt := 1
  planDigest := digest.val
  permissionDigest := digest.val
  capabilities := []
  effects := []
  caseWrites := [.addSubject]
  fencingEpoch := 1
  iat := 0
  exp := 60

/-- The run is claimed, its envelope is issued, and `admissions` were served. -/
def issued (r : RunSystem) (admissions : List Admission) : State :=
  ⟨r, [claims], System.idle (Store.calls (service deployment) ⟨noCases, [], []⟩ admissions)⟩

theorem issueExecutionEnvelope_sample :
    issueExecutionEnvelope deployment.plans deployment.envelopeTtlSeconds 0 (runs claimOps).runs
      ⟨"RUN-1", 1, "worker", digest.val, 1⟩ ⟨"RUN-1", "node", 1, "invocation"⟩ = .ok claims := by
  decide +kernel

/-- The run is claimed, and its envelope is issued. -/
theorem reachable_issued {P : State → State → Prop}
    (hP : ∀ s s' : State, (∀ id, s.cases.session id = none) → s'.cases = s.cases → P s s') :
    Reachable deployment P (issued (runs claimOps) []) := by
  refine ⟨0, .tail (b := ⟨runs claimOps, [], System.idle ⟨noCases, [], []⟩⟩) ?_ ⟨?_, ?_⟩⟩
  · have hruns : RunSystem.Steps deployment.sha256 (start 0).toRunSystem (runs claimOps) :=
      RunSystem.steps_afterAll (by simp [claimOps, RunOp.lease?]) _
    exact steps_runs (s := start 0) (fun r r' => hP _ _ (fun _ => rfl) rfl) hruns
  · exact .issue _ _ claims issueExecutionEnvelope_sample
  · exact hP _ _ (fun _ => rfl) rfl

/-- The headers of the workload. -/
def workload : RequestHeaders := ⟨some "runtime-service-token", none, [], none⟩

/-- The headers of a person. -/
def person (actorId : String) : RequestHeaders :=
  ⟨some "edge-service-token", some actorId, ["Case.Analyst"], none⟩

/-- The workload asks for a case. -/
def createRequest : WriteRequest :=
  ⟨workload, .signed claims, .createCase (some CaseStore.Sample.request) "create"⟩

/-- That request, after the checks. -/
def created : Admission where
  principal := ⟨"harness-runtime", "tenant", .workload, ["Case.Api.Access"]⟩
  envelope := some claims
  work := .call (.createKycCase (env "1") CaseStore.Sample.request "create")

theorem admission_created {clock : Time} (hclock : clock = 0) :
    admission deployment clock createRequest (CaseStore.Sample.env "1") none = .ok created := by
  subst hclock
  have hprincipal : authorize deployment createRequest .caseWrite = .ok created.principal := by
    decide +kernel
  have henvelope : workloadEnvelope deployment 0 createRequest created.principal = .ok (some claims) := by
    decide +kernel
  simp only [admission, createRequest, createCase] at hprincipal henvelope ⊢
  rw [hprincipal, ok_bind, henvelope, ok_bind]
  rfl

/-- An analyst asks for a case. -/
def analystRequest (idempotencyKey : String) : WriteRequest :=
  ⟨person "ann", .absent, .createCase (some CaseStore.Sample.request) idempotencyKey⟩

/-- That request, after the checks. -/
def analystCreated (idempotencyKey : String) : Admission where
  principal := ⟨"ann", "tenant", .human, ["Case.Analyst"]⟩
  envelope := none
  work := .call (.createKycCase (env "1") CaseStore.Sample.request idempotencyKey)

theorem admission_analystCreated (clock : Time) (idempotencyKey : String) :
    admission deployment clock (analystRequest idempotencyKey) (CaseStore.Sample.env "1") none =
      .ok (analystCreated idempotencyKey) := by
  have hprincipal : authorize deployment (analystRequest idempotencyKey) .caseWrite =
      .ok (analystCreated idempotencyKey).principal := by
    change authorize deployment (analystRequest "") .caseWrite = .ok (analystCreated "").principal
    decide +kernel
  simp only [admission, analystRequest, createCase] at hprincipal ⊢
  rw [hprincipal, ok_bind]
  rfl

end Sample

end CaseApi

end HarnessFramework
