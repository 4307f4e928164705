import HarnessFramework.CaseApi.Routes
import HarnessFramework.CaseStore.Database
import HarnessFramework.Library.Noninterference

/-!
# The tenants of the case API

All routes of `apps/case-api` but those of its health, on the tables of all tenants, one request after
another. A request comes with the ids that it draws and the times at which it is served. Creation times of
evidence are left out, and so are the issues that go with a request that is not well formed.

## Main definitions

* `Route`, `Visit` — what is requested, and by whom
* `operation`, `Operation.run` — the checks of a request, and what it then asks of the case store
* `serve` — the reply, and the tables after it
* `Distinct` — ids that are drawn do not collide, and partitions of artifacts are distinct

## Main results

* `operation_ok` — what a request may ask of the case store belongs to the tenant of its principal
* `Operation.run_tenant`, `Operation.tenant_run` — what it does with the rows of a tenant
* `tenant_noninterference` — what a tenant sees does not depend on what other tenants request
-/

namespace HarnessFramework

namespace CaseApi

open CaseStore Checks Execution Identity Persistence

/-! ## Requests -/

/-- What `Number` makes of a text. -/
inductive Number
  | nan
  | infinity
  | minusInfinity
  | finite (value : ℚ)
deriving DecidableEq

/-- A route, with what it reads of a request besides the headers that say who sent it. A status or a body
that is not well formed is `none`, and an empty parameter of a query is absent. -/
inductive Route
  /-- `POST /v1/cases`. -/
  | createCase (body : Option CreateKycCaseRequest) (idempotencyKey : String)
  /-- `GET /v1/cases`. -/
  | listCases (status : Option (Option KycCaseStatus)) (limit : Option Number)
  /-- `GET /v1/cases/:caseId`. -/
  | getCase (caseId : String)
  /-- `POST /v1/cases/:caseId/commands`. -/
  | submitCommand (caseId : String) (body : Option BusinessCommand)
  /-- `GET /v1/cases/:caseId/events`. -/
  | listEvents (caseId : String) (after : Number)
  /-- `POST /v1/cases/:caseId/ledger:verify`. -/
  | verifyLedger (caseId : String)
  /-- `POST /v1/evidence:register`. -/
  | registerEvidence (body : Option Evidence.RegisterEvidenceRequest) (idempotencyKey : String)
  /-- `GET /v1/evidence/:evidenceId`. -/
  | getEvidence (evidenceId : String)

/-- A request, with what it draws and the time of its checks. -/
structure Visit where
  headers : RequestHeaders
  envelope : EnvelopeToken
  route : Route
  env : Env
  now : Time

/-- What an accepted request asks of the case store. -/
inductive Operation
  | work (work : Work)
  | register (request : Evidence.RegisterEvidenceRequest) (idempotencyKey : String)
  | listCases (tenantId : String) (status : Option KycCaseStatus) (limit : Option Number)
  | getCase (key : CaseKey)
  | listEvents (key : CaseKey) (after : Number)
  | verifyLedger (key : CaseKey)
  | getEvidence (tenantId evidenceId : String)

/-- What is sent. -/
inductive Content
  | error (code : String)
  | failed (code : String) (details : ErrorDetails)
  | tooLarge (maxBytes : ℕ)
  | mismatch (computedDigest : String)
  | answer (answer : Answer)
  | registered (answer : Evidence.Answer)
  | cases (rows : List (WithCase CaseRow))
  | view (view : CaseView)
  | events (events : List ListedEvent)
  | verification (caseId : String) (verification : Verification)
  | evidence (view : Evidence.EvidenceView)

structure Reply where
  httpStatus : ℕ
  content : Content

/-! ## Routes -/

/-- The database, and how the API and the case store are deployed. -/
structure Server extends Deployment where
  contentSha256 : List UInt8 → String
  hashtext : String → ℤ
  evidenceMaxBytes : ℕ
  /-- The order of texts in the database. -/
  collate : String → String → Bool

namespace Visit

variable (S : Server) (v : Visit)

/-- What resolves the principal of the request: requests that name an actor are delegated. -/
def resolver : PrincipalResolver :=
  if v.headers.actorId.isSome then resolveDelegated S.workloadResolver else S.workloadResolver

/-- The tenant that the principal of the request is assigned to, if it has one. -/
def tenant? : Option String := (v.resolver S v.headers).toOption.map (·.tenantId)

/-- `authorize`, for requests that read. -/
def authorize (action : PlatformAction) : Except ApiError Principal :=
  (require (v.resolver S) v.headers action v.headers.tenantId).mapError authorizationError

/-- The part of the request that routes which write check. -/
def write (route : WriteRoute) : WriteRequest := ⟨v.headers, v.envelope, route⟩

end Visit

section

variable (S : Server)

/-- The checks of a request. -/
def operation (v : Visit) : Except ApiError Operation :=
  match v.route with
  | .createCase body idempotencyKey => do
    let admission ← createCase S.toDeployment v.now (v.write (.createCase body idempotencyKey)) body
      idempotencyKey v.env
    return .work admission.work
  | .listCases status limit => do
    let principal ← v.authorize S .caseRead
    ensure (status ≠ some none) ⟨400, "case.status_invalid"⟩
    return .listCases principal.tenantId status.join limit
  | .getCase caseId => do
    let principal ← v.authorize S .caseRead
    return .getCase ⟨principal.tenantId, caseId⟩
  | .submitCommand caseId body => do
    let admission ← submitCommand S.toDeployment v.now (v.write (.submitCommand caseId body)) caseId body
      v.env
    return .work admission.work
  | .listEvents caseId after => do
    let principal ← v.authorize S .eventRead
    return .listEvents ⟨principal.tenantId, caseId⟩ after
  | .verifyLedger caseId => do
    let principal ← v.authorize S .caseRead
    return .verifyLedger ⟨principal.tenantId, caseId⟩
  | .registerEvidence body idempotencyKey => do
    let named := body.map fun request => RegisterEvidenceRequest.mk request.tenantId request.caseId
    let _ ← registerEvidence S.toDeployment v.now (v.write (.registerEvidence named)) named v.env none
    let request ← orThrow ⟨400, "evidence.request_invalid"⟩ body
    return .register request idempotencyKey
  | .getEvidence evidenceId => do
    let principal ← v.authorize S .evidenceRead
    return .getEvidence principal.tenantId evidenceId

end

/-! ## Replies -/

/-- What the error handler sends for errors that it does not know. -/
def internalError : Reply := ⟨500, .error "case_store.internal_error"⟩

/-- What the error handler sends for a failed call. -/
def failureReply : Failure → Reply
  | .store code httpStatus details => ⟨httpStatus, .failed code details⟩
  | _ => internalError

/-- What the error handler sends for a failed registration. -/
def evidenceFailureReply : Evidence.Failure → Reply
  | .code code httpStatus => ⟨httpStatus, .error code⟩
  | .tooLarge maxBytes => ⟨413, .tooLarge maxBytes⟩
  | .mismatch computedDigest => ⟨400, .mismatch computedDigest⟩
  | .unique => internalError

/-- The reply to a call that returned. -/
def answerReply : Answer → Reply
  | .created created case eventId =>
    ⟨if created then 201 else 200, .answer (.created created case eventId)⟩
  | answer => ⟨200, .answer answer⟩

/-- The reply to a registration that returned. -/
def registeredReply : Evidence.Answer → Reply
  | .registered created evidence =>
    ⟨if created then 201 else 200, .registered (.registered created evidence)⟩
  | answer => ⟨200, .registered answer⟩

/-- The `limit` of `listCases`, unless it is none that the database takes. -/
def pageSize : Option Number → Option ℕ
  | none => some 100
  | some .nan => none
  | some .infinity => some 200
  | some .minusInfinity => some 1
  | some (.finite value) =>
    let limit := max 1 (min 200 value)
    if limit.den = 1 then some limit.num.toNat else none

/-- The sequence that `listCaseEvents` begins after, unless it is none that the database takes. Sequences
begin at 1. -/
def sequenceAfter : Number → Option ℕ
  | .finite value =>
    if value.den = 1 ∧ -2 ^ 63 ≤ value.num ∧ value.num < 2 ^ 63 then some value.num.toNat else none
  | _ => none

section

variable (S : Server)

/-- What the case store does. -/
def Operation.run (env : Env) (db : Database) : Operation → Reply × Database
  | .work (.call call) =>
    match db.call S.sha256 S.evidenceRequireScan call with
    | .error failure => (failureReply failure, db)
    | .ok (answer, db) => (answerReply answer, db)
  | .work (.registered _ evidenceId) => (answerReply (.registered evidenceId), db)
  | .register request idempotencyKey =>
    match db.register S.sha256 S.contentSha256 S.hashtext S.evidenceMaxBytes env request idempotencyKey with
    | .error failure => (evidenceFailureReply failure, db)
    | .ok (answer, db) => (registeredReply answer, db)
  | .listCases tenantId status limit =>
    (match pageSize limit with
      | some limit => ⟨200, .cases (CaseStore.listCases S.collate db tenantId status limit)⟩
      | none => internalError, db)
  | .getCase key =>
    (match getCaseView db key env.timestamp with
      | some view => ⟨200, .view view⟩
      | none => ⟨404, .error "case.not_found"⟩, db)
  | .listEvents key after =>
    (match sequenceAfter after with
      | some after => ⟨200, .events (listCaseEvents key (rowsOf key db.events) after)⟩
      | none => internalError, db)
  | .verifyLedger key =>
    (⟨200, .verification key.caseId (verifyCaseLedger S.sha256 key (rowsOf key db.events))⟩, db)
  | .getEvidence tenantId evidenceId =>
    (match Evidence.getEvidence db.evidence tenantId evidenceId with
      | some view => ⟨200, .evidence view⟩
      | none => ⟨404, .error "evidence.not_found"⟩, db)

/-- The reply to a request, and the tables after it. -/
def serve (db : Database) (v : Visit) : Reply × Database :=
  match operation S v with
  | .error error => (⟨error.httpStatus, .error error.code⟩, db)
  | .ok op => op.run S v.env db

end

/-! ## The tenant of a request -/

/-- The tenant whose rows an operation is about. -/
def Operation.tenantId (sha256 : List Char → String) : Operation → String
  | .work (.call call) => (call.key sha256).tenantId
  | .work (.registered key _) => key.tenantId
  | .register request _ => request.tenantId
  | .listCases tenantId _ _ | .getEvidence tenantId _ => tenantId
  | .getCase key | .listEvents key _ | .verifyLedger key => key.tenantId

/-- An operation on the rows of a tenant, with the ids that a request draws. -/
structure Operation.Of (sha256 : List Char → String) (tenantId : String) (env : Env)
    (op : Operation) : Prop where
  tenant : op.tenantId sha256 = tenantId
  draws : ∀ call, op = .work (.call call) → ∀ env' ∈ call.env?, env' = env

section

variable {S : Server} {v : Visit} {principal : Principal}

theorem authorize_ok {action : PlatformAction} (h : v.authorize S action = .ok principal) :
    v.tenant? S = some principal.tenantId := by
  rw [Visit.authorize, require] at h
  rw [Visit.tenant?]
  cases hresolve : v.resolver S v.headers with
  | error reasonCode =>
    rw [hresolve] at h
    cases h
  | ok resolved =>
    rw [hresolve, ok_bind] at h
    cases hevaluate : evaluate resolved action v.headers.tenantId with
    | error reasonCode =>
      rw [hevaluate] at h
      cases h
    | ok _ =>
      rw [hevaluate] at h
      cases h
      rfl

/-- Routes that write ask for the same authorization. -/
theorem authorize_write_ok {route : WriteRoute} {action : PlatformAction}
    (h : authorize S.toDeployment (v.write route) action = .ok principal) :
    v.tenant? S = some principal.tenantId := @authorize_ok S v principal action h

theorem createCase_ok {body : Option CreateKycCaseRequest} {idempotencyKey : String} {route : WriteRoute}
    {admission : Admission}
    (h : createCase S.toDeployment v.now (v.write route) body idempotencyKey v.env = .ok admission) :
    ∃ tenantId, v.tenant? S = some tenantId ∧
      (Operation.work admission.work).Of S.sha256 tenantId v.env := by
  simp only [createCase, bind_eq_ok (x := authorize _ _ _), bind_eq_ok (x := workloadEnvelope _ _ _ _),
    ensure_bind_eq_ok, orThrow_bind_eq_ok, pure_eq_ok] at h
  obtain ⟨principal, hprincipal, -, -, request, -, htenant, rfl⟩ := h
  refine ⟨_, authorize_write_ok hprincipal, htenant, ?_⟩
  rintro _ ⟨⟩ env ⟨⟩
  rfl

theorem submitCommand_ok {caseId : String} {body : Option BusinessCommand} {route : WriteRoute}
    {admission : Admission}
    (h : submitCommand S.toDeployment v.now (v.write route) caseId body v.env = .ok admission) :
    ∃ tenantId, v.tenant? S = some tenantId ∧
      (Operation.work admission.work).Of S.sha256 tenantId v.env := by
  simp only [submitCommand, bind_eq_ok (x := authorize _ _ _), bind_eq_ok (x := workloadEnvelope _ _ _ _),
    bind_eq_ok (x := assertCommandAllowed _ _ _), ensure_bind_eq_ok, orThrow_bind_eq_ok, pure_eq_ok] at h
  obtain ⟨principal, hprincipal, command, -, -, htenant, -, -, -, -, rfl⟩ := h
  refine ⟨_, authorize_write_ok hprincipal, htenant, ?_⟩
  rintro _ ⟨⟩ env ⟨⟩
  rfl

theorem registerEvidence_ok {body : Option RegisterEvidenceRequest} {route : WriteRoute}
    {admission : Admission}
    (h : registerEvidence S.toDeployment v.now (v.write route) body v.env none = .ok admission) :
    ∃ request, body = some request ∧ v.tenant? S = some request.tenantId.val := by
  simp only [registerEvidence, bind_eq_ok (x := authorize _ _ _),
    bind_eq_ok (x := workloadEnvelope _ _ _ _), ensure_bind_eq_ok, orThrow_bind_eq_ok, pure_eq_ok] at h
  obtain ⟨principal, hprincipal, -, -, request, hbody, htenant, -⟩ := h
  exact ⟨request, hbody, htenant ▸ authorize_write_ok hprincipal⟩

/-- **What a request asks of the case store is about the tenant of its principal.** -/
theorem operation_ok {op : Operation} (h : operation S v = .ok op) :
    ∃ tenantId, v.tenant? S = some tenantId ∧ op.Of S.sha256 tenantId v.env := by
  have hread {principal : Principal} {action : PlatformAction} {op : Operation}
      (hprincipal : v.authorize S action = .ok principal)
      (htenant : op.tenantId S.sha256 = principal.tenantId) (hop : ∀ call, op ≠ .work (.call call)) :
      ∃ tenantId, v.tenant? S = some tenantId ∧ op.Of S.sha256 tenantId v.env :=
    ⟨_, authorize_ok hprincipal, htenant, fun call heq => absurd heq (hop call)⟩
  rw [operation] at h
  split at h
  · obtain ⟨admission, hadmission, h⟩ := bind_eq_ok.mp h
    obtain rfl := pure_eq_ok.mp h
    exact createCase_ok hadmission
  · simp only [bind_eq_ok (x := Visit.authorize _ _ _), ensure_bind_eq_ok, pure_eq_ok] at h
    obtain ⟨principal, hprincipal, -, rfl⟩ := h
    exact hread hprincipal rfl (by simp)
  · simp only [bind_eq_ok (x := Visit.authorize _ _ _), pure_eq_ok] at h
    obtain ⟨principal, hprincipal, rfl⟩ := h
    exact hread hprincipal rfl (by simp)
  · obtain ⟨admission, hadmission, h⟩ := bind_eq_ok.mp h
    obtain rfl := pure_eq_ok.mp h
    exact submitCommand_ok hadmission
  · simp only [bind_eq_ok (x := Visit.authorize _ _ _), pure_eq_ok] at h
    obtain ⟨principal, hprincipal, rfl⟩ := h
    exact hread hprincipal rfl (by simp)
  · simp only [bind_eq_ok (x := Visit.authorize _ _ _), pure_eq_ok] at h
    obtain ⟨principal, hprincipal, rfl⟩ := h
    exact hread hprincipal rfl (by simp)
  · next body idempotencyKey _ =>
    obtain ⟨admission, hadmission, h⟩ := bind_eq_ok.mp h
    simp only [orThrow_bind_eq_ok, pure_eq_ok] at h
    obtain ⟨request, rfl, rfl⟩ := h
    obtain ⟨named, hnamed, htenant⟩ := registerEvidence_ok hadmission
    obtain rfl := Option.some_inj.mp hnamed
    exact ⟨_, htenant, rfl, by simp⟩
  · simp only [bind_eq_ok (x := Visit.authorize _ _ _), pure_eq_ok] at h
    obtain ⟨principal, hprincipal, rfl⟩ := h
    exact hread hprincipal rfl (by simp)

end

/-! ## Operations on the rows of a tenant -/

section

variable {S : Server} {tenantId : String} {others : Env → Prop} {db : Database} {env : Env}
  {op : Operation}

/-- **What the tenant asks for is done alike on the rows of the tenant alone.** -/
theorem Operation.run_tenant (hapart : Apart S.sha256 tenantId others db)
    (hop : op.Of S.sha256 tenantId env) (hfresh : env.Fresh others) :
    op.run S env (db.tenant tenantId) = ((op.run S env db).1, (op.run S env db).2.tenant tenantId) := by
  obtain ⟨htenant, hdraws⟩ := hop
  cases op with
  | work work =>
    cases work with
    | call call =>
      have hown : ∀ env' ∈ call.env?, env'.Fresh others := by
        intro env' henv
        rw [hdraws call rfl env' henv]
        exact hfresh
      rw [Operation.run, Operation.run, call_tenant hapart htenant hown]
      cases db.call S.sha256 S.evidenceRequireScan call <;> rfl
    | registered key evidenceId => rfl
  | register request idempotencyKey =>
    rw [Operation.run, Operation.run, register_tenant hapart htenant hfresh]
    cases db.register S.sha256 S.contentSha256 S.hashtext S.evidenceMaxBytes env request
      idempotencyKey <;> rfl
  | listCases tenant status limit =>
    obtain rfl : tenant = tenantId := htenant
    simp only [Operation.run, Database.listCases_tenant]
  | getCase key => simp only [Operation.run, Database.getCaseView_tenant htenant]
  | listEvents key after => simp only [Operation.run, Database.tenant, rowsOf_ofTenant htenant]
  | verifyLedger key => simp only [Operation.run, Database.tenant, rowsOf_ofTenant htenant]
  | getEvidence tenant evidenceId =>
    obtain rfl : tenant = tenantId := htenant
    simp only [Operation.run, Database.getEvidence_tenant]

/-- **What another tenant asks for leaves the rows of the tenant as they are.** -/
theorem Operation.tenant_run (htenant : op.tenantId S.sha256 ≠ tenantId) :
    (op.run S env db).2.tenant tenantId = db.tenant tenantId := by
  cases op with
  | work work =>
    cases work with
    | call call =>
      rw [Operation.run]
      split
      · rfl
      · next hcall => exact tenant_call htenant hcall
    | registered key evidenceId => rfl
  | register request idempotencyKey =>
    rw [Operation.run]
    split
    · rfl
    · next hregister => exact tenant_register htenant hregister
  | listCases | getCase | listEvents | verifyLedger | getEvidence => rfl

/-- The tenants stay apart. -/
theorem Operation.run_apart {owner : String} (hapart : Apart S.sha256 tenantId others db)
    (hop : op.Of S.sha256 owner env) (hothers : owner ≠ tenantId → others env)
    (hpartition : owner ≠ tenantId → ∀ digest digest',
      Evidence.artifactRef S.sha256 owner digest ≠ Evidence.artifactRef S.sha256 tenantId digest') :
    Apart S.sha256 tenantId others (op.run S env db).2 := by
  obtain ⟨rfl, hdraws⟩ := hop
  cases op with
  | work work =>
    cases work with
    | call call =>
      rw [Operation.run]
      split
      · exact hapart
      · next hcall =>
        refine hapart.after_call (fun hne env' henv => ?_) hcall
        rw [hdraws call rfl env' henv]
        exact hothers hne
    | registered key evidenceId => exact hapart
  | register request idempotencyKey =>
    rw [Operation.run]
    split
    · exact hapart
    · next hregister => exact hapart.after_register hothers hpartition hregister
  | listCases | getCase | listEvents | verifyLedger | getEvidence => exact hapart

end

/-! ## Noninterference -/

/-- The request is by a principal that is assigned to the tenant. -/
def By (S : Server) (tenantId : String) (v : Visit) : Prop := v.tenant? S = some tenantId

instance (S : Server) (tenantId : String) : DecidablePred (By S tenantId) :=
  fun v => inferInstanceAs (Decidable (v.tenant? S = some tenantId))

/-- The ids that requests of the tenant draw are none that the others draw, and the artifacts of the other
tenants are not in its partition. -/
structure Distinct (S : Server) (tenantId : String) (h : List Visit) : Prop where
  fresh : ∀ v ∈ h, By S tenantId v → v.env.Fresh fun env => ∃ w ∈ h, ¬ By S tenantId w ∧ w.env = env
  partitions : ∀ v ∈ h, ∀ owner ∈ v.tenant? S, owner ≠ tenantId → ∀ digest digest',
    Evidence.artifactRef S.sha256 owner digest ≠ Evidence.artifactRef S.sha256 tenantId digest'

/-- A history of requests: the replies, and the tables after it. -/
def history (S : Server) (h : List Visit) : List (Visit × Reply) × Database :=
  Noninterference.serveAll (serve S) .empty h

/-- The requests of a tenant, with their replies. -/
def replies (S : Server) (tenantId : String) (h : List Visit) : List (Visit × Reply) :=
  (history S h).1.filter fun r => By S tenantId r.1

/-- What a tenant sees of a history is what it sees when it is alone. -/
theorem history_purge {S : Server} {tenantId : String} {h : List Visit}
    (hdistinct : Distinct S tenantId h) :
    history S (h.filter fun v => By S tenantId v) =
      (replies S tenantId h, (history S h).2.tenant tenantId) := by
  let others : Env → Prop := fun env => ∃ w ∈ h, ¬ By S tenantId w ∧ w.env = env
  refine @Noninterference.serveAll_purge _ _ _ (serve S) (fun db => db.tenant tenantId) (By S tenantId)
    (· ∈ h) _ (Apart S.sha256 tenantId others) ?_ ?_ ?_ .empty h apart_empty fun _ hv => hv
  · intro db v hapart hv
    rw [serve]
    split
    · exact hapart
    · next op hop =>
      obtain ⟨owner, howner, hof⟩ := operation_ok hop
      refine Operation.run_apart hapart hof (fun hne => ⟨v, hv, ?_, rfl⟩)
        (hdistinct.partitions v hv owner howner)
      rw [By, howner]
      simpa using hne
  · intro db v hapart hv hmine
    rw [serve, serve]
    split
    · rfl
    · next op hop =>
      obtain ⟨owner, howner, hof⟩ := operation_ok hop
      obtain rfl : owner = tenantId := Option.some_inj.mp (howner.symm.trans hmine)
      exact Operation.run_tenant hapart hof (hdistinct.fresh v hv hmine)
  · intro db v _ _ hnot
    rw [serve]
    split
    · rfl
    · next op hop =>
      obtain ⟨owner, howner, hof⟩ := operation_ok hop
      refine Operation.tenant_run fun htenant => hnot ?_
      rw [By, howner, ← hof.tenant, htenant]

/-! ### Two tenants -/

namespace Sample

/-- Two surfaces, each of a tenant. -/
def twoTenants : Server where
  sha256 := String.ofList
  plans := []
  envelopeTtlSeconds := none
  workloadResolver := resolveServiceToken
    [⟨"edge-token", "control-surface-edge", ["Edge.Delegate"], "tenant"⟩,
      ⟨"other-edge-token", "control-surface-edge", ["Edge.Delegate"], "other"⟩]
  executionSecret := false
  evidenceRequireScan := false
  contentSha256 := Evidence.sampleHash
  hashtext _ := 0
  evidenceMaxBytes := 2
  collate a b := a ≤ b

/-- An analyst at a surface asks for a case. -/
def visit (bearer : String) (tenantId : NonEmpty) (tag : String) : Visit where
  headers := ⟨some bearer, some "ann", ["Case.Analyst"], none⟩
  envelope := .absent
  route := .createCase (some { CaseStore.Sample.request with tenantId }) "create"
  env := CaseStore.Sample.env tag
  now := 0

/-- In the tenant. -/
def ownVisit : Visit := visit "edge-token" ⟨"tenant", CaseStore.Sample.tenant_ne_empty⟩ "1"

/-- In the other tenant. -/
def otherVisit : Visit := visit "other-edge-token" ⟨"other", by decide⟩ "2"

theorem tenant?_ownVisit : ownVisit.tenant? twoTenants = some "tenant" := by decide +kernel

theorem tenant?_otherVisit : otherVisit.tenant? twoTenants = some "other" := by decide +kernel

/-- An artifact reference begins with the partition of its tenant. -/
theorem exists_toList_artifactRef (sha256 : List Char → String) (tenantId digest : String) :
    ∃ rest, (Evidence.artifactRef sha256 tenantId digest).toList =
      "artifact://postgres/".toList ++ ((stableDigest sha256 (.str tenantId)).toList.take 16 ++ rest) := by
  have href : Evidence.artifactRef sha256 tenantId digest =
      "artifact://postgres/" ++ String.ofList ((stableDigest sha256 (.str tenantId)).toList.take 16) ++
        "/sha256/" ++ String.ofList (digest.toList.take 2) ++ "/" ++
        String.ofList ((digest.toList.take 4).drop 2) ++ "/" ++ digest := rfl
  rw [href]
  simp only [String.toList_append, String.toList_ofList, List.append_assoc]
  exact ⟨_, rfl⟩

/-- The partitions of the two. -/
theorem artifactRef_ne (digest digest' : String) : Evidence.artifactRef String.ofList "other" digest ≠
    Evidence.artifactRef String.ofList "tenant" digest' := by
  obtain ⟨rest, hother⟩ := exists_toList_artifactRef String.ofList "other" digest
  obtain ⟨rest', hown⟩ := exists_toList_artifactRef String.ofList "tenant" digest'
  have hpartition : (stableDigest String.ofList (.str "other")).toList.take 16 =
      ['"', 'o', 't', 'h', 'e', 'r', '"'] := by decide +kernel
  have hpartition' : (stableDigest String.ofList (.str "tenant")).toList.take 16 =
      ['"', 't', 'e', 'n', 'a', 'n', 't', '"'] := by decide +kernel
  intro heq
  rw [heq, hown, hpartition, hpartition'] at hother
  simpa using List.append_cancel_left hother

theorem distinct_sample {h : List Visit} (hh : ∀ v ∈ h, v = ownVisit ∨ v = otherVisit) :
    Distinct twoTenants "tenant" h := by
  refine ⟨fun v hv hmine => ?_, fun v hv owner howner hne => ?_⟩
  · obtain rfl : v = ownVisit := by
      rcases hh v hv with rfl | rfl
      · rfl
      · rw [By, tenant?_otherVisit] at hmine
        simp at hmine
    have hother : ∀ env, (∃ w ∈ h, ¬ By twoTenants "tenant" w ∧ w.env = env) →
        env = CaseStore.Sample.env "2" := by
      rintro _ ⟨w, hw, hnot, rfl⟩
      rcases hh w hw with rfl | rfl
      · exact absurd tenant?_ownVisit hnot
      · rfl
    refine ⟨fun env henv => ?_, fun env henv => ?_⟩ <;> rw [hother env henv] <;> decide +kernel
  · rcases hh v hv with rfl | rfl
    · rw [tenant?_ownVisit] at howner
      exact absurd (Option.some_inj.mp howner).symm hne
    · rw [tenant?_otherVisit] at howner
      obtain rfl := Option.some_inj.mp howner
      exact artifactRef_ne

end Sample

/-- **Tenant noninterference**: two histories with the same requests of a tenant give it the same replies
and leave it the same rows, whatever the other tenants request in them. -/
theorem tenant_noninterference {S : Server} {tenantId : String} {h h' : List Visit}
    (hsame : (h.filter fun v => By S tenantId v) = h'.filter fun v => By S tenantId v)
    (hdistinct : Distinct S tenantId h) (hdistinct' : Distinct S tenantId h') :
    replies S tenantId h = replies S tenantId h' ∧
      (history S h).2.tenant tenantId = (history S h').2.tenant tenantId := by
  have hpurge := history_purge hdistinct
  rw [hsame, history_purge hdistinct'] at hpurge
  exact ⟨(congrArg Prod.fst hpurge).symm, (congrArg Prod.snd hpurge).symm⟩

/-- The other tenant asks first, under the same key, or not at all. -/
theorem tenant_noninterference_sample :
    replies Sample.twoTenants "tenant" [Sample.otherVisit, Sample.ownVisit] =
        replies Sample.twoTenants "tenant" [Sample.ownVisit] ∧
      (history Sample.twoTenants [Sample.otherVisit, Sample.ownVisit]).2.tenant "tenant" =
        (history Sample.twoTenants [Sample.ownVisit]).2.tenant "tenant" ∧
      (history Sample.twoTenants [Sample.otherVisit, Sample.ownVisit]).1.map (·.2.httpStatus) =
        [201, 201] := by
  have hother : ¬ By Sample.twoTenants "tenant" Sample.otherVisit := by
    rw [By, Sample.tenant?_otherVisit]
    simp
  have hsame : [Sample.otherVisit, Sample.ownVisit].filter (fun v => By Sample.twoTenants "tenant" v) =
      [Sample.ownVisit].filter fun v => By Sample.twoTenants "tenant" v := by
    rw [List.filter_cons_of_neg (by simpa using hother)]
  have hseen := tenant_noninterference hsame (Sample.distinct_sample (by simp))
    (Sample.distinct_sample (by simp))
  exact ⟨hseen.1, hseen.2, by decide +kernel⟩

end CaseApi

end HarnessFramework
