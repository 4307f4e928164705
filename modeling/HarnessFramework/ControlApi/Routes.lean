import HarnessFramework.ControlApi.Tables
import HarnessFramework.Contracts.Plan
import HarnessFramework.Identity.Authorization
import HarnessFramework.Library.Script

/-!
# The routes of the control API

The handlers of `apps/control-api/src/app.ts`, statement by statement, with the functions of
`packages/persistence/src/index.ts` that issue more than one. A request comes with its principal. What
a body shows of the tables are rows: whatever is computed of a row counts as the row.

## Main definitions

* `Route`, `Route.action`, `Call` — a request
* `Content`, `Response` — an answer, and the rows that it shows
* `createAuthoringDraft`, `updateAuthoringSources`, `setAuthoringLifecycle`, `admitPlan`
* `handle`, `server` — the control API
-/

namespace HarnessFramework

namespace ControlApi

open Persistence HarnessCompiler Identity

/-! ## Requests and answers -/

/-- A request of a runtime to write the state of a run. -/
inductive RuntimeStateWrite
  | nodeStarted (nodeId inputDigest : String)
  | nodeFinished (input : NodeFinished)
  | event (eventKey code : String) (nodeId : Option String) (status : String) (values : Json)
  | checkpoint (nodeId checkpointId : Option String)

/-- `fencedRunSchema`. -/
structure FencedRun where
  runId : String
  workerId : String
  attempt : ℕ
  fencingEpoch : ℕ

/-- A route with its parameters. A body that does not have the shape of the route is `none`, as is a
grant that is missing or does not verify. -/
inductive Route
  | listPlans
  | getPlan (planDigest : String)
  | admitPlan (body : Json)
  | listDrafts
  | createDraft (packageSource workflowSource : Option String)
  | getDraft (draftId : String)
  | putDraft (draftId : String) (body : Option (ℤ × Sources))
  | attachAgent (draftId agentId : String) (body : Option (ℤ × Attachment))
  | putCaseWrites (draftId nodeId : String) (body : Option (ℤ × List Json))
  | validateDraft (draftId : String)
  | compileDraft (draftId : String)
  | evaluateDraft (draftId : String)
  | approveDraft (draftId : String)
  | publishDraft (draftId : String)
  | listRuns
  | startRun (body : Option (String × Json)) (idempotencyKey : String)
  | getRun (runId : String)
  | cancelRun (runId reason : String)
  | listRunEvents (runId : String) (after : ℕ)
  | mintEnvelope (grant : Option RuntimeGrantClaims) (request : EnvelopeRequest)
  | runtimeState (grant : Option RuntimeGrantClaims) (run : FencedRun) (write : RuntimeStateWrite)

/-- What a route requires. -/
def Route.action : Route → PlatformAction
  | listPlans | getPlan _ => .planRead
  | admitPlan _ => .planAdmit
  | listDrafts | getDraft _ | validateDraft _ => .draftRead
  | createDraft .. | putDraft .. | attachAgent .. | putCaseWrites .. => .draftWrite
  | compileDraft _ => .draftCompile
  | evaluateDraft _ => .draftEvaluate
  | approveDraft _ => .draftApprove
  | publishDraft _ => .draftPublish
  | listRuns | getRun _ => .runRead
  | startRun .. => .runStart
  | cancelRun .. => .runCancel
  | listRunEvents .. => .eventRead
  | mintEnvelope .. => .envelopeMint
  | runtimeState .. => .runtimeStateWrite

/-- A request, with the random ids that it draws. -/
structure Call where
  principal : Principal
  route : Route
  uuid : ℕ → String

variable (S : PlanSchema)

/-- A row that an answer shows. -/
inductive Content
  | draft (row : DraftRow S)
  | event (row : AuthoringEventRow)
  | plan (row : PlanRow S)
  | run (row : RunRow)
  | runEvent (row : RunEventRow)

/-- An answer: its status, its error, and the rows that its body was made of. -/
structure Response where
  status : ℕ
  error : Option String
  content : List (Content S)

/-- What is left of a request. -/
abbrev Handler : Type 1 := Script (Statement S) (Response S)

variable {S}

def reply (status : ℕ) (content : List (Content S)) : Handler S := .done ⟨status, none, content⟩

def refuse (status : ℕ) (error : String) (content : List (Content S)) : Handler S :=
  .done ⟨status, some error, content⟩

/-- `reply.code(500)` of the error handler. -/
def internalError : Handler S := refuse 500 "control.internal_error" []

/-! ## Functions of more than one statement -/

/-- `createAuthoringDraft`. -/
def createAuthoringDraft (uuid : ℕ → String) (input : CreateDraftInput)
    (next : Except String (DraftRow S) → Handler S) : Handler S :=
  .query (.insertDraft input) fun
    | .error message => next (.error message)
    | .ok row =>
      .query (.insertEvent
        { eventId := "evt_" ++ uuid 1
          draftId := row.draftId
          revision := 1
          eventType := "draft.created"
          actor := input.actor
          details := .obj [("source", .str "authoring-plane")]
          occurredAt := 0 }) fun
        | .error message => next (.error message)
        | .ok _ => next (.ok row)

/-- `updateAuthoringSources`. -/
def updateAuthoringSources (eventId draftId : String) (input : UpdateSourcesInput)
    (next : Except String (DraftRow S) → Handler S) : Handler S :=
  .query (.updateSources draftId input) fun
    | none => next (.error "authoring.revision_conflict_or_published")
    | some row =>
      .query (.insertEvent
        { eventId, draftId
          revision := row.revision
          eventType := "draft.updated"
          actor := input.actor
          details := .obj []
          occurredAt := 0 }) fun
        | .error message => next (.error message)
        | .ok _ => next (.ok row)

/-- What `setAuthoringLifecycle` throws. -/
inductive LifecycleFailure
  | separationOfDuties
  | message (message : String)

/-- The type of the event of a transition. -/
def AuthoringStatus.eventType : AuthoringStatus → String
  | draft => "draft.draft"
  | compiled => "draft.compiled"
  | evaluated => "draft.evaluated"
  | approved => "draft.approved"
  | published => "draft.published"

/-- The update of `setAuthoringLifecycle`, and its event. -/
def advanceLifecycle (eventId draftId : String) (input : LifecycleInput S)
    (next : Except LifecycleFailure (DraftRow S) → Handler S) : Handler S :=
  .query (.setLifecycle draftId input) fun
    | none => next (.error (.message "authoring.lifecycle_conflict"))
    | some row =>
      let planDigest := (input.compiledPlan.map (·.plan.planDigest)).or input.publishedPlanDigest
      .query (.insertEvent
        { eventId, draftId
          revision := row.revision
          eventType := input.status.eventType
          actor := input.actor
          details := .obj <| [("from", .str input.expectedStatus.text), ("to", .str input.status.text)] ++
            optionalMember "planDigest" (planDigest.map .str)
          occurredAt := 0 }) fun
        | .error message => next (.error (.message message))
        | .ok _ => next (.ok row)

/-- `setAuthoringLifecycle`. -/
def setAuthoringLifecycle (eventId draftId : String) (input : LifecycleInput S)
    (next : Except LifecycleFailure (DraftRow S) → Handler S) : Handler S :=
  if input.status = .approved ∨ input.status = .published then
    .query (.contributors draftId) fun contributors =>
      if input.actor ∈ contributors then next (.error .separationOfDuties)
      else advanceLifecycle eventId draftId { input with contributors } next
  else advanceLifecycle eventId draftId input next

/-- A transition that reads nothing and writes nothing but the status. -/
def transition (expectedStatus status : AuthoringStatus) (actor : String) : LifecycleInput S where
  expectedStatus
  status
  actor
  compiledPlan := none
  diagnostics := none
  evaluationReport := none
  publishedPlanDigest := none
  read := none
  contributors := []

/-- `admitPlan`. -/
def admitPlan (sha256 : List Char → String) (document : Json) (tenantId : String)
    (next : Except String (Bool × S.Plan) → Handler S) : Handler S :=
  match S.read document with
  | .error message => next (.error message)
  | .ok plan =>
    if verifyPlanDigest sha256 plan.val then
      .query (.insertPlan tenantId plan) fun created => next (.ok (created, plan))
    else next (.error "plan.digest_invalid")

/-! ## Handlers -/

section

variable (tools : AuthoringTools) (sha256 : List Char → String) (principal : Principal)
  (uuid : ℕ → String)

/-- `message.includes("conflict") ? 409 : 400`. -/
def updateErrorStatus (message : String) : ℕ :=
  if "conflict".toList <:+: message.toList then 409 else 400

/-- Sources are analyzed and written, and the draft is shown. -/
def writeSources (draftId : String) (expectedRevision : ℤ) (sources : Sources) (read : List (Content S))
    (check : Analysis → Option (Handler S)) : Handler S :=
  match tools.analyzeAuthoringSources sources with
  | .error message => refuse (updateErrorStatus message) message read
  | .ok analysis => (check analysis).getD <|
    updateAuthoringSources ("evt_" ++ uuid 0) draftId
      ⟨expectedRevision, sources, analysis, principal.subjectId⟩ fun
        | .error message => refuse (updateErrorStatus message) message read
        | .ok row => reply 200 [.draft row]

/-- `POST /v1/authoring/drafts`. -/
def createDraft (packageSource workflowSource : Option String) : Handler S :=
  let defaults := tools.defaultAuthoringSources
  let sources : Sources :=
    ⟨packageSource.getD defaults.packageSource, workflowSource.getD defaults.workflowSource⟩
  match tools.analyzeAuthoringSources sources with
  | .error message => refuse 400 message []
  | .ok analysis =>
    createAuthoringDraft uuid
      ⟨"draft_" ++ uuid 0, sources, analysis, principal.subjectId, principal.tenantId⟩ fun
        | .error message => refuse 400 message []
        | .ok row => reply 201 [.draft row]

/-- `GET /v1/authoring/drafts/:draftId`. -/
def getDraft (draftId : String) : Handler S :=
  .query (.getDraft draftId principal.tenantId) fun
    | none => refuse 404 "authoring.draft_not_found" []
    | some draft => .query (.listEvents draft.draftId) fun events =>
      reply 200 (.draft draft :: events.map .event)

/-- `PUT /v1/authoring/drafts/:draftId`. -/
def putDraft (draftId : String) : Option (ℤ × Sources) → Handler S
  | none => refuse 400 "authoring.update_invalid" []
  | some (expectedRevision, sources) =>
    writeSources tools principal uuid draftId expectedRevision sources [] fun _ => none

/-- `POST /v1/authoring/drafts/:draftId/agents/:agentId/attach`. -/
def attachAgent (draftId agentId : String) : Option (ℤ × Attachment) → Handler S
  | none => refuse 400 "authoring.agent_attachment_invalid" []
  | some (expectedRevision, attachment) =>
    .query (.getDraft draftId principal.tenantId) fun draft =>
    .query .registry fun registry =>
    match draft, registry.agents.find? fun agent => text "id" agent = agentId with
    | none, _ => refuse 404 "authoring.draft_not_found" []
    | some _, none => refuse 404 "authoring.agent_not_found" []
    | some draft, some agent =>
      match tools.applyAgentToAuthoringSources draft.sources agent registry.skills attachment with
      | .error message => refuse (updateErrorStatus message) message [.draft draft]
      | .ok (sources, _) =>
        writeSources tools principal uuid draft.draftId expectedRevision sources [.draft draft] fun _ => none

/-- `PUT /v1/authoring/drafts/:draftId/nodes/:nodeId/case-writes`. -/
def putCaseWrites (draftId nodeId : String) : Option (ℤ × List Json) → Handler S
  | none => refuse 400 "authoring.case_writes_update_invalid" []
  | some (expectedRevision, caseWrites) =>
    .query (.getDraft draftId principal.tenantId) fun
    | none => refuse 404 "authoring.draft_not_found" []
    | some draft =>
      match tools.updateNodeCaseWrites draft.sources.workflowSource nodeId caseWrites with
      | .error message => refuse (updateErrorStatus message) message [.draft draft]
      | .ok workflowSource =>
        let path := "nodes." ++ nodeId ++ ".config.caseWrites"
        writeSources tools principal uuid draft.draftId expectedRevision
          { draft.sources with workflowSource } [.draft draft] fun analysis =>
            if ∃ item ∈ analysis.diagnostics, item.severity = .error ∧ path.toList <:+: item.path.toList then
              some (refuse 422 "authoring.case_writes_invalid" [.draft draft])
            else none

/-- `POST /v1/authoring/drafts/:draftId/validate`. -/
def validateDraft (draftId : String) : Handler S :=
  .query (.getDraft draftId principal.tenantId) fun
    | none => refuse 404 "authoring.draft_not_found" []
    | some draft => match tools.analyzeAuthoringSources draft.sources with
      | .error _ => internalError
      | .ok _ => reply 200 [.draft draft]

/-- The registrations that are active. -/
def active (registrations : List Json) : List Json :=
  registrations.filter fun item => text "status" item = "active"

/-- `POST /v1/authoring/drafts/:draftId/compile`, once the contracts of the draft are materialized. -/
def compileMaterialized (registry : Registry) (draft : DraftRow S) : Handler S :=
  match compileAuthoringDraft S tools sha256 draft.sources registry with
  | .error message => refuse 400 message [.draft draft]
  | .ok (none, _) => refuse 422 "authoring.compile_failed" [.draft draft]
  | .ok (some compilation, diagnostics) =>
    setAuthoringLifecycle ("evt_" ++ uuid 1) draft.draftId
      { transition (S := S) .draft .compiled principal.subjectId with
        compiledPlan := some compilation
        diagnostics := some diagnostics
        read := some draft } fun
      | .error .separationOfDuties => refuse 400 "authoring.separation_of_duties" []
      | .error (.message message) => refuse 400 message []
      | .ok row => reply 200 [.draft row]

/-- `POST /v1/authoring/drafts/:draftId/compile`. -/
def compileDraft (draftId : String) : Handler S :=
  .query (.getDraft draftId principal.tenantId) fun
    | none => refuse 404 "authoring.draft_not_found" []
    | some draft =>
      if draft.status ≠ .draft then refuse 409 "authoring.compile_requires_draft" []
      else
        .query .registry fun registry =>
        let registry : Registry :=
          ⟨active registry.capabilities, active registry.agents, active registry.skills⟩
        match tools.materializeRegisteredContracts draft.sources registry with
        | .error message => refuse 400 message [.draft draft]
        | .ok none => compileMaterialized tools sha256 principal uuid registry draft
        | .ok (some sources) => match tools.analyzeAuthoringSources sources with
          | .error message => refuse 400 message [.draft draft]
          | .ok analysis =>
            updateAuthoringSources ("evt_" ++ uuid 0) draft.draftId
              ⟨draft.revision, sources, analysis, principal.subjectId⟩ fun
                | .error message => refuse 400 message [.draft draft]
                | .ok draft => compileMaterialized tools sha256 principal uuid registry draft

/-- `POST /v1/authoring/drafts/:draftId/evaluate`. -/
def evaluateDraft (draftId : String) : Handler S :=
  .query (.getDraft draftId principal.tenantId) fun draft? =>
    match draft?, draft?.bind (·.compiledPlan) with
    | some draft, some compilation => .query .clock fun now =>
      let report := evaluateCompiledPlan now compilation.plan
      if report.passed then
        setAuthoringLifecycle ("evt_" ++ uuid 0) draft.draftId
          { transition (S := S) .compiled .evaluated principal.subjectId with
            evaluationReport := some report
            read := some draft } fun
          | .error .separationOfDuties => refuse 409 "authoring.separation_of_duties" []
          | .error (.message message) => refuse 409 message []
          | .ok row => reply 200 [.draft row]
      else refuse 422 "authoring.evaluation_failed" [.draft draft]
    | _, _ => refuse 409 "authoring.evaluate_requires_compiled" []

/-- `POST /v1/authoring/drafts/:draftId/approve`. -/
def approveDraft (draftId : String) : Handler S :=
  setAuthoringLifecycle ("evt_" ++ uuid 0) draftId (transition .evaluated .approved principal.subjectId) fun
    | .error .separationOfDuties => refuse 403 "authoring.separation_of_duties" []
    | .error (.message message) => refuse 409 message []
    | .ok row => reply 200 [.draft row]

/-- `POST /v1/authoring/drafts/:draftId/publish`. -/
def publishDraft (draftId : String) : Handler S :=
  .query (.getDraft draftId principal.tenantId) fun draft? =>
    match draft?, draft?.bind (·.compiledPlan) with
    | some draft, some compilation =>
      if draft.status ≠ .approved then refuse 409 "authoring.publish_requires_approved" []
      else admitPlan sha256 compilation.plan.val principal.tenantId fun
        | .error message => refuse 409 message [.draft draft]
        | .ok _ =>
          setAuthoringLifecycle ("evt_" ++ uuid 0) draft.draftId
            { transition (S := S) .approved .published principal.subjectId with
              publishedPlanDigest := some compilation.plan.planDigest
              read := some draft } fun
            | .error .separationOfDuties => refuse 403 "authoring.separation_of_duties" []
            | .error (.message message) => refuse 409 message []
            | .ok row => reply 200 [.draft row]
    | _, _ => refuse 409 "authoring.publish_requires_approved" []

/-- `POST /v1/runs`. -/
def startRun (body : Option (String × Json)) (idempotencyKey : String) : Handler S :=
  match body with
  | none => refuse 400 "run.request_invalid" []
  | some (planDigest, runInput) =>
    .query (.getPlan planDigest principal.tenantId) fun
    | none => refuse 404 "plan.not_found" []
    | some _ =>
      if idempotencyKey = "" then refuse 400 "run.idempotency_key_required" []
      else .query (.createRun (uuid 0) ⟨planDigest, runInput, idempotencyKey, principal.tenantId⟩) fun
        | .ok (created, row) => reply (if created then 202 else 200) [.run row]
        | .error (.code "run.idempotency_conflict") => refuse 409 "run.idempotency_conflict" []
        | .error _ => internalError

/-- `POST /v1/runs/:runId/cancel`. -/
def cancelRun (runId reason : String) : Handler S :=
  .query (.requestRunCancellation runId principal.tenantId reason) fun (outcome, row) =>
    let content := row.toList.map .run
    match outcome with
    | .notFound => refuse 404 "run.not_found" []
    | .alreadyTerminal => refuse 409 "run.already_terminal" content
    | .requested | .cancelled => reply 202 content

/-- `GET /v1/runs/:runId/events`. -/
def listRunEvents (runId : String) (after : ℕ) : Handler S :=
  .query (.getRun runId principal.tenantId) fun
    | none => refuse 404 "run.not_found" []
    | some _ => .query (.listRunEvents runId principal.tenantId after) fun events =>
      reply 200 (events.map .runEvent)

/-- `POST /v1/runtime/envelopes`, as far as it reads tables. The runs of all tenants are in reach: the
grant is the authority. -/
def mintEnvelope (request : EnvelopeRequest) : Option RuntimeGrantClaims → Handler S
  | none => refuse 401 "broker.grant_invalid" []
  | some grant =>
    if grant.runId ≠ request.runId then refuse 403 "broker.run_mismatch" []
    else if grant.attempt ≠ request.attempt then refuse 403 "broker.attempt_mismatch" []
    else .query (.getRun request.runId "") fun
      | none => refuse 404 "broker.run_not_found" []
      | some run =>
        if run.status ≠ .running then refuse 403 "broker.run_not_running" []
        else if run.planDigest ≠ grant.planDigest then refuse 403 "broker.plan_mismatch" []
        else .query (.currentFencingEpoch request.runId) fun epoch =>
          if epoch ≠ some grant.fencingEpoch then refuse 403 "broker.stale_fence" []
          else .query (.getPlan run.planDigest "") fun
            | none => refuse 404 "broker.plan_not_admitted" []
            | some row =>
              let permissions := elements (row.plan.val.get? "permissionEnvelopes")
              if ∃ item ∈ permissions, text "nodeId" item = request.nodeId then
                reply 200 [.run run, .plan row]
              else refuse 403 "broker.node_not_permitted" []

/-- `applyStateWrite`, and its answer. -/
def applyStateWrite (run : FencedRun) : RuntimeStateWrite → Handler S
  | .nodeStarted nodeId inputDigest => updateNode (some nodeId) none <|
    .query (.insertNodeAttempt
      { runId := run.runId, nodeId
        attempt := run.attempt
        fencingEpoch := run.fencingEpoch
        status := .running
        inputDigest
        outputDigest := none
        errorCode := none
        startedAt := 0
        completedAt := none }) fun
      | .error message => refuse 400 message []
      | .ok _ => reply 204 []
  | .nodeFinished input => .query (.finishNodeAttempt run.runId run.attempt input) fun _ => reply 204 []
  | .event eventKey code nodeId status values =>
    .query (.appendEvent ⟨run.runId, eventKey, code, nodeId, status, values⟩) fun
      | .error message => refuse 400 message []
      | .ok _ => reply 204 []
  | .checkpoint nodeId checkpointId => updateNode nodeId checkpointId (reply 204 [])
where
  /-- `updateRunNode`. -/
  updateNode (nodeId checkpointId : Option String) (next : Handler S) : Handler S :=
    .query (.updateRunNode ⟨run.runId, run.workerId, run.fencingEpoch⟩ nodeId checkpointId) fun
      | .error _ => refuse 403 "runtime.stale_fence" []
      | .ok _ => next

/-- `POST /v1/runtime/state/:operation`. -/
def runtimeState (run : FencedRun) (write : RuntimeStateWrite) : Option RuntimeGrantClaims → Handler S
  | none => refuse 401 "runtime_state.grant_invalid" []
  | some grant =>
    if grant.runId ≠ run.runId then refuse 403 "runtime_state.run_mismatch" []
    else if grant.attempt ≠ run.attempt then refuse 403 "runtime_state.attempt_mismatch" []
    else if grant.workerId ≠ run.workerId then refuse 403 "runtime_state.worker_mismatch" []
    else if grant.fencingEpoch ≠ run.fencingEpoch then refuse 403 "runtime_state.grant_fence_mismatch" []
    else .query (.getRun run.runId "") fun
      | none => refuse 404 "runtime_state.run_not_found" []
      | some record =>
        if record.status ≠ .running then refuse 403 "runtime_state.run_not_running" []
        else .query (.currentFencingEpoch run.runId) fun epoch =>
          if epoch ≠ some run.fencingEpoch then refuse 403 "runtime_state.stale_fence" []
          else applyStateWrite run write

/-- The handler of a route, for a principal that may act. -/
def dispatch : Route → Handler S
  | .listPlans => .query (.listPlans principal.tenantId) fun rows => reply 200 (rows.map .plan)
  | .getPlan planDigest => .query (.getPlan planDigest principal.tenantId) fun
    | none => refuse 404 "plan.not_found" []
    | some row => reply 200 [.plan row]
  | .admitPlan body => admitPlan sha256 body principal.tenantId fun
    | .error message => refuse 400 message []
    | .ok (created, _) => reply (if created then 201 else 200) []
  | .listDrafts => .query (.listDrafts principal.tenantId) fun rows => reply 200 (rows.map .draft)
  | .createDraft packageSource workflowSource =>
    createDraft tools principal uuid packageSource workflowSource
  | .getDraft draftId => getDraft principal draftId
  | .putDraft draftId body => putDraft tools principal uuid draftId body
  | .attachAgent draftId agentId body => attachAgent tools principal uuid draftId agentId body
  | .putCaseWrites draftId nodeId body => putCaseWrites tools principal uuid draftId nodeId body
  | .validateDraft draftId => validateDraft tools principal draftId
  | .compileDraft draftId => compileDraft tools sha256 principal uuid draftId
  | .evaluateDraft draftId => evaluateDraft principal uuid draftId
  | .approveDraft draftId => approveDraft principal uuid draftId
  | .publishDraft draftId => publishDraft sha256 principal uuid draftId
  | .listRuns => .query (.listRuns principal.tenantId) fun rows => reply 200 (rows.map .run)
  | .startRun body idempotencyKey => startRun principal uuid body idempotencyKey
  | .getRun runId => .query (.getRun runId principal.tenantId) fun
    | none => refuse 404 "run.not_found" []
    | some row => reply 200 [.run row]
  | .cancelRun runId reason => cancelRun principal runId reason
  | .listRunEvents runId after => listRunEvents principal runId after
  | .mintEnvelope grant request => mintEnvelope request grant
  | .runtimeState grant run write => runtimeState run write grant

end

section

variable (tools : AuthoringTools) (sha256 : List Char → String)

/-- The handler of a request. -/
def handle (call : Call) : Handler S :=
  match evaluate call.principal call.route.action none with
  | .error reasonCode => refuse 403 reasonCode []
  | .ok _ => dispatch tools sha256 call.principal call.uuid call.route

/-- What changes the tables besides the control API: the clock, the registry, and what workers and the
gateway do to runs and their events. Runs keep their ids and their tenants. -/
inductive Environment (t : Tables S) : Tables S → Prop
  | clock (clock) : Environment t { t with clock }
  | registry (registry) : Environment t { t with registry }
  | runs (runs) : (runs.map (·.runId)).Nodup →
      (∀ r ∈ t.runs, ∃ r' ∈ runs, r'.runId = r.runId ∧ r'.tenantId = r.tenantId) →
      Environment t { t with runs }
  | event (input) : Environment t (appendEvent input t).2

/-- The control API. -/
def server (S : PlanSchema) : Server (Tables S) (Statement S) Call (Response S) where
  exec := Statement.exec sha256
  handle := handle tools sha256
  Environment := Environment

end

section

variable {t t' : Tables S}

theorem Environment.grows (h : t.Ids) (henv : Environment t t') : t.Grows t' := by
  have hrefl := Tables.Grows.refl t
  cases henv with
  | clock | registry => exact { hrefl with }
  | runs runs hids hruns =>
    refine { hrefl with runs := ?_ }
    rintro runId tenantId ⟨r, hr, rfl, rfl⟩
    exact hruns r hr
  | event input => exact @Statement.exec_grows S (fun _ => "") t h _ (.appendEvent input)

theorem Environment.ids (h : t.Ids) (henv : Environment t t') : t'.Ids := by
  cases henv with
  | clock | registry => exact { h with }
  | runs runs hids hruns => exact { h with runs := hids }
  | event input => exact @Statement.exec_ids S (fun _ => "") t h _ (.appendEvent input)

end

/-- What happens to the tables between requests keeps ids and grows them. -/
theorem environment_grows (tools : AuthoringTools) (sha256 : List Char → String) {t t' : Tables S}
    (h : t.Ids) (henv : (server tools sha256 S).Environment t t') : t'.Ids ∧ t.Grows t' :=
  ⟨henv.ids h, henv.grows h⟩

namespace Sample

/-- Every document is a plan. -/
def schema : PlanSchema := ⟨.ok, fun h => by cases h; rfl⟩

/-- A plan of a workflow, without nodes. -/
def planContent (workflowSource : String) : List (String × Json) :=
  [("budgets", .obj [("maxDurationMs", .num (.ofNat 1)), ("maxCapabilityCalls", .num (.ofNat 1))]),
    ("execution", .obj [("engine", .obj [("adapterVersion", .str "harness-langgraph-v1")])]),
    ("graph", .str workflowSource)]

/-- Sources are what they say, and the compiler seals a plan of the workflow. -/
def tools (sha256 : List Char → String) : AuthoringTools where
  analyzeAuthoringSources sources := .ok ⟨.null, .null, [], sources.packageSource, "domain", "1.0.0"⟩
  defaultAuthoringSources := ⟨"package", "workflow"⟩
  applyAgentToAuthoringSources sources _ _ _ := .ok (sources, "agent")
  updateNodeCaseWrites workflowSource _ _ := .ok workflowSource
  materializeRegisteredContracts _ _ := .ok none
  compilerDiagnostics _ _ _ := []
  harnessc sources :=
    let content := planContent sources.workflowSource
    .ok (.obj (content ++ [("planDigest", .str (stableDigest sha256 (.obj content)))]))

/-- A principal with all that it takes to author and to approve. -/
def author (subjectId tenantId : String) : Principal :=
  ⟨subjectId, tenantId, .human, ["Harness.Author", "Harness.Approver"]⟩

/-- A request whose random ids start with a text. -/
def request (principal : Principal) (route : Route) (start : String) : Call :=
  ⟨principal, route, fun i => start ++ toString i⟩

/-- Tables with drafts and nothing else. -/
def tables (drafts : List CreateDraftInput) : Tables schema where
  drafts := drafts.map (newDraft 0)
  events := []
  plans := []
  runs := []
  runEvents := []
  nodeAttempts := []
  registry := ⟨[], [], []⟩
  clock := 0
  authors := drafts.map fun input => ⟨input.draftId, 1, input.actor⟩

/-- A draft. -/
def draft (draftId actor tenantId : String) : CreateDraftInput :=
  ⟨draftId, ⟨"package", "workflow"⟩, ⟨.null, .null, [], "package", "domain", "1.0.0"⟩, actor, tenantId⟩

end Sample

end ControlApi

end HarnessFramework
