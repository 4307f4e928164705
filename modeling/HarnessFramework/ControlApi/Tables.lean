import HarnessFramework.ControlApi.Plans
import HarnessFramework.Persistence.RunLifecycle

/-!
# The tables of the control API

The statements of `packages/persistence/src/index.ts` that the routes of `apps/control-api/src/app.ts`
issue, on drafts, authoring events, plans, runs, run events and node attempts. Each is atomic: one SQL
statement, or a transaction that locks the row of its run. Gateway receipts have a table of their own
that no route writes, and are left out.

## Main definitions

* `DraftRow`, `AuthoringEventRow`, `PlanRow`, `RunEventRow`, `NodeAttemptRow`, `Tables` — the tables
* `Authorship` — who changed a revision of a draft, whether or not an event says so
* `Statement`, `Statement.exec` — the statements, and what they do
* `Tables.Grows` — what every statement leaves as it is

## Main results

* `Statement.exec_grows`, `Statement.exec_ids` — the tables grow, and ids stay unique
-/

namespace HarnessFramework

namespace ControlApi

open Persistence HarnessCompiler

/-! ## Rows -/

inductive AuthoringStatus
  | draft
  | compiled
  | evaluated
  | approved
  | published
deriving DecidableEq, Repr

/-- The text of a status. -/
def AuthoringStatus.text : AuthoringStatus → String
  | draft => "DRAFT"
  | compiled => "COMPILED"
  | evaluated => "EVALUATED"
  | approved => "APPROVED"
  | published => "PUBLISHED"

/-- A row of `harness_control.authoring_drafts`. -/
structure DraftRow (S : PlanSchema) where
  draftId : String
  tenantId : String
  name : String
  domain : String
  version : String
  status : AuthoringStatus
  revision : ℕ
  sources : Sources
  parsedPackage : Json
  parsedWorkflow : Json
  compiledPlan : Option (Compilation S)
  diagnostics : List AuthoringDiagnostic
  evaluationReport : Option EvaluationReport
  approvedBy : Option String
  publishedBy : Option String
  publishedPlanDigest : Option String
  createdAt : Time
  updatedAt : Time

/-- A row of `harness_control.authoring_events`. -/
structure AuthoringEventRow where
  eventId : String
  draftId : String
  revision : ℕ
  eventType : String
  actor : String
  details : Json
  occurredAt : Time

/-- A row of `harness_control.plans`. -/
structure PlanRow (S : PlanSchema) where
  tenantId : String
  planDigest : String
  plan : S.Plan
  admittedAt : Time

/-- A row of `harness_runtime.run_events`. -/
structure RunEventRow where
  runId : String
  sequence : ℕ
  eventKey : String
  code : String
  nodeId : Option String
  status : String
  values : Json
  occurredAt : Time

inductive NodeAttemptStatus
  | running
  | completed
  | failed
deriving DecidableEq, Repr

/-- A row of `harness_runtime.node_attempts`. -/
structure NodeAttemptRow where
  runId : String
  nodeId : String
  attempt : ℕ
  fencingEpoch : ℕ
  status : NodeAttemptStatus
  inputDigest : String
  outputDigest : Option String
  errorCode : Option String
  startedAt : Time
  completedAt : Option Time

/-- An actor created, updated or compiled a revision of a draft. -/
structure Authorship where
  draftId : String
  revision : ℕ
  actor : String
deriving DecidableEq

/-- The tables. `authors` records who did what, for the sake of statements about it: it has no table. -/
structure Tables (S : PlanSchema) where
  drafts : List (DraftRow S)
  events : List AuthoringEventRow
  plans : List (PlanRow S)
  runs : List RunRow
  runEvents : List RunEventRow
  nodeAttempts : List NodeAttemptRow
  registry : Registry
  clock : Time
  authors : List Authorship

variable {S : PlanSchema}

/-! ## Statements on drafts -/

/-- The input of `createAuthoringDraft`, with the id that it draws. -/
structure CreateDraftInput where
  draftId : String
  sources : Sources
  analysis : Analysis
  actor : String
  tenantId : String

/-- The row of a new draft. -/
def newDraft (now : Time) (input : CreateDraftInput) : DraftRow S where
  draftId := input.draftId
  tenantId := input.tenantId
  name := input.analysis.name
  domain := input.analysis.domain
  version := input.analysis.version
  status := .draft
  revision := 1
  sources := input.sources
  parsedPackage := input.analysis.parsedPackage
  parsedWorkflow := input.analysis.parsedWorkflow
  compiledPlan := none
  diagnostics := input.analysis.diagnostics
  evaluationReport := none
  approvedBy := none
  publishedBy := none
  publishedPlanDigest := none
  createdAt := now
  updatedAt := now

/-- The input of `updateAuthoringSources`. -/
structure UpdateSourcesInput where
  expectedRevision : ℤ
  sources : Sources
  analysis : Analysis
  actor : String

/-- The guard of `updateAuthoringSources`. -/
def UpdateSourcesInput.Selects (draftId : String) (input : UpdateSourcesInput) (d : DraftRow S) : Prop :=
  d.draftId = draftId ∧ (d.revision : ℤ) = input.expectedRevision ∧ d.status ≠ .published

instance (draftId : String) (input : UpdateSourcesInput) :
    DecidablePred (input.Selects draftId : DraftRow S → Prop) :=
  fun d => by unfold UpdateSourcesInput.Selects; infer_instance

/-- The row after `updateAuthoringSources`. -/
def DraftRow.update (now : Time) (input : UpdateSourcesInput) (d : DraftRow S) : DraftRow S :=
  { d with
    name := input.analysis.name
    domain := input.analysis.domain
    version := input.analysis.version
    sources := input.sources
    parsedPackage := input.analysis.parsedPackage
    parsedWorkflow := input.analysis.parsedWorkflow
    diagnostics := input.analysis.diagnostics
    status := .draft
    revision := d.revision + 1
    compiledPlan := none
    evaluationReport := none
    approvedBy := none
    publishedPlanDigest := none
    updatedAt := now }

/-- The input of `setAuthoringLifecycle`. The last two members record what the request had read
before: the draft, and the contributors that it compared the actor with. -/
structure LifecycleInput (S : PlanSchema) where
  expectedStatus : AuthoringStatus
  status : AuthoringStatus
  actor : String
  compiledPlan : Option (Compilation S)
  diagnostics : Option (List AuthoringDiagnostic)
  evaluationReport : Option EvaluationReport
  publishedPlanDigest : Option String
  read : Option (DraftRow S)
  contributors : List String

/-- The guard of `setAuthoringLifecycle`. -/
def LifecycleInput.Selects (draftId : String) (input : LifecycleInput S) (d : DraftRow S) : Prop :=
  d.draftId = draftId ∧ d.status = input.expectedStatus

instance (draftId : String) (input : LifecycleInput S) : DecidablePred (input.Selects draftId) :=
  fun d => by unfold LifecycleInput.Selects; infer_instance

/-- The row after `setAuthoringLifecycle`. -/
def DraftRow.advance (now : Time) (input : LifecycleInput S) (d : DraftRow S) : DraftRow S :=
  { d with
    status := input.status
    compiledPlan := input.compiledPlan.or d.compiledPlan
    diagnostics := input.diagnostics.getD d.diagnostics
    evaluationReport := input.evaluationReport.or d.evaluationReport
    approvedBy := if input.status = .approved then some input.actor else d.approvedBy
    publishedBy := if input.status = .published then some input.actor else d.publishedBy
    publishedPlanDigest := input.publishedPlanDigest.or d.publishedPlanDigest
    updatedAt := now }

/-- The types of the events that make an actor a contributor. -/
def authorshipEvents : List String := ["draft.created", "draft.updated", "draft.compiled"]

/-- `authoringContributors`. -/
def authoringContributors (draftId : String) (events : List AuthoringEventRow) : List String :=
  ((events.filter fun e => e.draftId = draftId ∧ e.eventType ∈ authorshipEvents).map (·.actor)).dedup

/-- Rows, the latest ones first. -/
def latestFirst {ρ : Type} (time : ρ → Time) (rows : List ρ) : List ρ :=
  rows.insertionSort fun a b => time b ≤ time a

/-- Rows under `returning`: the one that was updated. -/
def returning (guard : DraftRow S → Prop) [DecidablePred guard] (set : DraftRow S → DraftRow S)
    (rows : List (DraftRow S)) : Option (DraftRow S) := (rows.find? fun d => guard d).map set

/-- The row that an update returns. -/
theorem returning_eq_some {guard : DraftRow S → Prop} [DecidablePred guard]
    {set : DraftRow S → DraftRow S} {rows : List (DraftRow S)} {row : DraftRow S}
    (h : returning guard set rows = some row) : ∃ d ∈ rows, guard d ∧ row = set d := by
  obtain ⟨d, hfind, rfl⟩ := Option.map_eq_some_iff.mp h
  exact ⟨d, List.mem_of_find?_eq_some hfind, by simpa using List.find?_some hfind, rfl⟩

/-- `returning`, and who is an author of the row. -/
def authorshipOf (guard : DraftRow S → Prop) [DecidablePred guard] (set : DraftRow S → DraftRow S)
    (actor : String) (rows : List (DraftRow S)) : List Authorship :=
  (returning guard set rows).toList.map fun d => ⟨d.draftId, d.revision, actor⟩

theorem mem_authorshipOf {guard : DraftRow S → Prop} [DecidablePred guard] {set : DraftRow S → DraftRow S}
    {actor : String} {rows : List (DraftRow S)} {a : Authorship}
    (h : a ∈ authorshipOf guard set actor rows) :
    ∃ d ∈ rows, guard d ∧ a = ⟨(set d).draftId, (set d).revision, actor⟩ := by
  obtain ⟨row, hrow, rfl⟩ := List.mem_map.mp h
  obtain ⟨d, hd, hg, rfl⟩ := returning_eq_some (Option.mem_toList.mp hrow)
  exact ⟨d, hd, hg, rfl⟩

/-! ## Statements on run events -/

/-- The input of `appendEvent`. -/
structure AppendEventInput where
  runId : String
  eventKey : String
  code : String
  nodeId : Option String
  status : String
  values : Json

/-- The input of `appendEvent` as a row. The counter of a run counts its events. -/
def AppendEventInput.row (now : Time) (input : AppendEventInput) (rows : List RunEventRow) : RunEventRow where
  runId := input.runId
  sequence := (rows.filter fun e => e.runId = input.runId).length + 1
  eventKey := input.eventKey
  code := input.code
  nodeId := input.nodeId
  status := input.status
  values := input.values
  occurredAt := now

/-- A row that was updated at `now`. -/
def touch (now : Time) (r : RunRow) : RunRow := { r with updatedAt := now }

/-- `appendEvent`. -/
def appendEvent (input : AppendEventInput) (t : Tables S) : Except String RunEventRow × Tables S :=
  match t.runEvents.find? fun e => e.runId = input.runId ∧ e.eventKey = input.eventKey with
  | some row => (.ok row, t)
  | none =>
    if ∃ r ∈ t.runs, r.runId = input.runId then
      let row := input.row t.clock t.runEvents
      (.ok row,
        { t with
          runs := updateWhere (fun r => r.runId = input.runId) (touch t.clock) t.runs
          runEvents := t.runEvents ++ [row] })
    else (.error "event.run_missing", t)

/-- An event changes runs and their events only. -/
theorem appendEvent_eq (input : AppendEventInput) (t : Tables S) :
    ∃ runs runEvents, (appendEvent input t).2 = { t with runs, runEvents } := by
  unfold appendEvent
  split
  · exact ⟨t.runs, t.runEvents, rfl⟩
  · split
    · exact ⟨_, _, rfl⟩
    · exact ⟨t.runs, t.runEvents, rfl⟩

/-! ## Statements on node attempts -/

/-- The rows of one node in one attempt of a run. -/
def NodeAttemptRow.Of (runId nodeId : String) (attempt : ℕ) (a : NodeAttemptRow) : Prop :=
  a.runId = runId ∧ a.nodeId = nodeId ∧ a.attempt = attempt

instance (runId nodeId : String) (attempt : ℕ) : DecidablePred (NodeAttemptRow.Of runId nodeId attempt) :=
  fun a => by unfold NodeAttemptRow.Of; infer_instance

/-- What `nodeFinished` records. -/
structure NodeFinished where
  nodeId : String
  status : NodeAttemptStatus
  outputDigest : Option String
  errorCode : Option String

/-- The row after `nodeFinished`. -/
def NodeAttemptRow.finish (now : Time) (input : NodeFinished) (a : NodeAttemptRow) : NodeAttemptRow :=
  { a with
    status := input.status
    outputDigest := input.outputDigest
    errorCode := input.errorCode
    completedAt := some now }

/-- The insert of `nodeStarted`: one row for each node in an attempt, and only for a run that is there. -/
def insertNodeAttempt (row : NodeAttemptRow) (t : Tables S) : Except String Unit × Tables S :=
  if ∃ a ∈ t.nodeAttempts, a.Of row.runId row.nodeId row.attempt then (.ok (), t)
  else if ∃ r ∈ t.runs, r.runId = row.runId then
    (.ok (), { t with nodeAttempts := t.nodeAttempts ++ [{ row with startedAt := t.clock }] })
  else (.error "foreign key", t)

/-- The insert changes node attempts only. -/
theorem insertNodeAttempt_eq (row : NodeAttemptRow) (t : Tables S) :
    ∃ nodeAttempts, (insertNodeAttempt row t).2 = { t with nodeAttempts } := by
  unfold insertNodeAttempt
  split
  · exact ⟨t.nodeAttempts, rfl⟩
  · split
    · exact ⟨_, rfl⟩
    · exact ⟨t.nodeAttempts, rfl⟩

/-! ## Statements -/

/-- A statement, by what it returns. -/
inductive Statement (S : PlanSchema) : Type → Type 1
  /-- The time, and what is registered. -/
  | clock : Statement S Time
  | registry : Statement S Registry
  | listDrafts (tenantId : String) : Statement S (List (DraftRow S))
  /-- `getAuthoringDraft`, as the routes call it. A blank tenant is none. -/
  | getDraft (draftId tenantId : String) : Statement S (Option (DraftRow S))
  | insertDraft (input : CreateDraftInput) : Statement S (Except String (DraftRow S))
  | insertEvent (event : AuthoringEventRow) : Statement S (Except String Unit)
  | updateSources (draftId : String) (input : UpdateSourcesInput) : Statement S (Option (DraftRow S))
  | contributors (draftId : String) : Statement S (List String)
  | setLifecycle (draftId : String) (input : LifecycleInput S) : Statement S (Option (DraftRow S))
  | listEvents (draftId : String) : Statement S (List AuthoringEventRow)
  | listPlans (tenantId : String) : Statement S (List (PlanRow S))
  /-- `getPlan`. A blank tenant is none. -/
  | getPlan (planDigest tenantId : String) : Statement S (Option (PlanRow S))
  | insertPlan (tenantId : String) (plan : S.Plan) : Statement S Bool
  | listRuns (tenantId : String) : Statement S (List RunRow)
  /-- `getRun`. A blank tenant is none. -/
  | getRun (runId tenantId : String) : Statement S (Option RunRow)
  | createRun (uuid : String) (input : CreateRunInput) : Statement S (Except RunFailure (Bool × RunRow))
  | requestRunCancellation (runId tenantId reason : String) :
      Statement S (CancellationOutcome × Option RunRow)
  | listRunEvents (runId tenantId : String) (after : ℕ) : Statement S (List RunEventRow)
  | currentFencingEpoch (runId : String) : Statement S (Option ℕ)
  | updateRunNode (l : Lease) (nodeId checkpointId : Option String) : Statement S (Except RunFailure Unit)
  | appendEvent (input : AppendEventInput) : Statement S (Except String RunEventRow)
  /-- The insert of `nodeStarted`, and the update of `nodeFinished`. -/
  | insertNodeAttempt (row : NodeAttemptRow) : Statement S (Except String Unit)
  | finishNodeAttempt (runId : String) (attempt : ℕ) (input : NodeFinished) : Statement S Unit

/-- A row that a lookup under a tenant finds. A blank tenant is none. -/
def InScope (tenantId rowTenantId : String) : Prop := tenantId = "" ∨ rowTenantId = tenantId

instance (tenantId rowTenantId : String) : Decidable (InScope tenantId rowTenantId) := by
  unfold InScope; infer_instance

variable (sha256 : List Char → String)

/-- What a statement returns, and the tables after it. -/
def Statement.exec {β : Type} (statement : Statement S β) (t : Tables S) : β × Tables S :=
  match statement with
  | .clock => (t.clock, t)
  | .registry => (t.registry, t)
  | .listDrafts tenantId =>
    ((latestFirst (·.updatedAt) (t.drafts.filter fun d => d.tenantId = tenantId)).take 100, t)
  | .getDraft draftId tenantId =>
    (t.drafts.find? fun d => d.draftId = draftId ∧ InScope tenantId d.tenantId, t)
  | .insertDraft input =>
    if ∃ d ∈ t.drafts, d.draftId = input.draftId then (.error "duplicate key", t)
    else
      let row := newDraft t.clock input
      (.ok row,
        { t with
          drafts := t.drafts ++ [row]
          authors := t.authors ++ [⟨row.draftId, row.revision, input.actor⟩] })
  | .insertEvent event =>
    if ∃ e ∈ t.events, e.eventId = event.eventId then (.error "duplicate key", t)
    else (.ok (), { t with events := t.events ++ [{ event with occurredAt := t.clock }] })
  | .updateSources draftId input =>
    let guard := input.Selects draftId
    let set := DraftRow.update t.clock input
    (returning guard set t.drafts,
      { t with
        drafts := updateWhere guard set t.drafts
        authors := t.authors ++ authorshipOf guard set input.actor t.drafts })
  | .contributors draftId => (authoringContributors draftId t.events, t)
  | .setLifecycle draftId input =>
    let guard := input.Selects draftId
    let set := DraftRow.advance t.clock input
    let authors := if input.status = .compiled then authorshipOf guard set input.actor t.drafts else []
    (returning guard set t.drafts,
      { t with drafts := updateWhere guard set t.drafts, authors := t.authors ++ authors })
  | .listEvents draftId =>
    (latestFirst (·.occurredAt) (t.events.filter fun e => e.draftId = draftId), t)
  | .listPlans tenantId =>
    ((latestFirst (·.admittedAt) (t.plans.filter fun p => p.tenantId = tenantId)).take 100, t)
  | .getPlan planDigest tenantId =>
    (t.plans.find? fun p => p.planDigest = planDigest ∧ InScope tenantId p.tenantId, t)
  | .insertPlan tenantId plan =>
    if ∃ p ∈ t.plans, p.tenantId = tenantId ∧ p.planDigest = plan.planDigest then (false, t)
    else (true, { t with plans := t.plans ++ [⟨tenantId, plan.planDigest, plan, t.clock⟩] })
  | .listRuns tenantId =>
    ((latestFirst (·.updatedAt) (t.runs.filter fun r => r.tenantId = tenantId)).take 100, t)
  | .getRun runId tenantId =>
    (t.runs.find? fun r => r.runId = runId ∧ InScope tenantId r.tenantId, t)
  | .createRun uuid input =>
    let (result, runs) := Persistence.createRun sha256 t.clock uuid input t.runs
    (result, { t with runs })
  | .requestRunCancellation runId tenantId reason =>
    let (result, runs) := Persistence.requestRunCancellation t.clock runId tenantId reason t.runs
    (result, { t with runs })
  | .listRunEvents runId tenantId after =>
    ((t.runEvents.filter fun e => e.runId = runId ∧ after < e.sequence ∧
      ∃ r ∈ t.runs, r.runId = runId ∧ r.tenantId = tenantId).take 1000, t)
  | .currentFencingEpoch runId => (Persistence.currentFencingEpoch runId t.runs, t)
  | .updateRunNode l nodeId checkpointId =>
    let (result, runs) := Persistence.updateRunNode t.clock l nodeId checkpointId t.runs
    (result, { t with runs })
  | .appendEvent input => ControlApi.appendEvent input t
  | .insertNodeAttempt row => ControlApi.insertNodeAttempt row t
  | .finishNodeAttempt runId attempt input =>
    ((), { t with
      nodeAttempts := updateWhere (NodeAttemptRow.Of runId input.nodeId attempt)
        (NodeAttemptRow.finish t.clock input) t.nodeAttempts })

/-- Tables without drafts, plans and runs. -/
def Tables.start (registry : Registry) (clock : Time) : Tables S :=
  ⟨[], [], [], [], [], [], registry, clock, []⟩

/-! ## What stays -/

/-- Ids are unique. -/
structure Tables.Ids (t : Tables S) : Prop where
  drafts : (t.drafts.map (·.draftId)).Nodup
  runs : (t.runs.map (·.runId)).Nodup

/-- The draft is there, and belongs to the tenant. -/
def Tables.HasDraft (draftId tenantId : String) (t : Tables S) : Prop :=
  ∃ d ∈ t.drafts, d.draftId = draftId ∧ d.tenantId = tenantId

/-- The run is there, and belongs to the tenant. -/
def Tables.HasRun (runId tenantId : String) (t : Tables S) : Prop :=
  ∃ r ∈ t.runs, r.runId = runId ∧ r.tenantId = tenantId

/-- What stays, whatever happens. -/
structure Tables.Grows (t t' : Tables S) : Prop where
  drafts : ∀ draftId tenantId, t.HasDraft draftId tenantId → t'.HasDraft draftId tenantId
  events : ∀ e ∈ t.events, e ∈ t'.events
  plans : ∀ p ∈ t.plans, p ∈ t'.plans
  runs : ∀ runId tenantId, t.HasRun runId tenantId → t'.HasRun runId tenantId

theorem Tables.Grows.refl (t : Tables S) : t.Grows t :=
  ⟨fun _ _ h => h, fun _ h => h, fun _ h => h, fun _ _ h => h⟩

theorem Tables.Grows.trans {t t' t'' : Tables S} (h : t.Grows t') (h' : t'.Grows t'') : t.Grows t'' where
  drafts draftId tenantId hd := h'.drafts draftId tenantId (h.drafts draftId tenantId hd)
  events e he := h'.events e (h.events e he)
  plans p hp := h'.plans p (h.plans p hp)
  runs runId tenantId hr := h'.runs runId tenantId (h.runs runId tenantId hr)

theorem Tables.ids_start {registry : Registry} {clock : Time} : (Tables.start (S := S) registry clock).Ids :=
  ⟨List.nodup_nil, List.nodup_nil⟩

section

variable {sha256 : List Char → String} {t t' : Tables S}

/-- Two rows of one draft are one row. -/
theorem Tables.Ids.draft_eq (h : t.Ids) {d d' : DraftRow S} (hd : d ∈ t.drafts) (hd' : d' ∈ t.drafts)
    (hid : d.draftId = d'.draftId) : d = d' := List.inj_on_of_nodup_map h.drafts hd hd' hid

/-- Two rows of one draft belong to one tenant. -/
theorem Tables.Ids.tenant_eq (h : t.Ids) {draftId tenantId : String} (hhas : t.HasDraft draftId tenantId)
    {d : DraftRow S} (hd : d ∈ t.drafts) (hid : d.draftId = draftId) : d.tenantId = tenantId := by
  obtain ⟨d', hd', hid', rfl⟩ := hhas
  rw [h.draft_eq hd hd' (hid.trans hid'.symm)]

theorem Tables.Ids.runTenant_eq (h : t.Ids) {runId tenantId : String} (hhas : t.HasRun runId tenantId)
    {r : RunRow} (hr : r ∈ t.runs) (hid : r.runId = runId) : r.tenantId = tenantId := by
  obtain ⟨r', hr', hid', rfl⟩ := hhas
  obtain rfl := List.inj_on_of_nodup_map h.runs hr hr' (hid.trans hid'.symm)
  rfl

/-- An update of drafts that keeps their ids and tenants. -/
theorem Tables.hasDraft_updateWhere {guard : DraftRow S → Prop} [DecidablePred guard]
    {set : DraftRow S → DraftRow S} (hset : ∀ d, (set d).draftId = d.draftId ∧ (set d).tenantId = d.tenantId)
    {draftId tenantId : String} (h : t.HasDraft draftId tenantId) :
    ∃ d ∈ updateWhere guard set t.drafts, d.draftId = draftId ∧ d.tenantId = tenantId := by
  obtain ⟨d, hd, rfl, rfl⟩ := h
  by_cases hg : guard d
  · exact ⟨set d, mem_updateWhere.mpr ⟨d, hd, .inl ⟨hg, rfl⟩⟩, hset d⟩
  · exact ⟨d, mem_updateWhere.mpr ⟨d, hd, .inr ⟨hg, rfl⟩⟩, rfl, rfl⟩

/-- A statement on runs keeps them under their tenants. -/
theorem Tables.hasRun_exec (h : t.Ids) (op : RunOp) {now : Time} {runId tenantId : String}
    (hrun : t.HasRun runId tenantId) :
    ∃ r ∈ op.exec sha256 now t.runs, r.runId = runId ∧ r.tenantId = tenantId := by
  obtain ⟨r, hr, rfl, rfl⟩ := hrun
  have hevolves := @RunOp.exec_evolves sha256 now t.runs op.lease?.toList h.runs op
    fun l hl => Option.mem_toList.mpr hl
  obtain ⟨r', hr', hchange⟩ := hevolves.forward r hr
  exact ⟨r', hr', hchange.onwards.runId, by cases hchange <;> rfl⟩

/-- **The tables grow.** -/
theorem Statement.exec_grows (h : t.Ids) {β : Type} (statement : Statement S β) :
    t.Grows (statement.exec sha256 t).2 := by
  have hrefl := Tables.Grows.refl t
  have hruns (op : RunOp) : t.Grows { t with runs := op.exec sha256 t.clock t.runs } :=
    { hrefl with runs := fun runId tenantId hrun => Tables.hasRun_exec h op hrun }
  cases statement with
  | insertDraft input =>
    simp only [exec]
    split
    · exact hrefl
    · refine { hrefl with drafts := fun draftId tenantId hd => ?_ }
      obtain ⟨d, hd, hsame⟩ := hd
      exact ⟨d, List.mem_append_left _ hd, hsame⟩
  | insertEvent event =>
    simp only [exec]
    split
    · exact hrefl
    · exact { hrefl with events := fun e he => List.mem_append_left _ he }
  | updateSources draftId input =>
    exact { hrefl with
      drafts := fun _ _ hd => Tables.hasDraft_updateWhere (by exact fun _ => ⟨rfl, rfl⟩) hd }
  | setLifecycle draftId input =>
    exact { hrefl with
      drafts := fun _ _ hd => Tables.hasDraft_updateWhere (by exact fun _ => ⟨rfl, rfl⟩) hd }
  | insertPlan tenantId plan =>
    simp only [exec]
    split
    · exact hrefl
    · exact { hrefl with plans := fun p hp => List.mem_append_left _ hp }
  | createRun uuid input => exact hruns (.createRun uuid input)
  | requestRunCancellation runId tenantId reason =>
    exact hruns (.requestRunCancellation runId tenantId reason)
  | updateRunNode l nodeId checkpointId => exact hruns (.updateRunNode l nodeId checkpointId)
  | appendEvent input =>
    simp only [exec, ControlApi.appendEvent]
    split
    · exact hrefl
    · split
      · refine { hrefl with runs := fun runId tenantId hrun => ?_ }
        obtain ⟨r, hr, rfl, rfl⟩ := hrun
        by_cases hg : r.runId = input.runId
        · exact ⟨touch t.clock r, mem_updateWhere.mpr ⟨r, hr, .inl ⟨hg, rfl⟩⟩, rfl, rfl⟩
        · exact ⟨r, mem_updateWhere.mpr ⟨r, hr, .inr ⟨hg, rfl⟩⟩, rfl, rfl⟩
      · exact hrefl
  | insertNodeAttempt row =>
    obtain ⟨nodeAttempts, heq⟩ := insertNodeAttempt_eq row t
    rw [exec, heq]
    exact { hrefl with }
  | finishNodeAttempt runId attempt input => exact { hrefl with }
  | _ => exact hrefl

/-- **Ids stay unique.** -/
theorem Statement.exec_ids (h : t.Ids) {β : Type} (statement : Statement S β) :
    (statement.exec sha256 t).2.Ids := by
  have hruns (op : RunOp) : Tables.Ids { t with runs := op.exec sha256 t.clock t.runs } :=
    { h with runs := op.nodup_exec h.runs }
  cases statement with
  | insertDraft input =>
    simp only [exec]
    split
    · exact h
    · next hfresh =>
      refine { h with drafts := ?_ }
      rw [List.map_append, List.nodup_append]
      refine ⟨h.drafts, List.nodup_singleton _, ?_⟩
      rintro _ hd _ hnew rfl
      obtain ⟨d, hd, hid⟩ := List.mem_map.mp hd
      rw [List.map_singleton, List.mem_singleton] at hnew
      exact hfresh ⟨d, hd, hid.trans hnew⟩
  | insertEvent event =>
    simp only [exec]
    split
    · exact h
    · exact { h with }
  | updateSources draftId input =>
    refine { h with drafts := ?_ }
    dsimp only [exec]
    rw [map_updateWhere fun _ _ => by rfl]
    exact h.drafts
  | setLifecycle draftId input =>
    refine { h with drafts := ?_ }
    dsimp only [exec]
    rw [map_updateWhere fun _ _ => by rfl]
    exact h.drafts
  | insertPlan tenantId plan =>
    simp only [exec]
    split
    · exact h
    · exact { h with }
  | createRun uuid input => exact hruns (.createRun uuid input)
  | requestRunCancellation runId tenantId reason =>
    exact hruns (.requestRunCancellation runId tenantId reason)
  | updateRunNode l nodeId checkpointId => exact hruns (.updateRunNode l nodeId checkpointId)
  | appendEvent input =>
    simp only [exec, ControlApi.appendEvent]
    split
    · exact h
    · split
      · refine { h with runs := ?_ }
        dsimp only
        rw [map_updateWhere fun _ _ => by rfl]
        exact h.runs
      · exact h
  | insertNodeAttempt row =>
    obtain ⟨nodeAttempts, heq⟩ := insertNodeAttempt_eq row t
    rw [exec, heq]
    exact { h with }
  | finishNodeAttempt runId attempt input => exact { h with }
  | _ => exact h

end

end ControlApi

end HarnessFramework
