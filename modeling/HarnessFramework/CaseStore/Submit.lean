import HarnessFramework.CaseStore.MutationSpec

/-!
# Creating a case and submitting commands

`createKycCase` and `submitBusinessCommand` of `packages/case-store/src/index.ts`, with
`appendCaseEvent` and `writeReceipt` under them, as transactions on the rows of one case. Evidence
registration is here as far as it reaches these rows.

Two unique constraints span cases (`external_ref` within a tenant, `event_id` everywhere). A call
that runs into one of them throws, as any call may at any statement.

## Main definitions

* `EventEnvelope` — what an event's digest covers
* `appendCaseEvent`, `writeReceipt`, `createKycCase`, `submitBusinessCommand`
* `Call`, `caseService` — the calls of the case store, as a service keyed by tenant and case
* `OutboxRelay` — what relays and purges may do to the outbox
-/

namespace HarnessFramework

namespace CaseStore

/-! ## Events -/

/-- What an event's digest covers. -/
structure EventEnvelope where
  eventId : String
  tenantId : String
  caseId : String
  caseSequence : ℕ
  eventType : String
  eventSchema : String
  occurredAt : String
  recordedAt : String
  actor : Json
  commandRef : String
  authority : Json
  payload : Json
  evidenceRefs : Json
  previousEventDigest : Option String

/-- The envelope as JSON. -/
def EventEnvelope.toJson (e : EventEnvelope) : Json := .obj
  [("eventId", .str e.eventId), ("tenantId", .str e.tenantId), ("caseId", .str e.caseId),
    ("caseSequence", .nat e.caseSequence), ("eventType", .str e.eventType),
    ("eventSchema", .str e.eventSchema), ("occurredAt", .str e.occurredAt),
    ("recordedAt", .str e.recordedAt), ("actor", e.actor), ("commandRef", .str e.commandRef),
    ("authority", e.authority), ("payload", e.payload), ("evidenceRefs", e.evidenceRefs),
    ("previousEventDigest", nullable e.previousEventDigest)]

/-- The input of `appendCaseEvent`. -/
structure EventInput where
  sequence : ℕ
  eventType : String
  eventSchema : String
  occurredAt : String
  recordedAt : String
  actor : CaseActor
  commandId : String
  authority : Json
  payload : List (String × Json)
  evidenceRefs : List String
  previousEventDigest : Option String
  classification : String

/-- Store a text in a `timestamptz` column. -/
def column {σ : Type} (text : String) : Query σ Timestamptz :=
  Txn.getOrThrow .database (timestamptz text)

section

variable (sha256 : List Char → String) (key : CaseKey) (env : Env)

/-- The envelope of an event to append. -/
def EventInput.envelope (input : EventInput) : EventEnvelope where
  eventId := env.opaqueId "evt" 0
  tenantId := key.tenantId
  caseId := key.caseId
  caseSequence := input.sequence
  eventType := input.eventType
  eventSchema := input.eventSchema
  occurredAt := input.occurredAt
  recordedAt := input.recordedAt
  actor := input.actor.toJson
  commandRef := input.commandId
  authority := input.authority
  payload := .obj input.payload
  evidenceRefs := stringsJson input.evidenceRefs
  previousEventDigest := input.previousEventDigest

/-- The outbox row of an event. -/
def EventInput.outboxRow (input : EventInput) (eventDigest : String) : OutboxRow where
  outboxId := env.opaqueId "outbox" 0
  case := key
  caseSequence := input.sequence
  eventId := env.opaqueId "evt" 0
  eventType := input.eventType
  classification := input.classification
  payload := .ofJson <| .obj
    [("eventId", .str (env.opaqueId "evt" 0)), ("tenantId", .str key.tenantId),
      ("caseId", .str key.caseId), ("caseSequence", .nat input.sequence),
      ("eventType", .str input.eventType), ("recordedAt", .str input.recordedAt),
      ("evidenceRefs", stringsJson input.evidenceRefs)]
  sourceEventDigest := eventDigest
  publishedAt := none
  purged := false

/-- What `appendCaseEvent` returns. -/
structure EventRef where
  eventId : String
  eventDigest : String

/-- `appendCaseEvent`: the event row, the chain head and the outbox row. -/
def appendCaseEvent (input : EventInput) : Query CaseTables EventRef := do
  let eventId := env.opaqueId "evt" 0
  let envelope := input.envelope key env
  let eventDigest := stableDigest sha256 envelope.toJson
  let occurredAt ← column input.occurredAt
  let recordedAt ← column input.recordedAt
  insertInto "case_events_pkey"
    (fun t : CaseTables => ∃ r ∈ t.events, r.caseSequence = input.sequence) id
  insertInto "case_events_tenant_id_case_id_event_digest_key"
    (fun t : CaseTables => ∃ r ∈ t.events, r.eventDigest = eventDigest)
    (fun t => { t with events := t.events ++ [{
      caseSequence := input.sequence
      eventId
      eventType := input.eventType
      eventSchema := input.eventSchema
      occurredAt
      recordedAt
      actor := .ofJson envelope.actor
      commandId := input.commandId
      authority := .ofJson envelope.authority
      payload := .ofJson envelope.payload
      evidenceRefs := .ofJson envelope.evidenceRefs
      previousEventDigest := input.previousEventDigest
      eventDigest }] })
  Txn.modify fun t : CaseTables => { t with head := some ⟨input.sequence, eventDigest⟩ }
  Txn.send (input.outboxRow key env eventDigest)
  return ⟨eventId, eventDigest⟩

/-- `writeReceipt`. -/
def writeReceipt (commandId commandType idempotencyKey requestDigest : String) (sequence : ℕ)
    (identifiers : List (String × String)) (response : Json) : Query CaseTables Unit := do
  insertInto "command_receipts_pkey"
    (fun t : CaseTables => ∃ r ∈ t.receipts, r.commandId = commandId) id
  insertInto "command_receipts_tenant_id_case_id_idempotency_key_key"
    (fun t : CaseTables => ∃ r ∈ t.receipts, r.idempotencyKey = idempotencyKey)
    (fun t => { t with receipts := t.receipts ++ [{
      commandId
      commandType
      idempotencyKey
      requestDigest
      acceptedSequenceFrom := sequence
      acceptedSequenceTo := sequence
      createdIdentifiers := .ofJson (.obj (identifiers.map fun m => (m.1, .str m.2)))
      response := .ofJson response
      responseDigest := stableDigest sha256 response }] })

/-- The receipt under an idempotency key. -/
def CaseTables.receipt? (t : CaseTables) (idempotencyKey : String) : Option CommandReceiptRow :=
  t.receipts.find? fun r => r.idempotencyKey = idempotencyKey

/-- What a call returns. -/
inductive Answer
  | created (created : Bool) (case : CaseRow) (eventId : Option Json)
  | response (response : Json) (replayed : Bool)
  | registered (evidenceId : String)

/-- What `catch` does to an error: a unique violation is a conflict. -/
def asConflict (code : String) : Failure → Failure
  | .unique name => .store code 409 (.constraint name)
  | e => e

/-- What the inner `catch` of `submitBusinessCommand` does to an error. -/
def asPayloadInvalid : Failure → Failure
  | .zod message => .store "command.payload_invalid" 400 (.issues message)
  | e => e

/-- The first 32 characters of a digest. -/
def shortDigest (digest : String) : String := String.ofList (digest.toList.take 32)

/-! ## Creating a case -/

/-- The id of the case that a request creates. -/
def newCaseId (request : CreateKycCaseRequest) (idempotencyKey : String) :
    String :=
  "case_" ++ shortDigest (stableDigest sha256 (.obj
    [("tenantId", .str request.tenantId), ("idempotencyKey", .str idempotencyKey)]))

/-- The key of the case that a request creates. -/
def createKey (request : CreateKycCaseRequest) (idempotencyKey : String) : CaseKey :=
  ⟨request.tenantId, newCaseId sha256 request idempotencyKey⟩

/-- The row of a new case. -/
def newCaseRow (request : CreateKycCaseRequest) (createdAt : Timestamptz) :
    CaseRow where
  caseType := CreateKycCaseRequest.caseType
  schemaVersion := CreateKycCaseRequest.schemaVersion
  jurisdiction := CreateKycCaseRequest.jurisdiction
  status := .intake
  caseSequence := 1
  externalRef := request.externalRef.map (·.val)
  policySnapshotDigest := normalizeDigest request.policySnapshotDigest
  harnessPlanDigest := normalizeDigest request.harnessPlanDigest
  classification := request.classification
  createdBy := request.actor
  createdAt
  updatedAt := createdAt

/-- The event of a new case. -/
def createdEvent (request : CreateKycCaseRequest) (commandId timestamp : String) : EventInput where
  sequence := 1
  eventType := "case.created"
  eventSchema := "kyc.case.created.v1"
  occurredAt := timestamp
  recordedAt := timestamp
  actor := request.actor
  commandId
  authority := .obj [("planDigest", .str (normalizeDigest request.harnessPlanDigest)),
    ("policySnapshotDigest", .str (normalizeDigest request.policySnapshotDigest)),
    ("permissionEnvelopeDigest", .str (stableDigest sha256 (.obj
      [("action", .str "CreateCase"), ("actor", request.actor.toJson)])))]
  payload := [("caseType", .str CreateKycCaseRequest.caseType),
    ("jurisdiction", .str CreateKycCaseRequest.jurisdiction), ("status", .str "INTAKE")]
  evidenceRefs := []
  previousEventDigest := none
  classification := request.classification

/-- The part of `createKycCase` from the insert into `cases` on. -/
def insertCase (request : CreateKycCaseRequest) (idempotencyKey commandId requestDigest : String) :
    Query CaseTables Answer := do
  let key := createKey sha256 request idempotencyKey
  let timestamp := nowIso env.timestamp
  let createdAt ← column timestamp
  let row := newCaseRow request createdAt
  insertInto "cases_pkey" (fun t : CaseTables => t.cases.isSome)
    (fun t => { t with cases := some row })
  let event ← appendCaseEvent sha256 key env (createdEvent sha256 request commandId timestamp)
  let response : Json := .obj [("outcome", .str "ACCEPTED"), ("caseId", .str key.caseId),
    ("caseSequence", .nat 1), ("eventId", .str event.eventId)]
  writeReceipt sha256 commandId "CreateCase" idempotencyKey requestDigest 1
    [("caseId", key.caseId), ("eventId", event.eventId)] response
  return .created true row (some (.str event.eventId))

/-- `createKycCase`. -/
def createKycCase (request : CreateKycCaseRequest) (idempotencyKey : String) :
    Query CaseTables Answer := do
  Txn.require (idempotencyKey ≠ "") (.code "case.idempotency_key_required" 400)
  let key := createKey sha256 request idempotencyKey
  let commandId := "cmd_" ++ shortDigest (stableDigest sha256 (.obj
    [("caseId", .str key.caseId), ("idempotencyKey", .str idempotencyKey)]))
  let requestDigest := stableDigest sha256 request.toJson
  Txn.mapThrow (asConflict "case.conflict") do
    Txn.advisoryLock (key.tenantId ++ ":" ++ idempotencyKey)
    let t ← Txn.get
    match t.receipt? idempotencyKey with
    | some receipt =>
      Txn.require (receipt.requestDigest = requestDigest) (.code "case.idempotency_conflict" 409)
      let t ← Txn.get
      let row ← Txn.getOrThrow .database t.cases
      return .created false row (receipt.response.val.get? "eventId")
    | none =>
      -- The insert waits for a concurrent insert under the same key.
      Txn.lockKey
      insertCase sha256 env request idempotencyKey commandId requestDigest

/-! ## Submitting a command -/

/-- The key of the case that a command is about. -/
def commandKey (command : BusinessCommand) : CaseKey := ⟨command.tenantId, command.caseId⟩

/-- The event of a command. -/
def commandEvent (command : BusinessCommand) (current : CaseRow) (head : Option ChainHeadRow)
    (mutation : MutationResult) : EventInput where
  sequence := current.caseSequence + 1
  eventType := mutation.eventType
  eventSchema := mutation.eventSchema
  occurredAt := (command.occurredAt.map (·.val)).getD (nowIso env.recordedAt)
  recordedAt := nowIso env.recordedAt
  actor := command.actor
  commandId := command.commandId
  authority := command.authority.toJson
  payload := mutation.payload
  evidenceRefs := mutation.evidenceRefs
  previousEventDigest := head.map (·.eventDigest)
  classification := current.classification

/-- The lineage edges of an event. -/
def insertLineage (eventId : String) : List LineageEdge → ℕ → Query ObjectTables Unit
  | [], _ => Txn.ret ()
  | edge :: edges, i => do
    insertInto "lineage_edges_pkey"
      (fun s : ObjectTables => ∃ r ∈ s.lineageEdges, r.edgeId = env.opaqueId "edge" i)
      (fun s => { s with lineageEdges := s.lineageEdges ++ [⟨env.opaqueId "edge" i, edge.sourceType,
        edge.sourceId, edge.predicate, edge.targetType, edge.targetId, eventId⟩] })
    insertLineage eventId edges (i + 1)

/-- The part of `submitBusinessCommand` from the checks on the case on. -/
def acceptCommand (evidenceRequireScan : Bool) (command : BusinessCommand) (requestDigest : String)
    (current : CaseRow) : Query CaseTables Answer := do
  Txn.require (command.preconditions.caseSequence = current.caseSequence)
    (.store "command.case_sequence_conflict" 409
      (.sequence command.preconditions.caseSequence current.caseSequence))
  Txn.require (normalizeDigest command.authority.planDigest = normalizeDigest current.harnessPlanDigest)
    (.code "command.plan_authority_mismatch" 403)
  Txn.require (normalizeDigest command.authority.policySnapshotDigest
      = normalizeDigest current.policySnapshotDigest)
    (.code "command.policy_authority_mismatch" 403)
  let mutation ← Txn.mapThrow asPayloadInvalid <|
    onObjects (applyMutation sha256 evidenceRequireScan command current env)
  let sequence := current.caseSequence + 1
  let t ← Txn.get
  let event ← appendCaseEvent sha256 (commandKey command) env
    (commandEvent env command current t.head mutation)
  onObjects (insertLineage env event.eventId mutation.lineage 0)
  let updatedAt ← column (nowIso env.recordedAt)
  Txn.modify fun t : CaseTables => { t with cases := t.cases.map fun row => { row with
    caseSequence := sequence, status := mutation.nextStatus.getD row.status, updatedAt } }
  let response : Json := .obj [("outcome", .str "ACCEPTED"), ("caseId", .str command.caseId),
    ("caseSequence", .nat sequence), ("eventId", .str event.eventId),
    ("eventDigest", .str event.eventDigest),
    ("createdIdentifiers", .obj (mutation.identifiers.map fun m => (m.1, .str m.2)))]
  writeReceipt sha256 command.commandId command.commandType.text command.idempotencyKey.val
    requestDigest sequence mutation.identifiers response
  return .response response false

/-- `submitBusinessCommand`. -/
def submitBusinessCommand (evidenceRequireScan : Bool) (command : BusinessCommand) :
    Query CaseTables Answer := do
  let requestDigest := stableDigest sha256 command.toJson
  Txn.mapThrow (asConflict "command.conflict") do
    -- `select … for update` locks the row it finds, and reads it again under the lock.
    let t ← Txn.get
    Txn.require t.cases.isSome (.code "case.not_found" 404)
    Txn.lockKey
    let t ← Txn.get
    let current ← Txn.getOrThrow (.code "case.not_found" 404) t.cases
    match t.receipt? command.idempotencyKey.val with
    | some receipt =>
      Txn.require (receipt.requestDigest = requestDigest) (.code "command.idempotency_conflict" 409)
      return .response receipt.response.val true
    | none => acceptCommand sha256 env evidenceRequireScan command requestDigest current

/-! ## Registering evidence -/

/-- `registerEvidence`, as far as it reaches the rows of the case. -/
def registerEvidence (evidenceId : String) : Query CaseTables Answer := do
  let t ← Txn.get
  Txn.require t.cases.isSome (.code "case.not_found" 404)
  Txn.lockKey
  onObjects <| insertInto "evidence_objects_pkey"
    (fun s : ObjectTables => ∃ r ∈ s.evidenceObjects, r.evidenceId = evidenceId)
    (fun s => { s with evidenceObjects := s.evidenceObjects ++
      [⟨evidenceId, .digestVerified, .pocNotScanned⟩] })
  return .registered evidenceId

end

/-! ## The service -/

/-- The calls of the case store. -/
inductive Call
  | createKycCase (env : Env) (request : CreateKycCaseRequest) (idempotencyKey : String)
  | submitBusinessCommand (env : Env) (command : BusinessCommand)
  | registerEvidence (key : CaseKey) (evidenceId : String)

section

variable (sha256 : List Char → String) (evidenceRequireScan : Bool)

/-- The case that a call is about. -/
def Call.key : Call → CaseKey
  | createKycCase _ request idempotencyKey => createKey sha256 request idempotencyKey
  | submitBusinessCommand _ command => commandKey command
  | registerEvidence key _ => key

/-- The transaction of a call. -/
def Call.txn : Call → Query CaseTables Answer
  | createKycCase env request idempotencyKey =>
    CaseStore.createKycCase sha256 env request idempotencyKey
  | submitBusinessCommand env command =>
    CaseStore.submitBusinessCommand sha256 env evidenceRequireScan command
  | registerEvidence _ evidenceId => CaseStore.registerEvidence evidenceId

/-- The case store. -/
def caseService : Service CaseKey Call CaseTables OutboxRow Failure Answer where
  key := Call.key sha256
  txn := Call.txn sha256 evidenceRequireScan

end

/-- What a relay or a purge does to an outbox row: it marks a row as published, or purges one that
is. -/
inductive RelayedRow : OutboxRow → OutboxRow → Prop
  | same (r) : RelayedRow r r
  | publish (r) (time : Timestamptz) : r.purged = false →
      RelayedRow r { r with publishedAt := some time }
  | purge (r) : r.publishedAt.isSome → RelayedRow r { r with purged := true }

/-- What relays and purges may do to the outbox. -/
def OutboxRelay : List OutboxRow → List OutboxRow → Prop := List.Forall₂ RelayedRow

/-- A store without cases. -/
def noCases : CaseKey → CaseTables := fun _ => .empty

end CaseStore

end HarnessFramework
