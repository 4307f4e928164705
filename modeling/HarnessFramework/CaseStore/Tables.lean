import HarnessFramework.Contracts.Case
import HarnessFramework.Library.Interleaving

/-!
# The tables of the case store

The rows of `packages/case-store/migrations/001_case_store.sql` that belong to one case. Columns
that no statement reads back (creation times, schema versions and the like) are left out.

`ObjectTables` are the tables that the command handlers work on; `CaseTables` adds the `cases` row
and the ledger. Outbox rows leave with the commit and are then in the hands of the relay, so they
are the messages of the case store's transactions.

## Main definitions

* `CaseRow`, `CaseEventRow`, `ChainHeadRow`, `CommandReceiptRow`, `OutboxRow` — the ledger's rows
* `ObjectTables`, `CaseTables`
* `Failure` — what a call throws
* `Env` — the clock readings and random ids of a call
* `insertInto` — an `insert` under a primary key or unique constraint
-/

namespace HarnessFramework

namespace CaseStore

/-! ## Errors -/

/-- The `details` of a `CaseStoreError`. -/
inductive ErrorDetails
  | none
  | sequence (expected current : ℕ)
  | transition (source target : KycCaseStatus)
  | issues (message : Option String)
  | constraint (name : String)
deriving DecidableEq, Repr

/-- What a call throws. -/
inductive Failure
  /-- A `CaseStoreError`. -/
  | store (code : String) (httpStatus : ℕ) (details : ErrorDetails)
  /-- A `ZodError`, with its message where the code gives one. -/
  | zod (message : Option String)
  /-- The database error 23505. -/
  | unique (constraint : String)
  /-- Any other error of the database or the process. -/
  | database
deriving DecidableEq, Repr

/-- A `CaseStoreError` without details. -/
def Failure.code (code : String) (httpStatus : ℕ) : Failure := .store code httpStatus .none

/-! ## What a call draws from outside -/

/-- A clock reading. -/
abbrev Clock : Type := { date : JsDate // date.date.year ≤ 9999 }

theorem Sample.january : 1 ≤ 1 ∧ 1 ≤ 12 := by decide

/-- 2026-01-01T00:00:00.000Z. -/
def Sample.now : Clock :=
  ⟨⟨⟨2026, 1, 1, by decide, Sample.january, by decide⟩, 0, by decide⟩, by decide⟩

/-- `nowIso`, at a clock reading. -/
def nowIso (now : Clock) : String := now.val.toISOString

/-- The clock readings of a call, the random ids it draws and the order in which the database lists
rows that no `order by` orders. -/
structure Env where
  /-- The reading of `createKycCase`, and the first one of `submitBusinessCommand`. -/
  timestamp : Clock
  /-- The second reading of `submitBusinessCommand`. -/
  recordedAt : Clock
  uuid : String → ℕ → String
  rowOrder : ℕ

/-- `opaqueId`, for the `i`-th id of a kind that the call draws. -/
def Env.opaqueId (env : Env) (kind : String) (i : ℕ) : String := kind ++ "_" ++ env.uuid kind i

/-- `normalizeDigest`. -/
def normalizeDigest (value : String) : String :=
  if value.toList.take 7 = "sha256:".toList then String.ofList (value.toList.drop 7) else value

/-! ## Object tables -/

inductive SubjectType
  | individual
  | legalEntity
deriving DecidableEq, Repr

/-- The text of a subject type. -/
def SubjectType.text : SubjectType → String
  | individual => "individual"
  | legalEntity => "legal_entity"

structure SubjectRow where
  subjectId : String
  subjectType : SubjectType
deriving DecidableEq

structure SubjectIdentifierRow where
  subjectId : String
  identifierId : String
  identifierType : String
  valueDigest : String
deriving DecidableEq

inductive EvidenceVerification
  | digestVerified
deriving DecidableEq, Repr

inductive EvidenceScan
  | pocNotScanned
  | verifiedClean
deriving DecidableEq, Repr

structure EvidenceObjectRow where
  evidenceId : String
  verificationStatus : EvidenceVerification
  scanStatus : EvidenceScan
deriving DecidableEq

inductive EvidenceRefStatus
  | accepted
deriving DecidableEq, Repr

structure EvidenceRefRow where
  evidenceId : String
  purpose : String
  status : EvidenceRefStatus
deriving DecidableEq

inductive ClaimStatus
  | proposed
  | accepted
deriving DecidableEq, Repr

structure ClaimRow where
  claimId : String
  subjectRef : Option String
  predicate : String
  value : Jsonb
  evidenceRefs : List String
  status : ClaimStatus
deriving DecidableEq

structure FactRow where
  factId : String
  subjectRef : Option String
  predicate : String
  value : Jsonb
  basisClaimRefs : List String
deriving DecidableEq

structure FindingRow where
  findingId : String
  findingType : String
  subjectRef : Option String
  evidenceRefs : List String
  factRefs : List String
deriving DecidableEq

structure AssumptionRow where
  assumptionId : String
  materiality : String
  basisRefs : List String
deriving DecidableEq

inductive ContradictionStatus
  | open
  | underInvestigation
  | resolved
  | acceptedRisk
  | superseded
deriving DecidableEq, Repr

/-- The text of a contradiction status. -/
def ContradictionStatus.text : ContradictionStatus → String
  | .open => "OPEN"
  | underInvestigation => "UNDER_INVESTIGATION"
  | resolved => "RESOLVED"
  | acceptedRisk => "ACCEPTED_RISK"
  | superseded => "SUPERSEDED"

structure ContradictionRow where
  contradictionId : String
  objectRefs : List String
  materiality : String
  status : ContradictionStatus
deriving DecidableEq

inductive WorkItemStatus
  | open
  | completed
deriving DecidableEq, Repr

structure WorkItemRow where
  workItemId : String
  workType : String
  status : WorkItemStatus
  resultRefs : List String
deriving DecidableEq

structure ExecutionRefRow where
  runId : String
  planDigest : String
  traceId : Option String
  purpose : String
deriving DecidableEq

inductive RecommendationOutcome
  | approve
  | decline
  | review
deriving DecidableEq, Repr

/-- The text of a recommendation's outcome. -/
def RecommendationOutcome.text : RecommendationOutcome → String
  | approve => "APPROVE"
  | decline => "DECLINE"
  | review => "REVIEW"

structure RecommendationRow where
  recommendationId : String
  outcome : RecommendationOutcome
  caseSequence : ℕ
  findingRefs : List String
  evidenceRefs : List String
  createdBy : CaseActor
deriving DecidableEq

inductive GateDecision
  | authorized
  | denied
deriving DecidableEq, Repr

/-- The text of a gate decision. -/
def GateDecision.text : GateDecision → String
  | authorized => "AUTHORIZED"
  | denied => "DENIED"

structure GateResultRow where
  gateResultId : String
  recommendationRef : String
  decision : GateDecision
  caseSequence : ℕ
deriving DecidableEq

structure ReviewRow where
  reviewId : String
  reviewType : String
  outcome : String
  objectRef : String
  viewedEvidenceRefs : List String
  reviewer : CaseActor
deriving DecidableEq

inductive DispositionOutcome
  | approved
  | declined
deriving DecidableEq, Repr

/-- The text of a disposition's outcome. -/
def DispositionOutcome.text : DispositionOutcome → String
  | approved => "APPROVED"
  | declined => "DECLINED"

/-- The status of a case with a disposition. -/
def DispositionOutcome.status : DispositionOutcome → KycCaseStatus
  | approved => .approved
  | declined => .declined

structure DispositionRow where
  dispositionId : String
  outcome : DispositionOutcome
  recommendationRef : String
  gateResultRef : String
  reviewRef : Option String
  authorizedActor : CaseActor
deriving DecidableEq

structure LineageEdgeRow where
  edgeId : String
  sourceType : String
  sourceId : String
  predicate : String
  targetType : String
  targetId : String
  creationEventId : String
deriving DecidableEq

/-- The tables that the command handlers work on. -/
structure ObjectTables where
  subjects : List SubjectRow
  subjectIdentifiers : List SubjectIdentifierRow
  evidenceObjects : List EvidenceObjectRow
  evidenceRefs : List EvidenceRefRow
  claims : List ClaimRow
  facts : List FactRow
  findings : List FindingRow
  assumptions : List AssumptionRow
  contradictions : List ContradictionRow
  workItems : List WorkItemRow
  executionRefs : List ExecutionRefRow
  recommendations : List RecommendationRow
  gateResults : List GateResultRow
  reviews : List ReviewRow
  dispositions : List DispositionRow
  lineageEdges : List LineageEdgeRow
deriving DecidableEq

/-- Tables without rows. -/
def ObjectTables.empty : ObjectTables :=
  ⟨[], [], [], [], [], [], [], [], [], [], [], [], [], [], [], []⟩

/-! ## The case and its ledger -/

/-- A row of `cases`. -/
structure CaseRow where
  caseType : String
  schemaVersion : String
  jurisdiction : String
  status : KycCaseStatus
  caseSequence : ℕ
  externalRef : Option String
  policySnapshotDigest : String
  harnessPlanDigest : String
  classification : String
  createdBy : CaseActor
  createdAt : Timestamptz
  updatedAt : Timestamptz
deriving DecidableEq

/-- A row of `case_events`. -/
structure CaseEventRow where
  caseSequence : ℕ
  eventId : String
  eventType : String
  eventSchema : String
  occurredAt : Timestamptz
  recordedAt : Timestamptz
  actor : Jsonb
  commandId : String
  authority : Jsonb
  payload : Jsonb
  evidenceRefs : Jsonb
  previousEventDigest : Option String
  eventDigest : String
deriving DecidableEq

/-- A row of `event_chain_heads`. -/
structure ChainHeadRow where
  caseSequence : ℕ
  eventDigest : String
deriving DecidableEq

/-- A row of `command_receipts`. -/
structure CommandReceiptRow where
  commandId : String
  commandType : String
  idempotencyKey : String
  requestDigest : String
  acceptedSequenceFrom : ℕ
  acceptedSequenceTo : ℕ
  createdIdentifiers : Jsonb
  response : Jsonb
  responseDigest : String
deriving DecidableEq

/-- The key of a case. -/
structure CaseKey where
  tenantId : String
  caseId : String
deriving DecidableEq

/-- A row of `outbox`, and whether it has been purged since. -/
structure OutboxRow where
  outboxId : String
  case : CaseKey
  caseSequence : ℕ
  eventId : String
  eventType : String
  classification : String
  payload : Jsonb
  sourceEventDigest : String
  publishedAt : Option Timestamptz
  purged : Bool
deriving DecidableEq

/-- The rows of one case. -/
structure CaseTables where
  cases : Option CaseRow
  events : List CaseEventRow
  head : Option ChainHeadRow
  receipts : List CommandReceiptRow
  objects : ObjectTables
deriving DecidableEq

/-- A case that does not exist. -/
def CaseTables.empty : CaseTables := ⟨none, [], none, [], .empty⟩

/-! ## Statements -/

section

variable {σ α : Type}

/-- Transactions of the case store. -/
abbrev Query (σ α : Type) : Type := Txn σ OutboxRow Failure α

/-- Insert a row under a primary key or unique constraint. -/
def insertInto (constraint : String) (clash : σ → Prop) [DecidablePred clash] (insert : σ → σ) :
    Query σ Unit := do
  let s ← Txn.get
  Txn.require (¬ clash s) (.unique constraint)
  Txn.modify insert

@[simp] theorem yields_insertInto {constraint : String} {clash : σ → Prop} [DecidablePred clash]
    {insert : σ → σ} {a : Unit} {s s' : σ} {ms : List OutboxRow} :
    (insertInto constraint clash insert).Yields s a s' ms ↔ ¬ clash s ∧ s' = insert s ∧ ms = [] := by
  simp only [insertInto, Txn.yields_bind, Txn.yields_get, Txn.yields_require, Txn.yields_modify]
  constructor
  · rintro ⟨_, _, _, _, ⟨rfl, rfl, rfl⟩, ⟨_, _, _, _, ⟨hno, rfl, rfl⟩, ⟨rfl, rfl⟩, rfl⟩, rfl⟩
    exact ⟨hno, rfl, rfl⟩
  · rintro ⟨hno, rfl, rfl⟩
    exact ⟨_, _, _, _, ⟨rfl, rfl, rfl⟩, ⟨(), _, _, _, ⟨hno, rfl, rfl⟩, ⟨rfl, rfl⟩, rfl⟩, rfl⟩

@[simp] theorem wp_insertInto {constraint : String} {clash : σ → Prop} [DecidablePred clash]
    {insert : σ → σ} {Q : Unit → σ → List OutboxRow → Prop} {s : σ} :
    (insertInto constraint clash insert).wp Q s ↔ (¬ clash s → Q () (insert s) []) := by
  simp [insertInto]

end

/-- A statement of a command handler, on all the rows of the case. -/
def onObjects {α : Type} (p : Query ObjectTables α) : Query CaseTables α :=
  p.zoom CaseTables.objects fun objects t => { t with objects }

@[simp] theorem yields_onObjects {α : Type} {p : Query ObjectTables α} {a : α} {t t' : CaseTables}
    {ms : List OutboxRow} : (onObjects p).Yields t a t' ms ↔
      ∃ objects, p.Yields t.objects a objects ms ∧ t' = { t with objects } := by
  rw [onObjects, Txn.yields_zoom] <;> intros <;> rfl

end CaseStore

end HarnessFramework
