import HarnessFramework.CaseStore.Tables
import HarnessFramework.Library.Inserts

/-!
# Registering evidence

`registerEvidence` of `packages/case-store/src/index.ts`, on the tables of the evidence store:
`artifacts` and `evidence_objects` of `migrations/001_case_store.sql`, `registration_receipts` and
`outbox` of `migrations/002_evidence_idempotency.sql`. Of `cases` it reads the keys.

Calls run side by side as transactions that insert rows. The SHA-256 of texts and of bytes and the
hash of lock names are parameters.

## Main definitions

* `RegisterEvidenceRequest` — what `registerEvidenceRequestSchema` admits
* `decodeBase64` — the content of a request
* `Row`, `uniqueKeys` — the rows of the five tables, and their unique keys
* `registerEvidence`, `Call.txn` — the calls
* `Relayed` — what relays and purges may do to the outbox
-/

namespace HarnessFramework

namespace CaseStore

namespace Evidence

/-! ## Requests -/

/-- The type of an `evidenceSourceSchema` value. -/
inductive SourceType
  | tool
  | upload
  | internalSystem
  | human
  | derived
deriving DecidableEq, Repr

/-- The text of a source type. -/
def SourceType.text : SourceType → String
  | tool => "TOOL"
  | upload => "UPLOAD"
  | internalSystem => "INTERNAL_SYSTEM"
  | human => "HUMAN"
  | derived => "DERIVED"

/-- `evidenceSourceSchema`. -/
structure EvidenceSource where
  type : SourceType
  providerBindingDigest : Option Sha256Digest
  dataset : Option NonEmpty
  datasetVersion : Option NonEmpty
  capability : Option NonEmpty
  retrievedAt : DatetimeText
  sourceEffectiveAt : Option DatetimeText

/-- The source as JSON. -/
def EvidenceSource.toJson (source : EvidenceSource) : Json := .obj <|
  [("type", .str source.type.text)] ++
  optionalMember "providerBindingDigest" (source.providerBindingDigest.map fun d => .str d) ++
  optionalMember "dataset" (source.dataset.map fun d => .str d) ++
  optionalMember "datasetVersion" (source.datasetVersion.map fun v => .str v) ++
  optionalMember "capability" (source.capability.map fun c => .str c) ++
  [("retrievedAt", .str source.retrievedAt)] ++
  optionalMember "sourceEffectiveAt" (source.sourceEffectiveAt.map fun t => .str t)

inductive InstructionTrust
  | trusted
  | untrustedData
  | untrustedExternal
deriving DecidableEq, Repr

/-- The text of an instruction trust. -/
def InstructionTrust.text : InstructionTrust → String
  | trusted => "TRUSTED"
  | untrustedData => "UNTRUSTED_DATA"
  | untrustedExternal => "UNTRUSTED_EXTERNAL"

/-- The trust in evidence. -/
structure EvidenceTrust where
  tier : NonEmpty
  instructionTrust : InstructionTrust

/-- The trust as JSON. -/
def EvidenceTrust.toJson (trust : EvidenceTrust) : Json :=
  .obj [("tier", .str trust.tier), ("instructionTrust", .str trust.instructionTrust.text)]

/-- `registerEvidenceRequestSchema`, with its defaults filled in. The schema version is a literal. -/
structure RegisterEvidenceRequest where
  tenantId : NonEmpty
  caseId : NonEmpty
  type : NonEmpty
  mediaType : NonEmpty
  contentBase64 : NonEmpty
  declaredDigest : Option Sha256Digest
  source : EvidenceSource
  subjectRefs : List NonEmpty
  trust : EvidenceTrust
  classification : NonEmpty
  retentionClass : NonEmpty
  residency : NonEmpty
  createdBy : CaseActor

namespace RegisterEvidenceRequest

/-- The only schema version. -/
def schemaVersion : String := "harness.evidence.v1"

variable (request : RegisterEvidenceRequest)

/-- The members of a request. -/
def members : List (String × Json) :=
  [("tenantId", .str request.tenantId), ("caseId", .str request.caseId),
    ("schemaVersion", .str schemaVersion), ("type", .str request.type),
    ("mediaType", .str request.mediaType), ("contentBase64", .str request.contentBase64)] ++
  optionalMember "declaredDigest" (request.declaredDigest.map fun d => .str d) ++
  [("source", request.source.toJson), ("subjectRefs", stringsJson (request.subjectRefs.map (·.val))),
    ("trust", request.trust.toJson), ("classification", .str request.classification),
    ("retentionClass", .str request.retentionClass), ("residency", .str request.residency),
    ("createdBy", request.createdBy.toJson)]

/-- The request as JSON. -/
def toJson : Json := .obj request.members

end RegisterEvidenceRequest

/-! ## Content -/

/-- The value of a character of `[A-Za-z0-9+/]`. -/
def base64Digit (c : Char) : Option ℕ :=
  if 'A' ≤ c ∧ c ≤ 'Z' then some (c.toNat - 'A'.toNat)
  else if 'a' ≤ c ∧ c ≤ 'z' then some (c.toNat - 'a'.toNat + 26)
  else if '0' ≤ c ∧ c ≤ '9' then some (c.toNat - '0'.toNat + 52)
  else if c = '+' then some 62
  else if c = '/' then some 63
  else none

/-- `/^[A-Za-z0-9+/]*={0,2}$/`. -/
def isBase64 (text : List Char) : Bool :=
  text.dropWhile (fun c => (base64Digit c).isSome) ∈ [[], ['='], ['=', '=']]

/-- The bytes that base 64 digits stand for, without those that are not whole. -/
def base64Bytes : List ℕ → List UInt8
  | a :: b :: c :: d :: rest =>
    .ofNat (a * 4 + b / 16) :: .ofNat (b % 16 * 16 + c / 4) :: .ofNat (c % 4 * 64 + d) :: base64Bytes rest
  | [a, b, c] => [.ofNat (a * 4 + b / 16), .ofNat (b % 16 * 16 + c / 4)]
  | [a, b] => [.ofNat (a * 4 + b / 16)]
  | _ => []

/-- `Buffer.from(text, "base64")`, of a text in base 64. -/
def decodeBase64 (text : String) : List UInt8 := base64Bytes (text.toList.filterMap base64Digit)

/-! ## Rows -/

/-- A row of `artifacts`. -/
structure ArtifactRow where
  tenantId : String
  artifactDigest : String
  artifactRef : String
  mediaType : String
  byteLength : ℕ
  content : List UInt8
deriving DecidableEq

/-- A row of `evidence_objects`. -/
structure EvidenceRow where
  tenantId : String
  caseId : String
  evidenceId : String
  schemaVersion : String
  evidenceType : String
  source : Jsonb
  subjectRefs : Jsonb
  trust : Jsonb
  rawDigest : String
  artifactRef : String
  classification : String
  retentionClass : String
  residency : String
  scanStatus : EvidenceScan
  verificationStatus : EvidenceVerification
  createdBy : Jsonb
deriving DecidableEq

/-- A row of `registration_receipts`. -/
structure ReceiptRow where
  tenantId : String
  idempotencyKey : String
  requestDigest : String
  evidenceId : String
  response : Jsonb
  responseDigest : String
deriving DecidableEq

/-- A row of the evidence `outbox`. -/
structure OutboxRow where
  outboxId : String
  tenantId : String
  caseId : String
  evidenceId : String
  eventType : String
  classification : String
  payload : Jsonb
  publishedAt : Option Timestamptz
deriving DecidableEq

/-- The rows of the tables. A row of the outbox that was purged is in no table any more. -/
inductive Row
  | case (tenantId caseId : String)
  | artifact (row : ArtifactRow)
  | evidence (row : EvidenceRow)
  | receipt (row : ReceiptRow)
  | outbox (row : OutboxRow)
  | purged (row : OutboxRow)
deriving DecidableEq

/-- Two rows share a unique key. -/
def Row.clash : Row → Row → Bool
  | .case tenantId caseId, .case tenantId' caseId' => tenantId = tenantId' ∧ caseId = caseId'
  | .artifact row, .artifact row' =>
    row.tenantId = row'.tenantId ∧ row.artifactDigest = row'.artifactDigest ∨
      row.artifactRef = row'.artifactRef
  | .evidence row, .evidence row' => row.tenantId = row'.tenantId ∧ row.evidenceId = row'.evidenceId
  | .receipt row, .receipt row' =>
    row.tenantId = row'.tenantId ∧ row.idempotencyKey = row'.idempotencyKey
  | .outbox row, .outbox row' =>
    row.outboxId = row'.outboxId ∨
      row.tenantId = row'.tenantId ∧ row.evidenceId = row'.evidenceId ∧ row.eventType = row'.eventType
  | _, _ => false

/-- `on conflict (tenant_id, artifact_digest)`. -/
def Row.target : Row → Row → Bool
  | .artifact row, .artifact row' =>
    row.tenantId = row'.tenantId ∧ row.artifactDigest = row'.artifactDigest
  | _, _ => false

/-- What a call throws. -/
inductive Failure
  /-- A `CaseStoreError` without details. -/
  | code (code : String) (httpStatus : ℕ)
  /-- `evidence.content_too_large`. -/
  | tooLarge (maxBytes : ℕ)
  /-- `evidence.digest_mismatch`. -/
  | mismatch (computedDigest : String)
  /-- The database error 23505. -/
  | unique
deriving DecidableEq, Repr

/-- The unique keys of the tables. -/
def uniqueKeys : UniqueKeys Row Failure where
  Clash := fun r r' => r.clash r' = true
  Target := fun r r' => r.target r' = true
  violation := .unique
  symm := by
    intro r r' h
    cases r <;> cases r' <;> simp only [Row.clash, decide_eq_true_eq, Bool.false_eq_true] at h ⊢ <;>
      grind
  target := by
    intro r r' h
    cases r <;> cases r' <;>
      simp only [Row.clash, Row.target, decide_eq_true_eq, Bool.false_eq_true] at h ⊢
    exact .inl h

instance : DecidableRel uniqueKeys.Clash := fun r r' => inferInstanceAs (Decidable (r.clash r' = true))

instance : DecidableRel uniqueKeys.Target := fun r r' => inferInstanceAs (Decidable (r.target r' = true))

/-! ## Calls -/

/-- What a call answers. -/
inductive Answer
  | caseCreated
  | registered (created : Bool) (evidence : Option Json)
deriving DecidableEq

/-- The receipt under an idempotency key. -/
def receipt? (rows : List Row) (tenantId idempotencyKey : String) : Option ReceiptRow :=
  rows.findSome? fun
    | .receipt row =>
      if row.tenantId = tenantId ∧ row.idempotencyKey = idempotencyKey then some row else none
    | _ => none

section

variable (sha256 : List Char → String) (contentSha256 : List UInt8 → String) (hashtext : String → ℤ)
  (evidenceMaxBytes : ℕ)

/-- The artifact reference of a digest. -/
def artifactRef (tenantId digest : String) : String :=
  let tenantPartition := String.ofList ((stableDigest sha256 (.str tenantId)).toList.take 16)
  s!"artifact://postgres/{tenantPartition}/sha256/" ++ String.ofList (digest.toList.take 2) ++ "/" ++
    String.ofList ((digest.toList.take 4).drop 2) ++ "/" ++ digest

/-- The name of the lock of an idempotency key. -/
def lockName (tenantId idempotencyKey : String) : ℤ := hashtext (tenantId ++ ":" ++ idempotencyKey)

section

variable (env : Env) (request : RegisterEvidenceRequest)

/-- The id of new evidence. -/
def evidenceId : String := env.opaqueId "ev" 0

/-- The digest of the content. -/
def contentDigest : String := contentSha256 (decodeBase64 request.contentBase64)

/-- The artifact of a request. -/
def artifactRow : ArtifactRow where
  tenantId := request.tenantId
  artifactDigest := contentDigest contentSha256 request
  artifactRef := artifactRef sha256 request.tenantId (contentDigest contentSha256 request)
  mediaType := request.mediaType
  byteLength := (decodeBase64 request.contentBase64).length
  content := decodeBase64 request.contentBase64

/-- The evidence of a request. -/
def evidenceRow : EvidenceRow where
  tenantId := request.tenantId
  caseId := request.caseId
  evidenceId := evidenceId env
  schemaVersion := RegisterEvidenceRequest.schemaVersion
  evidenceType := request.type
  source := .ofJson request.source.toJson
  subjectRefs := .ofJson (stringsJson (request.subjectRefs.map (·.val)))
  trust := .ofJson request.trust.toJson
  rawDigest := contentDigest contentSha256 request
  artifactRef := artifactRef sha256 request.tenantId (contentDigest contentSha256 request)
  classification := request.classification
  retentionClass := request.retentionClass
  residency := request.residency
  scanStatus := .pocNotScanned
  verificationStatus := .digestVerified
  createdBy := .ofJson request.createdBy.toJson

/-- The evidence as it is answered. -/
def evidenceJson : Json :=
  let digest := contentDigest contentSha256 request
  .obj [("evidenceId", .str (evidenceId env)), ("tenantId", .str request.tenantId),
    ("caseId", .str request.caseId), ("schemaVersion", .str RegisterEvidenceRequest.schemaVersion),
    ("type", .str request.type), ("source", request.source.toJson),
    ("subjectRefs", stringsJson (request.subjectRefs.map (·.val))), ("trust", request.trust.toJson),
    ("integrity", .obj [("rawDigest", .str digest), ("normalizedDigest", .null),
      ("artifactRef", .str (artifactRef sha256 request.tenantId digest))]),
    ("classification", .str request.classification), ("retentionClass", .str request.retentionClass),
    ("residency", .str request.residency), ("scanStatus", .str "POC_NOT_SCANNED"),
    ("verificationStatus", .str "DIGEST_VERIFIED"), ("createdBy", request.createdBy.toJson),
    ("createdAt", .str (nowIso env.timestamp))]

/-- The response as it is recorded. -/
def responseJson : Json :=
  .obj [("created", .bool true), ("evidence", evidenceJson sha256 contentSha256 env request)]

/-- The receipt of a request. -/
def receiptRow (idempotencyKey : String) : ReceiptRow where
  tenantId := request.tenantId
  idempotencyKey := idempotencyKey
  requestDigest := stableDigest sha256 request.toJson
  evidenceId := evidenceId env
  response := .ofJson (responseJson sha256 contentSha256 env request)
  responseDigest := stableDigest sha256 (responseJson sha256 contentSha256 env request)

/-- The outbox row of a request. -/
def outboxRow : OutboxRow where
  outboxId := env.opaqueId "outbox" 0
  tenantId := request.tenantId
  caseId := request.caseId
  evidenceId := evidenceId env
  eventType := "evidence.registered"
  classification := request.classification
  payload := .ofJson <| .obj
    [("evidenceId", .str (evidenceId env)), ("caseId", .str request.caseId),
      ("rawDigest", .str (contentDigest contentSha256 request)),
      ("artifactRef",
        .str (artifactRef sha256 request.tenantId (contentDigest contentSha256 request))),
      ("verificationStatus", .str "DIGEST_VERIFIED")]
  publishedAt := none

/-- `registerEvidence`. -/
def registerEvidence (idempotencyKey : String) : Inserts ℤ Row Failure Answer := do
  .require (idempotencyKey ≠ "") (.code "evidence.idempotency_key_required" 400)
  .require ((Json.utf16 request.contentBase64).length % 4 = 0 ∧
    isBase64 request.contentBase64.val.toList) (.code "evidence.content_invalid" 400)
  .require (decodeBase64 request.contentBase64 ≠ []) (.code "evidence.content_invalid" 400)
  .require ((decodeBase64 request.contentBase64).length ≤ evidenceMaxBytes) (.tooLarge evidenceMaxBytes)
  .require (∀ declared ∈ request.declaredDigest,
    normalizeDigest declared = contentDigest contentSha256 request)
    (.mismatch (contentDigest contentSha256 request))
  .advisoryLock (lockName hashtext request.tenantId idempotencyKey)
  let rows ← .get
  match receipt? rows request.tenantId idempotencyKey with
  | some prior =>
    .require (prior.requestDigest = stableDigest sha256 request.toJson)
      (.code "evidence.idempotency_conflict" 409)
    return .registered false (prior.response.val.get? "evidence")
  | none =>
    let rows ← .get
    .require (.case request.tenantId request.caseId ∈ rows) (.code "case.not_found" 404)
    .addNew (.artifact (artifactRow sha256 contentSha256 request))
    .add (.evidence (evidenceRow sha256 contentSha256 env request))
    .add (.receipt (receiptRow sha256 contentSha256 env request idempotencyKey))
    .add (.outbox (outboxRow sha256 contentSha256 env request))
    return .registered true (some (evidenceJson sha256 contentSha256 env request))

end

/-- The calls that write to the tables. -/
inductive Call
  /-- The row of `cases` that `createKycCase` inserts. -/
  | createCase (tenantId caseId : String)
  | registerEvidence (env : Env) (request : RegisterEvidenceRequest) (idempotencyKey : String)

/-- The transaction of a call. -/
def Call.txn : Call → Inserts ℤ Row Failure Answer
  | createCase tenantId caseId => do
    .add (.case tenantId caseId)
    return .caseCreated
  | registerEvidence env request idempotencyKey =>
    Evidence.registerEvidence sha256 contentSha256 hashtext evidenceMaxBytes env request idempotencyKey

end

/-- What relays and purges may do to the outbox: mark a row as published, or delete one that is. -/
inductive Relayed : Row → Row → Prop
  | publish (row : OutboxRow) (time : Timestamptz) :
      Relayed (.outbox row) (.outbox { row with publishedAt := some time })
  | purge (row : OutboxRow) : row.publishedAt.isSome → Relayed (.outbox row) (.purged row)

end Evidence

end CaseStore

end HarnessFramework
