import HarnessFramework.Contracts.Canonical
import HarnessFramework.Library.IsoTime

/-!
# The contracts of a KYC case

The values that `createKycCaseRequestSchema` and `businessCommandSchema` of
`packages/contracts/src/index.ts` admit. A string with a minimum length, a digest and a date-time
carry the check they passed, so a request that the schema refuses cannot be built.

## Main definitions

* `NonEmpty`, `Sha256Digest`, `DatetimeText`, `IdempotencyKey` — checked strings
* `KycCaseStatus`, `BusinessCommandType` — the enumerations
* `CaseActor`, `CaseAuthority`, `CreateKycCaseRequest`, `BusinessCommand`
* `CreateKycCaseRequest.toJson`, `BusinessCommand.toJson` — what is digested of them
-/

namespace HarnessFramework

/-! ## Checked strings -/

/-- `z.string().min(1)`. -/
abbrev NonEmpty : Type := { text : String // text ≠ "" }

/-- The texts of `/^[a-f0-9]{64}$/`. -/
def IsHexDigest (cs : List Char) : Prop := cs.length = 64 ∧ ∀ c ∈ cs, c ∈ "abcdef0123456789".toList

-- Without the hint the instance would run through all characters.
instance (cs : List Char) : Decidable (IsHexDigest cs) :=
  letI : Decidable (∀ c ∈ cs, c ∈ "abcdef0123456789".toList) := List.decidableBAll _ cs
  inferInstanceAs (Decidable (_ ∧ _))

/-- The texts of `sha256DigestSchema`, `/^(sha256:)?[a-f0-9]{64}$/`. -/
def IsSha256Digest (text : String) : Prop :=
  IsHexDigest text.toList ∨ text.toList.take 7 = "sha256:".toList ∧ IsHexDigest (text.toList.drop 7)

instance (text : String) : Decidable (IsSha256Digest text) := by
  unfold IsSha256Digest; infer_instance

/-- `sha256DigestSchema`. -/
abbrev Sha256Digest : Type := { text : String // IsSha256Digest text }

/-- `z.string().datetime()`. -/
abbrev DatetimeText : Type := { text : String // IsDatetime text }

/-- `z.string().min(1).max(300)`, in UTF-16 code units. -/
abbrev IdempotencyKey : Type := { text : String // text ≠ "" ∧ (Json.utf16 text).length ≤ 300 }

/-! ## Enumerations -/

/-- `kycCaseStatusSchema`. -/
inductive KycCaseStatus
  | intake
  | validating
  | screening
  | investigating
  | readyForDecision
  | qaReview
  | humanReview
  | needsInformation
  | suspended
  | approved
  | declined
  | closed
deriving DecidableEq, Repr

namespace KycCaseStatus

/-- The text of a status. -/
def text : KycCaseStatus → String
  | intake => "INTAKE"
  | validating => "VALIDATING"
  | screening => "SCREENING"
  | investigating => "INVESTIGATING"
  | readyForDecision => "READY_FOR_DECISION"
  | qaReview => "QA_REVIEW"
  | humanReview => "HUMAN_REVIEW"
  | needsInformation => "NEEDS_INFORMATION"
  | suspended => "SUSPENDED"
  | approved => "APPROVED"
  | declined => "DECLINED"
  | closed => "CLOSED"

/-- Every status, in the order of the schema. -/
def all : List KycCaseStatus :=
  [intake, validating, screening, investigating, readyForDecision, qaReview, humanReview,
    needsInformation, suspended, approved, declined, closed]

end KycCaseStatus

/-- `businessCommandTypeSchema`. -/
inductive BusinessCommandType
  | addSubject
  | linkEvidence
  | proposeClaim
  | acceptClaimAsFact
  | recordScreeningFinding
  | recordAssumption
  | raiseContradiction
  | resolveContradiction
  | proposeWorkItem
  | completeWorkItem
  | linkExecution
  | submitDecisionRecommendation
  | recordGateResult
  | recordQAResult
  | recordReview
  | requestHumanReview
  | transitionCaseStatus
  | finalizeDisposition
deriving DecidableEq, Repr

/-- All command types. -/
def BusinessCommandType.all : List BusinessCommandType :=
  [addSubject, linkEvidence, proposeClaim, acceptClaimAsFact, recordScreeningFinding,
    recordAssumption, raiseContradiction, resolveContradiction, proposeWorkItem, completeWorkItem,
    linkExecution, submitDecisionRecommendation, recordGateResult, recordQAResult, recordReview,
    requestHumanReview, transitionCaseStatus, finalizeDisposition]

/-- The text of a command type. -/
def BusinessCommandType.text : BusinessCommandType → String
  | addSubject => "AddSubject"
  | linkEvidence => "LinkEvidence"
  | proposeClaim => "ProposeClaim"
  | acceptClaimAsFact => "AcceptClaimAsFact"
  | recordScreeningFinding => "RecordScreeningFinding"
  | recordAssumption => "RecordAssumption"
  | raiseContradiction => "RaiseContradiction"
  | resolveContradiction => "ResolveContradiction"
  | proposeWorkItem => "ProposeWorkItem"
  | completeWorkItem => "CompleteWorkItem"
  | linkExecution => "LinkExecution"
  | submitDecisionRecommendation => "SubmitDecisionRecommendation"
  | recordGateResult => "RecordGateResult"
  | recordQAResult => "RecordQAResult"
  | recordReview => "RecordReview"
  | requestHumanReview => "RequestHumanReview"
  | transitionCaseStatus => "TransitionCaseStatus"
  | finalizeDisposition => "FinalizeDisposition"

/-- The type of a `caseActorSchema` value. -/
inductive ActorType
  | agent
  | human
  | system
  | integration
deriving DecidableEq, Repr

/-- The text of an actor type. -/
def ActorType.text : ActorType → String
  | agent => "AGENT"
  | human => "HUMAN"
  | system => "SYSTEM"
  | integration => "INTEGRATION"

/-! ## Requests -/

/-- A member that an object has only when there is a value. -/
def optionalMember (key : String) : Option Json → List (String × Json)
  | none => []
  | some value => [(key, value)]

/-- An array of strings. -/
def stringsJson (items : List String) : Json := .arr (items.map Json.str)

/-- `caseActorSchema`. -/
structure CaseActor where
  type : ActorType
  principalId : NonEmpty
  executionId : Option NonEmpty
  roles : List NonEmpty
deriving DecidableEq

/-- The actor as JSON. -/
def CaseActor.toJson (actor : CaseActor) : Json := .obj <|
  [("type", .str actor.type.text), ("principalId", .str actor.principalId)] ++
  optionalMember "executionId" (actor.executionId.map fun id => .str id) ++
  [("roles", stringsJson (actor.roles.map (·.val)))]

/-- `caseAuthoritySchema`. -/
structure CaseAuthority where
  planDigest : Sha256Digest
  permissionEnvelopeDigest : Sha256Digest
  policySnapshotDigest : Sha256Digest
deriving DecidableEq

/-- The authority as JSON. -/
def CaseAuthority.toJson (authority : CaseAuthority) : Json := .obj
  [("planDigest", .str authority.planDigest),
    ("permissionEnvelopeDigest", .str authority.permissionEnvelopeDigest),
    ("policySnapshotDigest", .str authority.policySnapshotDigest)]

/-- `createKycCaseRequestSchema`. The case type, the schema version and the jurisdiction are
literals. -/
structure CreateKycCaseRequest where
  tenantId : NonEmpty
  externalRef : Option NonEmpty
  policySnapshotDigest : Sha256Digest
  harnessPlanDigest : Sha256Digest
  classification : NonEmpty
  actor : CaseActor
deriving DecidableEq

namespace CreateKycCaseRequest

/-- The only case type. -/
def caseType : String := "kyc_onboarding"

/-- The only schema version. -/
def schemaVersion : String := "kyc.case.v1"

/-- The only jurisdiction. -/
def jurisdiction : String := "US"

/-- The request as JSON. -/
def toJson (request : CreateKycCaseRequest) : Json := .obj <|
  [("tenantId", .str request.tenantId), ("caseType", .str caseType),
    ("schemaVersion", .str schemaVersion), ("jurisdiction", .str jurisdiction)] ++
  optionalMember "externalRef" (request.externalRef.map fun ref => .str ref) ++
  [("policySnapshotDigest", .str request.policySnapshotDigest),
    ("harnessPlanDigest", .str request.harnessPlanDigest),
    ("classification", .str request.classification), ("actor", request.actor.toJson)]

end CreateKycCaseRequest

/-- The preconditions of a command. -/
structure CommandPreconditions where
  caseSequence : ℕ
  subjectRevision : Option ℕ
deriving DecidableEq

/-- The preconditions as JSON. -/
def CommandPreconditions.toJson (preconditions : CommandPreconditions) : Json := .obj <|
  ("caseSequence", .nat preconditions.caseSequence) ::
  optionalMember "subjectRevision" (preconditions.subjectRevision.map Json.nat)

/-- `businessCommandSchema`. -/
structure BusinessCommand where
  commandId : NonEmpty
  commandType : BusinessCommandType
  commandVersion : NonEmpty
  tenantId : NonEmpty
  caseId : NonEmpty
  actor : CaseActor
  authority : CaseAuthority
  payload : List (String × Json)
  preconditions : CommandPreconditions
  idempotencyKey : IdempotencyKey
  occurredAt : Option DatetimeText
deriving DecidableEq

/-- The command as JSON. -/
def BusinessCommand.toJson (command : BusinessCommand) : Json := .obj <|
  [("commandId", .str command.commandId), ("commandType", .str command.commandType.text),
    ("commandVersion", .str command.commandVersion), ("tenantId", .str command.tenantId),
    ("caseId", .str command.caseId), ("actor", command.actor.toJson),
    ("authority", command.authority.toJson), ("payload", .obj command.payload),
    ("preconditions", command.preconditions.toJson),
    ("idempotencyKey", .str command.idempotencyKey)] ++
  optionalMember "occurredAt" (command.occurredAt.map fun text => .str text)

end HarnessFramework
