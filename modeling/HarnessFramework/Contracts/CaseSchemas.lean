import HarnessFramework.CaseStore.Evidence
import HarnessFramework.Contracts.Represents
import HarnessFramework.Contracts.Schemas
import HarnessFramework.Library.JsonRational

/-!
# The schemas of a case

`createKycCaseRequestSchema`, `businessCommandSchema` and `registerEvidenceRequestSchema` of
`packages/contracts/src/index.ts`, with the schemas they are made of. What they parse to is exactly what
the types of a case write as JSON, as long as the numbers of a command are safe integers.

## Main definitions

* `caseActorSchema`, `caseAuthoritySchema`, `evidenceSourceSchema` — the parts
* `createKycCaseRequestSchema`, `businessCommandSchema`, `registerEvidenceRequestSchema`
* `BusinessCommand.Safe` — the numbers of a command are safe integers

## Main results

* `represents_createKycCaseRequest`, `represents_businessCommand`, `represents_registerEvidenceRequest` — what
  the schemas parse to are the values of the types
-/

namespace HarnessFramework

open Schema CaseStore.Evidence

/-! ## Parts -/

/-- `sha256DigestSchema`. -/
def sha256DigestSchema : Schema := .text fun s => IsSha256Digest s

/-- `z.string().datetime()`. -/
def datetimeSchema : Schema := .text fun s => IsDatetime s

/-- `z.string().min(1).max(300)`. -/
def idempotencyKeySchema : Schema := .text fun s => s ≠ "" ∧ (Json.utf16 s).length ≤ 300

/-- `caseActorSchema`. -/
def caseActorSchema : Schema := strict
  [("type", .required, oneOf ["AGENT", "HUMAN", "SYSTEM", "INTEGRATION"]),
    ("principalId", .required, atLeast 1), ("executionId", .optional, atLeast 1),
    ("roles", .default (.arr []), .array (atLeast 1))]

/-- `caseAuthoritySchema`. -/
def caseAuthoritySchema : Schema := strict
  [("planDigest", .required, sha256DigestSchema),
    ("permissionEnvelopeDigest", .required, sha256DigestSchema),
    ("policySnapshotDigest", .required, sha256DigestSchema)]

/-- The preconditions of a `businessCommandSchema`. -/
def commandPreconditionsSchema : Schema := strict
  [("caseSequence", .required, integerFrom 0), ("subjectRevision", .optional, integerFrom 0)]

/-- `evidenceSourceSchema`. -/
def evidenceSourceSchema : Schema := strict
  [("type", .required, oneOf ["TOOL", "UPLOAD", "INTERNAL_SYSTEM", "HUMAN", "DERIVED"]),
    ("providerBindingDigest", .optional, sha256DigestSchema), ("dataset", .optional, atLeast 1),
    ("datasetVersion", .optional, atLeast 1), ("capability", .optional, atLeast 1),
    ("retrievedAt", .required, datetimeSchema), ("sourceEffectiveAt", .optional, datetimeSchema)]

/-- The trust of a `registerEvidenceRequestSchema`. -/
def evidenceTrustSchema : Schema := strict
  [("tier", .required, atLeast 1),
    ("instructionTrust", .required, oneOf ["TRUSTED", "UNTRUSTED_DATA", "UNTRUSTED_EXTERNAL"])]

/-! ## Requests -/

/-- `createKycCaseRequestSchema`. -/
def createKycCaseRequestSchema : Schema := strict
  [("tenantId", .required, atLeast 1),
    ("caseType", .default (.str "kyc_onboarding"), literal "kyc_onboarding"),
    ("schemaVersion", .default (.str "kyc.case.v1"), literal "kyc.case.v1"),
    ("jurisdiction", .default (.str "US"), literal "US"), ("externalRef", .optional, atLeast 1),
    ("policySnapshotDigest", .required, sha256DigestSchema),
    ("harnessPlanDigest", .required, sha256DigestSchema),
    ("classification", .default (.str "CONFIDENTIAL"), atLeast 1), ("actor", .required, caseActorSchema)]

/-- `businessCommandSchema`. -/
def businessCommandSchema : Schema := strict
  [("commandId", .required, atLeast 1), ("commandType", .required, businessCommandTypeSchema),
    ("commandVersion", .required, atLeast 1), ("tenantId", .required, atLeast 1),
    ("caseId", .required, atLeast 1), ("actor", .required, caseActorSchema),
    ("authority", .required, caseAuthoritySchema), ("payload", .required, .record),
    ("preconditions", .required, commandPreconditionsSchema),
    ("idempotencyKey", .required, idempotencyKeySchema), ("occurredAt", .optional, datetimeSchema)]

/-- `registerEvidenceRequestSchema`. -/
def registerEvidenceRequestSchema : Schema := strict
  [("tenantId", .required, atLeast 1), ("caseId", .required, atLeast 1),
    ("schemaVersion", .default (.str "harness.evidence.v1"), literal "harness.evidence.v1"),
    ("type", .required, atLeast 1), ("mediaType", .required, atLeast 1),
    ("contentBase64", .required, atLeast 1), ("declaredDigest", .optional, sha256DigestSchema),
    ("source", .required, evidenceSourceSchema), ("subjectRefs", .default (.arr []), .array (atLeast 1)),
    ("trust", .required, evidenceTrustSchema), ("classification", .default (.str "CONFIDENTIAL"), atLeast 1),
    ("retentionClass", .default (.str "KYC_REGULATED"), atLeast 1),
    ("residency", .default (.str "US"), atLeast 1), ("createdBy", .required, caseActorSchema)]

/-- The numbers are safe integers. -/
def CommandPreconditions.Safe (preconditions : CommandPreconditions) : Prop :=
  preconditions.caseSequence < 2 ^ 53 ∧ ∀ revision ∈ preconditions.subjectRevision, revision < 2 ^ 53

/-- The numbers of a command are safe integers. -/
def BusinessCommand.Safe (command : BusinessCommand) : Prop := command.preconditions.Safe

/-! ## Texts and numbers -/

theorem utf16_eq_nil_iff {s : String} : (Json.utf16 s).length = 0 ↔ s = "" := by
  rw [List.length_eq_zero_iff]
  constructor
  · intro h
    exact Json.utf16_injective h
  · rintro rfl
    rfl

theorem represents_nonEmpty : (atLeast 1).Represents (fun s : NonEmpty => .str s.val) fun _ => True :=
  represents_text fun s => by
    rw [decide_eq_true_eq, Nat.one_le_iff_ne_zero, Ne, utf16_eq_nil_iff]

theorem represents_sha256Digest :
    sha256DigestSchema.Represents (fun s : Sha256Digest => .str s.val) fun _ => True :=
  represents_text fun _ => decide_eq_true_iff

theorem represents_datetime :
    datetimeSchema.Represents (fun s : DatetimeText => .str s.val) fun _ => True :=
  represents_text fun _ => decide_eq_true_iff

theorem represents_idempotencyKey :
    idempotencyKeySchema.Represents (fun s : IdempotencyKey => .str s.val) fun _ => True :=
  represents_text fun _ => decide_eq_true_iff

theorem represents_literal (text : String) :
    (literal text).Represents (fun _ : Unit => .str text) fun _ => True :=
  represents_enum (fun _ _ _ => rfl) fun s => by
    rw [decide_eq_true_eq]
    exact ⟨fun h => ⟨(), h.symm⟩, fun ⟨_, h⟩ => h.symm⟩

/-- A list of texts is an enumeration when every value has its own text in it. -/
theorem represents_oneOf {α : Type} {texts : List String} {text : α → String}
    (htext : Function.Injective text) (hmem : ∀ a, text a ∈ texts)
    (hall : ∀ s ∈ texts, ∃ a, text a = s) :
    (oneOf texts).Represents (fun a => .str (text a)) fun _ => True :=
  represents_enum htext fun s => by
    rw [decide_eq_true_eq]
    refine ⟨hall s, ?_⟩
    rintro ⟨a, rfl⟩
    exact hmem a

/-- A natural number is a safe integer. -/
theorem represents_nat : (integerFrom 0).Represents Json.nat (· < 2 ^ 53) where
  parse_encode n hn := by
    have hnum : ((n : ℚ)).num = n := Rat.num_natCast n
    have hden : ((n : ℚ)).den = 1 := Rat.den_natCast n
    rw [integerFrom, integer, Json.nat, parse, JsonNumber.toRat_ofNat, hnum, hden]
    rw [if_pos]
    simp only [Int.natAbs_natCast, decide_eq_true_eq]
    exact ⟨trivial, hn, by omega, by omega⟩
  exists_encode value parsed hparsed := by
    cases value with
    | num n =>
      obtain ⟨hn, hparsed⟩ := Option.ite_none_right_eq_some.mp hparsed
      obtain ⟨hden, hbound, hlow, -⟩ := of_decide_eq_true hn
      have heq := JsonNumber.eq_ofNat_of_toRat hden hlow
      refine ⟨n.toRat.num.toNat, by omega, ?_⟩
      rw [Json.nat, ← heq]
      exact Option.some_inj.mp hparsed
    | null | bool | str | arr | obj => cases hparsed
  injective m n h := JsonNumber.ofNat_injective (Json.num.inj h)

/-! ## Parts -/

theorem optionalMember_map {α : Type} (key : String) (encode : α → Json) (a : Option α) :
    optionalMember key (a.map encode) = (a.map fun a => (key, encode a)).toList := by
  cases a <;> rfl

theorem optionalMember_text {p : String → Prop} (key : String) (a : Option { s // p s }) :
    optionalMember key ((do let s ← a; pure s.val : Option String).map fun s => .str s) =
      (a.map fun s => (key, Json.str s.val)).toList := by
  cases a <;> rfl

theorem represents_texts :
    (Schema.array (atLeast 1)).Represents (fun items : List NonEmpty => stringsJson (items.map (·.val)))
      fun _ => True :=
  represents_nonEmpty.array.congr
    (fun items => by rw [stringsJson, List.map_map]; rfl) fun items => by simp

theorem represents_actorType :
    (oneOf ["AGENT", "HUMAN", "SYSTEM", "INTEGRATION"]).Represents
      (fun type : ActorType => .str type.text) fun _ => True := by
  refine represents_oneOf ?_ ?_ ?_
  · intro a b h
    cases a <;> cases b <;> first | rfl | exact absurd h (by decide)
  · intro a
    cases a <;> decide
  · intro s hs
    simp only [List.mem_cons, List.not_mem_nil, or_false] at hs
    rcases hs with rfl | rfl | rfl | rfl
    exacts [⟨.agent, rfl⟩, ⟨.human, rfl⟩, ⟨.system, rfl⟩, ⟨.integration, rfl⟩]

theorem represents_commandType :
    businessCommandTypeSchema.Represents (fun type : BusinessCommandType => .str type.text)
      fun _ => True := by
  refine represents_oneOf ?_ ?_ ?_
  · have hinjective : ∀ a ∈ BusinessCommandType.all, ∀ b ∈ BusinessCommandType.all,
        a.text = b.text → a = b := by decide +kernel
    have hall : ∀ a, a ∈ BusinessCommandType.all := fun a => by cases a <;> decide
    exact fun a b => hinjective a (hall a) b (hall b)
  · intro a
    cases a <;> decide
  · intro s hs
    have hall : ∀ s ∈ BusinessCommandType.all.map BusinessCommandType.text,
        ∃ a, BusinessCommandType.text a = s := fun s hs => by
      obtain ⟨a, -, ha⟩ := List.mem_map.mp hs
      exact ⟨a, ha⟩
    exact hall s hs

theorem represents_sourceType :
    (oneOf ["TOOL", "UPLOAD", "INTERNAL_SYSTEM", "HUMAN", "DERIVED"]).Represents
      (fun type : SourceType => .str type.text) fun _ => True := by
  refine represents_oneOf ?_ ?_ ?_
  · intro a b h
    cases a <;> cases b <;> first | rfl | exact absurd h (by decide)
  · intro a
    cases a <;> decide
  · intro s hs
    simp only [List.mem_cons, List.not_mem_nil, or_false] at hs
    rcases hs with rfl | rfl | rfl | rfl | rfl
    exacts [⟨.tool, rfl⟩, ⟨.upload, rfl⟩, ⟨.internalSystem, rfl⟩, ⟨.human, rfl⟩, ⟨.derived, rfl⟩]

theorem represents_instructionTrust :
    (oneOf ["TRUSTED", "UNTRUSTED_DATA", "UNTRUSTED_EXTERNAL"]).Represents
      (fun trust : InstructionTrust => .str trust.text) fun _ => True := by
  refine represents_oneOf ?_ ?_ ?_
  · intro a b h
    cases a <;> cases b <;> first | rfl | exact absurd h (by decide)
  · intro a
    cases a <;> decide
  · intro s hs
    simp only [List.mem_cons, List.not_mem_nil, or_false] at hs
    rcases hs with rfl | rfl | rfl
    exacts [⟨.trusted, rfl⟩, ⟨.untrustedData, rfl⟩, ⟨.untrustedExternal, rfl⟩]

theorem represents_actor : caseActorSchema.Represents CaseActor.toJson fun _ => True := by
  have hfields := (represents_actorType.required "type").append
    ((represents_nonEmpty.required "principalId").append
      ((represents_nonEmpty.optional "executionId").append
        (represents_texts.default "roles" [] trivial) (by decide)) (by decide)) (by decide)
  have hparts : Function.Bijective fun actor : CaseActor =>
      (actor.type, actor.principalId, actor.executionId, actor.roles) := by
    refine ⟨fun a b h => ?_, ?_⟩
    · cases a
      cases b
      simpa using h
    · rintro ⟨type, principalId, executionId, roles⟩
      exact ⟨⟨type, principalId, executionId, roles⟩, rfl⟩
  refine (hfields.comp hparts).strict.congr (fun actor => ?_) fun actor => ?_
  · rw [CaseActor.toJson, optionalMember_text]
    rfl
  · simp

theorem represents_authority : caseAuthoritySchema.Represents CaseAuthority.toJson fun _ => True := by
  have hfields := (represents_sha256Digest.required "planDigest").append
    ((represents_sha256Digest.required "permissionEnvelopeDigest").append
      (represents_sha256Digest.required "policySnapshotDigest") (by decide)) (by decide)
  have hparts : Function.Bijective fun authority : CaseAuthority =>
      (authority.planDigest, authority.permissionEnvelopeDigest, authority.policySnapshotDigest) := by
    refine ⟨fun a b h => ?_, ?_⟩
    · cases a
      cases b
      simpa using h
    · rintro ⟨planDigest, permissionEnvelopeDigest, policySnapshotDigest⟩
      exact ⟨⟨planDigest, permissionEnvelopeDigest, policySnapshotDigest⟩, rfl⟩
  exact (hfields.comp hparts).strict.congr (fun authority => rfl) fun authority => by simp

theorem represents_preconditions :
    commandPreconditionsSchema.Represents CommandPreconditions.toJson CommandPreconditions.Safe := by
  have hfields := (represents_nat.required "caseSequence").append
    (represents_nat.optional "subjectRevision") (by decide)
  have hparts : Function.Bijective fun preconditions : CommandPreconditions =>
      (preconditions.caseSequence, preconditions.subjectRevision) := by
    refine ⟨fun a b h => ?_, ?_⟩
    · cases a
      cases b
      simpa using h
    · rintro ⟨caseSequence, subjectRevision⟩
      exact ⟨⟨caseSequence, subjectRevision⟩, rfl⟩
  refine (hfields.comp hparts).strict.congr (fun preconditions => ?_) fun preconditions => Iff.rfl
  rw [CommandPreconditions.toJson, optionalMember_map]
  rfl

theorem represents_source : evidenceSourceSchema.Represents EvidenceSource.toJson fun _ => True := by
  have hfields := (represents_sourceType.required "type").append
    ((represents_sha256Digest.optional "providerBindingDigest").append
      ((represents_nonEmpty.optional "dataset").append
        ((represents_nonEmpty.optional "datasetVersion").append
          ((represents_nonEmpty.optional "capability").append
            ((represents_datetime.required "retrievedAt").append
              (represents_datetime.optional "sourceEffectiveAt") (by decide)) (by decide)) (by decide))
          (by decide)) (by decide)) (by decide)
  have hparts : Function.Bijective fun source : EvidenceSource =>
      (source.type, source.providerBindingDigest, source.dataset, source.datasetVersion,
        source.capability, source.retrievedAt, source.sourceEffectiveAt) := by
    refine ⟨fun a b h => ?_, ?_⟩
    · cases a
      cases b
      simpa using h
    · rintro ⟨type, digest, dataset, version, capability, retrievedAt, effectiveAt⟩
      exact ⟨⟨type, digest, dataset, version, capability, retrievedAt, effectiveAt⟩, rfl⟩
  refine (hfields.comp hparts).strict.congr (fun source => ?_) fun source => ?_
  · simp only [EvidenceSource.toJson, optionalMember_text, List.append_assoc]
  · simp

theorem represents_trust : evidenceTrustSchema.Represents EvidenceTrust.toJson fun _ => True := by
  have hfields := (represents_nonEmpty.required "tier").append
    (represents_instructionTrust.required "instructionTrust") (by decide)
  have hparts : Function.Bijective fun trust : EvidenceTrust => (trust.tier, trust.instructionTrust) := by
    refine ⟨fun a b h => ?_, ?_⟩
    · cases a
      cases b
      simpa using h
    · rintro ⟨tier, instructionTrust⟩
      exact ⟨⟨tier, instructionTrust⟩, rfl⟩
  exact (hfields.comp hparts).strict.congr (fun trust => rfl) fun trust => by simp

/-! ## Requests -/

theorem represents_createKycCaseRequest :
    createKycCaseRequestSchema.Represents CreateKycCaseRequest.toJson fun _ => True := by
  have hfields := (represents_nonEmpty.required "tenantId").append
    (((represents_literal "kyc_onboarding").default "caseType" () trivial).append
      (((represents_literal "kyc.case.v1").default "schemaVersion" () trivial).append
        (((represents_literal "US").default "jurisdiction" () trivial).append
          ((represents_nonEmpty.optional "externalRef").append
            ((represents_sha256Digest.required "policySnapshotDigest").append
              ((represents_sha256Digest.required "harnessPlanDigest").append
                ((represents_nonEmpty.default "classification" ⟨"CONFIDENTIAL", by decide⟩ trivial).append
                  (represents_actor.required "actor") (by decide)) (by decide)) (by decide))
            (by decide)) (by decide)) (by decide)) (by decide)) (by decide)
  have hparts : Function.Bijective fun request : CreateKycCaseRequest =>
      (request.tenantId, (), (), (), request.externalRef, request.policySnapshotDigest,
        request.harnessPlanDigest, request.classification, request.actor) := by
    refine ⟨fun a b h => ?_, ?_⟩
    · cases a
      cases b
      simpa using h
    · rintro ⟨tenantId, -, -, -, externalRef, policy, plan, classification, actor⟩
      exact ⟨⟨tenantId, externalRef, policy, plan, classification, actor⟩, rfl⟩
  refine (hfields.comp hparts).strict.congr (fun request => ?_) fun request => ?_
  · rw [CreateKycCaseRequest.toJson, optionalMember_text]
    simp only [List.append_assoc]
    rfl
  · simp

theorem represents_businessCommand :
    businessCommandSchema.Represents BusinessCommand.toJson BusinessCommand.Safe := by
  have hfields := (represents_nonEmpty.required "commandId").append
    ((represents_commandType.required "commandType").append
      ((represents_nonEmpty.required "commandVersion").append
        ((represents_nonEmpty.required "tenantId").append
          ((represents_nonEmpty.required "caseId").append
            ((represents_actor.required "actor").append
              ((represents_authority.required "authority").append
                ((represents_record.required "payload").append
                  ((represents_preconditions.required "preconditions").append
                    ((represents_idempotencyKey.required "idempotencyKey").append
                      (represents_datetime.optional "occurredAt") (by decide)) (by decide)) (by decide))
                (by decide)) (by decide)) (by decide)) (by decide)) (by decide)) (by decide)) (by decide)
  have hparts : Function.Bijective fun command : BusinessCommand =>
      (command.commandId, command.commandType, command.commandVersion, command.tenantId,
        command.caseId, command.actor, command.authority, command.payload, command.preconditions,
        command.idempotencyKey, command.occurredAt) := by
    refine ⟨fun a b h => ?_, ?_⟩
    · cases a
      cases b
      simpa using h
    · rintro ⟨id, type, version, tenantId, caseId, actor, authority, payload, preconditions, key, at'⟩
      exact ⟨⟨id, type, version, tenantId, caseId, actor, authority, payload, preconditions, key, at'⟩,
        rfl⟩
  refine (hfields.comp hparts).strict.congr (fun command => ?_) fun command => ?_
  · rw [BusinessCommand.toJson, optionalMember_text]
    rfl
  · simp [BusinessCommand.Safe]

theorem represents_registerEvidenceRequest :
    registerEvidenceRequestSchema.Represents RegisterEvidenceRequest.toJson fun _ => True := by
  have hfields := (represents_nonEmpty.required "tenantId").append
    ((represents_nonEmpty.required "caseId").append
      (((represents_literal "harness.evidence.v1").default "schemaVersion" () trivial).append
        ((represents_nonEmpty.required "type").append
          ((represents_nonEmpty.required "mediaType").append
            ((represents_nonEmpty.required "contentBase64").append
              ((represents_sha256Digest.optional "declaredDigest").append
                ((represents_source.required "source").append
                  ((represents_texts.default "subjectRefs" [] trivial).append
                    ((represents_trust.required "trust").append
                      ((represents_nonEmpty.default "classification" ⟨"CONFIDENTIAL", by decide⟩
                        trivial).append
                        ((represents_nonEmpty.default "retentionClass" ⟨"KYC_REGULATED", by decide⟩
                          trivial).append
                          ((represents_nonEmpty.default "residency" ⟨"US", by decide⟩ trivial).append
                            (represents_actor.required "createdBy") (by decide)) (by decide)) (by decide))
                      (by decide)) (by decide)) (by decide)) (by decide)) (by decide)) (by decide))
            (by decide)) (by decide)) (by decide)) (by decide)
  have hparts : Function.Bijective fun request : RegisterEvidenceRequest =>
      (request.tenantId, request.caseId, (), request.type, request.mediaType, request.contentBase64,
        request.declaredDigest, request.source, request.subjectRefs, request.trust,
        request.classification, request.retentionClass, request.residency, request.createdBy) := by
    refine ⟨fun a b h => ?_, ?_⟩
    · cases a
      cases b
      simpa using h
    · rintro ⟨tenantId, caseId, -, type, mediaType, content, digest, source, subjectRefs, trust,
        classification, retentionClass, residency, createdBy⟩
      exact ⟨⟨tenantId, caseId, type, mediaType, content, digest, source, subjectRefs, trust,
        classification, retentionClass, residency, createdBy⟩, rfl⟩
  refine (hfields.comp hparts).strict.congr (fun request => ?_) fun request => ?_
  · rw [RegisterEvidenceRequest.toJson, RegisterEvidenceRequest.members, optionalMember_text]
    simp only [List.append_assoc]
    rfl
  · simp

end HarnessFramework
