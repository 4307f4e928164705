import HarnessFramework.CaseStore.Tables

/-!
# The command handlers

`applyMutation` of `packages/case-store/src/index.ts`: what each of the eighteen commands checks in
its payload and in the tables of the case, the rows it writes, and the event it reports.

## Main definitions

* `requiredString`, `optionalString`, `stringArray`, `objectValue`, `enumValue` — payload checks
* `MutationResult`, `LineageEdge` — what a handler reports
* `allowedTransitions` — the status graph
* `addSubject` … `finalizeDisposition`, `applyMutation` — the handlers
-/

namespace HarnessFramework

namespace CaseStore

/-! ## Payload checks -/

/-- The left side of `value ?? …`: neither `undefined` nor `null`. -/
def nullish : Option Json → Option Json
  | some .null => none
  | value => value

/-- `requiredString`. -/
def requiredString (value : Option Json) (field : String) : Except Failure String :=
  match value with
  | some (.str text) => if text ≠ "" then .ok text else .error (.zod (some (field ++ ".required")))
  | _ => .error (.zod (some (field ++ ".required")))

/-- `optionalString`. -/
def optionalString (value : Option Json) : Except Failure (Option String) :=
  match value with
  | none | some .null => .ok none
  | some (.str text) => if text ≠ "" then .ok (some text) else .error (.zod none)
  | _ => .error (.zod none)

/-- A string. -/
def string? : Json → Option String
  | .str text => some text
  | _ => none

/-- A string of at least one character. -/
def nonEmptyString? (value : Json) : Option String := (string? value).filter (· ≠ "")

/-- `stringArray`. -/
def stringArray (value : Option Json) (field : String) (minimum : ℕ) :
    Except Failure (List String) :=
  match value with
  | some (.arr items) =>
    match items.mapM nonEmptyString? with
    | some texts =>
      if minimum ≤ texts.length then .ok texts else .error (.zod (some (field ++ ".invalid")))
    | none => .error (.zod (some (field ++ ".invalid")))
  | _ => .error (.zod (some (field ++ ".invalid")))

/-- The members of a `z.record(z.string(), z.unknown())`. -/
def record? : Json → Option (List (String × Json))
  | .obj members => some members
  | _ => none

/-- `objectValue`. -/
def objectValue (value : Option Json) (field : String) : Except Failure (List (String × Json)) :=
  match value.bind record? with
  | some members => .ok members
  | none => .error (.zod (some (field ++ ".invalid")))

/-- `z.enum(…).parse`, for the enumeration `all` with its texts. -/
def enumValue {α : Type} (all : List α) (text : α → String) (value : Option Json) :
    Except Failure α :=
  match value with
  | some (.str s) =>
    match all.find? fun a => text a = s with
    | some a => .ok a
    | none => .error (.zod none)
  | _ => .error (.zod none)

/-- A value or `null`. -/
def nullable : Option String → Json
  | none => .null
  | some text => .str text

/-! ## What a handler reports -/

/-- An edge of the lineage graph, before its ids. -/
structure LineageEdge where
  sourceType : String
  sourceId : String
  predicate : String
  targetType : String
  targetId : String

/-- What a handler reports. -/
structure MutationResult where
  eventType : String
  eventSchema : String
  payload : List (String × Json)
  evidenceRefs : List String
  identifiers : List (String × String)
  nextStatus : Option KycCaseStatus
  lineage : List LineageEdge

/-- The status graph. -/
def allowedTransitions : KycCaseStatus → List KycCaseStatus
  | .intake => [.validating, .needsInformation, .suspended]
  | .validating => [.screening, .needsInformation, .suspended]
  | .screening => [.investigating, .readyForDecision, .needsInformation, .suspended]
  | .investigating =>
    [.screening, .readyForDecision, .needsInformation, .humanReview, .suspended]
  | .readyForDecision => [.qaReview, .humanReview, .investigating, .suspended]
  | .qaReview => [.humanReview, .readyForDecision, .investigating, .suspended]
  | .humanReview => [.approved, .declined, .investigating, .needsInformation, .suspended]
  | .needsInformation => [.validating, .screening, .investigating, .suspended]
  | .suspended => [.validating, .screening, .investigating, .humanReview, .closed]
  | .approved => [.closed]
  | .declined => [.closed]
  | .closed => []

/-! ## The handlers -/

/-- Check the payload. -/
def check {α : Type} (x : Except Failure α) : Query ObjectTables α := Txn.ofExcept x

/-- Refuse with a `CaseStoreError` unless `p` holds. -/
def demand (p : Prop) [Decidable p] (code : String) (httpStatus : ℕ) : Query ObjectTables Unit :=
  Txn.require p (.code code httpStatus)

/-- `ensureLinkedEvidence`: as many accepted links as references. -/
def ensureLinkedEvidence (evidenceRefs : List String) : Query ObjectTables Unit :=
  if evidenceRefs.length = 0 then Txn.ret ()
  else do
    let s ← Txn.get
    let result := s.evidenceRefs.filter fun r => r.evidenceId ∈ evidenceRefs ∧ r.status = .accepted
    demand (result.length = evidenceRefs.length) "evidence.not_linked" 409

/-- An item of the identifiers of `AddSubject`. -/
structure SubjectIdentifier where
  identifierType : String
  value : String

/-- Check an item of the identifiers of `AddSubject`. -/
def subjectIdentifier? (item : Json) : Option SubjectIdentifier := do
  let members ← record? item
  let keys := ["identifierType", "value", "maskedValue", "source", "classification"]
  guard (∀ m ∈ members, m.1 ∈ keys)
  let identifierType ← lastMember "identifierType" members >>= nonEmptyString?
  let value ← lastMember "value" members >>= nonEmptyString?
  let _source ← lastMember "source" members >>= nonEmptyString?
  guard (∀ m ∈ lastMember "maskedValue" members, (string? m).isSome)
  guard (∀ c ∈ lastMember "classification" members, (nonEmptyString? c).isSome)
  return ⟨identifierType, value⟩

/-- The identifiers of `AddSubject`. -/
def subjectIdentifiers (value : Option Json) : Except Failure (List SubjectIdentifier) :=
  match value with
  | none => .ok []
  | some (.arr items) =>
    match items.mapM subjectIdentifier? with
    | some identifiers => .ok identifiers
    | none => .error (.zod none)
  | _ => .error (.zod none)

section

variable (sha256 : List Char → String) (evidenceRequireScan : Bool) (command : BusinessCommand)
  (current : CaseRow) (env : Env)

/-- The member `key` of the payload. -/
def field (key : String) : Option Json := lastMember key command.payload

/-- The id in the payload, or a new one. -/
def givenId (key kind : String) : Query ObjectTables String := do
  let id ← check (optionalString (field command key))
  return id.getD (env.opaqueId kind 0)

/-- The references in the payload, none by default. -/
def givenRefs (key : String) (minimum : ℕ) : Query ObjectTables (List String) :=
  check (stringArray ((nullish (field command key)).or (some (.arr []))) key minimum)

/-- The rows for the identifiers of a subject. -/
def insertIdentifiers (subjectId : String) : List SubjectIdentifier → ℕ → Query ObjectTables Unit
  | [], _ => Txn.ret ()
  | identifier :: identifiers, i => do
    let identifierId := env.opaqueId "identifier" i
    insertInto "case_subject_identifiers_pkey"
      (fun s : ObjectTables => ∃ r ∈ s.subjectIdentifiers,
        r.subjectId = subjectId ∧ r.identifierId = identifierId)
      (fun s => { s with subjectIdentifiers := s.subjectIdentifiers ++
        [⟨subjectId, identifierId, identifier.identifierType,
          stableDigest sha256 (.str identifier.value)⟩] })
    insertIdentifiers subjectId identifiers (i + 1)

def addSubject : Query ObjectTables MutationResult := do
  let subjectId ← givenId command env "subjectId" "subject"
  let subjectType ← check (enumValue [.individual, .legalEntity] SubjectType.text
    (field command "subjectType"))
  let _attributes ← check (objectValue ((nullish (field command "attributes")).or (some (.obj [])))
    "attributes")
  let identifiers ← check (subjectIdentifiers (field command "identifiers"))
  let _displayName ← check (optionalString (field command "displayName"))
  insertInto "case_subjects_pkey"
    (fun s : ObjectTables => ∃ r ∈ s.subjects, r.subjectId = subjectId)
    (fun s => { s with subjects := s.subjects ++ [⟨subjectId, subjectType⟩] })
  insertIdentifiers sha256 env subjectId identifiers 0
  return {
    eventType := "subject.created"
    eventSchema := "kyc.subject.created.v1"
    payload := [("subjectId", .str subjectId), ("subjectType", .str subjectType.text),
      ("revision", .nat 1), ("identifierCount", .nat identifiers.length)]
    evidenceRefs := []
    identifiers := [("subjectId", subjectId)]
    nextStatus := none
    lineage := [] }

def linkEvidence : Query ObjectTables MutationResult := do
  let evidenceId ← check (requiredString (field command "evidenceId") "evidenceId")
  let s ← Txn.get
  let evidence ← Txn.getOrThrow (.code "evidence.not_found" 404)
    (s.evidenceObjects.find? fun r => r.evidenceId = evidenceId)
  demand (evidence.verificationStatus = .digestVerified) "evidence.not_verified" 409
  demand (¬ (evidenceRequireScan = true ∧ evidence.scanStatus ≠ .verifiedClean))
    "evidence.scan_required" 409
  let purpose ← check (requiredString (field command "purpose") "purpose")
  -- `on conflict do nothing`
  Txn.modify fun s : ObjectTables =>
    if ∃ r ∈ s.evidenceRefs, r.evidenceId = evidenceId then s
    else { s with evidenceRefs := s.evidenceRefs ++ [⟨evidenceId, purpose, .accepted⟩] }
  return {
    eventType := "evidence.linked"
    eventSchema := "kyc.evidence.linked.v1"
    payload := [("evidenceId", .str evidenceId), ("purpose", .str purpose),
      ("status", .str "ACCEPTED")]
    evidenceRefs := [evidenceId]
    identifiers := [("evidenceId", evidenceId)]
    nextStatus := none
    lineage := [] }

def proposeClaim : Query ObjectTables MutationResult := do
  let claimId ← givenId command env "claimId" "claim"
  let evidenceRefs ← givenRefs command "evidenceRefs" 1
  ensureLinkedEvidence evidenceRefs
  let subjectRef ← check (optionalString (field command "subjectRef"))
  let predicate ← check (requiredString (field command "predicate") "predicate")
  -- Without a value the column is null, which it may not be.
  let value ← Txn.getOrThrow .database (field command "value")
  insertInto "case_claims_pkey" (fun s : ObjectTables => ∃ r ∈ s.claims, r.claimId = claimId)
    (fun s => { s with claims := s.claims ++
      [⟨claimId, subjectRef, predicate, .ofJson value, evidenceRefs, .proposed⟩] })
  return {
    eventType := "claim.proposed"
    eventSchema := "kyc.claim.proposed.v1"
    payload := [("claimId", .str claimId), ("predicate", .str predicate),
      ("subjectRef", nullable subjectRef)]
    evidenceRefs
    identifiers := [("claimId", claimId)]
    nextStatus := none
    lineage := evidenceRefs.map fun evidenceId => ⟨"Evidence", evidenceId, "ASSERTS", "Claim", claimId⟩ }

def acceptClaimAsFact : Query ObjectTables MutationResult := do
  let claimRefs ← check (stringArray (field command "claimRefs") "claimRefs" 1)
  let s ← Txn.get
  let claims := s.claims.filter fun r => r.claimId ∈ claimRefs
  demand (claims.length = claimRefs.length) "claim.not_found" 404
  -- The first row, in the order the database lists them.
  let source ← Txn.getOrThrow .database claims[env.rowOrder % claims.length]?
  let factId ← givenId command env "factId" "fact"
  let subjectRef ← check (optionalString (field command "subjectRef"))
  let predicate ← check (optionalString (field command "predicate"))
  let value := match nullish (field command "value") with
    | some value => Jsonb.ofJson value
    | none => source.value
  let _acceptancePolicyRef ← check (requiredString (field command "acceptancePolicyRef")
    "acceptancePolicyRef")
  let _purpose ← check (requiredString (field command "purpose") "purpose")
  let _validFrom ← check (optionalString (field command "validFrom"))
  let _validTo ← check (optionalString (field command "validTo"))
  insertInto "case_facts_pkey" (fun s : ObjectTables => ∃ r ∈ s.facts, r.factId = factId)
    (fun s => { s with facts := s.facts ++
      [⟨factId, subjectRef.or source.subjectRef, predicate.getD source.predicate, value,
        claimRefs⟩] })
  Txn.modify fun s : ObjectTables => { s with
    claims := s.claims.map fun r => if r.claimId ∈ claimRefs then { r with status := .accepted } else r }
  return {
    eventType := "claim.accepted_as_fact"
    eventSchema := "kyc.claim.accepted_as_fact.v1"
    payload := [("factId", .str factId), ("claimRefs", stringsJson claimRefs),
      ("predicate", .str (predicate.getD source.predicate))]
    evidenceRefs := []
    identifiers := [("factId", factId)]
    nextStatus := none
    lineage := claimRefs.map fun claimId => ⟨"Claim", claimId, "ACCEPTED_AS", "Fact", factId⟩ }

def recordScreeningFinding : Query ObjectTables MutationResult := do
  let evidenceRefs ← givenRefs command "evidenceRefs" 0
  let factRefs ← givenRefs command "factRefs" 0
  demand (evidenceRefs.length + factRefs.length ≠ 0) "finding.basis_required" 400
  ensureLinkedEvidence evidenceRefs
  let findingId ← givenId command env "findingId" "finding"
  let findingType ← check (requiredString (field command "findingType") "findingType")
  let subjectRef ← check (optionalString (field command "subjectRef"))
  let _reason ← check (requiredString (field command "reason") "reason")
  let _policyRelevance ← check (optionalString (field command "policyRelevance"))
  insertInto "case_findings_pkey" (fun s : ObjectTables => ∃ r ∈ s.findings, r.findingId = findingId)
    (fun s => { s with findings := s.findings ++
      [⟨findingId, findingType, subjectRef, evidenceRefs, factRefs⟩] })
  return {
    eventType := "finding.created"
    eventSchema := "kyc.finding.created.v1"
    payload := [("findingId", .str findingId), ("classification", .str findingType),
      ("subjectRef", nullable subjectRef)]
    evidenceRefs
    identifiers := [("findingId", findingId)]
    nextStatus := none
    lineage :=
      evidenceRefs.map (fun evidenceId => ⟨"Evidence", evidenceId, "SUPPORTS", "Finding", findingId⟩) ++
      factRefs.map (fun factId => ⟨"Fact", factId, "SUPPORTS", "Finding", findingId⟩) }

def recordAssumption : Query ObjectTables MutationResult := do
  let assumptionId ← givenId command env "assumptionId" "assumption"
  let _proposition ← check (requiredString (field command "proposition") "proposition")
  let materiality ← check (requiredString (field command "materiality") "materiality")
  let basisRefs ← givenRefs command "basisRefs" 0
  insertInto "case_assumptions_pkey"
    (fun s : ObjectTables => ∃ r ∈ s.assumptions, r.assumptionId = assumptionId)
    (fun s => { s with assumptions := s.assumptions ++ [⟨assumptionId, materiality, basisRefs⟩] })
  return {
    eventType := "assumption.recorded"
    eventSchema := "kyc.assumption.recorded.v1"
    payload := [("assumptionId", .str assumptionId), ("materiality", .str materiality)]
    evidenceRefs := []
    identifiers := [("assumptionId", assumptionId)]
    nextStatus := none
    lineage := [] }

def raiseContradiction : Query ObjectTables MutationResult := do
  let contradictionId ← givenId command env "contradictionId" "contradiction"
  let objectRefs ← check (stringArray (field command "objectRefs") "objectRefs" 2)
  let _description ← check (requiredString (field command "description") "description")
  let materiality ← check (requiredString (field command "materiality") "materiality")
  let _detectionMethod ← check (requiredString (field command "detectionMethod") "detectionMethod")
  insertInto "case_contradictions_pkey"
    (fun s : ObjectTables => ∃ r ∈ s.contradictions, r.contradictionId = contradictionId)
    (fun s => { s with contradictions := s.contradictions ++
      [⟨contradictionId, objectRefs, materiality, .open⟩] })
  return {
    eventType := "contradiction.raised"
    eventSchema := "kyc.contradiction.raised.v1"
    payload := [("contradictionId", .str contradictionId), ("objectRefs", stringsJson objectRefs),
      ("materiality", .str materiality)]
    evidenceRefs := []
    identifiers := [("contradictionId", contradictionId)]
    nextStatus := none
    lineage := [] }

/-- `status in ('OPEN','UNDER_INVESTIGATION')`. -/
def ContradictionRow.IsOpen (r : ContradictionRow) : Prop :=
  r.status = .open ∨ r.status = .underInvestigation

instance (r : ContradictionRow) : Decidable r.IsOpen := by
  unfold ContradictionRow.IsOpen; infer_instance

def resolveContradiction : Query ObjectTables MutationResult := do
  let contradictionId ← check (requiredString (field command "contradictionId") "contradictionId")
  let status ← check (enumValue [.resolved, .acceptedRisk, .superseded] ContradictionStatus.text
    (field command "status"))
  let _resolution ← check (objectValue (field command "resolution") "resolution")
  let s ← Txn.get
  Txn.modify fun s : ObjectTables => { s with
    contradictions := s.contradictions.map fun r =>
      if r.contradictionId = contradictionId ∧ r.IsOpen then { r with status } else r }
  demand ((s.contradictions.filter fun r => r.contradictionId = contradictionId ∧ r.IsOpen).length = 1)
    "contradiction.not_open" 409
  let evidenceRefs ← givenRefs command "evidenceRefs" 0
  return {
    eventType := "contradiction.resolved"
    eventSchema := "kyc.contradiction.resolved.v1"
    payload := [("contradictionId", .str contradictionId), ("status", .str status.text)]
    evidenceRefs
    identifiers := [("contradictionId", contradictionId)]
    nextStatus := none
    lineage := [] }

def proposeWorkItem : Query ObjectTables MutationResult := do
  let workItemId ← givenId command env "workItemId" "work"
  let workType ← check (requiredString (field command "workType") "workType")
  let _priority ← check (optionalString (field command "priority"))
  let _requiredCapability ← check (optionalString (field command "requiredCapability"))
  let _dueAt ← check (optionalString (field command "dueAt"))
  insertInto "case_work_items_pkey"
    (fun s : ObjectTables => ∃ r ∈ s.workItems, r.workItemId = workItemId)
    (fun s => { s with workItems := s.workItems ++ [⟨workItemId, workType, .open, []⟩] })
  return {
    eventType := "work_item.created"
    eventSchema := "harness.work_item.created.v1"
    payload := [("workItemId", .str workItemId), ("workType", .str workType), ("status", .str "OPEN")]
    evidenceRefs := []
    identifiers := [("workItemId", workItemId)]
    nextStatus := none
    lineage := [] }

def completeWorkItem : Query ObjectTables MutationResult := do
  let workItemId ← check (requiredString (field command "workItemId") "workItemId")
  let resultRefs ← givenRefs command "resultRefs" 0
  let s ← Txn.get
  Txn.modify fun s : ObjectTables => { s with
    workItems := s.workItems.map fun r =>
      if r.workItemId = workItemId ∧ r.status = .open then { r with status := .completed, resultRefs }
      else r }
  demand ((s.workItems.filter fun r => r.workItemId = workItemId ∧ r.status = .open).length = 1)
    "work_item.not_open" 409
  return {
    eventType := "work_item.completed"
    eventSchema := "harness.work_item.completed.v1"
    payload := [("workItemId", .str workItemId), ("resultRefs", stringsJson resultRefs)]
    evidenceRefs := []
    identifiers := [("workItemId", workItemId)]
    nextStatus := none
    lineage := [] }

def linkExecution : Query ObjectTables MutationResult := do
  let runId ← check (requiredString (field command "runId") "runId")
  let planDigest ← check (requiredString (field command "planDigest") "planDigest")
  let traceId ← check (optionalString (field command "traceId"))
  let purpose ← check (requiredString (field command "purpose") "purpose")
  -- `on conflict do nothing`
  Txn.modify fun s : ObjectTables =>
    if ∃ r ∈ s.executionRefs, r.runId = runId then s
    else { s with executionRefs := s.executionRefs ++
      [⟨runId, normalizeDigest planDigest, traceId, purpose⟩] }
  return {
    eventType := "execution.linked"
    eventSchema := "harness.execution.linked.v1"
    payload := [("runId", .str runId), ("traceId", nullable traceId), ("purpose", .str purpose)]
    evidenceRefs := []
    identifiers := [("runId", runId)]
    nextStatus := none
    lineage := [] }

def submitDecisionRecommendation : Query ObjectTables MutationResult := do
  let recommendationId ← givenId command env "recommendationId" "recommendation"
  let findingRefs ← givenRefs command "findingRefs" 0
  let evidenceRefs ← givenRefs command "evidenceRefs" 0
  demand (findingRefs.length + evidenceRefs.length ≠ 0) "recommendation.basis_required" 400
  let outcome ← check (enumValue [.approve, .decline, .review] RecommendationOutcome.text
    (field command "outcome"))
  let _rationale ← check (requiredString (field command "rationale") "rationale")
  insertInto "case_decision_recommendations_pkey"
    (fun s : ObjectTables => ∃ r ∈ s.recommendations, r.recommendationId = recommendationId)
    (fun s => { s with recommendations := s.recommendations ++
      [⟨recommendationId, outcome, current.caseSequence, findingRefs, evidenceRefs,
        command.actor⟩] })
  return {
    eventType := "decision.recommendation_submitted"
    eventSchema := "kyc.decision.recommendation_submitted.v1"
    payload := [("recommendationId", .str recommendationId), ("outcome", .str outcome.text),
      ("basedOnSequence", .nat current.caseSequence)]
    evidenceRefs
    identifiers := [("recommendationId", recommendationId)]
    nextStatus := none
    lineage := findingRefs.map fun findingId =>
      ⟨"Finding", findingId, "SUPPORTS", "DecisionRecommendation", recommendationId⟩ }

def recordGateResult : Query ObjectTables MutationResult := do
  let gateResultId ← givenId command env "gateResultId" "gate"
  let recommendationRef ← check (requiredString (field command "recommendationRef")
    "recommendationRef")
  let s ← Txn.get
  demand (∃ r ∈ s.recommendations, r.recommendationId = recommendationRef)
    "recommendation.not_found" 404
  let decision ← check (enumValue [.authorized, .denied] GateDecision.text (field command "decision"))
  let _ruleResults ← check (match field command "ruleResults" with
    | some (.arr items) =>
      if items ≠ [] ∧ ∀ item ∈ items, (record? item).isSome then .ok items else .error (.zod none)
    | _ => .error (.zod none))
  insertInto "case_gate_results_pkey"
    (fun s : ObjectTables => ∃ r ∈ s.gateResults, r.gateResultId = gateResultId)
    (fun s => { s with gateResults := s.gateResults ++
      [⟨gateResultId, recommendationRef, decision, current.caseSequence⟩] })
  return {
    eventType := "decision.gate_recorded"
    eventSchema := "kyc.decision.gate_recorded.v1"
    payload := [("gateResultId", .str gateResultId), ("recommendationRef", .str recommendationRef),
      ("decision", .str decision.text), ("basedOnSequence", .nat current.caseSequence)]
    evidenceRefs := []
    identifiers := [("gateResultId", gateResultId)]
    nextStatus := none
    lineage := [⟨"DecisionRecommendation", recommendationRef, "EVALUATED_BY", "DecisionGateResult",
      gateResultId⟩] }

def recordQAResult : Query ObjectTables MutationResult := do
  let qaResultId ← givenId command env "qaResultId" "qa"
  let recommendationRef ← check (requiredString (field command "recommendationRef")
    "recommendationRef")
  let s ← Txn.get
  let recommendation ← Txn.getOrThrow (.code "recommendation.not_found" 404)
    (s.recommendations.find? fun r => r.recommendationId = recommendationRef)
  demand (recommendation.createdBy.principalId ≠ command.actor.principalId)
    "qa.separation_of_duties_required" 403
  let outcome ← check (enumValue ["PASS", "FAIL", "UNKNOWN", "ERROR"] id (field command "outcome"))
  let _rationale ← check (requiredString (field command "rationale") "rationale")
  let evidenceRefs ← givenRefs command "evidenceRefs" 0
  insertInto "case_reviews_pkey" (fun s : ObjectTables => ∃ r ∈ s.reviews, r.reviewId = qaResultId)
    (fun s => { s with reviews := s.reviews ++
      [⟨qaResultId, "SEMANTIC_QA", outcome, recommendationRef, evidenceRefs, command.actor⟩] })
  return {
    eventType := "qa.result_recorded"
    eventSchema := "kyc.qa.result_recorded.v1"
    payload := [("qaResultId", .str qaResultId), ("recommendationRef", .str recommendationRef),
      ("outcome", .str outcome)]
    evidenceRefs
    identifiers := [("qaResultId", qaResultId)]
    nextStatus := none
    lineage := [] }

def recordReview : Query ObjectTables MutationResult := do
  let reviewId ← givenId command env "reviewId" "review"
  let reviewType ← check (requiredString (field command "reviewType") "reviewType")
  let outcome ← check (requiredString (field command "outcome") "outcome")
  let objectRef ← check (requiredString (field command "objectRef") "objectRef")
  let _rationale ← check (requiredString (field command "rationale") "rationale")
  let viewedEvidenceRefs ← givenRefs command "viewedEvidenceRefs" 0
  insertInto "case_reviews_pkey" (fun s : ObjectTables => ∃ r ∈ s.reviews, r.reviewId = reviewId)
    (fun s => { s with reviews := s.reviews ++
      [⟨reviewId, reviewType, outcome, objectRef, viewedEvidenceRefs, command.actor⟩] })
  return {
    eventType := "review.recorded"
    eventSchema := "kyc.review.recorded.v1"
    payload := [("reviewId", .str reviewId), ("reviewType", .str reviewType),
      ("outcome", .str outcome), ("objectRef", .str objectRef)]
    evidenceRefs := viewedEvidenceRefs
    identifiers := [("reviewId", reviewId)]
    nextStatus := none
    lineage := [] }

def requestHumanReview : Query ObjectTables MutationResult := do
  Txn.require (.humanReview ∈ allowedTransitions current.status)
    (.store "case.transition_not_allowed" 409 (.transition current.status .humanReview))
  let reviewRequestId := env.opaqueId "review_request" 0
  let objectRef ← check (requiredString (field command "objectRef") "objectRef")
  let reason ← check (requiredString (field command "reason") "reason")
  let priority ← check (optionalString (field command "priority"))
  let evidenceRefs ← givenRefs command "evidenceRefs" 0
  return {
    eventType := "human_review.requested"
    eventSchema := "kyc.human_review.requested.v1"
    payload := [("reviewRequestId", .str reviewRequestId), ("objectRef", .str objectRef),
      ("reason", .str reason), ("priority", .str (priority.getD "NORMAL"))]
    evidenceRefs
    identifiers := [("reviewRequestId", reviewRequestId)]
    nextStatus := some .humanReview
    lineage := [] }

def transitionCaseStatus : Query ObjectTables MutationResult := do
  let toStatus ← check (enumValue KycCaseStatus.all KycCaseStatus.text (field command "toStatus"))
  Txn.require (toStatus ∈ allowedTransitions current.status)
    (.store "case.transition_not_allowed" 409 (.transition current.status toStatus))
  demand (¬ (toStatus = .approved ∨ toStatus = .declined)) "case.disposition_command_required" 409
  let reason ← check (requiredString (field command "reason") "reason")
  return {
    eventType := "case.status_transitioned"
    eventSchema := "kyc.case.status_transitioned.v1"
    payload := [("from", .str current.status.text), ("to", .str toStatus.text),
      ("reason", .str reason)]
    evidenceRefs := []
    identifiers := []
    nextStatus := some toStatus
    lineage := [] }

/-- The actor has a KYC role. -/
def HasKycRole (actor : CaseActor) : Prop :=
  ∃ role ∈ actor.roles, role.val = "KYC.Analyst" ∨ role.val = "KYC.SeniorReviewer"

instance (actor : CaseActor) : Decidable (HasKycRole actor) := by
  unfold HasKycRole; infer_instance

/-- An open contradiction of high materiality. -/
def ContradictionRow.BlocksDisposition (r : ContradictionRow) : Prop :=
  r.IsOpen ∧ (r.materiality = "HIGH" ∨ r.materiality = "MATERIAL")

instance (r : ContradictionRow) : Decidable r.BlocksDisposition := by
  unfold ContradictionRow.BlocksDisposition; infer_instance

def finalizeDisposition : Query ObjectTables MutationResult := do
  demand (command.actor.type = .human ∧ HasKycRole command.actor)
    "disposition.human_authority_required" 403
  demand (current.status = .humanReview) "disposition.case_not_under_review" 409
  let recommendationRef ← check (requiredString (field command "recommendationRef")
    "recommendationRef")
  let gateResultRef ← check (requiredString (field command "gateResultRef") "gateResultRef")
  let outcome ← check (enumValue [.approved, .declined] DispositionOutcome.text
    (field command "outcome"))
  let s ← Txn.get
  demand ((s.gateResults.find? fun r => r.gateResultId = gateResultRef).any fun gate =>
      gate.decision = .authorized ∧ gate.recommendationRef = recommendationRef)
    "disposition.gate_not_authorized" 409
  demand (¬ ∃ r ∈ s.contradictions, r.BlocksDisposition) "disposition.material_contradiction_open" 409
  let dispositionId ← givenId command env "dispositionId" "disposition"
  let reviewRef ← check (optionalString (field command "reviewRef"))
  let _rationale ← check (requiredString (field command "rationale") "rationale")
  insertInto "case_final_dispositions_pkey"
    (fun s : ObjectTables => ∃ r ∈ s.dispositions, r.dispositionId = dispositionId)
    (fun s => { s with dispositions := s.dispositions ++
      [⟨dispositionId, outcome, recommendationRef, gateResultRef, reviewRef, command.actor⟩] })
  let evidenceRefs ← givenRefs command "evidenceRefs" 0
  return {
    eventType := "case.dispositioned"
    eventSchema := "kyc.case.dispositioned.v1"
    payload := [("dispositionId", .str dispositionId), ("outcome", .str outcome.text),
      ("recommendationRef", .str recommendationRef), ("gateResultRef", .str gateResultRef),
      ("effectiveAt", .str (nowIso env.timestamp))]
    evidenceRefs
    identifiers := [("dispositionId", dispositionId)]
    nextStatus := some outcome.status
    lineage := [⟨"DecisionGateResult", gateResultRef, "AUTHORIZES", "FinalDisposition",
      dispositionId⟩] }

/-- `applyMutation`. -/
def applyMutation : Query ObjectTables MutationResult := do
  let _classification ← check (optionalString (field command "classification"))
  match command.commandType with
  | .addSubject => addSubject sha256 command env
  | .linkEvidence => linkEvidence evidenceRequireScan command
  | .proposeClaim => proposeClaim command env
  | .acceptClaimAsFact => acceptClaimAsFact command env
  | .recordScreeningFinding => recordScreeningFinding command env
  | .recordAssumption => recordAssumption command env
  | .raiseContradiction => raiseContradiction command env
  | .resolveContradiction => resolveContradiction command
  | .proposeWorkItem => proposeWorkItem command env
  | .completeWorkItem => completeWorkItem command
  | .linkExecution => linkExecution command
  | .submitDecisionRecommendation => submitDecisionRecommendation command current env
  | .recordGateResult => recordGateResult command current env
  | .recordQAResult => recordQAResult command env
  | .recordReview => recordReview command env
  | .requestHumanReview => requestHumanReview command current env
  | .transitionCaseStatus => transitionCaseStatus command current
  | .finalizeDisposition => finalizeDisposition command current env

end

end CaseStore

end HarnessFramework
