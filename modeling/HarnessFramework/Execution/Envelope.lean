import HarnessFramework.Contracts.Plan
import HarnessFramework.Library.Checks
import HarnessFramework.Persistence.RunTable

/-!
# Execution envelopes

`packages/execution-auth` and `apps/control-api/src/envelope-broker.ts`. A signature is as good as the
claims under it: what verifies was signed with the same claims before, so tokens are their claims
here, and who has which token is up to the systems that use this module.

## Main definitions

* `mintExecutionEnvelope`, `EnvelopeExpired` — the claims of an envelope, and when they have expired
* `declaredCaseWrites`, `issueExecutionEnvelope` — the envelope broker

## Main results

* `issueExecutionEnvelope_issuedFor` — what an envelope is issued for
* `issueExecutionEnvelope_ok` — what an issued envelope says about its run
-/

namespace HarnessFramework

namespace Execution

open Persistence Checks

/-- The second of a time, as `jose` reads the clock. -/
def epochSeconds (now : Time) : ℤ := ⌊now⌋

/-- The input of `mintExecutionEnvelope`. -/
structure MintEnvelopeInput where
  invocationId : String
  runId : String
  nodeId : String
  attempt : ℕ
  planDigest : String
  permissionDigest : String
  capabilities : List String
  effects : List EffectClass
  caseWrites : List BusinessCommandType
  fencingEpoch : ℕ
  ttlSeconds : Option ℤ

/-- `mintExecutionEnvelope`. -/
def mintExecutionEnvelope (now : Time) (input : MintEnvelopeInput) : ExecutionEnvelopeClaims :=
  let ttl := min 120 (max 5 (input.ttlSeconds.getD 60))
  { jti := input.invocationId
    runId := input.runId
    nodeId := input.nodeId
    attempt := input.attempt
    planDigest := input.planDigest
    permissionDigest := input.permissionDigest
    capabilities := input.capabilities
    effects := input.effects
    caseWrites := input.caseWrites
    fencingEpoch := input.fencingEpoch
    iat := epochSeconds now
    exp := epochSeconds now + ttl }

/-- The envelope has expired: `jwtVerify` refuses it, with a tolerance of two seconds. -/
def EnvelopeExpired (now : Time) (claims : ExecutionEnvelopeClaims) : Prop :=
  claims.exp ≤ epochSeconds now - 2

instance (now : Time) : DecidablePred (EnvelopeExpired now) := fun claims => by
  unfold EnvelopeExpired; infer_instance

/-! ## The broker -/

/-- `businessCommandTypeSchema.safeParse`. -/
def businessCommandType? (value : Option Json) : Option BusinessCommandType :=
  match value with
  | some (.str text) => BusinessCommandType.all.find? fun type => type.text = text
  | _ => none

/-- The member `key` of an object. -/
def member? (key : String) : Json → Option Json
  | .obj members => lastMember key members
  | _ => none

/-- The elements of the array under a key of a node's config. -/
def configArray (node : GraphNode) (key : String) : List Json :=
  match lastMember key node.config with
  | some (.arr items) => items
  | _ => []

/-- `declaredCaseWrites`: the command types that a node may submit. -/
def declaredCaseWrites (plan : HarnessPlan) (nodeId : String) : List BusinessCommandType :=
  let writes := match plan.nodes.find? fun node => node.id = nodeId with
    | some node => configArray node "caseWrites"
    | none => []
  (writes.filterMap fun entry => businessCommandType? (member? "commandType" entry)).eraseDups

/-- `EnvelopeBrokerError`. -/
structure EnvelopeBrokerError where
  code : String
  httpStatus : ℕ
deriving DecidableEq, Repr

/-- An `EnvelopeBrokerError`, with 403 as its status. -/
def brokerError (code : String) : EnvelopeBrokerError := ⟨code, 403⟩

/-- `issueExecutionEnvelope`, for a grant that verifies. The row of the run is read before its epoch;
its plan does not change, and the epoch is read of a running run only, so one table is enough. -/
def issueExecutionEnvelope (plans : List HarnessPlan) (envelopeTtlSeconds : Option ℤ) (now : Time)
    (rows : List RunRow) (grant : RuntimeGrantClaims) (request : EnvelopeRequest) :
    Except EnvelopeBrokerError ExecutionEnvelopeClaims := do
  ensure (grant.runId = request.runId) (brokerError "broker.run_mismatch")
  ensure (grant.attempt = request.attempt) (brokerError "broker.attempt_mismatch")
  let run ← orThrow ⟨"broker.run_not_found", 404⟩ (rows.find? fun r => r.runId = request.runId)
  ensure (run.status = .running) (brokerError "broker.run_not_running")
  ensure (run.planDigest = grant.planDigest) (brokerError "broker.plan_mismatch")
  let epoch ← orThrow (brokerError "broker.stale_fence") (currentFencingEpoch request.runId rows)
  ensure (epoch = grant.fencingEpoch) (brokerError "broker.stale_fence")
  let plan ← orThrow ⟨"broker.plan_not_admitted", 404⟩ (getPlan plans run.planDigest)
  let permission ← orThrow (brokerError "broker.node_not_permitted")
    (plan.permissionEnvelopes.find? fun item => item.nodeId = request.nodeId)
  pure <| mintExecutionEnvelope now
    { invocationId := request.invocationId
      runId := request.runId
      nodeId := request.nodeId
      attempt := request.attempt
      planDigest := plan.planDigest
      permissionDigest := permission.digest
      capabilities := permission.capabilities
      effects := permission.effects
      caseWrites := declaredCaseWrites plan request.nodeId
      fencingEpoch := epoch
      ttlSeconds := some (envelopeTtlSeconds.getD 60) }

/-- What an envelope was issued for: a node of an admitted plan, with what the plan permits and declares
there. -/
structure IssuedFor (plans : List HarnessPlan) (claims : ExecutionEnvelopeClaims) (plan : HarnessPlan)
    (permission : PermissionEnvelope) : Prop where
  admitted : getPlan plans claims.planDigest = some plan
  permitted : plan.permissionEnvelopes.find? (fun item => item.nodeId = claims.nodeId) = some permission
  digest : claims.permissionDigest = permission.digest
  capabilities : claims.capabilities = permission.capabilities
  effects : claims.effects = permission.effects
  caseWrites : claims.caseWrites = declaredCaseWrites plan claims.nodeId

/-- **What an envelope is issued for.** -/
theorem issueExecutionEnvelope_issuedFor {plans : List HarnessPlan} {ttl : Option ℤ} {now : Time}
    {rows : List RunRow} {grant : RuntimeGrantClaims} {request : EnvelopeRequest}
    {claims : ExecutionEnvelopeClaims}
    (h : issueExecutionEnvelope plans ttl now rows grant request = .ok claims) :
    ∃ plan permission, IssuedFor plans claims plan permission := by
  simp only [issueExecutionEnvelope, ensure_bind_eq_ok, orThrow_bind_eq_ok, pure_eq_ok] at h
  obtain ⟨-, -, run, hrun, -, -, epoch, hepoch, -, plan, hplan, permission, hpermission, rfl⟩ := h
  have hdigest : plan.planDigest = run.planDigest := planDigest_of_getPlan hplan
  exact ⟨plan, permission, (congrArg _ hdigest).trans hplan, hpermission, rfl, rfl, rfl, rfl⟩

/-- **What an issued envelope says about its run.** -/
theorem issueExecutionEnvelope_ok {plans : List HarnessPlan} {ttl : Option ℤ} {now : Time}
    {rows : List RunRow} {grant : RuntimeGrantClaims} {request : EnvelopeRequest}
    {claims : ExecutionEnvelopeClaims}
    (h : issueExecutionEnvelope plans ttl now rows grant request = .ok claims) :
    (∃ r ∈ rows, r.runId = claims.runId ∧ r.planDigest = claims.planDigest) ∧
      currentFencingEpoch claims.runId rows = some claims.fencingEpoch := by
  simp only [issueExecutionEnvelope, ensure_bind_eq_ok, orThrow_bind_eq_ok, pure_eq_ok] at h
  obtain ⟨-, -, run, hrun, -, -, epoch, hepoch, -, plan, hplan, permission, -, rfl⟩ := h
  have hid : run.runId = request.runId := by simpa using List.find?_some hrun
  exact ⟨⟨run, List.mem_of_find?_eq_some hrun, hid, (planDigest_of_getPlan hplan).symm⟩, hepoch⟩

end Execution

end HarnessFramework
