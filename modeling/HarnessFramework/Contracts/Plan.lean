import HarnessFramework.Contracts.Case
import Mathlib.Data.Rat.Floor

/-!
# Plans, envelopes and capability requests

The contracts of `packages/contracts/src/index.ts` that the envelope broker, the capability gateway,
the case API and the runtime share. Members that none of them reads are left out.

## Main definitions

* `HarnessPlan` — budgets, capabilities, permission envelopes and graph nodes
* `ExecutionEnvelopeClaims`, `RuntimeGrantClaims` — what is signed
* `CapabilityRequest`, `CapabilityResult` — what the gateway takes and returns
* `getPlan` — the plan under a digest
-/

namespace HarnessFramework

/-- `effectClassSchema`. -/
inductive EffectClass
  | none
  | read
  | reversible
  | paid
  | external
  | destructive
deriving DecidableEq, Repr

/-- The text of an effect class. -/
def EffectClass.text : EffectClass → String
  | .none => "none"
  | read => "read"
  | reversible => "reversible"
  | paid => "paid"
  | external => "external"
  | destructive => "destructive"

/-- `capabilityKindSchema`. -/
inductive CapabilityKind
  | model
  | tool
  | deterministic
deriving DecidableEq, Repr

/-- `capabilityDefinitionSchema`. -/
structure CapabilityDefinition where
  id : String
  kind : CapabilityKind
  effect : EffectClass
deriving DecidableEq

/-- `permissionEnvelopeSchema`. -/
structure PermissionEnvelope where
  nodeId : String
  capabilities : List String
  effects : List EffectClass
  digest : String
deriving DecidableEq

/-- The budgets of a plan. -/
structure PlanBudgets where
  maxCapabilityCalls : ℕ
  maxModelCalls : ℕ
  maxCostUsd : ℚ
deriving DecidableEq

/-- `graphNodeSchema`. -/
structure GraphNode where
  id : String
  config : List (String × Json)
deriving DecidableEq

/-- `harnessPlanSchema`. -/
structure HarnessPlan where
  planDigest : String
  budgets : PlanBudgets
  capabilities : List CapabilityDefinition
  permissionEnvelopes : List PermissionEnvelope
  nodes : List GraphNode
deriving DecidableEq

/-- `getPlan` without a tenant: the admitted plan under a digest. -/
def getPlan (plans : List HarnessPlan) (digest : String) : Option HarnessPlan :=
  plans.find? fun plan => plan.planDigest = digest

theorem planDigest_of_getPlan {plans : List HarnessPlan} {digest : String} {plan : HarnessPlan}
    (h : getPlan plans digest = some plan) : plan.planDigest = digest := by
  simpa using List.find?_some h

/-- `executionEnvelopeClaimsSchema`, with times in seconds. -/
structure ExecutionEnvelopeClaims where
  jti : String
  runId : String
  nodeId : String
  attempt : ℕ
  planDigest : String
  permissionDigest : String
  capabilities : List String
  effects : List EffectClass
  caseWrites : List BusinessCommandType
  fencingEpoch : ℕ
  iat : ℤ
  exp : ℤ
deriving DecidableEq

/-- `runtimeGrantClaimsSchema`. -/
structure RuntimeGrantClaims where
  runId : String
  attempt : ℕ
  workerId : String
  planDigest : String
  fencingEpoch : ℕ
deriving DecidableEq

/-- `envelopeRequestSchema`. -/
structure EnvelopeRequest where
  runId : String
  nodeId : String
  attempt : ℕ
  invocationId : String
deriving DecidableEq

/-- `capabilityRequestSchema`. -/
structure CapabilityRequest where
  invocationId : String
  capabilityId : String
  effect : EffectClass
  input : Option Json
deriving DecidableEq

/-- The request as JSON. -/
def CapabilityRequest.toJson (request : CapabilityRequest) : Json := .obj <|
  [("invocationId", .str request.invocationId), ("capabilityId", .str request.capabilityId),
    ("effect", .str request.effect.text)] ++ optionalMember "input" request.input

/-- The numbers that a provider reports. -/
structure CapabilityUsage where
  inputTokens : Option ℕ
  outputTokens : Option ℕ
  costUsd : Option JsonNumber
deriving DecidableEq

/-- A value or `null`. -/
def nullableJson : Option Json → Json
  | none => .null
  | some value => value

/-- The usage as JSON. -/
def CapabilityUsage.toJson (usage : CapabilityUsage) : Json := .obj
  [("inputTokens", nullableJson (usage.inputTokens.map Json.nat)),
    ("outputTokens", nullableJson (usage.outputTokens.map Json.nat)),
    ("costUsd", nullableJson (usage.costUsd.map Json.num))]

/-- What an adapter returns. -/
structure AdapterResponse where
  output : Json
  provider : String
  model : String
  providerRequestId : Option String
  usage : CapabilityUsage
deriving DecidableEq

/-- A `capabilityResultSchema` that the gateway makes: it has succeeded. -/
structure CapabilityResult where
  invocationId : String
  capabilityId : String
  response : AdapterResponse
  latencyMs : ℕ
deriving DecidableEq

/-- The members of a result before its receipt digest. -/
def CapabilityResult.unsigned (result : CapabilityResult) : List (String × Json) :=
  [("invocationId", .str result.invocationId), ("capabilityId", .str result.capabilityId),
    ("status", .str "succeeded"), ("output", result.response.output), ("errorCode", .null),
    ("provider", .str result.response.provider),
    ("model", .str result.response.model),
    ("providerRequestId", nullableJson (result.response.providerRequestId.map Json.str)),
    ("usage", result.response.usage.toJson), ("latencyMs", .nat result.latencyMs)]

/-- The digest of a result. -/
def CapabilityResult.receiptDigest (sha256 : List Char → String) (result : CapabilityResult) :
    String := stableDigest sha256 (.obj result.unsigned)

/-- The result as JSON. -/
def CapabilityResult.toJson (sha256 : List Char → String) (result : CapabilityResult) : Json :=
  .obj (result.unsigned ++ [("receiptDigest", .str (result.receiptDigest sha256))])

end HarnessFramework
