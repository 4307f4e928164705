import HarnessFramework.Execution.Envelope
import HarnessFramework.Persistence.RunLifecycle

/-!
# Invoking a capability

`POST /v1/invoke` of `apps/capability-gateway/src/app.ts`, with the receipts of
`packages/persistence/src/index.ts`. A request is a sequence of round trips to the database and to a
provider, and may stop between any two of them; requests, the statements of runs and the broker
interleave. Requests without a valid envelope end before the first round trip and are left out.

## Main definitions

* `ReceiptRow`, `reserveGatewayReceipt`, `existingGatewayReceipt`, `completeGatewayReceipt`,
  `abandonGatewayReceipt`
* `checkInvocation`, `resolveCapability` — the checks of a request
* `Phase`, `Event`, `Request.step` — a request, one round trip at a time
* `State`, `Action`, `State.act`, `State.Reachable` — requests side by side
-/

namespace HarnessFramework

namespace Gateway

open Persistence Execution Checks

/-! ## Receipts -/

/-- A row of `harness_gateway.receipts`, and the request that reserved it. -/
structure ReceiptRow where
  invocationId : String
  runId : String
  tenantId : String
  nodeId : String
  attempt : ℕ
  fencingEpoch : ℕ
  planDigest : String
  permissionDigest : String
  capabilityId : String
  effect : EffectClass
  decision : String
  reasonCode : String
  requestDigest : String
  result : Option Jsonb
  receiptDigest : Option String
  completedAt : Option Time
  reservedBy : ℕ
deriving DecidableEq

/-- The tables that requests work on. -/
structure Tables where
  runs : List RunRow
  receipts : List ReceiptRow
deriving DecidableEq

/-- The budget that a reservation is checked against. -/
structure ReservationBudget where
  modelCall : Bool
  maxCapabilityCalls : ℕ
  maxModelCalls : ℕ
  maxCostUsd : ℚ

/-- The guard of the budget statement. -/
def ReservationBudget.Allows (budget : ReservationBudget) (runId : String) (r : RunRow) : Prop :=
  r.runId = runId ∧ r.capabilityCalls < budget.maxCapabilityCalls ∧
    (budget.modelCall = false ∨ r.modelCalls < budget.maxModelCalls) ∧ r.costUsd < budget.maxCostUsd

instance (budget : ReservationBudget) (runId : String) : DecidablePred (budget.Allows runId) :=
  fun r => by unfold ReservationBudget.Allows; infer_instance

/-- The row after the budget statement. -/
def spend (now : Time) (modelCall : Bool) (r : RunRow) : RunRow :=
  { r with
    capabilityCalls := r.capabilityCalls + 1
    modelCalls := r.modelCalls + if modelCall then 1 else 0
    updatedAt := now }

/-- `reserveGatewayReceipt` up to its end, or to the conflict: a receipt without a result and a unit of
budget in one transaction. No row is inserted when there is one with the id, or no run. -/
def reserveGatewayReceipt (now : Time) (row : ReceiptRow) (budget : ReservationBudget) (t : Tables) :
    Except String Bool × Tables :=
  match t.runs.find? fun r => r.runId = row.runId with
  | none => (.ok false, t)
  | some run =>
    if ∃ other ∈ t.receipts, other.invocationId = row.invocationId then (.ok false, t)
    else if rowCount (budget.Allows row.runId) t.runs = 1 then
      (.ok true,
        { runs := updateWhere (budget.Allows row.runId) (spend now budget.modelCall) t.runs
          receipts := t.receipts ++ [{ row with tenantId := run.tenantId }] })
    else (.error "gateway.budget_denied", t)

/-- `reserveGatewayReceipt` after a conflict: the result of the receipt that is there. Others may have
committed since the conflict. -/
def existingGatewayReceipt (row : ReceiptRow) (rows : List ReceiptRow) : Except String (Option Jsonb) :=
  match rows.find? fun other => other.invocationId = row.invocationId ∧ other.runId = row.runId with
  | none => .error "gateway.idempotency_conflict"
  | some other =>
    if other.requestDigest = row.requestDigest then .ok other.result
    else .error "gateway.idempotency_conflict"

/-- The receipt with the result of its request. -/
def ReceiptRow.complete (sha256 : List Char → String) (now : Time) (result : CapabilityResult)
    (row : ReceiptRow) : ReceiptRow :=
  { row with
    result := some (.ofJson (result.toJson sha256))
    receiptDigest := some (result.receiptDigest sha256)
    completedAt := some now }

/-- `completeGatewayReceipt`. -/
def completeGatewayReceipt (sha256 : List Char → String) (now : Time) (runId : String)
    (result : CapabilityResult) (rows : List ReceiptRow) : List ReceiptRow :=
  updateWhere (fun row => row.invocationId = result.invocationId ∧ row.runId = runId)
    (ReceiptRow.complete sha256 now result) rows

/-- `abandonGatewayReceipt`. -/
def abandonGatewayReceipt (runId invocationId : String) (rows : List ReceiptRow) : List ReceiptRow :=
  rows.filter fun row => ¬ (row.invocationId = invocationId ∧ row.runId = runId ∧ row.result = none)

/-- A value as a column `numeric(18,8)` stores it: eight decimals, halves away from zero. -/
def toNumeric (x : ℚ) : ℚ := (if x < 0 then -1 else 1) * ⌊|x| * 10 ^ 8 + 1 / 2⌋ / 10 ^ 8

/-- The row after a cost was added. -/
def addCost (now : Time) (costUsd : Option ℚ) (r : RunRow) : RunRow :=
  { r with
    costUsd := toNumeric (r.costUsd + costUsd.getD 0)
    costComplete := r.costComplete && costUsd.isSome
    updatedAt := now }

/-- The new cost of a run has too many digits for its column. -/
def CostOverflows (runId : String) (costUsd : Option ℚ) (rows : List RunRow) : Prop :=
  ∃ r ∈ rows, r.runId = runId ∧ 10 ^ 10 ≤ |toNumeric (r.costUsd + costUsd.getD 0)|

instance (runId : String) (costUsd : Option ℚ) (rows : List RunRow) :
    Decidable (CostOverflows runId costUsd rows) := by unfold CostOverflows; infer_instance

/-- `recordCapabilityCost`, where the cost fits its column. -/
def recordCapabilityCost (now : Time) (runId : String) (costUsd : Option ℚ) (rows : List RunRow) :
    List RunRow :=
  updateWhere (fun r => r.runId = runId) (addCost now costUsd) rows

/-! ## The checks of a request -/

/-- The checks on the envelope alone. -/
def checkInvocation (claims : ExecutionEnvelopeClaims) (invocation : CapabilityRequest) :
    Except String Unit := do
  ensure (claims.jti = invocation.invocationId) "gateway.invocation_mismatch"
  ensure (invocation.capabilityId ∈ claims.capabilities) "gateway.capability_denied"
  ensure (invocation.effect ∈ claims.effects) "gateway.effect_denied"

/-- The checks on the plan, which find the capability. -/
def resolveCapability (plan : HarnessPlan) (claims : ExecutionEnvelopeClaims)
    (invocation : CapabilityRequest) : Except String CapabilityDefinition := do
  let permission ← orThrow "gateway.permission_mismatch"
    (plan.permissionEnvelopes.find? fun item => item.nodeId = claims.nodeId)
  let resolved := plan.capabilities.find? fun item => item.id = invocation.capabilityId
  ensure (permission.digest = claims.permissionDigest) "gateway.permission_mismatch"
  ensure (invocation.capabilityId ∈ permission.capabilities) "gateway.capability_denied"
  ensure (invocation.effect ∈ permission.effects) "gateway.effect_denied"
  let capability ← orThrow "gateway.capability_contract_mismatch" resolved
  ensure (capability.effect = invocation.effect) "gateway.capability_contract_mismatch"
  return capability

/-! ## A request -/

/-- What a request is answered. -/
inductive Response
  | result (value : Jsonb)
  | inProgress
  | error (code : String)
deriving DecidableEq

/-- How far a request is. -/
inductive Phase
  /-- The envelope allows the invocation. -/
  | received
  /-- The epoch of the envelope was the current one. -/
  | fenced
  /-- The plan allows the invocation. -/
  | planned (plan : HarnessPlan) (capability : CapabilityDefinition)
  /-- The run exists. -/
  | admitted (plan : HarnessPlan) (capability : CapabilityDefinition)
  /-- There is a receipt with the id of the invocation, or no run. -/
  | conflicting
  /-- A receipt is reserved. -/
  | reserved
  /-- The provider is executing. -/
  | invoking
  /-- The provider has returned. -/
  | returned (response : AdapterResponse)
  /-- The result is stored. -/
  | completed (result : CapabilityResult)
  /-- The provider did not return. -/
  | failing (code : String)
  | answered (response : Response)
  /-- The process or its connection died. -/
  | crashed
deriving DecidableEq

structure Request where
  claims : ExecutionEnvelopeClaims
  invocation : CapabilityRequest
  phase : Phase
deriving DecidableEq

/-- A round trip of a request, what the provider does, or the end of the process. -/
inductive Event
  | readEpoch
  | readPlan
  | readRun
  | reserve
  | readReceipt
  | invoke
  | return (response : AdapterResponse)
  | throw (code : String)
  | complete (latencyMs : ℕ)
  | recordCost
  | abandon
  | crash
deriving DecidableEq

/-- The receipt that a request reserves. -/
def Request.receipt (sha256 : List Char → String) (q : Request) (id : ℕ) : ReceiptRow where
  invocationId := q.invocation.invocationId
  runId := q.claims.runId
  tenantId := ""
  nodeId := q.claims.nodeId
  attempt := q.claims.attempt
  fencingEpoch := q.claims.fencingEpoch
  planDigest := q.claims.planDigest
  permissionDigest := q.claims.permissionDigest
  capabilityId := q.invocation.capabilityId
  effect := q.invocation.effect
  decision := "allowed"
  reasonCode := "permission.envelope_allowed"
  requestDigest := stableDigest sha256 q.invocation.toJson
  result := none
  receiptDigest := none
  completedAt := none
  reservedBy := id

/-- The budget of a plan for a call of a capability. -/
def reservationBudget (plan : HarnessPlan) (capability : CapabilityDefinition) : ReservationBudget where
  modelCall := capability.kind = .model
  maxCapabilityCalls := plan.budgets.maxCapabilityCalls
  maxModelCalls := plan.budgets.maxModelCalls
  maxCostUsd := plan.budgets.maxCostUsd

/-- The result that a request makes of the provider's response. -/
def Request.result (q : Request) (response : AdapterResponse) (latencyMs : ℕ) : CapabilityResult :=
  ⟨q.invocation.invocationId, q.invocation.capabilityId, response, latencyMs⟩

/-- The phase of a request that came in. -/
def arrival (claims : ExecutionEnvelopeClaims) (invocation : CapabilityRequest) : Phase :=
  match checkInvocation claims invocation with
  | .ok _ => .received
  | .error code => .answered (.error code)

/-- A request is not over. -/
def Phase.Live : Phase → Prop
  | .answered _ | .crashed => False
  | _ => True

instance : DecidablePred Phase.Live := fun phase => by
  unfold Phase.Live
  split <;> infer_instance

section

variable (plans : List HarnessPlan) (sha256 : List Char → String)

/-- An event of the request `id`: its next phase, and the tables after it. -/
def Request.step (now : Time) (id : ℕ) (q : Request) (t : Tables) : Event → Option (Phase × Tables)
  | .readEpoch => match q.phase with
    | .received =>
      if currentFencingEpoch q.claims.runId t.runs = some q.claims.fencingEpoch then
        some (.fenced, t)
      else some (.answered (.error "gateway.stale_fence"), t)
    | _ => none
  | .readPlan => match q.phase with
    | .fenced => match getPlan plans q.claims.planDigest with
      | none => some (.answered (.error "gateway.plan_not_admitted"), t)
      | some plan => match resolveCapability plan q.claims q.invocation with
        | .ok capability => some (.planned plan capability, t)
        | .error code => some (.answered (.error code), t)
    | _ => none
  | .readRun => match q.phase with
    | .planned plan capability =>
      if ∃ r ∈ t.runs, r.runId = q.claims.runId then some (.admitted plan capability, t)
      else some (.answered (.error "gateway.run_not_found"), t)
    | _ => none
  | .reserve => match q.phase with
    | .admitted plan capability =>
      match reserveGatewayReceipt now (q.receipt sha256 id) (reservationBudget plan capability) t with
      | (.ok true, t') => some (.reserved, t')
      | (.ok false, t') => some (.conflicting, t')
      | (.error code, t') => some (.answered (.error code), t')
    | _ => none
  | .readReceipt => match q.phase with
    | .conflicting => match existingGatewayReceipt (q.receipt sha256 id) t.receipts with
      | .ok (some value) => some (.answered (.result value), t)
      | .ok none => some (.answered .inProgress, t)
      | .error code => some (.answered (.error code), t)
    | _ => none
  | .invoke => match q.phase with
    | .reserved => some (.invoking, t)
    | _ => none
  | .return response => match q.phase with
    | .invoking => some (.returned response, t)
    | _ => none
  | .throw code => match q.phase with
    | .reserved | .invoking => some (.failing code, t)
    | _ => none
  | .complete latencyMs => match q.phase with
    | .returned response =>
      let result := q.result response latencyMs
      some (.completed result,
        { t with receipts := completeGatewayReceipt sha256 now q.claims.runId result t.receipts })
    | _ => none
  | .recordCost => match q.phase with
    | .completed result =>
      let costUsd := result.response.usage.costUsd.map JsonNumber.toRat
      if CostOverflows q.claims.runId costUsd t.runs then
        some (.answered (.error "numeric field overflow"), t)
      else
        some (.answered (.result (.ofJson (result.toJson sha256))),
          { t with runs := recordCapabilityCost now q.claims.runId costUsd t.runs })
    | _ => none
  | .abandon => match q.phase with
    | .failing code =>
      let invocationId := q.invocation.invocationId
      some (.answered (.error code),
        { t with receipts := abandonGatewayReceipt q.claims.runId invocationId t.receipts })
    | _ => none
  | .crash => if q.phase.Live then some (.crashed, t) else none

end

/-! ## Requests side by side -/

/-- The status and the epoch of a run. -/
def fenceOf (runId : String) (rows : List RunRow) : Option (RunStatus × ℕ) :=
  (rows.find? fun r => r.runId = runId).map fun r => (r.status, r.fencingEpoch)

/-- A receipt was reserved: the request, what its envelope says, the fence of the run at that moment,
and whether it had moved since the request read the epoch. -/
structure Reservation where
  id : ℕ
  runId : String
  fencingEpoch : ℕ
  modelCall : Bool
  fence : Option (RunStatus × ℕ)
  moved : Bool
deriving DecidableEq

/-- Runs, envelopes, receipts and requests. The last three members record what happened: whether the
fence of its run moved since a request read the epoch, the reservations, and the requests that
executed a provider. -/
structure State extends RunSystem where
  envelopes : List ExecutionEnvelopeClaims
  receipts : List ReceiptRow
  requests : ℕ → Option Request
  moved : ℕ → Bool
  reservations : List Reservation
  executions : List ℕ

/-- What can happen. -/
inductive Action
  | run (op : RunOp) (now : Time)
  | advance (clock : Time)
  | issue (grant : RuntimeGrantClaims) (request : EnvelopeRequest)
  | receive (id : ℕ) (claims : ExecutionEnvelopeClaims) (invocation : CapabilityRequest)
  | request (id : ℕ) (event : Event)

namespace State

/-- The fence of the run of a request is not what it was. -/
def fenceMoves (s : State) (runs : List RunRow) (id : ℕ) : Bool :=
  match s.requests id with
  | some q => fenceOf q.claims.runId s.runs ≠ fenceOf q.claims.runId runs
  | none => false

/-- The reservation of a request in the phase `phase`. -/
def reservation (s : State) (id : ℕ) (q : Request) (phase : Phase) : List Reservation :=
  match q.phase, phase with
  | .admitted _ capability, .reserved =>
    [⟨id, q.claims.runId, q.claims.fencingEpoch, capability.kind = .model,
      fenceOf q.claims.runId s.runs, s.moved id⟩]
  | _, _ => []

/-- The state after the request `id`, so far `q`, came to the phase `phase` with the tables `t`. -/
def progress (s : State) (id : ℕ) (q : Request) (event : Event) (phase : Phase) (t : Tables) : State :=
  { s with
    runs := t.runs
    receipts := t.receipts
    requests := Function.update s.requests id (some { q with phase })
    moved := if event = .readEpoch then Function.update s.moved id false else s.moved
    reservations := s.reservations ++ s.reservation id q phase
    executions := if event = .invoke then s.executions ++ [id] else s.executions }

variable (plans : List HarnessPlan) (sha256 : List Char → String) (ttl : Option ℤ)

/-- The state after a statement on runs. -/
def ran (s : State) (now : Time) (op : RunOp) : State :=
  { s with
    toRunSystem := s.toRunSystem.after sha256 now op
    moved := fun id => s.moved id || s.fenceMoves (op.exec sha256 now s.runs) id }

/-- The state after a request came in. -/
def received (s : State) (id : ℕ) (claims : ExecutionEnvelopeClaims) (invocation : CapabilityRequest) :
    State :=
  let phase := arrival claims invocation
  { s with requests := Function.update s.requests id (some ⟨claims, invocation, phase⟩) }

/-- The state after an action, if it can happen. -/
def act (s : State) : Action → Option State
  | .run op now =>
    if now ≤ s.clock ∧ ∀ l ∈ op.lease?, l ∈ s.issued then some (s.ran sha256 now op) else none
  | .advance clock => if s.clock ≤ clock then some { s with clock } else none
  | .issue grant request => match issueExecutionEnvelope plans ttl s.clock s.runs grant request with
    | .ok claims => some { s with envelopes := s.envelopes ++ [claims] }
    | .error _ => none
  | .receive id claims invocation =>
    if s.requests id = none ∧ claims ∈ s.envelopes ∧ ¬ EnvelopeExpired s.clock claims then
      some (s.received id claims invocation)
    else none
  | .request id event => match s.requests id with
    | none => none
    | some q => (q.step plans sha256 s.clock id ⟨s.runs, s.receipts⟩ event).map fun next =>
      s.progress id q event next.1 next.2

/-- Something happens. -/
def Step (s s' : State) : Prop := ∃ action, s.act plans sha256 ttl action = some s'

/-- Steps that follow one another. -/
abbrev Steps : State → State → Prop := Relation.ReflTransGen (Step plans sha256 ttl)

/-- No run and no request, at some time. -/
def start (clock : Time) : State := ⟨RunSystem.start clock, [], [], fun _ => none, fun _ => false, [], []⟩

/-- The states that steps reach. -/
def Reachable (s : State) : Prop := ∃ clock, Steps plans sha256 ttl (start clock) s

end State

end Gateway

end HarnessFramework
