import HarnessFramework.Contracts.Canonical
import HarnessFramework.Library.Table
import Mathlib.Data.List.Sort
import Mathlib.Data.Rat.Defs
import Mathlib.Algebra.Order.Ring.Rat

/-!
# The run table

The statements of `packages/persistence/src/index.ts` on `harness_runtime.runs`. Each is one
transaction: a single statement, or a row lock and a statement under it. `now()` is the start of the
transaction, so it is an argument.

## Main definitions

* `RunStatus`, `RunRow` — a row of `harness_runtime.runs`
* `claimable`, `exhausted`, `abandoned` — the `where` clauses of the sweepers
* `createRun` … `completeRun` — the statements
-/

namespace HarnessFramework

namespace Persistence

/-- A time, in seconds. -/
abbrev Time : Type := ℚ

inductive RunStatus
  | queued
  | running
  | retrying
  | completed
  | manualReview
  | denied
  | failed
  | cancelled
deriving DecidableEq, Repr

/-- The text of a status. -/
def RunStatus.text : RunStatus → String
  | queued => "queued"
  | running => "running"
  | retrying => "retrying"
  | completed => "completed"
  | manualReview => "manual_review"
  | denied => "denied"
  | failed => "failed"
  | cancelled => "cancelled"

/-- A run with the status is over. -/
def RunStatus.Terminal : RunStatus → Prop
  | queued | running | retrying => False
  | _ => True

instance : DecidablePred RunStatus.Terminal := fun status => by
  unfold RunStatus.Terminal
  split <;> infer_instance

/-- A row of `harness_runtime.runs`. -/
structure RunRow where
  runId : String
  idempotencyKey : String
  planDigest : String
  tenantId : String
  requestDigest : String
  status : RunStatus
  terminalOutcome : Option String
  input : Jsonb
  output : Option Jsonb
  attempt : ℕ
  attemptLimit : ℕ
  fencingEpoch : ℕ
  leaseOwner : Option String
  leaseExpiresAt : Option Time
  availableAt : Option Time
  latestCheckpointId : Option String
  currentNodeId : Option String
  errorCode : Option String
  cancellationRequestedAt : Option Time
  cancellationReason : Option String
  costUsd : ℚ
  costComplete : Bool
  modelCalls : ℕ
  capabilityCalls : ℕ
  createdAt : Time
  startedAt : Option Time
  completedAt : Option Time
  updatedAt : Time
deriving DecidableEq

/-- What a statement on runs throws. -/
inductive RunFailure
  /-- An `Error` with a code. -/
  | code (code : String)
  /-- The database error 23505. -/
  | unique (constraint : String)
deriving DecidableEq, Repr

/-! ## Creating a run -/

section

variable (sha256 : List Char → String) (now : Time)

/-- The input of `createRun`. -/
structure CreateRunInput where
  planDigest : String
  runInput : Json
  idempotencyKey : String
  tenantId : String

/-- `stableDigest({ planDigest, input })`. -/
def CreateRunInput.requestDigest (input : CreateRunInput) : String :=
  stableDigest sha256 (.obj [("planDigest", .str input.planDigest), ("input", input.runInput)])

/-- The row of a new run, with the defaults of its columns. -/
def newRun (runId : String) (input : CreateRunInput) : RunRow where
  runId
  idempotencyKey := input.idempotencyKey
  planDigest := input.planDigest
  tenantId := input.tenantId
  requestDigest := input.requestDigest sha256
  status := .queued
  terminalOutcome := none
  input := .ofJson input.runInput
  output := none
  attempt := 0
  attemptLimit := 3
  fencingEpoch := 0
  leaseOwner := none
  leaseExpiresAt := none
  availableAt := none
  latestCheckpointId := none
  currentNodeId := none
  errorCode := none
  cancellationRequestedAt := none
  cancellationReason := none
  costUsd := 0
  costComplete := true
  modelCalls := 0
  capabilityCalls := 0
  createdAt := now
  startedAt := none
  completedAt := none
  updatedAt := now

/-- `createRun`, with the random id that it draws. -/
def createRun (uuid : String) (input : CreateRunInput) (rows : List RunRow) :
    Except RunFailure (Bool × RunRow) × List RunRow :=
  let runId := "RUN-" ++ uuid
  match rows.find? fun r => r.tenantId = input.tenantId ∧ r.idempotencyKey = input.idempotencyKey with
  | some row =>
    -- The conflicting row is updated to itself, if it has the digest of the request.
    if row.requestDigest = input.requestDigest sha256 then (.ok (row.runId = runId, row), rows)
    else (.error (.code "run.idempotency_conflict"), rows)
  | none =>
    if ∃ r ∈ rows, r.runId = runId then (.error (.unique "runs_pkey"), rows)
    else
      let row := newRun sha256 now runId input
      (.ok (true, row), rows ++ [row])

end

/-! ## Claiming a run -/

section

variable (now : Time)

/-- The `where` clause of `claimRun`. -/
def Claimable (r : RunRow) : Prop :=
  ((r.status = .queued ∨ r.status = .retrying) ∧ (∀ t ∈ r.availableAt, t ≤ now) ∨
    r.status = .running ∧ ∃ t ∈ r.leaseExpiresAt, t < now) ∧
  r.cancellationRequestedAt = none ∧ r.attempt < r.attemptLimit

instance : DecidablePred (Claimable now) := fun r => by
  unfold Claimable; infer_instance

/-- The row after a claim. -/
def RunRow.claim (workerId : String) (leaseSeconds : ℚ) (r : RunRow) : RunRow :=
  { r with
    status := .running
    leaseOwner := some workerId
    leaseExpiresAt := some (now + leaseSeconds)
    fencingEpoch := r.fencingEpoch + 1
    attempt := r.attempt + 1
    availableAt := none
    startedAt := some (r.startedAt.getD now)
    updatedAt := now }

/-- The row that `claimRun` selects: the oldest one that no other transaction has locked. -/
def selectRun (locked : List String) (rows : List RunRow) : Option RunRow :=
  ((rows.filter fun r => Claimable now r ∧ r.runId ∉ locked).insertionSort
    fun a b => a.createdAt ≤ b.createdAt).head?

/-- `claimRun`. -/
def claimRun (workerId : String) (leaseSeconds : ℚ) (locked : List String) (rows : List RunRow) :
    Option RunRow × List RunRow :=
  match selectRun now locked rows with
  | none => (none, rows)
  | some selected =>
    (some (selected.claim now workerId leaseSeconds),
      updateWhere (fun r => r.runId = selected.runId) (RunRow.claim now workerId leaseSeconds) rows)

/-! ## Fenced writes -/

/-- What `claimRun` returns to a worker, as far as it guards the writes of the worker. -/
structure Lease where
  runId : String
  workerId : String
  fencingEpoch : ℕ
deriving DecidableEq

/-- The guard that the fenced writes share. -/
def Lease.Holds (l : Lease) (r : RunRow) : Prop :=
  r.runId = l.runId ∧ r.leaseOwner = some l.workerId ∧ r.fencingEpoch = l.fencingEpoch ∧
    r.status = .running

instance (l : Lease) : DecidablePred l.Holds := fun r => by
  unfold Lease.Holds; infer_instance

/-- An update under a guard, and whether it updated exactly one row. -/
def updateOne (guard : RunRow → Prop) [DecidablePred guard] (set : RunRow → RunRow)
    (rows : List RunRow) : Bool × List RunRow :=
  (rowCount guard rows = 1, updateWhere guard set rows)

/-- An update that throws unless it updated exactly one row. The row keeps what was written: the
statement is its own transaction. -/
def updateFenced (guard : RunRow → Prop) [DecidablePred guard] (set : RunRow → RunRow)
    (rows : List RunRow) : Except RunFailure Unit × List RunRow :=
  let (updated, rows) := updateOne guard set rows
  (if updated then .ok () else .error (.code "runtime.stale_fence"), rows)

def RunRow.renew (leaseSeconds : ℚ) (r : RunRow) : RunRow :=
  { r with leaseExpiresAt := some (now + leaseSeconds), updatedAt := now }

/-- `renewLease`. -/
def renewLease (l : Lease) (leaseSeconds : ℚ) : List RunRow → Bool × List RunRow :=
  updateOne l.Holds (RunRow.renew now leaseSeconds)

def RunRow.retry (errorCode : String) (backoffMs : ℚ) (r : RunRow) : RunRow :=
  { r with
    status := .retrying
    leaseOwner := none
    leaseExpiresAt := none
    availableAt := some (now + max 0 backoffMs / 1000)
    errorCode := some errorCode
    updatedAt := now }

/-- `scheduleRunRetry`. -/
def scheduleRunRetry (l : Lease) (errorCode : String) (backoffMs : ℚ) :
    List RunRow → Bool × List RunRow :=
  updateOne (fun r => l.Holds r ∧ r.attempt < r.attemptLimit) (RunRow.retry now errorCode backoffMs)

def RunRow.atNode (nodeId checkpointId : Option String) (r : RunRow) : RunRow :=
  { r with
    currentNodeId := nodeId
    latestCheckpointId := checkpointId.or r.latestCheckpointId
    updatedAt := now }

/-- `updateRunNode`. -/
def updateRunNode (l : Lease) (nodeId checkpointId : Option String) :
    List RunRow → Except RunFailure Unit × List RunRow :=
  updateFenced l.Holds (RunRow.atNode now nodeId checkpointId)

/-- How a worker completes a run. -/
inductive Completion
  | completed
  | manualReview
  | denied
  | failed
  | cancelled
deriving DecidableEq, Repr

/-- The status of a completion. -/
def Completion.status : Completion → RunStatus
  | completed => .completed
  | manualReview => .manualReview
  | denied => .denied
  | failed => .failed
  | cancelled => .cancelled

/-- The input of `completeRun`, besides the lease. -/
structure CompleteRunInput where
  status : Completion
  terminalOutcome : String
  output : Json
  errorCode : Option String

def RunRow.complete (input : CompleteRunInput) (r : RunRow) : RunRow :=
  { r with
    status := input.status.status
    terminalOutcome := some input.terminalOutcome
    output := some (.ofJson input.output)
    errorCode := input.errorCode
    leaseOwner := none
    leaseExpiresAt := none
    completedAt := some now
    updatedAt := now }

/-- `completeRun`. -/
def completeRun (l : Lease) (input : CompleteRunInput) :
    List RunRow → Except RunFailure Unit × List RunRow :=
  updateFenced l.Holds (RunRow.complete now input)

/-! ## Exhausted runs -/

/-- The `where` clause of `failExhaustedRuns`. -/
def Exhausted (r : RunRow) : Prop :=
  (r.status = .queued ∨ r.status = .retrying) ∧ r.attemptLimit ≤ r.attempt

instance : DecidablePred Exhausted := fun r => by
  unfold Exhausted; infer_instance

def RunRow.exhaust (r : RunRow) : RunRow :=
  { r with
    status := .failed
    terminalOutcome := some "failed"
    errorCode := some (r.errorCode.getD "runtime.attempts_exhausted")
    leaseOwner := none
    leaseExpiresAt := none
    completedAt := some now
    updatedAt := now }

/-- `failExhaustedRuns`. -/
def failExhaustedRuns (rows : List RunRow) : ℕ × List RunRow :=
  (rowCount Exhausted rows, updateWhere Exhausted (RunRow.exhaust now) rows)

/-! ## Cancellation -/

inductive CancellationOutcome
  | alreadyTerminal
  | cancelled
  | requested
  | notFound
deriving DecidableEq, Repr

def RunRow.requestCancellation (reason : String) (r : RunRow) : RunRow :=
  { r with
    cancellationRequestedAt := some now
    cancellationReason := some reason
    fencingEpoch := r.fencingEpoch + 1
    status := if r.status = .running then r.status else .cancelled
    terminalOutcome := if r.status = .running then r.terminalOutcome else some "cancelled"
    completedAt := if r.status = .running then r.completedAt else some now
    leaseOwner := if r.status = .running then r.leaseOwner else none
    leaseExpiresAt := if r.status = .running then r.leaseExpiresAt else none
    updatedAt := now }

/-- `requestRunCancellation`. -/
def requestRunCancellation (runId tenantId reason : String) (rows : List RunRow) :
    (CancellationOutcome × Option RunRow) × List RunRow :=
  match rows.find? fun r => r.runId = runId ∧ r.tenantId = tenantId with
  | none => ((.notFound, none), rows)
  | some current =>
    if current.status ∉ [.queued, .running, .retrying] then ((.alreadyTerminal, some current), rows)
    else
      let running : Bool := current.status = .running
      ((if running then .requested else .cancelled, some (current.requestCancellation now reason)),
        updateWhere (fun r => r.runId = runId) (RunRow.requestCancellation now reason) rows)

def RunRow.cancel (errorCode : Option String) (fallback : String) (r : RunRow) : RunRow :=
  { r with
    status := .cancelled
    terminalOutcome := some "cancelled"
    errorCode := some ((errorCode.or r.errorCode).getD fallback)
    leaseOwner := none
    leaseExpiresAt := none
    completedAt := some now
    updatedAt := now }

/-- The `where` clause of `completeCancelledRun`. -/
def CancelRequested (runId : String) (r : RunRow) : Prop :=
  r.runId = runId ∧ r.status = .running ∧ r.cancellationRequestedAt ≠ none

instance (runId : String) : DecidablePred (CancelRequested runId) := fun r => by
  unfold CancelRequested; infer_instance

/-- `completeCancelledRun`. -/
def completeCancelledRun (runId : String) (errorCode : Option String) :
    List RunRow → Bool × List RunRow :=
  updateOne (CancelRequested runId) (RunRow.cancel now errorCode "runtime.cancelled")

/-- The `where` clause of `finalizeAbandonedCancellations`. -/
def Abandoned (r : RunRow) : Prop :=
  r.status = .running ∧ r.cancellationRequestedAt ≠ none ∧ ∀ t ∈ r.leaseExpiresAt, t < now

instance : DecidablePred (Abandoned now) := fun r => by
  unfold Abandoned; infer_instance

/-- `finalizeAbandonedCancellations`. -/
def finalizeAbandonedCancellations (rows : List RunRow) : ℕ × List RunRow :=
  (rowCount (Abandoned now) rows,
    updateWhere (Abandoned now) (RunRow.cancel now none "runtime.cancelled_lease_expired") rows)

end

/-- `currentFencingEpoch`. -/
def currentFencingEpoch (runId : String) (rows : List RunRow) : Option ℕ :=
  (rows.find? fun r => r.runId = runId ∧ r.status = .running).map (·.fencingEpoch)

end Persistence

end HarnessFramework
