import HarnessFramework.ControlApi.Tables
import HarnessFramework.Library.JsValue
import HarnessFramework.Persistence.RunLifecycle
import Mathlib.Logic.Function.Basic

/-!
# The dispatcher

`workOnce` of `apps/runtime-worker/src/worker.ts`, statement by statement, for any number of workers side
by side. A worker claims a run, invokes a provider, writes how the run ended, and appends an event that
says so. While it does, a heartbeat renews its lease and looks for a request to cancel the run.

A statement may throw instead of being executed, or after it was. What is thrown after the worker has
started to invoke the provider comes to its `catch` clause; what is thrown before, or in that clause, ends
the call. A worker may stop at any point.

What a heartbeat finds is told to the worker at once: a lease that was lost stays lost, and a request to
cancel stands, so to be told later is to have asked later.

## Main definitions

* `appendEvent` — the statement, on the runs and their events
* `Phase`, `Worker`, `Worker.proceed` — a worker, and its next statement
* `State`, `Action`, `State.act` — workers side by side
-/

namespace HarnessFramework

namespace RuntimeWorker

open Persistence

open ControlApi (AppendEventInput RunEventRow touch)

/-! ## Statements -/

/-- `appendEvent`. -/
def appendEvent (now : Time) (input : AppendEventInput) (runs : List RunRow) (events : List RunEventRow) :
    Except String RunEventRow × List RunRow × List RunEventRow :=
  match events.find? fun e => e.runId = input.runId ∧ e.eventKey = input.eventKey with
  | some row => (.ok row, runs, events)
  | none =>
    if ∃ r ∈ runs, r.runId = input.runId then
      let row := input.row now events
      (.ok row, updateWhere (fun r => r.runId = input.runId) (touch now) runs, events ++ [row])
    else (.error "event.run_missing", runs, events)

/-- The statement on the tables of the control API. -/
theorem appendEvent_tables {S : ControlApi.PlanSchema} (input : AppendEventInput) (t : ControlApi.Tables S) :
    ControlApi.appendEvent input t =
      ((appendEvent t.clock input t.runs t.runEvents).1,
        { t with
          runs := (appendEvent t.clock input t.runs t.runEvents).2.1
          runEvents := (appendEvent t.clock input t.runs t.runEvents).2.2 }) := by
  rw [ControlApi.appendEvent, appendEvent]
  cases hfind : t.runEvents.find? fun e => e.runId = input.runId ∧ e.eventKey = input.eventKey with
  | some row => rfl
  | none =>
    by_cases hrun : ∃ r ∈ t.runs, r.runId = input.runId
    · simp only [hrun, if_true]
    · simp only [hrun, if_false]

/-- `cancellationRequested`. -/
def cancellationRequested (runId : String) (runs : List RunRow) : Option String :=
  (runs.find? fun r => r.runId = runId).bind fun r =>
    r.cancellationRequestedAt.map fun _ => r.cancellationReason.getD "cancelled"

/-! ## Settings and results -/

/-- The settings of the dispatcher. -/
structure Settings where
  leaseSeconds : ℚ
  retryBaseMs : ℚ
  retryMaxMs : ℚ

/-- `backoffMs`. -/
def Settings.backoffMs (settings : Settings) (attempt : ℕ) : ℚ :=
  min settings.retryMaxMs (settings.retryBaseMs * 2 ^ (attempt - 1))

/-- `code.includes(text)`. -/
def Includes (text code : String) : Prop := text.toList <:+: code.toList

instance (text code : String) : Decidable (Includes text code) := inferInstanceAs (Decidable (_ <:+: _))

/-- `code.startsWith(text)`. -/
def StartsWith (text code : String) : Prop := text.toList <+: code.toList

instance (text code : String) : Decidable (StartsWith text code) := inferInstanceAs (Decidable (_ <+: _))

/-- `retryable`. -/
def Retryable (code : String) : Prop :=
  ¬(Includes "denied" code ∨ Includes "authorization" code ∨ Includes "stale_fence" code) ∧
    ¬StartsWith "runtime.plan_" code ∧ ¬StartsWith "langgraph." code ∧ ¬Includes "contract" code

instance : DecidablePred Retryable := fun _ => inferInstanceAs (Decidable (_ ∧ _))

inductive InvocationStatus
  | completed
  | denied
  | failed
deriving DecidableEq

/-- The text of a status. -/
def InvocationStatus.text : InvocationStatus → String
  | completed => "completed"
  | denied => "denied"
  | failed => "failed"

/-- `RuntimeInvocationResult`, as far as the dispatcher reads it. -/
structure InvocationResult where
  status : InvocationStatus
  output : Json
  errorCode : Option String
  providerMetadata : List (String × Json)

/-! ## A worker -/

/-- How far a call of `workOnce` has come. `inCatch` says that it came to its `catch` clause. -/
inductive Phase
  /-- A run was claimed, and its trace is to be bound. -/
  | claimed
  /-- The start is to be told. -/
  | bound
  | invoking
  | completing (result : InvocationResult)
  | completed (result : InvocationResult)
  /-- In `handleFailure`. -/
  | failing (inCatch : Bool) (code : String) (denied : Bool)
  | retried (inCatch : Bool) (code : String)
  /-- In `recordTerminalFailure`. -/
  | terminating (inCatch : Bool) (code : String) (denied : Bool)
  | failed (inCatch : Bool) (code : String) (denied : Bool)
  /-- An error with a message came to the `catch` clause. -/
  | caught (message : String)
  | cancelling
  | cancelled

/-- What is thrown now comes to the `catch` clause. -/
def Phase.inTry : Phase → Bool
  | invoking | completing _ | completed _ => true
  | failing inCatch _ _ | retried inCatch _ | terminating inCatch _ _ | failed inCatch _ _ => !inCatch
  | claimed | bound | caught _ | cancelling | cancelled => false

/-- The heartbeat runs. -/
def Phase.beats : Phase → Bool
  | claimed | bound => false
  | _ => true

/-- A call of `workOnce` that has claimed a run. -/
structure Worker where
  slotWorkerId : String
  run : RunRow
  traceId : String
  runtimeProvider : String
  executionProfileDigest : String
  leaseLost : Bool
  cancelled : Bool
  phase : Phase

namespace Worker

variable (w : Worker)

/-- What guards the writes of a worker. -/
def lease : Lease := ⟨w.run.runId, w.slotWorkerId, w.run.fencingEpoch⟩

/-- Something was thrown. -/
def fail (message : String) : Option Worker :=
  if w.phase.inTry then some { w with phase := .caught message } else none

/-- An event about the attempt of a worker. -/
def event (key code status : String) (values : List (String × Json)) : AppendEventInput where
  runId := w.run.runId
  eventKey := "run:" ++ toString w.run.attempt ++ ":" ++ key
  code
  nodeId := none
  status
  values := .obj values

/-- The event `run.started`. -/
def started : AppendEventInput := w.event "started" "run.started" "observed"
  [("workerId", .str w.slotWorkerId), ("fencingEpoch", .nat w.run.fencingEpoch), ("traceId", .str w.traceId),
    ("runtimeProvider", .str w.runtimeProvider), ("executionProfileDigest", .str w.executionProfileDigest)]

/-- The event `run.completed`. -/
def completedEvent (result : InvocationResult) : AppendEventInput := w.event "completed" "run.completed" "passed" <|
  Members.spread [("traceId", .str w.traceId), ("runtimeProvider", .str w.runtimeProvider)]
    result.providerMetadata

/-- The event `run.retrying`. -/
def retryingEvent (code : String) : AppendEventInput := w.event "retrying" "run.retrying" "observed"
  [("errorCode", .str code), ("attempt", .nat w.run.attempt), ("traceId", .str w.traceId)]

/-- The event `run.failed`. -/
def failedEvent (code : String) (denied : Bool) : AppendEventInput :=
  w.event "failed" "run.failed" (if denied then "denied" else "failed")
    [("errorCode", .str code), ("traceId", .str w.traceId), ("runtimeProvider", .str w.runtimeProvider)]

/-- The event `run.cancelled`. -/
def cancelledEvent : AppendEventInput := w.event "cancelled" "run.cancelled" "observed"
  [("traceId", .str w.traceId), ("runtimeProvider", .str w.runtimeProvider)]

/-- The code of an error that was caught. -/
def caughtCode (message : String) : String :=
  if w.cancelled then "runtime.cancelled" else if w.leaseLost then "runtime.lease_lost" else message

/-- What the `catch` clause goes on with. -/
def caughtPhase (message : String) : Option Phase :=
  let code := w.caughtCode message
  if code = "runtime.cancelled" then some .cancelling
  else if code = "runtime.lease_lost" then none
  else some (.failing true code (Includes "denied" code))

end Worker

/-- The phase after a provider returned. -/
def received (result : InvocationResult) : Phase :=
  if result.status = .completed then .completing result
  else .failing false (result.errorCode.getD ("runtime." ++ result.status.text)) (result.status = .denied)

/-- `completeRun`, for a run that completed. -/
def completion (result : InvocationResult) : CompleteRunInput where
  status := .completed
  terminalOutcome := "completed"
  output := result.output
  errorCode := none

/-- `completeRun`, for a run that failed. -/
def failure (code : String) (denied : Bool) : CompleteRunInput where
  status := if denied then .denied else .failed
  terminalOutcome := if denied then "denied" else "failed"
  output := .obj [("error", .str code)]
  errorCode := some code

/-! ## Workers side by side -/

/-- Runs, their events and workers. The last member records which events workers appended. -/
structure State extends RunSystem where
  events : List RunEventRow
  workers : ℕ → Option Worker
  dispatched : List RunEventRow

namespace State

variable (sha256 : List Char → String) (now : Time) (s : State)

/-- The state after a statement on runs. -/
def ran (op : RunOp) : State := { s with toRunSystem := s.toRunSystem.after sha256 now op }

/-- The state after some runs were updated at `now`. -/
def touched (guard : RunRow → Prop) [DecidablePred guard] : State :=
  { s with runs := updateWhere guard (touch now) s.runs }

/-- The state after an event was appended. -/
def appended (input : AppendEventInput) : State :=
  let result := appendEvent now input s.runs s.events
  { s with runs := result.2.1, events := result.2.2 }

/-- The state after a worker appended an event. -/
def told (input : AppendEventInput) : State :=
  let s' := s.appended now input
  { s' with dispatched := s.dispatched ++ s'.events.drop s.events.length }

end State

section

variable (settings : Settings) (sha256 : List Char → String) (now : Time)

/-- An event is appended, and the worker goes on. -/
def Worker.tell (w : Worker) (s : State) (input : AppendEventInput) (next : Option Worker) :
    Option Worker × State :=
  (match (appendEvent now input s.runs s.events).1 with
    | .ok _ => next
    | .error message => w.fail message,
  s.told now input)

/-- A run is completed, and the worker goes on. -/
def Worker.complete (w : Worker) (s : State) (input : CompleteRunInput) (next : Phase) : Option Worker × State :=
  (match (completeRun now w.lease input s.runs).1 with
    | .ok () => some { w with phase := next }
    | .error _ => w.fail "runtime.stale_fence",
  s.ran sha256 now (.completeRun w.lease input))

/-- The next statement of a worker in a phase, and what becomes of the worker. -/
def Worker.proceed (w : Worker) (s : State) : Phase → Option (Option Worker × State)
  | .claimed =>
    -- `bindRunTrace`, which throws before anything is caught.
    if ∃ r ∈ s.runs, w.lease.Holds r ∧ r.attempt = w.run.attempt then
      some (some { w with phase := .bound }, s.touched now w.lease.Holds)
    else some (none, s)
  | .bound => some (w.tell now s w.started (some { w with phase := .invoking }))
  | .invoking => none
  | .completing result => some (w.complete sha256 now s (completion result) (.completed result))
  | .completed result => some (w.tell now s (w.completedEvent result) none)
  | .failing inCatch code denied =>
    if denied = false ∧ Retryable code then
      let backoffMs := settings.backoffMs w.run.attempt
      let phase := if (scheduleRunRetry now w.lease code backoffMs s.runs).1 then .retried inCatch code
        else .terminating inCatch code denied
      some (some { w with phase }, s.ran sha256 now (.scheduleRunRetry w.lease code backoffMs))
    else some (some { w with phase := .terminating inCatch code denied }, s)
  | .retried _ code => some (w.tell now s (w.retryingEvent code) none)
  | .terminating inCatch code denied =>
    some (w.complete sha256 now s (failure code denied) (.failed inCatch code denied))
  | .failed _ code denied => some (w.tell now s (w.failedEvent code denied) none)
  | .caught message => some ((w.caughtPhase message).map fun phase => { w with phase }, s)
  | .cancelling =>
    -- Whether a row was updated is not looked at.
    some (some { w with phase := .cancelled },
      s.ran sha256 now (.completeCancelledRun w.run.runId (some "runtime.cancelled")))
  | .cancelled => some (w.tell now s w.cancelledEvent none)

end

/-- A statement that is not a worker's. -/
def Foreign : RunOp → Prop
  | .createRun .. | .failExhaustedRuns | .requestRunCancellation .. | .finalizeAbandonedCancellations
  | .updateRunNode .. => True
  | .claimRun .. | .renewLease .. | .scheduleRunRetry .. | .completeCancelledRun .. | .completeRun .. => False

instance : DecidablePred Foreign := fun op => by
  cases op <;> unfold Foreign <;> infer_instance

/-- What can happen. -/
inductive Action
  /-- A worker calls `workOnce`, and claims a run. -/
  | claim (id : ℕ) (slotWorkerId traceId runtimeProvider executionProfileDigest : String) (locked : List String)
  | proceed (id : ℕ)
  /-- The provider returns. -/
  | returns (id : ℕ) (result : InvocationResult)
  /-- The provider throws, or a statement does. -/
  | throws (id : ℕ) (message : String)
  /-- The heartbeat renews the lease. -/
  | renew (id : ℕ)
  /-- The heartbeat looks for a request to cancel. -/
  | poll (id : ℕ)
  | stop (id : ℕ)
  /-- A sweep, or a statement of the control API. -/
  | other (op : RunOp)
  /-- Another service appends an event. -/
  | append (input : AppendEventInput)
  | advance (clock : Time)

namespace State

section

variable (settings : Settings) (sha256 : List Char → String) (now : Time) (s : State)

/-- The state after something became of a worker. -/
def setWorker (id : ℕ) (w : Option Worker) : State := { s with workers := Function.update s.workers id w }

/-- The claim of a run. -/
def claimed (id : ℕ) (slotWorkerId traceId runtimeProvider executionProfileDigest : String)
    (locked : List String) : State :=
  let s' := s.ran sha256 now (.claimRun slotWorkerId settings.leaseSeconds locked)
  match (claimRun now slotWorkerId settings.leaseSeconds locked s.runs).1 with
  | none => s'
  | some run => s'.setWorker id <| some
      ⟨slotWorkerId, run, traceId, runtimeProvider, executionProfileDigest, false, false, .claimed⟩

/-- The state after an action, if it can happen. -/
def act : Action → Option State
  | .claim id slotWorkerId traceId runtimeProvider executionProfileDigest locked =>
    match s.workers id with
    | none => some (s.claimed settings sha256 now id slotWorkerId traceId runtimeProvider
        executionProfileDigest locked)
    | some _ => none
  | .proceed id => (s.workers id).bind fun w =>
    (w.proceed settings sha256 now s w.phase).map fun next => next.2.setWorker id next.1
  | .returns id result => (s.workers id).bind fun w =>
    match w.phase with
    | .invoking => some (s.setWorker id (some { w with phase := received result }))
    | _ => none
  | .throws id message => (s.workers id).map fun w => s.setWorker id (w.fail message)
  | .renew id => (s.workers id).bind fun w =>
    if w.phase.beats then
      let held := (renewLease now w.lease settings.leaseSeconds s.runs).1
      some ((s.ran sha256 now (.renewLease w.lease settings.leaseSeconds)).setWorker id
        (some { w with leaseLost := w.leaseLost || !held }))
    else none
  | .poll id => (s.workers id).bind fun w =>
    if w.phase.beats then
      let requested := (cancellationRequested w.run.runId s.runs).any (· ≠ "")
      some (s.setWorker id (some { w with cancelled := w.cancelled || requested }))
    else none
  | .stop id => some (s.setWorker id none)
  | .other op => if Foreign op ∧ ∀ l ∈ op.lease?, l ∈ s.issued then some (s.ran sha256 now op) else none
  | .append input => some (s.appended now input)
  | .advance clock => if s.clock ≤ clock then some { s with clock } else none

/-- The state after an action at a time that is not in the future, if it can happen. -/
def actAt (s : State) (moment : Time × Action) : Option State :=
  if moment.1 ≤ s.clock then s.act settings sha256 moment.1 moment.2 else none

end

/-- No run and no worker, at some time. -/
def start (clock : Time) : State := ⟨RunSystem.start clock, [], fun _ => none, []⟩

end State

end RuntimeWorker

end HarnessFramework
