import HarnessFramework.Library.IsoTime
import HarnessFramework.Persistence.RunTable
import Mathlib.Data.Rat.Floor

/-!
# The relay of the outbox

`drainOutbox` and `purgePublished` of `packages/case-store/src/outbox-relay.ts`, on the outbox of the
case ledger and on the one of the evidence store. A call claims a batch in one transaction, hands it to
the sink outside of any, and marks it with one statement, or releases it with one. Calls interleave, and
may stop between any two of these.

`now()` is the start of a transaction, so it is an argument. The rows that a claim skips because others
have locked them are an argument too, and so is whether the reply to a statement is lost.

## Main definitions

* `Row`, `OutboxRecord` — a row of an outbox, and what a sink gets of it
* `candidates`, `claimRows`, `markRows`, `releaseRows`, `purgeRows` — the statements
* `Phase`, `Event`, `Drain.step` — a call of `drainOutbox`, one round trip at a time
* `State`, `Action`, `State.act`, `State.Reachable` — calls side by side
-/

namespace HarnessFramework

namespace CaseStore

namespace Outbox

open Persistence (Time)

/-! ## Rows -/

/-- The outbox of the ledger, and the one of the evidence store. -/
inductive Source
  | case
  | evidence
deriving DecidableEq, Repr

/-- A row of an outbox, as far as relays read it. -/
structure Row where
  outboxId : String
  tenantId : String
  caseId : String
  eventType : String
  classification : String
  createdAt : Timestamptz
  publishedAt : Option Time
  publishAttempts : ℕ
  publishClaimId : Option String
  publishClaimedAt : Option Time
deriving DecidableEq

/-- What a sink gets of a row. -/
structure OutboxRecord where
  outboxId : String
  source : Source
  tenantId : String
  caseId : String
  eventType : String
  classification : String
  createdAt : String
deriving DecidableEq

/-- The record of a row. -/
def Row.record (source : Source) (r : Row) : OutboxRecord where
  outboxId := r.outboxId
  source := source
  tenantId := r.tenantId
  caseId := r.caseId
  eventType := r.eventType
  classification := r.classification
  createdAt := r.createdAt.toDate.toISOString

/-- A number that grows with time. -/
def instant (t : Timestamptz) : ℕ :=
  ((t.date.year * 13 + t.date.month) * 32 + t.date.day) * 86400000000 + t.micros

/-! ## Statements -/

/-- The seconds after which a claim can be taken over. -/
def claimTimeoutSeconds (claimTimeoutMs : Option ℚ) : ℚ := max 5 ⌈claimTimeoutMs.getD 300000 / 1000⌉

/-- A claim from `claimedAt` can be taken over. -/
def Expired (timeout : ℚ) (now claimedAt : Time) : Prop := claimedAt < now - timeout

instance (timeout : ℚ) (now claimedAt : Time) : Decidable (Expired timeout now claimedAt) := by
  unfold Expired; infer_instance

/-- The rows that a claim looks for. -/
def Claimable (timeout : ℚ) (now : Time) (r : Row) : Prop :=
  r.publishedAt = none ∧ ∀ claimedAt ∈ r.publishClaimedAt, Expired timeout now claimedAt

instance (timeout : ℚ) (now : Time) : DecidablePred (Claimable timeout now) := fun r => by
  unfold Claimable; infer_instance

/-- The batch of a claim: the oldest rows that are not locked. -/
def candidates (timeout : ℚ) (now : Time) (limit : ℕ) (locked : List String) (rows : List Row) : List Row :=
  ((rows.filter fun r => Claimable timeout now r ∧ r.outboxId ∉ locked).insertionSort
    fun r r' => instant r.createdAt ≤ instant r'.createdAt).take limit

/-- Rows with a new claim. -/
def claimRows (now : Time) (claimId : String) (ids : List String) (rows : List Row) : List Row :=
  updateWhere (fun r => r.outboxId ∈ ids) (fun r =>
    { r with
      publishClaimId := some claimId
      publishClaimedAt := some now
      publishAttempts := r.publishAttempts + 1 }) rows

/-- The rows of a batch that are still under its claim. -/
def Marked (claimId : String) (ids : List String) (r : Row) : Prop :=
  r.publishClaimId = some claimId ∧ r.outboxId ∈ ids

instance (claimId : String) (ids : List String) : DecidablePred (Marked claimId ids) := fun r => by
  unfold Marked; infer_instance

/-- Mark a batch as published, as far as it is still under its claim. -/
def markRows (now : Time) (claimId : String) (ids : List String) (rows : List Row) : List Row :=
  updateWhere (Marked claimId ids) (fun r =>
    { r with publishedAt := some now, publishClaimId := none, publishClaimedAt := none }) rows

/-- Give a claim up. -/
def releaseRows (claimId : String) (rows : List Row) : List Row :=
  updateWhere (fun r => r.publishClaimId = some claimId) (fun r =>
    { r with publishClaimId := none, publishClaimedAt := none }) rows

/-- Delete what was published more than `days` days ago. -/
def purgeRows (now : Time) (days : ℤ) (rows : List Row) : List Row :=
  rows.filter fun r => ¬ ∃ time ∈ r.publishedAt, time < now - days * 86400

/-! ## A call -/

structure RelayOptions where
  batchSize : Option ℤ
  retentionDays : Option ℤ
deriving DecidableEq

/-- How many rows are claimed at once. -/
def RelayOptions.limit (options : RelayOptions) : ℕ :=
  (max 1 (min 500 (options.batchSize.getD 100))).toNat

/-- How far a call is. -/
inductive Phase
  | claiming (source : Source)
  /-- A batch is claimed. -/
  | publishing (source : Source) (claimId : String) (records : List OutboxRecord)
  /-- The sink has accepted it. -/
  | marking (source : Source) (claimId : String) (records : List OutboxRecord)
  /-- The sink has refused it, or it could not be marked. -/
  | releasing (source : Source) (claimId : String)
  | purging (source : Source)
  | drained
  | failed
  /-- The process died. -/
  | crashed
deriving DecidableEq

/-- A claim on rows, from when it was committed until it is marked or released. -/
structure Claim where
  source : Source
  claimId : String
  ids : List String
  claimedAt : Time
deriving DecidableEq

/-- A call of `drainOutbox`. The last member records its claim. -/
structure Drain where
  options : RelayOptions
  phase : Phase
  published : ℕ
  purged : ℕ
  claim : Option Claim
deriving DecidableEq

/-- A round trip of a call, what the sink does, or the end of the process. -/
inductive Event
  | claim (now : Time) (claimId : String) (locked : List String) (lost : Bool)
  | accept
  | refuse
  | mark (now : Time) (lost : Bool)
  | release
  | purge (now : Time) (lost : Bool)
  /-- A statement fails. -/
  | fail
  | crash
deriving DecidableEq

/-- What comes after a table is drained. -/
def RelayOptions.after (options : RelayOptions) : Source → Phase
  | .case => .claiming .evidence
  | .evidence => if 0 < options.retentionDays.getD 0 then .purging .case else .drained

/-- What comes after a table is purged. -/
def afterPurge : Source → Phase
  | .case => .purging .evidence
  | .evidence => .drained

/-- The tables of both outboxes. -/
abbrev Tables : Type := Source → List Row

/-- An event of a call: the call, and the tables after it. -/
def Drain.step (timeout : ℚ) (d : Drain) (t : Tables) : Event → Option (Drain × Tables)
  | .claim now claimId locked lost => match d.phase with
    | .claiming source =>
      let claimed := candidates timeout now d.options.limit locked (t source)
      let ids := claimed.map (·.outboxId)
      let claim := some ⟨source, claimId, ids, now⟩
      let t' := Function.update t source (claimRows now claimId ids (t source))
      if lost then some ({ d with phase := .failed, claim }, t')
      else if claimed = [] then some ({ d with phase := d.options.after source }, t)
      else some ({ d with phase := .publishing source claimId (claimed.map (·.record source)), claim }, t')
    | _ => none
  | .accept => match d.phase with
    | .publishing source claimId records => some ({ d with phase := .marking source claimId records }, t)
    | _ => none
  | .refuse => match d.phase with
    | .publishing source claimId _ => some ({ d with phase := .releasing source claimId }, t)
    | _ => none
  | .mark now lost => match d.phase with
    | .marking source claimId records =>
      let t' := Function.update t source
        (markRows now claimId (records.map (·.outboxId)) (t source))
      if lost then some ({ d with phase := .releasing source claimId, claim := none }, t')
      else some ({ d with
        phase := d.options.after source
        published := d.published + records.length
        claim := none }, t')
    | _ => none
  | .release => match d.phase with
    | .releasing source claimId => some ({ d with phase := .failed, claim := none },
        Function.update t source (releaseRows claimId (t source)))
    | _ => none
  | .purge now lost => match d.phase with
    | .purging source =>
      let rows := purgeRows now (d.options.retentionDays.getD 0) (t source)
      let t' := Function.update t source rows
      if lost then some ({ d with phase := .failed }, t')
      else some ({ d with
        phase := afterPurge source
        purged := d.purged + ((t source).length - rows.length) }, t')
    | _ => none
  | .fail => match d.phase with
    | .claiming _ | .releasing _ _ | .purging _ => some ({ d with phase := .failed }, t)
    | .marking source claimId _ => some ({ d with phase := .releasing source claimId }, t)
    | _ => none
  | .crash => match d.phase with
    | .drained | .failed | .crashed => none
    | _ => some ({ d with phase := .crashed }, t)

/-! ## Calls side by side -/

/-- Who drew a claim id, and for which table. -/
structure Draw where
  id : ℕ
  source : Source
  claimId : String
deriving DecidableEq

/-- A sink accepted a record from a call. -/
structure Acceptance where
  id : ℕ
  source : Source
  outboxId : String
deriving DecidableEq

/-- A call marked a row as published: its claim, and the one that the row was under. -/
structure Mark where
  id : ℕ
  source : Source
  outboxId : String
  claimId : String
  current : Option String
deriving DecidableEq

/-- Outboxes and calls. The last members record what happened: the events that were written, the claim
ids that were drawn, the records that sinks accepted and the rows that were marked. -/
structure State where
  clock : Time
  tables : Tables
  calls : ℕ → Option Drain
  written : List (Source × String)
  drawn : List Draw
  accepted : List Acceptance
  marked : List Mark

/-- An event to append to an outbox. -/
structure NewEvent where
  outboxId : String
  tenantId : String
  caseId : String
  eventType : String
  classification : String
  createdAt : Timestamptz

/-- The row of a new event. -/
def NewEvent.row (e : NewEvent) : Row where
  outboxId := e.outboxId
  tenantId := e.tenantId
  caseId := e.caseId
  eventType := e.eventType
  classification := e.classification
  createdAt := e.createdAt
  publishedAt := none
  publishAttempts := 0
  publishClaimId := none
  publishClaimedAt := none

/-- What can happen. -/
inductive Action
  | advance (clock : Time)
  | append (source : Source) (e : NewEvent)
  | drain (id : ℕ) (options : RelayOptions)
  | relay (id : ℕ) (event : Event)

/-- The time of the database that an event reads is not ahead of the clock, and a claim id that it
draws is new. -/
def Event.Ready (s : State) : Event → Prop
  | .claim now claimId _ _ => now ≤ s.clock ∧ ∀ draw ∈ s.drawn, draw.claimId ≠ claimId
  | .mark now _ | .purge now _ => now ≤ s.clock
  | _ => True

instance (s : State) : DecidablePred (Event.Ready s) := fun event => by
  unfold Event.Ready
  split <;> infer_instance

namespace State

/-- The claim id that an event draws. -/
def draws (id : ℕ) (d : Drain) : Event → List Draw
  | .claim _ claimId _ _ => match d.phase with
    | .claiming source => [⟨id, source, claimId⟩]
    | _ => []
  | _ => []

/-- The records that a sink accepts. -/
def acceptances (id : ℕ) (d : Drain) : Event → List Acceptance
  | .accept => match d.phase with
    | .publishing source _ records => records.map fun record => ⟨id, source, record.outboxId⟩
    | _ => []
  | _ => []

/-- The rows that an event marks. -/
def marks (s : State) (id : ℕ) (d : Drain) : Event → List Mark
  | .mark _ _ => match d.phase with
    | .marking source claimId records =>
      ((s.tables source).filter fun r => Marked claimId (records.map (·.outboxId)) r).map fun r =>
        ⟨id, source, r.outboxId, claimId, r.publishClaimId⟩
    | _ => []
  | _ => []

/-- The state after an event of a call. -/
def relayed (s : State) (id : ℕ) (d : Drain) (event : Event) (d' : Drain) (t : Tables) : State where
  clock := s.clock
  tables := t
  calls := Function.update s.calls id (some d')
  written := s.written
  drawn := s.drawn ++ draws id d event
  accepted := s.accepted ++ acceptances id d event
  marked := s.marked ++ s.marks id d event

/-- The state after an event was appended. -/
def appended (s : State) (source : Source) (e : NewEvent) : State :=
  { s with
    tables := Function.update s.tables source (s.tables source ++ [e.row])
    written := s.written ++ [(source, e.outboxId)] }

variable (timeout : ℚ)

/-- The state after an action, if it can happen. -/
def act (s : State) : Action → Option State
  | .advance clock => if s.clock ≤ clock then some { s with clock } else none
  | .append source e => if (source, e.outboxId) ∈ s.written then none else some (s.appended source e)
  | .drain id options => match s.calls id with
    | none => some { s with
        calls := Function.update s.calls id (some ⟨options, .claiming .case, 0, 0, none⟩) }
    | some _ => none
  | .relay id event => match s.calls id with
    | some d =>
      if event.Ready s then
        (d.step timeout s.tables event).map fun next => s.relayed id d event next.1 next.2
      else none
    | none => none

/-- Something happens. -/
def Step (s s' : State) : Prop := ∃ action, s.act timeout action = some s'

/-- Empty outboxes and no calls, at some time. -/
def start (clock : Time) : State := ⟨clock, fun _ => [], fun _ => none, [], [], [], []⟩

/-- The states that steps reach. -/
def Reachable (s : State) : Prop := ∃ clock, Relation.ReflTransGen (Step timeout) (start clock) s

end State

end Outbox

end CaseStore

end HarnessFramework
