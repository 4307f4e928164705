import HarnessFramework.CaseStore.Submit

/-!
# What a call may do

`call_underLock` sums up `Submit`: a call that returns either changes nothing, or under the row lock
creates the case, accepts a command or registers an evidence object. Creating a case and accepting a
command append one event with everything that belongs to it.

## Main definitions

* `Records` — a row holds what an envelope says
* `Appends` — one event, one receipt, one outbox row and the new chain head
* `Creates`, `Accepts`, `Registers`, `Effect` — the cases

## Main results

* `appendCaseEvent_wp`, `writeReceipt_wp`, `insertCase_wp`, `acceptCommand_wp`
* `call_underLock` — the cases of every call
-/

namespace HarnessFramework

namespace CaseStore

section

variable (sha256 : List Char → String) (key : CaseKey)

/-- The row holds what the envelope says, as its columns keep it. -/
structure Records (w : EventEnvelope) (r : CaseEventRow) : Prop where
  tenantId : w.tenantId = key.tenantId
  caseId : w.caseId = key.caseId
  caseSequence : r.caseSequence = w.caseSequence
  eventId : r.eventId = w.eventId
  eventType : r.eventType = w.eventType
  eventSchema : r.eventSchema = w.eventSchema
  occurredAt : timestamptz w.occurredAt = some r.occurredAt
  recordedAt : timestamptz w.recordedAt = some r.recordedAt
  actor : r.actor = .ofJson w.actor
  commandId : r.commandId = w.commandRef
  authority : r.authority = .ofJson w.authority
  payload : r.payload = .ofJson w.payload
  evidenceRefs : r.evidenceRefs = .ofJson w.evidenceRefs
  previousEventDigest : r.previousEventDigest = w.previousEventDigest
  eventDigest : r.eventDigest = stableDigest sha256 w.toJson

/-- The tables `t'` are `t` with the event `w`, stored as `r`, its receipt and the new chain head;
its outbox row leaves with the commit. -/
structure Appends (t t' : CaseTables) (ms : List OutboxRow) (w : EventEnvelope) (r : CaseEventRow)
    (receipt : CommandReceiptRow) : Prop where
  records : Records sha256 key w r
  recordedAt : ThreeFractionDigits w.recordedAt
  events : t'.events = t.events ++ [r]
  head : t'.head = some ⟨r.caseSequence, r.eventDigest⟩
  receipts : t'.receipts = t.receipts ++ [receipt]
  receiptOf : receipt.commandId = r.commandId ∧ receipt.acceptedSequenceFrom = r.caseSequence ∧
    receipt.acceptedSequenceTo = r.caseSequence
  outbox : ∃ o : OutboxRow, ms = [o] ∧ o.case = key ∧ o.caseSequence = r.caseSequence ∧
    o.eventId = r.eventId ∧ o.sourceEventDigest = r.eventDigest ∧ o.publishedAt = none ∧
    o.purged = false
  newReceipt : ∀ r ∈ t.receipts, r.commandId ≠ receipt.commandId ∧
    r.idempotencyKey ≠ receipt.idempotencyKey

end

/-- The call created the case. -/
structure Creates (sha256 : List Char → String) (request : CreateKycCaseRequest)
    (idempotencyKey : String) (t t' : CaseTables) (ms : List OutboxRow) : Prop where
  absent : t.cases = none
  cases : ∃ createdAt, t'.cases = some (newCaseRow request createdAt)
  objects : t'.objects = t.objects
  appends : ∃ w r receipt, Appends sha256 (createKey sha256 request idempotencyKey) t t' ms w r receipt ∧
    w.caseSequence = 1 ∧ w.previousEventDigest = none ∧ ThreeFractionDigits w.occurredAt

/-- The call accepted the command, in the state `current` of the case, with the report `mutation` of
its handler. -/
structure Accepts (sha256 : List Char → String) (command : BusinessCommand) (t t' : CaseTables)
    (ms : List OutboxRow) (current : CaseRow) (mutation : MutationResult) : Prop where
  found : t.cases = some current
  cases : ∃ updatedAt, t'.cases = some { current with
    caseSequence := current.caseSequence + 1
    status := mutation.nextStatus.getD current.status
    updatedAt }
  objects : ∃ objects edges, Mutates command current t.objects mutation objects ∧
    t'.objects = { objects with lineageEdges := edges }
  appends : ∃ w r receipt, Appends sha256 (commandKey command) t t' ms w r receipt ∧
    w.caseSequence = current.caseSequence + 1 ∧
    w.previousEventDigest = t.head.map (·.eventDigest) ∧
    (ThreeFractionDigits w.occurredAt ∨ ∃ text ∈ command.occurredAt, w.occurredAt = text.val)

/-- The call registered an evidence object. -/
def Registers (t t' : CaseTables) (ms : List OutboxRow) : Prop :=
  ms = [] ∧ ∃ rows, t' = { t with objects := { t.objects with evidenceObjects := rows } }

/-- What a call that returns did. -/
inductive Effect (sha256 : List Char → String) : Call → CaseTables → Answer → CaseTables →
    List OutboxRow → Prop
  | replayed (env command t response) :
      Effect sha256 (.submitBusinessCommand env command) t (.response response true) t []
  | existing (env request idempotencyKey t row eventId) :
      Effect sha256 (.createKycCase env request idempotencyKey) t (.created false row eventId) t []
  | created (env request idempotencyKey t row eventId t' ms) :
      Creates sha256 request idempotencyKey t t' ms →
      Effect sha256 (.createKycCase env request idempotencyKey) t (.created true row eventId) t' ms
  | accepted (env command t response t' ms current mutation) :
      Accepts sha256 command t t' ms current mutation →
      Effect sha256 (.submitBusinessCommand env command) t (.response response false) t' ms
  | registered (key evidenceId t t' ms) : Registers t t' ms →
      Effect sha256 (.registerEvidence key evidenceId) t (.registered evidenceId) t' ms

section

variable {sha256 : List Char → String} {key : CaseKey} {env : Env} {t : CaseTables}

@[simp] theorem wp_column {σ : Type} {s : σ} {text : String}
    {Q : Timestamptz → σ → List OutboxRow → Prop} :
    (column text).wp Q s ↔ ∀ time, timestamptz text = some time → Q time s [] := Txn.wp_getOrThrow

theorem wp_onObjects {α : Type} {p : Query ObjectTables α}
    {Q : α → CaseTables → List OutboxRow → Prop}
    (h : p.wp (fun a objects ms => Q a { t with objects } ms) t.objects) : (onObjects p).wp Q t := by
  rw [Txn.wp_iff] at h ⊢
  rintro a t' ms hy
  obtain ⟨objects, hp, rfl⟩ := yields_onObjects.mp hy
  exact h a objects ms hp

theorem threeFractionDigits_nowIso (now : Clock) : ThreeFractionDigits (nowIso now) :=
  threeFractionDigits_toISOString _

/-- `appendCaseEvent` writes the event and moves the chain head to it. -/
theorem appendCaseEvent_wp {input : EventInput} :
    (appendCaseEvent sha256 key env input).wp (fun ref t' ms => ∃ r,
      Records sha256 key (input.envelope key env) r ∧ ref = ⟨r.eventId, r.eventDigest⟩ ∧
      t' = { t with events := t.events ++ [r], head := some ⟨r.caseSequence, r.eventDigest⟩ } ∧
      ms = [input.outboxRow key env r.eventDigest]) t := by
  simp only [appendCaseEvent, Txn.wp_bind, wp_column, wp_insertInto, Txn.wp_modify, Txn.wp_send,
    Txn.wp_pure]
  intro occurredAt hocc recordedAt hrec _ _
  refine ⟨_, ?_, rfl, rfl, rfl⟩
  exact ⟨rfl, rfl, rfl, rfl, rfl, rfl, hocc, hrec, rfl, rfl, rfl, rfl, rfl, rfl, rfl⟩

/-- `writeReceipt` adds a receipt under a new command id and a new idempotency key. -/
theorem writeReceipt_wp {commandId commandType idempotencyKey requestDigest : String} {sequence : ℕ}
    {identifiers : List (String × String)} {response : Json} :
    (writeReceipt sha256 commandId commandType idempotencyKey requestDigest sequence identifiers
      response).wp (fun _ t' ms => ∃ receipt : CommandReceiptRow, ms = [] ∧
        t' = { t with receipts := t.receipts ++ [receipt] } ∧ receipt.commandId = commandId ∧
        receipt.acceptedSequenceFrom = sequence ∧ receipt.acceptedSequenceTo = sequence ∧
        ∀ r ∈ t.receipts, r.commandId ≠ receipt.commandId ∧
          r.idempotencyKey ≠ receipt.idempotencyKey) t := by
  simp only [writeReceipt, Txn.wp_bind, wp_insertInto, id_eq]
  intro hid hkey
  refine ⟨_, rfl, rfl, rfl, rfl, rfl, fun r hr => ⟨fun h => hid ⟨r, hr, h⟩, fun h => hkey ⟨r, hr, h⟩⟩⟩

/-- What `appendCaseEvent` and `writeReceipt` wrote, put together. -/
theorem Appends.of_records {input : EventInput} {t' : CaseTables} {ms : List OutboxRow}
    {r : CaseEventRow} {receipt : CommandReceiptRow}
    (hr : Records sha256 key (input.envelope key env) r)
    (hrecordedAt : ThreeFractionDigits input.recordedAt) (hevents : t'.events = t.events ++ [r])
    (hhead : t'.head = some ⟨r.caseSequence, r.eventDigest⟩)
    (hreceipts : t'.receipts = t.receipts ++ [receipt]) (hid : receipt.commandId = input.commandId)
    (hfrom : receipt.acceptedSequenceFrom = input.sequence)
    (hto : receipt.acceptedSequenceTo = input.sequence)
    (hnew : ∀ r ∈ t.receipts, r.commandId ≠ receipt.commandId ∧
      r.idempotencyKey ≠ receipt.idempotencyKey)
    (hms : ms = [input.outboxRow key env r.eventDigest]) :
    Appends sha256 key t t' ms (input.envelope key env) r receipt where
  records := hr
  recordedAt := hrecordedAt
  events := hevents
  head := hhead
  receipts := hreceipts
  receiptOf := ⟨hid.trans hr.commandId.symm, hfrom.trans hr.caseSequence.symm,
    hto.trans hr.caseSequence.symm⟩
  outbox := ⟨_, hms, rfl, hr.caseSequence.symm, hr.eventId.symm, rfl, rfl, rfl⟩
  newReceipt := hnew

theorem insertCase_wp {request : CreateKycCaseRequest}
    {idempotencyKey commandId requestDigest : String} :
    (insertCase sha256 env request idempotencyKey commandId requestDigest).wp
      (fun answer t' ms => (∃ row eventId, answer = .created true row eventId) ∧
        Creates sha256 request idempotencyKey t t' ms) t := by
  simp only [insertCase, Txn.wp_bind, wp_column, wp_insertInto]
  intro createdAt _ habsent
  refine Txn.wp_mono appendCaseEvent_wp ?_
  rintro ref _ _ ⟨r, hr, rfl, rfl, rfl⟩
  refine Txn.wp_mono writeReceipt_wp ?_
  rintro _ _ _ ⟨receipt, rfl, rfl, hid, hfrom, hto, hnew⟩
  refine ⟨⟨_, _, rfl⟩, by simpa using habsent, ⟨createdAt, rfl⟩, rfl,
    (createdEvent sha256 request commandId (nowIso env.timestamp)).envelope
      (createKey sha256 request idempotencyKey) env,
    r, receipt, ?_, rfl, rfl, threeFractionDigits_nowIso env.timestamp⟩
  exact .of_records hr (threeFractionDigits_nowIso env.timestamp) rfl rfl rfl hid hfrom hto hnew rfl

theorem insertLineage_wp {s : ObjectTables} {eventId : String} (edges : List LineageEdge) (i : ℕ) :
    (insertLineage env eventId edges i).wp
      (fun _ s' ms => ms = [] ∧ ∃ rows, s' = { s with lineageEdges := rows }) s := by
  induction edges generalizing i s with
  | nil => exact ⟨rfl, s.lineageEdges, rfl⟩
  | cons edge edges ih =>
    simp only [insertLineage, Txn.wp_bind, wp_insertInto]
    intro _
    refine Txn.wp_mono (ih (i + 1)) ?_
    rintro _ s' ms ⟨rfl, rows, rfl⟩
    exact ⟨rfl, rows, rfl⟩

/-- An event occurred when its command says, else at a clock reading. -/
theorem occurredAt_commandEvent (env : Env) (command : BusinessCommand) (current : CaseRow)
    (head : Option ChainHeadRow) (mutation : MutationResult) :
    ThreeFractionDigits (commandEvent env command current head mutation).occurredAt ∨
      ∃ text ∈ command.occurredAt,
        (commandEvent env command current head mutation).occurredAt = text.val := by
  simp only [commandEvent]
  cases command.occurredAt with
  | none => exact .inl (threeFractionDigits_nowIso _)
  | some text => exact .inr ⟨text, rfl, rfl⟩

theorem acceptCommand_wp {evidenceRequireScan : Bool} {command : BusinessCommand}
    {requestDigest : String} {current : CaseRow} (hcurrent : t.cases = some current) :
    (acceptCommand sha256 env evidenceRequireScan command requestDigest current).wp
      (fun answer t' ms => (∃ response, answer = .response response false) ∧
        ∃ mutation, Accepts sha256 command t t' ms current mutation) t := by
  simp only [acceptCommand, Txn.wp_bind, Txn.wp_require, Txn.wp_mapThrow, Txn.wp_get, wp_column,
    Txn.wp_modify]
  intro _ _ _
  refine wp_onObjects (Txn.wp_mono applyMutation_wp ?_)
  rintro mutation objects _ ⟨rfl, hmut⟩
  refine Txn.wp_mono appendCaseEvent_wp ?_
  rintro ref _ _ ⟨r, hr, rfl, rfl, rfl⟩
  refine wp_onObjects (Txn.wp_mono (insertLineage_wp _ 0) ?_)
  rintro _ _ _ ⟨rfl, edges, rfl⟩ updatedAt _
  refine Txn.wp_mono writeReceipt_wp ?_
  rintro _ _ _ ⟨receipt, rfl, rfl, hid, hfrom, hto, hnew⟩
  refine ⟨⟨_, rfl⟩, mutation, hcurrent, ⟨updatedAt, by simp [hcurrent]⟩, ⟨objects, edges, hmut, rfl⟩,
    (commandEvent env command current t.head mutation).envelope (commandKey command) env,
    r, receipt, ?_, rfl, rfl,
    occurredAt_commandEvent env command current t.head mutation⟩
  exact .of_records hr (threeFractionDigits_nowIso env.recordedAt) rfl rfl rfl hid hfrom hto hnew rfl

/-- **What a call may do.** -/
theorem call_underLock (sha256 : List Char → String) (evidenceRequireScan : Bool)
    (P : CaseTables → Prop) (call : Call) :
    ((caseService sha256 evidenceRequireScan).txn call).underLock P
      fun t answer t' ms => Effect sha256 call t answer t' ms := by
  cases call with
  | createKycCase env request idempotencyKey =>
    simp only [caseService, Call.txn, createKycCase, Txn.underLock_require_bind,
      Txn.underLock_mapThrow, Txn.underLock_advisoryLock_bind, Txn.underLock_get_bind]
    intro _ t _
    split
    · simp only [Txn.underLock_require_bind, Txn.underLock_get_bind,
        Txn.underLock_getOrThrow_bind, Txn.underLock_pure]
      intro _ _ _ row _ t
      exact .existing env request idempotencyKey t row _
    · rw [Txn.underLock_lockKey_bind]
      intro t
      refine Txn.wp_mono insertCase_wp ?_
      rintro _ t' ms ⟨⟨row, eventId, rfl⟩, h⟩
      exact .created env request idempotencyKey t row eventId t' ms h
  | submitBusinessCommand env command =>
    simp only [caseService, Call.txn, submitBusinessCommand, Txn.underLock_require_bind,
      Txn.underLock_mapThrow, Txn.underLock_lockKey_bind, Txn.underLock_get_bind, Txn.wp_bind,
      Txn.wp_get, Txn.wp_getOrThrow]
    intro _ _ _ t current hcurrent
    split
    · simp only [Txn.wp_bind, Txn.wp_require, Txn.wp_pure]
      intro _
      exact .replayed env command t _
    · refine Txn.wp_mono (acceptCommand_wp hcurrent) ?_
      rintro _ t' ms ⟨⟨response, rfl⟩, mutation, h⟩
      exact .accepted env command t response t' ms current mutation h
  | registerEvidence key evidenceId =>
    simp only [caseService, Call.txn, registerEvidence, Txn.underLock_require_bind,
      Txn.underLock_lockKey_bind, Txn.underLock_get_bind, Txn.wp_bind]
    intro _ _ _ t
    refine wp_onObjects ?_
    simp only [wp_insertInto]
    intro _
    exact .registered key evidenceId t _ _ ⟨rfl, _, rfl⟩

end

end CaseStore

end HarnessFramework
