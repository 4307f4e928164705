import HarnessFramework.CaseStore.SubmitSpec
import HarnessFramework.Library.HashChain

/-!
# The ledger of a case

In every state that transactions reach, side by side and failing at any statement, the five tables
of a case's ledger say the same.

## Main definitions

* `LedgerCoherent` — what ties a case's events, sequence, chain head, receipts and outbox rows
* `CaseSystem` — clients of the case store, side by side

## Main results

* `LedgerCoherent.appends` — one appended event keeps it
* `store_ledgerCoherent` — whole transactions keep it
* `ledger_coherent` — every interleaving keeps it, and a call that throws changes nothing
-/

namespace HarnessFramework

namespace CaseStore

/-- Clients of the case store, side by side. -/
abbrev CaseSystem (ι : Type) : Type := System ι CaseKey Call CaseTables OutboxRow Failure Answer

/-- The sequence of a case, 0 before it exists. -/
def CaseTables.sequence (t : CaseTables) : ℕ := (t.cases.map (·.caseSequence)).getD 0

theorem CaseTables.sequence_of_some {t : CaseTables} {row : CaseRow} (h : t.cases = some row) :
    t.sequence = row.caseSequence := by simp [CaseTables.sequence, h]

theorem CaseTables.sequence_of_none {t : CaseTables} (h : t.cases = none) : t.sequence = 0 := by
  simp [CaseTables.sequence, h]

/-- What ties a case's events, sequence, chain head, receipts and outbox rows. -/
structure LedgerCoherent (key : CaseKey) (t : CaseTables) (outbox : List OutboxRow) : Prop where
  /-- The sequences are 1, 2, … up to the sequence of the case. -/
  sequences : t.events.map (·.caseSequence) = List.range' 1 t.sequence
  /-- Event 1 has no previous digest, every later one the digest of the event before it. -/
  linked : Linked CaseEventRow.eventDigest CaseEventRow.previousEventDigest none t.events
  /-- The chain head is the last event. -/
  head : t.head = t.events.getLast?.map fun r => ⟨r.caseSequence, r.eventDigest⟩
  /-- One receipt per event, with the event's command and sequence. -/
  receipts : t.receipts.map (fun r => (r.commandId, r.acceptedSequenceFrom, r.acceptedSequenceTo))
    = t.events.map fun r => (r.commandId, r.caseSequence, r.caseSequence)
  /-- One outbox row per event, with the event's digest. -/
  outboxRows : (outbox.filter fun o => o.case = key).map
      (fun o => (o.caseSequence, o.eventId, o.sourceEventDigest))
    = t.events.map fun r => (r.caseSequence, r.eventId, r.eventDigest)
  /-- Rows are purged after publication only. -/
  purged : ∀ o ∈ outbox, o.purged = true → o.publishedAt.isSome

/-! ## What keeps it -/

section

variable {sha256 : List Char → String} {key : CaseKey} {t t' : CaseTables}
  {out ms : List OutboxRow} {w : EventEnvelope} {r : CaseEventRow} {receipt : CommandReceiptRow}

theorem ledgerCoherent_empty (key : CaseKey) : LedgerCoherent key .empty [] := by
  refine ⟨rfl, trivial, rfl, rfl, rfl, ?_⟩
  simp

theorem LedgerCoherent.headDigest_eq (h : LedgerCoherent key t out) :
    headDigest CaseEventRow.eventDigest none t.events = t.head.map (·.eventDigest) := by
  rw [headDigest_eq_getLast?, h.head]
  cases t.events.getLast? <;> rfl

/-- A case that does not exist has no chain head. -/
theorem LedgerCoherent.head_eq_none (h : LedgerCoherent key t out) (hcase : t.cases = none) :
    t.head = none := by
  have hseq := h.sequences
  rw [CaseTables.sequence_of_none hcase, List.range'_zero, List.map_eq_nil_iff] at hseq
  rw [h.head, hseq]; rfl

/-- **One appended event keeps the ledger coherent.** -/
theorem LedgerCoherent.appends (h : LedgerCoherent key t out)
    (ha : Appends sha256 key t t' ms w r receipt) (hseq : w.caseSequence = t.sequence + 1)
    (hseq' : t'.sequence = t.sequence + 1)
    (hprev : w.previousEventDigest = t.head.map (·.eventDigest)) :
    LedgerCoherent key t' (out ++ ms) := by
  obtain ⟨o, rfl, hcase, hoseq, hoid, hodigest, hpub, hpurged⟩ := ha.outbox
  have hr := ha.records
  refine ⟨?_, ?_, ?_, ?_, ?_, ?_⟩
  · rw [ha.events, List.map_append, h.sequences, hseq', List.range'_concat, List.map_singleton,
      hr.caseSequence, hseq, Nat.one_mul, Nat.add_comm]
  · rw [ha.events, linked_concat, h.headDigest_eq]
    exact ⟨h.linked, hr.previousEventDigest.trans hprev⟩
  · rw [ha.head, ha.events, List.getLast?_concat]; rfl
  · rw [ha.receipts, ha.events, List.map_append, List.map_append, h.receipts, List.map_singleton,
      List.map_singleton, ha.receiptOf.1, ha.receiptOf.2.1, ha.receiptOf.2.2]
  · rw [List.filter_append, List.map_append, h.outboxRows, ha.events, List.map_append,
      List.filter_cons_of_pos (by simpa using hcase), List.filter_nil, List.map_singleton,
      List.map_singleton, hoseq, hoid, hodigest]
  · intro o' ho' hp
    rcases List.mem_append.mp ho' with ho' | ho'
    · exact h.purged o' ho' hp
    · obtain rfl := List.mem_singleton.mp ho'
      rw [hpurged] at hp; cases hp

/-- Outbox rows of another case do not matter. -/
theorem LedgerCoherent.append_other (h : LedgerCoherent key t out)
    (hms : ∀ o ∈ ms, o.case ≠ key ∧ o.purged = false) : LedgerCoherent key t (out ++ ms) := by
  refine ⟨h.sequences, h.linked, h.head, h.receipts, ?_, ?_⟩
  · have hnone : (ms.filter fun o => o.case = key) = [] :=
      List.filter_eq_nil_iff.mpr fun o ho => by simpa using (hms o ho).1
    rw [List.filter_append, hnone, List.append_nil]
    exact h.outboxRows
  · intro o ho hp
    rcases List.mem_append.mp ho with ho | ho
    · exact h.purged o ho hp
    · rw [(hms o ho).2] at hp; cases hp

theorem RelayedRow.eq {o o' : OutboxRow} (h : RelayedRow o o') :
    o'.case = o.case ∧ o'.caseSequence = o.caseSequence ∧ o'.eventId = o.eventId ∧
      o'.sourceEventDigest = o.sourceEventDigest := by
  cases h <;> exact ⟨rfl, rfl, rfl, rfl⟩

theorem RelayedRow.purged {o o' : OutboxRow} (h : RelayedRow o o')
    (ho : o.purged = true → o.publishedAt.isSome) : o'.purged = true → o'.publishedAt.isSome := by
  cases h with
  | same => exact ho
  | publish time hno => exact fun _ => rfl
  | purge hpub => exact fun _ => hpub

/-- Relays and purges keep the ledger coherent. -/
theorem LedgerCoherent.relayed {out' : List OutboxRow} (h : LedgerCoherent key t out)
    (hrel : OutboxRelay out out') : LedgerCoherent key t out' := by
  refine ⟨h.sequences, h.linked, h.head, h.receipts, ?_, ?_⟩
  · rw [← h.outboxRows]
    clear h
    induction hrel with
    | nil => rfl
    | cons ho _ ih =>
      obtain ⟨hcase, hseq, hid, hdigest⟩ := ho.eq
      simp only [List.filter_cons, hcase]
      split
      · simp only [List.map_cons, ih, hseq, hid, hdigest]
      · exact ih
  · have hpurged := h.purged
    clear h
    induction hrel with
    | nil => exact hpurged
    | cons ho _ ih =>
      rw [List.forall_mem_cons] at hpurged ⊢
      exact ⟨ho.purged hpurged.1, ih hpurged.2⟩

theorem LedgerCoherent.registers (h : LedgerCoherent key t out) (hr : Registers t t' ms) :
    LedgerCoherent key t' (out ++ ms) := by
  obtain ⟨rfl, rows, rfl⟩ := hr
  rw [List.append_nil]
  exact ⟨h.sequences, h.linked, h.head, h.receipts, h.outboxRows, h.purged⟩

theorem LedgerCoherent.creates {request : CreateKycCaseRequest} {idempotencyKey : String}
    (h : LedgerCoherent (createKey sha256 request idempotencyKey) t out)
    (hc : Creates sha256 request idempotencyKey t t' ms) :
    LedgerCoherent (createKey sha256 request idempotencyKey) t' (out ++ ms) := by
  obtain ⟨w, r, receipt, happ, hseq, hprev, -⟩ := hc.appends
  obtain ⟨createdAt, hcases⟩ := hc.cases
  have hzero := CaseTables.sequence_of_none hc.absent
  refine h.appends happ (by rw [hseq, hzero]) ?_ ?_
  · rw [CaseTables.sequence_of_some hcases, hzero]; rfl
  · rw [hprev, h.head_eq_none hc.absent]; rfl

theorem LedgerCoherent.accepts {command : BusinessCommand} {current : CaseRow}
    {mutation : MutationResult} (h : LedgerCoherent (commandKey command) t out)
    (hc : Accepts sha256 command t t' ms current mutation) :
    LedgerCoherent (commandKey command) t' (out ++ ms) := by
  obtain ⟨w, r, receipt, happ, hseq, hprev, -⟩ := hc.appends
  obtain ⟨updatedAt, hcases⟩ := hc.cases
  have hcurrent := CaseTables.sequence_of_some hc.found
  refine h.appends happ (by rw [hseq, hcurrent]) ?_ hprev
  rw [CaseTables.sequence_of_some hcases, hcurrent]

/-- What a call does keeps the ledger of its case coherent. -/
theorem LedgerCoherent.effect {evidenceRequireScan : Bool} {call : Call} {answer : Answer}
    (h : LedgerCoherent ((caseService sha256 evidenceRequireScan).key call) t out)
    (he : Effect sha256 call t answer t' ms) :
    LedgerCoherent ((caseService sha256 evidenceRequireScan).key call) t' (out ++ ms) := by
  cases he with
  | replayed => rwa [List.append_nil]
  | existing => rwa [List.append_nil]
  | created env request idempotencyKey t row eventId t' ms hc => exact h.creates hc
  | accepted env command t response t' ms current mutation hc => exact h.accepts hc
  | registered key evidenceId t t' ms hr => exact h.registers hr

/-- The outbox rows that a call sends are of its case. -/
theorem Effect.outbox {evidenceRequireScan : Bool} {call : Call} {answer : Answer}
    (he : Effect sha256 call t answer t' ms) :
    ∀ o ∈ ms, o.case = (caseService sha256 evidenceRequireScan).key call ∧ o.purged = false := by
  have happends {key : CaseKey} {w : EventEnvelope} {r : CaseEventRow}
      {receipt : CommandReceiptRow} {t t' : CaseTables} {ms : List OutboxRow}
      (ha : Appends sha256 key t t' ms w r receipt) : ∀ o ∈ ms, o.case = key ∧ o.purged = false := by
    obtain ⟨o, rfl, hcase, -, -, -, -, hpurged⟩ := ha.outbox
    intro o' ho'
    obtain rfl := List.mem_singleton.mp ho'
    exact ⟨hcase, hpurged⟩
  cases he with
  | replayed => simp
  | existing => simp
  | created env request idempotencyKey t row eventId t' ms hc =>
    obtain ⟨w, r, receipt, ha, -⟩ := hc.appends
    exact happends ha
  | accepted env command t response t' ms current mutation hc =>
    obtain ⟨w, r, receipt, ha, -⟩ := hc.appends
    exact happends ha
  | registered key evidenceId t t' ms hr => rw [hr.1]; simp

end

/-! ## Whole runs -/

section

variable {sha256 : List Char → String} {evidenceRequireScan : Bool}

/-- Whole transactions keep every ledger coherent. -/
theorem store_ledgerCoherent
    {st : Store CaseKey Call CaseTables OutboxRow Failure Answer}
    (h : Store.Reachable (caseService sha256 evidenceRequireScan) OutboxRelay noCases st) :
    ∀ key, LedgerCoherent key (st.db key) st.outbox := by
  refine Store.Reachable.invariant (fun st => ∀ key, LedgerCoherent key (st.db key) st.outbox)
    ledgerCoherent_empty ?_ h
  intro st st' ih hstep key
  rcases hstep.cases fun call => call_underLock sha256 evidenceRequireScan _ call with
    ⟨call, answer, t', ms, he, rfl⟩ | ⟨call, result, rfl⟩ | ⟨out, hrel, rfl⟩
  · by_cases hkey : key = (caseService sha256 evidenceRequireScan).key call
    · subst hkey
      simpa using (ih _).effect he
    · rw [Store.commit_db_of_ne hkey]
      refine (ih key).append_other fun o ho => ?_
      obtain ⟨hcase, hpurged⟩ : o.case = (caseService sha256 evidenceRequireScan).key call ∧ _ :=
        he.outbox o ho
      exact ⟨fun hk => hkey (hk.symm.trans hcase), hpurged⟩
  · exact ih key
  · exact (ih key).relayed hrel

/-- Calls that follow one another are a run of clients side by side. -/
theorem reachable_calls (sha256 : List Char → String) (evidenceRequireScan : Bool)
    (calls : List Call) : System.Reachable (caseService sha256 evidenceRequireScan) OutboxRelay noCases
      (System.idle (Store.calls (caseService sha256 evidenceRequireScan) ⟨noCases, [], []⟩ calls) :
        CaseSystem Unit) :=
  System.reachable_calls (call_underLock sha256 evidenceRequireScan) calls

end

/-! ## A run

A case is created and gets a subject. Every call has an actor of its own. -/

namespace Sample

/-- The environment of a call, with ids that end in `tag`. -/
def env (tag : String) : Env := ⟨now, now, fun _ _ => tag, 0⟩

def digest : Sha256Digest :=
  ⟨"0000000000000000000000000000000000000000000000000000000000000000", by decide⟩

/-- An analyst. -/
def analyst (principalId : NonEmpty) : CaseActor :=
  ⟨.human, principalId, none, [⟨"KYC.Analyst", by decide⟩]⟩

theorem tenant_ne_empty : "tenant" ≠ "" := by decide

theorem confidential_ne_empty : "CONFIDENTIAL" ≠ "" := by decide

def request : CreateKycCaseRequest :=
  ⟨⟨"tenant", tenant_ne_empty⟩, none, digest, digest, ⟨"CONFIDENTIAL", confidential_ne_empty⟩,
    analyst ⟨"creator", by decide⟩⟩

/-- A hash of all characters. -/
def checksum (cs : List Char) : String :=
  String.ofList (pad 6 (cs.foldl (fun h c => (h * 31 + c.toNat) % 999983) 7))

/-- Five characters of the text, from where a command or an event names its actor. -/
def actorDigest (cs : List Char) : String := String.ofList ((cs.drop 25).take 5)

section

variable (sha256 : List Char → String)

/-- The key of the case. -/
def caseKey : CaseKey := createKey sha256 request "create"

theorem caseId_ne : (caseKey sha256).caseId ≠ "" := by
  intro h
  have := congrArg String.toList h
  simp [caseKey, createKey, newCaseId] at this

/-- A command on the case, with its tag as command id, idempotency key and actor. -/
def command (tag : IdempotencyKey) (type : BusinessCommandType) (caseSequence : ℕ)
    (payload : List (String × Json)) (occurredAt : Option DatetimeText) : BusinessCommand where
  commandId := ⟨tag.val, tag.property.1⟩
  commandType := type
  commandVersion := ⟨"1", by decide⟩
  tenantId := request.tenantId
  caseId := ⟨(caseKey sha256).caseId, caseId_ne sha256⟩
  actor := analyst ⟨tag.val, tag.property.1⟩
  authority := ⟨digest, digest, digest⟩
  payload
  preconditions := ⟨caseSequence, none⟩
  idempotencyKey := tag
  occurredAt

/-! The tags of commands are idempotency keys. -/

theorem add_key : "add" ≠ "" ∧ (Json.utf16 "add").length ≤ 300 := by decide

theorem suspend_key : "suspend" ≠ "" ∧ (Json.utf16 "suspend").length ≤ 300 := by decide

theorem review_key : "review" ≠ "" ∧ (Json.utf16 "review").length ≤ 300 := by decide

theorem recommend_key : "recommend" ≠ "" ∧ (Json.utf16 "recommend").length ≤ 300 := by decide

theorem gate_key : "gate" ≠ "" ∧ (Json.utf16 "gate").length ≤ 300 := by decide

theorem finalize_key : "finalize" ≠ "" ∧ (Json.utf16 "finalize").length ≤ 300 := by decide

def createCall : Call := .createKycCase (env "1") request "create"

/-- The case gets a subject. -/
def subjectCall (occurredAt : Option DatetimeText) : Call :=
  .submitBusinessCommand (env "2") <| command sha256 ⟨"add", add_key⟩ .addSubject 1
    [("subjectType", .str "individual")] occurredAt

/-- The state after calls. -/
def after (calls : List Call) : CaseSystem Unit :=
  System.idle (Store.calls (caseService sha256 false) ⟨noCases, [], []⟩ calls)

theorem reachable_after (calls : List Call) :
    System.Reachable (caseService sha256 false) OutboxRelay noCases (after sha256 calls) :=
  reachable_calls sha256 false calls

end

end Sample

/-! ## Every run -/

/-- **The ledger invariant over whole runs.** In every state that clients of the case store reach
side by side, the ledger of every case is coherent; and a step in which a call throws leaves every
table as it was. -/
theorem ledger_coherent {sha256 : List Char → String} {evidenceRequireScan : Bool} {ι : Type}
    [DecidableEq ι] {s : CaseSystem ι}
    (h : System.Reachable (caseService sha256 evidenceRequireScan) OutboxRelay noCases s) :
    (∀ key, LedgerCoherent key (s.db key) s.outbox) ∧
      ∀ s' call e before after, System.Step (caseService sha256 evidenceRequireScan) OutboxRelay s s' →
        s'.log = s.log ++ [⟨call, .error e, before, after⟩] → s'.db = s.db ∧ s'.outbox = s.outbox := by
  refine ⟨store_ledgerCoherent h.store, ?_⟩
  intro s' call e before after hstep hlog
  cases hstep with
  | commit i x a hi hr => simp [System.finish, System.committed] at hlog
  | rollback i x e hi hr => exact ⟨rfl, rfl⟩
  | fail i x e hi => exact ⟨rfl, rfl⟩
  | _ => simp [System.put] at hlog

open Sample in
set_option maxRecDepth 10000 in
theorem ledger_coherent_sample :
    LedgerCoherent (caseKey checksum)
        ((after checksum [createCall, subjectCall checksum none]).db (caseKey checksum))
        (after checksum [createCall, subjectCall checksum none]).outbox ∧
      ((after checksum [createCall, subjectCall checksum none]).db (caseKey checksum)).sequence = 2 :=
  ⟨(ledger_coherent (reachable_after checksum [createCall, subjectCall checksum none])).1 _,
    by decide +kernel⟩

end CaseStore

end HarnessFramework
