import HarnessFramework.CaseStore.Metadata
import HarnessFramework.CaseStore.Verification

/-!
# The tables of all cases

The tables of the three schemas of the case store, with the rows of all cases and tenants. Every statement
of `createKycCase` and `submitBusinessCommand` is on rows `where tenant_id = $1 and case_id = $2`, so that
such a call works on the rows of one case, as `Submit` has it. The unique keys that span cases are the
reference of a case within its tenant, and the ids of events and outbox rows. `registerEvidence` is on the
tables of the evidence store as they are.

The columns that rows leave out are copies of what the call was given that wrote them. The calls that were
accepted are kept for them.

## Main definitions

* `Database`, `Database.ofCase` — the tables, and the rows of a case
* `Database.tenant` — the rows of a tenant
* `Database.call`, `Database.register` — the calls that write
* `listCases`, `getCaseView` — calls that read
* `Apart` — nothing of the other tenants clashes with the tenant

## Main results

* `call_tenant`, `register_tenant` — a call of a tenant does the same on the rows of the tenant alone
* `tenant_call`, `tenant_register` — a call of another tenant leaves them as they are
-/

namespace HarnessFramework

namespace CaseStore

/-! ## Rows with their case -/

section

variable {ρ : Type}

/-- A row with its `tenant_id` and `case_id`. -/
abbrev WithCase (ρ : Type) : Type := CaseKey × ρ

/-- `where tenant_id = $1 and case_id = $2`. -/
def rowsOf (key : CaseKey) (rows : List (WithCase ρ)) : List ρ :=
  (rows.filter fun r => r.1 = key).map (·.2)

/-- The rows of a case are now others. -/
def putRows (key : CaseKey) (new : List ρ) (rows : List (WithCase ρ)) : List (WithCase ρ) :=
  (rows.filter fun r => r.1 ≠ key) ++ new.map fun r => (key, r)

/-- `where tenant_id = $1`. -/
def ofTenant (tenantId : String) (rows : List (WithCase ρ)) : List (WithCase ρ) :=
  rows.filter fun r => r.1.tenantId = tenantId

variable {key : CaseKey} {tenantId : String} {new : List ρ} {rows : List (WithCase ρ)}

theorem rowsOf_ofTenant (h : key.tenantId = tenantId) :
    rowsOf key (ofTenant tenantId rows) = rowsOf key rows := by
  rw [rowsOf, ofTenant, List.filter_filter, rowsOf]
  refine congrArg _ (List.filter_congr fun r _ => ?_)
  by_cases hkey : r.1 = key
  · simp [hkey, h]
  · simp [hkey]

/-- Rows of a case of the tenant. -/
theorem ofTenant_putRows (h : key.tenantId = tenantId) :
    ofTenant tenantId (putRows key new rows) = putRows key new (ofTenant tenantId rows) := by
  rw [ofTenant, putRows, List.filter_append, putRows, ofTenant, List.filter_filter, List.filter_filter]
  congr 1
  · exact List.filter_congr fun r _ => Bool.and_comm ..
  · rw [List.filter_eq_self]
    simp [h]

/-- Rows of a case of another tenant. -/
theorem ofTenant_putRows_of_ne (h : key.tenantId ≠ tenantId) :
    ofTenant tenantId (putRows key new rows) = ofTenant tenantId rows := by
  have hnew : (new.map fun r => (key, r)).filter (fun r => r.1.tenantId = tenantId) = [] := by
    rw [List.filter_eq_nil_iff]
    simp [h]
  rw [ofTenant, putRows, List.filter_append, hnew, List.append_nil, List.filter_filter, ofTenant]
  refine List.filter_congr fun r _ => ?_
  by_cases hr : r.1.tenantId = tenantId
  · have hne : r.1 ≠ key := fun hkey => h (hkey ▸ hr)
    simp [hr, hne]
  · simp [hr]

theorem mem_of_rowsOf {r : ρ} (h : r ∈ rowsOf key rows) : (key, r) ∈ rows := by
  obtain ⟨⟨key', r⟩, hr, rfl⟩ := List.mem_map.mp h
  obtain ⟨hmem, hkey⟩ := List.mem_filter.mp hr
  obtain rfl : key' = key := by simpa using hkey
  exact hmem

/-- A `where` finds a row among those that all such rows are among. -/
theorem exists_mem_filter {p : ρ → Prop} {q : ρ → Bool} {rows : List ρ}
    (h : ∀ r ∈ rows, p r → q r = true) : (∃ r ∈ rows.filter q, p r) ↔ ∃ r ∈ rows, p r := by
  constructor
  · rintro ⟨r, hr, hp⟩
    exact ⟨r, (List.mem_filter.mp hr).1, hp⟩
  · rintro ⟨r, hr, hp⟩
    exact ⟨r, List.mem_filter.mpr ⟨hr, h r hr hp⟩, hp⟩

/-- A `select` is as it was without rows that it selects nothing of. -/
theorem filterMap_filter_of_none {β : Type} {f : ρ → Option β} {q : ρ → Bool} {rows : List ρ}
    (h : ∀ r, q r = false → f r = none) : (rows.filter q).filterMap f = rows.filterMap f := by
  rw [List.filterMap_filter]
  refine List.filterMap_congr fun r _ => ?_
  by_cases hr : q r = true
  · rw [if_pos hr]
  · rw [if_neg hr, h r (Bool.eq_false_of_not_eq_true hr)]

/-- So is a `join`. -/
theorem flatMap_filter_of_nil {β : Type} {f : ρ → List β} {q : ρ → Bool} {rows : List ρ}
    (h : ∀ r, q r = false → f r = []) : (rows.filter q).flatMap f = rows.flatMap f := by
  induction rows with
  | nil => rfl
  | cons r rows ih =>
    by_cases hr : q r = true
    · rw [List.filter_cons_of_pos hr, List.flatMap_cons, List.flatMap_cons, ih]
    · rw [List.filter_cons_of_neg hr, List.flatMap_cons, ih, h r (Bool.eq_false_of_not_eq_true hr),
        List.nil_append]

end

/-! ## The tables -/

/-- The tables. -/
structure Database where
  cases : List (WithCase CaseRow)
  events : List (WithCase CaseEventRow)
  heads : List (WithCase ChainHeadRow)
  receipts : List (WithCase CommandReceiptRow)
  outbox : List OutboxRow
  subjects : List (WithCase SubjectRow)
  subjectIdentifiers : List (WithCase SubjectIdentifierRow)
  evidenceRefs : List (WithCase EvidenceRefRow)
  claims : List (WithCase ClaimRow)
  facts : List (WithCase FactRow)
  findings : List (WithCase FindingRow)
  assumptions : List (WithCase AssumptionRow)
  contradictions : List (WithCase ContradictionRow)
  workItems : List (WithCase WorkItemRow)
  executionRefs : List (WithCase ExecutionRefRow)
  recommendations : List (WithCase RecommendationRow)
  gateResults : List (WithCase GateResultRow)
  reviews : List (WithCase ReviewRow)
  dispositions : List (WithCase DispositionRow)
  lineageEdges : List (WithCase LineageEdgeRow)
  /-- The tables of the evidence store. -/
  evidence : List Evidence.Row
  /-- The calls that were accepted. -/
  accepted : List (WithCase Call)

/-- The tenant of a row of the evidence store. -/
def Evidence.Row.tenantId : Evidence.Row → String
  | .case tenantId _ => tenantId
  | .artifact row => row.tenantId
  | .evidence row => row.tenantId
  | .receipt row => row.tenantId
  | .outbox row | .purged row => row.tenantId

namespace Database

/-- Tables without rows. -/
def empty : Database :=
  ⟨[], [], [], [], [], [], [], [], [], [], [], [], [], [], [], [], [], [], [], [], [], []⟩

/-- The evidence of a case. -/
def evidenceOf (db : Database) (key : CaseKey) : List Evidence.EvidenceRow :=
  db.evidence.filterMap fun
    | .evidence row => if row.tenantId = key.tenantId ∧ row.caseId = key.caseId then some row else none
    | _ => none

/-- The rows of a case: in every table those `where tenant_id = $1 and case_id = $2`. -/
def ofCase (db : Database) (key : CaseKey) : CaseTables where
  cases := (rowsOf key db.cases).head?
  events := rowsOf key db.events
  head := (rowsOf key db.heads).head?
  receipts := rowsOf key db.receipts
  objects := {
    subjects := rowsOf key db.subjects
    subjectIdentifiers := rowsOf key db.subjectIdentifiers
    evidenceObjects := (db.evidenceOf key).map fun row =>
      ⟨row.evidenceId, row.verificationStatus, row.scanStatus⟩
    evidenceRefs := rowsOf key db.evidenceRefs
    claims := rowsOf key db.claims
    facts := rowsOf key db.facts
    findings := rowsOf key db.findings
    assumptions := rowsOf key db.assumptions
    contradictions := rowsOf key db.contradictions
    workItems := rowsOf key db.workItems
    executionRefs := rowsOf key db.executionRefs
    recommendations := rowsOf key db.recommendations
    gateResults := rowsOf key db.gateResults
    reviews := rowsOf key db.reviews
    dispositions := rowsOf key db.dispositions
    lineageEdges := rowsOf key db.lineageEdges }

/-- The rows of a case are now these. Commands do not write evidence. -/
def put (db : Database) (key : CaseKey) (t : CaseTables) : Database :=
  { db with
    cases := putRows key t.cases.toList db.cases
    events := putRows key t.events db.events
    heads := putRows key t.head.toList db.heads
    receipts := putRows key t.receipts db.receipts
    subjects := putRows key t.objects.subjects db.subjects
    subjectIdentifiers := putRows key t.objects.subjectIdentifiers db.subjectIdentifiers
    evidenceRefs := putRows key t.objects.evidenceRefs db.evidenceRefs
    claims := putRows key t.objects.claims db.claims
    facts := putRows key t.objects.facts db.facts
    findings := putRows key t.objects.findings db.findings
    assumptions := putRows key t.objects.assumptions db.assumptions
    contradictions := putRows key t.objects.contradictions db.contradictions
    workItems := putRows key t.objects.workItems db.workItems
    executionRefs := putRows key t.objects.executionRefs db.executionRefs
    recommendations := putRows key t.objects.recommendations db.recommendations
    gateResults := putRows key t.objects.gateResults db.gateResults
    reviews := putRows key t.objects.reviews db.reviews
    dispositions := putRows key t.objects.dispositions db.dispositions
    lineageEdges := putRows key t.objects.lineageEdges db.lineageEdges }

/-- The rows of a tenant. -/
def tenant (db : Database) (tenantId : String) : Database where
  cases := ofTenant tenantId db.cases
  events := ofTenant tenantId db.events
  heads := ofTenant tenantId db.heads
  receipts := ofTenant tenantId db.receipts
  outbox := db.outbox.filter fun o => o.case.tenantId = tenantId
  subjects := ofTenant tenantId db.subjects
  subjectIdentifiers := ofTenant tenantId db.subjectIdentifiers
  evidenceRefs := ofTenant tenantId db.evidenceRefs
  claims := ofTenant tenantId db.claims
  facts := ofTenant tenantId db.facts
  findings := ofTenant tenantId db.findings
  assumptions := ofTenant tenantId db.assumptions
  contradictions := ofTenant tenantId db.contradictions
  workItems := ofTenant tenantId db.workItems
  executionRefs := ofTenant tenantId db.executionRefs
  recommendations := ofTenant tenantId db.recommendations
  gateResults := ofTenant tenantId db.gateResults
  reviews := ofTenant tenantId db.reviews
  dispositions := ofTenant tenantId db.dispositions
  lineageEdges := ofTenant tenantId db.lineageEdges
  evidence := db.evidence.filter fun row => row.tenantId = tenantId
  accepted := ofTenant tenantId db.accepted

end Database

/-! ## Calls -/

/-- The clock readings and random ids of a call. -/
def Call.env? : Call → Option Env
  | createKycCase env _ _ | submitBusinessCommand env _ => some env
  | registerEvidence _ _ => none

/-- What a call throws when a row that it inserts shares a key with a row of another case. -/
def Call.conflict : Call → String → Failure
  | createKycCase .., constraint => asConflict "case.conflict" (.unique constraint)
  | submitBusinessCommand .., constraint => asConflict "command.conflict" (.unique constraint)
  | registerEvidence .., constraint => .unique constraint

/-- The call wrote something: it did not find its receipt. -/
def Answer.isNew : Answer → Bool
  | .created new _ _ => new
  | .response _ replayed => !replayed
  | .registered _ => true

namespace Database

/-- The unique key that spans cases, if there is one, that rows which a call inserts share with rows that
are there. No statement that follows in the call reads what this depends on. -/
def violated (db : Database) (key : CaseKey) (before after : CaseTables) (sent : List OutboxRow) :
    Option String :=
  if before.cases = none ∧ ∃ row ∈ after.cases, ∃ ref ∈ row.externalRef,
      ∃ r ∈ db.cases, r.1.tenantId = key.tenantId ∧ r.2.externalRef = some ref then
    some "cases_tenant_id_external_ref_key"
  else if ∃ e ∈ after.events.drop before.events.length, ∃ r ∈ db.events, r.2.eventId = e.eventId then
    some "case_events_event_id_key"
  else if ∃ m ∈ sent, ∃ o ∈ db.outbox, o.outboxId = m.outboxId then some "outbox_pkey"
  else if ∃ m ∈ sent, ∃ o ∈ db.outbox, o.eventId = m.eventId then some "outbox_event_id_key"
  else none

/-- The tables after a call. -/
def commit (db : Database) (key : CaseKey) (call : Call) (answer : Answer) (after : CaseTables)
    (sent : List OutboxRow) : Database :=
  { db.put key after with
    outbox := db.outbox ++ sent
    accepted := db.accepted ++ if answer.isNew then [(key, call)] else [] }

section

variable (sha256 : List Char → String) (evidenceRequireScan : Bool)

/-- `createKycCase` and `submitBusinessCommand`, at once. -/
def call (db : Database) (call : Call) : Except Failure (Answer × Database) :=
  let key := call.key sha256
  match (call.txn sha256 evidenceRequireScan).run (db.ofCase key) with
  | .error e => .error e
  | .ok (answer, after, sent) =>
    match db.violated key (db.ofCase key) after sent with
    | some constraint => .error (call.conflict constraint)
    | none => .ok (answer, db.commit key call answer after sent)

variable (contentSha256 : List UInt8 → String) (hashtext : String → ℤ) (evidenceMaxBytes : ℕ)

/-- The rows that `registerEvidence` is about: of `cases` the keys, and the evidence store. -/
def evidenceRows (db : Database) : List Evidence.Row :=
  (db.cases.map fun r => .case r.1.tenantId r.1.caseId) ++ db.evidence

/-- `registerEvidence`, at once. -/
def register (db : Database) (env : Env) (request : Evidence.RegisterEvidenceRequest)
    (idempotencyKey : String) : Except Evidence.Failure (Evidence.Answer × Database) :=
  ((Evidence.registerEvidence sha256 contentSha256 hashtext evidenceMaxBytes env request
    idempotencyKey).run Evidence.uniqueKeys db.evidenceRows []).map fun r =>
      (r.1, { db with evidence := db.evidence ++ r.2 })

end

end Database

/-! ## Reading -/

/-- The parts of a point in time, the greatest first. -/
def timeParts (t : Timestamptz) : List ℕ := [t.date.year, t.date.month, t.date.day, t.micros]

/-- `order by updated_at desc, case_id`, as the database orders texts. -/
def QueueOrder (collate : String → String → Bool) (a b : WithCase CaseRow) : Prop :=
  timeParts b.2.updatedAt < timeParts a.2.updatedAt ∨
    timeParts a.2.updatedAt = timeParts b.2.updatedAt ∧ collate a.1.caseId b.1.caseId = true

instance (collate : String → String → Bool) : DecidableRel (QueueOrder collate) := fun a b => by
  unfold QueueOrder; infer_instance

/-- `listCases`. -/
def listCases (collate : String → String → Bool) (db : Database) (tenantId : String)
    (status : Option KycCaseStatus) (limit : ℕ) : List (WithCase CaseRow) :=
  (((ofTenant tenantId db.cases).filter fun r => ∀ s ∈ status, r.2.status = s).insertionSort
    (QueueOrder collate)).take limit

/-- What `getCaseView` returns. -/
structure CaseView where
  generatedAt : String
  etag : String
  case : CaseRow
  evidence : List Evidence.EvidenceRow
  objects : ObjectTables
  /-- The calls whose copies fill the columns that rows leave out. -/
  accepted : List Call

/-- `getCaseView`. It does not select the identifiers of subjects. -/
def getCaseView (db : Database) (key : CaseKey) (now : Clock) : Option CaseView :=
  (rowsOf key db.cases).head?.map fun row =>
    { generatedAt := nowIso now
      etag := "W/\"" ++ key.caseId ++ ":" ++ toString row.caseSequence ++ "\""
      case := row
      evidence := db.evidenceOf key
      objects := { (db.ofCase key).objects with subjectIdentifiers := [] }
      accepted := rowsOf key db.accepted }

/-! ## Rows of a tenant -/

namespace Database

variable {db : Database} {key : CaseKey} {tenantId : String}

theorem evidenceOf_tenant (h : key.tenantId = tenantId) :
    (db.tenant tenantId).evidenceOf key = db.evidenceOf key := by
  refine filterMap_filter_of_none fun row hrow => ?_
  cases row with
  | evidence row =>
    have hne : row.tenantId ≠ tenantId := of_decide_eq_false hrow
    simp [h, hne]
  | _ => rfl

/-- The rows of a case are among the rows of its tenant. -/
theorem ofCase_tenant (h : key.tenantId = tenantId) : (db.tenant tenantId).ofCase key = db.ofCase key := by
  rw [ofCase, ofCase, evidenceOf_tenant h]
  simp only [tenant, rowsOf_ofTenant h]

/-! ### Reading -/

theorem listCases_tenant {collate : String → String → Bool} {status : Option KycCaseStatus}
    {limit : ℕ} :
    listCases collate (db.tenant tenantId) tenantId status limit =
      listCases collate db tenantId status limit := by
  have htwice : ofTenant tenantId (ofTenant tenantId db.cases) = ofTenant tenantId db.cases := by
    simp only [ofTenant, List.filter_filter, Bool.and_self]
  simp only [listCases, tenant, htwice]

theorem getCaseView_tenant {now : Clock} (h : key.tenantId = tenantId) :
    getCaseView (db.tenant tenantId) key now = getCaseView db key now := by
  rw [getCaseView, getCaseView, ofCase_tenant h, evidenceOf_tenant h]
  simp only [tenant, rowsOf_ofTenant h]

theorem getEvidence_tenant {evidenceId : String} :
    Evidence.getEvidence (db.tenant tenantId).evidence tenantId evidenceId =
      Evidence.getEvidence db.evidence tenantId evidenceId := by
  rw [Evidence.getEvidence, Evidence.joinedRows, tenant, flatMap_filter_of_nil]
  · refine congrArg _ (List.flatMap_congr fun row _ => ?_)
    cases row with
    | evidence e =>
      by_cases he : e.tenantId = tenantId ∧ e.evidenceId = evidenceId
      · simp only [if_pos he]
        refine filterMap_filter_of_none fun row hrow => ?_
        cases row with
        | artifact a =>
          have hne : a.tenantId ≠ e.tenantId := he.1 ▸ of_decide_eq_false hrow
          simp [hne]
        | _ => rfl
      · simp only [if_neg he]
    | _ => rfl
  · intro row hrow
    cases row with
    | evidence e =>
      have hne : e.tenantId ≠ tenantId := of_decide_eq_false hrow
      simp [hne]
    | _ => rfl

/-! ### Writing -/

section

variable {call : Call} {answer : Answer} {t : CaseTables} {sent : List OutboxRow}

/-- A call of the tenant. -/
theorem tenant_commit (h : key.tenantId = tenantId) (hsent : ∀ o ∈ sent, o.case = key) :
    (db.commit key call answer t sent).tenant tenantId =
      (db.tenant tenantId).commit key call answer t sent := by
  have hown : sent.filter (fun o => o.case.tenantId = tenantId) = sent :=
    List.filter_eq_self.mpr fun o ho => by simp [hsent o ho, h]
  have haccepted : ofTenant tenantId (db.accepted ++ if answer.isNew then [(key, call)] else []) =
      ofTenant tenantId db.accepted ++ if answer.isNew then [(key, call)] else [] := by
    rw [ofTenant, List.filter_append, ofTenant]
    split <;> simp [h]
  simp only [commit, put, tenant, ofTenant_putRows h, List.filter_append, hown, haccepted]

/-- A call of another tenant. -/
theorem tenant_commit_of_ne (h : key.tenantId ≠ tenantId) (hsent : ∀ o ∈ sent, o.case = key) :
    (db.commit key call answer t sent).tenant tenantId = db.tenant tenantId := by
  have hown : sent.filter (fun o => o.case.tenantId = tenantId) = [] :=
    List.filter_eq_nil_iff.mpr fun o ho => by simp [hsent o ho, h]
  have haccepted : ofTenant tenantId (db.accepted ++ if answer.isNew then [(key, call)] else []) =
      ofTenant tenantId db.accepted := by
    rw [ofTenant, List.filter_append, ofTenant]
    split <;> simp [h]
  simp only [commit, put, tenant, ofTenant_putRows_of_ne h, List.filter_append, hown, haccepted,
    List.append_nil]

end

end Database

/-! ## What calls draw -/

/-- The ids of the rows that a call inserts are the ones that it draws, and its outbox rows are of its
case. -/
structure Draws (sha256 : List Char → String) (call : Call) (t t' : CaseTables)
    (sent : List OutboxRow) : Prop where
  events : ∃ new, t'.events = t.events ++ new ∧
    ∀ r ∈ new, ∃ env ∈ call.env?, r.eventId = env.opaqueId "evt" 0
  outbox : ∀ o ∈ sent, o.case = call.key sha256 ∧
    ∃ env ∈ call.env?, o.outboxId = env.opaqueId "outbox" 0 ∧ o.eventId = env.opaqueId "evt" 0

section

variable {sha256 : List Char → String} {evidenceRequireScan : Bool} {call : Call} {t t' : CaseTables}

/-- A call that finds its receipt draws nothing. -/
theorem Draws.nothing : Draws sha256 call t t [] := ⟨⟨[], by simp⟩, by simp⟩

/-- A call that appends an event. -/
theorem Draws.of_records {env : Env} (henv : env ∈ call.env?) {input : EventInput} {r : CaseEventRow}
    (hr : Records sha256 (call.key sha256) (input.envelope (call.key sha256) env) r)
    (hevents : t'.events = t.events ++ [r]) {eventDigest : String} :
    Draws sha256 call t t' [input.outboxRow (call.key sha256) env eventDigest] := by
  refine ⟨⟨[r], hevents, ?_⟩, ?_⟩
  · intro r' hr'
    obtain rfl := List.mem_singleton.mp hr'
    exact ⟨env, henv, hr.eventId⟩
  · intro o ho
    obtain rfl := List.mem_singleton.mp ho
    exact ⟨rfl, env, henv, rfl, rfl⟩

theorem insertCase_draws {env : Env} {request : CreateKycCaseRequest}
    {idempotencyKey commandId requestDigest : String} :
    (insertCase sha256 env request idempotencyKey commandId requestDigest).wp
      (fun _ t' sent => Draws sha256 (.createKycCase env request idempotencyKey) t t' sent) t := by
  simp only [insertCase, Txn.wp_bind, wp_column, wp_insertInto]
  intro createdAt _ _
  refine Txn.wp_mono appendCaseEvent_wp ?_
  rintro ref _ _ ⟨r, hr, rfl, rfl, rfl⟩
  refine Txn.wp_mono writeReceipt_wp ?_
  rintro _ _ _ ⟨receipt, rfl, rfl, -⟩
  exact .of_records rfl hr rfl

theorem acceptCommand_draws {env : Env} {command : BusinessCommand} {requestDigest : String}
    {current : CaseRow} :
    (acceptCommand sha256 env evidenceRequireScan command requestDigest current).wp
      (fun _ t' sent => Draws sha256 (.submitBusinessCommand env command) t t' sent) t := by
  simp only [acceptCommand, Txn.wp_bind, Txn.wp_require, Txn.wp_mapThrow, Txn.wp_get, wp_column,
    Txn.wp_modify]
  intro _ _ _
  refine wp_onObjects (Txn.wp_mono applyMutation_wp ?_)
  rintro mutation objects _ ⟨rfl, -⟩
  refine Txn.wp_mono appendCaseEvent_wp ?_
  rintro ref _ _ ⟨r, hr, rfl, rfl, rfl⟩
  refine wp_onObjects (Txn.wp_mono (insertLineage_wp _ 0) ?_)
  rintro _ _ _ ⟨rfl, edges, rfl⟩ updatedAt _
  refine Txn.wp_mono writeReceipt_wp ?_
  rintro _ _ _ ⟨receipt, rfl, rfl, -⟩
  exact .of_records rfl hr rfl

/-- **What a call draws.** -/
theorem call_draws (sha256 : List Char → String) (evidenceRequireScan : Bool) (call : Call)
    (t : CaseTables) : (call.txn sha256 evidenceRequireScan).wp
      (fun _ t' sent => Draws sha256 call t t' sent) t := by
  cases call with
  | createKycCase env request idempotencyKey =>
    simp only [Call.txn, createKycCase, Txn.wp_bind, Txn.wp_require, Txn.wp_mapThrow, Txn.wp_get,
      Txn.wp_advisoryLock]
    intro _
    split
    · simp only [Txn.wp_bind, Txn.wp_require, Txn.wp_get, Txn.wp_getOrThrow, Txn.wp_pure]
      intro _ row _
      exact .nothing
    · rw [Txn.wp_bind, Txn.wp_lockKey]
      exact insertCase_draws
  | submitBusinessCommand env command =>
    simp only [Call.txn, submitBusinessCommand, Txn.wp_bind, Txn.wp_require, Txn.wp_mapThrow, Txn.wp_get,
      Txn.wp_lockKey, Txn.wp_getOrThrow]
    intro _ current _
    split
    · simp only [Txn.wp_bind, Txn.wp_require, Txn.wp_pure]
      intro _
      exact .nothing
    · exact acceptCommand_draws
  | registerEvidence key evidenceId =>
    simp only [Call.txn, registerEvidence, Txn.wp_bind, Txn.wp_require, Txn.wp_get, Txn.wp_lockKey]
    intro _
    refine wp_onObjects ?_
    simp only [wp_insertInto]
    intro _
    exact ⟨⟨[], by simp⟩, by simp⟩

end

/-! ## Apart from the other tenants -/

/-- Nothing that the other tenants have takes a key of the tenant: the ids of their events and outbox rows
were drawn in environments of theirs, and their artifacts are not in its partition. -/
structure Apart (sha256 : List Char → String) (tenantId : String) (others : Env → Prop)
    (db : Database) : Prop where
  events : ∀ r ∈ db.events, r.1.tenantId ≠ tenantId →
    ∃ env, others env ∧ r.2.eventId = env.opaqueId "evt" 0
  outbox : ∀ o ∈ db.outbox, o.case.tenantId ≠ tenantId →
    ∃ env, others env ∧ o.outboxId = env.opaqueId "outbox" 0 ∧ o.eventId = env.opaqueId "evt" 0
  registered : ∀ o, .outbox o ∈ db.evidence → o.tenantId ≠ tenantId →
    ∃ env, others env ∧ o.outboxId = env.opaqueId "outbox" 0
  artifacts : ∀ a, .artifact a ∈ db.evidence → a.tenantId ≠ tenantId →
    ∀ digest, a.artifactRef ≠ Evidence.artifactRef sha256 tenantId digest

/-- The ids that are drawn are none that the others draw. -/
structure Env.Fresh (others : Env → Prop) (env : Env) : Prop where
  event : ∀ env', others env' → env'.opaqueId "evt" 0 ≠ env.opaqueId "evt" 0
  outbox : ∀ env', others env' → env'.opaqueId "outbox" 0 ≠ env.opaqueId "outbox" 0

section

variable {sha256 : List Char → String} {evidenceRequireScan : Bool} {tenantId : String}
  {others : Env → Prop} {db db' : Database}

theorem apart_empty : Apart sha256 tenantId others .empty :=
  ⟨nofun, nofun, fun _ => nofun, fun _ => nofun⟩

section

variable {call : Call} {answer : Answer}

/-- Keys that span cases are taken by rows of the tenant, or not at all. -/
theorem violated_tenant (hapart : Apart sha256 tenantId others db)
    (hkey : (call.key sha256).tenantId = tenantId) (hfresh : ∀ env ∈ call.env?, env.Fresh others)
    {before after : CaseTables} {sent : List OutboxRow} (hdraws : Draws sha256 call before after sent) :
    (db.tenant tenantId).violated (call.key sha256) before after sent =
      db.violated (call.key sha256) before after sent := by
  obtain ⟨new, hevents, hnew⟩ := hdraws.events
  rw [Database.violated, Database.violated, hevents, List.drop_left]
  refine if_congr (and_congr_right fun _ => ?_) rfl
    (if_congr ?_ rfl (if_congr ?_ rfl (if_congr ?_ rfl rfl)))
  · refine exists_congr fun row => and_congr_right fun _ => exists_congr fun ref =>
      and_congr_right fun _ => ?_
    exact exists_mem_filter fun r _ hr => by simpa using hr.1.trans hkey
  · refine exists_congr fun e => and_congr_right fun he => exists_mem_filter fun r hr heq => ?_
    obtain ⟨env, henv, hid⟩ := hnew e he
    by_contra hne
    obtain ⟨env', henv', hid'⟩ := hapart.events r hr (by simpa using hne)
    exact (hfresh env henv).event env' henv' (by rw [← hid', heq, hid])
  · refine exists_congr fun m => and_congr_right fun hm => exists_mem_filter fun o ho heq => ?_
    obtain ⟨-, env, henv, hid, -⟩ := hdraws.outbox m hm
    by_contra hne
    obtain ⟨env', henv', hid', -⟩ := hapart.outbox o ho (by simpa using hne)
    exact (hfresh env henv).outbox env' henv' (by rw [← hid', heq, hid])
  · refine exists_congr fun m => and_congr_right fun hm => exists_mem_filter fun o ho heq => ?_
    obtain ⟨-, env, henv, -, hid⟩ := hdraws.outbox m hm
    by_contra hne
    obtain ⟨env', henv', -, hid'⟩ := hapart.outbox o ho (by simpa using hne)
    exact (hfresh env henv).event env' henv' (by rw [← hid', heq, hid])

/-- **A call of the tenant does the same on the rows of the tenant alone.** -/
theorem call_tenant (hapart : Apart sha256 tenantId others db)
    (hkey : (call.key sha256).tenantId = tenantId) (hfresh : ∀ env ∈ call.env?, env.Fresh others) :
    (db.tenant tenantId).call sha256 evidenceRequireScan call =
      (db.call sha256 evidenceRequireScan call).map fun r => (r.1, r.2.tenant tenantId) := by
  rw [Database.call, Database.call]
  simp only [Database.ofCase_tenant hkey]
  cases hrun : (call.txn sha256 evidenceRequireScan).run (db.ofCase (call.key sha256)) with
  | error e => rfl
  | ok r =>
    obtain ⟨answer, after, sent⟩ := r
    have hdraws := Txn.wp_iff.mp (call_draws sha256 evidenceRequireScan call _) _ _ _ hrun
    simp only [violated_tenant hapart hkey hfresh hdraws]
    split
    · rfl
    · rw [← Database.tenant_commit hkey fun o ho => (hdraws.outbox o ho).1]
      rfl

/-- What a call that returns did to the tables. -/
theorem Database.call_eq_ok (h : db.call sha256 evidenceRequireScan call = .ok (answer, db')) :
    ∃ after sent, Draws sha256 call (db.ofCase (call.key sha256)) after sent ∧
      db' = db.commit (call.key sha256) call answer after sent := by
  rw [Database.call] at h
  split at h
  · cases h
  · next answer after sent hrun =>
    split at h
    · cases h
    · cases h
      exact ⟨after, sent, Txn.wp_iff.mp (call_draws sha256 evidenceRequireScan call _) _ _ _ hrun, rfl⟩

/-- **A call of another tenant leaves the rows of the tenant as they are.** -/
theorem tenant_call (hkey : (call.key sha256).tenantId ≠ tenantId)
    (h : db.call sha256 evidenceRequireScan call = .ok (answer, db')) :
    db'.tenant tenantId = db.tenant tenantId := by
  obtain ⟨after, sent, hdraws, rfl⟩ := Database.call_eq_ok h
  exact Database.tenant_commit_of_ne hkey fun o ho => (hdraws.outbox o ho).1

theorem Apart.after_call (hapart : Apart sha256 tenantId others db)
    (hothers : (call.key sha256).tenantId ≠ tenantId → ∀ env ∈ call.env?, others env)
    (h : db.call sha256 evidenceRequireScan call = .ok (answer, db')) :
    Apart sha256 tenantId others db' := by
  obtain ⟨after, sent, hdraws, rfl⟩ := Database.call_eq_ok h
  refine ⟨?_, ?_, hapart.registered, hapart.artifacts⟩
  · intro r hr hne
    rcases List.mem_append.mp hr with hr | hr
    · exact hapart.events r (List.mem_filter.mp hr).1 hne
    · obtain ⟨e, he, rfl⟩ := List.mem_map.mp hr
      obtain ⟨new, hevents, hnew⟩ := hdraws.events
      rw [hevents] at he
      rcases List.mem_append.mp he with he | he
      · exact hapart.events _ (mem_of_rowsOf he) hne
      · obtain ⟨env, henv, hid⟩ := hnew e he
        exact ⟨env, hothers hne env henv, hid⟩
  · intro o ho hne
    rcases List.mem_append.mp ho with ho | ho
    · exact hapart.outbox o ho hne
    · obtain ⟨hcase, env, henv, hids⟩ := hdraws.outbox o ho
      rw [hcase] at hne
      exact ⟨env, hothers hne env henv, hids⟩

end

/-! ### Evidence -/

section

variable {contentSha256 : List UInt8 → String} {hashtext : String → ℤ} {evidenceMaxBytes : ℕ} {env : Env}
  {request : Evidence.RegisterEvidenceRequest} {idempotencyKey : String}

open Evidence in
/-- The rows of a registration. -/
def registrationRows (sha256 : List Char → String) (contentSha256 : List UInt8 → String) (env : Env)
    (request : RegisterEvidenceRequest) (idempotencyKey : String) : List Evidence.Row :=
  [.artifact (artifactRow sha256 contentSha256 request),
    .evidence (evidenceRow sha256 contentSha256 env request),
    .receipt (receiptRow sha256 contentSha256 env request idempotencyKey),
    .outbox (outboxRow sha256 contentSha256 env request)]

theorem receipt?_filter {rows : List Evidence.Row} {tenant key : String} :
    Evidence.receipt? (rows.filter fun row => row.tenantId = tenant) tenant key =
      Evidence.receipt? rows tenant key := by
  rw [Evidence.receipt?, ← List.head?_filterMap, filterMap_filter_of_none, List.head?_filterMap]
  · rfl
  · intro row hrow
    cases row with
    | receipt row =>
      have hne : row.tenantId ≠ tenant := of_decide_eq_false hrow
      simp [hne]
    | _ => rfl

/-- A registration sees rows of its tenant. -/
theorem registerEvidence_sees :
    (Evidence.registerEvidence sha256 contentSha256 hashtext evidenceMaxBytes env request
      idempotencyKey).Sees (fun row => row.tenantId = request.tenantId.val)
      (· ∈ registrationRows sha256 contentSha256 env request idempotencyKey) := by
  rw [Evidence.registerEvidence]
  refine Inserts.sees_require_bind fun _ => Inserts.sees_require_bind fun _ =>
    Inserts.sees_require_bind fun _ => Inserts.sees_require_bind fun _ =>
    Inserts.sees_require_bind fun _ => ?_
  refine Inserts.sees_get_bind (fun rows => by rw [receipt?_filter]) fun rows => ?_
  split
  · exact Inserts.sees_require_bind fun _ => trivial
  · refine Inserts.sees_get_bind (fun rows => ?_) fun rows => Inserts.sees_require_bind fun _ => ?_
    · have hmem : Evidence.Row.case request.tenantId request.caseId ∈
          rows.filter (fun row => row.tenantId = request.tenantId.val) ↔
          Evidence.Row.case request.tenantId request.caseId ∈ rows := by
        simp [List.mem_filter, Evidence.Row.tenantId]
      simp only [hmem]
    · exact ⟨by simp [registrationRows], by simp [registrationRows], by simp [registrationRows],
        by simp [registrationRows], trivial⟩

theorem tenantId_of_mem_registrationRows {row : Evidence.Row}
    (h : row ∈ registrationRows sha256 contentSha256 env request idempotencyKey) :
    row.tenantId = request.tenantId := by
  simp only [registrationRows, List.mem_cons, List.not_mem_nil, or_false] at h
  rcases h with rfl | rfl | rfl | rfl <;> rfl

theorem evidenceRows_tenant :
    (db.tenant tenantId).evidenceRows = db.evidenceRows.filter fun row => row.tenantId = tenantId := by
  rw [Database.evidenceRows, Database.evidenceRows, List.filter_append, List.filter_map]
  rfl

theorem mem_evidence_of_mem_evidenceRows {row : Evidence.Row} (h : row ∈ db.evidenceRows)
    (hcase : ∀ tenantId caseId, row ≠ .case tenantId caseId) : row ∈ db.evidence := by
  rcases List.mem_append.mp h with h | h
  · obtain ⟨r, -, rfl⟩ := List.mem_map.mp h
    exact absurd rfl (hcase _ _)
  · exact h

/-- Rows of the other tenants do not take the keys of a registration. -/
theorem not_clash (hapart : Apart sha256 tenantId others db) (hrequest : request.tenantId.val = tenantId)
    (hfresh : env.Fresh others) {row r : Evidence.Row}
    (hrow : row ∈ registrationRows sha256 contentSha256 env request idempotencyKey)
    (hr : r ∈ db.evidenceRows) (hne : r.tenantId ≠ tenantId) : ¬ Evidence.uniqueKeys.Clash row r := by
  intro hclash
  change row.clash r = true at hclash
  subst hrequest
  have hother : request.tenantId.val ≠ r.tenantId := fun heq => hne heq.symm
  simp only [registrationRows, List.mem_cons, List.not_mem_nil, or_false] at hrow
  rcases hrow with rfl | rfl | rfl | rfl
  · cases r with
    | artifact a =>
      rcases of_decide_eq_true hclash with ⟨htenant, -⟩ | href
      · exact hother htenant
      · have ha := mem_evidence_of_mem_evidenceRows hr nofun
        exact hapart.artifacts a ha hne _ href.symm
    | _ => cases hclash
  · cases r with
    | evidence e => exact hother (of_decide_eq_true hclash).1
    | _ => cases hclash
  · cases r with
    | receipt receipt => exact hother (of_decide_eq_true hclash).1
    | _ => cases hclash
  · cases r with
    | outbox o =>
      rcases of_decide_eq_true hclash with hid | ⟨htenant, -⟩
      · obtain ⟨env', henv', hid'⟩ := hapart.registered o (mem_evidence_of_mem_evidenceRows hr nofun) hne
        exact hfresh.outbox env' henv' (hid'.symm.trans hid.symm)
      · exact hother htenant
    | _ => cases hclash

/-- **A registration of the tenant does the same on the rows of the tenant alone.** -/
theorem register_tenant (hapart : Apart sha256 tenantId others db)
    (hrequest : request.tenantId.val = tenantId) (hfresh : env.Fresh others) :
    (db.tenant tenantId).register sha256 contentSha256 hashtext evidenceMaxBytes env request
        idempotencyKey =
      (db.register sha256 contentSha256 hashtext evidenceMaxBytes env request idempotencyKey).map
        fun r => (r.1, r.2.tenant tenantId) := by
  have hsees := @registerEvidence_sees sha256 contentSha256 hashtext evidenceMaxBytes env request
    idempotencyKey
  rw [hrequest] at hsees
  have hown : ∀ r, r ∈ registrationRows sha256 contentSha256 env request idempotencyKey →
      decide (r.tenantId = tenantId) = true := by
    intro r hr
    simpa [hrequest] using tenantId_of_mem_registrationRows hr
  rw [Database.register, Database.register, evidenceRows_tenant, hsees.run_filter hown
    (fun row hrow r hr hne => not_clash hapart hrequest hfresh hrow hr (by simpa using hne))
    (List.forall_mem_nil _)]
  cases hrun : (Evidence.registerEvidence sha256 contentSha256 hashtext evidenceMaxBytes env request
      idempotencyKey).run Evidence.uniqueKeys db.evidenceRows [] with
  | error e => rfl
  | ok r =>
    obtain ⟨answer, own⟩ := r
    have hall : own.filter (fun row => row.tenantId = tenantId) = own :=
      List.filter_eq_self.mpr fun r hr => hown r (hsees.run (List.forall_mem_nil _) hrun r hr)
    simp only [Except.map, Database.tenant, List.filter_append, hall]

/-- What a registration that returns did to the tables. -/
theorem Database.register_eq_ok {answer : Evidence.Answer}
    (h : db.register sha256 contentSha256 hashtext evidenceMaxBytes env request idempotencyKey =
      .ok (answer, db')) :
    ∃ own, (∀ row ∈ own, row ∈ registrationRows sha256 contentSha256 env request idempotencyKey) ∧
      db' = { db with evidence := db.evidence ++ own } := by
  rw [Database.register] at h
  cases hrun : (Evidence.registerEvidence sha256 contentSha256 hashtext evidenceMaxBytes env request
      idempotencyKey).run Evidence.uniqueKeys db.evidenceRows [] with
  | error e =>
    rw [hrun] at h
    cases h
  | ok r =>
    rw [hrun] at h
    cases h
    exact ⟨r.2, registerEvidence_sees.run (List.forall_mem_nil _) hrun, rfl⟩

/-- **A registration of another tenant leaves the rows of the tenant as they are.** -/
theorem tenant_register {answer : Evidence.Answer} (hrequest : request.tenantId.val ≠ tenantId)
    (h : db.register sha256 contentSha256 hashtext evidenceMaxBytes env request idempotencyKey =
      .ok (answer, db')) : db'.tenant tenantId = db.tenant tenantId := by
  obtain ⟨own, hown, rfl⟩ := Database.register_eq_ok h
  have hnone : own.filter (fun row => row.tenantId = tenantId) = [] :=
    List.filter_eq_nil_iff.mpr fun r hr => by simp [tenantId_of_mem_registrationRows (hown r hr), hrequest]
  simp only [Database.tenant, List.filter_append, hnone, List.append_nil]

theorem Apart.after_register {answer : Evidence.Answer} (hapart : Apart sha256 tenantId others db)
    (hothers : request.tenantId.val ≠ tenantId → others env)
    (hpartition : request.tenantId.val ≠ tenantId → ∀ digest digest',
      Evidence.artifactRef sha256 request.tenantId digest ≠ Evidence.artifactRef sha256 tenantId digest')
    (h : db.register sha256 contentSha256 hashtext evidenceMaxBytes env request idempotencyKey =
      .ok (answer, db')) : Apart sha256 tenantId others db' := by
  obtain ⟨own, hown, rfl⟩ := Database.register_eq_ok h
  refine ⟨hapart.events, hapart.outbox, ?_, ?_⟩
  · intro o ho hne
    rcases List.mem_append.mp ho with ho | ho
    · exact hapart.registered o ho hne
    · have hrow := hown _ ho
      simp only [registrationRows, List.mem_cons, List.not_mem_nil, or_false, reduceCtorEq, false_or,
        Evidence.Row.outbox.injEq] at hrow
      subst hrow
      exact ⟨env, hothers hne, rfl⟩
  · intro a ha hne digest
    rcases List.mem_append.mp ha with ha | ha
    · exact hapart.artifacts a ha hne digest
    · have hrow := hown _ ha
      simp only [registrationRows, List.mem_cons, List.not_mem_nil, or_false, reduceCtorEq,
        Evidence.Row.artifact.injEq] at hrow
      subst hrow
      exact hpartition hne _ _

end

end

end CaseStore

end HarnessFramework
