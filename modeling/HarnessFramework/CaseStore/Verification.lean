import HarnessFramework.CaseStore.Ledger
import Mathlib.Data.List.Sort

/-!
# Verifying a ledger

`listCaseEvents` and `verifyCaseLedger` of `packages/case-store/src/index.ts`, on any rows: those
that the case store wrote, and those that someone altered since.

## Main definitions

* `ListedEvent`, `listCaseEvents`, `verifyCaseLedger`
* `Altered` — the rows no longer list the events that were appended
* `Resealed` — an untouched beginning of the ledger, and rows sealed anew behind it

## Main results

* `verifyEvents_isValid_iff` — what verification checks
* `Recorded.isSealed` — a row whose event occurred at a text with three fraction digits reads back as
  it was digested
* `verify_honest` — the ledgers that verification accepts as they were written
* `tamper_evidence` — the alterations that verification detects
* `eq_of_headDigest` — comparing with the chain head would detect them all
-/

namespace HarnessFramework

namespace CaseStore

/-! ## Listing and verifying -/

/-- An event as `listCaseEvents` returns it. -/
structure ListedEvent where
  tenantId : String
  caseId : String
  caseSequence : ℕ
  eventId : String
  eventType : String
  eventSchema : String
  occurredAt : String
  recordedAt : String
  actor : Jsonb
  commandRef : String
  authority : Jsonb
  payload : Jsonb
  evidenceRefs : Jsonb
  previousEventDigest : Option String
  eventDigest : String
deriving DecidableEq

/-- A row, mapped out of its column types. -/
def listedEvent (key : CaseKey) (row : CaseEventRow) : ListedEvent where
  tenantId := key.tenantId
  caseId := key.caseId
  caseSequence := row.caseSequence
  eventId := row.eventId
  eventType := row.eventType
  eventSchema := row.eventSchema
  occurredAt := row.occurredAt.toDate.toISOString
  recordedAt := row.recordedAt.toDate.toISOString
  actor := row.actor
  commandRef := row.commandId
  authority := row.authority
  payload := row.payload
  evidenceRefs := row.evidenceRefs
  previousEventDigest := row.previousEventDigest
  eventDigest := row.eventDigest

/-- `order by case_sequence`. -/
def orderRows (rows : List CaseEventRow) : List CaseEventRow :=
  rows.insertionSort fun a b => a.caseSequence ≤ b.caseSequence

/-- `listCaseEvents`: the first 1000 events after a sequence. -/
def listCaseEvents (key : CaseKey) (rows : List CaseEventRow) (afterSequence : ℕ) :
    List ListedEvent :=
  ((orderRows (rows.filter fun row => afterSequence < row.caseSequence)).take 1000).map
    (listedEvent key)

/-- The envelope that is digested again. -/
def ListedEvent.envelope (event : ListedEvent) : EventEnvelope where
  eventId := event.eventId
  tenantId := event.tenantId
  caseId := event.caseId
  caseSequence := event.caseSequence
  eventType := event.eventType
  eventSchema := event.eventSchema
  occurredAt := event.occurredAt
  recordedAt := event.recordedAt
  actor := event.actor.val
  commandRef := event.commandRef
  authority := event.authority.val
  payload := event.payload.val
  evidenceRefs := event.evidenceRefs.val
  previousEventDigest := event.previousEventDigest

/-- What `verifyCaseLedger` returns. -/
inductive Verification
  | valid (checkedEvents : ℕ) (headDigest : Option String)
  | invalid (checkedEvents failedSequence : ℕ)
deriving DecidableEq, Repr

/-- The member `valid`. -/
def Verification.isValid : Verification → Bool
  | valid _ _ => true
  | invalid _ _ => false

section

variable (sha256 : List Char → String)

/-- The loop of `verifyCaseLedger`. -/
def verifyEvents (checkedEvents : ℕ) : Option String → List ListedEvent → Verification
  | previous, [] => .valid checkedEvents previous
  | previous, event :: events =>
    if event.previousEventDigest ≠ previous ∨
        event.eventDigest ≠ stableDigest sha256 event.envelope.toJson then
      .invalid checkedEvents event.caseSequence
    else verifyEvents checkedEvents (some event.eventDigest) events

/-- `verifyCaseLedger`. -/
def verifyCaseLedger (key : CaseKey) (rows : List CaseEventRow) : Verification :=
  let events := listCaseEvents key rows 0
  verifyEvents sha256 events.length none events

/-- The event carries the digest of its envelope. -/
def ListedEvent.IsSealed (event : ListedEvent) : Prop :=
  event.eventDigest = stableDigest sha256 event.envelope.toJson

/-- Every event names the digest of the one before it. -/
abbrev LinkedEvents : Option String → List ListedEvent → Prop :=
  Linked ListedEvent.eventDigest ListedEvent.previousEventDigest

end

section

variable {sha256 : List Char → String} {key : CaseKey}

/-- **What verification checks.** -/
theorem verifyEvents_isValid_iff {n : ℕ} {previous : Option String} {events : List ListedEvent} :
    (verifyEvents sha256 n previous events).isValid = true ↔
      LinkedEvents previous events ∧ ∀ e ∈ events, e.IsSealed sha256 := by
  induction events generalizing previous with
  | nil => simp [verifyEvents, Verification.isValid, Linked]
  | cons event events ih =>
    rw [verifyEvents, List.forall_mem_cons]
    split
    · next hbad =>
      simp only [Verification.isValid, Bool.false_eq_true, false_iff]
      rintro ⟨⟨hprev, -⟩, hseal, -⟩
      exact hbad.elim (· hprev) (· hseal)
    · next hgood =>
      rw [not_or, not_not, not_not] at hgood
      rw [ih]
      constructor
      · rintro ⟨hl, hs⟩
        exact ⟨⟨hgood.1, hl⟩, hgood.2, hs⟩
      · rintro ⟨⟨-, hl⟩, -, hs⟩
        exact ⟨hl, hs⟩

/-- The digest that a successful verification reports. -/
theorem verifyEvents_headDigest {n m : ℕ} {previous head : Option String}
    {events : List ListedEvent} (h : verifyEvents sha256 n previous events = .valid m head) :
    head = headDigest ListedEvent.eventDigest previous events := by
  induction events generalizing previous with
  | nil => cases h; rfl
  | cons event events ih =>
    rw [verifyEvents] at h
    split at h
    · cases h
    · exact ih h

/-! ## Envelopes and their digests -/

/-- The envelope with canonical JSON values. -/
def EventEnvelope.canonical (e : EventEnvelope) : EventEnvelope :=
  { e with
    actor := canonicalize e.actor
    authority := canonicalize e.authority
    payload := canonicalize e.payload
    evidenceRefs := canonicalize e.evidenceRefs }

@[simp] theorem canonicalize_nullable (text : Option String) :
    canonicalize (nullable text) = nullable text := by
  cases text <;> simp [nullable, canonicalize]

theorem nullable_injective : Function.Injective nullable := by
  rintro (_ | a) (_ | b) h <;> simp_all [nullable]

@[simp] theorem canonical_envelope (event : ListedEvent) :
    event.envelope.canonical = event.envelope := by
  simp [EventEnvelope.canonical, ListedEvent.envelope]

/-- Digests do not see the order of members. -/
theorem stableDigest_canonical (e : EventEnvelope) :
    stableDigest sha256 e.canonical.toJson = stableDigest sha256 e.toJson := by
  refine congrArg (fun value => sha256 value.stringify) (canonicalize_obj_congr ?_)
  simp [EventEnvelope.canonical, canonicalize_canonicalize]

/-- Without collisions a digest determines the canonical envelope. -/
theorem canonical_eq_of_stableDigest (hsha : Function.Injective sha256) {a b : EventEnvelope}
    (h : stableDigest sha256 a.toJson = stableDigest sha256 b.toJson) : a.canonical = b.canonical := by
  have hmember := canonicalize_lastMember_eq (stableDigest_injective hsha h)
  obtain ⟨a1, a2, a3, a4, a5, a6, a7, a8, a9, a10, a11, a12, a13, a14⟩ := a
  obtain ⟨b1, b2, b3, b4, b5, b6, b7, b8, b9, b10, b11, b12, b13, b14⟩ := b
  have h1 := hmember "eventId"
  have h2 := hmember "tenantId"
  have h3 := hmember "caseId"
  have h4 := hmember "caseSequence"
  have h5 := hmember "eventType"
  have h6 := hmember "eventSchema"
  have h7 := hmember "occurredAt"
  have h8 := hmember "recordedAt"
  have h9 := hmember "actor"
  have h10 := hmember "commandRef"
  have h11 := hmember "authority"
  have h12 := hmember "payload"
  have h13 := hmember "evidenceRefs"
  have h14 := hmember "previousEventDigest"
  simp [lastMember, canonicalize, Json.nat, JsonNumber.ofNat_injective.eq_iff,
    nullable_injective.eq_iff] at h1 h2 h3 h4 h5 h6 h7 h8 h9 h10 h11 h12 h13 h14
  simp [EventEnvelope.canonical, h1, h2, h3, h4, h5, h6, h7, h8, h9, h10, h11, h12, h13, h14]

/-! ## Rows that the case store wrote -/

/-- The row holds an envelope that `appendCaseEvent` digested. Where `canonical` holds, its event
occurred at a text with three fraction digits. -/
def Recorded (sha256 : List Char → String) (key : CaseKey) (canonical : Prop) (r : CaseEventRow) :
    Prop :=
  ∃ w, Records sha256 key w r ∧ ThreeFractionDigits w.recordedAt ∧
    (canonical → ThreeFractionDigits w.occurredAt)

/-- What an envelope says and what its row reads back as differ in the spelling of `occurredAt` at
most. -/
theorem Records.envelope_eq {w : EventEnvelope} {r : CaseEventRow} (h : Records sha256 key w r)
    (hrec : ThreeFractionDigits w.recordedAt) :
    (listedEvent key r).envelope =
      { w.canonical with occurredAt := r.occurredAt.toDate.toISOString } := by
  have hback := (toISOString_readBack_iff h.recordedAt).mpr hrec
  simp only [ListedEvent.envelope, listedEvent, EventEnvelope.canonical, hback, h.tenantId, h.caseId,
    h.caseSequence, h.eventId, h.eventType, h.eventSchema, h.actor, h.commandId, h.authority,
    h.payload, h.evidenceRefs, h.previousEventDigest, Jsonb.val_ofJson]

/-- **A row whose event occurred at a text with three fraction digits reads back as it was
digested.** -/
theorem Records.isSealed {w : EventEnvelope} {r : CaseEventRow} (h : Records sha256 key w r)
    (hrec : ThreeFractionDigits w.recordedAt) (hocc : ThreeFractionDigits w.occurredAt) :
    (listedEvent key r).IsSealed sha256 := by
  have hback := (toISOString_readBack_iff h.occurredAt).mpr hocc
  have henv : (listedEvent key r).envelope = w.canonical := by rw [h.envelope_eq hrec, hback]; rfl
  rw [ListedEvent.IsSealed, henv, stableDigest_canonical]
  exact h.eventDigest

theorem Recorded.mono {p q : Prop} {r : CaseEventRow} (h : Recorded sha256 key p r) (hqp : q → p) :
    Recorded sha256 key q r :=
  let ⟨w, hw, hrec, hocc⟩ := h
  ⟨w, hw, hrec, fun hq => hocc (hqp hq)⟩

/-- The call spells the time at which its event occurred with three fraction digits, if it says
one. -/
def Call.Canonical : Call → Prop
  | .submitBusinessCommand _ command => ∀ text ∈ command.occurredAt, ThreeFractionDigits text.val
  | _ => True

/-- So do all calls on the case that were accepted. -/
def LogCanonical (sha256 : List Char → String) (key : CaseKey)
    (log : List (Entry Call CaseTables Failure Answer)) : Prop :=
  ∀ entry ∈ log, entry.call.key sha256 = key → (∃ answer, entry.result = .ok answer) →
    entry.call.Canonical

theorem LogCanonical.of_append {log log' : List (Entry Call CaseTables Failure Answer)}
    (h : LogCanonical sha256 key (log ++ log')) : LogCanonical sha256 key log :=
  fun entry hentry => h entry (List.mem_append_left _ hentry)

/-- The rows that a call leaves are recorded. -/
theorem Effect.recorded {evidenceRequireScan : Bool} {call : Call} {t t' : CaseTables}
    {answer : Answer} {ms : List OutboxRow} {p : Prop} (he : Effect sha256 call t answer t' ms)
    (hp : p → call.Canonical)
    (h : ∀ r ∈ t.events, Recorded sha256 ((caseService sha256 evidenceRequireScan).key call) p r) :
    ∀ r ∈ t'.events, Recorded sha256 ((caseService sha256 evidenceRequireScan).key call) p r := by
  have happends {key : CaseKey} {w : EventEnvelope} {r : CaseEventRow} {receipt : CommandReceiptRow}
      {t t' : CaseTables} {ms : List OutboxRow} (ha : Appends sha256 key t t' ms w r receipt)
      (hocc : p → ThreeFractionDigits w.occurredAt)
      (h : ∀ r ∈ t.events, Recorded sha256 key p r) : ∀ r ∈ t'.events, Recorded sha256 key p r := by
    rw [ha.events]
    exact List.forall_mem_append.mpr ⟨h, List.forall_mem_singleton.mpr
      ⟨w, ha.records, ha.recordedAt, hocc⟩⟩
  cases he with
  | replayed => exact h
  | existing => exact h
  | created env request idempotencyKey t row eventId t' ms hc =>
    obtain ⟨w, r, receipt, ha, -, -, hocc⟩ := hc.appends
    exact happends ha (fun _ => hocc) h
  | accepted env command t response t' ms current mutation hc =>
    obtain ⟨w, r, receipt, ha, -, -, hocc⟩ := hc.appends
    refine happends ha (fun hcanon => ?_) h
    rcases hocc with hocc | ⟨text, htext, hocc⟩
    · exact hocc
    · rw [hocc]; exact hp hcanon text htext
  | registered key evidenceId t t' ms hr =>
    obtain ⟨-, rows, rfl⟩ := hr
    exact h

section

variable {evidenceRequireScan : Bool}

/-- Every row of a ledger is recorded. -/
theorem store_recorded {st : Store CaseKey Call CaseTables OutboxRow Failure Answer}
    (h : Store.Reachable (caseService sha256 evidenceRequireScan) OutboxRelay noCases st) :
    ∀ key, ∀ r ∈ (st.db key).events, Recorded sha256 key (LogCanonical sha256 key st.log) r := by
  refine Store.Reachable.invariant
    (fun st => ∀ key, ∀ r ∈ (st.db key).events,
      Recorded sha256 key (LogCanonical sha256 key st.log) r)
    (fun key r hr => by cases hr) ?_ h
  intro st st' ih hstep key
  rcases hstep.cases fun call => call_underLock sha256 evidenceRequireScan _ call with
    ⟨call, answer, t', ms, he, rfl⟩ | ⟨call, result, rfl⟩ | ⟨out, hrel, rfl⟩
  · have ih' : ∀ key, ∀ r ∈ (st.db key).events, Recorded sha256 key (LogCanonical sha256 key
        (st.commit (caseService sha256 evidenceRequireScan) call answer t' ms).log) r :=
      fun key r hr => (ih key r hr).mono LogCanonical.of_append
    by_cases hkey : key = (caseService sha256 evidenceRequireScan).key call
    · subst hkey
      rw [Store.commit_db_self]
      refine he.recorded (fun hlog => ?_) (ih' _)
      refine hlog ⟨call, .ok answer, st.db (call.key sha256), t'⟩ ?_ rfl ⟨answer, rfl⟩
      rw [Store.commit_log]
      exact List.mem_append_right _ (List.mem_singleton_self _)
    · rw [Store.commit_db_of_ne hkey]
      exact ih' key
  · exact fun r hr => (ih key r hr).mono LogCanonical.of_append
  · exact ih key

/-! ## Honest ledgers -/

/-- The rows of a coherent ledger are in the order of their sequences. -/
theorem LedgerCoherent.orderRows_eq {t : CaseTables} {out : List OutboxRow}
    (h : LedgerCoherent key t out) : orderRows t.events = t.events := by
  refine List.Pairwise.insertionSort_eq ?_
  have : (t.events.map (·.caseSequence)).Pairwise (· ≤ ·) := by
    rw [h.sequences]
    exact (List.pairwise_lt_range' 1).imp le_of_lt
  exact List.pairwise_map.mp this

/-- The rows of a coherent ledger are listed as they stand, up to the first 1000. -/
theorem LedgerCoherent.listCaseEvents_eq {t : CaseTables} {out : List OutboxRow}
    (h : LedgerCoherent key t out) :
    listCaseEvents key t.events 0 = (t.events.take 1000).map (listedEvent key) := by
  have hpos : t.events.filter (fun row => 0 < row.caseSequence) = t.events := by
    refine List.filter_eq_self.mpr fun r hr => ?_
    have : r.caseSequence ∈ t.events.map (·.caseSequence) := List.mem_map_of_mem hr
    rw [h.sequences, List.mem_range'_1] at this
    simpa using Nat.lt_of_succ_le this.1
  rw [listCaseEvents, hpos, h.orderRows_eq]

theorem linked_map_listedEvent {p : Option String} {rows : List CaseEventRow} :
    LinkedEvents p (rows.map (listedEvent key)) ↔
      Linked CaseEventRow.eventDigest CaseEventRow.previousEventDigest p rows := by
  induction rows generalizing p with
  | nil => exact Iff.rfl
  | cons r rows ih => exact and_congr_right fun _ => ih

/-- **The ledgers that verification accepts as they were written.** In every state that clients of
the case store reach side by side, if every accepted command on a case spells the time at which its
event occurred with three fraction digits or leaves it out, every row of the case reads back as it
was digested, and verification accepts the ledger. -/
theorem verify_honest {ι : Type} [DecidableEq ι] {s : CaseSystem ι}
    (h : System.Reachable (caseService sha256 evidenceRequireScan) OutboxRelay noCases s)
    (key : CaseKey) (hlog : LogCanonical sha256 key s.log) :
    (∀ r ∈ (s.db key).events,
      stableDigest sha256 (listedEvent key r).envelope.toJson = r.eventDigest) ∧
    (verifyCaseLedger sha256 key (s.db key).events).isValid = true := by
  have hseal : ∀ r ∈ (s.db key).events, (listedEvent key r).IsSealed sha256 := by
    intro r hr
    obtain ⟨w, hw, hrec, hocc⟩ := store_recorded h.store key r hr
    exact hw.isSealed hrec (hocc hlog)
  refine ⟨fun r hr => (hseal r hr).symm, ?_⟩
  have hcoh := store_ledgerCoherent h.store key
  rw [verifyCaseLedger, verifyEvents_isValid_iff, hcoh.listCaseEvents_eq]
  refine ⟨linked_map_listedEvent.mpr (hcoh.linked.take 1000), ?_⟩
  intro e he
  obtain ⟨r, hr, rfl⟩ := List.mem_map.mp he
  exact hseal r (List.mem_of_mem_take hr)

end

open Sample in
/-- A subject is added at a time that is spelled with three fraction digits. -/
theorem verify_honest_sample :
    (verifyCaseLedger checksum (caseKey checksum) ((after checksum [createCall, subjectCall checksum
      (some ⟨"2026-01-01T00:00:00.000Z", by decide⟩)]).db (caseKey checksum)).events).isValid = true := by
  refine (verify_honest (reachable_after checksum _) (caseKey checksum) ?_).2
  intro entry hentry _ _
  have hcall := List.mem_map_of_mem (f := Entry.call) hentry
  rw [after, System.idle, Store.calls_log, List.map_nil, List.nil_append, List.mem_cons,
    List.mem_singleton] at hcall
  rcases hcall with hcall | hcall <;> rw [hcall]
  · trivial
  · rintro text ⟨⟩
    decide

open Sample in
set_option maxRecDepth 20000 in
/-- A subject is added at a time that is spelled without fraction digits. -/
theorem verify_honest_fails :
    ((after checksum [createCall, subjectCall checksum
      (some ⟨"2026-01-01T00:00:00Z", by decide⟩)]).db (caseKey checksum)).sequence = 2 ∧
    (verifyCaseLedger checksum (caseKey checksum) ((after checksum [createCall, subjectCall checksum
      (some ⟨"2026-01-01T00:00:00Z", by decide⟩)]).db (caseKey checksum)).events).isValid = false := by
  decide +kernel

/-! ## Altered ledgers -/

/-- All events that rows list, in the order of their sequences. -/
def listedEvents (key : CaseKey) (rows : List CaseEventRow) : List ListedEvent :=
  (orderRows rows).map (listedEvent key)

/-- The rows no longer list the events that were appended: some field of some event is changed, or
events are deleted, inserted or moved. -/
def Altered (key : CaseKey) (appended rows : List CaseEventRow) : Prop :=
  listedEvents key rows ≠ listedEvents key appended

/-- The first page of the altered rows is a beginning of the appended events, as they were written,
and behind it `anew`: nothing, or rows whose links and digests were computed anew to continue it,
none of them with a digest that the ledger ever recorded. -/
structure Resealed (sha256 : List Char → String) (key : CaseKey) (appended rows : List CaseEventRow)
    (k : ℕ) (anew : List ListedEvent) : Prop where
  page : listCaseEvents key rows 0 = (listCaseEvents key appended 0).take k ++ anew
  kept : ∀ e ∈ (listCaseEvents key appended 0).take k, e.IsSealed sha256
  linked : LinkedEvents (headDigest ListedEvent.eventDigest none
    ((listCaseEvents key appended 0).take k)) anew
  isSealed : ∀ e ∈ anew, e.IsSealed sha256
  fresh : ∀ e ∈ anew, ∀ r ∈ appended, r.eventDigest ≠ e.eventDigest

/-- Two lists agree up to some place and differ there. -/
theorem exists_take_eq_take {α : Type} [DecidableEq α] (xs ys : List α) :
    ∃ k ≤ xs.length, xs.take k = ys.take k ∧
      ∀ (hx : k < xs.length) (hy : k < ys.length), xs[k] ≠ ys[k] := by
  induction xs generalizing ys with
  | nil => exact ⟨0, le_rfl, rfl, fun hx => absurd hx (by simp)⟩
  | cons x xs ih =>
    cases ys with
    | nil => exact ⟨0, Nat.zero_le _, rfl, fun _ hy => absurd hy (by simp)⟩
    | cons y ys =>
      by_cases hxy : x = y
      · subst hxy
        obtain ⟨k, hk, htake, hne⟩ := ih ys
        refine ⟨k + 1, by simpa using hk, by simpa using htake, fun hx hy => ?_⟩
        simpa using hne (by simpa using hx) (by simpa using hy)
      · exact ⟨0, Nat.zero_le _, rfl, fun _ _ => by simpa using hxy⟩

/-- The digest of an envelope. -/
def EventEnvelope.digest (sha256 : List Char → String) (w : EventEnvelope) : String :=
  stableDigest sha256 w.toJson

/-- Every envelope names the digest of the one before it. -/
abbrev LinkedEnvelopes (sha256 : List Char → String) : Option String → List EventEnvelope → Prop :=
  Linked (EventEnvelope.digest sha256) EventEnvelope.previousEventDigest

/-- The row holds the canonical envelope `w` that was digested, up to the spelling of
`occurredAt`. -/
structure Written (sha256 : List Char → String) (key : CaseKey) (w : EventEnvelope)
    (r : CaseEventRow) : Prop where
  canonical : w.canonical = w
  digest : w.digest sha256 = r.eventDigest
  envelope : (listedEvent key r).envelope =
    { w with occurredAt := r.occurredAt.toDate.toISOString }
  occurredAt : timestamptz w.occurredAt = some r.occurredAt

/-- The envelopes of linked and sealed events are linked. -/
theorem linked_envelopes {p : Option String} {events : List ListedEvent} (h : LinkedEvents p events)
    (hs : ∀ e ∈ events, e.IsSealed sha256) :
    LinkedEnvelopes sha256 p (events.map ListedEvent.envelope) := by
  induction events generalizing p with
  | nil => trivial
  | cons e events ih =>
    obtain ⟨hseal, hs⟩ := List.forall_mem_cons.mp hs
    have hdigest : e.envelope.digest sha256 = e.eventDigest := hseal.symm
    refine ⟨h.1, ?_⟩
    rw [hdigest]
    exact ih h.2 hs

/-- The envelopes behind recorded and linked rows. -/
theorem exists_written {canonical : Prop} {p : Option String} {rows : List CaseEventRow}
    (hrows : ∀ r ∈ rows, Recorded sha256 key canonical r)
    (h : Linked CaseEventRow.eventDigest CaseEventRow.previousEventDigest p rows) :
    ∃ ws, List.Forall₂ (Written sha256 key) ws rows ∧ LinkedEnvelopes sha256 p ws := by
  induction rows generalizing p with
  | nil => exact ⟨[], .nil, trivial⟩
  | cons r rows ih =>
    obtain ⟨⟨w, hw, hrec, -⟩, hrows⟩ := List.forall_mem_cons.mp hrows
    obtain ⟨ws, hws, hlink⟩ := ih hrows h.2
    have hdigest : w.canonical.digest sha256 = r.eventDigest := by
      rw [EventEnvelope.digest, stableDigest_canonical, hw.eventDigest]
    refine ⟨w.canonical :: ws, .cons ⟨?_, hdigest, hw.envelope_eq hrec, hw.occurredAt⟩ hws, ?_, ?_⟩
    · simp [EventEnvelope.canonical, canonicalize_canonicalize]
    · rw [← h.1, hw.previousEventDigest]; rfl
    · rw [hdigest]; exact hlink

/-- Sealed events and their envelopes have one head digest. -/
theorem headDigest_envelopes {p : Option String} {events : List ListedEvent}
    (h : ∀ e ∈ events, e.IsSealed sha256) :
    headDigest (EventEnvelope.digest sha256) p (events.map ListedEvent.envelope) =
      headDigest ListedEvent.eventDigest p events := by
  induction events generalizing p with
  | nil => rfl
  | cons e events ih =>
    obtain ⟨hseal, h⟩ := List.forall_mem_cons.mp h
    have hdigest : e.envelope.digest sha256 = e.eventDigest := hseal.symm
    rw [List.map_cons, headDigest, headDigest, hdigest, ih h]

/-- So have rows and the envelopes that were digested for them. -/
theorem headDigest_written {p : Option String} {ws : List EventEnvelope} {rows : List CaseEventRow}
    (h : List.Forall₂ (Written sha256 key) ws rows) :
    headDigest (EventEnvelope.digest sha256) p ws = headDigest CaseEventRow.eventDigest p rows := by
  induction h generalizing p with
  | nil => rfl
  | cons hw _ ih => rw [headDigest, headDigest, hw.digest, ih]

theorem ListedEvent.ext_envelope {a b : ListedEvent} (henv : a.envelope = b.envelope)
    (hdigest : a.eventDigest = b.eventDigest) : a = b := by
  obtain ⟨a1, a2, a3, a4, a5, a6, a7, a8, ⟨a9, _⟩, a10, ⟨a11, _⟩, ⟨a12, _⟩, ⟨a13, _⟩, a14, a15⟩ := a
  obtain ⟨b1, b2, b3, b4, b5, b6, b7, b8, ⟨b9, _⟩, b10, ⟨b11, _⟩, ⟨b12, _⟩, ⟨b13, _⟩, b14, b15⟩ := b
  simp only [ListedEvent.envelope, EventEnvelope.mk.injEq] at henv
  obtain ⟨rfl, rfl, rfl, rfl, rfl, rfl, rfl, rfl, rfl, rfl, rfl, rfl, rfl, rfl⟩ := henv
  obtain rfl := hdigest
  rfl

/-- A sealed event with the envelope that was digested for a row is the event that the row lists. -/
theorem Written.listedEvent_eq {w : EventEnvelope} {r r' : CaseEventRow}
    (hw : Written sha256 key w r) (henv : (listedEvent key r').envelope = w)
    (hs : (listedEvent key r').IsSealed sha256) : listedEvent key r' = listedEvent key r := by
  have hocc : w.occurredAt = r'.occurredAt.toDate.toISOString := by rw [← henv]; rfl
  have hback : r.occurredAt.toDate.toISOString = w.occurredAt := by
    refine (toISOString_readBack_iff hw.occurredAt).mpr ?_
    rw [hocc]
    exact threeFractionDigits_toISOString _
  refine ListedEvent.ext_envelope ?_ ?_
  · rw [hw.envelope, hback, henv]
  · refine hs.trans ?_
    rw [henv]
    exact hw.digest

/-- Without collisions, an event and a row with one digest have one envelope. -/
theorem envelope_eq_of_digest (hsha : Function.Injective sha256) {events : List ListedEvent}
    {ws : List EventEnvelope} {rows : List CaseEventRow}
    (hws : List.Forall₂ (Written sha256 key) ws rows) :
    ∀ a ∈ events.map ListedEvent.envelope, ∀ b ∈ ws, a.digest sha256 = b.digest sha256 → a = b := by
  intro a ha b hb hab
  obtain ⟨e, -, rfl⟩ := List.mem_map.mp ha
  obtain ⟨n, hn, rfl⟩ := List.getElem_of_mem hb
  have hw := hws.get hn (hws.length_eq ▸ hn)
  have := canonical_eq_of_stableDigest hsha hab
  rw [canonical_envelope] at this
  exact this.trans hw.canonical

/-- Sealed events with the envelopes that were digested for rows are what the rows list. -/
theorem listedEvents_eq_of_written {events rows : List CaseEventRow}
    (hseal : ∀ e ∈ events.map (listedEvent key), e.IsSealed sha256)
    (h : List.Forall₂ (Written sha256 key)
      ((events.map (listedEvent key)).map ListedEvent.envelope) rows) :
    events.map (listedEvent key) = rows.map (listedEvent key) := by
  induction events generalizing rows with
  | nil => cases h; rfl
  | cons r' events ih =>
    obtain ⟨hr', hseal⟩ := List.forall_mem_cons.mp hseal
    cases h with
    | cons hw h => rw [List.map_cons, List.map_cons, hw.listedEvent_eq rfl hr', ih hseal h]

/-- On a page that verification accepts, an event that differs from the appended one has no digest
that the ledger ever recorded, and neither has any event behind it. -/
theorem eventDigest_ne_of_ne (hsha : Function.Injective sha256) {canonical : Prop}
    {appended : List CaseEventRow} {page : List ListedEvent}
    (hrows : ∀ r ∈ appended, Recorded sha256 key canonical r)
    (hlink : Linked CaseEventRow.eventDigest CaseEventRow.previousEventDigest none appended)
    (hlisted : ∀ e ∈ page, ∃ r, listedEvent key r = e) (hpage : LinkedEvents none page)
    (hseal : ∀ e ∈ page, e.IsSealed sha256) {k i j : ℕ} (hk : k ≤ j) (hj : j < page.length)
    (hi : i < appended.length) (hkp : k < page.length)
    (hne : ∀ hk : k < appended.length, page[k] ≠ listedEvent key appended[k]) :
    appended[i].eventDigest ≠ page[j].eventDigest := by
  intro hdigest
  obtain ⟨ws, hws, hlinkw⟩ := exists_written hrows hlink
  have hlen := hws.length_eq
  have hwritten (n : ℕ) (hn : n < ws.length) : Written sha256 key ws[n] (appended.get ⟨n, hlen ▸ hn⟩) :=
    hws.get hn (hlen ▸ hn)
  -- Both chains carry the digest, so they agree up to it, and at `k` in particular.
  have htake := (linked_envelopes hpage hseal).take_eq_take hlinkw (envelope_eq_of_digest hsha hws)
    (i := j) (j := i) (by simpa using hj) (hlen ▸ hi) <| by
      rw [(hwritten i (hlen ▸ hi)).digest, List.get_eq_getElem, hdigest, List.getElem_map]
      exact (hseal _ (List.getElem_mem hj)).symm
  have hji : j = i := by
    have := congrArg List.length htake
    simp only [List.length_take, List.length_map] at this
    omega
  subst hji
  have hkw : k < ws.length := by omega
  have hget : page[k].envelope = ws[k] := by
    have := congrArg (·[k]?) htake
    simpa [List.getElem?_take_of_lt (Nat.lt_succ_of_le hk), List.getElem?_eq_getElem hkp,
      List.getElem?_eq_getElem hkw] using this
  have hmem : page[k] ∈ page := List.getElem_mem _
  obtain ⟨r, hr⟩ := hlisted _ hmem
  rw [← hr] at hget hmem
  refine hne (by omega) ?_
  rw [← hr]
  exact (hwritten k (by omega)).listedEvent_eq hget (hseal _ hmem)

section

variable {evidenceRequireScan : Bool} {ι : Type} [DecidableEq ι] {s : CaseSystem ι}

/-- **The alterations that verification detects.** If digests do not collide, verification refuses
altered rows of a ledger exactly when their first page is not an untouched beginning of the appended
events with nothing, or rows sealed anew, behind it. -/
theorem tamper_evidence (hsha : Function.Injective sha256)
    (h : System.Reachable (caseService sha256 evidenceRequireScan) OutboxRelay noCases s)
    (key : CaseKey) (rows : List CaseEventRow) :
    (Altered key (s.db key).events rows → (verifyCaseLedger sha256 key rows).isValid = false) ↔
      ¬ (Altered key (s.db key).events rows ∧
        ∃ k anew, Resealed sha256 key (s.db key).events rows k anew) := by
  have hcoh := store_ledgerCoherent h.store key
  have hrows := store_recorded h.store key
  have hlist := hcoh.listCaseEvents_eq
  constructor
  · rintro hdetect ⟨halt, k, anew, hre⟩
    have hvalid : (verifyCaseLedger sha256 key rows).isValid = true := by
      rw [verifyCaseLedger, verifyEvents_isValid_iff, hre.page]
      refine ⟨(linked_append _ _).mpr ⟨?_, hre.linked⟩,
        List.forall_mem_append.mpr ⟨hre.kept, hre.isSealed⟩⟩
      rw [hlist]
      exact (linked_map_listedEvent.mpr (hcoh.linked.take 1000)).take k
    rw [hdetect halt] at hvalid
    cases hvalid
  · intro hno halt
    by_contra hvalid
    rw [Bool.not_eq_false, verifyCaseLedger, verifyEvents_isValid_iff] at hvalid
    obtain ⟨hlink, hseal⟩ := hvalid
    refine hno ⟨halt, ?_⟩
    obtain ⟨k, hk, htake, hne⟩ := exists_take_eq_take (listCaseEvents key rows 0)
      (listCaseEvents key (s.db key).events 0)
    have hpage : listCaseEvents key rows 0 = (listCaseEvents key (s.db key).events 0).take k ++
        (listCaseEvents key rows 0).drop k := by rw [← htake, List.take_append_drop]
    have hkept : ∀ e ∈ (listCaseEvents key (s.db key).events 0).take k, e.IsSealed sha256 := by
      rw [← htake]; exact fun e he => hseal e (List.mem_of_mem_take he)
    refine ⟨k, _, hpage, hkept, ?_, fun e he => hseal e (List.mem_of_mem_drop he), ?_⟩
    · rw [hpage] at hlink
      exact ((linked_append _ _).mp hlink).2
    · intro e he r hr
      obtain ⟨n, hn, rfl⟩ := List.getElem_of_mem he
      obtain ⟨i, hi, rfl⟩ := List.getElem_of_mem hr
      have hlen : k + n < (listCaseEvents key rows 0).length := by
        rw [List.length_drop] at hn; omega
      have h1000 : (listCaseEvents key rows 0).length ≤ 1000 := by
        rw [listCaseEvents, List.length_map, List.length_take]; exact min_le_left _ _
      rw [List.getElem_drop]
      refine eventDigest_ne_of_ne hsha hrows hcoh.linked ?_ hlink hseal (Nat.le_add_right k n) hlen hi
        (by omega) fun hk' => ?_
      · intro e he
        obtain ⟨r, -, hr⟩ := List.mem_map.mp he
        exact ⟨r, hr⟩
      · have hk'' : k < (listCaseEvents key (s.db key).events 0).length := by
          rw [hlist, List.length_map, List.length_take]; omega
        have hget := hne (by omega) hk''
        rwa [List.getElem_of_eq hlist, List.getElem_map, List.getElem_take] at hget

open Sample in
/-- The rows of a case that was just created are deleted. -/
theorem tamper_evidence_sample :
    (Altered (caseKey String.ofList) ((after String.ofList [createCall]).db (caseKey String.ofList)).events
      [] → (verifyCaseLedger String.ofList (caseKey String.ofList) []).isValid = false) ↔
    ¬ (Altered (caseKey String.ofList)
        ((after String.ofList [createCall]).db (caseKey String.ofList)).events [] ∧
      ∃ k anew, Resealed String.ofList (caseKey String.ofList)
        ((after String.ofList [createCall]).db (caseKey String.ofList)).events [] k anew) :=
  tamper_evidence (fun _ _ => String.ofList_injective) (reachable_after String.ofList _) _ []

open Sample in
set_option maxRecDepth 20000 in
/-- Verification accepts that. -/
theorem tamper_evidence_fails :
    Altered (caseKey String.ofList)
      ((after String.ofList [createCall]).db (caseKey String.ofList)).events [] ∧
    (verifyCaseLedger String.ofList (caseKey String.ofList) []).isValid = true := by
  refine ⟨fun h => ?_, by decide⟩
  have hlength : ((after String.ofList [createCall]).db (caseKey String.ofList)).events.length = 1 := by
    decide +kernel
  have := congrArg List.length h
  simp [listedEvents, orderRows, List.length_insertionSort, hlength] at this

/-- **The chain head detects every alteration.** If verification accepts rows with the digest that
the chain head holds, their first page lists the events that were appended. -/
theorem eq_of_headDigest (hsha : Function.Injective sha256)
    (h : System.Reachable (caseService sha256 evidenceRequireScan) OutboxRelay noCases s)
    {key : CaseKey} {rows : List CaseEventRow} {n : ℕ}
    (hvalid : verifyCaseLedger sha256 key rows =
      .valid n ((s.db key).head.map (·.eventDigest))) :
    listCaseEvents key rows 0 = (s.db key).events.map (listedEvent key) := by
  have hcoh := store_ledgerCoherent h.store key
  obtain ⟨ws, hws, hlinkw⟩ := exists_written (store_recorded h.store key) hcoh.linked
  have hhead := verifyEvents_headDigest hvalid
  have hok : (verifyCaseLedger sha256 key rows).isValid = true := by rw [hvalid]; rfl
  rw [verifyCaseLedger, verifyEvents_isValid_iff] at hok
  obtain ⟨hlink, hseal⟩ := hok
  have henvelopes : (listCaseEvents key rows 0).map ListedEvent.envelope = ws := by
    refine (linked_envelopes hlink hseal).ext hlinkw (envelope_eq_of_digest hsha hws) ?_
    rw [headDigest_envelopes hseal, headDigest_written hws, hcoh.headDigest_eq, hhead]
  rw [← henvelopes] at hws
  exact listedEvents_eq_of_written hseal hws

end

end

end CaseStore

end HarnessFramework
