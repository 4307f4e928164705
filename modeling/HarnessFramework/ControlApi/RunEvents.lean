import HarnessFramework.ControlApi.Tables
import HarnessFramework.Library.Interleaving

/-!
# The event journal of a run

`appendEvent` of `packages/persistence/src/index.ts`, statement by statement. It looks for an event with
the key, without a lock; the update of the counter locks the row of the run; the insert runs into the
primary key or into the unique constraint on event keys; and what throws is rolled back. Between any two
statements other transactions on the same run may commit.

The other statements on the row of a run leave its counter and its events alone. They are here for the
lock that they take.

## Main definitions

* `RunJournal` — the counter and the events of one run
* `appendEventTxn`, `journalService` — the transactions, as a service keyed by run
* `Gapless` — the sequences are `1`, `2`, … up to the counter, and the keys are distinct
* `Appended` — what a call that returns does

## Main results

* `call_appended` — of every call
* `appendEvent_journal` — the transaction on its own is `appendEvent` on the tables
* `run_event_journal` — in every interleaving
-/

namespace HarnessFramework

namespace ControlApi

open Persistence

/-- The rows of one run: the counter in its row, if it exists, and its events. -/
structure RunJournal where
  eventSequence : Option ℕ
  events : List RunEventRow

/-- The event with a key. -/
def RunJournal.event? (j : RunJournal) (eventKey : String) : Option RunEventRow :=
  j.events.find? fun e => e.eventKey = eventKey

/-- A transaction on the journal of a run. -/
abbrev JournalTxn (α : Type) : Type := Txn RunJournal Empty RunFailure α

/-- The row of an event with a sequence. -/
def AppendEventInput.numbered (now : Time) (input : AppendEventInput) (sequence : ℕ) : RunEventRow where
  runId := input.runId
  sequence
  eventKey := input.eventKey
  code := input.code
  nodeId := input.nodeId
  status := input.status
  values := input.values
  occurredAt := now

/-- `insert into run_events`, under its primary key and its unique constraint. -/
def insertEvent (row : RunEventRow) : JournalTxn Unit := do
  let j ← Txn.get
  Txn.require (¬ ∃ e ∈ j.events, e.sequence = row.sequence) (.unique "run_events_pkey")
  Txn.require (¬ ∃ e ∈ j.events, e.eventKey = row.eventKey)
    (.unique "run_events_run_id_event_key_key")
  Txn.modify fun j : RunJournal => { j with events := j.events ++ [row] }

/-- `appendEvent`, as a transaction that begins at `now`. -/
def appendEventTxn (now : Time) (input : AppendEventInput) : JournalTxn RunEventRow := do
  let existing ← Txn.get
  match existing.event? input.eventKey with
  | some row => return row
  | none =>
    -- `update … returning` locks the row it finds, and reads it again under the lock.
    let found ← Txn.get
    Txn.require found.eventSequence.isSome (.code "event.run_missing")
    Txn.lockKey
    Txn.modify fun j : RunJournal => { j with eventSequence := j.eventSequence.map (· + 1) }
    let j ← Txn.get
    let sequence ← Txn.getOrThrow (.code "event.run_missing") j.eventSequence
    let row := input.numbered now sequence
    insertEvent row
    return row

/-- The calls on a run. -/
inductive JournalCall
  | createRun (runId : String)
  /-- Any other statement on the row of the run. -/
  | updateRun (runId : String)
  | appendEvent (now : Time) (input : AppendEventInput)

/-- The run that a call is about. -/
def JournalCall.key : JournalCall → String
  | createRun runId | updateRun runId => runId
  | appendEvent _ input => input.runId

/-- The transaction of a call, which returns an event if it appends one. -/
def JournalCall.txn : JournalCall → JournalTxn (Option RunEventRow)
  | createRun _ => do
    Txn.lockKey
    let j ← Txn.get
    Txn.require (j.eventSequence = none) (.unique "runs_pkey")
    Txn.modify fun j : RunJournal => { j with eventSequence := some 0 }
    return none
  | updateRun _ => do
    Txn.lockKey
    return none
  | appendEvent now input => do
    let row ← appendEventTxn now input
    return some row

/-- The runs and their journals. -/
def journalService : Service String JournalCall RunJournal Empty RunFailure (Option RunEventRow) where
  key := JournalCall.key
  txn := JournalCall.txn

/-- No run. -/
def noRuns : String → RunJournal := fun _ => ⟨none, []⟩

/-- Nothing is sent. -/
def NoRelay : List Empty → List Empty → Prop := fun _ _ => False

/-- Sessions side by side over the journals. -/
abbrev JournalSystem (ι : Type) : Type :=
  System ι String JournalCall RunJournal Empty RunFailure (Option RunEventRow)

/-- The events of the run are numbered `1`, `2`, … up to the counter, in the order in which they were
appended, and have distinct keys. -/
structure Gapless (runId : String) (j : RunJournal) : Prop where
  sequences : j.events.map (·.sequence) = List.range' 1 (j.eventSequence.getD 0)
  keys : (j.events.map (·.eventKey)).Nodup
  runIds : ∀ e ∈ j.events, e.runId = runId

/-! ## What a call does -/

/-- What a call that returns does, after reads of journals in `P`. -/
inductive Appended (P : RunJournal → Prop) :
    JournalCall → RunJournal → Option RunEventRow → RunJournal → List Empty → Prop
  | existing (now input j past row) : P past → past.event? input.eventKey = some row →
      Appended P (.appendEvent now input) j (some row) j []
  | appended (now input sequence events) : (¬ ∃ e ∈ events, e.eventKey = input.eventKey) →
      Appended P (.appendEvent now input) ⟨some sequence, events⟩
        (some (input.numbered now (sequence + 1)))
        ⟨some (sequence + 1), events ++ [input.numbered now (sequence + 1)]⟩ []
  | created (runId j) : j.eventSequence = none →
      Appended P (.createRun runId) j none { j with eventSequence := some 0 } []
  | updated (runId j) : Appended P (.updateRun runId) j none j []

theorem insertEvent_wp {row : RunEventRow} {j : RunJournal} :
    (insertEvent row).wp (fun _ j' _ => (¬ ∃ e ∈ j.events, e.eventKey = row.eventKey) ∧
      j' = { j with events := j.events ++ [row] }) j := by
  simp only [insertEvent, Txn.wp_bind, Txn.wp_get, Txn.wp_require, Txn.wp_modify]
  exact fun _ hkey => ⟨hkey, trivial⟩

theorem appendEventTxn_appended {P : RunJournal → Prop} {now : Time} {input : AppendEventInput} :
    (appendEventTxn now input).underLock P fun j row j' ms =>
      Appended P (.appendEvent now input) j (some row) j' ms := by
  rw [appendEventTxn, Txn.underLock_get_bind]
  intro past hpast
  cases hevent : past.event? input.eventKey with
  | some row => exact fun j => .existing now input j past row hpast hevent
  | none =>
    simp only [Txn.underLock_get_bind, Txn.underLock_require_bind, Txn.underLock_lockKey_bind,
      Txn.wp_bind, Txn.wp_modify, Txn.wp_get, Txn.wp_getOrThrow]
    rintro _ - - ⟨counter, events⟩ sequence hsequence
    refine Txn.wp_mono insertEvent_wp ?_
    rintro _ _ ms ⟨hkey, rfl⟩
    obtain ⟨n, rfl, rfl⟩ := Option.map_eq_some_iff.mp hsequence
    obtain rfl : ms = [] := Subsingleton.elim _ _
    exact .appended now input n events hkey

/-- **What a call does to the journal of its run.** -/
theorem call_appended (P : RunJournal → Prop) (call : JournalCall) :
    (journalService.txn call).underLock P (Appended P call) := by
  cases call with
  | createRun runId =>
    simp only [journalService, JournalCall.txn, Txn.underLock_lockKey_bind, Txn.wp_bind, Txn.wp_get,
      Txn.wp_require, Txn.wp_modify]
    exact fun j hnone => .created runId j hnone
  | updateRun runId =>
    simp only [journalService, JournalCall.txn, Txn.underLock_lockKey_bind]
    exact fun j => .updated runId j
  | appendEvent now input => exact Txn.underLock_bind_pure.mpr appendEventTxn_appended

/-- A journal without gaps stays one. -/
theorem Appended.gapless {P : RunJournal → Prop} {call : JournalCall} {j j' : RunJournal}
    {row : Option RunEventRow} {ms : List Empty} (h : Appended P call j row j' ms)
    (hj : Gapless call.key j) : Gapless call.key j' := by
  cases h with
  | existing | updated => exact hj
  | created runId j hnone =>
    have hsequences := hj.sequences
    rw [hnone] at hsequences
    exact ⟨hsequences, hj.keys, hj.runIds⟩
  | appended now input sequence events hkey =>
    refine ⟨?_, ?_, ?_⟩
    · rw [List.map_append, hj.sequences, Option.getD_some, Option.getD_some, List.range'_concat,
        Nat.one_mul, Nat.add_comm 1 sequence]
      rfl
    · rw [List.map_append, List.map_singleton, ← List.concat_eq_append, List.nodup_concat]
      exact ⟨fun hmem => hkey (List.mem_map.mp hmem), hj.keys⟩
    · rw [List.forall_mem_append, List.forall_mem_singleton]
      exact ⟨hj.runIds, rfl⟩

/-- Events stay. -/
def EventsStay (j j' : RunJournal) : Prop := j.events <+: j'.events

theorem EventsStay.refl (j : RunJournal) : EventsStay j j := List.prefix_rfl

theorem EventsStay.trans {j j' j'' : RunJournal} (h : EventsStay j j') (h' : EventsStay j' j'') :
    EventsStay j j'' := List.IsPrefix.trans h h'

theorem call_eventsStay (P : RunJournal → Prop) (call : JournalCall) :
    (journalService.txn call).underLock P fun j _ j' _ => EventsStay j j' := by
  refine Txn.underLock_mono (call_appended P call) fun j row j' ms h => ?_
  cases h with
  | existing | updated | created => exact List.prefix_rfl
  | appended => exact List.prefix_append _ _

/-- The event under a key is the only one. -/
theorem Gapless.event?_eq {runId : String} {j : RunJournal} (h : Gapless runId j) {e : RunEventRow}
    (he : e ∈ j.events) : j.event? e.eventKey = some e :=
  find?_eq_some_of_nodup h.keys he

/-! ## Whole transactions -/

section

variable {st : Store String JournalCall RunJournal Empty RunFailure (Option RunEventRow)}

theorem store_gapless (h : Store.Reachable journalService NoRelay noRuns st) (runId : String) :
    Gapless runId (st.db runId) := by
  refine h.invariant (fun st => ∀ runId, Gapless runId (st.db runId)) ?_ ?_ runId
  · exact fun runId => ⟨rfl, List.nodup_nil, List.forall_mem_nil _⟩
  · intro st st' ih hstep runId
    rcases hstep.cases fun call => call_appended _ call with
      ⟨call, row, j', ms, happended, rfl⟩ | ⟨call, e, rfl⟩ | ⟨out, hrelay, -⟩
    · by_cases hrun : runId = journalService.key call
      · subst hrun
        rw [Store.commit_db_self]
        exact happended.gapless (ih _)
      · rw [Store.commit_db_of_ne hrun]
        exact ih runId
    · exact ih runId
    · exact hrelay.elim

/-- An append under the key of an event of the run returns that event, and changes nothing. -/
theorem Appended.existing_eq (h : Store.Reachable journalService NoRelay noRuns st) {now : Time}
    {input : AppendEventInput} {e : RunEventRow} (he : e ∈ (st.db input.runId).events)
    (hkey : input.eventKey = e.eventKey) {row : Option RunEventRow} {j' : RunJournal} {ms : List Empty}
    (ha : Appended (st.Past journalService input.runId) (.appendEvent now input) (st.db input.runId) row
      j' ms) : row = some e ∧ j' = st.db input.runId := by
  generalize hj : st.db input.runId = j at ha
  cases ha with
  | existing now input j past row hpast hevent =>
    refine ⟨congrArg some ?_, rfl⟩
    have hrow : row ∈ (st.db input.runId).events :=
      (h.past (R := EventsStay) EventsStay.refl EventsStay.trans call_eventsStay _ hpast).subset
        (List.mem_of_find?_eq_some hevent)
    have hrowKey : row.eventKey = input.eventKey := by simpa using List.find?_some hevent
    exact List.inj_on_of_nodup_map (store_gapless h _).keys hrow he (hrowKey.trans hkey)
  | appended now input sequence events hnew =>
    rw [hj] at he
    exact absurd ⟨e, he, hkey.symm⟩ hnew

end

/-! ## The atomic statement -/

/-- The journal of a run in the tables of the control API, in which the counter of a run is the number of
its events. -/
def Tables.journal {S : PlanSchema} (t : Tables S) (runId : String) : RunJournal where
  eventSequence :=
    if ∃ r ∈ t.runs, r.runId = runId then
      some (t.runEvents.filter fun e => e.runId = runId).length
    else none
  events := t.runEvents.filter fun e => e.runId = runId

/-- The transaction on its own. -/
theorem run_appendEventTxn {now : Time} {input : AppendEventInput} {j : RunJournal}
    (h : Gapless input.runId j) :
    (appendEventTxn now input).run j =
      match j.event? input.eventKey, j.eventSequence with
      | some row, _ => .ok (row, j, [])
      | none, none => .error (.code "event.run_missing")
      | none, some n =>
        .ok (input.numbered now (n + 1), ⟨some (n + 1), j.events ++ [input.numbered now (n + 1)]⟩, []) := by
  obtain ⟨counter, events⟩ := j
  show Txn.run (match RunJournal.event? ⟨counter, events⟩ input.eventKey with
    | some row => pure row
    | none => _) _ = _
  cases hevent : RunJournal.event? ⟨counter, events⟩ input.eventKey with
  | some row => rfl
  | none =>
    cases counter with
    | none => rfl
    | some n =>
      have hsequence : ¬ ∃ e ∈ events, e.sequence = n + 1 := by
        rintro ⟨e, he, hseq⟩
        have hmem : n + 1 ∈ List.range' 1 n := by
          rw [← hseq]
          exact h.sequences ▸ List.mem_map_of_mem he
        have := (List.mem_range'_1.mp hmem).2
        omega
      have hkey : ¬ ∃ e ∈ events, e.eventKey = input.eventKey := by
        rintro ⟨e, he, hkey⟩
        exact absurd hkey (by simpa using List.find?_eq_none.mp hevent e he)
      show Txn.run (Txn.bind (Txn.bind (Txn.require (¬ ∃ e ∈ events, e.sequence = n + 1) _) fun _ =>
        Txn.bind (Txn.require (¬ ∃ e ∈ events, e.eventKey = input.eventKey) _) _) _) _ = _
      rw [Txn.require, if_pos hsequence, Txn.require, if_pos hkey]
      rfl

/-- **The transaction on its own is `appendEvent` on the tables**, which the other models take for one
statement. -/
theorem appendEvent_journal {S : PlanSchema} (t : Tables S) (input : AppendEventInput)
    (h : Gapless input.runId (t.journal input.runId)) :
    (appendEventTxn t.clock input).run (t.journal input.runId) =
      match appendEvent input t with
      | (.ok row, t') => .ok (row, t'.journal input.runId, [])
      | (.error code, _) => .error (.code code) := by
  rw [run_appendEventTxn h]
  have hevent : (t.journal input.runId).event? input.eventKey =
      t.runEvents.find? fun e => e.runId = input.runId ∧ e.eventKey = input.eventKey := by
    rw [RunJournal.event?, Tables.journal, List.find?_filter]
    simp only [Bool.decide_and, Bool.decide_eq_true]
  rw [hevent, appendEvent]
  cases t.runEvents.find? fun e => e.runId = input.runId ∧ e.eventKey = input.eventKey with
  | some row => rfl
  | none =>
    by_cases hrun : ∃ r ∈ t.runs, r.runId = input.runId
    · have hrow (n : ℕ) (hn : n = (t.runEvents.filter fun e => e.runId = input.runId).length) :
          input.numbered t.clock (n + 1) = input.row t.clock t.runEvents := by
        rw [AppendEventInput.numbered, AppendEventInput.row, hn]
      have hrun' : ∃ r ∈ updateWhere (fun r => r.runId = input.runId) (touch t.clock) t.runs,
          r.runId = input.runId := by
        obtain ⟨r, hr, hid⟩ := hrun
        exact ⟨touch t.clock r, mem_updateWhere.mpr ⟨r, hr, .inl ⟨hid, rfl⟩⟩, hid⟩
      rw [if_pos hrun, Tables.journal, if_pos hrun]
      show Except.ok (_, RunJournal.mk _ _, _) = Except.ok (_, Tables.journal _ _, _)
      rw [hrow _ rfl, Tables.journal, if_pos hrun', List.filter_append, List.filter_singleton]
      have hown : decide ((input.row t.clock t.runEvents).runId = input.runId) = true :=
        decide_eq_true rfl
      rw [hown, cond_true, List.length_append, List.length_singleton]
    · rw [if_neg hrun, Tables.journal, if_neg hrun]

/-! ## Every interleaving -/

/-- An append under the key of an event of the run only reads, and returns the event. -/
theorem append_returns {now : Time} {input : AppendEventInput} {e : RunEventRow}
    (hkey : input.eventKey = e.eventKey) :
    (journalService.txn (.appendEvent now input)).returns
      (fun j => e ∈ j.events ∧ Gapless input.runId j) (fun row => row = some e) := by
  refine Txn.returns_bind_pure.mpr ?_
  rw [appendEventTxn, Txn.returns_get_bind]
  rintro j ⟨he, hgapless⟩
  rw [hkey, hgapless.event?_eq he]
  exact rfl

section

variable {ι : Type} [DecidableEq ι] {s : JournalSystem ι}

/-- An append under the key of an event of the run changes nothing, and returns the event if it returns. -/
theorem step_of_appended (h : System.Reachable journalService NoRelay noRuns s) {now : Time}
    {input : AppendEventInput} {e : RunEventRow} (he : e ∈ (s.db input.runId).events)
    (hkey : input.eventKey = e.eventKey) {s' : JournalSystem ι}
    (hstep : System.Step journalService NoRelay s s') {result : Except RunFailure (Option RunEventRow)}
    {before after : RunJournal}
    (hlog : s'.log = s.log ++ [⟨.appendEvent now input, result, before, after⟩]) :
    s'.db = s.db ∧ ∀ row, result = .ok row → row = some e := by
  rcases hstep.store h.coherent with heq | hstore
  · have hsame : s'.log = s.log := congrArg Store.log heq
    rw [hsame] at hlog
    exact absurd hlog.symm (by simp)
  generalize s'.toStore = st' at hstore hlog ⊢
  rcases hstore.cases fun call => call_appended _ call with
    ⟨call, row, j', ms, happended, rfl⟩ | ⟨call, error, rfl⟩ | ⟨out, hrelay, -⟩
  · rw [Store.commit_log, List.append_cancel_left_eq, List.cons.injEq, Entry.mk.injEq] at hlog
    obtain ⟨⟨rfl, rfl, -, -⟩, -⟩ := hlog
    obtain ⟨rfl, rfl⟩ := happended.existing_eq h.store he hkey
    refine ⟨Function.update_eq_self _ _, fun row hrow => ?_⟩
    exact (Except.ok.inj hrow).symm
  · rw [Store.answer_log, List.append_cancel_left_eq, List.cons.injEq, Entry.mk.injEq] at hlog
    obtain ⟨⟨rfl, rfl, -, -⟩, -⟩ := hlog
    exact ⟨rfl, fun row hrow => absurd hrow (by simp)⟩
  · exact hrelay.elim

/-- Events stay over steps. -/
theorem steps_events (h : System.Reachable journalService NoRelay noRuns s) {s' : JournalSystem ι}
    (hsteps : Relation.ReflTransGen (System.Step journalService NoRelay) s s') {runId : String}
    {e : RunEventRow} (he : e ∈ (s.db runId).events) : e ∈ (s'.db runId).events :=
  (h.carries (R := EventsStay) EventsStay.refl EventsStay.trans call_eventsStay hsteps runId).subset he

/-- An append that begins when there is an event under its key only reads, and returns the event. -/
theorem append_onlyReads (h : System.Reachable journalService NoRelay noRuns s) {now : Time}
    {input : AppendEventInput} {e : RunEventRow} (he : e ∈ (s.db input.runId).events)
    (hkey : input.eventKey = e.eventKey) {i : ι} (hidle : s.session i = none) {s' : JournalSystem ι}
    (hsteps : Relation.ReflTransGen (System.Step journalService NoRelay) s s') :
    ∀ x, s'.session i = some x → x.call = .appendEvent now input →
      x.OnlyReads (fun j => e ∈ j.events ∧ Gapless input.runId j) (fun row => row = some e) := by
  induction hsteps with
  | refl => exact fun x hx => absurd hx (by rw [hidle]; nofun)
  | @tail s₁ s₂ hsteps hstep ih =>
    refine hstep.onlyReads (A := fun call => call = .appendEvent now input) ?_ ih
    rintro _ rfl
    exact ⟨⟨steps_events h hsteps he, store_gapless (h.steps hsteps).store _⟩, append_returns hkey⟩

/-- **The event journal of a run.** In every state that transactions on runs reach side by side: the
events of a run are numbered `1`, `2`, … up to its counter and have distinct keys; an append under the
key of an event of the run changes nothing when it ends, and what it returns is that event; on its own it
returns, and if it began when the event was there it does not come to throw, whatever is done beside it;
and a step in which a call throws leaves all journals as they were. -/
theorem run_event_journal (h : System.Reachable journalService NoRelay noRuns s) (runId : String) :
    Gapless runId (s.db runId) ∧
    (∀ e ∈ (s.db runId).events, ∀ now input, input.runId = runId → input.eventKey = e.eventKey →
      (∀ s' result before after, System.Step journalService NoRelay s s' →
        s'.log = s.log ++ [⟨.appendEvent now input, result, before, after⟩] →
        s'.db = s.db ∧ ∀ row, result = .ok row → row = some e) ∧
      (journalService.txn (.appendEvent now input)).run (s.db runId) = .ok (some e, s.db runId, []) ∧
      ∀ i s' x, s.session i = none →
        Relation.ReflTransGen (System.Step journalService NoRelay) s s' → s'.session i = some x →
        x.call = .appendEvent now input → ∀ error, x.rest ≠ .throw error) ∧
    ∀ s' call error before after, System.Step journalService NoRelay s s' →
      s'.log = s.log ++ [⟨call, .error error, before, after⟩] → s'.db = s.db := by
  refine ⟨store_gapless h.store runId, ?_, ?_⟩
  · rintro e he now input rfl hkey
    refine ⟨?_, ?_, ?_⟩
    · exact fun s' result before after hstep hlog => step_of_appended h he hkey hstep hlog
    · obtain ⟨row, rfl, hrun⟩ := Txn.run_of_returns (append_returns hkey)
        (s := s.db input.runId) ⟨he, store_gapless h.store _⟩
      exact hrun
    · intro i s' x hidle hsteps hx hcall error hrest
      have hreads := append_onlyReads h he hkey hidle hsteps x hx hcall
      rw [Session.OnlyReads, hrest] at hreads
      exact hreads.1
  · intro s' call error before after hstep hlog
    cases hstep with
    | commit i x a hi hr => simp [System.finish, System.committed] at hlog
    | rollback i x e hi hr => exact rfl
    | fail i x e hi => exact rfl
    | _ => simp [System.put] at hlog

end

namespace Sample

/-- An event of the run. -/
def eventInput : AppendEventInput :=
  ⟨"RUN-1", "attempt:1", "run.started", none, "observed", .obj []⟩

/-- A run whose event is appended twice. -/
def journalCalls : List JournalCall :=
  [.createRun "RUN-1", .appendEvent 0 eventInput, .appendEvent 1 eventInput]

end Sample

open Sample in
theorem run_event_journal_sample :
    let s : JournalSystem Unit := System.idle (Store.calls journalService ⟨noRuns, [], []⟩ journalCalls)
    Gapless "RUN-1" (s.db "RUN-1") ∧ (s.db "RUN-1").eventSequence = some 1 :=
  ⟨(run_event_journal (System.reachable_calls call_eventsStay journalCalls)
    "RUN-1").1, by decide +kernel⟩

end ControlApi

end HarnessFramework
