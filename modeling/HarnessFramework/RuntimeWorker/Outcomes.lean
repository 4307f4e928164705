import HarnessFramework.Library.Runs
import HarnessFramework.RuntimeWorker.Dispatcher

/-!
# Outcomes in the journal

A worker tells how a run ended after it wrote so, and what is over stays as it is. The one exception is an
error with the message `runtime.cancelled`: it is taken for a request to cancel, whether or not there is
one, and `run.cancelled` is told although the run goes on.

## Main definitions

* `Agrees` — the events of the dispatchers say how the runs ended
* `State.Meant` — an error that says `runtime.cancelled` is thrown for a run that is to be cancelled
* `Invariant` — what holds while errors are meant so

## Main results

* `Forward` — what every action leaves as it is
* `Invariant.proceed` — a statement of a worker keeps the invariant
* `journal_agrees` — the journal agrees with the runs, in every run in which errors are meant so
-/

namespace HarnessFramework

namespace RuntimeWorker

open Persistence

open ControlApi (AppendEventInput RunEventRow touch)

/-! ## What the journal says -/

/-- The events that end a run, with the statuses that they stand for. -/
def outcomes : List (String × List RunStatus) :=
  [("run.completed", [.completed]), ("run.failed", [.failed, .denied]), ("run.cancelled", [.cancelled])]

namespace State

variable (s : State) (runId : String)

/-- A run has one of some statuses. -/
def Has (statuses : List RunStatus) : Prop := ∃ r ∈ s.runs, r.runId = runId ∧ r.status ∈ statuses

/-- A run is to be cancelled. -/
def Requested : Prop := ∃ r ∈ s.runs, r.runId = runId ∧ r.cancellationRequestedAt.isSome

/-- An error that comes to the `catch` clause of a worker and says `runtime.cancelled` is thrown for a run
that is to be cancelled. -/
def Meant : Action → Prop
  | .throws id message => ∀ w, s.workers id = some w → w.phase.inTry = true →
      message = "runtime.cancelled" → s.Requested w.run.runId
  | _ => True

end State

/-- **The events of the dispatchers say how the runs ended**, and no two say different things of one run. -/
structure Agrees (s : State) : Prop where
  told : ∀ e ∈ s.dispatched, ∀ outcome ∈ outcomes, e.code = outcome.1 → s.Has e.runId outcome.2
  single : ∀ e ∈ s.dispatched, ∀ e' ∈ s.dispatched, e.runId = e'.runId →
    e.code ∈ outcomes.map Prod.fst → e'.code ∈ outcomes.map Prod.fst → e.code = e'.code

section

variable (settings : Settings) (sha256 : List Char → String)

/-- Something happens, and errors are meant as they say. -/
def Step (s s' : State) : Prop :=
  ∃ moment, s.Meant moment.2 ∧ s.actAt settings sha256 moment = some s'

/-- The states that are reached while errors are meant as they say. -/
def Reachable (s : State) : Prop :=
  ∃ clock, Relation.ReflTransGen (Step settings sha256) (State.start clock) s

end

/-! ## What every action leaves as it is -/

/-- Leases stay issued; a run that is over stays as it ended, and one that is to be cancelled stays so. -/
structure Forward (s s' : State) : Prop where
  issued : ∀ l ∈ s.issued, l ∈ s'.issued
  rows : ∀ r ∈ s.runs, ∃ r' ∈ s'.runs, r'.runId = r.runId ∧ (r.status.Terminal → r'.status = r.status) ∧
    (r.cancellationRequestedAt.isSome → r'.cancellationRequestedAt.isSome)

namespace Forward

variable {s s' s'' : State} {runId : String}

theorem refl (s : State) : Forward s s := ⟨fun _ hl => hl, fun r hr => ⟨r, hr, rfl, fun _ => rfl, id⟩⟩

/-- An update that keeps ids, statuses and requests. -/
theorem of_runs (hissued : s'.issued = s.issued) {guard : RunRow → Prop} [DecidablePred guard] {now : Time}
    (hruns : s'.runs = updateWhere guard (touch now) s.runs) : Forward s s' := by
  refine ⟨fun l hl => hissued ▸ hl, fun r hr => ?_⟩
  rw [hruns]
  by_cases hg : guard r
  · exact ⟨touch now r, mem_updateWhere.mpr ⟨r, hr, .inl ⟨hg, rfl⟩⟩, rfl, fun _ => rfl, id⟩
  · exact ⟨r, mem_updateWhere.mpr ⟨r, hr, .inr ⟨hg, rfl⟩⟩, rfl, fun _ => rfl, id⟩

theorem has (h : Forward s s') {statuses : List RunStatus} (hterminal : ∀ status ∈ statuses, status.Terminal)
    (hhas : s.Has runId statuses) : s'.Has runId statuses := by
  obtain ⟨r, hr, hid, hstatus⟩ := hhas
  obtain ⟨r', hr', hid', hsame, -⟩ := h.rows r hr
  exact ⟨r', hr', hid'.trans hid, by rw [hsame (hterminal _ hstatus)]; exact hstatus⟩

theorem requested (h : Forward s s') (hrequested : s.Requested runId) : s'.Requested runId := by
  obtain ⟨r, hr, hid, hsome⟩ := hrequested
  obtain ⟨r', hr', hid', -, hstands⟩ := h.rows r hr
  exact ⟨r', hr', hid'.trans hid, hstands hsome⟩

end Forward

/-- Statuses of outcomes are terminal. -/
theorem outcomes_terminal : ∀ outcome ∈ outcomes, ∀ status ∈ outcome.2, status.Terminal := by decide

/-- Statuses tell outcomes apart. -/
theorem outcomes_distinct : ∀ outcome ∈ outcomes, ∀ other ∈ outcomes,
    ∀ status ∈ outcome.2, status ∈ other.2 → outcome.1 = other.1 := by decide

/-- A code has one list of statuses. -/
theorem outcomes_statuses : ∀ outcome ∈ outcomes, ∀ other ∈ outcomes, outcome.1 = other.1 →
    outcome.2 = other.2 := by decide

/-- The start of a run and its retries end nothing. -/
theorem outcomes_others : ∀ code ∈ ["run.started", "run.retrying"], ∀ outcome ∈ outcomes,
    code ≠ outcome.1 := by decide

section

variable {sha256 : List Char → String} {now : Time} {s : State}

/-- A statement on runs. -/
theorem forward_ran (h : s.toRunSystem.Valid) {op : RunOp} (hlease : ∀ l ∈ op.lease?, l ∈ s.issued) :
    Forward s (s.ran sha256 now op) := by
  refine ⟨fun l hl => List.mem_append_left _ hl, fun r hr => ?_⟩
  have hevolves : Evolves (RunChange s.issued now) (Created sha256 now s.runs) s.runs
    (op.exec sha256 now s.runs) := op.exec_evolves h.ids hlease
  obtain ⟨r', hr', hchange⟩ := hevolves.forward r hr
  have honwards := hchange.onwards
  exact ⟨r', hr', honwards.runId, fun hterminal => by rw [honwards.terminal hterminal], honwards.requested⟩

/-- The time of an update is not what makes rows valid. -/
theorem valid_touched (h : s.toRunSystem.Valid) (guard : RunRow → Prop) [DecidablePred guard] :
    (s.touched now guard).toRunSystem.Valid := by
  have hids : (updateWhere guard (touch now) s.runs).map (·.runId) = s.runs.map (·.runId) :=
    map_updateWhere fun _ _ => rfl
  refine ⟨?_, ?_, ?_, h.leases⟩
  · show ((updateWhere guard (touch now) s.runs).map (·.runId)).Nodup
    rw [hids]
    exact h.ids
  · intro r' hr'
    obtain ⟨r, hr, ⟨-, rfl⟩ | ⟨-, rfl⟩⟩ := mem_updateWhere.mp hr'
    · exact ⟨(h.rows r hr).attempts, (h.rows r hr).leased, (h.rows r hr).cancelled, (h.rows r hr).epochs,
        (h.rows r hr).revoked⟩
    · exact h.rows r' hr
  · intro l hl
    obtain ⟨r, hr, hid⟩ := h.known l hl
    have hmem : l.runId ∈ (updateWhere guard (touch now) s.runs).map (·.runId) :=
      hids ▸ List.mem_map.mpr ⟨r, hr, hid⟩
    obtain ⟨r', hr', hid'⟩ := List.mem_map.mp hmem
    exact ⟨r', hr', hid'⟩

/-- **What appending an event does**: nothing if the run has an event with the key, or else there is a new
one with the run and the code of the input. -/
theorem appendEvent_spec (now : Time) (input : AppendEventInput) (runs : List RunRow) (events : List RunEventRow) :
    appendEvent now input runs events = ((appendEvent now input runs events).1, runs, events) ∨
      ∃ row, row.runId = input.runId ∧ row.code = input.code ∧
        appendEvent now input runs events
          = (.ok row, updateWhere (fun r => r.runId = input.runId) (touch now) runs, events ++ [row]) := by
  rw [appendEvent]
  split
  · exact .inl rfl
  · split
    · exact .inr ⟨_, rfl, rfl, rfl⟩
    · exact .inl rfl

theorem appendEvent_error {input : AppendEventInput} {runs : List RunRow} {events : List RunEventRow}
    {message : String} (h : (appendEvent now input runs events).1 = .error message) :
    message = "event.run_missing" := by
  rw [appendEvent] at h
  split at h
  · cases h
  · split at h
    · cases h
    · exact (Except.error.inj h).symm

theorem appended_runs (now : Time) (input : AppendEventInput) (s : State) :
    (s.appended now input).toRunSystem = s.toRunSystem ∨
      (s.appended now input).toRunSystem = (s.touched now fun r => r.runId = input.runId).toRunSystem := by
  rcases appendEvent_spec now input s.runs s.events with h | ⟨row, -, -, h⟩
  · left
    rw [State.appended, h]
  · right
    rw [State.appended, h]
    rfl

theorem valid_appended (h : s.toRunSystem.Valid) (input : AppendEventInput) :
    (s.appended now input).toRunSystem.Valid := by
  rcases appended_runs now input s with hsame | hsame
  · rw [hsame]
    exact h
  · rw [hsame]
    exact valid_touched h _

theorem forward_appended (input : AppendEventInput) : Forward s (s.appended now input) := by
  rcases appended_runs now input s with hsame | hsame
  · refine ⟨fun l hl => ?_, fun r hr => ⟨r, ?_, rfl, fun _ => rfl, id⟩⟩
    · show l ∈ (s.appended now input).toRunSystem.issued
      rwa [hsame]
    · show r ∈ (s.appended now input).toRunSystem.runs
      rwa [hsame]
  · have hissued : (s.appended now input).issued = (s.touched now fun r => r.runId = input.runId).issued :=
      congrArg RunSystem.issued hsame
    have hruns : (s.appended now input).runs = (s.touched now fun r => r.runId = input.runId).runs :=
      congrArg RunSystem.runs hsame
    exact .of_runs hissued hruns

/-- The events that a worker appended are those before, and at most one of what it tells. -/
theorem mem_dispatched_told {input : AppendEventInput} {e : RunEventRow} (h : e ∈ (s.told now input).dispatched) :
    e ∈ s.dispatched ∨ e.runId = input.runId ∧ e.code = input.code := by
  have hmem : e ∈ s.dispatched ++ (s.appended now input).events.drop s.events.length := h
  rcases List.mem_append.mp hmem with hmem | hmem
  · exact .inl hmem
  right
  rcases appendEvent_spec now input s.runs s.events with hsame | ⟨row, hrun, hcode, hrow⟩
  · rw [State.appended, hsame, List.drop_length] at hmem
    cases hmem
  · rw [State.appended, hrow] at hmem
    dsimp only at hmem
    rw [List.drop_left, List.mem_singleton] at hmem
    exact hmem ▸ ⟨hrun, hcode⟩

end

/-! ## What workers know -/

/-- What a phase stands for. -/
def Phase.Stands (s : State) (runId : String) : Phase → Prop
  | .completed _ => s.Has runId [.completed]
  | .failed _ _ _ => s.Has runId [.failed, .denied]
  | .cancelled => s.Has runId [.cancelled]
  | .cancelling => s.Requested runId
  | .caught message => message = "runtime.cancelled" → s.Requested runId
  | _ => True

/-- What a worker knows of its run. -/
structure Worker.Sound (s : State) (w : Worker) : Prop where
  issued : w.lease ∈ s.issued
  cancelled : w.cancelled = true → s.Requested w.run.runId
  stands : w.phase.Stands s w.run.runId

/-- The events of the dispatchers say how the runs ended. -/
def Told (s : State) : Prop :=
  ∀ e ∈ s.dispatched, ∀ outcome ∈ outcomes, e.code = outcome.1 → s.Has e.runId outcome.2

/-- What holds while errors are meant as they say. -/
structure Invariant (s : State) : Prop where
  valid : s.toRunSystem.Valid
  workers : ∀ id w, s.workers id = some w → w.Sound s
  told : Told s

/-- What a statement of a worker comes to. -/
structure Moves (s s' : State) (next : Option Worker) : Prop where
  valid : s'.toRunSystem.Valid
  forward : Forward s s'
  workers : s'.workers = s.workers
  sound : ∀ w, next = some w → w.Sound s'
  told : Told s'

section

variable {settings : Settings} {sha256 : List Char → String} {now : Time} {s s' : State} {w : Worker}

theorem Phase.Stands.forward {runId : String} {phase : Phase} (h : phase.Stands s runId) (hforward : Forward s s') :
    phase.Stands s' runId := by
  cases phase with
  | completed => exact hforward.has (by decide) h
  | failed => exact hforward.has (by decide) h
  | cancelled => exact hforward.has (by decide) h
  | cancelling => exact hforward.requested h
  | caught message => exact fun hmessage => hforward.requested (h hmessage)
  | _ => trivial

/-- A worker knows what it knew. -/
theorem Worker.Sound.forward (h : w.Sound s) (hforward : Forward s s') : w.Sound s' where
  issued := hforward.issued _ h.issued
  cancelled hcancelled := hforward.requested (h.cancelled hcancelled)
  stands := h.stands.forward hforward

/-- A worker in another phase. -/
theorem Worker.Sound.withPhase (h : w.Sound s) {phase : Phase} (hstands : phase.Stands s w.run.runId) :
    ({ w with phase } : Worker).Sound s := ⟨h.issued, h.cancelled, hstands⟩

theorem Worker.Sound.fail (h : w.Sound s) {message : String}
    (hmeant : w.phase.inTry = true → message = "runtime.cancelled" → s.Requested w.run.runId) {w' : Worker}
    (hw' : w.fail message = some w') : w'.Sound s := by
  rw [Worker.fail] at hw'
  split at hw'
  · next htry =>
    obtain rfl := Option.some_inj.mp hw'
    exact h.withPhase (hmeant htry)
  · cases hw'

theorem Told.forward (h : Told s) (hforward : Forward s s') (hsame : s'.dispatched = s.dispatched) : Told s' := by
  intro e he outcome houtcome hcode
  rw [hsame] at he
  exact hforward.has (outcomes_terminal outcome houtcome) (h e he outcome houtcome hcode)

/-- Nothing but the worker changes. -/
theorem Invariant.stays (h : Invariant s) {next : Option Worker} (hsound : ∀ w, next = some w → w.Sound s) :
    Moves s s next := ⟨h.valid, .refl s, rfl, hsound, h.told⟩

/-- **A statement on runs** keeps what workers know. -/
theorem Invariant.ran (h : Invariant s) {op : RunOp} (hlease : ∀ l ∈ op.lease?, l ∈ s.issued) {next : Option Worker}
    (hsound : ∀ w, next = some w → w.Sound (s.ran sha256 now op)) : Moves s (s.ran sha256 now op) next :=
  ⟨h.valid.after hlease, forward_ran h.valid hlease, rfl, hsound, h.told.forward (forward_ran h.valid hlease) rfl⟩

/-- **A worker that tells what is so** keeps the invariant. -/
theorem Invariant.tell (h : Invariant s) (hw : w.Sound s) {input : AppendEventInput} {next : Option Worker}
    (hso : ∀ outcome ∈ outcomes, input.code = outcome.1 → s.Has input.runId outcome.2)
    (hnext : ∀ w', next = some w' → w'.Sound s) :
    Moves s (w.tell now s input next).2 (w.tell now s input next).1 := by
  have happended : Forward s (s.appended now input) := forward_appended input
  have hforward : Forward s (s.told now input) := ⟨happended.issued, happended.rows⟩
  refine ⟨valid_appended h.valid input, hforward, rfl, ?_, ?_⟩
  · intro w' hw'
    rw [Worker.tell] at hw'
    split at hw'
    · exact (hnext w' hw').forward hforward
    · next message herror =>
      refine (hw.forward hforward).fail (fun _ hmessage => ?_) hw'
      rw [appendEvent_error herror] at hmessage
      exact absurd hmessage (by decide)
  · intro e he outcome houtcome hcode
    rcases mem_dispatched_told he with he | ⟨hrun, hsame⟩
    · exact hforward.has (outcomes_terminal outcome houtcome) (h.told e he outcome houtcome hcode)
    · rw [hrun]
      exact hforward.has (outcomes_terminal outcome houtcome) (hso outcome houtcome (hsame ▸ hcode))

/-- An update of one row that was made. -/
theorem exists_of_updateOne {guard : RunRow → Prop} [DecidablePred guard] {set : RunRow → RunRow}
    {rows : List RunRow} (h : (updateOne guard set rows).1 = true) :
    ∃ r ∈ rows, guard r ∧ set r ∈ (updateOne guard set rows).2 := by
  have hpos : 0 < rows.countP fun r => guard r := by
    have hone : rowCount guard rows = 1 := of_decide_eq_true h
    rw [rowCount] at hone
    omega
  obtain ⟨r, hr, hg⟩ := List.countP_pos_iff.mp hpos
  exact ⟨r, hr, of_decide_eq_true hg, mem_updateWhere.mpr ⟨r, hr, .inl ⟨of_decide_eq_true hg, rfl⟩⟩⟩

/-- **A run that a worker completed has the status that it wrote.** -/
theorem has_of_completeRun {l : Lease} {input : CompleteRunInput}
    (h : (completeRun now l input s.runs).1 = .ok ()) :
    (s.ran sha256 now (.completeRun l input)).Has l.runId [input.status.status] := by
  have hupdated : (updateOne l.Holds (RunRow.complete now input) s.runs).1 = true := by
    rw [completeRun, updateFenced] at h
    by_contra hnot
    simp only [hnot] at h
    cases h
  obtain ⟨r, -, hg, hmem⟩ := exists_of_updateOne hupdated
  exact ⟨_, hmem, hg.1, List.mem_singleton_self _⟩

/-- **A run that is to be cancelled is cancelled** after `completeCancelledRun`, by it or before. -/
theorem has_of_completeCancelledRun (h : s.toRunSystem.Valid) {runId : String} {errorCode : Option String}
    (hrequested : s.Requested runId) :
    (s.ran sha256 now (.completeCancelledRun runId errorCode)).Has runId [.cancelled] := by
  obtain ⟨r, hr, hid, hsome⟩ := hrequested
  have hmem : ∀ r', (CancelRequested runId r ∧ r' = r.cancel now errorCode "runtime.cancelled") ∨
      (¬CancelRequested runId r ∧ r' = r) → r' ∈ (s.ran sha256 now (.completeCancelledRun runId errorCode)).runs :=
    fun r' h' => mem_updateWhere.mpr ⟨r, hr, h'⟩
  rcases (h.rows r hr).cancelled hsome with hstatus | hstatus
  · exact ⟨_, hmem _ (.inl ⟨⟨hid, hstatus, Option.isSome_iff_ne_none.mp hsome⟩, rfl⟩), hid,
      List.mem_singleton_self _⟩
  · refine ⟨r, hmem _ (.inr ⟨fun hg => ?_, rfl⟩), hid, List.mem_singleton.mpr hstatus⟩
    have hrunning := hg.2.1
    rw [hstatus] at hrunning
    cases hrunning

/-- **A worker that completes its run** knows afterwards how it ended. -/
theorem Invariant.complete (h : Invariant s) (hw : w.Sound s) {input : CompleteRunInput} {next : Phase}
    (hnext : ∀ s', s'.Has w.run.runId [input.status.status] → next.Stands s' w.run.runId) :
    Moves s (w.complete sha256 now s input next).2 (w.complete sha256 now s input next).1 := by
  have hlease : ∀ l ∈ RunOp.lease? (.completeRun w.lease input), l ∈ s.issued := by
    intro l hl
    exact Option.some_inj.mp hl ▸ hw.issued
  have hforward : Forward s (s.ran sha256 now (.completeRun w.lease input)) := forward_ran h.valid hlease
  have hafter := hw.forward hforward
  refine h.ran hlease fun w' hw' => ?_
  rw [Worker.complete] at hw'
  split at hw'
  · next hok =>
    obtain rfl := Option.some_inj.mp hw'
    exact hafter.withPhase (hnext _ (has_of_completeRun hok))
  · exact hafter.fail (fun _ hmessage => absurd hmessage (by decide)) hw'

/-- The error that was caught is a request to cancel only if there is one. -/
theorem Worker.Sound.caughtPhase (h : w.Sound s) {message : String} (hphase : w.phase = .caught message)
    {phase : Phase} (hcaught : w.caughtPhase message = some phase) : phase.Stands s w.run.runId := by
  simp only [Worker.caughtPhase] at hcaught
  split at hcaught
  · next hcode =>
    obtain rfl := Option.some_inj.mp hcaught
    show s.Requested w.run.runId
    rw [Worker.caughtCode] at hcode
    split at hcode
    · next hcancelled => exact h.cancelled hcancelled
    · split at hcode
      · exact absurd hcode (by decide)
      · have hstands := h.stands
        rw [hphase] at hstands
        exact hstands hcode
  · split at hcaught
    · cases hcaught
    · obtain rfl := Option.some_inj.mp hcaught
      trivial

/-- What a worker tells with a code of its own is so if its run has the statuses of the code. -/
theorem so_of_has {runId code : String} {statuses : List RunStatus} (hmem : (code, statuses) ∈ outcomes)
    (h : s.Has runId statuses) : ∀ outcome ∈ outcomes, code = outcome.1 → s.Has runId outcome.2 := by
  intro outcome houtcome hcode
  rw [← outcomes_statuses _ hmem _ houtcome hcode]
  exact h

/-- What a worker tells with another code is so. -/
theorem so_of_other {runId code : String} (hmem : code ∈ ["run.started", "run.retrying"]) :
    ∀ outcome ∈ outcomes, code = outcome.1 → s.Has runId outcome.2 :=
  fun outcome houtcome hcode => absurd hcode (outcomes_others code hmem outcome houtcome)

/-- A worker that bound its trace. -/
theorem Invariant.bind (h : Invariant s) (hw : w.Sound s) (guard : RunRow → Prop) [DecidablePred guard] :
    Moves s (s.touched now guard) (some { w with phase := .bound }) := by
  have hforward : Forward s (s.touched now guard) := .of_runs rfl rfl
  refine ⟨valid_touched h.valid guard, hforward, rfl, fun w' hw' => ?_, h.told.forward hforward rfl⟩
  obtain rfl := Option.some_inj.mp hw'
  exact (hw.forward hforward).withPhase trivial

/-- A worker that schedules a retry of its run, or does not. -/
theorem Invariant.retry (h : Invariant s) (hw : w.Sound s) {code : String} {backoffMs : ℚ} {phase : Phase}
    (hstands : ∀ s', phase.Stands s' w.run.runId) :
    Moves s (s.ran sha256 now (.scheduleRunRetry w.lease code backoffMs)) (some { w with phase }) := by
  have hlease : ∀ l ∈ RunOp.lease? (.scheduleRunRetry w.lease code backoffMs), l ∈ s.issued :=
    fun l hl => Option.some_inj.mp hl ▸ hw.issued
  refine h.ran hlease fun w' hw' => ?_
  obtain rfl := Option.some_inj.mp hw'
  exact (hw.forward (forward_ran h.valid hlease)).withPhase (hstands _)

/-- A worker that closes a run that is to be cancelled. -/
theorem Invariant.cancel (h : Invariant s) (hw : w.Sound s) (hrequested : s.Requested w.run.runId)
    {errorCode : Option String} :
    Moves s (s.ran sha256 now (.completeCancelledRun w.run.runId errorCode))
      (some { w with phase := .cancelled }) := by
  have hlease : ∀ l ∈ RunOp.lease? (.completeCancelledRun w.run.runId errorCode), l ∈ s.issued := nofun
  refine h.ran hlease fun w' hw' => ?_
  obtain rfl := Option.some_inj.mp hw'
  exact (hw.forward (forward_ran h.valid hlease)).withPhase (has_of_completeCancelledRun h.valid hrequested)

/-- **A statement of a worker keeps the invariant.** -/
theorem Invariant.proceed (h : Invariant s) (hw : w.Sound s) {result : Option Worker × State}
    (hproceed : w.proceed settings sha256 now s w.phase = some result) : Moves s result.2 result.1 := by
  have hstands := hw.stands
  have hnone : ∀ w' : Worker, none = some w' → w'.Sound s := by
    intro w' hw'
    cases hw'
  have hcaught : ∀ {message phase}, w.phase = .caught message → w.caughtPhase message = some phase →
      phase.Stands s w.run.runId := fun hphase hcaught => hw.caughtPhase hphase hcaught
  generalize w.phase = phase at hproceed hstands hcaught
  cases phase with
  | claimed =>
    rw [Worker.proceed] at hproceed
    split at hproceed
    · obtain rfl := Option.some_inj.mp hproceed
      exact h.bind hw _
    · obtain rfl := Option.some_inj.mp hproceed
      exact h.stays hnone
  | bound =>
    obtain rfl := Option.some_inj.mp hproceed
    have hnext : ∀ w', some { w with phase := .invoking } = some w' → w'.Sound s := by
      intro w' hw'
      obtain rfl := Option.some_inj.mp hw'
      exact hw.withPhase trivial
    have hso : ∀ outcome ∈ outcomes, w.started.code = outcome.1 → s.Has w.started.runId outcome.2 :=
      so_of_other List.mem_cons_self
    exact h.tell hw hso hnext
  | invoking => cases hproceed
  | completing result =>
    obtain rfl := Option.some_inj.mp hproceed
    exact h.complete hw fun _ hhas => hhas
  | completed result =>
    obtain rfl := Option.some_inj.mp hproceed
    have hmem : ("run.completed", [RunStatus.completed]) ∈ outcomes := by decide
    exact h.tell hw (so_of_has hmem hstands) hnone
  | failing inCatch code denied =>
    rw [Worker.proceed] at hproceed
    split at hproceed
    · obtain rfl := Option.some_inj.mp hproceed
      refine h.retry hw fun s' => ?_
      split <;> trivial
    · obtain rfl := Option.some_inj.mp hproceed
      show Moves s s (some { w with phase := .terminating inCatch code denied })
      refine h.stays fun w' hw' => ?_
      obtain rfl := Option.some_inj.mp hw'
      exact hw.withPhase trivial
  | retried inCatch code =>
    obtain rfl := Option.some_inj.mp hproceed
    have hmem : "run.retrying" ∈ ["run.started", "run.retrying"] := by decide
    exact h.tell hw (so_of_other hmem) hnone
  | terminating inCatch code denied =>
    obtain rfl := Option.some_inj.mp hproceed
    refine h.complete hw fun s' hhas => ?_
    obtain ⟨r, hr, hid, hstatus⟩ := hhas
    refine ⟨r, hr, hid, ?_⟩
    rw [List.mem_singleton.mp hstatus]
    cases denied
    · exact List.mem_cons_self
    · exact List.mem_cons_of_mem _ List.mem_cons_self
  | failed inCatch code denied =>
    obtain rfl := Option.some_inj.mp hproceed
    have hmem : ("run.failed", [RunStatus.failed, RunStatus.denied]) ∈ outcomes := by decide
    exact h.tell hw (so_of_has hmem hstands) hnone
  | caught message =>
    obtain rfl := Option.some_inj.mp hproceed
    show Moves s s ((w.caughtPhase message).map fun phase => { w with phase })
    refine h.stays fun w' hw' => ?_
    obtain ⟨phase, hphase, rfl⟩ := Option.map_eq_some_iff.mp hw'
    exact hw.withPhase (hcaught rfl hphase)
  | cancelling =>
    obtain rfl := Option.some_inj.mp hproceed
    exact h.cancel hw hstands
  | cancelled =>
    obtain rfl := Option.some_inj.mp hproceed
    have hmem : ("run.cancelled", [RunStatus.cancelled]) ∈ outcomes := by decide
    exact h.tell hw (so_of_has hmem hstands) hnone

/-! ## Actions -/

/-- What a statement came to, without the worker. -/
theorem Moves.invariant {next : Option Worker} (hmoves : Moves s s' next) (h : Invariant s) : Invariant s' := by
  refine ⟨hmoves.valid, fun id w hw => ?_, hmoves.told⟩
  rw [hmoves.workers] at hw
  exact (h.workers id w hw).forward hmoves.forward

/-- What a statement came to, with the worker. -/
theorem Moves.setWorker {next : Option Worker} (hmoves : Moves s s' next) (h : Invariant s) (id : ℕ) :
    Invariant (s'.setWorker id next) := by
  have hforward : Forward s' (s'.setWorker id next) :=
    ⟨fun _ hl => hl, fun r hr => ⟨r, hr, rfl, fun _ => rfl, fun hsome => hsome⟩⟩
  refine ⟨hmoves.valid, fun i w hw => ?_, hmoves.told.forward hforward rfl⟩
  have hupdate : Function.update s'.workers id next i = some w := hw
  by_cases hi : i = id
  · subst hi
    rw [Function.update_self] at hupdate
    exact (hmoves.sound w hupdate).forward hforward
  · rw [Function.update_of_ne hi] at hupdate
    exact ((hmoves.invariant h).workers i w hupdate).forward hforward

/-- The marker that the heartbeat reads. -/
theorem requested_of_cancellationRequested {runId : String} {p : String → Bool}
    (h : (cancellationRequested runId s.runs).any p = true) : s.Requested runId := by
  rw [Option.any_eq_true] at h
  obtain ⟨reason, hreason, -⟩ := h
  obtain ⟨r, hfind, hmap⟩ := Option.bind_eq_some_iff.mp hreason
  obtain ⟨t, ht, -⟩ := Option.map_eq_some_iff.mp hmap
  have hid : r.runId = runId := of_decide_eq_true (List.find?_some hfind :)
  exact ⟨r, List.mem_of_find?_eq_some hfind, hid, by rw [ht]; rfl⟩

/-- A worker that claimed a run. -/
theorem Invariant.claim (h : Invariant s) (id : ℕ)
    (slotWorkerId traceId runtimeProvider executionProfileDigest : String) (locked : List String) :
    Invariant (s.claimed settings sha256 now id slotWorkerId traceId runtimeProvider executionProfileDigest
      locked) := by
  have hlease : ∀ l ∈ RunOp.lease? (.claimRun slotWorkerId settings.leaseSeconds locked), l ∈ s.issued := nofun
  rw [State.claimed]
  split
  · have hmoves : Moves s (s.ran sha256 now (.claimRun slotWorkerId settings.leaseSeconds locked)) none :=
      h.ran hlease fun w' hw' => by cases hw'
    exact hmoves.invariant h
  · next run hrun =>
    refine Moves.setWorker (h.ran hlease fun w' hw' => ?_) h id
    obtain rfl := Option.some_inj.mp hw'
    refine ⟨List.mem_append_right _ ?_, fun hcancelled => Bool.noConfusion hcancelled, trivial⟩
    rw [RunOp.claimed, hrun]
    exact List.mem_singleton_self _

theorem received_stands (result : InvocationResult) (runId : String) : (received result).Stands s runId := by
  rw [received]
  split <;> trivial

/-- **Every action keeps the invariant**, as long as errors are meant as they say. -/
theorem Invariant.act (h : Invariant s) {action : Action} (hmeant : s.Meant action)
    (hact : s.act settings sha256 now action = some s') : Invariant s' := by
  cases action with
  | claim id slotWorkerId traceId runtimeProvider executionProfileDigest locked =>
    rw [State.act] at hact
    split at hact
    · obtain rfl := Option.some_inj.mp hact
      exact h.claim ..
    · cases hact
  | proceed id =>
    obtain ⟨w, hw, hnext⟩ := Option.bind_eq_some_iff.mp hact
    obtain ⟨result, hproceed, rfl⟩ := Option.map_eq_some_iff.mp hnext
    exact (h.proceed (h.workers id w hw) hproceed).setWorker h id
  | returns id result =>
    obtain ⟨w, hw, hnext⟩ := Option.bind_eq_some_iff.mp hact
    split at hnext
    · obtain rfl := Option.some_inj.mp hnext
      refine Moves.setWorker (h.stays fun w' hw' => ?_) h id
      obtain rfl := Option.some_inj.mp hw'
      exact (h.workers id w hw).withPhase (received_stands result _)
    · cases hnext
  | throws id message =>
    obtain ⟨w, hw, rfl⟩ := Option.map_eq_some_iff.mp hact
    exact Moves.setWorker (h.stays fun w' hw' => (h.workers id w hw).fail (hmeant w hw) hw') h id
  | renew id =>
    obtain ⟨w, hw, hnext⟩ := Option.bind_eq_some_iff.mp hact
    split at hnext
    · obtain rfl := Option.some_inj.mp hnext
      have hlease : ∀ l ∈ RunOp.lease? (.renewLease w.lease settings.leaseSeconds), l ∈ s.issued :=
        fun l hl => Option.some_inj.mp hl ▸ (h.workers id w hw).issued
      refine Moves.setWorker (h.ran hlease fun w' hw' => ?_) h id
      obtain rfl := Option.some_inj.mp hw'
      have hforward : Forward s (s.ran sha256 now (.renewLease w.lease settings.leaseSeconds)) :=
        forward_ran h.valid hlease
      have hafter := (h.workers id w hw).forward hforward
      exact ⟨hafter.issued, hafter.cancelled, hafter.stands⟩
    · cases hnext
  | poll id =>
    obtain ⟨w, hw, hnext⟩ := Option.bind_eq_some_iff.mp hact
    split at hnext
    · obtain rfl := Option.some_inj.mp hnext
      refine Moves.setWorker (h.stays fun w' hw' => ?_) h id
      obtain rfl := Option.some_inj.mp hw'
      refine ⟨(h.workers id w hw).issued, fun hcancelled => ?_, (h.workers id w hw).stands⟩
      rcases Bool.or_eq_true_iff.mp hcancelled with hbefore | hfound
      · exact (h.workers id w hw).cancelled hbefore
      · exact requested_of_cancellationRequested hfound
    · cases hnext
  | stop id =>
    obtain rfl := Option.some_inj.mp hact
    exact Moves.setWorker (h.stays fun w' hw' => by cases hw') h id
  | other op =>
    rw [State.act] at hact
    split at hact
    · next hforeign =>
      obtain rfl := Option.some_inj.mp hact
      have hmoves : Moves s (s.ran sha256 now op) none := h.ran hforeign.2 fun w' hw' => by cases hw'
      exact hmoves.invariant h
    · cases hact
  | append input =>
    obtain rfl := Option.some_inj.mp hact
    have hforward : Forward s (s.appended now input) := forward_appended input
    exact ⟨valid_appended h.valid input, fun id w hw => (h.workers id w hw).forward hforward,
      h.told.forward hforward rfl⟩
  | advance clock =>
    rw [State.act] at hact
    split at hact
    · obtain rfl := Option.some_inj.mp hact
      exact ⟨⟨h.valid.ids, h.valid.rows, h.valid.known, h.valid.leases⟩,
        fun id w hw => ⟨(h.workers id w hw).issued, (h.workers id w hw).cancelled, (h.workers id w hw).stands⟩,
        h.told⟩
    · cases hact

/-- Outcomes that are told of one run are the same. -/
theorem Invariant.agrees (h : Invariant s) : Agrees s where
  told := h.told
  single := by
    intro e he e' he' hrun hcode hcode'
    obtain ⟨outcome, houtcome, hcode⟩ := List.mem_map.mp hcode
    obtain ⟨other, hother, hcode'⟩ := List.mem_map.mp hcode'
    obtain ⟨r, hr, hid, hstatus⟩ := h.told e he outcome houtcome hcode.symm
    obtain ⟨r', hr', hid', hstatus'⟩ := h.told e' he' other hother hcode'.symm
    obtain rfl := List.inj_on_of_nodup_map h.valid.ids hr hr' (hid.trans (hrun.trans hid'.symm))
    rw [← hcode, ← hcode']
    exact outcomes_distinct outcome houtcome other hother _ hstatus hstatus'

theorem invariant_start (clock : Time) : Invariant (State.start clock) where
  valid := RunSystem.start_valid clock
  workers id w hw := by cases hw
  told := nofun

/-- Actions that happen one after another, none of which throws, reach a state. -/
theorem reachable_of_foldlM {clock : Time} {moments : List (Time × Action)}
    (hmeant : ∀ moment ∈ moments, ∀ s : State, s.Meant moment.2)
    (h : moments.foldlM (State.actAt settings sha256) (State.start clock) = some s) :
    Reachable settings sha256 s := by
  refine ⟨clock, ?_⟩
  generalize State.start clock = s₀ at h
  induction moments generalizing s₀ with
  | nil =>
    obtain rfl := Option.some_inj.mp h
    exact .refl
  | cons moment moments ih =>
    rw [List.foldlM_cons] at h
    obtain ⟨s₁, hact, hrest⟩ := Option.bind_eq_some_iff.mp h
    obtain ⟨hfirst, hothers⟩ := List.forall_mem_cons.mp hmeant
    exact .head ⟨moment, hfirst s₀, hact⟩ (ih hothers s₁ hrest)

end

namespace Sample

def settings : Settings := ⟨1, 2000, 60000⟩

/-- A run is created. -/
def creates : List (Time × Action) := [(0, .other (.createRun "1" ⟨"plan", .null, "key", "tenant"⟩))]

/-- A worker claims the run, and invokes the provider. -/
def invokes (clock : Time) : List (Time × Action) :=
  [(clock, .claim 0 "worker" "trace" "local_http" "profile" []), (clock, .proceed 0), (clock, .proceed 0)]

/-- The provider returns, and the run is completed. -/
def completes (clock : Time) : List (Time × Action) :=
  [(clock, .returns 0 ⟨.completed, .null, none, []⟩), (clock, .proceed 0), (clock, .proceed 0)]

/-- The provider throws `runtime.cancelled`, and `run.cancelled` is told. -/
def throws : List (Time × Action) :=
  [(0, .throws 0 "runtime.cancelled"), (0, .proceed 0), (0, .proceed 0), (0, .proceed 0)]

/-- What dispatchers told, and how the runs are. -/
def summary (moments : List (Time × Action)) : Option (List (String × String) × List RunStatus) :=
  (moments.foldlM (State.actAt settings String.ofList) (State.start 0)).map fun s =>
    (s.dispatched.map fun e => (e.runId, e.code), s.runs.map (·.status))

theorem summary_completes : summary (creates ++ invokes 0 ++ completes 0)
    = some ([("RUN-1", "run.started"), ("RUN-1", "run.completed")], [.completed]) := by decide +kernel

theorem summary_throws : summary (creates ++ invokes 0 ++ throws ++ [(0, .advance 10)] ++ invokes 10 ++ completes 10)
    = some ([("RUN-1", "run.started"), ("RUN-1", "run.cancelled"), ("RUN-1", "run.started"),
        ("RUN-1", "run.completed")], [.completed]) := by decide +kernel

end Sample

/-- **What dispatchers tell agrees with the runs**, in every run in which errors are meant as they say. -/
theorem journal_agrees {settings : Settings} {sha256 : List Char → String} {s : State}
    (h : Reachable settings sha256 s) : Agrees s := by
  obtain ⟨clock, hsteps⟩ := h
  refine Invariant.agrees ?_
  induction hsteps with
  | refl => exact invariant_start clock
  | tail _ hstep ih =>
    obtain ⟨moment, hmeant, hact⟩ := hstep
    rw [State.actAt] at hact
    split at hact
    · exact ih.act hmeant hact
    · cases hact

open Sample in
/-- The run is completed, and told to be. -/
theorem journal_agrees_sample : ∃ s : State,
    (s.dispatched.map fun e => (e.runId, e.code)) = [("RUN-1", "run.started"), ("RUN-1", "run.completed")] ∧
      Agrees s := by
  obtain ⟨s, hrun, hsummary⟩ := Option.map_eq_some_iff.mp summary_completes
  have hmeant : ∀ moment ∈ creates ++ invokes 0 ++ completes 0, ∀ s : State, s.Meant moment.2 := by
    intro moment hmoment s
    simp only [creates, invokes, completes, List.cons_append, List.nil_append, List.mem_cons,
      List.not_mem_nil, or_false] at hmoment
    rcases hmoment with rfl | rfl | rfl | rfl | rfl | rfl | rfl <;> trivial
  exact ⟨s, (Prod.mk.inj hsummary).1, journal_agrees (reachable_of_foldlM hmeant hrun)⟩

open Sample in
/-- The provider throws `runtime.cancelled`, and nobody asked to cancel the run: it is told to be cancelled,
is claimed again, completed, and told to be completed. -/
theorem journal_disagrees : ∃ s : State,
    Relation.ReflTransGen (fun s s' => ∃ moment, State.actAt settings String.ofList s moment = some s')
        (State.start 0) s ∧
      s.runs.map (·.status) = [.completed] ∧ ¬Agrees s := by
  obtain ⟨s, hrun, hsummary⟩ := Option.map_eq_some_iff.mp summary_throws
  obtain ⟨htold, hstatus⟩ := Prod.mk.inj hsummary
  refine ⟨s, reflTransGen_foldlM hrun, hstatus, fun hagrees => ?_⟩
  have htold' : ("RUN-1", "run.cancelled") ∈ s.dispatched.map fun e => (e.runId, e.code) := by
    rw [htold]
    decide
  obtain ⟨e, he, hcode⟩ := List.mem_map.mp htold'
  have houtcome : ("run.cancelled", [RunStatus.cancelled]) ∈ outcomes := by decide
  obtain ⟨r, hr, -, hcancelled⟩ := hagrees.told e he _ houtcome (Prod.ext_iff.mp hcode).2
  have hmem : r.status ∈ s.runs.map (·.status) := List.mem_map_of_mem hr
  rw [hstatus, List.mem_singleton] at hmem
  rw [hmem] at hcancelled
  exact absurd hcancelled (by decide)

end RuntimeWorker

end HarnessFramework
