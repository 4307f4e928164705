import HarnessFramework.ControlApi.Routes

/-!
# The journal of a run

A runtime presents the fence of its run with everything that it journals. The control API reads the run
and its epoch, and only then writes. The node and the checkpoint of the run are written under the fence,
in the `where` clause of the update. The attempts of nodes and the events of the run are not: they are
written under the fence if nobody moves it after the epoch was read.

## Main definitions

* `Tables.InForce` — a run is running at the epoch that a runtime presents
* `Statement.Journals`, `Statement.Unfenced` — the writes of a journal, and those without a fence
* `Fenced` — whatever a journal is about to write finds the fence in force
* `Calm` — a step does not move a fence from under a write that is about to happen

## Main results

* `vetted_runtimeState` — an unfenced write comes right after the fence was found in force
* `fenced_journal` — journals are fenced in every run whose steps are calm, and as long as they are
-/

namespace HarnessFramework

namespace ControlApi

open Persistence HarnessCompiler Identity

variable {S : PlanSchema}

/-! ## Fences and writes -/

/-- The run is running at the epoch that is presented. -/
def Tables.InForce (run : FencedRun) (t : Tables S) : Prop :=
  ∃ r ∈ t.runs, r.runId = run.runId ∧ r.status = .running ∧ r.fencingEpoch = run.fencingEpoch

/-- The writes of a journal that have no fence in their `where` clause. -/
def Statement.Unfenced {β : Type} : Statement S β → Prop
  | .appendEvent _ | .insertNodeAttempt _ | .finishNodeAttempt .. => True
  | _ => False

/-- A statement writes a journal: it has no fence, or it selects the run under its fence. -/
def Statement.Journals {β : Type} (statement : Statement S β) (t : Tables S) : Prop :=
  match statement with
  | .updateRunNode l _ _ => ∃ r ∈ t.runs, l.Holds r
  | statement => statement.Unfenced

/-- The fence in the `where` clause of a statement is the one that is presented. -/
def Statement.Carries (run : FencedRun) {β : Type} : Statement S β → Prop
  | .updateRunNode l _ _ => l = ⟨run.runId, run.workerId, run.fencingEpoch⟩
  | _ => True

/-- The next statement is a write without a fence. -/
def AboutToWrite : Handler S → Prop
  | .query statement _ => statement.Unfenced
  | .done _ => False

/-- A request that presents the fence of a run is about to write without one. -/
def Outstanding (run : FencedRun) (session : Handling (Statement S) Call (Response S)) : Prop :=
  session.crashed = false ∧ AboutToWrite session.script ∧
    ∃ grant write, session.call.route = .runtimeState grant run write

/-- **Whatever a journal is about to write finds the fence in force.** -/
def Fenced (s : Traffic (Tables S) (Statement S) Call (Response S)) : Prop :=
  ∀ id call grant run write {β : Type} (statement : Statement S β) next,
    s.sessions id = some ⟨call, .query statement next, false⟩ →
    call.route = .runtimeState grant run write → statement.Journals s.tables → s.tables.InForce run

/-- A step does not move a fence that a write without one counts on. -/
def Calm (s s' : Traffic (Tables S) (Statement S) Call (Response S)) : Prop :=
  ∀ id session run, s.sessions id = some session → Outstanding run session →
    s.tables.InForce run → s'.tables.InForce run

section

variable {sha256 : List Char → String} {t t' : Tables S} {run : FencedRun}

theorem Tables.InForce.congr (hruns : t'.runs = t.runs) (h : t.InForce run) : t'.InForce run := by
  unfold InForce
  rw [hruns]
  exact h

/-- An update that keeps ids, statuses and epochs keeps fences. -/
theorem Tables.InForce.update {guard : RunRow → Prop} [DecidablePred guard] {set : RunRow → RunRow}
    (h : t.InForce run) (hruns : t'.runs = updateWhere guard set t.runs)
    (hset : ∀ r, (set r).runId = r.runId ∧ (set r).status = r.status ∧
      (set r).fencingEpoch = r.fencingEpoch) : t'.InForce run := by
  obtain ⟨r, hr, hid, hstatus, hepoch⟩ := h
  unfold InForce
  rw [hruns]
  obtain ⟨hid', hstatus', hepoch'⟩ := hset r
  by_cases hg : guard r
  · exact ⟨set r, mem_updateWhere.mpr ⟨r, hr, .inl ⟨hg, rfl⟩⟩, hid'.trans hid, hstatus'.trans hstatus,
      hepoch'.trans hepoch⟩
  · exact ⟨r, mem_updateWhere.mpr ⟨r, hr, .inr ⟨hg, rfl⟩⟩, hid, hstatus, hepoch⟩

/-- A write without a fence leaves all fences as they are. -/
theorem Statement.Unfenced.inForce {β : Type} {statement : Statement S β} (h : statement.Unfenced)
    (hforce : t.InForce run) : (statement.exec sha256 t).2.InForce run := by
  cases statement with
  | appendEvent input =>
    simp only [exec, ControlApi.appendEvent]
    split
    · exact hforce
    · split
      · exact hforce.update rfl fun _ => ⟨rfl, rfl, rfl⟩
      · exact hforce
  | insertNodeAttempt row =>
    obtain ⟨nodeAttempts, heq⟩ := insertNodeAttempt_eq row t
    rw [exec, heq]
    exact hforce.congr rfl
  | finishNodeAttempt runId attempt input => exact hforce.congr rfl
  | _ => exact h.elim

/-- The epoch that `currentFencingEpoch` finds is in force. -/
theorem inForce_of_currentFencingEpoch
    (h : Persistence.currentFencingEpoch run.runId t.runs = some run.fencingEpoch) : t.InForce run := by
  obtain ⟨r, hfind, hepoch⟩ := Option.map_eq_some_iff.mp h
  have hr := List.find?_some hfind
  simp only [decide_eq_true_eq] at hr
  exact ⟨r, List.mem_of_find?_eq_some hfind, hr.1, hr.2, hepoch⟩

/-- A fenced update that does not throw found a row. -/
theorem exists_of_updateFenced {guard : RunRow → Prop} [DecidablePred guard] {set : RunRow → RunRow}
    {rows : List RunRow} {u : Unit} (h : (updateFenced guard set rows).1 = .ok u) :
    ∃ r ∈ rows, guard r := by
  by_contra hnone
  have hzero : rowCount guard rows = 0 := by
    rw [rowCount, List.countP_eq_zero]
    exact fun r hr hg => hnone ⟨r, hr, of_decide_eq_true hg⟩
  simp [updateFenced, updateOne, hzero] at h

/-- A fence that an update found in force still is. -/
theorem inForce_of_updateRunNode {nodeId checkpointId : Option String} {u : Unit}
    (h : (Statement.exec sha256
      (.updateRunNode ⟨run.runId, run.workerId, run.fencingEpoch⟩ nodeId checkpointId) t).1 = .ok u) :
    (Statement.exec sha256
      (.updateRunNode ⟨run.runId, run.workerId, run.fencingEpoch⟩ nodeId checkpointId) t).2.InForce run := by
  obtain ⟨r, hr, hid, howner, hepoch, hstatus⟩ :=
    @exists_of_updateFenced _ _ (RunRow.atNode t.clock nodeId checkpointId) _ _ h
  have hforce : t.InForce run := ⟨r, hr, hid, hstatus, hepoch⟩
  exact hforce.update rfl fun _ => ⟨rfl, rfl, rfl⟩

/-! ## The handler -/

/-- Fences in `where` clauses are the one that is presented, and a write without one comes right after a
statement that leaves the fence in force. -/
def Vetted (sha256 : List Char → String) (run : FencedRun) : Handler S → Prop
  | .done _ => True
  | .query statement next => statement.Carries run ∧ ∀ t,
      (AboutToWrite (next (statement.exec sha256 t).1) → (statement.exec sha256 t).2.InForce run) ∧
        Vetted sha256 run (next (statement.exec sha256 t).1)

theorem vetted_done {response : Response S} : Vetted sha256 run (.done response) := trivial

/-- A statement that is followed by an answer. -/
theorem vetted_last {β : Type} {statement : Statement S β} {next : β → Handler S}
    (hcarries : statement.Carries run) (hnext : ∀ result, ∃ response, next result = .done response) :
    Vetted sha256 run (.query statement next) := by
  refine ⟨hcarries, fun t => ?_⟩
  obtain ⟨response, hresponse⟩ := hnext (statement.exec sha256 t).1
  rw [hresponse]
  exact ⟨False.elim, trivial⟩

theorem vetted_applyStateWrite (write : RuntimeStateWrite) :
    Vetted sha256 run (applyStateWrite (S := S) run write) := by
  cases write with
  | nodeStarted nodeId inputDigest =>
    refine ⟨rfl, fun t => ?_⟩
    have hforce := @inForce_of_updateRunNode S sha256 t run (some nodeId) none
    cases hresult : (Statement.exec sha256 (.updateRunNode ⟨run.runId, run.workerId, run.fencingEpoch⟩
        (some nodeId) none) t).1 with
    | error failure => exact ⟨False.elim, vetted_done⟩
    | ok u =>
      refine ⟨fun _ => hforce hresult, vetted_last trivial fun result => ?_⟩
      cases result <;> exact ⟨_, rfl⟩
  | nodeFinished input => exact vetted_last trivial fun _ => ⟨_, rfl⟩
  | event eventKey code nodeId status values =>
    exact vetted_last trivial fun result => by cases result <;> exact ⟨_, rfl⟩
  | checkpoint nodeId checkpointId =>
    exact vetted_last rfl fun result => by cases result <;> exact ⟨_, rfl⟩

/-- **A write without a fence comes right after the fence was found in force.** -/
theorem vetted_runtimeState (grant : Option RuntimeGrantClaims) (write : RuntimeStateWrite) :
    Vetted sha256 run (runtimeState (S := S) run write grant) ∧
      ¬ AboutToWrite (runtimeState (S := S) run write grant) := by
  cases grant with
  | none => exact ⟨vetted_done, id⟩
  | some grant =>
    dsimp only [runtimeState]
    iterate 4
      split
      · exact ⟨vetted_done, id⟩
    refine ⟨⟨trivial, fun t => ?_⟩, id⟩
    cases (Statement.exec sha256 (.getRun run.runId "") t).1 with
    | none => exact ⟨False.elim, vetted_done⟩
    | some record =>
      dsimp only
      split
      · exact ⟨False.elim, vetted_done⟩
      · refine ⟨False.elim, trivial, fun t => ?_⟩
        dsimp only
        split
        · exact ⟨False.elim, vetted_done⟩
        · next hepoch =>
          have hforce : t.InForce run := inForce_of_currentFencingEpoch (not_ne_iff.mp hepoch)
          exact ⟨fun _ => hforce, vetted_applyStateWrite write⟩

theorem vetted_handle {tools : AuthoringTools} {call : Call} {grant : Option RuntimeGrantClaims}
    {write : RuntimeStateWrite} (hroute : call.route = .runtimeState grant run write) :
    Vetted sha256 run (handle (S := S) tools sha256 call) ∧
      ¬ AboutToWrite (handle (S := S) tools sha256 call) := by
  rw [handle, hroute]
  split
  · exact ⟨vetted_done, id⟩
  · exact vetted_runtimeState grant write

end

/-! ## Interleavings -/

section

variable {tools : AuthoringTools} {sha256 : List Char → String}
  {s s' : Traffic (Tables S) (Statement S) Call (Response S)} {t : Tables S}

variable (tools sha256) in
/-- A step that is calm. -/
def CalmStep (s s' : Traffic (Tables S) (Statement S) Call (Response S)) : Prop :=
  s.Step (server tools sha256 S) (fun _ _ _ _ => True) s' ∧ Calm s s'

/-- What is known of the requests that are not dead. -/
def Watched (sha256 : List Char → String) (s : Traffic (Tables S) (Statement S) Call (Response S)) : Prop :=
  ∀ id session grant run write, s.sessions id = some session → session.crashed = false →
    session.call.route = .runtimeState grant run write →
    Vetted sha256 run session.script ∧ (AboutToWrite session.script → s.tables.InForce run)

/-- A request goes on, and what the others count on stays. -/
theorem Watched.put (h : Watched sha256 s) {tables : Tables S} {id : ℕ}
    {session : Handling (Statement S) Call (Response S)} (hcalm : Calm s (s.put tables id session))
    (hsession : ∀ grant run write, session.crashed = false →
      session.call.route = .runtimeState grant run write →
      Vetted sha256 run session.script ∧ (AboutToWrite session.script → tables.InForce run)) :
    Watched sha256 (s.put tables id session) := by
  intro i other grant run write hother hlive hroute
  by_cases hi : i = id
  · subst hi
    rw [Traffic.put_sessions_self, Option.some.injEq] at hother
    subst hother
    exact hsession grant run write hlive hroute
  · rw [Traffic.put_sessions_of_ne hi] at hother
    obtain ⟨hvetted, hforce⟩ := h i other grant run write hother hlive hroute
    exact ⟨hvetted, fun habout => hcalm i other run hother ⟨hlive, habout, grant, write, hroute⟩
      (hforce habout)⟩

theorem Watched.step (h : Watched sha256 s) (hstep : CalmStep tools sha256 s s') : Watched sha256 s' := by
  obtain ⟨hstep, hcalm⟩ := hstep
  cases hstep with
  | arrive id call hnone =>
    refine h.put hcalm fun grant run write _ hroute => ?_
    obtain ⟨hvetted, hnot⟩ := @vetted_handle S sha256 run tools call grant write hroute
    exact ⟨hvetted, fun habout => absurd habout hnot⟩
  | turn id _ hturn =>
    cases hturn with
    | query call statement next hsession _ =>
      refine h.put hcalm fun grant run write _ hroute => ?_
      obtain ⟨hvetted, -⟩ := h id _ grant run write hsession rfl hroute
      exact (hvetted.2 s.tables).symm
  | crash id session hsession => exact h.put hcalm nofun
  | environment tables henv =>
    intro i other grant run write hother hlive hroute
    obtain ⟨hvetted, hforce⟩ := h i other grant run write hother hlive hroute
    exact ⟨hvetted, fun habout => hcalm i other run hother ⟨hlive, habout, grant, write, hroute⟩
      (hforce habout)⟩

theorem Watched.fenced (h : Watched sha256 s) : Fenced s := by
  intro id call grant run write β statement next hsession hroute hjournals
  obtain ⟨hvetted, hforce⟩ := h id _ grant run write hsession rfl hroute
  cases statement with
  | updateRunNode l nodeId checkpointId =>
    -- The fence is in the `where` clause.
    obtain ⟨r, hr, hid, -, hepoch, hstatus⟩ := hjournals
    obtain rfl := hvetted.1
    exact ⟨r, hr, hid, hstatus, hepoch⟩
  | appendEvent | insertNodeAttempt | finishNodeAttempt => exact hforce trivial
  | _ => exact hjournals.elim

theorem watched_start : Watched sha256 (Traffic.start t) :=
  fun _ _ _ _ _ hsession => nomatch hsession

/-- A request about to write is still there after a step that moves its fence. -/
theorem outstanding_step (hstep : s.Step (server tools sha256 S) (fun _ _ _ _ => True) s') {id : ℕ}
    {session : Handling (Statement S) Call (Response S)} {run : FencedRun}
    (hsession : s.sessions id = some session) (hout : Outstanding run session)
    (hforce : s.tables.InForce run) (hmoved : ¬ s'.tables.InForce run) : s'.sessions id = some session := by
  cases hstep with
  | arrive i call | crash i other => exact absurd hforce hmoved
  | environment tables henv => exact hsession
  | turn i _ hturn =>
    cases hturn with
    | query call statement next hother _ =>
      by_cases hi : id = i
      · subst hi
        obtain rfl := Option.some.inj (hsession.symm.trans hother)
        exact absurd (Statement.Unfenced.inForce hout.2.1 hforce) hmoved
      · rw [Traffic.put_sessions_of_ne hi]
        exact hsession

/-- A step keeps journals fenced if and only if it is calm. -/
theorem Watched.fenced_iff (h : Watched sha256 s)
    (hstep : s.Step (server tools sha256 S) (fun _ _ _ _ => True) s') : Fenced s' ↔ Calm s s' := by
  refine ⟨fun hfenced id session run hsession hout hforce => ?_, fun hcalm => (h.step ⟨hstep, hcalm⟩).fenced⟩
  by_contra hmoved
  have hsession' := outstanding_step hstep hsession hout hforce hmoved
  obtain ⟨call, script, crashed⟩ := session
  obtain ⟨rfl, habout, grant, write, hroute⟩ := hout
  cases script with
  | done response => exact habout
  | query statement next =>
    refine hmoved (hfenced id call grant run write statement next hsession' hroute ?_)
    cases statement <;> first | exact habout | exact habout.elim

end

namespace Sample

/-- A run that a worker has claimed. -/
def claimed : Tables schema :=
  { tables [] with
    runs := [(newRun (fun _ => "digest") 0 "RUN-1" ⟨"digest", .null, "key", "tenant"⟩).claim 0 "worker" 60] }

/-- The control API. -/
abbrev journalApi : Server (Tables schema) (Statement schema) Call (Response schema) :=
  server (tools fun _ => "digest") (fun _ => "digest") schema

/-- The runtime of the worker records an event of the run. -/
def recordEvent : Call :=
  request ⟨"runtime", "tenant", .workload, ["Runtime.State.Write"]⟩
    (.runtimeState (some ⟨"RUN-1", 1, "worker", "digest", 1⟩) ⟨"RUN-1", "worker", 1, 1⟩
      (.event "key" "node.passed" none "passed" .null)) "1"

/-- Somebody stops the run. -/
def stop : Call := request ⟨"ola", "tenant", .human, ["Harness.Operator"]⟩ (.cancelRun "RUN-1" "enough") "2"

/-- The fences of runs. -/
def fences (t : Tables schema) : List (String × RunStatus × ℕ) :=
  t.runs.map fun r => (r.runId, r.status, r.fencingEpoch)

/-- A statement leaves the fences as they are. -/
def KeepsFences (_ : Call) {β : Type} (statement : Statement schema β) (t : Tables schema) : Prop :=
  fences (statement.exec (fun _ => "digest") t).2 = fences t

instance (call : Call) {β : Type} (statement : Statement schema β) (t : Tables schema) :
    Decidable (KeepsFences call statement t) := by unfold KeepsFences; infer_instance

theorem inForce_iff_mem_fences {run : FencedRun} {t : Tables schema} :
    t.InForce run ↔ (run.runId, .running, run.fencingEpoch) ∈ fences t := by
  simp only [Tables.InForce, fences, List.mem_map, Prod.mk.injEq]

/-- Steps that keep the fences are calm. -/
theorem calmStep_act {s s' : Traffic (Tables schema) (Statement schema) Call (Response schema)}
    {event : Traffic.Event Call} (h : s.act journalApi KeepsFences event = some s') :
    CalmStep (tools fun _ => "digest") (fun _ => "digest") s s' := by
  have hstep := Traffic.step_act h
  refine ⟨hstep.weaken fun _ _ _ _ _ => trivial, fun id session run _ _ hforce => ?_⟩
  cases event with
  | arrive i call =>
    simp only [Traffic.act] at h
    split at h <;> cases h
    exact hforce
  | crash i =>
    obtain ⟨session, hsession, rfl⟩ := Option.map_eq_some_iff.mp h
    exact hforce
  | turn i =>
    cases Traffic.turn_act h with
    | query call statement next hsession hkeeps =>
      rw [inForce_iff_mem_fences] at hforce ⊢
      exact hkeeps ▸ hforce

/-- What a request is about to write, and the fence that it presents. -/
def aboutToWrite (s : Traffic (Tables schema) (Statement schema) Call (Response schema)) (id : ℕ) :
    Option (String × ℕ) :=
  match s.sessions id with
  | some ⟨⟨_, .runtimeState _ run _, _⟩, .query (.appendEvent input) _, false⟩ =>
    some (input.code, run.fencingEpoch)
  | _ => none

/-- An event is recorded. -/
def recorded : List (Traffic.Event Call) := [.arrive 0 recordEvent, .turn 0, .turn 0, .turn 0]

theorem recorded_events : ((Traffic.start claimed).run journalApi KeepsFences recorded).map
    (fun s => s.tables.runEvents.map (·.code)) = some ["node.passed"] := by decide +kernel

/-- The run is stopped after the epoch was read, and before the event is written. -/
def stoppedMidway : List (Traffic.Event Call) :=
  [.arrive 0 recordEvent, .turn 0, .turn 0, .arrive 1 stop, .turn 1]

theorem stoppedMidway_state : ((Traffic.start claimed).run journalApi (fun _ _ _ _ => True) stoppedMidway).bind
    (fun s => (s.act journalApi (fun _ _ _ _ => True) (.turn 0)).map fun s' =>
      (aboutToWrite s 0, fences s.tables, s'.tables.runEvents.map (·.code))) =
      some (some ("node.passed", 1), [("RUN-1", .running, 2)], ["node.passed"]) := by decide +kernel

end Sample

/-- **Journals are fenced in every run whose steps are calm**: nobody takes a run out of `running`, or
past its epoch, between the moment when a request reads the epoch and its last write. And they are only
as long as steps are calm. -/
theorem fenced_journal {tools : AuthoringTools} {sha256 : List Char → String} {t : Tables S}
    {s : Traffic (Tables S) (Statement S) Call (Response S)}
    (h : Relation.ReflTransGen (CalmStep tools sha256) (Traffic.start t) s) :
    Fenced s ∧ ∀ s', s.Step (server tools sha256 S) (fun _ _ _ _ => True) s' → (Fenced s' ↔ Calm s s') := by
  have hwatched : Watched sha256 s := by
    induction h with
    | refl => exact watched_start
    | tail _ hstep ih => exact ih.step hstep
  exact ⟨hwatched.fenced, fun s' hstep => hwatched.fenced_iff hstep⟩

/-- An event is recorded under its fence. -/
theorem fenced_journal_sample : ∃ s,
    (Traffic.start Sample.claimed).run Sample.journalApi Sample.KeepsFences Sample.recorded = some s ∧
    s.tables.runEvents.map (·.code) = ["node.passed"] ∧ Fenced s := by
  obtain ⟨s, hrun, hevents⟩ := Option.map_eq_some_iff.mp Sample.recorded_events
  exact ⟨s, hrun, hevents, (fenced_journal (Traffic.run_induction Sample.calmStep_act hrun)).1⟩

/-- An event is recorded after the run was stopped, which moved its fence. -/
theorem journal_not_fenced : ∃ s s',
    Traffic.Reachable Sample.journalApi (fun _ _ _ _ => True) Sample.claimed s ∧
    Traffic.Turn Sample.journalApi (fun _ _ _ _ => True) 0 s s' ∧
    Sample.aboutToWrite s 0 = some ("node.passed", 1) ∧
    Sample.fences s.tables = [("RUN-1", .running, 2)] ∧
    s'.tables.runEvents.map (·.code) = ["node.passed"] ∧ ¬ Fenced s := by
  obtain ⟨s, hrun, hstate⟩ := Option.bind_eq_some_iff.mp Sample.stoppedMidway_state
  obtain ⟨s', hact, hstate⟩ := Option.map_eq_some_iff.mp hstate
  simp only [Prod.mk.injEq] at hstate
  obtain ⟨habout, hfences, hevents⟩ := hstate
  refine ⟨s, s', Traffic.reachable_run hrun, Traffic.turn_act hact, habout, hfences, hevents,
    fun hfenced => ?_⟩
  simp only [Sample.aboutToWrite] at habout
  split at habout
  · next principal grant run write uuid input next hsession =>
    have hforce := hfenced 0 _ grant run write (.appendEvent input) next hsession rfl trivial
    obtain ⟨-, hepoch⟩ := Prod.mk.inj (Option.some.inj habout)
    rw [Sample.inForce_iff_mem_fences, hfences, hepoch, List.mem_singleton] at hforce
    exact absurd (Prod.mk.inj (Prod.mk.inj hforce).2).2 (by decide)
  · cases habout

end ControlApi

end HarnessFramework
