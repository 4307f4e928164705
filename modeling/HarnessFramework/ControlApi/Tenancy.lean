import HarnessFramework.ControlApi.Routes

/-!
# Tenants of the control API

Lookups under a tenant find rows of the tenant. Two routes write a draft under its bare id,
`PUT /v1/authoring/drafts/:draftId` and `…/approve`, and the routes for runtimes trust their grant. As
long as those find rows of the tenant, its requests neither change nor show a row of another one.

## Main definitions

* `Route.Unscoped` — the routes that look rows up without a tenant
* `Statement.Own` — a statement finds rows of a tenant
* `Tables.others`, `Content.Of` — the rows of the other tenants, and the rows of one

## Main results

* `Statement.exec_others` — a statement that finds rows of a tenant leaves the others alone
* `valid_handle` — the handlers of all routes find rows of their tenant
* `tenant_isolation` — requests of a tenant leave the rows of the others alone, and do not show them
-/

namespace HarnessFramework

namespace ControlApi

open Persistence HarnessCompiler Identity

variable {S : PlanSchema}

/-! ## Rows of tenants -/

/-- The routes that look rows up without a tenant. -/
def Route.Unscoped : Route → Prop
  | .putDraft .. | .approveDraft _ | .mintEnvelope .. | .runtimeState .. => True
  | _ => False

instance : DecidablePred Route.Unscoped := fun route => by
  unfold Route.Unscoped
  split <;> infer_instance

/-- Every row that a statement finds, or writes, belongs to the tenant. -/
def Statement.Own (tenantId : String) {β : Type} (statement : Statement S β) (t : Tables S) : Prop :=
  match statement with
  | .clock | .registry | .contributors _ | .currentFencingEpoch _ => True
  | .listDrafts tenant | .listPlans tenant | .listRuns tenant => tenant = tenantId
  | .getDraft draftId tenant =>
    ∀ d ∈ t.drafts, d.draftId = draftId → InScope tenant d.tenantId → d.tenantId = tenantId
  | .insertDraft input => input.tenantId = tenantId
  | .insertEvent event => t.HasDraft event.draftId tenantId
  | .updateSources draftId input => ∀ d ∈ t.drafts, input.Selects draftId d → d.tenantId = tenantId
  | .setLifecycle draftId input => ∀ d ∈ t.drafts, input.Selects draftId d → d.tenantId = tenantId
  | .listEvents draftId => t.HasDraft draftId tenantId
  | .getPlan planDigest tenant =>
    ∀ p ∈ t.plans, p.planDigest = planDigest → InScope tenant p.tenantId → p.tenantId = tenantId
  | .insertPlan tenant _ => tenant = tenantId
  | .getRun runId tenant =>
    ∀ r ∈ t.runs, r.runId = runId → InScope tenant r.tenantId → r.tenantId = tenantId
  | .createRun _ input => input.tenantId = tenantId
  | .requestRunCancellation _ tenant _ => tenant = tenantId
  | .listRunEvents _ tenant _ => tenant = tenantId
  | .updateRunNode l _ _ => ∀ r ∈ t.runs, l.Holds r → r.tenantId = tenantId
  | .appendEvent input => ∀ r ∈ t.runs, r.runId = input.runId → r.tenantId = tenantId
  | .insertNodeAttempt row => ∀ r ∈ t.runs, r.runId = row.runId → r.tenantId = tenantId
  | .finishNodeAttempt runId _ _ => ∀ r ∈ t.runs, r.runId = runId → r.tenantId = tenantId

instance (tenantId : String) {β : Type} (statement : Statement S β) (t : Tables S) :
    Decidable (statement.Own tenantId t) := by
  induction statement using Statement.casesOn <;> dsimp only [Statement.Own, Tables.HasDraft] <;> infer_instance

/-- The row belongs to the tenant. -/
def Content.Of (tenantId : String) (t : Tables S) : Content S → Prop
  | .draft row => row.tenantId = tenantId
  | .event row => t.HasDraft row.draftId tenantId
  | .plan row => row.tenantId = tenantId
  | .run row => row.tenantId = tenantId
  | .runEvent row => t.HasRun row.runId tenantId

variable (S) in
/-- Rows of all tables. -/
structure Rows where
  drafts : List (DraftRow S)
  events : List AuthoringEventRow
  plans : List (PlanRow S)
  runs : List RunRow
  runEvents : List RunEventRow
  nodeAttempts : List NodeAttemptRow

/-- The rows of the other tenants. -/
def Tables.others (tenantId : String) (t : Tables S) : Rows S where
  drafts := t.drafts.filter fun d => d.tenantId ≠ tenantId
  events := t.events.filter fun e => ∃ d ∈ t.drafts, d.draftId = e.draftId ∧ d.tenantId ≠ tenantId
  plans := t.plans.filter fun p => p.tenantId ≠ tenantId
  runs := t.runs.filter fun r => r.tenantId ≠ tenantId
  runEvents := t.runEvents.filter fun e => ∃ r ∈ t.runs, r.runId = e.runId ∧ r.tenantId ≠ tenantId
  nodeAttempts := t.nodeAttempts.filter fun a => ∃ r ∈ t.runs, r.runId = a.runId ∧ r.tenantId ≠ tenantId

theorem Content.Of.grows {tenantId : String} {t t' : Tables S} {c : Content S} (h : c.Of tenantId t)
    (hgrows : t.Grows t') : c.Of tenantId t' := by
  cases c with
  | event row => exact hgrows.drafts _ _ h
  | runEvent row => exact hgrows.runs _ _ h
  | _ => exact h

section

variable {tenantId : String} {t : Tables S}

/-- An update of rows of one tenant is none of the rows of the others. -/
theorem filter_updateWhere_of_own {ρ : Type} {tenant : ρ → String} {guard : ρ → Prop}
    [DecidablePred guard] {set : ρ → ρ} {rows : List ρ} (hset : ∀ r, tenant (set r) = tenant r)
    (hown : ∀ r ∈ rows, guard r → tenant r = tenantId) :
    (updateWhere guard set rows).filter (fun r => tenant r ≠ tenantId) =
      rows.filter fun r => tenant r ≠ tenantId := by
  rw [filter_updateWhere fun r _ => by rw [hset r]]
  refine updateWhere_eq_self fun r hr hg => ?_
  obtain ⟨hr, hne⟩ := List.mem_filter.mp hr
  exact of_decide_eq_true hne (hown r hr hg)

/-- An update that keeps ids and tenants keeps who owns what. -/
theorem exists_updateWhere {ρ : Type} {P : ρ → Prop} {guard : ρ → Prop} [DecidablePred guard]
    {set : ρ → ρ} {rows : List ρ} (hset : ∀ r, P (set r) ↔ P r) :
    (∃ r ∈ updateWhere guard set rows, P r) ↔ ∃ r ∈ rows, P r := by
  constructor
  · rintro ⟨r', hr', hp⟩
    obtain ⟨r, hr, ⟨hg, rfl⟩ | ⟨_, rfl⟩⟩ := mem_updateWhere.mp hr'
    · exact ⟨r, hr, (hset r).mp hp⟩
    · exact ⟨_, hr, hp⟩
  · rintro ⟨r, hr, hp⟩
    by_cases hg : guard r
    · exact ⟨set r, mem_updateWhere.mpr ⟨r, hr, .inl ⟨hg, rfl⟩⟩, (hset r).mpr hp⟩
    · exact ⟨r, mem_updateWhere.mpr ⟨r, hr, .inr ⟨hg, rfl⟩⟩, hp⟩

/-- An update of drafts of one tenant. -/
theorem Tables.others_updateDrafts {guard : DraftRow S → Prop} [DecidablePred guard]
    {set : DraftRow S → DraftRow S} {authors : List Authorship}
    (hset : ∀ d, (set d).draftId = d.draftId ∧ (set d).tenantId = d.tenantId)
    (hown : ∀ d ∈ t.drafts, guard d → d.tenantId = tenantId) :
    Tables.others tenantId { t with drafts := updateWhere guard set t.drafts, authors } =
      t.others tenantId := by
  have hdrafts := filter_updateWhere_of_own (fun d => (hset d).2) hown
  have hevents : ∀ e : AuthoringEventRow,
      (∃ d ∈ updateWhere guard set t.drafts, d.draftId = e.draftId ∧ d.tenantId ≠ tenantId) ↔
        ∃ d ∈ t.drafts, d.draftId = e.draftId ∧ d.tenantId ≠ tenantId :=
    fun e => exists_updateWhere fun d => by rw [(hset d).1, (hset d).2]
  simp only [Tables.others, hdrafts, hevents]

/-- An update of runs of one tenant. -/
theorem Tables.others_updateRuns {guard : RunRow → Prop} [DecidablePred guard] {set : RunRow → RunRow}
    (hset : ∀ r, (set r).runId = r.runId ∧ (set r).tenantId = r.tenantId)
    (hown : ∀ r ∈ t.runs, guard r → r.tenantId = tenantId) :
    Tables.others tenantId { t with runs := updateWhere guard set t.runs } = t.others tenantId := by
  have hruns := filter_updateWhere_of_own (fun r => (hset r).2) hown
  have hforeign : ∀ runId : String,
      (∃ r ∈ updateWhere guard set t.runs, r.runId = runId ∧ r.tenantId ≠ tenantId) ↔
        ∃ r ∈ t.runs, r.runId = runId ∧ r.tenantId ≠ tenantId :=
    fun runId => exists_updateWhere fun r => by rw [(hset r).1, (hset r).2]
  simp only [Tables.others, hruns, hforeign]

/-- **A statement that finds rows of a tenant leaves the others alone.** -/
theorem Statement.exec_others {sha256 : List Char → String} (h : t.Ids) {β : Type}
    {statement : Statement S β} (hown : statement.Own tenantId t) :
    (statement.exec sha256 t).2.others tenantId = t.others tenantId := by
  cases statement with
  | insertDraft input =>
    simp only [exec]
    split
    · rfl
    · have htenant : (newDraft (S := S) t.clock input).tenantId = tenantId := hown
      simp [Tables.others, List.filter_append, htenant]
  | insertEvent event =>
    simp only [exec]
    split
    · rfl
    · have hnone : ¬ ∃ d ∈ t.drafts, d.draftId = event.draftId ∧ d.tenantId ≠ tenantId := by
        rintro ⟨d, hd, hid, hne⟩
        exact hne (h.tenant_eq hown hd hid)
      simp only [Tables.others, List.filter_append]
      rw [List.filter_cons_of_neg (by simpa using hnone), List.filter_nil, List.append_nil]
  | updateSources draftId input =>
    exact Tables.others_updateDrafts (by exact fun _ => ⟨rfl, rfl⟩) hown
  | setLifecycle draftId input =>
    exact Tables.others_updateDrafts (by exact fun _ => ⟨rfl, rfl⟩) hown
  | insertPlan tenant plan =>
    simp only [exec]
    split
    · rfl
    · have htenant : tenant = tenantId := hown
      simp [Tables.others, List.filter_append, htenant]
  | createRun uuid input =>
    have htenant : input.tenantId = tenantId := hown
    simp only [exec, Persistence.createRun]
    split
    · split <;> rfl
    · split
      · rfl
      · simp [Tables.others, List.filter_append, newRun, htenant]
  | requestRunCancellation runId tenant reason =>
    have htenant : tenant = tenantId := hown
    simp only [exec, Persistence.requestRunCancellation]
    split
    · rfl
    · next current hcurrent =>
      split
      · rfl
      · refine Tables.others_updateRuns (by exact fun _ => ⟨rfl, rfl⟩) fun r hr hid => ?_
        have hfound : current.runId = runId ∧ current.tenantId = tenant := by
          simpa using List.find?_some hcurrent
        exact h.runTenant_eq ⟨current, List.mem_of_find?_eq_some hcurrent, hfound.1,
          hfound.2.trans htenant⟩ hr hid
  | updateRunNode l nodeId checkpointId =>
    exact Tables.others_updateRuns (by exact fun _ => ⟨rfl, rfl⟩) hown
  | appendEvent input =>
    simp only [exec, ControlApi.appendEvent]
    split
    · rfl
    · split
      · have hnone : ¬ ∃ r ∈ t.runs, r.runId = input.runId ∧ r.tenantId ≠ tenantId := by
          rintro ⟨r, hr, hid, hne⟩
          exact hne (hown r hr hid)
        have hevents : Tables.others tenantId
            { t with runEvents := t.runEvents ++ [input.row t.clock t.runEvents] } = t.others tenantId := by
          simp only [Tables.others, List.filter_append]
          rw [List.filter_cons_of_neg (by exact fun hp => hnone (of_decide_eq_true hp)), List.filter_nil,
            List.append_nil]
        refine Eq.trans ?_ hevents
        exact @Tables.others_updateRuns S tenantId
          { t with runEvents := t.runEvents ++ [input.row t.clock t.runEvents] } _ _ _
          (fun _ => ⟨rfl, rfl⟩) hown
      · rfl
  | insertNodeAttempt row =>
    have hnone : ¬ ∃ r ∈ t.runs, r.runId = row.runId ∧ r.tenantId ≠ tenantId := by
      rintro ⟨r, hr, hid, hne⟩
      exact hne (hown r hr hid)
    simp only [exec, ControlApi.insertNodeAttempt]
    split
    · rfl
    · split
      · simp only [Tables.others, List.filter_append]
        rw [List.filter_cons_of_neg (by exact fun hp => hnone (of_decide_eq_true hp)), List.filter_nil,
          List.append_nil]
      · rfl
  | finishNodeAttempt runId attempt input =>
    -- The rows that change are of the run, and the run is not one of the others.
    have hkeep : (updateWhere (NodeAttemptRow.Of runId input.nodeId attempt)
        (NodeAttemptRow.finish t.clock input) t.nodeAttempts).filter
          (fun a => ∃ r ∈ t.runs, r.runId = a.runId ∧ r.tenantId ≠ tenantId) =
        t.nodeAttempts.filter fun a => ∃ r ∈ t.runs, r.runId = a.runId ∧ r.tenantId ≠ tenantId := by
      refine (filter_updateWhere (p := fun a : NodeAttemptRow =>
        ∃ r ∈ t.runs, r.runId = a.runId ∧ r.tenantId ≠ tenantId) (by exact fun _ _ => Iff.rfl)).trans ?_
      refine updateWhere_eq_self fun a ha hof => ?_
      obtain ⟨r, hr, hid, hne⟩ := of_decide_eq_true (List.mem_filter.mp ha).2
      exact hne (hown r hr (hid.trans hof.1))
    exact congrArg (fun nodeAttempts => { t.others tenantId with nodeAttempts }) hkeep
  | _ => rfl

end

/-! ## The handlers -/

section

variable (tools : AuthoringTools) (sha256 : List Char → String) (tenantId : String)

/-- What requests of the tenant look up without a tenant belongs to it. -/
def Scoped (call : Call) {β : Type} (statement : Statement S β) (t : Tables S) : Prop :=
  call.principal.tenantId = tenantId → call.route.Unscoped → statement.Own tenantId t

instance (call : Call) {β : Type} (statement : Statement S β) (t : Tables S) :
    Decidable (Scoped tenantId call statement t) := by
  unfold Scoped; infer_instance

/-- Statements of a tenant find its rows, and its answers show its rows. -/
def tenancy : Discipline (server tools sha256 S) (Scoped tenantId) where
  Inv := Tables.Ids
  Rely := Tables.Grows
  Pre call _ statement t :=
    call.principal.tenantId = tenantId → ¬ call.route.Unscoped → statement.Own tenantId t
  Post call response t := call.principal.tenantId = tenantId → ∀ c ∈ response.content, c.Of tenantId t
  refl := Tables.Grows.refl
  trans := Tables.Grows.trans
  exec h _ _ := ⟨Statement.exec_ids h _, Statement.exec_grows h _⟩
  environment := @environment_grows S tools sha256

variable {tools sha256 tenantId} {call : Call} {t : Tables S}

theorem valid_done {response : Response S} (h : ∀ c ∈ response.content, c.Of tenantId t) :
    (tenancy tools sha256 tenantId).Valid call (.done response) t :=
  fun _ _ hgrows _ c hc => (h c hc).grows hgrows

theorem valid_refuse {status : ℕ} {error : String} {content : List (Content S)}
    (h : ∀ c ∈ content, c.Of tenantId t) :
    (tenancy tools sha256 tenantId).Valid call (refuse status error content) t :=
  @valid_done S tools sha256 tenantId call t ⟨status, some error, content⟩ h

theorem valid_refuse_nil {status : ℕ} {error : String} :
    (tenancy tools sha256 tenantId).Valid call (refuse (S := S) status error []) t :=
  valid_refuse (List.forall_mem_nil _)

theorem valid_reply {status : ℕ} {content : List (Content S)} (h : ∀ c ∈ content, c.Of tenantId t) :
    (tenancy tools sha256 tenantId).Valid call (reply status content) t :=
  @valid_done S tools sha256 tenantId call t ⟨status, none, content⟩ h

/-- A statement of the tenant that finds its rows. -/
theorem valid_query {β : Type} {statement : Statement S β} {next : β → Handler S}
    (htenant : call.principal.tenantId = tenantId)
    (hown : ∀ t', t'.Ids → t.Grows t' → ¬ call.route.Unscoped → statement.Own tenantId t')
    (hnext : ∀ t', t'.Ids → t.Grows t' → statement.Own tenantId t' →
      (tenancy tools sha256 tenantId).Valid call (next (statement.exec sha256 t').1)
        (statement.exec sha256 t').2) :
    (tenancy tools sha256 tenantId).Valid call (.query statement next) t := by
  intro t' hids hgrows
  refine ⟨fun _ hscoped => hown t' hids hgrows hscoped, fun hok => hnext t' hids hgrows ?_⟩
  by_cases hscoped : call.route.Unscoped
  · exact hok htenant hscoped
  · exact hown t' hids hgrows hscoped

variable (tools sha256 tenantId call) in
/-- What is left of a request finds, and shows, rows of the tenant. -/
abbrev Confined (script : Handler S) (t : Tables S) : Prop :=
  (tenancy tools sha256 tenantId).Valid call script t

theorem valid_getDraft {draftId : String} {next : Option (DraftRow S) → Handler S}
    (htenant : call.principal.tenantId = tenantId) (hne : tenantId ≠ "")
    (hnone : ∀ t', t.Grows t' → Confined tools sha256 tenantId call (next none) t')
    (hsome : ∀ t' d, t.Grows t' → d.tenantId = tenantId → t'.HasDraft d.draftId tenantId →
      Confined tools sha256 tenantId call (next (some d)) t') :
    Confined tools sha256 tenantId call (.query (.getDraft draftId call.principal.tenantId) next) t := by
  refine valid_query htenant (fun t' _ _ _ d _ _ hscope => ?_) fun t' _ hgrows hown => ?_
  · exact (hscope.resolve_left (htenant ▸ hne)).trans htenant
  · change Confined tools sha256 tenantId call (next (t'.drafts.find? _)) t'
    cases hfind : t'.drafts.find? fun d =>
        d.draftId = draftId ∧ InScope call.principal.tenantId d.tenantId with
    | none => exact hnone t' hgrows
    | some d =>
      obtain ⟨hid, hscope⟩ : d.draftId = draftId ∧ InScope call.principal.tenantId d.tenantId := by
        simpa using List.find?_some hfind
      have hd : d ∈ t'.drafts := List.mem_of_find?_eq_some hfind
      have hd' : d.tenantId = tenantId := hown d hd hid hscope
      exact hsome t' d hgrows hd' ⟨d, hd, rfl, hd'⟩

/-- An event of a draft of the tenant. -/
theorem valid_insertEvent {event : AuthoringEventRow} {next : Except String Unit → Handler S}
    (htenant : call.principal.tenantId = tenantId) (hhas : t.HasDraft event.draftId tenantId)
    (hnext : ∀ t' result, t.Grows t' → Confined tools sha256 tenantId call (next result) t') :
    Confined tools sha256 tenantId call (.query (.insertEvent event) next) t :=
  valid_query htenant (fun _ _ hgrows _ => hgrows.drafts _ _ hhas) fun _ hids hgrows _ =>
    hnext _ _ (hgrows.trans (Statement.exec_grows hids _))

theorem valid_updateAuthoringSources {eventId draftId : String} {input : UpdateSourcesInput}
    {next : Except String (DraftRow S) → Handler S} (htenant : call.principal.tenantId = tenantId)
    (hhas : ¬ call.route.Unscoped → t.HasDraft draftId tenantId)
    (herror : ∀ t' message, t.Grows t' → Confined tools sha256 tenantId call (next (.error message)) t')
    (hok : ∀ t' d, t.Grows t' → d.tenantId = tenantId → t'.HasDraft d.draftId tenantId →
      Confined tools sha256 tenantId call (next (.ok d)) t') :
    Confined tools sha256 tenantId call (updateAuthoringSources eventId draftId input next) t := by
  refine valid_query htenant (fun t' hids hgrows hscoped d hd hselects => ?_) fun t' hids hgrows hown => ?_
  · exact hids.tenant_eq (hgrows.drafts _ _ (hhas hscoped)) hd hselects.1
  · have hexec := @Statement.exec_grows S sha256 t' hids _ (.updateSources draftId input)
    cases hresult : ((Statement.updateSources draftId input).exec sha256 t').1 with
    | none => exact herror _ _ (hgrows.trans hexec)
    | some row =>
      obtain ⟨d, hd, hselects, rfl⟩ := returning_eq_some hresult
      have hd' : d.tenantId = tenantId := hown d hd hselects
      have hdraft : t'.HasDraft draftId tenantId := ⟨d, hd, hselects.1, hd'⟩
      refine valid_insertEvent htenant (hexec.drafts _ _ hdraft) fun t'' result hgrows' => ?_
      have hall := (hgrows.trans hexec).trans hgrows'
      cases result with
      | error message => exact herror t'' message hall
      | ok _ =>
        refine hok t'' _ hall hd' ?_
        exact (hexec.trans hgrows').drafts _ _ ⟨d, hd, rfl, hd'⟩

theorem valid_setAuthoringLifecycle {eventId draftId : String} {input : LifecycleInput S}
    {next : Except LifecycleFailure (DraftRow S) → Handler S}
    (htenant : call.principal.tenantId = tenantId)
    (hhas : ¬ call.route.Unscoped → t.HasDraft draftId tenantId)
    (herror : ∀ t' failure, t.Grows t' → Confined tools sha256 tenantId call (next (.error failure)) t')
    (hok : ∀ t' d, t.Grows t' → d.tenantId = tenantId →
      Confined tools sha256 tenantId call (next (.ok d)) t') :
    Confined tools sha256 tenantId call (setAuthoringLifecycle eventId draftId input next) t := by
  have hadvance (input : LifecycleInput S) (u : Tables S) (hu : t.Grows u) :
      Confined tools sha256 tenantId call (advanceLifecycle eventId draftId input next) u := by
    refine valid_query htenant (fun t' hids hgrows hscoped d hd hselects => ?_)
      fun t' hids hgrows hown => ?_
    · exact hids.tenant_eq ((hu.trans hgrows).drafts _ _ (hhas hscoped)) hd hselects.1
    · have hexec := @Statement.exec_grows S sha256 t' hids _ (.setLifecycle draftId input)
      cases hresult : ((Statement.setLifecycle draftId input).exec sha256 t').1 with
      | none => exact herror _ _ ((hu.trans hgrows).trans hexec)
      | some row =>
        obtain ⟨d, hd, hselects, rfl⟩ := returning_eq_some hresult
        have hd' : d.tenantId = tenantId := hown d hd hselects
        have hdraft : t'.HasDraft draftId tenantId := ⟨d, hd, hselects.1, hd'⟩
        refine valid_insertEvent htenant (hexec.drafts _ _ hdraft) fun t'' result hgrows' => ?_
        have hall := ((hu.trans hgrows).trans hexec).trans hgrows'
        cases result with
        | error message => exact herror t'' _ hall
        | ok _ => exact hok t'' _ hall hd'
  unfold setAuthoringLifecycle
  split
  · refine valid_query htenant (fun _ _ _ _ => trivial) fun t' hids hgrows _ => ?_
    split
    · exact herror t' _ hgrows
    · exact hadvance _ t' hgrows
  · exact hadvance input t (.refl t)

theorem valid_writeSources {uuid : ℕ → String} {draftId : String} {expectedRevision : ℤ}
    {sources : Sources} {read : List (Content S)} {check : Analysis → Option (Handler S)}
    (htenant : call.principal.tenantId = tenantId)
    (hhas : ¬ call.route.Unscoped → t.HasDraft draftId tenantId) (hread : ∀ c ∈ read, c.Of tenantId t)
    (hcheck : ∀ analysis, ∀ script ∈ check analysis, Confined tools sha256 tenantId call script t) :
    Confined tools sha256 tenantId call
      (writeSources tools call.principal uuid draftId expectedRevision sources read check) t := by
  unfold writeSources
  split
  · exact valid_refuse hread
  · next analysis _ =>
    cases hscript : check analysis with
    | some script => exact hcheck analysis script hscript
    | none =>
      rw [Option.getD_none]
      refine valid_updateAuthoringSources htenant hhas (fun t' message hgrows => ?_)
        fun t' d hgrows hd _ => ?_
      · exact valid_refuse fun c hc => (hread c hc).grows hgrows
      · exact valid_reply (List.forall_mem_singleton.mpr hd)

section

variable (uuid : ℕ → String) (htenant : call.principal.tenantId = tenantId) (hne : tenantId ≠ "")

include htenant hne

theorem valid_readDraft {draftId : String} : Confined tools sha256 tenantId call
    (getDraft (S := S) call.principal draftId) t := by
  refine valid_getDraft htenant hne (fun t' _ => valid_refuse_nil) fun t' d hgrows hd hhas => ?_
  refine valid_query htenant (fun _ _ hgrows' _ => hgrows'.drafts _ _ hhas) fun t'' _ hgrows' _ => ?_
  refine valid_reply fun c hc => ?_
  rcases List.mem_cons.mp hc with rfl | hc
  · exact hd
  · obtain ⟨e, he, rfl⟩ := List.mem_map.mp hc
    rw [Statement.exec, latestFirst, List.mem_insertionSort, List.mem_filter, decide_eq_true_eq] at he
    rw [Content.Of, he.2]
    exact hgrows'.drafts _ _ hhas

theorem valid_attachAgent {draftId agentId : String} {body : Option (ℤ × Attachment)} :
    Confined tools sha256 tenantId call
      (attachAgent (S := S) tools call.principal uuid draftId agentId body) t := by
  cases body with
  | none => exact valid_refuse_nil
  | some body =>
    refine valid_getDraft htenant hne (fun t' _ => ?_) fun t' d _ hd hhas => ?_
    · refine valid_query htenant (fun _ _ _ _ => trivial) fun t'' _ _ _ => ?_
      exact valid_refuse_nil
    · refine valid_query htenant (fun _ _ _ _ => trivial) fun t'' _ hgrows _ => ?_
      split
      · exact valid_refuse_nil
      · exact valid_refuse_nil
      · next heq _ =>
        cases heq
        split
        · exact valid_refuse (List.forall_mem_singleton.mpr hd)
        · exact valid_writeSources htenant (fun _ => hgrows.drafts _ _ hhas)
            (List.forall_mem_singleton.mpr hd) nofun

theorem valid_putCaseWrites {draftId nodeId : String} {body : Option (ℤ × List Json)} :
    Confined tools sha256 tenantId call
      (putCaseWrites (S := S) tools call.principal uuid draftId nodeId body) t := by
  cases body with
  | none => exact valid_refuse_nil
  | some body =>
    refine valid_getDraft htenant hne (fun t' _ => valid_refuse_nil) fun t' d _ hd hhas => ?_
    have hread : ∀ c ∈ [Content.draft d], c.Of tenantId t' := List.forall_mem_singleton.mpr hd
    dsimp only
    split
    · exact valid_refuse hread
    · refine valid_writeSources htenant (fun _ => hhas) hread fun analysis script hscript => ?_
      split at hscript
      · cases hscript; exact valid_refuse hread
      · cases hscript

theorem valid_compileDraft {draftId : String} : Confined tools sha256 tenantId call
    (compileDraft (S := S) tools sha256 call.principal uuid draftId) t := by
  have hcompile {u : Tables S} {registry : Registry} {d : DraftRow S} (hd : d.tenantId = tenantId)
      (hhas : u.HasDraft d.draftId tenantId) : Confined tools sha256 tenantId call
        (compileMaterialized tools sha256 call.principal uuid registry d) u := by
    unfold compileMaterialized
    split
    · exact valid_refuse (List.forall_mem_singleton.mpr hd)
    · exact valid_refuse (List.forall_mem_singleton.mpr hd)
    · refine valid_setAuthoringLifecycle htenant (fun _ => hhas) (fun t' failure _ => ?_)
        fun t' row _ hrow => valid_reply (List.forall_mem_singleton.mpr hrow)
      cases failure <;> exact valid_refuse_nil
  refine valid_getDraft htenant hne (fun t' _ => valid_refuse_nil) fun t' d _ hd hhas => ?_
  have hread : ∀ c ∈ [Content.draft d], c.Of tenantId t' := List.forall_mem_singleton.mpr hd
  dsimp only
  split
  · exact valid_refuse_nil
  · refine valid_query htenant (fun _ _ _ _ => trivial) fun t'' _ hgrows _ => ?_
    split
    · exact valid_refuse (List.forall_mem_singleton.mpr hd)
    · exact hcompile hd (hgrows.drafts _ _ hhas)
    · split
      · exact valid_refuse (List.forall_mem_singleton.mpr hd)
      · refine valid_updateAuthoringSources htenant (fun _ => hgrows.drafts _ _ hhas)
          (fun u message _ => valid_refuse (List.forall_mem_singleton.mpr hd)) fun u row _ hrow hrow' => ?_
        exact hcompile hrow hrow'

theorem valid_evaluateDraft {draftId : String} : Confined tools sha256 tenantId call
    (evaluateDraft (S := S) call.principal uuid draftId) t := by
  refine valid_getDraft htenant hne (fun t' _ => valid_refuse_nil) fun t' d _ hd hhas => ?_
  split
  · next draft compilation heq _ =>
    cases heq
    refine valid_query htenant (fun _ _ _ _ => trivial) fun t'' _ hgrows _ => ?_
    dsimp only
    split
    · refine valid_setAuthoringLifecycle htenant (fun _ => hgrows.drafts _ _ hhas)
        (fun u failure _ => ?_) fun u row _ hrow => valid_reply (List.forall_mem_singleton.mpr hrow)
      cases failure <;> exact valid_refuse_nil
    · exact valid_refuse (List.forall_mem_singleton.mpr hd)
  · exact valid_refuse_nil

theorem valid_publishDraft {draftId : String} : Confined tools sha256 tenantId call
    (publishDraft (S := S) sha256 call.principal uuid draftId) t := by
  refine valid_getDraft htenant hne (fun t' _ => valid_refuse_nil) fun t' d _ hd hhas => ?_
  split
  · next draft compilation heq _ =>
    cases heq
    split
    · exact valid_refuse_nil
    · unfold admitPlan
      split
      · exact valid_refuse (List.forall_mem_singleton.mpr hd)
      · split
        · refine valid_query htenant (fun _ _ _ _ => htenant) fun t'' hids hgrows _ => ?_
          refine valid_setAuthoringLifecycle htenant
            (fun _ => (hgrows.trans (Statement.exec_grows hids _)).drafts _ _ hhas)
            (fun u failure _ => ?_) fun u row _ hrow => valid_reply (List.forall_mem_singleton.mpr hrow)
          cases failure <;> exact valid_refuse_nil
        · exact valid_refuse (List.forall_mem_singleton.mpr hd)
  · exact valid_refuse_nil

/-- A lookup of a run, under the tenant where the route has one. -/
theorem valid_getRun {runId tenant : String} {next : Option RunRow → Handler S}
    (hscoped : ¬ call.route.Unscoped → tenant = tenantId)
    (hnone : ∀ t', Confined tools sha256 tenantId call (next none) t')
    (hsome : ∀ t' r, r.tenantId = tenantId → t'.HasRun runId tenantId →
      Confined tools sha256 tenantId call (next (some r)) t') :
    Confined tools sha256 tenantId call (.query (.getRun runId tenant) next) t := by
  refine valid_query htenant (fun t' _ _ hroute r _ _ hscope => ?_) fun t' _ _ hown => ?_
  · obtain rfl := hscoped hroute
    exact hscope.resolve_left hne
  · change Confined tools sha256 tenantId call (next (t'.runs.find? _)) t'
    cases hfind : t'.runs.find? fun r => r.runId = runId ∧ InScope tenant r.tenantId with
    | none => exact hnone t'
    | some r =>
      obtain ⟨hid, hscope⟩ : r.runId = runId ∧ InScope tenant r.tenantId := by
        simpa using List.find?_some hfind
      have hr : r ∈ t'.runs := List.mem_of_find?_eq_some hfind
      have hr' : r.tenantId = tenantId := hown r hr hid hscope
      exact hsome t' r hr' ⟨r, hr, hid, hr'⟩

/-- A lookup of a plan, under the tenant where the route has one. -/
theorem valid_getPlan {planDigest tenant : String} {next : Option (PlanRow S) → Handler S}
    (hscoped : ¬ call.route.Unscoped → tenant = tenantId)
    (hnone : ∀ t', Confined tools sha256 tenantId call (next none) t')
    (hsome : ∀ t' p, p.tenantId = tenantId → Confined tools sha256 tenantId call (next (some p)) t') :
    Confined tools sha256 tenantId call (.query (.getPlan planDigest tenant) next) t := by
  refine valid_query htenant (fun t' _ _ hroute p _ _ hscope => ?_) fun t' _ _ hown => ?_
  · obtain rfl := hscoped hroute
    exact hscope.resolve_left hne
  · change Confined tools sha256 tenantId call (next (t'.plans.find? _)) t'
    cases hfind : t'.plans.find? fun p => p.planDigest = planDigest ∧ InScope tenant p.tenantId with
    | none => exact hnone t'
    | some p =>
      obtain ⟨hid, hscope⟩ : p.planDigest = planDigest ∧ InScope tenant p.tenantId := by
        simpa using List.find?_some hfind
      exact hsome t' p (hown p (List.mem_of_find?_eq_some hfind) hid hscope)

omit htenant hne in
theorem insertDraft_tenant {input : CreateDraftInput} {row : DraftRow S}
    (htenant : input.tenantId = tenantId)
    (h : ((Statement.insertDraft input).exec sha256 t).1 = .ok row) : row.tenantId = tenantId ∧
      ((Statement.insertDraft input).exec sha256 t).2.HasDraft row.draftId tenantId := by
  simp only [Statement.exec] at h ⊢
  split at h <;> cases h
  next hfresh =>
    rw [if_neg hfresh]
    exact ⟨htenant, _, List.mem_append_right _ (List.mem_singleton_self _), rfl, htenant⟩

omit htenant hne in
theorem createRun_tenant {now : Time} {uuid : String} {input : CreateRunInput} {rows : List RunRow}
    {created : Bool} {row : RunRow}
    (h : (Persistence.createRun sha256 now uuid input rows).1 = .ok (created, row)) :
    row.tenantId = input.tenantId := by
  unfold Persistence.createRun at h
  dsimp only at h
  split at h
  · next found hfind =>
    have hfound : found.tenantId = input.tenantId ∧ found.idempotencyKey = input.idempotencyKey := by
      simpa using List.find?_some hfind
    split at h <;> cases h
    exact hfound.1
  · split at h <;> cases h
    rfl

omit htenant hne in
theorem requestRunCancellation_tenant {now : Time} {runId tenant reason : String} {rows : List RunRow}
    {row : RunRow} (h : (Persistence.requestRunCancellation now runId tenant reason rows).1.2 = some row) :
    row.tenantId = tenant := by
  unfold Persistence.requestRunCancellation at h
  split at h
  · cases h
  · next current hfind =>
    have hfound : current.runId = runId ∧ current.tenantId = tenant := by
      simpa using List.find?_some hfind
    split at h <;> cases h
    · exact hfound.2
    · exact hfound.2

theorem valid_startRun {body : Option (String × Json)} {idempotencyKey : String} :
    Confined tools sha256 tenantId call
      (startRun (S := S) call.principal uuid body idempotencyKey) t := by
  cases body with
  | none => exact valid_refuse_nil
  | some body =>
    refine valid_getPlan htenant hne (fun _ => htenant) (fun t' => valid_refuse_nil) fun t' p _ => ?_
    dsimp only
    split
    · exact valid_refuse_nil
    · refine valid_query htenant (fun _ _ _ _ => htenant) fun t'' _ _ _ => ?_
      split
      · next created row hresult =>
        exact valid_reply (List.forall_mem_singleton.mpr ((createRun_tenant hresult).trans htenant))
      · exact valid_refuse_nil
      · exact valid_refuse_nil

omit hne in
theorem valid_cancelRun {runId reason : String} : Confined tools sha256 tenantId call
    (cancelRun (S := S) call.principal runId reason) t := by
  refine valid_query htenant (fun _ _ _ _ => htenant) fun t' _ _ _ => ?_
  generalize (Statement.exec sha256 _ t').2 = u
  cases hresult : (Statement.exec sha256
    (.requestRunCancellation (S := S) runId call.principal.tenantId reason) t').1 with
  | mk outcome row =>
    have hcontent : ∀ c ∈ row.toList.map (Content.run (S := S)), c.Of tenantId u := by
      intro c hc
      obtain ⟨r, hr, rfl⟩ := List.mem_map.mp hc
      have hrow : (Persistence.requestRunCancellation t'.clock runId call.principal.tenantId reason
          t'.runs).1.2 = some r := (congrArg Prod.snd hresult).trans (Option.mem_toList.mp hr)
      exact (requestRunCancellation_tenant hrow).trans htenant
    cases outcome with
    | notFound => exact valid_refuse_nil
    | alreadyTerminal => exact valid_refuse hcontent
    | requested | cancelled => exact valid_reply hcontent

theorem valid_listRunEvents {runId : String} {after : ℕ} : Confined tools sha256 tenantId call
    (listRunEvents (S := S) call.principal runId after) t := by
  refine valid_getRun htenant hne (fun _ => htenant) (fun t' => valid_refuse_nil) fun t' r _ hhas => ?_
  refine valid_query htenant (fun _ _ _ _ => htenant) fun t'' _ hgrows _ => valid_reply fun c hc => ?_
  obtain ⟨e, he, rfl⟩ := List.mem_map.mp hc
  have hrun : e.runId = runId := (of_decide_eq_true (List.mem_filter.mp (List.mem_of_mem_take he)).2).1
  rw [Content.Of, hrun]
  exact hgrows.runs _ _ hhas

omit hne in
theorem valid_createDraft {packageSource workflowSource : Option String} :
    Confined tools sha256 tenantId call
      (createDraft (S := S) tools call.principal uuid packageSource workflowSource) t := by
  unfold createDraft
  dsimp only
  split
  · exact valid_refuse_nil
  · refine valid_query htenant (fun _ _ _ _ => htenant) fun t' hids hgrows _ => ?_
    split
    · exact valid_refuse_nil
    · next row hresult =>
      obtain ⟨hrow, hhas⟩ := insertDraft_tenant htenant hresult
      refine valid_insertEvent htenant hhas fun t'' result _ => ?_
      cases result with
      | error message => exact valid_refuse_nil
      | ok _ => exact valid_reply (List.forall_mem_singleton.mpr hrow)

omit hne in
theorem valid_putDraft (hroute : call.route.Unscoped) {draftId : String}
    {body : Option (ℤ × Sources)} : Confined tools sha256 tenantId call
      (putDraft (S := S) tools call.principal uuid draftId body) t := by
  cases body with
  | none => exact valid_refuse_nil
  | some body => exact valid_writeSources htenant (fun h => absurd hroute h) (by simp) nofun

omit hne in
theorem valid_approveDraft (hroute : call.route.Unscoped) {draftId : String} :
    Confined tools sha256 tenantId call (approveDraft (S := S) call.principal uuid draftId) t := by
  refine valid_setAuthoringLifecycle htenant (fun h => absurd hroute h) (fun u failure _ => ?_)
    fun u row _ hrow => valid_reply (List.forall_mem_singleton.mpr hrow)
  cases failure <;> exact valid_refuse_nil

theorem valid_validateDraft {draftId : String} : Confined tools sha256 tenantId call
    (validateDraft (S := S) tools call.principal draftId) t := by
  refine valid_getDraft htenant hne (fun t' _ => valid_refuse_nil) fun t' d _ hd _ => ?_
  dsimp only
  split
  · exact valid_refuse_nil
  · exact valid_reply (List.forall_mem_singleton.mpr hd)

theorem valid_mintEnvelope (hroute : call.route.Unscoped) {request : EnvelopeRequest}
    {grant : Option RuntimeGrantClaims} : Confined tools sha256 tenantId call
      (mintEnvelope (S := S) request grant) t := by
  cases grant with
  | none => exact valid_refuse_nil
  | some grant =>
    dsimp only [mintEnvelope]
    split
    · exact valid_refuse_nil
    · split
      · exact valid_refuse_nil
      · refine valid_getRun htenant hne (fun h => absurd hroute h) (fun t' => valid_refuse_nil)
          fun t' r hr _ => ?_
        dsimp only
        split
        · exact valid_refuse_nil
        · split
          · exact valid_refuse_nil
          · refine valid_query htenant (fun _ _ _ _ => trivial) fun t'' _ _ _ => ?_
            split
            · exact valid_refuse_nil
            · refine valid_getPlan htenant hne (fun h => absurd hroute h)
                (fun u => valid_refuse_nil) fun u p hp => ?_
              dsimp only
              split
              · refine valid_reply fun c hc => ?_
                obtain rfl | rfl : c = .run r ∨ c = .plan p := by simpa using hc
                · exact hr
                · exact hp
              · exact valid_refuse_nil

theorem valid_runtimeState (hroute : call.route.Unscoped) {run : FencedRun} {write : RuntimeStateWrite}
    {grant : Option RuntimeGrantClaims} : Confined tools sha256 tenantId call
      (runtimeState (S := S) run write grant) t := by
  have happly (u : Tables S) :
      Confined tools sha256 tenantId call (applyStateWrite (S := S) run write) u := by
    cases write with
    | nodeFinished input =>
      exact valid_query htenant (fun _ _ _ h => absurd hroute h) fun u' _ _ _ => valid_reply (by simp)
    | checkpoint | event =>
      refine valid_query htenant (fun _ _ _ h => absurd hroute h) fun u' _ _ _ => ?_
      split
      · exact valid_refuse_nil
      · exact valid_reply (by simp)
    | nodeStarted nodeId inputDigest =>
      refine valid_query htenant (fun _ _ _ h => absurd hroute h) fun u' _ _ _ => ?_
      split
      · exact valid_refuse_nil
      · refine valid_query htenant (fun _ _ _ h => absurd hroute h) fun u'' _ _ _ => ?_
        split
        · exact valid_refuse_nil
        · exact valid_reply (by simp)
  cases grant with
  | none => exact valid_refuse_nil
  | some grant =>
    dsimp only [runtimeState]
    iterate 4
      split
      · exact valid_refuse_nil
    refine valid_getRun htenant hne (fun h => absurd hroute h) (fun t' => valid_refuse_nil)
      fun t' r hr _ => ?_
    dsimp only
    split
    · exact valid_refuse_nil
    · refine valid_query htenant (fun _ _ _ _ => trivial) fun t'' _ _ _ => ?_
      split
      · exact valid_refuse_nil
      · exact happly _

omit hne in
theorem valid_postPlan {body : Json} : Confined tools sha256 tenantId call
    (dispatch (S := S) tools sha256 call.principal call.uuid (.admitPlan body)) t := by
  dsimp only [dispatch, admitPlan]
  split
  · exact valid_refuse_nil
  · split
    · exact valid_query htenant (fun _ _ _ _ => htenant) fun _ _ _ _ => valid_reply (List.forall_mem_nil _)
    · exact valid_refuse_nil

omit hne in
/-- The rows of a list are rows of the tenant. -/
theorem valid_list {ρ : Type} {statement : Statement S (List ρ)} {content : ρ → Content S}
    (hown : ∀ t', statement.Own tenantId t')
    (hof : ∀ t', ∀ r ∈ (statement.exec sha256 t').1, ∀ t'', (content r).Of tenantId t'') :
    Confined tools sha256 tenantId call
      (.query statement fun rows => reply 200 (rows.map content)) t := by
  refine valid_query htenant (fun t' _ _ _ => hown t') fun t' _ _ _ => valid_reply fun c hc => ?_
  obtain ⟨r, hr, rfl⟩ := List.mem_map.mp hc
  exact hof t' r hr _

omit htenant hne in
theorem tenant_of_mem_list {ρ : Type} (tenant : ρ → String) {time : ρ → Time} {rows : List ρ} {n : ℕ}
    {r : ρ} (h : r ∈ (latestFirst time (rows.filter fun r => tenant r = tenantId)).take n) :
    tenant r = tenantId := by
  have hmem := List.mem_of_mem_take h
  rw [latestFirst, List.mem_insertionSort, List.mem_filter, decide_eq_true_eq] at hmem
  exact hmem.2

/-- **The handlers find rows of their tenant, and show rows of their tenant.** -/
theorem valid_dispatch : Confined tools sha256 tenantId call
    (dispatch (S := S) tools sha256 call.principal call.uuid call.route) t := by
  cases hroute : call.route with
  | listPlans =>
    exact valid_list htenant (fun _ => htenant) fun _ p hp _ =>
      (tenant_of_mem_list PlanRow.tenantId hp).trans htenant
  | getPlan planDigest =>
    exact valid_getPlan htenant hne (fun _ => htenant) (fun _ => valid_refuse_nil) fun _ p hp =>
      valid_reply (List.forall_mem_singleton.mpr hp)
  | admitPlan body => exact valid_postPlan htenant
  | listDrafts =>
    exact valid_list htenant (fun _ => htenant) fun _ d hd _ =>
      (tenant_of_mem_list DraftRow.tenantId hd).trans htenant
  | createDraft packageSource workflowSource => exact valid_createDraft call.uuid htenant
  | getDraft draftId => exact valid_readDraft htenant hne
  | putDraft draftId body => exact valid_putDraft call.uuid htenant (by rw [hroute]; trivial)
  | attachAgent draftId agentId body => exact valid_attachAgent call.uuid htenant hne
  | putCaseWrites draftId nodeId body => exact valid_putCaseWrites call.uuid htenant hne
  | validateDraft draftId => exact valid_validateDraft htenant hne
  | compileDraft draftId => exact valid_compileDraft call.uuid htenant hne
  | evaluateDraft draftId => exact valid_evaluateDraft call.uuid htenant hne
  | approveDraft draftId => exact valid_approveDraft call.uuid htenant (by rw [hroute]; trivial)
  | publishDraft draftId => exact valid_publishDraft call.uuid htenant hne
  | listRuns =>
    exact valid_list htenant (fun _ => htenant) fun _ r hr _ =>
      (tenant_of_mem_list RunRow.tenantId hr).trans htenant
  | startRun body idempotencyKey => exact valid_startRun call.uuid htenant hne
  | getRun runId =>
    exact valid_getRun htenant hne (fun _ => htenant) (fun _ => valid_refuse_nil) fun _ r hr _ =>
      valid_reply (List.forall_mem_singleton.mpr hr)
  | cancelRun runId reason => exact valid_cancelRun htenant
  | listRunEvents runId after => exact valid_listRunEvents htenant hne
  | mintEnvelope grant request => exact valid_mintEnvelope htenant hne (by rw [hroute]; trivial)
  | runtimeState grant run write => exact valid_runtimeState htenant hne (by rw [hroute]; trivial)

end

/-- **Every request keeps the discipline of a tenant.** -/
theorem valid_handle (hne : tenantId ≠ "") (call : Call) (t : Tables S) :
    Confined tools sha256 tenantId call (handle tools sha256 call) t := by
  by_cases htenant : call.principal.tenantId = tenantId
  · unfold handle
    split
    · exact valid_refuse_nil
    · exact valid_dispatch htenant hne
  · exact .of_forall (fun _ _ h => absurd h htenant) (fun _ _ h => absurd h htenant) _ t

end

/-! ## Isolation -/

section

variable (tools : AuthoringTools) (sha256 : List Char → String) (tenantId : String)

/-- What requests of the tenant do. -/
inductive Activity (s : Traffic (Tables S) (Statement S) Call (Response S)) :
    Traffic (Tables S) (Statement S) Call (Response S) → Prop
  | arrive (id) (call) : call.principal.tenantId = tenantId → s.sessions id = none →
      Activity s (s.put s.tables id ⟨call, handle tools sha256 call, false⟩)
  | turn (id) (session) (s') : s.sessions id = some session →
      session.call.principal.tenantId = tenantId →
      s.Turn (server tools sha256 S) (Scoped tenantId) id s' → Activity s s'

variable {tools sha256 tenantId} {s s' : Traffic (Tables S) (Statement S) Call (Response S)}
  {t : Tables S}

theorem Activity.step (h : Activity tools sha256 tenantId s s') :
    s.Step (server tools sha256 S) (Scoped tenantId) s' := by
  cases h with
  | arrive id call _ hnone => exact .arrive id call hnone
  | turn id session _ _ _ hturn => exact .turn id s' hturn

/-- What a request of the tenant does leaves the rows of the others alone. -/
theorem Activity.others (hsound : s.Sound (tenancy tools sha256 tenantId))
    (h : Activity tools sha256 tenantId s s') :
    s'.tables.others tenantId = s.tables.others tenantId := by
  cases h with
  | arrive id call _ _ => rfl
  | turn id session _ hsession htenant hturn =>
    cases hturn with
    | query call statement next hsession' hok =>
      obtain rfl : session = _ := Option.some.inj (hsession.symm.trans hsession')
      have hpre := hsound.pre hsession'
      refine Statement.exec_others hsound.tables ?_
      by_cases hroute : call.route.Unscoped
      · exact hok htenant hroute
      · exact hpre htenant hroute

/-- **Requests of a tenant leave the rows of the others alone, and show rows of the tenant**, as long
as the routes that look rows up without a tenant find its rows. -/
theorem tenant_isolation (hne : tenantId ≠ "") (hids : t.Ids)
    (hreachable : Traffic.Reachable (server tools sha256 S) (Scoped tenantId) t s)
    (hactivity : Relation.ReflTransGen (Activity tools sha256 tenantId) s s') :
    s'.tables.others tenantId = s.tables.others tenantId ∧
      ∀ id call response, s'.sessions id = some ⟨call, .done response, false⟩ →
        call.principal.tenantId = tenantId → ∀ c ∈ response.content, c.Of tenantId s'.tables := by
  have hsound {u} (h : Traffic.Reachable (server tools sha256 S) (Scoped tenantId) t u) :
      u.Sound (tenancy tools sha256 tenantId) := h.sound (fun call t _ => valid_handle hne call t) hids
  suffices h : Traffic.Reachable (server tools sha256 S) (Scoped tenantId) t s' ∧
      s'.tables.others tenantId = s.tables.others tenantId by
    refine ⟨h.2, fun id call response hsession => ?_⟩
    exact (hsound h.1).sessions id _ hsession rfl _ (hsound h.1).tables (.refl _)
  induction hactivity with
  | refl => exact ⟨hreachable, rfl⟩
  | tail _ hstep ih =>
    exact ⟨ih.1.tail hstep.step, (hstep.others (hsound ih.1)).trans ih.2⟩

end

namespace Sample

/-- Two tenants with a draft each. -/
def shared : Tables schema :=
  tables [draft "draft_a" "ann" "tenant-a", draft "draft_b" "bob" "tenant-b"]

theorem shared_ids : shared.Ids := ⟨by decide +kernel, by decide +kernel⟩

/-- Somebody of the first tenant writes the sources of a draft. -/
def put (draftId : String) : Call :=
  request (author "ann" "tenant-a") (.putDraft draftId (some (1, ⟨"package", "changed"⟩))) "1"

/-- The sources of the drafts of other tenants, and the tenants of the drafts that a request shows. -/
def seen (s : Traffic (Tables schema) (Statement schema) Call (Response schema)) :
    List Sources × List String :=
  ((s.tables.others "tenant-a").drafts.map (·.sources), match s.sessions 0 with
    | some ⟨_, .done response, false⟩ => response.content.map fun
      | .draft row => row.tenantId
      | _ => ""
    | _ => [])

/-- Somebody of the first tenant writes the draft of the second one. -/
theorem seen_foreign : ((Traffic.start shared).run (server (tools String.ofList) String.ofList schema)
    (fun _ _ _ _ => True) [.arrive 0 (put "draft_b"), .turn 0, .turn 0]).map seen =
      some ([⟨"package", "changed"⟩], ["tenant-b"]) := by decide +kernel

/-- Somebody of the first tenant writes the draft of the tenant. -/
theorem seen_own : ((Traffic.start shared).run (server (tools String.ofList) String.ofList schema)
    (Scoped "tenant-a") [.arrive 0 (put "draft_a"), .turn 0]).bind (fun s =>
      (s.act (server (tools String.ofList) String.ofList schema) (Scoped "tenant-a") (.turn 0)).map fun s' =>
        ((s.sessions 0).map (·.call.principal.tenantId), seen s')) =
      some (some "tenant-a", [⟨"package", "workflow"⟩], ["tenant-a"]) := by decide +kernel

end Sample

/-- Somebody writes a draft of the tenant. -/
theorem tenant_isolation_sample : ∃ s s',
    Traffic.Reachable (server (Sample.tools String.ofList) String.ofList Sample.schema) (Scoped "tenant-a")
      Sample.shared s ∧
    Activity (Sample.tools String.ofList) String.ofList "tenant-a" s s' ∧
    s'.tables.others "tenant-a" = s.tables.others "tenant-a" ∧
    ∀ id call response, s'.sessions id = some ⟨call, .done response, false⟩ →
      call.principal.tenantId = "tenant-a" → ∀ c ∈ response.content, c.Of "tenant-a" s'.tables := by
  obtain ⟨s, hrun, h⟩ := Option.bind_eq_some_iff.mp Sample.seen_own
  obtain ⟨s', hact, h⟩ := Option.map_eq_some_iff.mp h
  obtain ⟨session, hsession, htenant⟩ := Option.map_eq_some_iff.mp (Prod.mk.inj h).1
  have hreachable := Traffic.reachable_run hrun
  have hactivity : Activity (Sample.tools String.ofList) String.ofList "tenant-a" s s' :=
    .turn 0 session s' hsession htenant (Traffic.turn_act hact)
  exact ⟨s, s', hreachable, hactivity,
    tenant_isolation (by decide) Sample.shared_ids hreachable (.single hactivity)⟩

/-- Somebody writes a draft of another tenant, and reads it. -/
theorem tenants_not_isolated : ∃ s,
    (Traffic.start Sample.shared).run (server (Sample.tools String.ofList) String.ofList Sample.schema)
      (fun _ _ _ _ => True) [.arrive 0 (Sample.put "draft_b"), .turn 0, .turn 0] = some s ∧
    (Sample.put "draft_b").principal.tenantId = "tenant-a" ∧
    s.tables.others "tenant-a" ≠ Sample.shared.others "tenant-a" ∧
    ∃ call response, s.sessions 0 = some ⟨call, .done response, false⟩ ∧
      ∃ c ∈ response.content, ¬ c.Of "tenant-a" s.tables := by
  obtain ⟨s, hrun, hseen⟩ := Option.map_eq_some_iff.mp Sample.seen_foreign
  obtain ⟨hsources, htenants⟩ := Prod.mk.inj hseen
  refine ⟨s, hrun, rfl, fun h => ?_, ?_⟩
  · rw [h] at hsources
    exact absurd hsources (by decide +kernel)
  · split at htenants
    · next call response hsession =>
      obtain ⟨c, hc, htenant⟩ := List.map_eq_singleton_iff.mp htenants
      refine ⟨call, response, hsession, c, hc ▸ List.mem_singleton_self c, ?_⟩
      cases c with
      | draft row => exact fun hof => absurd (htenant.symm.trans hof) (by decide)
      | _ => exact absurd (show "" = "tenant-b" from htenant) (by decide)
    · cases htenants

end ControlApi

end HarnessFramework
