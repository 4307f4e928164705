import HarnessFramework.ControlApi.Routes

/-!
# How drafts go on

Four routes advance the status of a draft. Whatever else happens between their statements, the update
that they issue is made from what they have read: a plan from the sources of the draft that was read, a
report and a digest from its plan, and an actor who is none of the contributors that were read.

## Main definitions

* `LifecycleInput.Formed` — the updates that the routes issue
* `lifecycle` — the discipline that says so
* `Quiet` — a script that advances no draft and admits no plan

## Main results

* `forms_handle` — the handlers of all routes issue such updates only
-/

namespace HarnessFramework

namespace ControlApi

open Persistence HarnessCompiler Identity

variable {S : PlanSchema}

/-! ## Updates -/

/-- The updates that the routes issue, with what they were made from. -/
inductive LifecycleInput.Formed (sha256 : List Char → String) (draftId : String) (t : Tables S) :
    LifecycleInput S → Prop
  | compile {actor diagnostics} {read : DraftRow S} {compilation : Compilation S} :
      compilation.sources = read.sources → verifyPlanDigest sha256 compilation.plan.val = true →
      Formed sha256 draftId t
        { transition (S := S) .draft .compiled actor with
          compiledPlan := some compilation
          diagnostics := some diagnostics
          read := some read }
  | evaluate {actor report} {read : DraftRow S} {compilation : Compilation S} :
      read.compiledPlan = some compilation → report.planDigest = compilation.plan.planDigest →
      Formed sha256 draftId t
        { transition (S := S) .compiled .evaluated actor with
          evaluationReport := some report
          read := some read }
  | approve {actor contributors} : actor ∉ contributors →
      Formed sha256 draftId t { transition (S := S) .evaluated .approved actor with contributors }
  | publish {actor contributors} {read : DraftRow S} {compilation : Compilation S} :
      actor ∉ contributors → read.compiledPlan = some compilation →
      t.HasDraft draftId read.tenantId →
      (∃ p ∈ t.plans, InScope p.tenantId read.tenantId ∧ p.planDigest = compilation.plan.planDigest) →
      Formed sha256 draftId t
        { transition (S := S) .approved .published actor with
          publishedPlanDigest := some compilation.plan.planDigest
          read := some read
          contributors }

/-- A statement that advances no draft and admits no plan. -/
def Statement.Plain {β : Type} : Statement S β → Prop
  | .setLifecycle .. | .insertPlan .. => False
  | _ => True

section

variable (tools : AuthoringTools) (sha256 : List Char → String)
  (Ok : Call → {β : Type} → Statement S β → Tables S → Prop)

/-- Drafts are advanced by what was made of them, and plans that are admitted have their digest. -/
def lifecycle : Discipline (server tools sha256 S) Ok where
  Inv := Tables.Ids
  Rely := Tables.Grows
  Pre _ _ statement t :=
    match statement with
    | .setLifecycle draftId input => input.Formed sha256 draftId t
    | .insertPlan _ plan => verifyPlanDigest sha256 plan.val = true
    | _ => True
  Post _ _ _ := True
  refl := Tables.Grows.refl
  trans := Tables.Grows.trans
  exec h _ _ := ⟨Statement.exec_ids h _, Statement.exec_grows h _⟩
  environment := @environment_grows S tools sha256

end

/-! ## The other routes -/

/-- A script that advances no draft and admits no plan. -/
abbrev Quiet (script : Handler S) : Prop := script.All fun statement => statement.Plain

theorem quiet_updateAuthoringSources {eventId draftId : String} {input : UpdateSourcesInput}
    {next : Except String (DraftRow S) → Handler S} (hnext : ∀ result, Quiet (next result)) :
    Quiet (updateAuthoringSources eventId draftId input next) := by
  refine ⟨trivial, fun row => ?_⟩
  cases row with
  | none => exact hnext _
  | some row => exact ⟨trivial, fun result => by cases result <;> exact hnext _⟩

section

variable {tools : AuthoringTools} {sha256 : List Char → String} {principal : Principal}
  {uuid : ℕ → String}

theorem quiet_writeSources {draftId : String} {expectedRevision : ℤ} {sources : Sources}
    {read : List (Content S)} {check : Analysis → Option (Handler S)}
    (hcheck : ∀ analysis, ∀ script ∈ check analysis, Quiet script) :
    Quiet (writeSources tools principal uuid draftId expectedRevision sources read check) := by
  unfold writeSources
  split
  · trivial
  · next analysis _ =>
    cases hscript : check analysis with
    | some script => exact hcheck analysis script hscript
    | none =>
      rw [Option.getD_none]
      exact quiet_updateAuthoringSources fun result => by cases result <;> trivial

theorem quiet_createDraft {packageSource workflowSource : Option String} :
    Quiet (createDraft (S := S) tools principal uuid packageSource workflowSource) := by
  unfold createDraft
  dsimp only
  split
  · trivial
  · refine ⟨trivial, fun row => ?_⟩
    cases row with
    | error message => trivial
    | ok row => exact ⟨trivial, fun result => by cases result <;> trivial⟩

theorem quiet_getDraft {draftId : String} : Quiet (getDraft (S := S) principal draftId) := by
  refine ⟨trivial, fun draft => ?_⟩
  cases draft with
  | none => trivial
  | some draft => exact ⟨trivial, fun _ => trivial⟩

theorem quiet_putDraft {draftId : String} {body : Option (ℤ × Sources)} :
    Quiet (putDraft (S := S) tools principal uuid draftId body) := by
  cases body with
  | none => trivial
  | some body => exact quiet_writeSources nofun

theorem quiet_attachAgent {draftId agentId : String} {body : Option (ℤ × Attachment)} :
    Quiet (attachAgent (S := S) tools principal uuid draftId agentId body) := by
  cases body with
  | none => trivial
  | some body =>
    refine ⟨trivial, fun draft => ⟨trivial, fun registry => ?_⟩⟩
    dsimp only
    split
    · trivial
    · trivial
    · split
      · trivial
      · exact quiet_writeSources nofun

theorem quiet_putCaseWrites {draftId nodeId : String} {body : Option (ℤ × List Json)} :
    Quiet (putCaseWrites (S := S) tools principal uuid draftId nodeId body) := by
  cases body with
  | none => trivial
  | some body =>
    refine ⟨trivial, fun draft => ?_⟩
    cases draft with
    | none => trivial
    | some draft =>
      dsimp only
      split
      · trivial
      · refine quiet_writeSources fun analysis script hscript => ?_
        split at hscript <;> cases hscript
        trivial

theorem quiet_validateDraft {draftId : String} :
    Quiet (validateDraft (S := S) tools principal draftId) := by
  refine ⟨trivial, fun draft => ?_⟩
  cases draft with
  | none => trivial
  | some draft =>
    dsimp only
    split <;> trivial

theorem quiet_startRun {body : Option (String × Json)} {idempotencyKey : String} :
    Quiet (startRun (S := S) principal uuid body idempotencyKey) := by
  cases body with
  | none => trivial
  | some body =>
    refine ⟨trivial, fun plan => ?_⟩
    cases plan with
    | none => trivial
    | some plan =>
      dsimp only
      split
      · trivial
      · refine ⟨trivial, fun result => ?_⟩
        dsimp only
        split <;> trivial

theorem quiet_cancelRun {runId reason : String} : Quiet (cancelRun (S := S) principal runId reason) := by
  refine ⟨trivial, fun result => ?_⟩
  dsimp only
  split <;> trivial

theorem quiet_listRunEvents {runId : String} {after : ℕ} :
    Quiet (listRunEvents (S := S) principal runId after) := by
  refine ⟨trivial, fun run => ?_⟩
  cases run with
  | none => trivial
  | some run => exact ⟨trivial, fun _ => trivial⟩

theorem quiet_mintEnvelope {request : EnvelopeRequest} {grant : Option RuntimeGrantClaims} :
    Quiet (mintEnvelope (S := S) request grant) := by
  cases grant with
  | none => trivial
  | some grant =>
    dsimp only [mintEnvelope]
    split
    · trivial
    · split
      · trivial
      · refine ⟨trivial, fun run => ?_⟩
        cases run with
        | none => trivial
        | some run =>
          dsimp only
          split
          · trivial
          · split
            · trivial
            · refine ⟨trivial, fun epoch => ?_⟩
              dsimp only
              split
              · trivial
              · refine ⟨trivial, fun plan => ?_⟩
                cases plan with
                | none => trivial
                | some plan =>
                  dsimp only
                  split <;> trivial

theorem quiet_runtimeState {run : FencedRun} {write : RuntimeStateWrite}
    {grant : Option RuntimeGrantClaims} : Quiet (runtimeState (S := S) run write grant) := by
  have happly : Quiet (applyStateWrite (S := S) run write) := by
    cases write with
    | nodeFinished input => exact ⟨trivial, fun _ => trivial⟩
    | checkpoint | event => exact ⟨trivial, fun result => by cases result <;> trivial⟩
    | nodeStarted nodeId inputDigest =>
      refine ⟨trivial, fun result => ?_⟩
      cases result with
      | error failure => trivial
      | ok _ => exact ⟨trivial, fun result => by cases result <;> trivial⟩
  cases grant with
  | none => trivial
  | some grant =>
    dsimp only [runtimeState]
    iterate 4
      split
      · trivial
    refine ⟨trivial, fun record => ?_⟩
    cases record with
    | none => trivial
    | some record =>
      dsimp only
      split
      · trivial
      · refine ⟨trivial, fun epoch => ?_⟩
        dsimp only
        split
        · trivial
        · exact happly

end

/-! ## The routes that advance drafts -/

section

variable {tools : AuthoringTools} {sha256 : List Char → String}
  {Ok : Call → {β : Type} → Statement S β → Tables S → Prop} {call : Call} {t : Tables S}

variable (tools sha256 Ok call) in
/-- What is left of a request issues formed updates. -/
abbrev Forms (script : Handler S) (t : Tables S) : Prop := (lifecycle tools sha256 @Ok).Valid call script t

theorem forms_of_quiet {script : Handler S} (h : Quiet script) : Forms tools sha256 @Ok call script t := by
  refine .of_all h (fun statement t hplain => ?_) (fun _ _ => trivial) t
  cases statement <;> trivial

theorem forms_query {β : Type} {statement : Statement S β} {next : β → Handler S}
    (hpre : ∀ t', t'.Ids → t.Grows t' → (lifecycle tools sha256 @Ok).Pre call statement t')
    (hnext : ∀ t', t'.Ids → t.Grows t' →
      Forms tools sha256 @Ok call (next (statement.exec sha256 t').1) (statement.exec sha256 t').2) :
    Forms tools sha256 @Ok call (.query statement next) t :=
  fun t' hids hgrows => ⟨hpre t' hids hgrows, fun _ => hnext t' hids hgrows⟩

theorem forms_getDraft {draftId tenant : String} {next : Option (DraftRow S) → Handler S}
    (hnone : Quiet (next none))
    (hsome : ∀ t' d, t'.HasDraft d.draftId d.tenantId → InScope tenant d.tenantId →
      Forms tools sha256 @Ok call (next (some d)) t') :
    Forms tools sha256 @Ok call (.query (.getDraft draftId tenant) next) t := by
  refine forms_query (fun _ _ _ => trivial) fun t' _ _ => ?_
  change Forms tools sha256 @Ok call (next (t'.drafts.find? _)) t'
  cases hfind : t'.drafts.find? fun d => d.draftId = draftId ∧ InScope tenant d.tenantId with
  | none => exact forms_of_quiet hnone
  | some d =>
    have hd : d.draftId = draftId ∧ InScope tenant d.tenantId := by simpa using List.find?_some hfind
    exact hsome t' d ⟨d, List.mem_of_find?_eq_some hfind, rfl, rfl⟩ hd.2

theorem forms_advance {eventId draftId : String} {input : LifecycleInput S}
    {next : Except LifecycleFailure (DraftRow S) → Handler S}
    (hformed : ∀ t', t.Grows t' → input.Formed sha256 draftId t') (hnext : ∀ result, Quiet (next result)) :
    Forms tools sha256 @Ok call (advanceLifecycle eventId draftId input next) t := by
  refine forms_query (fun t' _ hgrows => hformed t' hgrows) fun t' _ _ => forms_of_quiet ?_
  cases ((Statement.setLifecycle draftId input).exec sha256 t').1 with
  | none => exact hnext _
  | some row => exact ⟨trivial, fun result => by cases result <;> exact hnext _⟩

/-- An approval or a publication compares its actor with the contributors first. -/
theorem forms_authorize {eventId draftId : String} {input : LifecycleInput S}
    {next : Except LifecycleFailure (DraftRow S) → Handler S}
    (hstatus : input.status = .approved ∨ input.status = .published)
    (hformed : ∀ contributors t', t.Grows t' → input.actor ∉ contributors →
      ({ input with contributors } : LifecycleInput S).Formed sha256 draftId t')
    (hnext : ∀ result, Quiet (next result)) :
    Forms tools sha256 @Ok call (setAuthoringLifecycle eventId draftId input next) t := by
  rw [setAuthoringLifecycle, if_pos hstatus]
  refine forms_query (fun _ _ _ => trivial) fun t' _ hgrows => ?_
  split
  · exact forms_of_quiet (hnext _)
  · next hactor => exact forms_advance (fun u hu => hformed _ u (hgrows.trans hu) hactor) hnext

theorem forms_compileMaterialized {uuid : ℕ → String} {registry : Registry} {draft : DraftRow S} :
    Forms tools sha256 @Ok call
      (compileMaterialized tools sha256 call.principal uuid registry draft) t := by
  unfold compileMaterialized
  split
  · exact forms_of_quiet trivial
  · exact forms_of_quiet trivial
  · next compilation diagnostics hcompile =>
    obtain ⟨hsources, hverify⟩ := compileAuthoringDraft_eq_some hcompile
    rw [setAuthoringLifecycle, if_neg (by simp [transition])]
    refine forms_advance (fun _ _ => .compile hsources hverify) fun result => ?_
    split <;> trivial

theorem forms_compileDraft {uuid : ℕ → String} {draftId : String} : Forms tools sha256 @Ok call
    (compileDraft (S := S) tools sha256 call.principal uuid draftId) t := by
  refine forms_getDraft trivial fun t' draft _ _ => ?_
  dsimp only
  split
  · exact forms_of_quiet trivial
  · refine forms_query (fun _ _ _ => trivial) fun t' _ _ => ?_
    split
    · exact forms_of_quiet trivial
    · exact forms_compileMaterialized
    · split
      · exact forms_of_quiet trivial
      · refine forms_query (fun _ _ _ => trivial) fun t' _ _ => ?_
        split
        · exact forms_of_quiet trivial
        · refine forms_query (fun _ _ _ => trivial) fun t' _ _ => ?_
          split
          · exact forms_of_quiet trivial
          · exact forms_compileMaterialized

theorem forms_evaluateDraft {uuid : ℕ → String} {draftId : String} : Forms tools sha256 @Ok call
    (evaluateDraft (S := S) call.principal uuid draftId) t := by
  refine forms_getDraft trivial fun t' draft _ _ => ?_
  split
  · next draft compilation heq hcompilation =>
    cases heq
    refine forms_query (fun _ _ _ => trivial) fun t'' _ _ => ?_
    dsimp only
    split
    · rw [setAuthoringLifecycle, if_neg (by simp [transition])]
      refine forms_advance (fun _ _ => .evaluate hcompilation rfl) fun result => ?_
      split <;> trivial
    · exact forms_of_quiet trivial
  · exact forms_of_quiet trivial

theorem forms_approveDraft {uuid : ℕ → String} {draftId : String} : Forms tools sha256 @Ok call
    (approveDraft (S := S) call.principal uuid draftId) t := by
  refine forms_authorize (.inl rfl) (fun _ _ _ hactor => .approve hactor) fun result => ?_
  split <;> trivial

/-- A plan is read as itself. -/
theorem PlanSchema.read_val (plan : S.Plan) : S.read plan.val = .ok plan := by
  have hparse := plan.property
  unfold PlanSchema.read
  split
  · next parsed hparsed =>
    obtain rfl := Except.ok.inj (hparse.symm.trans hparsed)
    rfl
  · next hparsed => cases hparse.symm.trans hparsed

/-- A plan is there after it was admitted. -/
theorem exists_insertPlan {tenantId : String} {plan : S.Plan} :
    ∃ p ∈ ((Statement.insertPlan tenantId plan).exec sha256 t).2.plans,
      p.tenantId = tenantId ∧ p.planDigest = plan.planDigest := by
  simp only [Statement.exec]
  split
  · next hfound => exact hfound
  · exact ⟨_, List.mem_append_right _ (List.mem_singleton_self _), rfl, rfl⟩

theorem forms_publishDraft {uuid : ℕ → String} {draftId : String} : Forms tools sha256 @Ok call
    (publishDraft (S := S) sha256 call.principal uuid draftId) t := by
  refine forms_getDraft trivial fun t' draft hhas hscope => ?_
  split
  · next read compilation heq hcompilation =>
    cases heq
    split
    · exact forms_of_quiet trivial
    · rw [admitPlan, PlanSchema.read_val]
      dsimp only
      split
      · next hverify =>
        refine forms_query (fun _ _ _ => hverify) fun t'' hids hgrows => ?_
        obtain ⟨p, hp, htenant, hdigest⟩ :=
          @exists_insertPlan S sha256 t'' call.principal.tenantId compilation.plan
        have hall := hgrows.trans (@Statement.exec_grows S sha256 t'' hids _
          (.insertPlan call.principal.tenantId compilation.plan))
        have hadmitted : InScope p.tenantId draft.tenantId := htenant ▸ hscope
        refine forms_authorize (.inr rfl) (fun contributors u hu hactor => ?_) fun result => ?_
        · exact .publish hactor hcompilation ((hall.trans hu).drafts _ _ hhas)
            ⟨p, hu.plans p hp, hadmitted, hdigest⟩
        · split <;> trivial
      · exact forms_of_quiet trivial
  · exact forms_of_quiet trivial

theorem forms_admitPlan {body : Json} : Forms tools sha256 @Ok call
    (dispatch (S := S) tools sha256 call.principal call.uuid (.admitPlan body)) t := by
  dsimp only [dispatch, admitPlan]
  split
  · exact forms_of_quiet trivial
  · split
    · next hverify => exact forms_query (fun _ _ _ => hverify) fun _ _ _ => forms_of_quiet trivial
    · exact forms_of_quiet trivial

/-- **All updates are formed.** -/
theorem forms_handle (call : Call) (t : Tables S) :
    Forms tools sha256 @Ok call (handle tools sha256 call) t := by
  unfold handle
  split
  · exact forms_of_quiet trivial
  · cases hroute : call.route with
    | listPlans | listDrafts | listRuns => exact forms_of_quiet ⟨trivial, fun _ => trivial⟩
    | getPlan | getRun => exact forms_of_quiet ⟨trivial, fun row => by cases row <;> trivial⟩
    | admitPlan body => exact forms_admitPlan
    | createDraft packageSource workflowSource => exact forms_of_quiet quiet_createDraft
    | getDraft draftId => exact forms_of_quiet quiet_getDraft
    | putDraft draftId body => exact forms_of_quiet quiet_putDraft
    | attachAgent draftId agentId body => exact forms_of_quiet quiet_attachAgent
    | putCaseWrites draftId nodeId body => exact forms_of_quiet quiet_putCaseWrites
    | validateDraft draftId => exact forms_of_quiet quiet_validateDraft
    | compileDraft draftId => exact forms_compileDraft
    | evaluateDraft draftId => exact forms_evaluateDraft
    | approveDraft draftId => exact forms_approveDraft
    | publishDraft draftId => exact forms_publishDraft
    | startRun body idempotencyKey => exact forms_of_quiet quiet_startRun
    | cancelRun runId reason => exact forms_of_quiet quiet_cancelRun
    | listRunEvents runId after => exact forms_of_quiet quiet_listRunEvents
    | mintEnvelope grant request => exact forms_of_quiet quiet_mintEnvelope
    | runtimeState grant run write => exact forms_of_quiet quiet_runtimeState

end

namespace Sample

/-- The draft that is created first. -/
def firstDraft : String := "draft_10"

/-- Requests one after the other, each with its number of statements. -/
def requests (calls : List (Call × ℕ)) : List (Traffic.Event Call) :=
  calls.zipIdx.flatMap fun ((call, n), id) => .arrive id call :: List.replicate n (.turn id)

/-- Somebody of the tenant sends a request. -/
def ask (subjectId start : String) (route : Route) : Call := request (author subjectId "tenant") route start

/-- A draft is created, evaluated, approved and published. -/
def authored (approver publisher : String) : List (Traffic.Event Call) :=
  requests
    [(ask "ann" "1" (.createDraft none none), 2), (ask "ann" "2" (.compileDraft firstDraft), 4),
      (ask "ann" "3" (.evaluateDraft firstDraft), 4), (ask approver "4" (.approveDraft firstDraft), 3),
      (ask publisher "5" (.publishDraft firstDraft), 5)]

end Sample

end ControlApi

end HarnessFramework
