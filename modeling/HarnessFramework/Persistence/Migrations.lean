import HarnessFramework.Library.Ddl
import Mathlib.Tactic.MkIffOfInductiveProp

/-!
# Migrations

The scripts of `packages/persistence/migrations`, which `packages/persistence/src/migrate.ts` executes from
the first on in every run, each in a transaction. Most of their statements do nothing when they are executed
again. The last script replaces the primary key of plans, and then lets runs refer to the new one, which
therefore cannot be dropped when the script is executed again.

## Main definitions

* `migrations` — the scripts
* `Reached` — what runs of all migrations, and writes between them, come to

## Main results

* `migrate_once` — the first run of all migrations
* `Reached.once` — there is no other one
* `migrate_again` — a run after that changes nothing, and fails
-/

namespace HarnessFramework

namespace Persistence

open Ddl

/-! ## Columns and constraints, as the scripts write them -/

/-- A column that may be null. -/
def column (name : String) (type : ColumnType) : Column := ⟨name, type, false, none⟩

/-- A column that is not null. -/
def required (name : String) (type : ColumnType) (default : Option Default) : Column :=
  ⟨name, type, true, default⟩

/-- `timestamptz not null default now()`. -/
def moment (name : String) : Column := required name .timestamptz (some .now)

/-- `default 0`. -/
def zero : Option Default := some (.value (.number 0))

/-- `default '{}'::jsonb`. -/
def emptyObject : Option Default := some (.value (.json (.obj [])))

/-- A constraint without a name. -/
def unnamed (body : ConstraintBody) : ConstraintDef := ⟨none, body⟩

/-- `check (column ~ '^[a-f0-9]{length}$')`. -/
def hex (column : String) (length : ℕ) : ConstraintDef :=
  unnamed (.check (.charsIn column "abcdef0123456789".toList length))

/-- `check (column in (texts))`. -/
def isOneOf (column : String) (texts : List String) : ConstraintDef :=
  unnamed (.check (.oneOf column texts))

def plans : TableName := ⟨"harness_control", "plans"⟩
def runs : TableName := ⟨"harness_runtime", "runs"⟩
def runEvents : TableName := ⟨"harness_runtime", "run_events"⟩
def nodeAttempts : TableName := ⟨"harness_runtime", "node_attempts"⟩
def receipts : TableName := ⟨"harness_gateway", "receipts"⟩
def traceLink : TableName := ⟨"observability", "trace_link"⟩
def authoringDrafts : TableName := ⟨"harness_control", "authoring_drafts"⟩
def authoringEvents : TableName := ⟨"harness_control", "authoring_events"⟩
def capabilityRegistry : TableName := ⟨"harness_gateway", "capability_registry"⟩
def skillRegistry : TableName := ⟨"harness_control", "skill_registry"⟩
def agentRegistry : TableName := ⟨"harness_control", "agent_registry"⟩

/-- `create index if not exists`, with the columns and which of them descend. -/
def index (name : String) (table : TableName) (keys : List (String × Bool)) : Statement :=
  .createIndex ⟨table.schema, name, table.name, keys, none⟩

/-- The condition of `runs_ready_idx`. -/
def ready : Check := .oneOf "status" ["queued", "running", "retrying"]

/-! ## Scripts -/

/-- `001_initial.sql`. -/
def initial : List Statement :=
  [.createSchema "harness_control", .createSchema "harness_runtime", .createSchema "harness_gateway",
    .createSchema "langgraph_checkpoint",
    .createTable plans
      [column "plan_digest" .text, required "plan_id" .text none, required "name" .text none,
        required "domain" .text none, required "version" .text none, required "plan" .jsonb none,
        moment "admitted_at"]
      [unnamed (.primaryKey ["plan_digest"]), hex "plan_digest" 64],
    .createTable runs
      [column "run_id" .text, required "idempotency_key" .text none, required "plan_digest" .text none,
        required "status" .text none, column "terminal_outcome" .text, required "input" .jsonb none,
        column "output" .jsonb, required "attempt" .integer zero, required "fencing_epoch" .bigint zero,
        column "lease_owner" .text, column "lease_expires_at" .timestamptz,
        column "current_node_id" .text, column "latest_checkpoint_id" .text,
        required "event_sequence" .bigint zero, required "cost_usd" (.numeric 18 8) zero,
        required "cost_complete" .boolean (some (.value (.boolean true))),
        required "model_calls" .integer zero, required "capability_calls" .integer zero,
        column "error_code" .text, moment "created_at", column "started_at" .timestamptz,
        column "completed_at" .timestamptz, moment "updated_at"]
      [unnamed (.primaryKey ["run_id"]), unnamed (.unique ["idempotency_key"]),
        unnamed (.foreignKey ["plan_digest"] plans ["plan_digest"] false),
        isOneOf "status" ["queued", "running", "retrying", "completed", "manual_review", "denied",
          "failed"]],
    .createIndex ⟨"harness_runtime", "runs_ready_idx", "runs",
      [("status", false), ("lease_expires_at", false), ("created_at", false)], some ready⟩,
    .createTable runEvents
      [required "run_id" .text none, required "sequence" .bigint none, required "event_key" .text none,
        required "code" .text none, column "node_id" .text, required "status" .text none,
        required "values" .jsonb emptyObject, moment "occurred_at"]
      [unnamed (.foreignKey ["run_id"] runs ["run_id"] true),
        unnamed (.primaryKey ["run_id", "sequence"]), unnamed (.unique ["run_id", "event_key"])],
    .createTable nodeAttempts
      [required "run_id" .text none, required "node_id" .text none, required "attempt" .integer none,
        required "fencing_epoch" .bigint none, required "status" .text none, column "input_digest" .text,
        column "output_digest" .text, column "checkpoint_id" .text, moment "started_at",
        column "completed_at" .timestamptz, column "error_code" .text]
      [unnamed (.foreignKey ["run_id"] runs ["run_id"] true),
        unnamed (.primaryKey ["run_id", "node_id", "attempt"])],
    .createTable receipts
      [column "invocation_id" .text, required "run_id" .text none, required "node_id" .text none,
        required "attempt" .integer none, required "fencing_epoch" .bigint none,
        required "plan_digest" .text none, required "permission_digest" .text none,
        required "capability_id" .text none, required "effect" .text none,
        required "decision" .text none, required "reason_code" .text none,
        required "request_digest" .text none, column "result" .jsonb, column "receipt_digest" .text,
        moment "created_at", column "completed_at" .timestamptz]
      [unnamed (.primaryKey ["invocation_id"]), isOneOf "decision" ["allowed", "denied"]],
    index "gateway_receipts_run_idx" receipts [("run_id", false), ("created_at", true)]]

/-- `002_observability.sql`. -/
def observability : List Statement :=
  [.createSchema "observability",
    .alterTable runs [.addColumn (column "trace_id" (.char 32)),
      .addColumn (column "root_span_id" (.char 16)), .addColumn (column "trace_flags" .smallint)],
    .alterTable nodeAttempts [.addColumn (column "trace_id" (.char 32)),
      .addColumn (column "span_id" (.char 16))],
    .alterTable receipts [.addColumn (column "trace_id" (.char 32)),
      .addColumn (column "span_id" (.char 16))],
    .createTable traceLink
      [required "run_id" .text none, required "attempt" .integer none,
        required "trace_id" (.char 32) none, required "root_span_id" (.char 16) none,
        required "trace_flags" .smallint zero, required "service_name" .text none,
        required "telemetry_class" .text (some (.value (.text "internal-operational"))),
        moment "observed_at"]
      [unnamed (.foreignKey ["run_id"] runs ["run_id"] true), hex "trace_id" 32, hex "root_span_id" 16,
        unnamed (.primaryKey ["run_id", "attempt", "service_name"])],
    index "trace_link_trace_idx" traceLink [("trace_id", false), ("observed_at", true)]]

/-- `003_authoring_plane.sql`. -/
def authoringPlane : List Statement :=
  [.createTable authoringDrafts
      [column "draft_id" .text, required "name" .text none, required "domain" .text none,
        required "version" .text none, required "status" .text none,
        required "revision" .integer (some (.value (.number 1))), required "package_source" .text none,
        required "workflow_source" .text none, required "parsed_package" .jsonb none,
        required "parsed_workflow" .jsonb none, column "compiled_plan" .jsonb,
        required "diagnostics" .jsonb (some (.value (.json (.arr [])))),
        column "evaluation_report" .jsonb, column "approved_by" .text,
        column "published_plan_digest" .text, moment "created_at", moment "updated_at"]
      [unnamed (.primaryKey ["draft_id"]),
        isOneOf "status" ["DRAFT", "COMPILED", "EVALUATED", "APPROVED", "PUBLISHED"]],
    index "authoring_drafts_updated_idx" authoringDrafts [("updated_at", true)],
    .createTable authoringEvents
      [column "event_id" .text, required "draft_id" .text none, required "revision" .integer none,
        required "event_type" .text none, required "actor" .text none,
        required "details" .jsonb emptyObject, moment "occurred_at"]
      [unnamed (.primaryKey ["event_id"]),
        unnamed (.foreignKey ["draft_id"] authoringDrafts ["draft_id"] true)],
    index "authoring_events_draft_idx" authoringEvents [("draft_id", false), ("occurred_at", true)],
    .createTable capabilityRegistry
      [column "capability_id" .text, required "definition" .jsonb none,
        required "definition_digest" .text none, required "status" .text none,
        required "owner" .text none, moment "created_at", moment "updated_at"]
      [unnamed (.primaryKey ["capability_id"]), hex "definition_digest" 64,
        isOneOf "status" ["draft", "active", "deprecated"]]]

/-- A registry of `004_agent_skill_registry.sql`. -/
def registry (table : TableName) (id : String) : Statement :=
  .createTable table
    [column id .text, required "definition" .jsonb none, required "definition_digest" (.char 64) none,
      required "status" .text none, required "source_type" .text none, column "source_url" .text,
      moment "created_at", moment "updated_at"]
    [unnamed (.primaryKey [id]), isOneOf "status" ["draft", "active", "deprecated"],
      isOneOf "source_type" ["manual", "github"]]

/-- `004_agent_skill_registry.sql`. -/
def agentSkillRegistry : List Statement :=
  [registry skillRegistry "skill_id", registry agentRegistry "agent_id",
    index "skill_registry_status_idx" skillRegistry [("status", false), ("updated_at", true)],
    index "agent_registry_status_idx" agentRegistry [("status", false), ("updated_at", true)]]

/-- A tenant for the rows that a table has, and none by default for later ones. -/
def addTenant (table : TableName) : List Statement :=
  [.alterTable table [.addColumn (required "tenant_id" .text (some (.value (.text "tenant_demo"))))],
    .alterTable table [.dropDefault "tenant_id"]]

/-- `005_tenancy_and_duties.sql`. -/
def tenancyAndDuties : List Statement :=
  addTenant plans ++ addTenant runs ++ addTenant authoringDrafts ++
  [index "plans_tenant_idx" plans [("tenant_id", false), ("admitted_at", true)],
    index "runs_tenant_idx" runs [("tenant_id", false), ("updated_at", true)],
    index "authoring_drafts_tenant_idx" authoringDrafts [("tenant_id", false), ("updated_at", true)],
    index "authoring_events_actor_idx" authoringEvents
      [("draft_id", false), ("event_type", false), ("actor", false)],
    .alterTable authoringDrafts [.addColumn (column "published_by" .text)]]

/-- The statuses of a run that may be cancelled. -/
def statusCheck : Check :=
  .oneOf "status" ["queued", "running", "retrying", "completed", "manual_review", "denied", "failed",
    "cancelled"]

/-- The columns of `006_retry_and_cancellation.sql`. -/
def retryColumns : List Statement :=
  [.alterTable runs [.addColumn (column "available_at" .timestamptz),
    .addColumn (required "attempt_limit" .integer (some (.value (.number 3)))),
    .addColumn (column "cancellation_requested_at" .timestamptz),
    .addColumn (column "cancellation_reason" .text)]]

/-- The index that `006_retry_and_cancellation.sql` replaces. -/
def readyIndex : Index :=
  ⟨"harness_runtime", "runs_ready_idx", "runs",
    [("status", false), ("available_at", false), ("lease_expires_at", false), ("created_at", false)],
    some ready⟩

def replaceIndex : List Statement :=
  [.dropIndex "harness_runtime" "runs_ready_idx", .createIndex readyIndex]

/-- The check that `006_retry_and_cancellation.sql` replaces. -/
def replaceCheck : List Statement :=
  [.alterTable runs [.dropConstraint "runs_status_check"],
    .alterTable runs [.addConstraint ⟨some "runs_status_check", .check statusCheck⟩]]

/-- `006_retry_and_cancellation.sql`. -/
def retryAndCancellation : List Statement := retryColumns ++ (replaceIndex ++ replaceCheck)

/-- The first statement of `007_tenant_integrity.sql`. -/
def dropPlanKey : Statement := .alterTable runs [.dropConstraint "runs_plan_digest_fkey"]

/-- The second statement of `007_tenant_integrity.sql`. -/
def plansKey : Statement := .alterTable plans [.dropConstraint "plans_pkey"]

/-- `007_tenant_integrity.sql`, once the primary key of plans was dropped. -/
def tenantKeys : List Statement :=
  [.alterTable plans [.addConstraint ⟨some "plans_pkey", .primaryKey ["tenant_id", "plan_digest"]⟩],
    .alterTable runs [.dropConstraint "runs_idempotency_key_key"],
    .alterTable runs [.addConstraint
      ⟨some "runs_tenant_idempotency_key", .unique ["tenant_id", "idempotency_key"]⟩],
    .alterTable runs [.addConstraint ⟨some "runs_tenant_plan_fkey",
      .foreignKey ["tenant_id", "plan_digest"] plans ["tenant_id", "plan_digest"] false⟩],
    .alterTable runs [.addConstraint ⟨some "runs_tenant_run_key", .unique ["tenant_id", "run_id"]⟩],
    .alterTable runs [.addColumn (column "request_digest" .text)],
    .fillText runs "request_digest" "legacy:" "idempotency_key",
    .alterTable runs [.setNotNull "request_digest"],
    .alterTable receipts [.addColumn (column "tenant_id" .text)],
    .fillFrom receipts "tenant_id" runs "run_id" "tenant_id",
    .alterTable receipts [.setNotNull "tenant_id"],
    .alterTable receipts [.addConstraint ⟨some "receipts_tenant_run_fkey",
      .foreignKey ["tenant_id", "run_id"] runs ["tenant_id", "run_id"] true⟩],
    index "gateway_receipts_tenant_created_idx" receipts [("tenant_id", false), ("created_at", true)]]

/-- `007_tenant_integrity.sql`. -/
def tenantIntegrity : List Statement :=
  dropPlanKey :: plansKey :: tenantKeys

/-- The scripts before the last. -/
def earlier : List (String × List Statement) :=
  [("001_initial.sql", initial), ("002_observability.sql", observability),
    ("003_authoring_plane.sql", authoringPlane), ("004_agent_skill_registry.sql", agentSkillRegistry),
    ("005_tenancy_and_duties.sql", tenancyAndDuties),
    ("006_retry_and_cancellation.sql", retryAndCancellation)]

/-- The scripts of the directory, by name. -/
def migrations : List (String × List Statement) :=
  earlier ++ [("007_tenant_integrity.sql", tenantIntegrity)]

/-! ## The first run -/

/-- The catalog after all migrations. -/
@[irreducible] def migrated : Catalog := ((catalogAfter migrations .empty).toOption).getD .empty

theorem catalogAfter_migrations : catalogAfter migrations .empty = .ok migrated := by
  have hok : (catalogAfter migrations .empty).isOk = true := by decide +kernel
  rw [migrated]
  revert hok
  cases catalogAfter migrations .empty with
  | ok c => exact fun _ => rfl
  | error e => exact nofun

/-- **The first run of all migrations** succeeds. -/
theorem migrate_once (now : ℚ) :
    migrate now migrations .empty = (.ok (), ⟨migrated, fun _ => []⟩) :=
  migrate_empty catalogAfter_migrations

/-! ## A run after that -/

/-- The check of a status is dropped and added again, and the rows have to satisfy it. -/
def statusEffect : RowEffect := .satisfy runs ⟨"runs_status_check", .check statusCheck, none⟩

/-- What the scripts find in a catalog when they are executed again. -/
@[mk_iff] structure SettledCatalog (c : Catalog) : Prop where
  unique : ∀ table ∈ c.tables, c.table? table.name = some table
  settled : ∀ s ∈ initial ++ observability ++ authoringPlane ++ agentSkillRegistry ++
    tenancyAndDuties ++ retryColumns ++ [dropPlanKey], s.Settled c
  sorted : c.indexes.Pairwise fun x y => x.name < y.name
  mem_ready : readyIndex ∈ c.indexes
  ready_free : ¬ Catalog.HasRelation { c with indexes := [] } readyIndex.schema readyIndex.name
  status_free : c.dependents runs "runs_status_check" = []
  runs : ∃ table ∈ c.table? runs, (table.constraints.Pairwise fun x y => x.name < y.name) ∧
    ⟨"runs_status_check", .check statusCheck, none⟩ ∈ table.constraints ∧
    (∀ key ∈ readyIndex.keys, table.column? key.1 ≠ none) ∧ table.column? statusCheck.column ≠ none
  plans : ∃ table ∈ c.table? plans, ∃ k ∈ table.constraints, k.name = "plans_pkey"
  dependents : c.dependents Persistence.plans "plans_pkey" = ["runs_tenant_plan_fkey"]

theorem settledCatalog_migrated : SettledCatalog migrated := by
  rw [settledCatalog_iff]
  decide +kernel

namespace SettledCatalog

variable {c : Catalog} (h : SettledCatalog c)
include h

/-- The scripts before the last two ask for what is there. -/
theorem steps_settled : ∀ file ∈ [initial, observability, authoringPlane, agentSkillRegistry,
    tenancyAndDuties, retryColumns, [dropPlanKey]], steps file c = .ok (c, []) := by
  intro file hfile
  refine steps_of_settled h.unique fun s hs => h.settled s ?_
  simp only [List.mem_append]
  simp only [List.mem_cons, List.not_mem_nil, or_false] at hfile
  rcases hfile with rfl | rfl | rfl | rfl | rfl | rfl | rfl <;> simp only [hs, true_or, or_true]

/-- An index and a check are replaced by themselves, and the rows have to satisfy the check. -/
theorem steps_retry : steps retryAndCancellation c = .ok (c, [statusEffect]) := by
  obtain ⟨table, htable, hsorted, hk, hkeys, hstatus⟩ := h.runs
  have hcolumns : steps retryColumns c = .ok (c, []) := h.steps_settled _ (by simp)
  have hindex : steps replaceIndex c = .ok (c, []) :=
    steps_replaceIndex h.sorted h.mem_ready htable hkeys h.ready_free
  have hcheck : steps replaceCheck c = .ok (c, [statusEffect]) :=
    steps_replaceCheck h.unique htable hsorted hk h.status_free hstatus
  rw [retryAndCancellation, steps_append, hcolumns, andThen_nil, steps_append, hindex, andThen_nil, hcheck]

/-- The primary key of plans cannot be dropped. -/
theorem step_plansKey :
    plansKey.step c = .error (.dependent "plans_pkey" ["runs_tenant_plan_fkey"]) := by
  obtain ⟨table, htable, hk⟩ := h.plans
  rw [plansKey, Statement.step, List.foldl_cons, List.foldl_nil]
  change Step.andThen (.ok (c, [])) _ = _
  rw [andThen_nil, Alteration.step, htable]
  refine (if_pos hk).trans ?_
  rw [h.dependents]
  rfl

end SettledCatalog

section

variable {now : ℚ} {db db' : Database} {n : ℕ}

/-- The scripts before the last change nothing. -/
theorem runFile_earlier (hcatalog : db.catalog = migrated) (h : Consistent db)
    (file : String × List Statement) (hfile : file ∈ earlier) : runFile now file.2 db = .ok db := by
  have hsettled : SettledCatalog db.catalog := hcatalog ▸ settledCatalog_migrated
  have hinert : ∀ file, steps file db.catalog = .ok (db.catalog, []) → runFile now file db = .ok db :=
    fun _ hsteps => runFile_of_inert hsteps rfl
  simp only [earlier, List.mem_cons, List.not_mem_nil, or_false] at hfile
  rcases hfile with rfl | rfl | rfl | rfl | rfl | rfl
  iterate 5 exact hinert _ (hsettled.steps_settled _ (by simp))
  -- The last of them asks the rows for the check that they satisfy.
  obtain ⟨table, htable, -, hk, -⟩ := hsettled.runs
  refine runFile_of_inert hsettled.steps_retry ?_
  rw [List.foldlM_cons, statusEffect, h.satisfies ⟨table, htable, hk⟩]
  rfl

/-- The last script fails. -/
theorem runFile_tenantIntegrity (hcatalog : db.catalog = migrated) :
    runFile now tenantIntegrity db = .error (.dependent "plans_pkey" ["runs_tenant_plan_fkey"]) := by
  have hsettled : SettledCatalog db.catalog := hcatalog ▸ settledCatalog_migrated
  have hfirst : steps [dropPlanKey] db.catalog = .ok (db.catalog, []) :=
    hsettled.steps_settled _ (by simp)
  exact runFile_error hfirst hsettled.step_plansKey

/-- **A run after all migrations changes nothing, and fails**: the primary key of plans cannot be dropped. -/
theorem migrate_again (hcatalog : db.catalog = migrated) (h : Consistent db) :
    migrate now migrations db = (.error ("007_tenant_integrity.sql",
      .dependent "plans_pkey" ["runs_tenant_plan_fkey"]), db) := by
  rw [migrations, migrate_append_of_inert (runFile_earlier hcatalog h), migrate,
    runFile_tenantIntegrity hcatalog]

/-! ## Runs with writes between them -/

/-- What so many complete runs of all migrations, and writes between them, come to. -/
inductive Reached : ℕ → Database → Prop
  | empty : Reached 0 .empty
  | write {n : ℕ} {db db' : Database} : Reached n db → db.Writes db' → Reached n db'
  | run {n : ℕ} {db db' : Database} (now : ℚ) : Reached n db →
      migrate now migrations db = (.ok (), db') → Reached (n + 1) db'

/-- **There is no other complete run.** -/
theorem Reached.once (h : Reached n db) :
    n = 0 ∧ db = .empty ∨ n = 1 ∧ db.catalog = migrated ∧ Consistent db := by
  induction h with
  | empty => exact .inl ⟨rfl, rfl⟩
  | @write n db db' h hwrites ih =>
    obtain ⟨hcatalog, hconsistent⟩ := hwrites
    rcases ih with ⟨rfl, rfl⟩ | ⟨rfl, hmigrated, -⟩
    · -- There is no table to write to.
      refine .inl ⟨rfl, ?_⟩
      obtain ⟨catalog, rows⟩ := db'
      obtain rfl : catalog = .empty := hcatalog
      obtain rfl : rows = fun _ => [] := funext fun t => hconsistent.rows t rfl
      rfl
    · exact .inr ⟨rfl, hcatalog.trans hmigrated, hconsistent⟩
  | @run n db db' now h hrun ih =>
    rcases ih with ⟨rfl, rfl⟩ | ⟨rfl, hmigrated, hconsistent⟩
    · obtain ⟨-, rfl⟩ := Prod.mk.inj ((migrate_once now).symm.trans hrun)
      exact .inr ⟨rfl, rfl, consistent_of_empty migrated⟩
    · rw [migrate_again hmigrated hconsistent] at hrun
      cases hrun

/-- Migrations can be run on the database: every statement succeeds, and nothing changes. -/
def Rerunnable (now : ℚ) (db : Database) : Prop := migrate now migrations db = (.ok (), db)

/-- **Migrations cannot be run again**: after a complete run, whatever is written then, every run fails at
the primary key of plans. Before, a run creates the tables. -/
theorem migrations_not_rerunnable (h : Reached n db) (now : ℚ) :
    ¬ Rerunnable now db ∧ (0 < n → migrate now migrations db = (.error ("007_tenant_integrity.sql",
      .dependent "plans_pkey" ["runs_tenant_plan_fkey"]), db)) := by
  rw [Rerunnable]
  rcases h.once with ⟨rfl, rfl⟩ | ⟨rfl, hmigrated, hconsistent⟩
  · refine ⟨fun hrun => ?_, fun hpos => absurd hpos (by decide)⟩
    rw [migrate_once] at hrun
    have hcatalog : migrated = .empty := congrArg (fun r => r.2.catalog) hrun
    have hready := settledCatalog_migrated.mem_ready
    rw [hcatalog] at hready
    cases hready
  · rw [migrate_again hmigrated hconsistent]
    exact ⟨nofun, fun _ => rfl⟩

theorem migrations_not_rerunnable_sample : ¬ Rerunnable 0 ⟨migrated, fun _ => []⟩ :=
  (migrations_not_rerunnable (.run 0 .empty (migrate_once 0)) 0).1

/-- **A second run fails** on a database that nothing was written to. -/
theorem second_run_fails : Reached 1 ⟨migrated, fun _ => []⟩ ∧
    ¬ Rerunnable 0 ⟨migrated, fun _ => []⟩ := by
  refine ⟨.run 0 .empty (migrate_once 0), fun hrun => ?_⟩
  have hagain := @migrate_again 0 ⟨migrated, fun _ => []⟩ rfl (consistent_of_empty migrated)
  cases hagain.symm.trans hrun

end

end Persistence

end HarnessFramework
