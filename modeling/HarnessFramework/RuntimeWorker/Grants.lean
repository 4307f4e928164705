import HarnessFramework.Contracts.Schemas
import HarnessFramework.Execution.Envelope
import Mathlib.Algebra.Order.Floor.Ring
import Mathlib.Tactic.Linarith

/-!
# Grants and deadlines

What `workOnce` of `apps/runtime-worker/src/worker.ts` gives a provider: an invocation with a deadline, and
a grant that `mintRuntimeGrant` of `packages/execution-auth` mints for it. The budget of the plan is an
integer of milliseconds. The grant lives for whole seconds, half a minute longer than the budget, but for an
hour at most. A signature is as good as the claims under it, so grants are their claims.

## Main definitions

* `TimeValue` — what a `Date` holds
* `mintRuntimeGrant`, `verifyRuntimeGrant` — grants
* `prepareInvocation` — the grant and the invocation of a claimed run
* `Covered` — the grant covers the invocation

## Main results

* `maxDurationMs_mem` — the budgets that the schema admits
* `verifyRuntimeGrant_of_le` — a grant that expires no earlier than a deadline verifies until then
* `covered_iff`, `grant_covers_iff` — exactly when the grant covers the invocation
-/

namespace HarnessFramework

namespace RuntimeWorker

open Persistence Execution Schema

/-! ## Dates -/

/-- The latest time that a `Date` can hold, in milliseconds of the epoch. -/
def maxTimeValue : ℤ := 8640000000000000

/-- What a `Date` holds: milliseconds of the epoch. -/
structure TimeValue where
  ms : ℤ
  ms_mem : -maxTimeValue ≤ ms ∧ ms ≤ maxTimeValue
deriving DecidableEq

/-- `new Date(ms)`, unless it is an invalid date. -/
def TimeValue.ofMs? (ms : ℤ) : Option TimeValue :=
  if h : -maxTimeValue ≤ ms ∧ ms ≤ maxTimeValue then some ⟨ms, h⟩ else none

/-- The time, in seconds. -/
def TimeValue.time (t : TimeValue) : Time := t.ms / 1000

theorem TimeValue.ofMs?_eq_some {ms : ℤ} {t : TimeValue} :
    TimeValue.ofMs? ms = some t ↔ t.ms = ms := by
  obtain ⟨ms', hms'⟩ := t
  simp only [TimeValue.ofMs?, Option.dite_none_right_eq_some, Option.some.injEq, TimeValue.mk.injEq]
  exact ⟨fun ⟨_, h⟩ => h.symm, fun h => ⟨h ▸ hms', h.symm⟩⟩

/-- The second of a time, as `jose` reads it off a `Date`. -/
theorem TimeValue.epochSeconds_time (t : TimeValue) : epochSeconds t.time = t.ms / 1000 := by
  rw [epochSeconds, TimeValue.time]
  exact_mod_cast Rat.floor_intCast_div_natCast t.ms 1000

/-! ## Grants -/

/-- A runtime grant, with times in seconds. -/
structure RuntimeGrant where
  claims : RuntimeGrantClaims
  jti : String
  iat : ℤ
  exp : ℤ
deriving DecidableEq

/-- The input of `mintRuntimeGrant`. -/
structure MintRuntimeGrantInput where
  grantId : String
  runId : String
  attempt : ℕ
  workerId : String
  planDigest : String
  fencingEpoch : ℕ
  ttlSeconds : ℤ

/-- `mintRuntimeGrant`. -/
def mintRuntimeGrant (now : Time) (input : MintRuntimeGrantInput) : RuntimeGrant :=
  let ttl := min 3600 (max 30 input.ttlSeconds)
  { claims := ⟨input.runId, input.attempt, input.workerId, input.planDigest, input.fencingEpoch⟩
    jti := input.grantId
    iat := epochSeconds now
    exp := epochSeconds now + ttl }

/-- `verifyRuntimeGrant`, with a tolerance of two seconds. -/
def verifyRuntimeGrant (now : Time) (grant : RuntimeGrant) : Except String RuntimeGrantClaims :=
  if grant.exp ≤ epochSeconds now - 2 then .error "\"exp\" claim timestamp check failed"
  else .ok grant.claims

/-- A grant that expires no earlier than a deadline verifies until then. -/
theorem verifyRuntimeGrant_of_le {grant : RuntimeGrant} {deadline now : Time}
    (hexp : deadline ≤ grant.exp) (hnow : now ≤ deadline) :
    verifyRuntimeGrant now grant = .ok grant.claims := by
  have hfloor : epochSeconds now ≤ grant.exp := by
    rw [epochSeconds, ← Int.floor_intCast (R := ℚ) grant.exp]
    exact Int.floor_le_floor (hnow.trans hexp)
  rw [verifyRuntimeGrant, if_neg]
  omega

/-! ## Budgets -/

/-- `plan.budgets.maxDurationMs`. -/
def maxDurationMs (plan : Json) : ℤ :=
  match (member? "budgets" plan).bind (member? "maxDurationMs") with
  | some (.num n) => n.toRat.num
  | _ => 0

/-- A member that a strict object requires. -/
theorem member?_of_parse {fields : List (String × Presence × Schema)}
    (hfields : (fields.map Prod.fst).Nodup) {value parsed : Json}
    (h : (strict fields).parse value = some parsed) (key : String) {schema : Schema}
    (hfield : (key, .required, schema) ∈ fields) :
    ∃ source value', schema.parse source = some value' ∧ member? key parsed = some value' := by
  cases value with
  | obj members =>
    rw [strict, Schema.parse] at h
    obtain ⟨-, h⟩ := Option.ite_none_right_eq_some.mp h
    obtain ⟨members', hmembers, h⟩ := Option.bind_eq_some_iff.mp h
    obtain rfl : Json.obj members' = parsed := by simpa using h
    have hpresent := isSome_parseFields.mp (Option.isSome_of_eq_some hmembers) _ hfield
    cases hlast : lastMember key members with
    | none => simp [hlast] at hpresent
    | some source =>
      obtain ⟨value', hvalue, hlast'⟩ := lastMember_parseFields hfields hmembers _ hfield hlast
      exact ⟨source, value', hvalue, hlast'⟩
  | null | bool | num | str | arr => cases h

/-- **The budgets that the schema admits.** -/
theorem maxDurationMs_mem {document plan : Json} (h : harnessPlanSchema.parse document = some plan) :
    1 ≤ maxDurationMs plan ∧ maxDurationMs plan < 2 ^ 53 := by
  obtain ⟨source, budgets, hbudgets, hmember⟩ := member?_of_parse (by decide) h "budgets"
    (.tail _ <| .tail _ <| .tail _ <| .tail _ <| .tail _ <| .tail _ <| .tail _ <| .tail _ <| .head _)
  obtain ⟨source', value, hvalue, hmember'⟩ := member?_of_parse (by decide) hbudgets
    "maxDurationMs" (.head _)
  rw [maxDurationMs, hmember, Option.bind_some, hmember']
  cases source' with
  | num n =>
    rw [integerFrom, integer, Schema.parse] at hvalue
    obtain ⟨haccepts, hvalue⟩ := Option.ite_none_right_eq_some.mp hvalue
    obtain rfl := Option.some_inj.mp hvalue
    obtain ⟨-, hsafe, hlow, -⟩ := of_decide_eq_true haccepts
    show 1 ≤ n.toRat.num ∧ n.toRat.num < 2 ^ 53
    omega
  | null | bool | str | arr | obj => cases hvalue

/-! ## Invocations -/

/-- `RuntimeInvocation`, without the version of its contract. The deadline is the time that its text
writes. -/
structure RuntimeInvocation where
  invocationId : String
  runId : String
  attempt : ℕ
  workerId : String
  leaseId : String
  fencingEpoch : ℕ
  deadlineAt : TimeValue
  planDigest : String
  executionProfileDigest : String
  executionGrant : RuntimeGrant
  plan : Json
  input : Jsonb

section

variable (sha256 : List Char → String)

/-- The id of an invocation. -/
def invocationId (run : RunRow) : String :=
  "INV-" ++ String.ofList ((stableDigest sha256 (.obj [("runId", .str run.runId),
    ("attempt", .nat run.attempt), ("fencingEpoch", .nat run.fencingEpoch)])).toList.take 32)

/-- `workOnce`, from the grant to the invocation, with the times at which the clock is read for one and for
the other. The text of an invalid date throws. -/
def prepareInvocation (minted now : TimeValue) (slotWorkerId executionProfileDigest : String)
    (plan : Json) (run : RunRow) : Except String RuntimeInvocation :=
  let executionGrant := mintRuntimeGrant minted.time
    { grantId := invocationId sha256 run
      runId := run.runId
      attempt := run.attempt
      workerId := slotWorkerId
      planDigest := run.planDigest
      fencingEpoch := run.fencingEpoch
      ttlSeconds := ⌈(maxDurationMs plan : ℚ) / 1000⌉ + 30 }
  match TimeValue.ofMs? (now.ms + maxDurationMs plan) with
  | none => .error "Invalid time value"
  | some deadlineAt => .ok
    { invocationId := invocationId sha256 run
      runId := run.runId
      attempt := run.attempt
      workerId := slotWorkerId
      leaseId := s!"{run.runId}:{run.attempt}:{run.fencingEpoch}"
      fencingEpoch := run.fencingEpoch
      deadlineAt
      planDigest := run.planDigest
      executionProfileDigest
      executionGrant
      plan
      input := run.input }

end

/-- **The grant covers the invocation**: the deadline is a date, the grant expires no earlier, and until
then it verifies. -/
def Covered (prepared : Except String RuntimeInvocation) : Prop :=
  ∃ invocation, prepared = .ok invocation ∧
    invocation.deadlineAt.time ≤ invocation.executionGrant.exp ∧
    ∀ now ≤ invocation.deadlineAt.time,
      verifyRuntimeGrant now invocation.executionGrant = .ok invocation.executionGrant.claims

section

variable {sha256 : List Char → String} {minted now : TimeValue} {slotWorkerId profileDigest : String}
  {document plan : Json} {run : RunRow}

/-- A budget in seconds, rounded up. -/
theorem ceil_seconds (ms : ℤ) : ⌈(ms : ℚ) / 1000⌉ = (ms + 999) / 1000 := by
  rw [Int.ceil_eq_iff]
  have hdiv := Int.ediv_mul_add_emod (ms + 999) 1000
  have hnonneg := Int.emod_nonneg (ms + 999) (show (1000 : ℤ) ≠ 0 by decide)
  have hlt := Int.emod_lt_of_pos (ms + 999) (show (0 : ℤ) < 1000 by decide)
  generalize (ms + 999) / 1000 = q at *
  have hlow : (q * 1000 : ℚ) < ms + 1000 := by exact_mod_cast (by omega : q * 1000 < ms + 1000)
  have hhigh : (ms : ℚ) ≤ q * 1000 := by exact_mod_cast (by omega : ms ≤ q * 1000)
  constructor <;> linarith

/-- A deadline is not after the end of a second. -/
theorem time_le_iff {t : TimeValue} {second : ℤ} : t.time ≤ second ↔ t.ms ≤ second * 1000 := by
  rw [TimeValue.time, div_le_iff₀ (by norm_num)]
  exact_mod_cast Iff.rfl

/-- **Exactly when the grant covers the invocation**: from the second of the grant the budget ends within
the hour, signing takes no longer than the margin allows, and the deadline is a date. -/
theorem covered_iff (hplan : harnessPlanSchema.parse document = some plan)
    (hclock : minted.ms ≤ now.ms) :
    Covered (prepareInvocation sha256 minted now slotWorkerId profileDigest plan run) ↔
      (now.ms - minted.ms / 1000 * 1000 + maxDurationMs plan ≤ 3600000 ∧
        now.ms - minted.ms / 1000 * 1000 + maxDurationMs plan ≤
          ((maxDurationMs plan + 999) / 1000 + 30) * 1000) ∧
      now.ms + maxDurationMs plan ≤ maxTimeValue := by
  obtain ⟨hpos, -⟩ := maxDurationMs_mem hplan
  have hms := now.ms_mem
  cases hdate : TimeValue.ofMs? (now.ms + maxDurationMs plan) with
  | none =>
    have hlate : ¬ now.ms + maxDurationMs plan ≤ maxTimeValue := by
      intro hle
      rw [TimeValue.ofMs?, dif_pos ⟨by omega, hle⟩] at hdate
      cases hdate
    simp [Covered, prepareInvocation, hdate, hlate]
  | some deadline =>
    have hdeadline := TimeValue.ofMs?_eq_some.mp hdate
    have hle : now.ms + maxDurationMs plan ≤ maxTimeValue := hdeadline ▸ deadline.ms_mem.2
    have hcovered : Covered (prepareInvocation sha256 minted now slotWorkerId profileDigest plan run) ↔
        deadline.ms ≤ (minted.ms / 1000 +
          min 3600 (max 30 ((maxDurationMs plan + 999) / 1000 + 30))) * 1000 := by
      rw [← time_le_iff, ← ceil_seconds, ← TimeValue.epochSeconds_time]
      simp only [Covered, prepareInvocation, hdate, Except.ok.injEq, exists_eq_left', mintRuntimeGrant]
      exact ⟨And.left, fun h => ⟨h, fun t ht => verifyRuntimeGrant_of_le h ht⟩⟩
    rw [hcovered, hdeadline]
    omega

/-- With one reading of the clock, the margin is enough to sign the grant. -/
theorem covered_at_iff (hplan : harnessPlanSchema.parse document = some plan) :
    Covered (prepareInvocation sha256 now now slotWorkerId profileDigest plan run) ↔
      now.ms % 1000 + maxDurationMs plan ≤ 3600000 ∧ now.ms + maxDurationMs plan ≤ maxTimeValue := by
  rw [covered_iff hplan le_rfl]
  omega

end

namespace Sample

/-- A plan without nodes, with a budget in milliseconds. -/
def budgeted (ms : ℕ) : Json :=
  let digest := String.ofList (List.replicate 64 'a')
  .obj [("apiVersion", .str "harness.factory/plan-v1"), ("kind", .str "HarnessPlan"),
    ("planId", .str "plan"), ("planDigest", .str digest), ("packageDigest", .str digest),
    ("compiler", .obj [("name", .str "harnessc"), ("version", .str "1"),
      ("lgirCoreRevision", .str "0000000")]),
    ("metadata", .obj [("name", .str "n"), ("version", .str "1"), ("domain", .str "d"),
      ("objective", .str "o")]),
    ("execution", .obj [("engine", .obj [("kind", .str "langgraph-js"),
      ("adapterVersion", .str "harness-langgraph-v1"), ("profile", .str "poc-v1")]),
      ("maxTransitions", .nat 200), ("maxConcurrency", .nat 1), ("durability", .str "sync")]),
    ("budgets", .obj [("maxDurationMs", .nat ms), ("maxCostUsd", .nat 0), ("maxModelCalls", .nat 0),
      ("maxCapabilityCalls", .nat 0)]),
    ("schemas", .obj [("input", .obj []), ("output", .obj [])]), ("modelProfiles", .arr []),
    ("capabilities", .arr []), ("permissionEnvelopes", .arr []),
    ("graph", .obj [("apiVersion", .str "ladder.dev/v1alpha1"), ("name", .str "g"), ("nodes", .arr []),
      ("edges", .arr []), ("nodeOrder", .arr [])]), ("dependencyManifest", .arr [])]

/-- Two minutes, and a little more than an hour. -/
theorem parse_budgeted : ∀ ms ∈ [120000, 3600001],
    harnessPlanSchema.parse (budgeted ms) = some (budgeted ms) ∧ maxDurationMs (budgeted ms) = ms := by
  decide +kernel

/-- 2026-01-01T00:00:00.000Z. -/
def newYear : TimeValue := ⟨1767225600000, by decide⟩

/-- A run of the plan that was claimed. -/
def claimedRun : RunRow :=
  (newRun (fun _ => "") 0 "run" ⟨String.ofList (List.replicate 64 'a'), .null, "key", "tenant"⟩).claim
    0 "worker" 60

end Sample

/-- **A grant covers its invocation** exactly if, from the second in which it was minted, the budget ends
within the hour and within its own margin, and the deadline is a date; with one reading of the clock, exactly
if the budget and the milliseconds of the clock are an hour at most, and the deadline is a date. -/
theorem grant_covers_iff {sha256 : List Char → String} {slotWorkerId profileDigest : String}
    {document plan : Json} {run : RunRow} (hplan : harnessPlanSchema.parse document = some plan) :
    (∀ minted now : TimeValue, minted.ms ≤ now.ms →
      (Covered (prepareInvocation sha256 minted now slotWorkerId profileDigest plan run) ↔
        (now.ms - minted.ms / 1000 * 1000 + maxDurationMs plan ≤ 3600000 ∧
          now.ms - minted.ms / 1000 * 1000 + maxDurationMs plan ≤
            ((maxDurationMs plan + 999) / 1000 + 30) * 1000) ∧
        now.ms + maxDurationMs plan ≤ maxTimeValue)) ∧
    ∀ now : TimeValue,
      Covered (prepareInvocation sha256 now now slotWorkerId profileDigest plan run) ↔
        now.ms % 1000 + maxDurationMs plan ≤ 3600000 ∧ now.ms + maxDurationMs plan ≤ maxTimeValue :=
  ⟨fun _ _ hclock => covered_iff hplan hclock, fun _ => covered_at_iff hplan⟩

theorem grant_covers_iff_sample :
    Covered (prepareInvocation (fun _ => "") Sample.newYear Sample.newYear "worker" "profile"
      (Sample.budgeted 120000) Sample.claimedRun) := by
  obtain ⟨hparse, hms⟩ := Sample.parse_budgeted 120000 (by decide)
  rw [(grant_covers_iff hparse).2, hms]
  decide

/-- **A grant need not cover its invocation**: a plan may ask for more than an hour. -/
theorem grant_not_covering :
    harnessPlanSchema.parse (Sample.budgeted 3600001) = some (Sample.budgeted 3600001) ∧
      ¬ Covered (prepareInvocation (fun _ => "") Sample.newYear Sample.newYear "worker" "profile"
        (Sample.budgeted 3600001) Sample.claimedRun) := by
  obtain ⟨hparse, hms⟩ := Sample.parse_budgeted 3600001 (by decide)
  refine ⟨hparse, ?_⟩
  rw [covered_at_iff hparse, hms]
  decide

end RuntimeWorker

end HarnessFramework
