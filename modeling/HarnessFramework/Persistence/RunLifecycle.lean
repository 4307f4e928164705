import HarnessFramework.Persistence.RunTable
import Mathlib.Logic.Relation

/-!
# The life of a run

Workers, operators and sweepers issue the statements of `RunTable` in any order, while the clock
advances. Workers may stop at any point; fenced writes carry what `claimRun` returned to the worker.

## Main definitions

* `RunOp` — the statements, with `RunOp.exec` and `RunOp.claimed`
* `RunSystem`, `RunSystem.Step`, `RunSystem.Reachable` — the run table and the leases issued so far
* `RunChange` — what a statement may do to one row
* `RunSystem.Valid` — the invariant
* `Safe` — what the invariant promises for the rest of the life of a run

## Main results

* `RunOp.exec_evolves` — a statement does one of eleven things to every row
* `Reachable.valid` — the invariant holds in every reachable state
* `run_lifecycle` — every reachable state is safe
* `selected_iff` — the runs that some sweeper selects once they are quiet
-/

namespace HarnessFramework

namespace Persistence

/-! ## The system -/

/-- A statement on the run table. -/
inductive RunOp
  | createRun (uuid : String) (input : CreateRunInput)
  | claimRun (workerId : String) (leaseSeconds : ℚ) (locked : List String)
  | renewLease (l : Lease) (leaseSeconds : ℚ)
  | scheduleRunRetry (l : Lease) (errorCode : String) (backoffMs : ℚ)
  | failExhaustedRuns
  | requestRunCancellation (runId tenantId reason : String)
  | completeCancelledRun (runId : String) (errorCode : Option String)
  | finalizeAbandonedCancellations
  | updateRunNode (l : Lease) (nodeId checkpointId : Option String)
  | completeRun (l : Lease) (input : CompleteRunInput)

section

variable (sha256 : List Char → String) (now : Time)

/-- The table after a statement. -/
def RunOp.exec (rows : List RunRow) : RunOp → List RunRow
  | createRun uuid input => (Persistence.createRun sha256 now uuid input rows).2
  | claimRun workerId leaseSeconds locked =>
    (Persistence.claimRun now workerId leaseSeconds locked rows).2
  | renewLease l leaseSeconds => (Persistence.renewLease now l leaseSeconds rows).2
  | scheduleRunRetry l errorCode backoffMs =>
    (Persistence.scheduleRunRetry now l errorCode backoffMs rows).2
  | failExhaustedRuns => (Persistence.failExhaustedRuns now rows).2
  | requestRunCancellation runId tenantId reason =>
    (Persistence.requestRunCancellation now runId tenantId reason rows).2
  | completeCancelledRun runId errorCode =>
    (Persistence.completeCancelledRun now runId errorCode rows).2
  | finalizeAbandonedCancellations => (Persistence.finalizeAbandonedCancellations now rows).2
  | updateRunNode l nodeId checkpointId =>
    (Persistence.updateRunNode now l nodeId checkpointId rows).2
  | completeRun l input => (Persistence.completeRun now l input rows).2

/-- The lease that a statement issues. -/
def RunOp.claimed (rows : List RunRow) : RunOp → Option Lease
  | claimRun workerId leaseSeconds locked =>
    (Persistence.claimRun now workerId leaseSeconds locked rows).1.map fun r =>
      ⟨r.runId, workerId, r.fencingEpoch⟩
  | _ => none

/-- The lease that a statement is fenced by. -/
def RunOp.lease? : RunOp → Option Lease
  | renewLease l _ => some l
  | scheduleRunRetry l _ _ => some l
  | updateRunNode l _ _ => some l
  | completeRun l _ => some l
  | _ => none

/-- The run table, the clock and the leases that were issued. -/
structure RunSystem where
  runs : List RunRow
  clock : Time
  issued : List Lease

namespace RunSystem

/-- The state after a statement. -/
def after (s : RunSystem) (op : RunOp) : RunSystem where
  runs := op.exec sha256 now s.runs
  clock := s.clock
  issued := s.issued ++ (op.claimed now s.runs).toList

/-- A statement, or an advance of the clock. A transaction may have started before the statement. -/
inductive Step : RunSystem → RunSystem → Prop
  | op (s) (op : RunOp) (now : Time) : now ≤ s.clock → (∀ l ∈ op.lease?, l ∈ s.issued) →
      Step s (s.after sha256 now op)
  | advance (s) (clock : Time) : s.clock ≤ clock → Step s { s with clock }

/-- Steps that follow one another. -/
abbrev Steps : RunSystem → RunSystem → Prop := Relation.ReflTransGen (Step sha256)

/-- No run, at some time. -/
def start (clock : Time) : RunSystem := ⟨[], clock, []⟩

/-- The states that steps reach. -/
def Reachable (s : RunSystem) : Prop := ∃ clock, Steps sha256 (start clock) s

end RunSystem

end

/-! ## What a statement does to a row -/

/-- What a statement does to a row, when the leases `issued` were issued. -/
inductive RunChange (issued : List Lease) (now : Time) : RunRow → RunRow → Prop
  | same (r) : RunChange issued now r r
  | claim (r) (workerId) (leaseSeconds) : Claimable now r →
      RunChange issued now r (r.claim now workerId leaseSeconds)
  | renew (r) (l : Lease) (leaseSeconds) : l ∈ issued → l.Holds r →
      RunChange issued now r (r.renew now leaseSeconds)
  | retry (r) (l : Lease) (errorCode backoffMs) : l ∈ issued → l.Holds r →
      r.attempt < r.attemptLimit → RunChange issued now r (r.retry now errorCode backoffMs)
  | exhaust (r) : Exhausted r → RunChange issued now r (r.exhaust now)
  | request (r) (reason) : ¬ r.status.Terminal →
      RunChange issued now r (r.requestCancellation now reason)
  | acknowledge (r) (errorCode) : CancelRequested r.runId r →
      RunChange issued now r (r.cancel now errorCode "runtime.cancelled")
  | abandon (r) : Abandoned now r →
      RunChange issued now r (r.cancel now none "runtime.cancelled_lease_expired")
  | atNode (r) (l : Lease) (nodeId checkpointId) : l ∈ issued → l.Holds r →
      RunChange issued now r (r.atNode now nodeId checkpointId)
  | complete (r) (l : Lease) (input) : l ∈ issued → l.Holds r →
      RunChange issued now r (r.complete now input)

/-- The row is one that `createRun` inserts, under an id that no row has. -/
def Created (sha256 : List Char → String) (now : Time) (rows : List RunRow) (r : RunRow) : Prop :=
  (∃ runId input, r = newRun sha256 now runId input) ∧ ∀ r' ∈ rows, r'.runId ≠ r.runId

section

variable {sha256 : List Char → String} {now : Time} {rows : List RunRow} {issued : List Lease}

theorem selectRun_eq_some {locked : List String} {r : RunRow} (h : selectRun now locked rows = some r) :
    r ∈ rows ∧ Claimable now r := by
  have hmem := List.mem_of_mem_head? h
  rw [List.mem_insertionSort, List.mem_filter, decide_eq_true_eq] at hmem
  exact ⟨hmem.1, hmem.2.1⟩

theorem not_terminal_iff {status : RunStatus} :
    ¬ status.Terminal ↔ status ∈ [.queued, .running, .retrying] := by
  cases status <;> decide

/-- **What a statement does to the table.** -/
theorem RunOp.exec_evolves (hids : (rows.map (·.runId)).Nodup) (op : RunOp)
    (hlease : ∀ l ∈ op.lease?, l ∈ issued) :
    Evolves (RunChange issued now) (Created sha256 now rows) rows (op.exec sha256 now rows) := by
  have hsame : ∀ r ∈ rows, RunChange issued now r r := fun r _ => .same r
  have hone {r r' : RunRow} (hr : r ∈ rows) (hr' : r' ∈ rows) (hid : r.runId = r'.runId) : r = r' :=
    List.inj_on_of_nodup_map hids hr hr' hid
  cases op with
  | createRun uuid input =>
    simp only [exec, Persistence.createRun]
    split
    · split <;> exact evolves_refl hsame
    · split
      · exact evolves_refl hsame
      · next hno =>
        refine evolves_append hsame ⟨⟨_, input, rfl⟩, fun r hr hid => hno ⟨r, hr, hid⟩⟩
  | claimRun workerId leaseSeconds locked =>
    simp only [exec, Persistence.claimRun]
    split
    · exact evolves_refl hsame
    · next selected hsel =>
      obtain ⟨hmem, hclaim⟩ := selectRun_eq_some hsel
      refine evolves_updateWhere (fun r hr hid => ?_) hsame
      rw [hone hr hmem hid]
      exact .claim _ workerId leaseSeconds hclaim
  | renewLease l leaseSeconds =>
    exact evolves_updateWhere (fun r _ hg => .renew r l leaseSeconds (hlease l rfl) hg) hsame
  | scheduleRunRetry l errorCode backoffMs =>
    exact evolves_updateWhere
      (fun r _ hg => .retry r l errorCode backoffMs (hlease l rfl) hg.1 hg.2) hsame
  | failExhaustedRuns => exact evolves_updateWhere (fun r _ hg => .exhaust r hg) hsame
  | requestRunCancellation runId tenantId reason =>
    simp only [exec, Persistence.requestRunCancellation]
    split
    · exact evolves_refl hsame
    · next current hfind =>
      split
      · exact evolves_refl hsame
      · next hstatus =>
        have hmem := List.mem_of_find?_eq_some hfind
        have hfound : current.runId = runId ∧ current.tenantId = tenantId := by
          simpa using List.find?_some hfind
        refine evolves_updateWhere (fun r hr hid => ?_) hsame
        rw [hone hr hmem (hid.trans hfound.1.symm)]
        exact .request current reason (not_terminal_iff.mpr (not_not.mp hstatus))
  | completeCancelledRun runId errorCode =>
    refine evolves_updateWhere (fun r _ hg => ?_) hsame
    obtain ⟨rfl, hg⟩ := hg
    exact .acknowledge r errorCode ⟨rfl, hg⟩
  | finalizeAbandonedCancellations => exact evolves_updateWhere (fun r _ hg => .abandon r hg) hsame
  | updateRunNode l nodeId checkpointId =>
    exact evolves_updateWhere
      (fun r _ hg => .atNode r l nodeId checkpointId (hlease l rfl) hg) hsame
  | completeRun l input =>
    exact evolves_updateWhere (fun r _ hg => .complete r l input (hlease l rfl) hg) hsame

/-- A statement keeps the ids of the runs, and adds at most a new one. -/
theorem RunOp.nodup_exec (hids : (rows.map (·.runId)).Nodup) (op : RunOp) :
    ((op.exec sha256 now rows).map (·.runId)).Nodup := by
  have hupdate {guard : RunRow → Prop} [DecidablePred guard] {set : RunRow → RunRow}
      (hset : ∀ r, guard r → (set r).runId = r.runId) :
      ((updateWhere guard set rows).map (·.runId)).Nodup := by rwa [map_updateWhere hset]
  cases op with
  | createRun uuid input =>
    simp only [exec, Persistence.createRun]
    split
    · split <;> exact hids
    · split
      · exact hids
      · next hno =>
        rw [List.map_append, List.nodup_append]
        refine ⟨hids, List.nodup_singleton _, ?_⟩
        rintro _ hr _ hr' rfl
        obtain ⟨r, hr, hid⟩ := List.mem_map.mp hr
        rw [List.map_singleton, List.mem_singleton] at hr'
        exact hno ⟨r, hr, hid.trans hr'⟩
  | claimRun workerId leaseSeconds locked =>
    simp only [exec, Persistence.claimRun]
    split
    · exact hids
    · exact hupdate fun _ _ => rfl
  | requestRunCancellation runId tenantId reason =>
    simp only [exec, Persistence.requestRunCancellation]
    split
    · exact hids
    · split
      · exact hids
      · exact hupdate fun _ _ => rfl
  | _ => exact hupdate fun _ _ => rfl

/-- The lease that a statement issues names the new epoch of the run that it claims. -/
theorem RunOp.claimed_eq_some {op : RunOp} {l : Lease} (h : op.claimed now rows = some l) :
    ∃ r ∈ rows, Claimable now r ∧ ∃ workerId leaseSeconds, l = ⟨r.runId, workerId, r.fencingEpoch + 1⟩ ∧
      r.claim now workerId leaseSeconds ∈ op.exec sha256 now rows := by
  cases op with
  | claimRun workerId leaseSeconds locked =>
    simp only [claimed, Persistence.claimRun] at h
    split at h
    · cases h
    · next selected hsel =>
      obtain ⟨hmem, hclaim⟩ := selectRun_eq_some hsel
      obtain rfl := Option.some_inj.mp h
      refine ⟨selected, hmem, hclaim, workerId, leaseSeconds, rfl, ?_⟩
      simp only [exec, Persistence.claimRun, hsel]
      exact mem_updateWhere.mpr ⟨selected, hmem, .inl ⟨rfl, rfl⟩⟩
  | _ => cases h

/-- A fenced write leaves runs alone that its lease does not hold. -/
theorem RunOp.exec_eq_self {op : RunOp} {l : Lease} (hl : op.lease? = some l)
    (h : ∀ r ∈ rows, ¬ l.Holds r) : op.exec sha256 now rows = rows := by
  cases op with
  | renewLease => cases hl; exact updateWhere_eq_self h
  | scheduleRunRetry => cases hl; exact updateWhere_eq_self fun r hr hg => h r hr hg.1
  | updateRunNode => cases hl; exact updateWhere_eq_self h
  | completeRun => cases hl; exact updateWhere_eq_self h
  | _ => cases hl

/-! ## The invariant -/

/-- What holds of a run when the leases `issued` were issued. -/
structure RunRow.Valid (issued : List Lease) (r : RunRow) : Prop where
  attempts : r.attempt ≤ r.attemptLimit
  /-- A running run has a lease. -/
  leased : r.status = .running → r.leaseExpiresAt.isSome
  /-- A run that is to be cancelled is running or cancelled. -/
  cancelled : r.cancellationRequestedAt.isSome → r.status = .running ∨ r.status = .cancelled
  /-- No lease is ahead of the run. -/
  epochs : ∀ l ∈ issued, l.runId = r.runId → l.fencingEpoch ≤ r.fencingEpoch
  /-- Every lease is behind a run that is to be cancelled. -/
  revoked : r.cancellationRequestedAt.isSome →
    ∀ l ∈ issued, l.runId = r.runId → l.fencingEpoch < r.fencingEpoch

/-- A lease that holds a run is not behind it. -/
theorem RunRow.Valid.not_requested {r : RunRow} (h : r.Valid issued) {l : Lease} (hl : l ∈ issued)
    (hg : l.Holds r) : ¬ r.cancellationRequestedAt.isSome := by
  intro hc
  have := h.revoked hc l hl hg.1.symm
  rw [hg.2.2.1] at this
  exact lt_irrefl _ this

/-- What a statement does to a row keeps it valid. -/
theorem RunChange.valid {r r' : RunRow} (h : RunChange issued now r r') (hr : r.Valid issued) :
    r'.Valid issued := by
  cases h with
  | same => exact hr
  | claim workerId leaseSeconds hclaim =>
    obtain ⟨-, hno, hlt⟩ := hclaim
    refine ⟨hlt, fun _ => rfl, ?_, fun l hl hid => Nat.le_succ_of_le (hr.epochs l hl hid), ?_⟩
    · simp [RunRow.claim, hno]
    · simp [RunRow.claim, hno]
  | renew l leaseSeconds hl hg =>
    exact ⟨hr.attempts, fun _ => rfl, hr.cancelled, hr.epochs, hr.revoked⟩
  | retry l errorCode backoffMs hl hg hlt =>
    have hno := hr.not_requested hl hg
    exact ⟨hr.attempts, nofun, fun hc => absurd hc hno, hr.epochs, hr.revoked⟩
  | exhaust hex =>
    refine ⟨hr.attempts, nofun, fun hc => ?_, hr.epochs, hr.revoked⟩
    rcases hr.cancelled hc with hs | hs <;> rcases hex.1 with hs' | hs' <;> cases hs.symm.trans hs'
  | request reason hstatus =>
    refine ⟨hr.attempts, ?_, ?_, fun l hl hid => Nat.le_succ_of_le (hr.epochs l hl hid),
      fun _ l hl hid => Nat.lt_succ_of_le (hr.epochs l hl hid)⟩
    · by_cases hs : r.status = .running
      · intro _
        simpa [RunRow.requestCancellation, hs] using hr.leased hs
      · simp [RunRow.requestCancellation, hs]
    · intro _
      by_cases hs : r.status = .running <;> simp [RunRow.requestCancellation, hs]
  | acknowledge errorCode hg =>
    exact ⟨hr.attempts, nofun, fun _ => .inr rfl, hr.epochs, hr.revoked⟩
  | abandon hg => exact ⟨hr.attempts, nofun, fun _ => .inr rfl, hr.epochs, hr.revoked⟩
  | atNode l nodeId checkpointId hl hg =>
    exact ⟨hr.attempts, hr.leased, hr.cancelled, hr.epochs, hr.revoked⟩
  | complete l input hl hg =>
    have hno := hr.not_requested hl hg
    refine ⟨hr.attempts, ?_, fun hc => absurd hc hno, hr.epochs, hr.revoked⟩
    simp only [RunRow.complete]
    cases input.status <;> nofun

/-- What holds in every reachable state. -/
structure RunSystem.Valid (s : RunSystem) : Prop where
  ids : (s.runs.map (·.runId)).Nodup
  rows : ∀ r ∈ s.runs, r.Valid s.issued
  known : ∀ l ∈ s.issued, ∃ r ∈ s.runs, r.runId = l.runId
  /-- No epoch of a run was issued twice. -/
  leases : (s.issued.map fun l => (l.runId, l.fencingEpoch)).Nodup

theorem newRun_valid {runId : String} {input : CreateRunInput}
    (h : ∀ l ∈ issued, l.runId ≠ runId) : (newRun sha256 now runId input).Valid issued :=
  ⟨Nat.zero_le _, nofun, nofun, fun l hl hid => absurd hid (h l hl), nofun⟩

/-- A lease for the current epoch of a run that is not to be cancelled keeps all runs valid. -/
theorem valid_append {l : Lease} {r : RunRow} (hids : (rows.map (·.runId)).Nodup)
    (h : ∀ r ∈ rows, r.Valid issued) (hr : r ∈ rows) (hid : l.runId = r.runId)
    (hepoch : l.fencingEpoch = r.fencingEpoch) (hno : r.cancellationRequestedAt = none) :
    ∀ r ∈ rows, r.Valid (issued ++ [l]) := by
  intro r' hr'
  have hv := h r' hr'
  have hone (hid' : l.runId = r'.runId) : r' = r :=
    List.inj_on_of_nodup_map hids hr' hr (hid'.symm.trans hid)
  refine ⟨hv.attempts, hv.leased, hv.cancelled, ?_, ?_⟩
  · intro l' hl' hid'
    rcases List.mem_append.mp hl' with hl' | hl'
    · exact hv.epochs l' hl' hid'
    · obtain rfl := List.mem_singleton.mp hl'
      rw [hone hid', hepoch]
  · intro hc l' hl' hid'
    rcases List.mem_append.mp hl' with hl' | hl'
    · exact hv.revoked hc l' hl' hid'
    · obtain rfl := List.mem_singleton.mp hl'
      rw [hone hid', hno] at hc
      cases hc

end

namespace RunSystem

section

variable {sha256 : List Char → String} {s s' : RunSystem}

/-- A statement keeps the state valid. -/
theorem Valid.after (h : s.Valid) {op : RunOp} {now : Time} (hlease : ∀ l ∈ op.lease?, l ∈ s.issued) :
    (s.after sha256 now op).Valid := by
  have hev : Evolves (RunChange s.issued now) (Created sha256 now s.runs) s.runs
      (op.exec sha256 now s.runs) := op.exec_evolves h.ids hlease
  have hids : ((op.exec sha256 now s.runs).map (·.runId)).Nodup := op.nodup_exec h.ids
  have hrows : ∀ r ∈ op.exec sha256 now s.runs, r.Valid s.issued := by
    refine hev.forall ?_ (fun r r' hr hc => hc.valid hr) h.rows
    rintro _ ⟨⟨runId, input, rfl⟩, hfresh⟩
    refine newRun_valid fun l hl hid => ?_
    obtain ⟨r, hr, hrid⟩ := h.known l hl
    exact hfresh r hr (hrid.trans hid)
  have hknown : ∀ l ∈ s.issued, ∃ r ∈ op.exec sha256 now s.runs, r.runId = l.runId := by
    intro l hl
    obtain ⟨r, hr, hid⟩ := h.known l hl
    obtain ⟨r', hr', hc⟩ := hev.forward r hr
    exact ⟨r', hr', by cases hc <;> exact hid⟩
  cases hcl : op.claimed now s.runs with
  | none =>
    have hissued : (s.after sha256 now op).issued = s.issued := by simp [RunSystem.after, hcl]
    exact ⟨hids, hissued ▸ hrows, hissued ▸ hknown, hissued ▸ h.leases⟩
  | some l =>
    obtain ⟨r, hr, hclaim, workerId, leaseSeconds, rfl, hmem⟩ :=
      @RunOp.claimed_eq_some sha256 _ _ _ _ hcl
    have hissued : (s.after sha256 now op).issued =
        s.issued ++ [⟨r.runId, workerId, r.fencingEpoch + 1⟩] := by simp [RunSystem.after, hcl]
    refine ⟨hids, ?_, ?_, ?_⟩
    · rw [hissued]
      exact valid_append hids hrows hmem rfl rfl hclaim.2.1
    · rw [hissued]
      refine List.forall_mem_append.mpr ⟨hknown, List.forall_mem_singleton.mpr ⟨_, hmem, rfl⟩⟩
    · rw [hissued, List.map_append, List.nodup_append]
      refine ⟨h.leases, List.nodup_singleton _, ?_⟩
      rintro _ hl _ hl' rfl
      -- The leases of the run are behind its epoch, and this one is ahead of it.
      obtain ⟨l, hl, hll⟩ := List.mem_map.mp hl
      rw [List.map_singleton, List.mem_singleton] at hl'
      obtain ⟨hid, hepoch⟩ := Prod.ext_iff.mp (hll.trans hl')
      have hle : l.fencingEpoch ≤ r.fencingEpoch := (h.rows r hr).epochs l hl hid
      exact Nat.not_succ_le_self _ (hepoch.symm.trans_le hle)

theorem Valid.step (h : s.Valid) (hstep : Step sha256 s s') : s'.Valid := by
  cases hstep with
  | op op now hnow hlease => exact h.after hlease
  | advance clock hclock => exact ⟨h.ids, h.rows, h.known, h.leases⟩

theorem Valid.steps (h : s.Valid) (hsteps : Steps sha256 s s') : s'.Valid := by
  induction hsteps with
  | refl => exact h
  | tail _ hstep ih => exact ih.step hstep

theorem start_valid (clock : Time) : (start clock).Valid where
  ids := by simp [start]
  rows := by simp [start]
  known := by simp [start]
  leases := by simp [start]

/-- **The invariant holds in every reachable state.** -/
theorem Reachable.valid (h : Reachable sha256 s) : s.Valid := by
  obtain ⟨clock, hsteps⟩ := h
  exact (start_valid clock).steps hsteps

end

end RunSystem

/-! ## A run

A run is claimed again and again, each time after the lease of the claim before. -/

namespace RunSystem

variable {sha256 : List Char → String}

/-- The state after statements, each at a time. -/
def afterAll (sha256 : List Char → String) (s : RunSystem) (ops : List (Time × RunOp)) : RunSystem :=
  ops.foldl (fun s op => { s with clock := max s.clock op.1 }.after sha256 op.1 op.2) s

/-- Statements without a lease are steps. -/
theorem steps_afterAll {ops : List (Time × RunOp)} (h : ∀ op ∈ ops, op.2.lease? = none)
    (s : RunSystem) : Steps sha256 s (s.afterAll sha256 ops) := by
  induction ops generalizing s with
  | nil => exact .refl
  | cons op ops ih =>
    obtain ⟨hop, h⟩ := List.forall_mem_cons.mp h
    have hadvance : Step sha256 s { s with clock := max s.clock op.1 } :=
      .advance s _ (le_max_left _ _)
    have hstep : Step sha256 { s with clock := max s.clock op.1 } _ :=
      .op _ op.2 op.1 (le_max_right _ _) (by simp [hop])
    exact .head hadvance (.head hstep (ih h _))

end RunSystem

namespace Sample

/-- A run is created and claimed for a second, every two seconds. -/
def claims (n : ℕ) : List (Time × RunOp) :=
  (0, .createRun "1" ⟨"plan", .null, "key", "tenant"⟩) ::
    (List.range n).map fun i => (2 * i, .claimRun "worker" 1 [])

/-- The state after that. -/
def afterClaims (n : ℕ) : RunSystem := (RunSystem.start 0).afterAll String.ofList (claims n)

theorem reachable_afterClaims (n : ℕ) : RunSystem.Reachable String.ofList (afterClaims n) :=
  ⟨0, RunSystem.steps_afterAll (by simp [claims, RunOp.lease?]) _⟩

end Sample

/-! ## The rest of the life of a run -/

/-- How a run goes on: its epoch does not decrease, it stays what it is once it is over, and a request
to cancel it stands. -/
structure Onwards (r r' : RunRow) : Prop where
  runId : r'.runId = r.runId
  epoch : r.fencingEpoch ≤ r'.fencingEpoch
  terminal : r.status.Terminal → r' = r
  requested : r.cancellationRequestedAt.isSome → r'.cancellationRequestedAt.isSome

theorem Onwards.refl (r : RunRow) : Onwards r r := ⟨rfl, le_rfl, fun _ => rfl, id⟩

theorem Onwards.trans {a b c : RunRow} (h : Onwards a b) (h' : Onwards b c) : Onwards a c where
  runId := h'.runId.trans h.runId
  epoch := h.epoch.trans h'.epoch
  terminal hterm := by
    obtain rfl := h.terminal hterm
    exact h'.terminal hterm
  requested := h'.requested ∘ h.requested

theorem RunChange.onwards {issued : List Lease} {now : Time} {r r' : RunRow}
    (h : RunChange issued now r r') : Onwards r r' := by
  have hrunning {P : Prop} (hs : r.status = .running) (ht : r.status.Terminal) : P := by
    rw [hs] at ht; exact ht.elim
  cases h with
  | same => exact .refl r
  | claim workerId leaseSeconds hclaim =>
    refine ⟨rfl, Nat.le_succ _, fun ht => ?_, id⟩
    rcases hclaim.1 with ⟨hs | hs, -⟩ | ⟨hs, -⟩ <;> rw [hs] at ht <;> exact ht.elim
  | renew l leaseSeconds hl hg => exact ⟨rfl, le_rfl, hrunning hg.2.2.2, id⟩
  | retry l errorCode backoffMs hl hg hlt => exact ⟨rfl, le_rfl, hrunning hg.2.2.2, id⟩
  | exhaust hex =>
    refine ⟨rfl, le_rfl, fun ht => ?_, id⟩
    rcases hex.1 with hs | hs <;> rw [hs] at ht <;> exact ht.elim
  | request reason hstatus => exact ⟨rfl, Nat.le_succ _, fun ht => absurd ht hstatus, fun _ => rfl⟩
  | acknowledge errorCode hg => exact ⟨rfl, le_rfl, hrunning hg.2.1, id⟩
  | abandon hg => exact ⟨rfl, le_rfl, hrunning hg.1, id⟩
  | atNode l nodeId checkpointId hl hg => exact ⟨rfl, le_rfl, hrunning hg.2.2.2, id⟩
  | complete l input hl hg => exact ⟨rfl, le_rfl, hrunning hg.2.2.2, id⟩

/-- The plan of a run and its input do not change. -/
theorem RunChange.keeps {issued : List Lease} {now : Time} {r r' : RunRow} (h : RunChange issued now r r') :
    r'.runId = r.runId ∧ r'.planDigest = r.planDigest ∧ r'.input = r.input := by
  cases h <;> exact ⟨rfl, rfl, rfl⟩

section

variable {sha256 : List Char → String} {s s' : RunSystem}

theorem RunSystem.Valid.onwards_step (h : s.Valid) (hstep : RunSystem.Step sha256 s s') :
    ∀ r ∈ s.runs, ∃ r' ∈ s'.runs, Onwards r r' := by
  cases hstep with
  | op op now hnow hlease =>
    intro r hr
    obtain ⟨r', hr', hc⟩ := (op.exec_evolves h.ids hlease).forward r hr
    exact ⟨r', hr', hc.onwards⟩
  | advance clock hclock => exact fun r hr => ⟨r, hr, .refl r⟩

/-- **Every run goes on, as long as steps follow.** -/
theorem RunSystem.Valid.onwards (h : s.Valid) (hsteps : RunSystem.Steps sha256 s s') :
    ∀ r ∈ s.runs, ∃ r' ∈ s'.runs, Onwards r r' := by
  induction hsteps with
  | refl => exact fun r hr => ⟨r, hr, .refl r⟩
  | tail hsteps hstep ih =>
    intro r hr
    obtain ⟨r', hr', ho⟩ := ih r hr
    obtain ⟨r'', hr'', ho'⟩ := (h.steps hsteps).onwards_step hstep r' hr'
    exact ⟨r'', hr'', ho.trans ho'⟩

/-- At most one issued lease holds a run. -/
theorem RunSystem.Valid.holder (h : s.Valid) (r : RunRow) :
    (s.issued.filter fun l => l.Holds r).length ≤ 1 := by
  have hnodup := (List.filter_sublist (p := fun l : Lease => l.Holds r)).map
    (fun l : Lease => (l.runId, l.fencingEpoch)) |>.nodup h.leases
  have hsame : (s.issued.filter fun l => l.Holds r).map (fun l => (l.runId, l.fencingEpoch)) =
      List.replicate (s.issued.filter fun l => l.Holds r).length (r.runId, r.fencingEpoch) := by
    rw [List.map_eq_replicate_iff]
    intro l hl
    have hg : l.Holds r := by simpa using (List.mem_filter.mp hl).2
    rw [hg.1, hg.2.2.1]
  rwa [hsame, List.nodup_replicate] at hnodup

/-- A lease that is behind its run holds no run any more. -/
theorem RunSystem.Valid.not_holds (h : s.Valid) {l : Lease} {r : RunRow} (hr : r ∈ s.runs)
    (hid : l.runId = r.runId) (hlt : l.fencingEpoch < r.fencingEpoch) :
    ∀ r' ∈ s.runs, ¬ l.Holds r' := by
  intro r' hr' hg
  obtain rfl := List.inj_on_of_nodup_map h.ids hr' hr (hg.1.trans hid)
  rw [hg.2.2.1] at hlt
  exact lt_irrefl _ hlt

/-- A claim and a request to cancel return the row that they wrote, under a higher epoch. -/
def Raises (rows : List RunRow) (r' : RunRow) (rows' : List RunRow) : Prop :=
  r' ∈ rows' ∧ ∃ r ∈ rows, r'.runId = r.runId ∧ r.fencingEpoch < r'.fencingEpoch

theorem claimRun_raises {now : Time} {workerId : String} {leaseSeconds : ℚ} {locked : List String}
    {rows : List RunRow} {r' : RunRow}
    (h : (claimRun now workerId leaseSeconds locked rows).1 = some r') :
    Raises rows r' (claimRun now workerId leaseSeconds locked rows).2 := by
  simp only [claimRun] at h ⊢
  split at h
  · cases h
  · next selected hsel =>
    obtain rfl := Option.some_inj.mp h
    obtain ⟨hmem, -⟩ := selectRun_eq_some hsel
    exact ⟨mem_updateWhere.mpr ⟨selected, hmem, .inl ⟨rfl, rfl⟩⟩, selected, hmem, rfl, Nat.lt_succ_self _⟩

theorem requestRunCancellation_raises {now : Time} {runId tenantId reason : String}
    {rows : List RunRow} {outcome : CancellationOutcome} {r' : RunRow}
    (h : (requestRunCancellation now runId tenantId reason rows).1 = (outcome, some r'))
    (houtcome : outcome ≠ .alreadyTerminal) :
    Raises rows r' (requestRunCancellation now runId tenantId reason rows).2 := by
  simp only [requestRunCancellation] at h ⊢
  split at h
  · cases h
  · next current hfind =>
    split at h
    · cases h; exact absurd rfl houtcome
    · next hstatus =>
      have hmem := List.mem_of_find?_eq_some hfind
      have hfound : current.runId = runId ∧ current.tenantId = tenantId := by
        simpa using List.find?_some hfind
      obtain rfl : current.requestCancellation now reason = r' :=
        Option.some_inj.mp (Prod.ext_iff.mp h).2
      rw [if_neg hstatus]
      exact ⟨mem_updateWhere.mpr ⟨current, hmem, .inl ⟨hfound.1, rfl⟩⟩, current, hmem, rfl,
        Nat.lt_succ_self _⟩

/-- What is promised in every reachable state. -/
structure Safe (sha256 : List Char → String) (s : RunSystem) : Prop where
  /-- A run is determined by its id. -/
  ids : (s.runs.map (·.runId)).Nodup
  attempts : ∀ r ∈ s.runs, r.attempt ≤ r.attemptLimit
  /-- At most one lease passes the guard of the fenced writes. -/
  holder : ∀ r ∈ s.runs, (s.issued.filter fun l => l.Holds r).length ≤ 1
  /-- Claims raise the epoch. -/
  claims : ∀ now workerId leaseSeconds locked r',
    (claimRun now workerId leaseSeconds locked s.runs).1 = some r' →
    Raises s.runs r' (claimRun now workerId leaseSeconds locked s.runs).2
  /-- So do requests to cancel. -/
  requests : ∀ now runId tenantId reason outcome r',
    (requestRunCancellation now runId tenantId reason s.runs).1 = (outcome, some r') →
    outcome ≠ .alreadyTerminal →
    Raises s.runs r' (requestRunCancellation now runId tenantId reason s.runs).2
  /-- Epochs do not decrease, and what is over stays as it is. -/
  onwards : ∀ s', RunSystem.Steps sha256 s s' → ∀ r ∈ s.runs, ∃ r' ∈ s'.runs, Onwards r r'
  /-- A run that is to be cancelled ends as cancelled, if it ends. -/
  cancelled : ∀ s', RunSystem.Steps sha256 s s' → ∀ r ∈ s.runs, r.cancellationRequestedAt.isSome →
    ∀ r' ∈ s'.runs, r'.runId = r.runId → r'.status.Terminal → r'.status = .cancelled
  /-- Once the run of a lease is ahead of it, fenced writes with the lease change nothing. -/
  superseded : ∀ s', RunSystem.Steps sha256 s s' → ∀ l ∈ s.issued, ∀ r ∈ s.runs, l.runId = r.runId →
    l.fencingEpoch < r.fencingEpoch → ∀ op now, RunOp.lease? op = some l →
    op.exec sha256 now s'.runs = s'.runs

theorem RunSystem.Valid.safe (h : s.Valid) : Safe sha256 s where
  ids := h.ids
  attempts r hr := (h.rows r hr).attempts
  holder r _ := h.holder r
  claims _ _ _ _ _ := claimRun_raises
  requests _ _ _ _ _ _ := requestRunCancellation_raises
  onwards _ hsteps := h.onwards hsteps
  cancelled s' hsteps r hr hc r' hr' hid hterm := by
    obtain ⟨r'', hr'', ho⟩ := h.onwards hsteps r hr
    obtain rfl := List.inj_on_of_nodup_map (h.steps hsteps).ids hr' hr'' (hid.trans ho.runId.symm)
    rcases ((h.steps hsteps).rows r' hr').cancelled (ho.requested hc) with hs | hs
    · rw [hs] at hterm; exact hterm.elim
    · exact hs
  superseded s' hsteps l hl r hr hid hlt op now hop := by
    obtain ⟨r', hr', ho⟩ := h.onwards hsteps r hr
    exact RunOp.exec_eq_self hop ((h.steps hsteps).not_holds hr' (hid.trans ho.runId.symm)
      (hlt.trans_le ho.epoch))

/-- **Run lifecycle safety.** In every state that workers, operators and sweepers reach, each worker
using what `claimRun` returned to it. -/
theorem run_lifecycle (h : RunSystem.Reachable sha256 s) : Safe sha256 s := h.valid.safe

/-- The first claim is superseded by the second. -/
theorem run_lifecycle_sample :
    (RunOp.renewLease ⟨"RUN-1", "worker", 1⟩ 1).exec String.ofList 4 (Sample.afterClaims 2).runs =
      (Sample.afterClaims 2).runs := by
  obtain ⟨r, hr, hid, hlt⟩ : ∃ r ∈ (Sample.afterClaims 2).runs, "RUN-1" = r.runId ∧
      1 < r.fencingEpoch := by decide +kernel
  exact (run_lifecycle (Sample.reachable_afterClaims 2)).superseded _ .refl ⟨"RUN-1", "worker", 1⟩
    (by decide +kernel) r hr hid hlt _ _ rfl

/-! ## Runs that nobody selects -/

/-- The lease of the run and its backoff are over. -/
def RunRow.Quiet (now : Time) (r : RunRow) : Prop :=
  (∀ t ∈ r.leaseExpiresAt, t < now) ∧ ∀ t ∈ r.availableAt, t ≤ now

/-- The `where` clause of some sweeper selects the run. -/
def RunRow.Selected (now : Time) (r : RunRow) : Prop :=
  Claimable now r ∨ Exhausted r ∨ Abandoned now r

/-- The run is on its last attempt. -/
def RunRow.LastAttempt (r : RunRow) : Prop :=
  r.status = .running ∧ r.cancellationRequestedAt = none ∧ r.attemptLimit ≤ r.attempt

instance : DecidablePred RunRow.LastAttempt := fun r => by
  unfold RunRow.LastAttempt; infer_instance

/-- A quiet run that is not over is selected, unless it is on its last attempt. -/
theorem RunRow.Valid.selected {issued : List Lease} {r : RunRow} (h : r.Valid issued) {now : Time}
    (hstatus : ¬ r.status.Terminal) (hquiet : r.Quiet now) (hlast : ¬ r.LastAttempt) :
    r.Selected now := by
  have hwaiting (hs : r.status = .queued ∨ r.status = .retrying) : r.Selected now := by
    have hno : r.cancellationRequestedAt = none := by
      by_contra hc
      rcases h.cancelled (Option.isSome_iff_ne_none.mpr hc) with hs' | hs' <;> simp [hs'] at hs
    rcases Nat.lt_or_ge r.attempt r.attemptLimit with hlt | hge
    · exact .inl ⟨.inl ⟨hs, hquiet.2⟩, hno, hlt⟩
    · exact .inr (.inl ⟨hs, hge⟩)
  have hactive (hs : r.status = .running) : r.Selected now := by
    cases hc : r.cancellationRequestedAt with
    | some t => exact .inr (.inr ⟨hs, by simp [hc], hquiet.1⟩)
    | none =>
      obtain ⟨t, ht⟩ := Option.isSome_iff_exists.mp (h.leased hs)
      refine .inl ⟨.inr ⟨hs, t, ht, hquiet.1 t ht⟩, hc, ?_⟩
      by_contra hge
      exact hlast ⟨hs, hc, not_lt.mp hge⟩
  cases hs : r.status with
  | queued => exact hwaiting (.inl hs)
  | retrying => exact hwaiting (.inr hs)
  | running => exact hactive hs
  | _ => exact absurd (by simp [hs, RunStatus.Terminal]) hstatus

theorem RunRow.LastAttempt.not_selected {r : RunRow} (h : r.LastAttempt) (now : Time) :
    ¬ r.Selected now := by
  obtain ⟨hs, hno, hge⟩ := h
  rintro (hc | he | ha)
  · exact absurd hc.2.2 (not_lt.mpr hge)
  · rcases he.1 with hs' | hs' <;> cases hs.symm.trans hs'
  · exact ha.2.1 hno

theorem RunRow.exists_quiet (r : RunRow) (clock : Time) : ∃ now, clock ≤ now ∧ r.Quiet now := by
  refine ⟨max clock (max (r.leaseExpiresAt.getD clock + 1) (r.availableAt.getD clock)), le_max_left _ _,
    ?_, ?_⟩
  · intro t ht
    rw [Option.mem_def.mp ht, Option.getD_some]
    exact lt_max_of_lt_right (lt_max_of_lt_left (lt_add_one t))
  · intro t ht
    rw [Option.mem_def.mp ht, Option.getD_some]
    exact le_max_of_le_right (le_max_right _ _)

/-- **The runs that are selected.** In every reachable state, a run that is not over is selected by
some sweeper once its lease and its backoff are over, if and only if it is not running its last
attempt, uncancelled. -/
theorem selected_iff (h : RunSystem.Reachable sha256 s) :
    ∀ r ∈ s.runs, (¬ r.status.Terminal → ∀ now, s.clock ≤ now → r.Quiet now → r.Selected now) ↔
      ¬ r.LastAttempt := by
  intro r hr
  constructor
  · intro hsel hlast
    obtain ⟨now, hnow, hquiet⟩ := r.exists_quiet s.clock
    refine hlast.not_selected now (hsel ?_ now hnow hquiet)
    rw [hlast.1]; exact id
  · exact fun hlast hstatus now _ hquiet => (h.valid.rows r hr).selected hstatus hquiet hlast

/-- After the second claim the run is selected once it is quiet. -/
theorem selected_iff_sample : ∃ r ∈ (Sample.afterClaims 2).runs, r.status = .running ∧
    ∀ now, (Sample.afterClaims 2).clock ≤ now → r.Quiet now → r.Selected now := by
  obtain ⟨r, hr, hs, hlast⟩ : ∃ r ∈ (Sample.afterClaims 2).runs, r.status = .running ∧
      ¬ r.LastAttempt := by decide +kernel
  refine ⟨r, hr, hs, (selected_iff (Sample.reachable_afterClaims 2) r hr).mpr hlast ?_⟩
  rw [hs]; exact id

/-- After the third claim it is not over, and it is never selected again. -/
theorem selected_iff_fails : RunSystem.Reachable String.ofList (Sample.afterClaims 3) ∧
    ∃ r ∈ (Sample.afterClaims 3).runs, ¬ r.status.Terminal ∧ ∀ now, ¬ r.Selected now := by
  obtain ⟨r, hr, hs, hlast⟩ : ∃ r ∈ (Sample.afterClaims 3).runs, ¬ r.status.Terminal ∧
      r.LastAttempt := by decide +kernel
  exact ⟨Sample.reachable_afterClaims 3, r, hr, hs, hlast.not_selected⟩

end

end Persistence

end HarnessFramework
