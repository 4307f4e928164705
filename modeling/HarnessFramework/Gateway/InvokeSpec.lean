import HarnessFramework.Gateway.Invoke
import HarnessFramework.Library.Runs

/-!
# What a request does

The events of `Invoke` by cases, and what they do to the runs. Whatever happens, runs stay, under
their plans, and the epochs of envelopes stay behind them.

## Main definitions

* `Reserves`, `Progress` — a reservation, and what an event of a request does
* `Moves` — what an action does
* `Carries` — how a run goes on, as far as envelopes and fences read it
* `Sound` — the invariant that the results on requests share

## Main results

* `State.Step.moves` — a step by cases
* `Moves.evolves` — the runs after a step
* `Sound.moves`, `Reachable.induction` — the invariant rule of reachable states
-/

namespace HarnessFramework

namespace Gateway

open Persistence Execution Checks

/-! ## Reserving -/

/-- A reservation of the receipt `row`. -/
structure Reserves (now : Time) (row : ReceiptRow) (budget : ReservationBudget) (t t' : Tables) :
    Prop where
  fresh : ∀ other ∈ t.receipts, other.invocationId ≠ row.invocationId
  allowed : ∃ r ∈ t.runs, budget.Allows row.runId r
  runs : t'.runs = updateWhere (budget.Allows row.runId) (spend now budget.modelCall) t.runs
  receipts : ∃ tenantId, t'.receipts = t.receipts ++ [{ row with tenantId }]

theorem reserveGatewayReceipt_cases (now : Time) (row : ReceiptRow) (budget : ReservationBudget)
    (t : Tables) :
    (∃ t', reserveGatewayReceipt now row budget t = (.ok true, t') ∧ Reserves now row budget t t') ∨
      reserveGatewayReceipt now row budget t = (.ok false, t) ∨
      reserveGatewayReceipt now row budget t = (.error "gateway.budget_denied", t) := by
  unfold reserveGatewayReceipt
  split
  · exact .inr (.inl rfl)
  · next run hrun =>
    split
    · exact .inr (.inl rfl)
    · next hfresh =>
      split
      · next hcount =>
        have hpos : 0 < t.runs.countP fun r => budget.Allows row.runId r := by
          rw [rowCount] at hcount; omega
        obtain ⟨r, hr, hallows⟩ := List.countP_pos_iff.mp hpos
        exact .inl ⟨_, rfl, fun other ho hid => hfresh ⟨other, ho, hid⟩,
          ⟨r, hr, of_decide_eq_true hallows⟩, rfl, run.tenantId, rfl⟩
      · exact .inr (.inr rfl)

/-! ## An event of a request -/

/-- A request that only reads. -/
def Phase.Reading : Phase → Prop
  | .received | .fenced | .planned .. | .admitted .. | .conflicting => True
  | _ => False

section

variable (plans : List HarnessPlan) (sha256 : List Char → String) (now : Time)

/-- What an event of the request `id` does: its next phase, and the tables after it. -/
inductive Progress (id : ℕ) (q : Request) (t : Tables) : Event → Phase → Tables → Prop
  | refuse (event) (response) : event ≠ .invoke → q.phase.Reading →
      Progress id q t event (.answered response) t
  | fence : q.phase = .received →
      currentFencingEpoch q.claims.runId t.runs = some q.claims.fencingEpoch →
      Progress id q t .readEpoch .fenced t
  | plan (plan) (capability) : q.phase = .fenced → getPlan plans q.claims.planDigest = some plan →
      Progress id q t .readPlan (.planned plan capability) t
  | run (plan) (capability) : q.phase = .planned plan capability →
      Progress id q t .readRun (.admitted plan capability) t
  | reserve (plan) (capability) (t') : q.phase = .admitted plan capability →
      Reserves now (q.receipt sha256 id) (reservationBudget plan capability) t t' →
      Progress id q t .reserve .reserved t'
  | conflict (plan) (capability) : q.phase = .admitted plan capability →
      Progress id q t .reserve .conflicting t
  | invoke : q.phase = .reserved → Progress id q t .invoke .invoking t
  | return (response) : q.phase = .invoking → Progress id q t (.return response) (.returned response) t
  | throw (code) : q.phase = .reserved ∨ q.phase = .invoking →
      Progress id q t (.throw code) (.failing code) t
  | complete (latencyMs) (response) (result) : q.phase = .returned response →
      result = q.result response latencyMs →
      Progress id q t (.complete latencyMs) (.completed result)
        { t with receipts := completeGatewayReceipt sha256 now q.claims.runId result t.receipts }
  | overflow (result) (code) : q.phase = .completed result →
      Progress id q t .recordCost (.answered (.error code)) t
  | recordCost (result) (costUsd) (value) : q.phase = .completed result →
      Progress id q t .recordCost (.answered (.result value))
        { t with runs := recordCapabilityCost now q.claims.runId costUsd t.runs }
  | abandon (code) (invocationId) : q.phase = .failing code →
      invocationId = q.invocation.invocationId →
      Progress id q t .abandon (.answered (.error code))
        { t with receipts := abandonGatewayReceipt q.claims.runId invocationId t.receipts }
  | crash : q.phase.Live → Progress id q t .crash .crashed t

variable {plans sha256 now} {id : ℕ} {q : Request} {t t' : Tables} {event : Event} {phase : Phase}

theorem Request.step_progress (h : q.step plans sha256 now id t event = some (phase, t')) :
    Progress plans sha256 now id q t event phase t' := by
  cases event with
  | readEpoch =>
    simp only [Request.step] at h
    split at h
    · next hphase =>
      split at h
      · next hepoch => cases h; exact .fence hphase hepoch
      · cases h; exact .refuse _ _ nofun (by rw [hphase]; trivial)
    · cases h
  | readPlan =>
    simp only [Request.step] at h
    split at h
    · next hphase =>
      have hreading : q.phase.Reading := by rw [hphase]; trivial
      split at h
      · cases h; exact .refuse _ _ nofun hreading
      · next plan hplan =>
        split at h
        · cases h; exact .plan _ _ hphase hplan
        · cases h; exact .refuse _ _ nofun hreading
    · cases h
  | readRun =>
    simp only [Request.step] at h
    split at h
    · next hphase =>
      split at h
      · cases h; exact .run _ _ hphase
      · cases h; exact .refuse _ _ nofun (by rw [hphase]; trivial)
    · cases h
  | reserve =>
    simp only [Request.step] at h
    split at h
    · next plan capability hphase =>
      rcases reserveGatewayReceipt_cases now (q.receipt sha256 id) (reservationBudget plan capability) t
        with ⟨t'', heq, hres⟩ | heq | heq <;> rw [heq] at h <;> cases h
      · exact .reserve _ _ _ hphase hres
      · exact .conflict _ _ hphase
      · exact .refuse _ _ nofun (by rw [hphase]; trivial)
    · cases h
  | readReceipt =>
    simp only [Request.step] at h
    split at h
    · next hphase =>
      have hreading : q.phase.Reading := by rw [hphase]; trivial
      split at h <;> cases h <;> exact .refuse _ _ nofun hreading
    · cases h
  | invoke =>
    simp only [Request.step] at h
    split at h <;> cases h
    exact .invoke ‹_›
  | «return» response =>
    simp only [Request.step] at h
    split at h <;> cases h
    exact .return _ ‹_›
  | throw code =>
    simp only [Request.step] at h
    split at h <;> cases h
    · exact .throw _ (.inl ‹_›)
    · exact .throw _ (.inr ‹_›)
  | complete latencyMs =>
    simp only [Request.step] at h
    split at h <;> cases h
    exact .complete _ _ _ ‹_› rfl
  | recordCost =>
    simp only [Request.step] at h
    split at h
    · next result hphase =>
      split at h <;> cases h
      · exact .overflow result _ hphase
      · exact .recordCost result _ _ hphase
    · cases h
  | abandon =>
    simp only [Request.step] at h
    split at h <;> cases h
    exact .abandon _ _ ‹_› rfl
  | crash =>
    simp only [Request.step] at h
    split at h <;> cases h
    exact .crash ‹_›

end

/-! ## What happens -/

section

variable (plans : List HarnessPlan) (sha256 : List Char → String) (ttl : Option ℤ)

/-- What an action does. -/
inductive Moves (s : State) : State → Prop
  | run (now) (op) : (∀ l ∈ op.lease?, l ∈ s.issued) → Moves s (s.ran sha256 now op)
  | advance (clock) : Moves s { s with clock }
  | issue (grant) (request) (claims) :
      issueExecutionEnvelope plans ttl s.clock s.runs grant request = .ok claims →
      Moves s { s with envelopes := s.envelopes ++ [claims] }
  | receive (id) (claims) (invocation) : s.requests id = none → claims ∈ s.envelopes →
      Moves s (s.received id claims invocation)
  | request (id) (q) (event) (phase) (t) : s.requests id = some q →
      Progress plans sha256 s.clock id q ⟨s.runs, s.receipts⟩ event phase t →
      Moves s (s.progress id q event phase t)

variable {plans sha256 ttl} {s s' : State}

/-- **A step by cases.** -/
theorem State.Step.moves (h : State.Step plans sha256 ttl s s') : Moves plans sha256 ttl s s' := by
  obtain ⟨action, h⟩ := h
  cases action with
  | run op now =>
    simp only [State.act] at h
    split at h
    · next hop => cases h; exact .run now op hop.2
    · cases h
  | advance clock =>
    simp only [State.act] at h
    split at h <;> cases h
    exact .advance clock
  | issue grant request =>
    simp only [State.act] at h
    split at h
    · next claims hissue => cases h; exact .issue grant request claims hissue
    · cases h
  | receive id claims invocation =>
    simp only [State.act] at h
    split at h
    · next hreceive => cases h; exact .receive id claims invocation hreceive.1 hreceive.2.1
    · cases h
  | request id event =>
    simp only [State.act] at h
    split at h
    · cases h
    · next q hq =>
      obtain ⟨⟨phase, t⟩, hstep, rfl⟩ := Option.map_eq_some_iff.mp h
      exact .request id q event phase t hq (Request.step_progress hstep)

end

/-! ## The runs -/

/-- How a run goes on: its plan stays, and a running run has its epoch since it was claimed. -/
structure Carries (r r' : RunRow) : Prop where
  runId : r'.runId = r.runId
  planDigest : r'.planDigest = r.planDigest
  epoch : r.fencingEpoch ≤ r'.fencingEpoch
  running : r'.status = .running → r'.fencingEpoch = r.fencingEpoch → r.status = .running

theorem Carries.refl (r : RunRow) : Carries r r := ⟨rfl, rfl, le_rfl, fun hs _ => hs⟩

theorem carries_of_change {issued : List Lease} {now : Time} {r r' : RunRow}
    (h : RunChange issued now r r') : Carries r r' := by
  have hepoch := h.onwards.epoch
  cases h with
  | same => exact .refl r
  | claim => exact ⟨rfl, rfl, hepoch, fun _ he => absurd he (Nat.succ_ne_self _)⟩
  | renew l leaseSeconds hl hg => exact ⟨rfl, rfl, hepoch, fun _ _ => hg.2.2.2⟩
  | retry l errorCode backoffMs hl hg => exact ⟨rfl, rfl, hepoch, nofun⟩
  | exhaust => exact ⟨rfl, rfl, hepoch, nofun⟩
  | request => exact ⟨rfl, rfl, hepoch, fun _ he => absurd he (Nat.succ_ne_self _)⟩
  | acknowledge => exact ⟨rfl, rfl, hepoch, nofun⟩
  | abandon => exact ⟨rfl, rfl, hepoch, nofun⟩
  | atNode l nodeId checkpointId hl hg => exact ⟨rfl, rfl, hepoch, fun _ _ => hg.2.2.2⟩
  | complete l input hl hg => exact ⟨rfl, rfl, hepoch, fun _ _ => hg.2.2.2⟩

section

variable {plans : List HarnessPlan} {sha256 : List Char → String} {ttl : Option ℤ} {now : Time} {id : ℕ}
  {q : Request} {t t' : Tables} {event : Event} {phase : Phase}

/-- Requests write to a run with at most one of two statements. -/
theorem Progress.runs (h : Progress plans sha256 now id q t event phase t') :
    t'.runs = t.runs ∨
      (∃ budget : ReservationBudget,
        t'.runs = updateWhere (budget.Allows q.claims.runId) (spend now budget.modelCall) t.runs) ∨
      ∃ costUsd, t'.runs = recordCapabilityCost now q.claims.runId costUsd t.runs := by
  cases h with
  | reserve plan capability t' hphase hres => exact .inr (.inl ⟨_, hres.runs⟩)
  | recordCost result costUsd => exact .inr (.inr ⟨costUsd, rfl⟩)
  | _ => exact .inl rfl

theorem Progress.evolves (h : Progress plans sha256 now id q t event phase t') :
    Evolves Carries (fun _ => False) t.runs t'.runs := by
  have hsame : ∀ r ∈ t.runs, Carries r r := fun r _ => .refl r
  rcases h.runs with hr | ⟨budget, hr⟩ | ⟨costUsd, hr⟩ <;> rw [hr]
  · exact evolves_refl hsame
  · exact evolves_updateWhere (fun r _ _ => ⟨rfl, rfl, le_rfl, fun hs _ => hs⟩) hsame
  · exact evolves_updateWhere (fun r _ _ => ⟨rfl, rfl, le_rfl, fun hs _ => hs⟩) hsame

theorem Progress.runIds (h : Progress plans sha256 now id q t event phase t') :
    t'.runs.map (·.runId) = t.runs.map (·.runId) := by
  rcases h.runs with hr | ⟨budget, hr⟩ | ⟨costUsd, hr⟩ <;> rw [hr]
  · exact map_updateWhere fun _ _ => rfl
  · exact map_updateWhere fun _ _ => rfl

variable {s s' : State}

/-- **The runs after a step.** -/
theorem Moves.evolves (h : Moves plans sha256 ttl s s') (hids : (s.runs.map (·.runId)).Nodup) :
    Evolves Carries (fun r => ∀ r' ∈ s.runs, r'.runId ≠ r.runId) s.runs s'.runs := by
  have hsame : ∀ r ∈ s.runs, Carries r r := fun r _ => .refl r
  cases h with
  | run now op hlease =>
    exact (op.exec_evolves hids hlease).mono (fun _ _ => carries_of_change) fun _ hnew => hnew.2
  | request id q event phase t hq hprogress =>
    exact hprogress.evolves.mono (fun _ _ h => h) fun _ => False.elim
  | _ => exact evolves_refl hsame

theorem Moves.ids (h : Moves plans sha256 ttl s s') (hids : (s.runs.map (·.runId)).Nodup) :
    (s'.runs.map (·.runId)).Nodup := by
  cases h with
  | run now op hlease => exact op.nodup_exec hids
  | request id q event phase t hq hprogress =>
    change (t.runs.map (·.runId)).Nodup
    rwa [hprogress.runIds]
  | _ => exact hids

end

/-! ## The receipts -/

/-- The members of a receipt that stay. -/
structure SameReceipt (row row' : ReceiptRow) : Prop where
  invocationId : row'.invocationId = row.invocationId
  runId : row'.runId = row.runId
  fencingEpoch : row'.fencingEpoch = row.fencingEpoch
  requestDigest : row'.requestDigest = row.requestDigest
  reservedBy : row'.reservedBy = row.reservedBy

theorem SameReceipt.refl (row : ReceiptRow) : SameReceipt row row := ⟨rfl, rfl, rfl, rfl, rfl⟩

/-- A request that may complete or abandon a receipt. -/
def Phase.Holding : Phase → Prop
  | .reserved | .invoking | .returned _ | .failing _ => True
  | _ => False

section

variable {plans : List HarnessPlan} {sha256 : List Char → String} {now : Time} {id : ℕ} {q : Request}
  {t t' : Tables} {event : Event} {phase : Phase}

/-- A receipt was there before, or the request has reserved it. -/
theorem Progress.receipts (h : Progress plans sha256 now id q t event phase t') :
    ∀ row' ∈ t'.receipts, (∃ row ∈ t.receipts, SameReceipt row row') ∨
      (∃ plan capability, q.phase = .admitted plan capability) ∧ phase = .reserved ∧
        ∃ tenantId, row' = { q.receipt sha256 id with tenantId } := by
  have hkept : ∀ row ∈ t.receipts, ∃ row₀ ∈ t.receipts, SameReceipt row₀ row :=
    fun row hrow => ⟨row, hrow, .refl row⟩
  intro row' hrow'
  cases h with
  | reserve plan capability t' hphase hres =>
    obtain ⟨tenantId, hreceipts⟩ := hres.receipts
    rw [hreceipts] at hrow'
    rcases List.mem_append.mp hrow' with hrow' | hrow'
    · exact .inl (hkept row' hrow')
    · exact .inr ⟨⟨plan, capability, hphase⟩, rfl, tenantId, List.mem_singleton.mp hrow'⟩
  | complete latencyMs response result hphase hresult =>
    obtain ⟨row, hrow, ⟨-, rfl⟩ | ⟨-, rfl⟩⟩ := mem_updateWhere.mp hrow'
    · exact .inl ⟨row, hrow, rfl, rfl, rfl, rfl, rfl⟩
    · exact .inl (hkept row' hrow)
  | abandon code invocationId => exact .inl (hkept row' (List.mem_filter.mp hrow').1)
  | _ => exact .inl (hkept row' hrow')

/-- A request may complete or abandon a receipt after it reserved one. -/
theorem Progress.holding (h : Progress plans sha256 now id q t event phase t') (hphase : phase.Holding) :
    q.phase.Holding ∨ (∃ plan capability, q.phase = .admitted plan capability) ∧ phase = .reserved := by
  cases h with
  | reserve plan capability t' hq => exact .inr ⟨⟨plan, capability, hq⟩, rfl⟩
  | invoke hq => exact .inl (by rw [hq]; trivial)
  | «return» response hq => exact .inl (by rw [hq]; trivial)
  | throw code hq => rcases hq with hq | hq <;> exact .inl (by rw [hq]; trivial)
  | _ => exact hphase.elim

end

/-- The reservation of an admitted request. -/
theorem State.exists_reservation (s : State) (id : ℕ) {q : Request}
    (h : ∃ plan capability, q.phase = .admitted plan capability) :
    ∃ ρ ∈ s.reservation id q .reserved, ρ.id = id ∧ ρ.runId = q.claims.runId ∧
      ρ.fencingEpoch = q.claims.fencingEpoch := by
  obtain ⟨plan, capability, hphase⟩ := h
  simp [State.reservation, hphase]

/-! ## The invariant -/

/-- The plan that a request has read. -/
def Phase.plan? : Phase → Option HarnessPlan
  | .planned plan _ | .admitted plan _ => some plan
  | _ => none

/-- What holds in every reachable state. -/
structure Sound (plans : List HarnessPlan) (s : State) : Prop where
  ids : (s.runs.map (·.runId)).Nodup
  /-- An envelope has the plan of its run, and is not ahead of it. -/
  envelopes : ∀ c ∈ s.envelopes, ∃ r ∈ s.runs, r.runId = c.runId ∧ r.planDigest = c.planDigest ∧
    c.fencingEpoch ≤ r.fencingEpoch
  claims : ∀ id q, s.requests id = some q → q.claims ∈ s.envelopes
  plan : ∀ id q, s.requests id = some q → ∀ plan ∈ q.phase.plan?,
    getPlan plans q.claims.planDigest = some plan
  /-- Every receipt was reserved. -/
  receipts : ∀ row ∈ s.receipts, ∃ ρ ∈ s.reservations, ρ.id = row.reservedBy ∧ ρ.runId = row.runId ∧
    ρ.fencingEpoch = row.fencingEpoch
  holding : ∀ id q, s.requests id = some q → q.phase.Holding → ∃ ρ ∈ s.reservations, ρ.id = id
  /-- Providers execute for requests that reserved a receipt. -/
  executions : ∀ id ∈ s.executions, ∃ ρ ∈ s.reservations, ρ.id = id

section

variable {plans : List HarnessPlan} {sha256 : List Char → String} {ttl : Option ℤ} {s s' : State}

theorem arrival_cases (claims : ExecutionEnvelopeClaims) (invocation : CapabilityRequest) :
    arrival claims invocation = .received ∨ ∃ code, arrival claims invocation = .answered (.error code) := by
  unfold arrival
  split
  · exact .inl rfl
  · exact .inr ⟨_, rfl⟩

theorem currentFencingEpoch_eq_some {runId : String} {rows : List RunRow} {epoch : ℕ}
    (h : currentFencingEpoch runId rows = some epoch) :
    ∃ r ∈ rows, r.runId = runId ∧ r.status = .running ∧ r.fencingEpoch = epoch := by
  obtain ⟨r, hfind, rfl⟩ := Option.map_eq_some_iff.mp h
  have hfound : r.runId = runId ∧ r.status = .running := by simpa using List.find?_some hfind
  exact ⟨r, List.mem_of_find?_eq_some hfind, hfound.1, hfound.2, rfl⟩

theorem Sound.envelopes_step (h : Sound plans s) (hev : Moves plans sha256 ttl s s') :
    ∀ c ∈ s.envelopes, ∃ r ∈ s'.runs, r.runId = c.runId ∧ r.planDigest = c.planDigest ∧
      c.fencingEpoch ≤ r.fencingEpoch := by
  intro c hc
  obtain ⟨r, hr, hid, hplan, hepoch⟩ := h.envelopes c hc
  obtain ⟨r', hr', hcarry⟩ := (hev.evolves h.ids).forward r hr
  exact ⟨r', hr', hcarry.runId.trans hid, hcarry.planDigest.trans hplan, hepoch.trans hcarry.epoch⟩

/-- An event of a request keeps the state sound. -/
theorem Sound.progress (h : Sound plans s) {id : ℕ} {q : Request} {event : Event} {phase : Phase}
    {t : Tables} (hq : s.requests id = some q)
    (hprogress : Progress plans sha256 s.clock id q ⟨s.runs, s.receipts⟩ event phase t) :
    Sound plans (s.progress id q event phase t) := by
  have hmove : Moves plans sha256 none s (s.progress id q event phase t) :=
    .request id q event phase t hq hprogress
  have hkept {P : Reservation → Prop} (hex : ∃ ρ ∈ s.reservations, P ρ) :
      ∃ ρ ∈ s.reservations ++ s.reservation id q phase, P ρ := by
    obtain ⟨ρ, hρ, hp⟩ := hex
    exact ⟨ρ, List.mem_append_left _ hρ, hp⟩
  refine ⟨hmove.ids h.ids, h.envelopes_step hmove, forall_update_some (fun i q hq _ => h.claims i q hq)
    (h.claims id q hq), forall_update_some (fun i q hq _ => h.plan i q hq) ?_, ?_,
    forall_update_some (fun i q hq _ hphase => hkept (h.holding i q hq hphase)) ?_, ?_⟩
  · intro plan hplan
    cases hprogress with
    | plan plan' capability hphase hget => cases hplan; exact hget
    | run plan' capability hphase =>
      cases hplan
      exact h.plan id q hq plan (by rw [hphase]; rfl)
    | _ => cases hplan
  · intro row' hrow'
    rcases hprogress.receipts row' hrow' with ⟨row, hrow, hsame⟩ | ⟨hphase, rfl, tenantId, rfl⟩
    · obtain ⟨ρ, hρ, hid, hrun, hepoch⟩ := hkept (h.receipts row hrow)
      exact ⟨ρ, hρ, hid.trans hsame.reservedBy.symm, hrun.trans hsame.runId.symm,
        hepoch.trans hsame.fencingEpoch.symm⟩
    · obtain ⟨ρ, hρ, hid, hrun, hepoch⟩ := State.exists_reservation s id hphase
      exact ⟨ρ, List.mem_append_right _ hρ, hid, hrun, hepoch⟩
  · intro hphase
    rcases hprogress.holding hphase with hphase' | ⟨hphase', rfl⟩
    · exact hkept (h.holding id q hq hphase')
    · obtain ⟨ρ, hρ, hid, -⟩ := State.exists_reservation s id hphase'
      exact ⟨ρ, List.mem_append_right _ hρ, hid⟩
  · have hold : ∀ i ∈ s.executions, ∃ ρ ∈ s.reservations ++ s.reservation id q phase, ρ.id = i :=
      fun i hi => hkept (h.executions i hi)
    intro i hi
    dsimp only [State.progress] at hi
    split at hi
    · next hevent =>
      rcases List.mem_append.mp hi with hi | hi
      · exact hold i hi
      · obtain rfl := List.mem_singleton.mp hi
        subst hevent
        cases hprogress with
        | refuse _ _ hne => exact absurd rfl hne
        | invoke hphase => exact hkept (h.holding i q hq (by rw [hphase]; trivial))
    · exact hold i hi

theorem Sound.moves (h : Sound plans s) (hmove : Moves plans sha256 ttl s s') : Sound plans s' := by
  have hids := hmove.ids h.ids
  have henvelopes := h.envelopes_step hmove
  cases hmove with
  | run now op hlease => exact { h with ids := hids, envelopes := henvelopes }
  | advance clock => exact { h with }
  | issue grant request claims hissue =>
    obtain ⟨⟨r, hr, hid, hplan⟩, hepoch⟩ := issueExecutionEnvelope_ok hissue
    obtain ⟨r', hr', hid', -, he⟩ := currentFencingEpoch_eq_some hepoch
    obtain rfl := List.inj_on_of_nodup_map h.ids hr hr' (hid.trans hid'.symm)
    have hnew : ∀ c ∈ s.envelopes ++ [claims], ∃ r ∈ s.runs, r.runId = c.runId ∧
        r.planDigest = c.planDigest ∧ c.fencingEpoch ≤ r.fencingEpoch :=
      List.forall_mem_append.mpr ⟨henvelopes, List.forall_mem_singleton.mpr ⟨r, hr, hid, hplan, he.ge⟩⟩
    exact { h with
      envelopes := hnew
      claims := fun id q hq => List.mem_append_left _ (h.claims id q hq) }
  | receive id claims invocation hnone hclaims =>
    have hphase : (arrival claims invocation).plan? = none ∧ ¬ (arrival claims invocation).Holding := by
      rcases arrival_cases claims invocation with ha | ⟨code, ha⟩ <;> rw [ha] <;>
        exact ⟨rfl, not_false⟩
    exact { h with
      claims := forall_update_some (fun i q hq _ => h.claims i q hq) hclaims
      plan := forall_update_some (fun i q hq _ => h.plan i q hq) (by rw [hphase.1]; nofun)
      holding := forall_update_some (fun i q hq _ => h.holding i q hq) (fun hh => absurd hh hphase.2) }
  | request id q event phase t hq hprogress => exact h.progress hq hprogress

theorem sound_start (clock : Time) : Sound plans (State.start clock) := by
  constructor <;> simp [State.start, RunSystem.start]

/-- **The invariant rule of reachable states**, over what is known of them. -/
theorem State.Reachable.induction {P : State → Prop} (hstart : ∀ clock, P (State.start clock))
    (hstep : ∀ s s', Sound plans s → P s → Moves plans sha256 ttl s s' → P s')
    (h : State.Reachable plans sha256 ttl s) : Sound plans s ∧ P s := by
  obtain ⟨clock, hsteps⟩ := h
  induction hsteps with
  | refl => exact ⟨sound_start clock, hstart clock⟩
  | tail _ hs ih => exact ⟨ih.1.moves hs.moves, hstep _ _ ih.1 ih.2 hs.moves⟩

end

/-! ## A run

A run is created and claimed, its worker gets an envelope, and a request comes in with it. -/

namespace State

variable {plans : List HarnessPlan} {sha256 : List Char → String} {ttl : Option ℤ} {s s' : State}

/-- The state after actions, if they can happen. -/
def runAll (plans : List HarnessPlan) (sha256 : List Char → String) (ttl : Option ℤ) :
    State → List Action → Option State
  | s, [] => some s
  | s, action :: actions => (s.act plans sha256 ttl action).bind fun s => runAll plans sha256 ttl s actions

theorem steps_runAll {actions : List Action} (h : s.runAll plans sha256 ttl actions = some s') :
    Steps plans sha256 ttl s s' := by
  induction actions generalizing s with
  | nil => cases h; exact .refl
  | cons action actions ih =>
    obtain ⟨s'', hact, h⟩ := Option.bind_eq_some_iff.mp h
    exact .head ⟨action, hact⟩ (ih h)

theorem reachable_runAll {clock : Time} {actions : List Action}
    (h : (start clock).runAll plans sha256 ttl actions = some s) : Reachable plans sha256 ttl s :=
  ⟨clock, steps_runAll h⟩

end State

namespace Sample

/-- A plan with one node, which may call one tool. -/
def plans : List HarnessPlan :=
  [{ planDigest := "plan"
     budgets := ⟨2, 1, 10⟩
     capabilities := [⟨"lookup", .tool, .read⟩]
     permissionEnvelopes := [⟨"node", ["lookup"], [.read], "permission"⟩]
     nodes := [] }]

/-- The envelope of the first attempt. -/
def claims : ExecutionEnvelopeClaims where
  jti := "INV-1"
  runId := "RUN-1"
  nodeId := "node"
  attempt := 1
  planDigest := "plan"
  permissionDigest := "permission"
  capabilities := ["lookup"]
  effects := [.read]
  caseWrites := []
  fencingEpoch := 1
  iat := 0
  exp := 60

/-- A request comes in. -/
def arrival : List Action :=
  [.run (.createRun "1" ⟨"plan", .null, "key", "tenant"⟩) 0, .run (.claimRun "worker" 60 []) 0,
    .issue ⟨"RUN-1", 1, "worker", "plan", 1⟩ ⟨"RUN-1", "node", 1, "INV-1"⟩,
    .receive 0 claims ⟨"INV-1", "lookup", .read, none⟩]

/-- It comes to its reservation, and the provider executes. -/
def admission : List Action :=
  [.request 0 .readPlan, .request 0 .readRun, .request 0 .reserve, .request 0 .invoke]

/-- A request whose run stays as it is. -/
def undisturbed : List Action := arrival ++ .request 0 .readEpoch :: admission

/-- A request whose run is cancelled after the epoch was read. -/
def cancelled : List Action := arrival ++ .request 0 .readEpoch ::
  .run (.requestRunCancellation "RUN-1" "tenant" "operator") 0 :: admission

theorem runAll_undisturbed : ((State.start 0).runAll plans String.ofList none undisturbed).map
    (fun s => (s.reservations, s.executions)) =
      some ([⟨0, "RUN-1", 1, false, some (.running, 1), false⟩], [0]) := by decide +kernel

theorem runAll_cancelled : ((State.start 0).runAll plans String.ofList none cancelled).map
    (fun s => (s.reservations, s.executions)) =
      some ([⟨0, "RUN-1", 1, false, some (.running, 2), true⟩], [0]) := by decide +kernel

end Sample

end Gateway

end HarnessFramework
