import HarnessFramework.Gateway.InvokeSpec

/-!
# Receipts and budgets

A request that reserves a receipt is the only one that completes or abandons it, so a stored result
stays. Reservations are counted by the statement that checks the budget, in the transaction that
inserts the receipt.

## Main definitions

* `Owned` — the invariant: a request that may complete or abandon a receipt has reserved it
* `Counted` — the invariant: the counters of a run are its reservations, within the budget
* `Replays`, `ExactlyOnce` — the promise

## Main results

* `Owned.stays` — a stored result stays
* `Owned.replays` — later requests under its id are answered with it, or refused
* `exactlyOnce` — the promise holds in every reachable state
-/

namespace HarnessFramework

namespace Gateway

open Persistence Execution

/-! ## Receipts and their requests -/

/-- A request that may complete or abandon a receipt has reserved it. -/
structure Owned (sha256 : List Char → String) (s : State) : Prop where
  ids : (s.receipts.map (·.invocationId)).Nodup
  origin : ∀ row ∈ s.receipts, ∃ q, s.requests row.reservedBy = some q ∧
    row.invocationId = q.invocation.invocationId ∧ row.runId = q.claims.runId ∧
    row.requestDigest = stableDigest sha256 q.invocation.toJson
  owner : ∀ id q, s.requests id = some q → q.phase.Holding →
    ∃ row ∈ s.receipts, row.reservedBy = id ∧ row.result = none

section

variable {plans : List HarnessPlan} {sha256 : List Char → String} {now : Time} {id : ℕ} {q : Request}
  {t t' : Tables} {event : Event} {phase : Phase}

/-- A request lets go of a receipt when it changes or deletes it. -/
theorem Progress.receipt_stays (h : Progress plans sha256 now id q t event phase t') {row : ReceiptRow}
    (hrow : row ∈ t.receipts) : row ∈ t'.receipts ∨
      q.phase.Holding ∧ ¬ phase.Holding ∧ row.invocationId = q.invocation.invocationId := by
  cases h with
  | reserve plan capability t' hq hres =>
    obtain ⟨tenantId, hreceipts⟩ := hres.receipts
    rw [hreceipts]
    exact .inl (List.mem_append_left _ hrow)
  | complete latencyMs response result hq hresult =>
    by_cases hid : row.invocationId = result.invocationId
    · exact .inr ⟨by rw [hq]; trivial, not_false, by rw [hid, hresult]; rfl⟩
    · exact .inl (mem_updateWhere.mpr ⟨row, hrow, .inr ⟨fun hg => hid hg.1, rfl⟩⟩)
  | abandon code invocationId hq hinvocation =>
    by_cases hid : row.invocationId = invocationId
    · exact .inr ⟨by rw [hq]; trivial, not_false, hid.trans hinvocation⟩
    · exact .inl (List.mem_filter.mpr ⟨hrow, by simp [hid]⟩)
  | _ => exact .inl hrow

theorem Progress.receiptIds (h : Progress plans sha256 now id q t event phase t')
    (hids : (t.receipts.map (·.invocationId)).Nodup) : (t'.receipts.map (·.invocationId)).Nodup := by
  cases h with
  | reserve plan capability t' hq hres =>
    obtain ⟨tenantId, hreceipts⟩ := hres.receipts
    rw [hreceipts, List.map_append, List.nodup_append]
    refine ⟨hids, List.nodup_singleton _, ?_⟩
    rintro _ hrow _ hrow' rfl
    obtain ⟨row, hrow, hid⟩ := List.mem_map.mp hrow
    rw [List.map_singleton, List.mem_singleton] at hrow'
    exact hres.fresh row hrow (hid.trans hrow')
  | complete latencyMs response result hq hresult =>
    have hsame : (completeGatewayReceipt sha256 now q.claims.runId result t.receipts).map
        (·.invocationId) = t.receipts.map (·.invocationId) := map_updateWhere fun _ _ => rfl
    exact hsame ▸ hids
  | abandon code invocationId hq hinvocation => exact (List.filter_sublist.map _).nodup hids
  | _ => exact hids

end

section

variable {plans : List HarnessPlan} {sha256 : List Char → String} {ttl : Option ℤ} {s s' : State}
  {id : ℕ} {q : Request}

/-- The receipt of a request that may complete or abandon one is the one under its id. -/
theorem Owned.reservedBy (h : Owned sha256 s) (hq : s.requests id = some q) (hphase : q.phase.Holding)
    {row : ReceiptRow} (hrow : row ∈ s.receipts) (hid : row.invocationId = q.invocation.invocationId) :
    row.reservedBy = id ∧ row.result = none := by
  obtain ⟨own, hown, rfl, hnone⟩ := h.owner id q hq hphase
  obtain ⟨q', hq', hid', -⟩ := h.origin own hown
  obtain rfl := Option.some_inj.mp (hq.symm.trans hq')
  obtain rfl := List.inj_on_of_nodup_map h.ids hrow hown (hid.trans hid'.symm)
  exact ⟨rfl, hnone⟩

theorem Owned.progress (h : Owned sha256 s) (hq : s.requests id = some q) {event : Event} {phase : Phase}
    {t : Tables} (hprogress : Progress plans sha256 s.clock id q ⟨s.runs, s.receipts⟩ event phase t) :
    Owned sha256 (s.progress id q event phase t) := by
  refine ⟨hprogress.receiptIds h.ids, fun row' hrow' => ?_, forall_update_some (fun i q' hq' hi hphase => ?_)
    fun hphase => ?_⟩
  · -- The request under an id keeps its envelope and its content.
    have horigin : ∃ q', s.requests row'.reservedBy = some q' ∧
        row'.invocationId = q'.invocation.invocationId ∧ row'.runId = q'.claims.runId ∧
        row'.requestDigest = stableDigest sha256 q'.invocation.toJson := by
      rcases hprogress.receipts row' hrow' with ⟨row, hrow, hsame⟩ | ⟨-, -, tenantId, rfl⟩
      · rw [hsame.reservedBy, hsame.invocationId, hsame.runId, hsame.requestDigest]
        exact h.origin row hrow
      · exact ⟨q, hq, rfl, rfl, rfl⟩
    obtain ⟨q', hq', horigin⟩ := horigin
    by_cases hid : row'.reservedBy = id
    · rw [hid] at hq' ⊢
      obtain rfl := Option.some_inj.mp (hq.symm.trans hq')
      exact ⟨_, Function.update_self _ _ _, horigin⟩
    · exact ⟨q', (Function.update_of_ne hid _ _).trans hq', horigin⟩
  · obtain ⟨row, hrow, hby, hnone⟩ := h.owner i q' hq' hphase
    rcases hprogress.receipt_stays hrow with hrow' | ⟨hphase', -, hid⟩
    · exact ⟨row, hrow', hby, hnone⟩
    · exact absurd (hby.symm.trans (h.reservedBy hq hphase' hrow hid).1) hi
  · rcases hprogress.holding hphase with hphase' | ⟨-, rfl⟩
    · obtain ⟨row, hrow, hby, hnone⟩ := h.owner id q hq hphase'
      exact ⟨row, (hprogress.receipt_stays hrow).resolve_right fun hgone => hgone.2.1 hphase, hby, hnone⟩
    · cases hprogress with
      | reserve plan capability t hq hres =>
        obtain ⟨tenantId, hreceipts⟩ := hres.receipts
        exact ⟨_, by rw [State.progress, hreceipts]; exact List.mem_append_right _ (List.mem_singleton_self _),
          rfl, rfl⟩

theorem Owned.moves (h : Owned sha256 s) (hmove : Moves plans sha256 ttl s s') : Owned sha256 s' := by
  cases hmove with
  | run now op hlease => exact ⟨h.ids, h.origin, h.owner⟩
  | advance clock => exact ⟨h.ids, h.origin, h.owner⟩
  | issue grant request claims hissue => exact ⟨h.ids, h.origin, h.owner⟩
  | receive id claims invocation hnone hclaims =>
    refine ⟨h.ids, fun row hrow => ?_, forall_update_some (fun i q hq _ => h.owner i q hq) fun hphase => ?_⟩
    · obtain ⟨q, hq, horigin⟩ := h.origin row hrow
      have hid : row.reservedBy ≠ id := by
        rintro rfl
        cases hnone.symm.trans hq
      exact ⟨q, (Function.update_of_ne hid _ _).trans hq, horigin⟩
    · rcases arrival_cases claims invocation with ha | ⟨code, ha⟩ <;> rw [ha] at hphase <;>
        exact hphase.elim
  | request id q event phase t hq hprogress => exact h.progress hq hprogress

/-- **A stored result stays.** -/
theorem Owned.stays (h : Owned sha256 s) (hmove : Moves plans sha256 ttl s s') {row : ReceiptRow}
    (hrow : row ∈ s.receipts) (hresult : row.result.isSome) : row ∈ s'.receipts := by
  cases hmove with
  | request id q event phase t hq hprogress =>
    refine (hprogress.receipt_stays hrow).resolve_right fun ⟨hphase, _, hid⟩ => ?_
    rw [(h.reservedBy hq hphase hrow hid).2] at hresult
    cases hresult
  | _ => exact hrow

end

/-! ## Reservations and counters -/

/-- The counters of a run are its reservations, and keep within the budget of its plan. -/
structure Balanced (plans : List HarnessPlan) (reservations : List Reservation) (r : RunRow) : Prop where
  capabilityCalls : r.capabilityCalls = reservations.countP fun ρ => ρ.runId = r.runId
  modelCalls : r.modelCalls = reservations.countP fun ρ => ρ.runId = r.runId ∧ ρ.modelCall
  budget : ∀ plan, getPlan plans r.planDigest = some plan →
    r.capabilityCalls ≤ plan.budgets.maxCapabilityCalls ∧ r.modelCalls ≤ plan.budgets.maxModelCalls

/-- Every reservation was counted once, and no provider executes twice for one. -/
structure Counted (plans : List HarnessPlan) (s : State) : Prop where
  runs : ∀ r ∈ s.runs, Balanced plans s.reservations r
  reserved : ∀ ρ ∈ s.reservations, (∃ q, s.requests ρ.id = some q ∧ ¬ q.phase.Reading) ∧
    ∃ r ∈ s.runs, r.runId = ρ.runId
  once : (s.reservations.map (·.id)).Nodup
  executed : ∀ id ∈ s.executions, ∃ q, s.requests id = some q ∧ ¬ q.phase.Reading ∧ q.phase ≠ .reserved
  executions : s.executions.Nodup

section

variable {plans : List HarnessPlan} {sha256 : List Char → String} {now : Time} {id : ℕ} {q : Request}
  {t t' : Tables} {event : Event} {phase : Phase}

/-- A request that has reserved a receipt does not reserve another. -/
theorem Progress.not_reading (h : Progress plans sha256 now id q t event phase t')
    (hphase : ¬ q.phase.Reading) : ¬ phase.Reading ∧ phase ≠ .reserved := by
  cases h with
  | fence hq => exact absurd (by rw [hq]; trivial) hphase
  | plan plan capability hq => exact absurd (by rw [hq]; trivial) hphase
  | run plan capability hq => exact absurd (by rw [hq]; trivial) hphase
  | reserve plan capability t' hq => exact absurd (by rw [hq]; trivial) hphase
  | conflict plan capability hq => exact absurd (by rw [hq]; trivial) hphase
  | _ => exact ⟨not_false, nofun⟩

variable {reservations : List Reservation} {r r' : RunRow}

/-- Statements on runs leave the counters alone. -/
theorem calls_of_change {issued : List Lease} (h : RunChange issued now r r') : r'.runId = r.runId ∧
    r'.planDigest = r.planDigest ∧ r'.capabilityCalls = r.capabilityCalls ∧
    r'.modelCalls = r.modelCalls := by
  cases h <;> exact ⟨rfl, rfl, rfl, rfl⟩

/-- A run with the same counters. -/
theorem Balanced.congr (h : Balanced plans reservations r) (hid : r'.runId = r.runId)
    (hplan : r'.planDigest = r.planDigest) (hcapability : r'.capabilityCalls = r.capabilityCalls)
    (hmodel : r'.modelCalls = r.modelCalls) : Balanced plans reservations r' := by
  obtain ⟨hc, hm, hb⟩ := h
  constructor
  · rw [hcapability, hid, hc]
  · rw [hmodel, hid, hm]
  · rwa [hcapability, hmodel, hplan]

/-- A reservation of another run. -/
theorem Balanced.append_other (h : Balanced plans reservations r) {ρ : Reservation}
    (hid : ρ.runId ≠ r.runId) : Balanced plans (reservations ++ [ρ]) r := by
  obtain ⟨hc, hm, hb⟩ := h
  refine ⟨?_, ?_, hb⟩
  · simp [hc, hid]
  · simp [hm, hid]

/-- **A reservation that the budget allows.** -/
theorem Balanced.spend (h : Balanced plans reservations r) {plan : HarnessPlan}
    {capability : CapabilityDefinition} {ρ : Reservation} (hplan : getPlan plans r.planDigest = some plan)
    (hallows : (reservationBudget plan capability).Allows ρ.runId r)
    (hmodel : ρ.modelCall = (reservationBudget plan capability).modelCall) :
    Balanced plans (reservations ++ [ρ]) (spend now ρ.modelCall r) := by
  obtain ⟨hc, hm, hb⟩ := h
  obtain ⟨hid, hcalls, hmodels, -⟩ := hallows
  refine ⟨?_, ?_, fun plan' hplan' => ?_⟩
  · simp [Gateway.spend, hc, hid]
  · simp [Gateway.spend, hm, hid]
  · obtain rfl := Option.some_inj.mp (hplan.symm.trans hplan')
    obtain ⟨-, hmodelCalls⟩ := hb plan hplan
    refine ⟨hcalls, ?_⟩
    rw [← hmodel] at hmodels
    simp only [Gateway.spend]
    rcases hmodels with hmodels | hmodels
    · rw [hmodels]; exact hmodelCalls
    · split
      · exact hmodels
      · exact hmodelCalls

end

section

variable {plans : List HarnessPlan} {sha256 : List Char → String} {ttl : Option ℤ} {s s' : State}
  {id : ℕ} {q : Request}

theorem State.reservation_eq_nil {phase : Phase} (h : phase ≠ .reserved) :
    s.reservation id q phase = [] := by
  simp only [State.reservation]
  split
  · exact absurd rfl h
  · rfl

theorem Counted.runs_progress (h : Counted plans s) (hs : Sound plans s) (hq : s.requests id = some q)
    {event : Event} {phase : Phase} {t : Tables}
    (hprogress : Progress plans sha256 s.clock id q ⟨s.runs, s.receipts⟩ event phase t) :
    ∀ r ∈ t.runs, Balanced plans (s.reservations ++ s.reservation id q phase) r := by
  cases hprogress with
  | reserve plan capability t hphase hres =>
    obtain ⟨allowed, hallowed, hallows⟩ := hres.allowed
    have hreservation : s.reservation id q .reserved =
        [⟨id, q.claims.runId, q.claims.fencingEpoch, capability.kind = .model,
          fenceOf q.claims.runId s.runs, s.moved id⟩] := by simp [State.reservation, hphase]
    intro r' hr'
    rw [hreservation]
    rw [hres.runs] at hr'
    obtain ⟨r, hr, ⟨hg, rfl⟩ | ⟨hg, rfl⟩⟩ := mem_updateWhere.mp hr'
    · -- The plan of the envelope is the plan of the run.
      obtain ⟨r₀, hr₀, hid, hdigest, -⟩ := hs.envelopes _ (hs.claims id q hq)
      obtain rfl := List.inj_on_of_nodup_map hs.ids hr hr₀ (hg.1.trans hid.symm)
      refine (h.runs r hr).spend ?_ hg rfl
      rw [hdigest]
      exact hs.plan id q hq plan (by rw [hphase]; rfl)
    · refine (h.runs r' hr).append_other fun hid => hg ?_
      obtain rfl := List.inj_on_of_nodup_map hs.ids hr hallowed (hid.symm.trans hallows.1.symm)
      exact hallows
  | recordCost result costUsd value hphase =>
    rw [State.reservation_eq_nil (by rintro ⟨⟩), List.append_nil]
    intro r' hr'
    obtain ⟨r, hr, ⟨-, rfl⟩ | ⟨-, rfl⟩⟩ := mem_updateWhere.mp hr'
    · exact (h.runs r hr).congr rfl rfl rfl rfl
    · exact h.runs r' hr
  | _ =>
    rw [State.reservation_eq_nil (by rintro ⟨⟩), List.append_nil]
    exact h.runs

theorem Counted.progress (h : Counted plans s) (hs : Sound plans s) (hq : s.requests id = some q)
    {event : Event} {phase : Phase} {t : Tables}
    (hprogress : Progress plans sha256 s.clock id q ⟨s.runs, s.receipts⟩ event phase t) :
    Counted plans (s.progress id q event phase t) := by
  -- A request that has reserved a receipt goes on, and has reserved it still.
  have hrequest {i : ℕ} {q' : Request} (hq' : s.requests i = some q') (hphase : ¬ q'.phase.Reading) :
      ∃ q'', (s.progress id q event phase t).requests i = some q'' ∧ ¬ q''.phase.Reading ∧
        (q'.phase ≠ .reserved → q''.phase ≠ .reserved) := by
    by_cases hi : i = id
    · subst hi
      obtain rfl := Option.some_inj.mp (hq.symm.trans hq')
      have hnext := hprogress.not_reading hphase
      exact ⟨_, Function.update_self _ _ _, hnext.1, fun _ => hnext.2⟩
    · exact ⟨q', (Function.update_of_ne hi _ _).trans hq', hphase, fun hne => hne⟩
  have hrun {ρ : Reservation} (h : ∃ r ∈ s.runs, r.runId = ρ.runId) : ∃ r ∈ t.runs, r.runId = ρ.runId := by
    obtain ⟨r, hr, hid⟩ := h
    obtain ⟨r', hr', hcarry⟩ := hprogress.evolves.forward r hr
    exact ⟨r', hr', hcarry.runId.trans hid⟩
  have hnew : ∀ ρ ∈ s.reservation id q phase, ρ.id = id ∧ q.phase.Reading ∧ phase = .reserved ∧
      ρ.runId = q.claims.runId := by
    intro ρ hρ
    simp only [State.reservation] at hρ
    split at hρ
    · next hphase =>
      obtain rfl := List.mem_singleton.mp hρ
      exact ⟨rfl, by rw [hphase]; trivial, rfl, rfl⟩
    · cases hρ
  refine ⟨h.runs_progress hs hq hprogress, List.forall_mem_append.mpr ⟨fun ρ hρ => ?_, fun ρ hρ => ?_⟩,
    ?_, ?_, ?_⟩
  · obtain ⟨⟨q', hq', hphase⟩, hr⟩ := h.reserved ρ hρ
    obtain ⟨q'', hq'', hphase', -⟩ := hrequest hq' hphase
    exact ⟨⟨q'', hq'', hphase'⟩, hrun hr⟩
  · obtain ⟨hid, -, rfl, hrunId⟩ := hnew ρ hρ
    obtain ⟨r, hr, hr', -⟩ := hs.envelopes _ (hs.claims id q hq)
    rw [hid]
    exact ⟨⟨_, Function.update_self _ _ _, not_false⟩, hrun ⟨r, hr, hr'.trans hrunId.symm⟩⟩
  · rw [State.progress, List.map_append, List.nodup_append]
    refine ⟨h.once, ?_, ?_⟩
    · simp only [State.reservation]
      split <;> simp
    · rintro _ hold _ hnew' rfl
      obtain ⟨ρ, hρ, hid⟩ := List.mem_map.mp hold
      obtain ⟨ρ', hρ', hid'⟩ := List.mem_map.mp hnew'
      obtain ⟨hid'', hreading, -⟩ := hnew ρ' hρ'
      obtain ⟨⟨q', hq', hphase⟩, -⟩ := h.reserved ρ hρ
      rw [hid, ← hid', hid'', hq, Option.some.injEq] at hq'
      exact hphase (hq' ▸ hreading)
  · have hold : ∀ i ∈ s.executions, ∃ q', (s.progress id q event phase t).requests i = some q' ∧
        ¬ q'.phase.Reading ∧ q'.phase ≠ .reserved := by
      intro i hi
      obtain ⟨q', hq', hphase, hne⟩ := h.executed i hi
      obtain ⟨q'', hq'', hphase', hne'⟩ := hrequest hq' hphase
      exact ⟨q'', hq'', hphase', hne' hne⟩
    intro i hi
    by_cases hevent : event = .invoke
    · simp only [State.progress, if_pos hevent] at hi
      rcases List.mem_append.mp hi with hi | hi
      · exact hold i hi
      · obtain rfl := List.mem_singleton.mp hi
        subst hevent
        cases hprogress with
        | refuse _ _ hne => exact absurd rfl hne
        | invoke hphase => exact ⟨_, Function.update_self _ _ _, not_false, by rintro ⟨⟩⟩
    · simp only [State.progress, if_neg hevent] at hi
      exact hold i hi
  · by_cases hevent : event = .invoke
    · simp only [State.progress, if_pos hevent]
      refine List.nodup_append.mpr ⟨h.executions, List.nodup_singleton _, ?_⟩
      rintro i hi _ hi' rfl
      obtain rfl := List.mem_singleton.mp hi'
      obtain ⟨q', hq', hphase, hne⟩ := h.executed i hi
      obtain rfl := Option.some_inj.mp (hq.symm.trans hq')
      subst hevent
      cases hprogress with
      | refuse _ _ hne => exact absurd rfl hne
      | invoke hphase => exact hne hphase
    · simp only [State.progress, if_neg hevent]
      exact h.executions

theorem Counted.ran (h : Counted plans s) (hs : Sound plans s) {now : Time} {op : RunOp}
    (hlease : ∀ l ∈ op.lease?, l ∈ s.issued) : Counted plans (s.ran sha256 now op) := by
  have hev : Evolves (RunChange s.issued now) (Created sha256 now s.runs) s.runs
      (op.exec sha256 now s.runs) := op.exec_evolves hs.ids hlease
  refine ⟨hev.forall ?_ ?_ h.runs, fun ρ hρ => ?_, h.once, h.executed, h.executions⟩
  · rintro _ ⟨⟨runId, input, rfl⟩, hfresh⟩
    -- No reservation is of a run that was not there.
    have hother : ∀ ρ ∈ s.reservations, ρ.runId ≠ runId := by
      rintro ρ hρ rfl
      obtain ⟨r, hr, hid⟩ := (h.reserved ρ hρ).2
      exact hfresh r hr hid
    refine ⟨Eq.symm ?_, Eq.symm ?_, fun plan _ => ⟨Nat.zero_le _, Nat.zero_le _⟩⟩
    · exact List.countP_eq_zero.mpr fun ρ hρ => by simp [newRun, hother ρ hρ]
    · exact List.countP_eq_zero.mpr fun ρ hρ => by simp [newRun, hother ρ hρ]
  · intro r r' hr hchange
    obtain ⟨hid, hplan, hcapability, hmodel⟩ := calls_of_change hchange
    exact hr.congr hid hplan hcapability hmodel
  · obtain ⟨hrequest, r, hr, hid⟩ := h.reserved ρ hρ
    obtain ⟨r', hr', hchange⟩ := hev.forward r hr
    exact ⟨hrequest, r', hr', (calls_of_change hchange).1.trans hid⟩

theorem Counted.moves (h : Counted plans s) (hs : Sound plans s)
    (hmove : Moves plans sha256 ttl s s') : Counted plans s' := by
  cases hmove with
  | run now op hlease => exact h.ran hs hlease
  | advance clock => exact ⟨h.runs, h.reserved, h.once, h.executed, h.executions⟩
  | issue grant request claims hissue => exact ⟨h.runs, h.reserved, h.once, h.executed, h.executions⟩
  | receive id claims invocation hnone hclaims =>
    have hkept {i : ℕ} {q : Request} (hq : s.requests i = some q) :
        (s.received id claims invocation).requests i = some q := by
      have hi : i ≠ id := by
        rintro rfl
        cases hnone.symm.trans hq
      exact (Function.update_of_ne hi _ _).trans hq
    refine ⟨h.runs, fun ρ hρ => ?_, h.once, fun i hi => ?_, h.executions⟩
    · obtain ⟨⟨q, hq, hphase⟩, hr⟩ := h.reserved ρ hρ
      exact ⟨⟨q, hkept hq, hphase⟩, hr⟩
    · obtain ⟨q, hq, hphase⟩ := h.executed i hi
      exact ⟨q, hkept hq, hphase⟩
  | request id q event phase t hq hprogress => exact h.progress hs hq hprogress

/-- **The invariants hold in every reachable state.** -/
theorem State.Reachable.counted (h : State.Reachable plans sha256 ttl s) :
    Sound plans s ∧ Owned sha256 s ∧ Counted plans s := by
  refine State.Reachable.induction (P := fun s => Owned sha256 s ∧ Counted plans s)
    (fun clock => ⟨?_, ?_⟩) (fun s s' hs hp hmove => ⟨hp.1.moves hmove, hp.2.moves hs hmove⟩) h
  · constructor <;> simp [State.start]
  · constructor <;> simp [State.start, RunSystem.start]

end

/-! ## Replays -/

/-- The state after a request came to the phase `phase`, and nothing else happened. -/
def State.turn (s : State) (id : ℕ) (q : Request) (phase : Phase) : State :=
  { s with requests := Function.update s.requests id (some { q with phase }) }

/-- Two requests have the same content. -/
def SameContent (a b : CapabilityRequest) : Prop := Jsonb.ofJson a.toJson = Jsonb.ofJson b.toJson

/-- Once it has passed the checks, the request `id` is answered `response` unless it crashes, and
nothing else happens. -/
structure Replays (plans : List HarnessPlan) (sha256 : List Char → String) (ttl : Option ℤ) (s : State)
    (id : ℕ) (q : Request) (response : Response) : Prop where
  /-- It has not reserved a receipt. -/
  idle : ¬ q.phase.Holding
  admitted : ∀ plan capability, q.phase = .admitted plan capability → ∀ event s',
    s.act plans sha256 ttl (.request id event) = some s' ↔
      event = .reserve ∧ s' = s.turn id q .conflicting ∨ event = .crash ∧ s' = s.turn id q .crashed
  conflicting : q.phase = .conflicting → ∀ event s',
    s.act plans sha256 ttl (.request id event) = some s' ↔
      event = .readReceipt ∧ s' = s.turn id q (.answered response) ∨
        event = .crash ∧ s' = s.turn id q .crashed

section

variable {plans : List HarnessPlan} {sha256 : List Char → String} {ttl : Option ℤ} {s s' : State}
  {id : ℕ} {q : Request}

theorem State.progress_eq_turn {event : Event} {phase : Phase} (hevent : event ≠ .readEpoch)
    (hevent' : event ≠ .invoke) (hphase : phase ≠ .reserved) :
    s.progress id q event phase ⟨s.runs, s.receipts⟩ = s.turn id q phase := by
  simp [State.progress, State.turn, hevent, hevent', State.reservation_eq_nil hphase]

theorem State.act_request (hq : s.requests id = some q) (event : Event) :
    s.act plans sha256 ttl (.request id event) =
      (q.step plans sha256 s.clock id ⟨s.runs, s.receipts⟩ event).map fun next =>
        s.progress id q event next.1 next.2 := by
  simp only [State.act, hq]

/-- A request whose id has a receipt does not reserve. -/
theorem reserveGatewayReceipt_conflict {now : Time} {row other : ReceiptRow} {budget : ReservationBudget}
    {t : Tables} (hother : other ∈ t.receipts) (hid : other.invocationId = row.invocationId) :
    reserveGatewayReceipt now row budget t = (.ok false, t) := by
  unfold reserveGatewayReceipt
  split
  · rfl
  · rw [if_pos ⟨other, hother, hid⟩]

/-- The receipt that a request finds after a conflict. -/
theorem existingGatewayReceipt_eq {row other : ReceiptRow} {rows : List ReceiptRow}
    (hids : (rows.map (·.invocationId)).Nodup) (hother : other ∈ rows)
    (hid : other.invocationId = row.invocationId) (hrun : other.runId = row.runId) :
    existingGatewayReceipt row rows = if other.requestDigest = row.requestDigest then .ok other.result
      else .error "gateway.idempotency_conflict" := by
  unfold existingGatewayReceipt
  split
  · next hnone => simpa [hid, hrun] using List.find?_eq_none.mp hnone other hother
  · next found hfound =>
    have hkey : found.invocationId = row.invocationId ∧ found.runId = row.runId := by
      simpa using List.find?_some hfound
    rw [List.inj_on_of_nodup_map hids (List.mem_of_find?_eq_some hfound) hother
      (hkey.1.trans hid.symm)]

/-- **Later requests under the id of a stored result.** -/
theorem Owned.replays (h : Owned sha256 s) {row : ReceiptRow} (hrow : row ∈ s.receipts) {value : Jsonb}
    (hvalue : row.result = some value) (hq : s.requests id = some q)
    (hid : row.invocationId = q.invocation.invocationId) (hrun : row.runId = q.claims.runId) :
    Replays plans sha256 ttl s id q
      (if row.requestDigest = stableDigest sha256 q.invocation.toJson then .result value
        else .error "gateway.idempotency_conflict") := by
  constructor
  · intro hphase
    rw [(h.reservedBy hq hphase hrow hid).2] at hvalue
    cases hvalue
  · intro plan capability hphase event s'
    have hconflict : reserveGatewayReceipt s.clock (q.receipt sha256 id)
        (reservationBudget plan capability) ⟨s.runs, s.receipts⟩ = (.ok false, ⟨s.runs, s.receipts⟩) :=
      reserveGatewayReceipt_conflict hrow hid
    rw [State.act_request hq]
    cases event <;> simp [Request.step, hphase, hconflict, Phase.Live, State.progress_eq_turn, eq_comm]
  · intro hphase event s'
    have hexisting : existingGatewayReceipt (q.receipt sha256 id) s.receipts =
        if row.requestDigest = stableDigest sha256 q.invocation.toJson then .ok row.result
          else .error "gateway.idempotency_conflict" := existingGatewayReceipt_eq h.ids hrow hid hrun
    rw [State.act_request hq]
    cases event with
    | readReceipt =>
      by_cases hdigest : row.requestDigest = stableDigest sha256 q.invocation.toJson
      · rw [if_pos hdigest] at hexisting ⊢
        simp [Request.step, hphase, hexisting, hvalue, State.progress_eq_turn, eq_comm]
      · rw [if_neg hdigest] at hexisting ⊢
        simp [Request.step, hphase, hexisting, State.progress_eq_turn, eq_comm]
    | _ => simp [Request.step, hphase, Phase.Live, State.progress_eq_turn, eq_comm]

end

namespace Sample

/-- The provider returns, and the same invocation comes in again. -/
def replayed : List Action := undisturbed ++
  [.request 0 (.return ⟨.null, "simulator", "recorded", none, ⟨none, none, none⟩⟩),
    .request 0 (.complete 5), .request 0 .recordCost,
    .receive 1 claims ⟨"INV-1", "lookup", .read, none⟩, .request 1 .readEpoch, .request 1 .readPlan,
    .request 1 .readRun]

theorem runAll_replayed : ((State.start 0).runAll plans String.ofList none replayed).map (fun s =>
    (s.receipts.map fun row => row.result.isSome, s.runs.map fun r => r.capabilityCalls)) =
      some ([true], [1]) := by decide +kernel

end Sample

/-! ## The promise -/

/-- What is promised in every reachable state. -/
structure ExactlyOnce (plans : List HarnessPlan) (sha256 : List Char → String) (ttl : Option ℤ)
    (s : State) : Prop where
  /-- A receipt is determined by its id. -/
  unique : (s.receipts.map (·.invocationId)).Nodup
  /-- A stored result is never replaced or deleted. -/
  permanent : ∀ s', State.Steps plans sha256 ttl s s' → ∀ row ∈ s.receipts, row.result.isSome →
    row ∈ s'.receipts
  /-- A stored result is the answer to every request of its run with its id and its content. Requests
  with another content are refused. -/
  replays : ∀ row ∈ s.receipts, ∀ value, row.result = some value →
    ∃ origin, s.requests row.reservedBy = some origin ∧ ∀ id q, s.requests id = some q →
      q.invocation.invocationId = row.invocationId → q.claims.runId = row.runId →
      (SameContent q.invocation origin.invocation → Replays plans sha256 ttl s id q (.result value)) ∧
      (¬ SameContent q.invocation origin.invocation →
        Replays plans sha256 ttl s id q (.error "gateway.idempotency_conflict"))
  /-- The counters of a run keep within the budget of its plan. -/
  budget : ∀ r ∈ s.runs, ∀ plan, getPlan plans r.planDigest = some plan →
    r.capabilityCalls ≤ plan.budgets.maxCapabilityCalls ∧ r.modelCalls ≤ plan.budgets.maxModelCalls
  /-- They count the reservations of the run. -/
  capabilityCalls : ∀ r ∈ s.runs, r.capabilityCalls = s.reservations.countP fun ρ => ρ.runId = r.runId
  modelCalls : ∀ r ∈ s.runs,
    r.modelCalls = s.reservations.countP fun ρ => ρ.runId = r.runId ∧ ρ.modelCall
  /-- A provider executes at most once for a request, after the one reservation of the request, which
  is of a run. -/
  reserved : (s.reservations.map (·.id)).Nodup
  executed : s.executions.Nodup
  preceded : ∀ id ∈ s.executions, ∃ ρ ∈ s.reservations, ρ.id = id ∧ ∃ r ∈ s.runs, r.runId = ρ.runId

section

variable {plans : List HarnessPlan} {sha256 : List Char → String} {ttl : Option ℤ} {s s' : State}

theorem State.Reachable.steps (h : State.Reachable plans sha256 ttl s)
    (hsteps : State.Steps plans sha256 ttl s s') : State.Reachable plans sha256 ttl s' := by
  obtain ⟨clock, hs⟩ := h
  exact ⟨clock, hs.trans hsteps⟩

theorem State.Reachable.permanent (h : State.Reachable plans sha256 ttl s)
    (hsteps : State.Steps plans sha256 ttl s s') {row : ReceiptRow} (hrow : row ∈ s.receipts)
    (hresult : row.result.isSome) : row ∈ s'.receipts := by
  induction hsteps with
  | refl => exact hrow
  | tail hs hstep ih => exact (h.steps hs).counted.2.1.stays hstep.moves ih hresult

theorem sameContent_iff (hsha : Function.Injective sha256) {a b : CapabilityRequest} :
    SameContent a b ↔ stableDigest sha256 b.toJson = stableDigest sha256 a.toJson := by
  constructor
  · intro heq
    have hvalue : canonicalize a.toJson = canonicalize b.toJson := congrArg Subtype.val heq
    rw [stableDigest, stableDigest, canonicalJson, canonicalJson, hvalue]
  · exact fun heq => Subtype.ext (stableDigest_injective hsha heq).symm

/-- **Exactly-once receipts and bounded budgets.** -/
theorem exactlyOnce (hsha : Function.Injective sha256) (h : State.Reachable plans sha256 ttl s) :
    ExactlyOnce plans sha256 ttl s := by
  obtain ⟨hs, ho, hc⟩ := h.counted
  refine
    { unique := ho.ids
      permanent := fun s' hsteps row hrow hresult => h.permanent hsteps hrow hresult
      replays := fun row hrow value hvalue => ?_
      budget := fun r hr => (hc.runs r hr).budget
      capabilityCalls := fun r hr => (hc.runs r hr).capabilityCalls
      modelCalls := fun r hr => (hc.runs r hr).modelCalls
      reserved := hc.once
      executed := hc.executions
      preceded := fun id hid => ?_ }
  · obtain ⟨origin, horigin, -, -, hdigest⟩ := ho.origin row hrow
    refine ⟨origin, horigin, fun id q hq hid hrun => ?_⟩
    have hreplays : Replays plans sha256 ttl s id q _ := ho.replays hrow hvalue hq hid.symm hrun.symm
    rw [hdigest] at hreplays
    rw [sameContent_iff hsha]
    constructor
    · intro hsame
      rwa [if_pos hsame] at hreplays
    · intro hdiffers
      rwa [if_neg hdiffers] at hreplays
  · obtain ⟨ρ, hρ, hid⟩ := hs.executions id hid
    exact ⟨ρ, hρ, hid, (hc.reserved ρ hρ).2⟩

/-- A request is answered, and another one comes in with the same invocation. -/
theorem exactlyOnce_sample : ∃ s, State.Reachable Sample.plans String.ofList none s ∧
    (s.receipts.map fun row => row.result.isSome) = [true] ∧
    (s.runs.map fun r => r.capabilityCalls) = [1] ∧ ExactlyOnce Sample.plans String.ofList none s := by
  obtain ⟨s, hrun, hs⟩ := Option.map_eq_some_iff.mp Sample.runAll_replayed
  obtain ⟨hreceipts, hruns⟩ := Prod.mk.inj hs
  have hreach := State.reachable_runAll hrun
  exact ⟨s, hreach, hreceipts, hruns, exactlyOnce (fun _ _ => String.ofList_injective) hreach⟩

end

end Gateway

end HarnessFramework
