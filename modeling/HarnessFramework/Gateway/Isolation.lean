import HarnessFramework.Gateway.ExactlyOnce
import HarnessFramework.Library.Noninterference

/-!
# Receipts of other runs

What a run sees of the gateway: its row, its receipts and its requests. Two histories agree on a run
when the same happens to it in both, whatever the envelopes and the requests of the other runs are.
The key of a receipt is the id that the caller chose for the invocation, without the run. So a run
sees another one where both have chosen the same id, and nowhere else.

## Main definitions

* `State.view` — what a run sees
* `Tables.Taken` — another run has a receipt with the id of an invocation
* `Action.Foreign`, `Joint`, `RunHistories` — two histories that agree on a run
* `reservationOutcome` — what `reserveGatewayReceipt` returns
* `Isolated` — the promise
* `Fair`, `Apart` — when it is kept

## Main results

* `Request.step_own` — a request of a run works on the rows of the run alone
* `Progress.own_eq` — a request of another run leaves them alone
* `isolated_iff` — the promise holds if and only if other runs take ids in both histories or in neither
* `Apart.fair` — they do, as long as they have none of the ids that the envelopes of the run name
-/

namespace HarnessFramework

namespace Gateway

open Persistence Execution Noninterference

/-! ## What a run sees -/

/-- The rows of a run. -/
def Tables.own (runId : String) (t : Tables) : Tables where
  runs := t.runs.filter fun r => r.runId = runId
  receipts := t.receipts.filter fun row => row.runId = runId

/-- Another run has a receipt with the id. -/
def Tables.Taken (runId invocationId : String) (t : Tables) : Prop :=
  ∃ row ∈ t.receipts, row.invocationId = invocationId ∧ row.runId ≠ runId

instance (runId invocationId : String) (t : Tables) : Decidable (t.Taken runId invocationId) := by
  unfold Tables.Taken; infer_instance

/-- What a run sees. The phases of requests have their answers. -/
structure View where
  clock : Time
  tables : Tables
  requests : ℕ → Option Request

/-- The tables of a state. -/
def State.tables (s : State) : Tables := ⟨s.runs, s.receipts⟩

/-- What the run `runId` sees of a state. -/
def State.view (runId : String) (s : State) : View where
  clock := s.clock
  tables := s.tables.own runId
  requests := fun id => (s.requests id).filter fun q => q.claims.runId = runId

/-! ## A request of the run -/

section

variable {plans : List HarnessPlan} {sha256 : List Char → String} {now : Time} {id : ℕ} {q : Request}
  {runId : String}

theorem currentFencingEpoch_own (rows : List RunRow) :
    currentFencingEpoch runId (rows.filter fun r => r.runId = runId) = currentFencingEpoch runId rows := by
  unfold currentFencingEpoch
  rw [find?_filter_of_imp fun r hr => hr.1]

theorem exists_run_own (rows : List RunRow) :
    (∃ r ∈ rows.filter fun r => r.runId = runId, r.runId = runId) ↔ ∃ r ∈ rows, r.runId = runId := by
  simp

theorem costOverflows_own {costUsd : Option ℚ} (rows : List RunRow) :
    CostOverflows runId costUsd (rows.filter fun r => r.runId = runId) ↔ CostOverflows runId costUsd rows := by
  constructor
  · rintro ⟨r, hr, hover⟩
    exact ⟨r, List.mem_of_mem_filter hr, hover⟩
  · rintro ⟨r, hr, hid, hover⟩
    exact ⟨r, List.mem_filter.mpr ⟨hr, decide_eq_true hid⟩, hid, hover⟩

theorem existingGatewayReceipt_own {row : ReceiptRow} (rows : List ReceiptRow) :
    existingGatewayReceipt row (rows.filter fun other => other.runId = row.runId) =
      existingGatewayReceipt row rows := by
  unfold existingGatewayReceipt
  rw [find?_filter_of_imp fun other hother => hother.2]

/-- A reservation reads and writes the rows of its run, unless another run has the id. -/
theorem reserveGatewayReceipt_own {row : ReceiptRow} {budget : ReservationBudget} {t : Tables}
    (hfree : ¬ t.Taken row.runId row.invocationId) :
    reserveGatewayReceipt now row budget (t.own row.runId) =
      let result := reserveGatewayReceipt now row budget t
      (result.1, result.2.own row.runId) := by
  have hfind : (t.own row.runId).runs.find? (fun r => r.runId = row.runId) =
      t.runs.find? fun r => r.runId = row.runId := find?_filter_of_imp fun r hr => hr
  have hconflict : (∃ other ∈ (t.own row.runId).receipts, other.invocationId = row.invocationId) ↔
      ∃ other ∈ t.receipts, other.invocationId = row.invocationId := by
    constructor
    · rintro ⟨other, hother, hid⟩
      exact ⟨other, List.mem_of_mem_filter hother, hid⟩
    · rintro ⟨other, hother, hid⟩
      have hrun : other.runId = row.runId := by_contra fun hne => hfree ⟨other, hother, hid, hne⟩
      exact ⟨other, List.mem_filter.mpr ⟨hother, by simpa using hrun⟩, hid⟩
  have hcount : rowCount (budget.Allows row.runId) (t.own row.runId).runs =
      rowCount (budget.Allows row.runId) t.runs := rowCount_filter fun r hr => hr.1
  unfold reserveGatewayReceipt
  rw [hfind, hcount]
  simp only [hconflict]
  split
  · rfl
  · split
    · rfl
    · split
      · simp only [Tables.own, List.filter_append]
        rw [filter_updateWhere fun r _ => by exact Iff.rfl]
        simp
      · rfl

/-- Where another run has the id, there is a conflict. -/
theorem reserveGatewayReceipt_taken {row : ReceiptRow} {budget : ReservationBudget} {t : Tables}
    (htaken : t.Taken row.runId row.invocationId) :
    reserveGatewayReceipt now row budget t = (.ok false, t) := by
  obtain ⟨other, hother, hid, -⟩ := htaken
  exact reserveGatewayReceipt_conflict hother hid

/-- **A request of a run works on the rows of the run alone**, unless another run has its id. -/
theorem Request.step_own {t : Tables} {event : Event}
    (hfree : ∀ plan capability, event = .reserve → q.phase = .admitted plan capability →
      ¬ t.Taken q.claims.runId q.invocation.invocationId) :
    q.step plans sha256 now id (t.own q.claims.runId) event =
      (q.step plans sha256 now id t event).map fun next => (next.1, next.2.own q.claims.runId) := by
  cases event with
  | readEpoch =>
    simp only [Request.step, Tables.own, currentFencingEpoch_own]
    split
    · split <;> rfl
    · rfl
  | readPlan =>
    simp only [Request.step]
    split
    · split
      · rfl
      · split <;> rfl
    · rfl
  | readRun =>
    simp only [Request.step, Tables.own, exists_run_own]
    split
    · split <;> rfl
    · rfl
  | reserve =>
    simp only [Request.step]
    split
    · next plan capability hphase =>
      have hreserve := @reserveGatewayReceipt_own now (q.receipt sha256 id)
        (reservationBudget plan capability) t (hfree plan capability rfl hphase)
      change reserveGatewayReceipt _ _ _ (t.own q.claims.runId) = _ at hreserve
      rw [hreserve]
      rcases reserveGatewayReceipt now (q.receipt sha256 id) (reservationBudget plan capability) t
        with ⟨_ | _ | _, t'⟩ <;> rfl
    · rfl
  | readReceipt =>
    have hexisting := @existingGatewayReceipt_own (q.receipt sha256 id) t.receipts
    change existingGatewayReceipt _ (t.own q.claims.runId).receipts = _ at hexisting
    simp only [Request.step, hexisting]
    split
    · split <;> rfl
    · rfl
  | complete latencyMs =>
    simp only [Request.step]
    split
    · simp only [Tables.own, completeGatewayReceipt, Option.map_some]
      rw [filter_updateWhere fun row _ => by exact Iff.rfl]
    · rfl
  | recordCost =>
    simp only [Request.step, Tables.own, costOverflows_own]
    split
    · split
      · rfl
      · simp only [recordCapabilityCost, Option.map_some]
        rw [filter_updateWhere fun r _ => by exact Iff.rfl]
    · rfl
  | abandon =>
    simp only [Request.step]
    split
    · simp only [Tables.own, abandonGatewayReceipt, Option.map_some, List.filter_filter, Bool.and_comm]
    · rfl
  | crash =>
    simp only [Request.step]
    split <;> rfl
  | _ =>
    simp only [Request.step]
    split <;> rfl

/-! ## A request of another run -/

/-- **A request of another run leaves the rows of a run alone.** -/
theorem Progress.own_eq {t t' : Tables} {event : Event} {phase : Phase}
    (h : Progress plans sha256 now id q t event phase t') (hother : q.claims.runId ≠ runId) :
    t'.own runId = t.own runId := by
  have hruns : t'.runs.filter (fun r => r.runId = runId) = t.runs.filter fun r => r.runId = runId := by
    rcases h.runs with hr | ⟨budget, hr⟩ | ⟨costUsd, hr⟩ <;> rw [hr]
    · rw [filter_updateWhere fun r _ => by exact Iff.rfl]
      refine updateWhere_eq_self fun r hr hallows => hother ?_
      exact hallows.1.symm.trans (of_decide_eq_true (List.mem_filter.mp hr).2)
    · rw [recordCapabilityCost, filter_updateWhere fun r _ => by exact Iff.rfl]
      refine updateWhere_eq_self fun r hr hid => hother ?_
      exact hid.symm.trans (of_decide_eq_true (List.mem_filter.mp hr).2)
  have hreceipts : t'.receipts.filter (fun row => row.runId = runId) =
      t.receipts.filter fun row => row.runId = runId := by
    cases h with
    | reserve plan capability t' hphase hres =>
      obtain ⟨tenantId, heq⟩ := hres.receipts
      rw [heq, List.filter_append]
      simp [Request.receipt, hother]
    | complete latencyMs response result hphase hresult =>
      rw [completeGatewayReceipt, filter_updateWhere fun row _ => by exact Iff.rfl]
      refine updateWhere_eq_self fun row hrow hid => hother ?_
      exact hid.2.symm.trans (of_decide_eq_true (List.mem_filter.mp hrow).2)
    | abandon code invocationId hphase hinvocation =>
      rw [abandonGatewayReceipt, List.filter_filter]
      refine List.filter_congr fun row _ => ?_
      by_cases hrow : row.runId = runId <;> simp [hrow, hother.symm]
    | _ => rfl
  rw [Tables.own, Tables.own, hruns, hreceipts]

/-! ## Two histories -/

/-- **A request does the same where its run sees the same**, if another run has its id in both tables
or in neither. -/
theorem Request.step_congr {t t' : Tables} {event : Event}
    (hown : t.own q.claims.runId = t'.own q.claims.runId)
    (hfair : ∀ plan capability, q.phase = .admitted plan capability →
      (t.Taken q.claims.runId q.invocation.invocationId ↔
        t'.Taken q.claims.runId q.invocation.invocationId)) :
    ((q.step plans sha256 now id t event).map fun next => (next.1, next.2.own q.claims.runId)) =
      (q.step plans sha256 now id t' event).map fun next => (next.1, next.2.own q.claims.runId) := by
  by_cases htaken : event = .reserve ∧ (∃ plan capability, q.phase = .admitted plan capability) ∧
      t.Taken q.claims.runId q.invocation.invocationId
  · obtain ⟨rfl, ⟨plan, capability, hphase⟩, htaken⟩ := htaken
    have hconflict (u : Tables) (hu : u.Taken q.claims.runId q.invocation.invocationId) :
        q.step plans sha256 now id u .reserve = some (.conflicting, u) := by
      have hreserve := @reserveGatewayReceipt_taken now (q.receipt sha256 id)
        (reservationBudget plan capability) u hu
      simp only [Request.step, hphase, hreserve]
    rw [hconflict t htaken, hconflict t' ((hfair plan capability hphase).mp htaken), Option.map_some,
      Option.map_some, hown]
  · have hfree : ∀ plan capability, event = .reserve → q.phase = .admitted plan capability →
        ¬ t.Taken q.claims.runId q.invocation.invocationId :=
      fun plan capability hevent hphase ht => htaken ⟨hevent, ⟨plan, capability, hphase⟩, ht⟩
    have hfree' : ∀ plan capability, event = .reserve → q.phase = .admitted plan capability →
        ¬ t'.Taken q.claims.runId q.invocation.invocationId :=
      fun plan capability hevent hphase ht =>
        hfree plan capability hevent hphase ((hfair plan capability hphase).mpr ht)
    rw [← Request.step_own hfree, ← Request.step_own hfree', hown]

end

/-- An action that is not about the run. Statements of other runs leave its row alone, and envelopes may
be issued to any run. -/
def Action.Foreign (runId : String) (s t : State) : Action → Prop
  | .run _ _ => (t.tables.own runId).runs = (s.tables.own runId).runs
  | .advance _ => False
  | .issue _ _ => True
  | .receive _ claims _ => claims.runId ≠ runId
  | .request id _ => ∀ q ∈ s.requests id, q.claims.runId ≠ runId

instance (runId : String) (s t : State) : DecidablePred (Action.Foreign runId s t) := fun action => by
  unfold Action.Foreign
  split <;> infer_instance

/-- What happens to the run in both histories. Statements on runs have the same effect on its row, and
its requests are the same. -/
def Joint (runId : String) (p : State × State) (actions : Action × Action) (p' : State × State) : Prop :=
  match actions with
  | (.run _ _, .run _ _) => (p'.1.tables.own runId).runs = (p'.2.tables.own runId).runs
  | (.advance clock, .advance clock') => clock = clock'
  | (.receive id claims invocation, .receive id' claims' invocation') =>
    claims.runId = runId ∧ id = id' ∧ claims = claims' ∧ invocation = invocation'
  | (.request id event, .request id' event') =>
    (∃ q ∈ p.1.requests id, q.claims.runId = runId) ∧ id = id' ∧ event = event'
  | _ => False

instance (runId : String) (p : State × State) (actions : Action × Action) (p' : State × State) :
    Decidable (Joint runId p actions p') := by
  unfold Joint
  split <;> infer_instance

section

variable (plans : List HarnessPlan) (sha256 : List Char → String) (ttl : Option ℤ) (runId : String)

/-- Two histories that agree on a run. -/
abbrev RunHistories : List (State × State) → Prop :=
  Histories (State.act plans sha256 ttl) (fun s => ∃ clock, s = State.start clock)
    (fun s action t => action.Foreign runId s t) (Joint runId)

/-- Another run has the id of a request that is about to reserve its receipt, in both histories or in
neither. -/
def Fair (p : State × State) : Prop :=
  ∀ id q plan capability, p.1.requests id = some q → q.claims.runId = runId →
    q.phase = .admitted plan capability →
    (p.1.tables.Taken runId q.invocation.invocationId ↔ p.2.tables.Taken runId q.invocation.invocationId)

end

section

variable {plans : List HarnessPlan} {sha256 : List Char → String} {ttl : Option ℤ} {runId : String}
  {s s' t t' : State} {action : Action} {past : List (State × State)}

theorem view_forall_update_some (requests : ℕ → Option Request) (id : ℕ) (q : Request) :
    (fun i => (Function.update requests id (some q) i).filter fun q => q.claims.runId = runId) =
      Function.update (fun i => (requests i).filter fun q => q.claims.runId = runId) id
        ((some q).filter fun q => q.claims.runId = runId) := by
  funext i
  by_cases hi : i = id
  · subst hi; simp only [Function.update_self]
  · simp only [Function.update_of_ne hi]

theorem State.view_tables (hview : s.view runId = s'.view runId) :
    s.tables.own runId = s'.tables.own runId := congrArg View.tables hview

theorem State.view_request {id : ℕ} {q : Request} (hview : s.view runId = s'.view runId) (hq : s.requests id = some q)
    (hrun : q.claims.runId = runId) : s'.requests id = some q := by
  have hsame : (s.requests id).filter (fun q => q.claims.runId = runId) =
      (s'.requests id).filter fun q => q.claims.runId = runId := congrFun (congrArg View.requests hview) id
  rw [hq, Option.filter_some_pos (by simpa using hrun)] at hsame
  exact (Option.filter_eq_some_iff.mp hsame.symm).1

/-- What other runs do does not show. -/
theorem State.view_foreign (hact : s.act plans sha256 ttl action = some t)
    (hforeign : action.Foreign runId s t) : t.view runId = s.view runId := by
  cases action with
  | run op now =>
    simp only [State.act] at hact
    split at hact <;> cases hact
    have hruns : (s.ran sha256 now op).tables.own runId = s.tables.own runId := by
      rw [Tables.own, Tables.own]
      exact congrArg (Tables.mk · _) hforeign
    rw [State.view, State.view, hruns]
    rfl
  | advance clock => exact hforeign.elim
  | issue grant request =>
    simp only [State.act] at hact
    split at hact <;> cases hact
    rfl
  | receive id claims invocation =>
    simp only [State.act] at hact
    split at hact <;> cases hact
    next hreceive =>
      have hnone : (s.requests id).filter (fun q => q.claims.runId = runId) = none := by
        rw [hreceive.1]; rfl
      rw [State.view, State.view]
      congr 1
      rw [State.received, view_forall_update_some]
      refine Function.update_eq_self_iff.mpr ?_
      rw [hnone]
      have hother : claims.runId ≠ runId := hforeign
      simp [hother]
  | request id event =>
    simp only [State.act] at hact
    split at hact
    · cases hact
    · next q hq =>
      obtain ⟨⟨phase, u⟩, hstep, rfl⟩ := Option.map_eq_some_iff.mp hact
      have hother : q.claims.runId ≠ runId := hforeign q hq
      have hown : u.own runId = s.tables.own runId := (Request.step_progress hstep).own_eq hother
      rw [State.view, State.view]
      congr 1
      rw [State.progress, view_forall_update_some]
      refine Function.update_eq_self_iff.mpr ?_
      rw [hq]
      exact (Option.filter_some_neg (by simpa using hother)).trans
        (Option.filter_some_neg (by simpa using hother)).symm

/-- What the run does shows in the same way. -/
theorem State.view_joint {action' : Action} (hact : s.act plans sha256 ttl action = some t)
    (hact' : s'.act plans sha256 ttl action' = some t')
    (hjoint : Joint runId (s, s') (action, action') (t, t')) (hfair : Fair runId (s, s'))
    (hview : s.view runId = s'.view runId) : t.view runId = t'.view runId := by
  obtain ⟨hclock, hown, hrequests⟩ := View.mk.inj hview
  unfold Joint at hjoint
  split at hjoint
  · next op now op' now' heq =>
    cases heq
    simp only [State.act] at hact hact'
    split at hact <;> cases hact
    split at hact' <;> cases hact'
    have htables : (s.ran sha256 now op).tables.own runId = (s'.ran sha256 now' op').tables.own runId := by
      rw [Tables.own, Tables.own]
      exact congrArg₂ Tables.mk hjoint (congrArg Tables.receipts hown)
    rw [State.view, State.view, htables]
    exact congrArg₂ (View.mk · _ ·) hclock hrequests
  · next clock clock' heq =>
    cases heq
    subst hjoint
    simp only [State.act] at hact hact'
    split at hact <;> cases hact
    split at hact' <;> cases hact'
    exact congrArg₂ (View.mk clock) hown hrequests
  · next id claims invocation id' claims' invocation' heq =>
    cases heq
    obtain ⟨-, rfl, rfl, rfl⟩ := hjoint
    simp only [State.act] at hact hact'
    split at hact <;> cases hact
    split at hact' <;> cases hact'
    rw [State.view, State.view, State.received, State.received, view_forall_update_some,
      view_forall_update_some, hrequests]
    exact congrArg₂ (View.mk · · _) hclock hown
  · next id event id' event' heq =>
    cases heq
    obtain ⟨⟨q, hq, hrun⟩, rfl, rfl⟩ := hjoint
    have hq' : s'.requests id = some q := State.view_request hview hq hrun
    subst hrun
    rw [State.act_request hq] at hact
    rw [State.act_request hq'] at hact'
    obtain ⟨⟨phase, u⟩, hstep, rfl⟩ := Option.map_eq_some_iff.mp hact
    obtain ⟨⟨phase', u'⟩, hstep', rfl⟩ := Option.map_eq_some_iff.mp hact'
    have hsame := @Request.step_congr plans sha256 s.clock id q s.tables s'.tables event hown
      fun plan capability hphase => hfair id q plan capability hq rfl hphase
    have hclock' : s.clock = s'.clock := hclock
    rw [show q.step plans sha256 s.clock id s.tables event = some (phase, u) from hstep, hclock',
      show q.step plans sha256 s'.clock id s'.tables event = some (phase', u') from hstep'] at hsame
    obtain ⟨rfl, hu⟩ : phase = phase' ∧ u.own q.claims.runId = u'.own q.claims.runId :=
      Prod.mk.inj (Option.some.inj hsame)
    rw [State.view, State.view, State.progress, State.progress, view_forall_update_some,
      view_forall_update_some, hrequests]
    exact congrArg₂ (View.mk · · _) hclock hu
  · exact hjoint.elim

end

/-! ## The promise -/

/-- What `reserveGatewayReceipt` returns when nothing comes between its statements: whether it has
created a receipt, and the result of the one that was there. -/
def reservationOutcome (now : Time) (row : ReceiptRow) (budget : ReservationBudget) (t : Tables) :
    Except String (Bool × Option Jsonb) :=
  match reserveGatewayReceipt now row budget t with
  | (.ok true, _) => .ok (true, none)
  | (.ok false, t') => (existingGatewayReceipt row t'.receipts).map fun result => (false, result)
  | (.error code, _) => .error code

/-- What it returns to a request. -/
def State.outcome (sha256 : List Char → String) (s : State) (id : ℕ) (q : Request) (plan : HarnessPlan)
    (capability : CapabilityDefinition) : Except String (Bool × Option Jsonb) :=
  reservationOutcome s.clock (q.receipt sha256 id) (reservationBudget plan capability) s.tables

/-- Two histories are the same to a run: what happened to its row, its receipts and its requests, and
what the requests that are about to reserve a receipt are going to get. -/
structure Isolated (sha256 : List Char → String) (runId : String) (p : State × State) : Prop where
  view : p.1.view runId = p.2.view runId
  outcome : ∀ id q plan capability, p.1.requests id = some q → q.claims.runId = runId →
    q.phase = .admitted plan capability →
    p.1.outcome sha256 id q plan capability = p.2.outcome sha256 id q plan capability

section

variable {now : Time} {row : ReceiptRow} {budget : ReservationBudget} {t : Tables}

theorem reservationOutcome_own (hfree : ¬ t.Taken row.runId row.invocationId) :
    reservationOutcome now row budget (t.own row.runId) = reservationOutcome now row budget t := by
  have hreserve := @reserveGatewayReceipt_own now row budget t hfree
  unfold reservationOutcome
  rw [hreserve]
  rcases reserveGatewayReceipt now row budget t with ⟨_ | _ | _, t'⟩
  · rfl
  · exact congrArg (Except.map _) (existingGatewayReceipt_own t'.receipts)
  · rfl

/-- Where another run has the id, the run is refused. -/
theorem reservationOutcome_taken (hids : (t.receipts.map (·.invocationId)).Nodup)
    (htaken : t.Taken row.runId row.invocationId) :
    reservationOutcome now row budget t = .error "gateway.idempotency_conflict" := by
  have hnone : t.receipts.find? (fun other => other.invocationId = row.invocationId ∧
      other.runId = row.runId) = none := by
    obtain ⟨other, hother, hid, hne⟩ := htaken
    rw [List.find?_eq_none]
    intro own hown hsame
    obtain ⟨hid', hrun⟩ := of_decide_eq_true hsame
    obtain rfl := List.inj_on_of_nodup_map hids hown hother (hid'.trans hid.symm)
    exact hne hrun
  simp only [reservationOutcome, reserveGatewayReceipt_taken htaken, existingGatewayReceipt, hnone]
  rfl

/-- Where nobody has it, the run gets a receipt, or has no budget. -/
theorem reservationOutcome_fresh (hrun : ∃ r ∈ t.runs, r.runId = row.runId)
    (hfresh : ∀ other ∈ t.receipts, other.invocationId ≠ row.invocationId) :
    reservationOutcome now row budget t ≠ .error "gateway.idempotency_conflict" := by
  obtain ⟨r, hr, hid⟩ := hrun
  have hnew : ¬ ∃ other ∈ t.receipts, other.invocationId = row.invocationId :=
    fun ⟨other, hother, heq⟩ => hfresh other hother heq
  have hreserve : (reserveGatewayReceipt now row budget t).1 = .ok true ∨
      (reserveGatewayReceipt now row budget t).1 = .error "gateway.budget_denied" := by
    unfold reserveGatewayReceipt
    split
    · next hnone => exact absurd (decide_eq_true hid) (List.find?_eq_none.mp hnone r hr)
    · rw [if_neg hnew]
      split
      · exact .inl rfl
      · exact .inr rfl
  unfold reservationOutcome
  generalize reserveGatewayReceipt now row budget t = reserved at hreserve ⊢
  obtain ⟨result, t'⟩ := reserved
  obtain rfl | rfl : result = .ok true ∨ result = .error "gateway.budget_denied" := hreserve
  · simp
  · simp

variable {plans : List HarnessPlan} {sha256 : List Char → String} {ttl : Option ℤ} {s s' : State}
  {id : ℕ} {q : Request} {plan : HarnessPlan} {capability : CapabilityDefinition} {runId : String}
  {past : List (State × State)}

/-- Where a run gets the same in two states, another run has the id in both. -/
theorem taken_of_outcome_eq (hs : State.Reachable plans sha256 ttl s)
    (hs' : State.Reachable plans sha256 ttl s') (hq' : s'.requests id = some q)
    (hown : s.tables.own q.claims.runId = s'.tables.own q.claims.runId)
    (houtcome : s.outcome sha256 id q plan capability = s'.outcome sha256 id q plan capability)
    (htaken : s.tables.Taken q.claims.runId q.invocation.invocationId) :
    s'.tables.Taken q.claims.runId q.invocation.invocationId := by
  obtain ⟨-, howned, -⟩ := hs.counted
  obtain ⟨hsound', -⟩ := hs'.counted
  by_contra hfree
  have hconflict : s.outcome sha256 id q plan capability = .error "gateway.idempotency_conflict" :=
    reservationOutcome_taken howned.ids htaken
  obtain ⟨r, hr, hid, -⟩ := hsound'.envelopes q.claims (hsound'.claims id q hq')
  refine @reservationOutcome_fresh s'.clock (q.receipt sha256 id) (reservationBudget plan capability)
    s'.tables ⟨r, hr, hid⟩ (fun other hother hinvocation => ?_) (houtcome.symm.trans hconflict)
  -- The receipt is not of another run, so it is in both states: next to one with the same id.
  have hrun : other.runId = q.claims.runId :=
    by_contra fun hne => hfree ⟨other, hother, hinvocation, hne⟩
  have hmem : other ∈ (s'.tables.own q.claims.runId).receipts :=
    List.mem_filter.mpr ⟨hother, by simpa using hrun⟩
  rw [← hown] at hmem
  obtain ⟨foreign, hforeign, hforeignId, hne⟩ := htaken
  obtain rfl := List.inj_on_of_nodup_map howned.ids hforeign (List.mem_of_mem_filter hmem)
    (hforeignId.trans hinvocation.symm)
  exact hne hrun

theorem RunHistories.reachable (h : RunHistories plans sha256 ttl runId past) :
    ∀ p ∈ past, State.Reachable plans sha256 ttl p.1 ∧ State.Reachable plans sha256 ttl p.2 := by
  refine h.forall (fun s hs => ?_) fun s action t hact hs => hs.steps (.single ⟨action, hact⟩)
  obtain ⟨clock, rfl⟩ := hs
  exact ⟨clock, .refl⟩

/-- **Receipts of other runs.** Two histories that agree on a run are the same to it if and only if,
whenever it is about to reserve a receipt, another run has the id in both of them or in neither. -/
theorem isolated_iff (h : RunHistories plans sha256 ttl runId past) :
    (∀ p ∈ past, Isolated sha256 runId p) ↔ ∀ p ∈ past, Fair runId p := by
  constructor
  · rintro hisolated p hp id q plan capability hq rfl hphase
    obtain ⟨hreach, hreach'⟩ := h.reachable p hp
    have hview := (hisolated p hp).view
    have hown := State.view_tables hview
    have hq' := State.view_request hview hq rfl
    have houtcome := (hisolated p hp).outcome id q plan capability hq rfl hphase
    exact ⟨taken_of_outcome_eq hreach hreach' hq' hown houtcome,
      taken_of_outcome_eq hreach' hreach hq hown.symm houtcome.symm⟩
  · intro hfair
    have hview : ∀ p ∈ past, p.1.view runId = p.2.view runId :=
      h.view_eq (fun s action t hact halone => State.view_foreign hact halone)
        (fun p actions p' hact hact' hjoint hf hv => State.view_joint hact hact' hjoint hf hv) hfair
    intro p hp
    refine ⟨hview p hp, ?_⟩
    rintro id q plan capability hq rfl hphase
    obtain ⟨hreach, hreach'⟩ := h.reachable p hp
    have hown := State.view_tables (hview p hp)
    have hclock : p.1.clock = p.2.clock := congrArg View.clock (hview p hp)
    have hiff := hfair p hp id q plan capability hq rfl hphase
    by_cases htaken : p.1.tables.Taken q.claims.runId q.invocation.invocationId
    · exact (reservationOutcome_taken hreach.counted.2.1.ids htaken).trans
        (reservationOutcome_taken hreach'.counted.2.1.ids (hiff.mp htaken)).symm
    · have hfree : ¬ p.2.tables.Taken q.claims.runId q.invocation.invocationId :=
        fun ht => htaken (hiff.mpr ht)
      have hleft := @reservationOutcome_own p.1.clock (q.receipt sha256 id)
        (reservationBudget plan capability) p.1.tables htaken
      have hright := @reservationOutcome_own p.2.clock (q.receipt sha256 id)
        (reservationBudget plan capability) p.2.tables hfree
      rw [State.outcome, State.outcome, ← hleft, ← hright, hclock]
      exact congrArg _ hown

/-! ## Ids that are kept apart -/

/-- A request that goes on has the id of its envelope. -/
def Named (s : State) : Prop :=
  ∀ id q, s.requests id = some q → q.phase.Live → q.claims.jti = q.invocation.invocationId

theorem Progress.live {event : Event} {phase : Phase} {t t' : Tables}
    (h : Progress plans sha256 now id q t event phase t') (hphase : phase.Live) : q.phase.Live := by
  cases h with
  | refuse | overflow | recordCost | abandon | crash => exact hphase.elim
  | throw code hold => rcases hold with hold | hold <;> rw [hold] <;> trivial
  | fence hold => rw [hold]; trivial
  | plan _ _ hold => rw [hold]; trivial
  | run _ _ hold => rw [hold]; trivial
  | reserve _ _ _ hold => rw [hold]; trivial
  | conflict _ _ hold => rw [hold]; trivial
  | invoke hold => rw [hold]; trivial
  | «return» _ hold => rw [hold]; trivial
  | complete _ _ _ hold => rw [hold]; trivial

theorem State.Reachable.named (h : State.Reachable plans sha256 ttl s) : Sound plans s ∧ Named s := by
  refine State.Reachable.induction (fun clock => ?_) (fun s s' _ hn hmove => ?_) h
  · exact fun id q hq => nomatch hq
  · cases hmove with
    | receive id claims invocation =>
      refine forall_update_some (fun i q hq _ => hn i q hq) fun hlive => ?_
      dsimp only [arrival] at hlive
      split at hlive
      · next hcheck =>
        obtain ⟨hjti, -⟩ := Checks.ensure_bind_eq_ok.mp hcheck
        exact hjti
      · exact hlive.elim
    | request id q event phase t hq hprogress =>
      exact forall_update_some (fun i q hq _ => hn i q hq) fun hlive => hn id q hq (hprogress.live hlive)
    | _ => exact hn

/-- Other runs have none of the ids that the envelopes of a run name. -/
def Apart (runId : String) (p : State × State) : Prop :=
  ∀ row ∈ p.1.receipts ++ p.2.receipts, row.runId ≠ runId →
    ∀ c ∈ p.1.envelopes, c.runId = runId → c.jti ≠ row.invocationId

instance (runId : String) (p : State × State) : Decidable (Apart runId p) := by
  unfold Apart; infer_instance

/-- Where ids are kept apart, nothing that a run does tells two histories apart. -/
theorem Apart.fair {p : State × State} (h : Apart runId p) (hs : State.Reachable plans sha256 ttl p.1) :
    Fair runId p := by
  obtain ⟨hsound, hnamed⟩ := hs.named
  rintro id q plan capability hq hrun hphase
  have hjti : q.claims.jti = q.invocation.invocationId := hnamed id q hq (by rw [hphase]; trivial)
  have hfree (row : ReceiptRow) (hrow : row ∈ p.1.receipts ++ p.2.receipts)
      (hid : row.invocationId = q.invocation.invocationId) : ¬ row.runId ≠ runId :=
    fun hne => h row hrow hne q.claims (hsound.claims id q hq) hrun (hjti.trans hid.symm)
  constructor
  · rintro ⟨row, hrow, hid, hne⟩
    exact (hfree row (List.mem_append_left _ hrow) hid hne).elim
  · rintro ⟨row, hrow, hid, hne⟩
    exact (hfree row (List.mem_append_right _ hrow) hid hne).elim

end

namespace Sample

/-- Two tenants have a run of the same plan. -/
def together : List (Turn Action) :=
  [.run (.createRun "1" ⟨"plan", .null, "key", "tenant"⟩) 0,
    .run (.createRun "2" ⟨"plan", .null, "key", "other"⟩) 0, .run (.claimRun "worker" 60 []) 0,
    .run (.claimRun "worker" 60 []) 0].map fun action => .both action action

/-- The first run comes to its reservation. -/
def own : List (Turn Action) :=
  let issue : Action := .issue ⟨"RUN-1", 1, "worker", "plan", 1⟩ ⟨"RUN-1", "node", 1, "INV-1"⟩
  [.left issue, .right issue] ++
    [.receive 0 claims ⟨"INV-1", "lookup", .read, none⟩, .request 0 .readEpoch, .request 0 .readPlan,
      .request 0 .readRun].map fun action => .both action action

/-- In the left history the second run invokes something under the id of its choice. -/
def foreign (invocationId : String) : List (Turn Action) :=
  [.issue ⟨"RUN-2", 1, "worker", "plan", 1⟩ ⟨"RUN-2", "node", 1, invocationId⟩,
    .receive 1 { claims with jti := invocationId, runId := "RUN-2" } ⟨invocationId, "lookup", .read, none⟩,
    .request 1 .readEpoch, .request 1 .readPlan, .request 1 .readRun, .request 1 .reserve].map .left

/-- The histories after turns, as far as the first run can go on. -/
def histories (turns : List (Turn Action)) : Option (List (State × State)) :=
  play (State.act plans String.ofList none) (fun s action t => action.Foreign "RUN-1" s t)
    (Joint "RUN-1") turns [(State.start 0, State.start 0)]

theorem runHistories {turns : List (Turn Action)} {past : List (State × State)}
    (h : histories turns = some past) : RunHistories plans String.ofList none "RUN-1" past :=
  histories_play (.start _ ⟨0, rfl⟩) h

instance : DecidableEq (Except String (Bool × Option Jsonb)) := fun _ _ => inferInstance

/-- What the first request of the first run is going to get in the last pair of states. -/
def outcomes (past : List (State × State)) :
    Option (Except String (Bool × Option Jsonb) × Except String (Bool × Option Jsonb)) :=
  past.head?.bind fun p => (p.1.requests 0).bind fun q => match q.phase with
    | .admitted plan capability => if q.claims.runId = "RUN-1" then
      some (p.1.outcome String.ofList 0 q plan capability, p.2.outcome String.ofList 0 q plan capability)
      else none
    | _ => none

theorem outcomes_isolated {past : List (State × State)}
    {o o' : Except String (Bool × Option Jsonb)} (h : outcomes past = some (o, o'))
    (hisolated : ∀ p ∈ past, Isolated String.ofList "RUN-1" p) : o = o' := by
  obtain ⟨p, hp, h⟩ := Option.bind_eq_some_iff.mp h
  obtain ⟨q, hq, h⟩ := Option.bind_eq_some_iff.mp h
  split at h
  · next plan capability hphase =>
    split at h
    · next hrun =>
      obtain ⟨rfl, rfl⟩ := Prod.mk.inj (Option.some.inj h)
      exact (hisolated p (List.mem_of_head? hp)).outcome 0 q plan capability hq hrun hphase
    · cases h
  · cases h

theorem outcomes_apart : (histories (together ++ own ++ foreign "INV-2")).map (fun past =>
    (outcomes past, past.all fun p => Apart "RUN-1" p)) =
      some (some (.ok (true, none), .ok (true, none)), true) := by decide +kernel

theorem outcomes_taken : (histories (together ++ own ++ foreign "INV-1")).map outcomes =
    some (some (.error "gateway.idempotency_conflict", .ok (true, none))) := by decide +kernel

end Sample

/-- The second run invokes something under another id. -/
theorem isolated_iff_sample : ∃ past, RunHistories Sample.plans String.ofList none "RUN-1" past ∧
    Sample.outcomes past = some (.ok (true, none), .ok (true, none)) ∧
    ∀ p ∈ past, Isolated String.ofList "RUN-1" p := by
  obtain ⟨past, hplay, hpast⟩ := Option.map_eq_some_iff.mp Sample.outcomes_apart
  obtain ⟨houtcomes, hapart⟩ := Prod.mk.inj hpast
  have h := Sample.runHistories hplay
  refine ⟨past, h, houtcomes, (isolated_iff h).mpr fun p hp => ?_⟩
  exact Apart.fair (of_decide_eq_true (List.all_eq_true.mp hapart p hp)) (h.reachable p hp).1

/-- The second run has taken the id that the first one is about to use: the first one is refused. -/
theorem isolated_fails : ∃ past, RunHistories Sample.plans String.ofList none "RUN-1" past ∧
    Sample.outcomes past = some (.error "gateway.idempotency_conflict", .ok (true, none)) ∧
    ¬ ∀ p ∈ past, Isolated String.ofList "RUN-1" p := by
  obtain ⟨past, hplay, houtcomes⟩ := Option.map_eq_some_iff.mp Sample.outcomes_taken
  exact ⟨past, Sample.runHistories hplay, houtcomes, fun h => nomatch Sample.outcomes_isolated houtcomes h⟩

end Gateway

end HarnessFramework
