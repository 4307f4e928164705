import HarnessFramework.Gateway.InvokeSpec

/-!
# The chain of authority

A dispatcher claims a run and mints a grant. The broker of the control API exchanges the grant for an
envelope: it reads the run, its epoch and its plan, each in a round trip of its own. The gateway takes an
envelope and reads the epoch, the plan and the run again. Whatever happens in between, an invocation is
accepted for what the plan of the run permits at the node of the envelope, and an envelope is signed for
an epoch that the run was running at after the broker was asked.

## Main definitions

* `BrokerPhase`, `BrokerEvent`, `BrokerRequest.step` — a request to the broker, one round trip at a time
* `Chain`, `Chain.act`, `Chain.Steps` — the dispatcher, the broker and the gateway side by side
* `Phase.Accepted`, `Permits` — an invocation was accepted, and what a plan permits

## Main results

* `issueExecutionEnvelope_ok_iff` — the broker, when nothing happens between its reads
* `Chain.Sound.step` — what holds of the chain
* `no_amplification` — no capability is amplified
-/

namespace HarnessFramework

namespace Gateway

open Persistence Execution Checks

/-! ## The broker, one round trip at a time -/

/-- How far a request to the broker is. -/
inductive BrokerPhase
  /-- The grant is one for the run and the attempt. -/
  | received
  /-- The run is running, under the plan of the grant. -/
  | found (run : RunRow)
  /-- The epoch of the grant is the current one. -/
  | fenced (run : RunRow) (epoch : ℕ)
  | signed (claims : ExecutionEnvelopeClaims)
  | refused (error : EnvelopeBrokerError)
  /-- The process or its connection died. -/
  | crashed

structure BrokerRequest where
  grant : RuntimeGrantClaims
  request : EnvelopeRequest
  phase : BrokerPhase

/-- A round trip of a request to the broker, or the end of its process. -/
inductive BrokerEvent
  | readRun
  | readEpoch
  | readPlan
  | crash

/-- The phase of a request with a grant that verifies. -/
def brokerArrival (grant : RuntimeGrantClaims) (request : EnvelopeRequest) : BrokerPhase :=
  if grant.runId ≠ request.runId then .refused (brokerError "broker.run_mismatch")
  else if grant.attempt ≠ request.attempt then .refused (brokerError "broker.attempt_mismatch")
  else .received

/-- The envelope for a node that a plan permits. -/
def brokerEnvelope (ttl : Option ℤ) (now : Time) (request : EnvelopeRequest) (plan : HarnessPlan)
    (permission : PermissionEnvelope) (epoch : ℕ) : ExecutionEnvelopeClaims :=
  mintExecutionEnvelope now
    { invocationId := request.invocationId
      runId := request.runId
      nodeId := request.nodeId
      attempt := request.attempt
      planDigest := plan.planDigest
      permissionDigest := permission.digest
      capabilities := permission.capabilities
      effects := permission.effects
      caseWrites := declaredCaseWrites plan request.nodeId
      fencingEpoch := epoch
      ttlSeconds := some (ttl.getD 60) }

section

variable (plans : List HarnessPlan) (ttl : Option ℤ) (now : Time) (rows : List RunRow)

/-- `issueExecutionEnvelope`, one round trip at a time. -/
def BrokerRequest.step (b : BrokerRequest) : BrokerEvent → Option BrokerPhase
  | .readRun => match b.phase with
    | .received => match rows.find? fun r => r.runId = b.request.runId with
      | none => some (.refused ⟨"broker.run_not_found", 404⟩)
      | some run =>
        if run.status ≠ .running then some (.refused (brokerError "broker.run_not_running"))
        else if run.planDigest ≠ b.grant.planDigest then
          some (.refused (brokerError "broker.plan_mismatch"))
        else some (.found run)
    | _ => none
  | .readEpoch => match b.phase with
    | .found run => match currentFencingEpoch b.request.runId rows with
      | none => some (.refused (brokerError "broker.stale_fence"))
      | some epoch =>
        if epoch ≠ b.grant.fencingEpoch then some (.refused (brokerError "broker.stale_fence"))
        else some (.fenced run epoch)
    | _ => none
  | .readPlan => match b.phase with
    | .fenced run epoch => match getPlan plans run.planDigest with
      | none => some (.refused ⟨"broker.plan_not_admitted", 404⟩)
      | some plan => match plan.permissionEnvelopes.find? fun item => item.nodeId = b.request.nodeId with
        | none => some (.refused (brokerError "broker.node_not_permitted"))
        | some permission => some (.signed (brokerEnvelope ttl now b.request plan permission epoch))
    | _ => none
  | .crash => match b.phase with
    | .received | .found _ | .fenced .. => some .crashed
    | _ => none

end

section

variable {plans : List HarnessPlan} {ttl : Option ℤ} {now : Time} {rows : List RunRow}
  {b : BrokerRequest} {phase : BrokerPhase}

/-- What a request to the broker comes to. -/
inductive BrokerProgress (plans : List HarnessPlan) (ttl : Option ℤ) (now : Time) (rows : List RunRow)
    (b : BrokerRequest) : BrokerPhase → Prop
  | refused (error) : BrokerProgress plans ttl now rows b (.refused error)
  | crashed : BrokerProgress plans ttl now rows b .crashed
  | found (run) : b.phase = .received → rows.find? (fun r => r.runId = b.request.runId) = some run →
      run.status = .running → run.planDigest = b.grant.planDigest →
      BrokerProgress plans ttl now rows b (.found run)
  | fenced (run) (epoch) : b.phase = .found run →
      currentFencingEpoch b.request.runId rows = some epoch → epoch = b.grant.fencingEpoch →
      BrokerProgress plans ttl now rows b (.fenced run epoch)
  | signed (run) (epoch) (plan) (permission) : b.phase = .fenced run epoch →
      getPlan plans run.planDigest = some plan →
      plan.permissionEnvelopes.find? (fun item => item.nodeId = b.request.nodeId) = some permission →
      BrokerProgress plans ttl now rows b (.signed (brokerEnvelope ttl now b.request plan permission epoch))

theorem BrokerRequest.step_progress {event : BrokerEvent}
    (h : b.step plans ttl now rows event = some phase) : BrokerProgress plans ttl now rows b phase := by
  cases event with
  | readRun =>
    simp only [step] at h
    split at h
    · next hphase =>
      split at h
      · cases h; exact .refused _
      · next run hrun =>
        split at h
        · cases h; exact .refused _
        · next hstatus =>
          split at h <;> cases h
          · exact .refused _
          · next hplan =>
            exact .found run hphase hrun (not_ne_iff.mp hstatus) (not_ne_iff.mp hplan)
    · cases h
  | readEpoch =>
    simp only [step] at h
    split at h
    · next run hphase =>
      split at h
      · cases h; exact .refused _
      · next epoch hepoch =>
        split at h <;> cases h
        · exact .refused _
        · next heq => exact .fenced run epoch hphase hepoch (not_ne_iff.mp heq)
    · cases h
  | readPlan =>
    simp only [step] at h
    split at h
    · next run epoch hphase =>
      split at h
      · cases h; exact .refused _
      · next plan hplan =>
        split at h <;> cases h
        · exact .refused _
        · next permission hpermission => exact .signed run epoch plan permission hphase hplan hpermission
    · cases h
  | crash =>
    simp only [step] at h
    split at h <;> cases h <;> exact .crashed

/-- **The broker, when nothing happens between its reads**, does what `issueExecutionEnvelope` does. -/
theorem issueExecutionEnvelope_ok_iff {grant : RuntimeGrantClaims} {request : EnvelopeRequest}
    {claims : ExecutionEnvelopeClaims} :
    issueExecutionEnvelope plans ttl now rows grant request = .ok claims ↔
      brokerArrival grant request = .received ∧ ∃ run epoch,
        (BrokerRequest.mk grant request .received).step plans ttl now rows .readRun = some (.found run) ∧
        (BrokerRequest.mk grant request (.found run)).step plans ttl now rows .readEpoch =
          some (.fenced run epoch) ∧
        (BrokerRequest.mk grant request (.fenced run epoch)).step plans ttl now rows .readPlan =
          some (.signed claims) := by
  simp only [issueExecutionEnvelope, ensure_bind_eq_ok, orThrow_bind_eq_ok, pure_eq_ok]
  constructor
  · rintro ⟨hrun, hattempt, run, hfind, hstatus, hplan, epoch, hepoch, hgrant, plan, hget, permission,
      hpermission, rfl⟩
    refine ⟨by simp [brokerArrival, hrun, hattempt], run, epoch, ?_, ?_, ?_⟩
    · simp [BrokerRequest.step, hfind, hstatus, hplan]
    · simp [BrokerRequest.step, hepoch, hgrant]
    · simp [BrokerRequest.step, hget, hpermission, brokerEnvelope]
  · rintro ⟨harrival, run, epoch, hfound, hfenced, hsigned⟩
    have hmatch : grant.runId = request.runId ∧ grant.attempt = request.attempt := by
      unfold brokerArrival at harrival
      split at harrival
      · cases harrival
      · split at harrival
        · cases harrival
        · next hrun hattempt => exact ⟨not_ne_iff.mp hrun, not_ne_iff.mp hattempt⟩
    refine ⟨hmatch.1, hmatch.2, run, ?_⟩
    cases BrokerRequest.step_progress hfound with
    | found _ _ hrun hstatus hplan =>
      cases BrokerRequest.step_progress hfenced with
      | fenced _ _ _ hepoch hgrant =>
        cases BrokerRequest.step_progress hsigned with
        | signed run' epoch' plan permission hphase hget hpermission =>
          obtain ⟨rfl, rfl⟩ := BrokerPhase.fenced.inj hphase
          exact ⟨hrun, hstatus, hplan, epoch, hepoch, hgrant, plan, hget, permission, hpermission, rfl⟩

end

/-! ## What a plan permits -/

/-- The plan under a digest permits a capability and an effect at a node, and the effect is the one of
the capability. -/
def Permits (plans : List HarnessPlan) (planDigest nodeId capabilityId : String) (effect : EffectClass) :
    Prop :=
  ∃ plan permission capability, getPlan plans planDigest = some plan ∧
    plan.permissionEnvelopes.find? (fun item => item.nodeId = nodeId) = some permission ∧
    capabilityId ∈ permission.capabilities ∧ effect ∈ permission.effects ∧
    plan.capabilities.find? (fun item => item.id = capabilityId) = some capability ∧
    capability.effect = effect

/-- The invocation of a request was accepted. -/
def Phase.Accepted : Phase → Prop
  | .received | .fenced | .answered (.error _) | .crashed => False
  | _ => True

section

variable {plans : List HarnessPlan} {sha256 : List Char → String} {now : Time} {id : ℕ} {q : Request}
  {t t' : Tables} {event : Event} {phase : Phase}

/-- A plan that is there stays the plan under its digest. -/
theorem Permits.append {planDigest nodeId capabilityId : String} {effect : EffectClass}
    (h : Permits plans planDigest nodeId capabilityId effect) (more : List HarnessPlan) :
    Permits (plans ++ more) planDigest nodeId capabilityId effect := by
  obtain ⟨plan, permission, capability, hplan, hrest⟩ := h
  refine ⟨plan, permission, capability, ?_, hrest⟩
  rw [getPlan] at hplan ⊢
  rw [List.find?_append, hplan, Option.some_or]

/-- The checks on the plan. -/
theorem resolveCapability_ok {plan : HarnessPlan} {claims : ExecutionEnvelopeClaims}
    {invocation : CapabilityRequest} {capability : CapabilityDefinition}
    (hplan : getPlan plans claims.planDigest = some plan)
    (h : resolveCapability plan claims invocation = .ok capability) :
    Permits plans claims.planDigest claims.nodeId invocation.capabilityId invocation.effect := by
  simp only [resolveCapability, orThrow_bind_eq_ok, ensure_bind_eq_ok, pure_eq_ok] at h
  obtain ⟨permission, hpermission, -, hcapability, heffect, found, hfound, hsame, -⟩ := h
  exact ⟨plan, permission, found, hplan, hpermission, hcapability, heffect, hfound, hsame⟩

/-- An invocation is accepted when the plan that is read permits it. -/
theorem Request.accepted_step (h : q.step plans sha256 now id t event = some (phase, t'))
    (haccepted : phase.Accepted) : q.phase.Accepted ∨
      Permits plans q.claims.planDigest q.claims.nodeId q.invocation.capabilityId q.invocation.effect := by
  cases event with
  | readEpoch =>
    simp only [Request.step] at h
    split at h
    · split at h <;> cases h <;> exact haccepted.elim
    · cases h
  | readPlan =>
    simp only [Request.step] at h
    split at h
    · split at h
      · cases h; exact haccepted.elim
      · next plan hplan =>
        split at h
        · next capability hcapability => exact .inr (resolveCapability_ok hplan hcapability)
        · cases h; exact haccepted.elim
    · cases h
  | crash =>
    simp only [Request.step] at h
    split at h <;> cases h
    exact haccepted.elim
  | readRun | reserve | readReceipt | invoke | «return» | throw | complete | recordCost | abandon =>
    -- The other round trips follow an accepted one.
    simp only [Request.step] at h
    split at h
    all_goals first
      | next hphase => exact .inl (by rw [hphase]; trivial)
      | cases h

end

/-! ## The chain -/

/-- The grant that a dispatcher mints for a run that it has claimed. -/
def RunOp.granted (now : Time) (rows : List RunRow) : RunOp → Option RuntimeGrantClaims
  | .claimRun workerId leaseSeconds locked =>
    (claimRun now workerId leaseSeconds locked rows).1.map fun r =>
      ⟨r.runId, r.attempt, workerId, r.planDigest, r.fencingEpoch⟩
  | _ => none

/-- Runs, plans, receipts, what was signed, and the requests to the broker and to the gateway. -/
structure Chain extends RunSystem where
  plans : List HarnessPlan
  receipts : List ReceiptRow
  grants : List RuntimeGrantClaims
  envelopes : List ExecutionEnvelopeClaims
  brokers : ℕ → Option BrokerRequest
  requests : ℕ → Option Request

/-- What can happen. -/
inductive ChainAction
  | run (op : RunOp) (now : Time)
  | advance (clock : Time)
  | admitPlan (plan : HarnessPlan)
  | present (id : ℕ) (grant : RuntimeGrantClaims) (request : EnvelopeRequest)
  | broker (id : ℕ) (event : BrokerEvent)
  | receive (id : ℕ) (claims : ExecutionEnvelopeClaims) (invocation : CapabilityRequest)
  | request (id : ℕ) (event : Event)

/-- The envelope that a phase has signed. -/
def BrokerPhase.envelope? : BrokerPhase → Option ExecutionEnvelopeClaims
  | .signed claims => some claims
  | _ => none

/-- The run that a request to the broker has read. -/
def BrokerPhase.run? : BrokerPhase → Option RunRow
  | .found run | .fenced run _ => some run
  | _ => none

namespace Chain

/-- The chain after a request to the broker came to a phase. -/
def brokered (s : Chain) (id : ℕ) (b : BrokerRequest) (phase : BrokerPhase) : Chain :=
  { s with
    brokers := Function.update s.brokers id (some { b with phase })
    envelopes := s.envelopes ++ phase.envelope?.toList }

/-- The chain after a request to the gateway came to a phase. -/
def progress (s : Chain) (id : ℕ) (q : Request) (phase : Phase) (t : Tables) : Chain :=
  { s with
    runs := t.runs
    receipts := t.receipts
    requests := Function.update s.requests id (some { q with phase }) }

variable (sha256 : List Char → String) (ttl : Option ℤ)

/-- The chain after an action, if it can happen. -/
def act (s : Chain) : ChainAction → Option Chain
  | .run op now =>
    if now ≤ s.clock ∧ ∀ l ∈ op.lease?, l ∈ s.issued then
      some { s with
        toRunSystem := s.toRunSystem.after sha256 now op
        grants := s.grants ++ (RunOp.granted now s.runs op).toList }
    else none
  | .advance clock => if s.clock ≤ clock then some { s with clock } else none
  | .admitPlan plan =>
    if getPlan s.plans plan.planDigest = none then some { s with plans := s.plans ++ [plan] } else none
  | .present id grant request =>
    if s.brokers id = none ∧ grant ∈ s.grants then
      some { s with
        brokers := Function.update s.brokers id (some ⟨grant, request, brokerArrival grant request⟩) }
    else none
  | .broker id event => match s.brokers id with
    | none => none
    | some b => (b.step s.plans ttl s.clock s.runs event).map (s.brokered id b)
  | .receive id claims invocation =>
    if s.requests id = none ∧ claims ∈ s.envelopes ∧ ¬ EnvelopeExpired s.clock claims then
      some { s with
        requests := Function.update s.requests id
          (some ⟨claims, invocation, arrival claims invocation⟩) }
    else none
  | .request id event => match s.requests id with
    | none => none
    | some q => (q.step s.plans sha256 s.clock id ⟨s.runs, s.receipts⟩ event).map fun next =>
      s.progress id q next.1 next.2

/-- Something happens. -/
def Step (s s' : Chain) : Prop := ∃ action, s.act sha256 ttl action = some s'

/-- Steps that follow one another. -/
abbrev Steps : Chain → Chain → Prop := Relation.ReflTransGen (Step sha256 ttl)

/-- No run, no plan and no request, at some time. -/
def start (clock : Time) : Chain :=
  ⟨RunSystem.start clock, [], [], [], [], fun _ => none, fun _ => none⟩

/-- What an action does. -/
inductive Moves (s : Chain) : Chain → Prop
  | run (op) (now) : (∀ l ∈ op.lease?, l ∈ s.issued) → Moves s { s with
      toRunSystem := s.toRunSystem.after sha256 now op
      grants := s.grants ++ (RunOp.granted now s.runs op).toList }
  | advance (clock) : Moves s { s with clock }
  | admitPlan (plan) : Moves s { s with plans := s.plans ++ [plan] }
  | present (id) (grant) (request) : s.brokers id = none → Moves s { s with
      brokers := Function.update s.brokers id (some ⟨grant, request, brokerArrival grant request⟩) }
  | broker (id) (b) (phase) : s.brokers id = some b →
      BrokerProgress s.plans ttl s.clock s.runs b phase → Moves s (s.brokered id b phase)
  | receive (id) (claims) (invocation) : s.requests id = none → claims ∈ s.envelopes → Moves s { s with
      requests := Function.update s.requests id (some ⟨claims, invocation, arrival claims invocation⟩) }
  | request (id) (q) (event) (phase) (t) : s.requests id = some q →
      q.step s.plans sha256 s.clock id ⟨s.runs, s.receipts⟩ event = some (phase, t) →
      Moves s (s.progress id q phase t)

variable {sha256 ttl} {s s' : Chain}

/-- **A step by cases.** -/
theorem Step.moves (h : Step sha256 ttl s s') : Moves sha256 ttl s s' := by
  obtain ⟨action, h⟩ := h
  cases action with
  | run op now =>
    simp only [act] at h
    split at h
    · next hop => cases h; exact .run op now hop.2
    · cases h
  | advance clock =>
    simp only [act] at h
    split at h <;> cases h
    exact .advance clock
  | admitPlan plan =>
    simp only [act] at h
    split at h <;> cases h
    exact .admitPlan plan
  | present id grant request =>
    simp only [act] at h
    split at h
    · next hpresent => cases h; exact .present id grant request hpresent.1
    · cases h
  | broker id event =>
    simp only [act] at h
    split at h
    · cases h
    · next b hb =>
      obtain ⟨phase, hstep, rfl⟩ := Option.map_eq_some_iff.mp h
      exact .broker id b phase hb (BrokerRequest.step_progress hstep)
  | receive id claims invocation =>
    simp only [act] at h
    split at h
    · next hreceive => cases h; exact .receive id claims invocation hreceive.1 hreceive.2.1
    · cases h
  | request id event =>
    simp only [act] at h
    split at h
    · cases h
    · next q hq =>
      obtain ⟨⟨phase, t⟩, hstep, rfl⟩ := Option.map_eq_some_iff.mp h
      exact .request id q event phase t hq hstep

/-! ## What holds of the chain -/

/-- There is a run under a plan. -/
def HasRun (s : Chain) (runId planDigest : String) : Prop :=
  ∃ r ∈ s.runs, r.runId = runId ∧ r.planDigest = planDigest

/-- The invariant: what is signed, and what is accepted, is about a run and its plan. -/
structure Sound (s : Chain) : Prop where
  ids : (s.runs.map (·.runId)).Nodup
  read : ∀ id b, s.brokers id = some b → ∀ run ∈ b.phase.run?, s.HasRun b.request.runId run.planDigest
  signed : ∀ id b, s.brokers id = some b → ∀ c ∈ b.phase.envelope?, c.runId = b.request.runId
  envelopes : ∀ c ∈ s.envelopes, s.HasRun c.runId c.planDigest
  claims : ∀ id q, s.requests id = some q → q.claims ∈ s.envelopes
  accepted : ∀ id q, s.requests id = some q → q.phase.Accepted →
    Permits s.plans q.claims.planDigest q.claims.nodeId q.invocation.capabilityId q.invocation.effect

/-- How runs go on. -/
theorem Moves.evolves (h : Moves sha256 ttl s s') (hids : (s.runs.map (·.runId)).Nodup) :
    Evolves Carries (fun r => ∀ r' ∈ s.runs, r'.runId ≠ r.runId) s.runs s'.runs := by
  have hsame : ∀ r ∈ s.runs, Carries r r := fun r _ => .refl r
  cases h with
  | run op now hlease =>
    exact (op.exec_evolves hids hlease).mono (fun _ _ => carries_of_change) fun _ hnew => hnew.2
  | request id q event phase t hq hstep =>
    exact (Request.step_progress hstep).evolves.mono (fun _ _ h => h) fun _ => False.elim
  | _ => exact evolves_refl hsame

theorem Moves.ids (h : Moves sha256 ttl s s') (hids : (s.runs.map (·.runId)).Nodup) :
    (s'.runs.map (·.runId)).Nodup := by
  cases h with
  | run op now hlease => exact op.nodup_exec hids
  | request id q event phase t hq hstep =>
    change (t.runs.map (·.runId)).Nodup
    rwa [(Request.step_progress hstep).runIds]
  | _ => exact hids

/-- Runs stay under their plans. -/
theorem Moves.hasRun (h : Moves sha256 ttl s s') (hids : (s.runs.map (·.runId)).Nodup)
    {runId planDigest : String} (hrun : s.HasRun runId planDigest) : s'.HasRun runId planDigest := by
  obtain ⟨r, hr, rfl, rfl⟩ := hrun
  obtain ⟨r', hr', hcarry⟩ := (h.evolves hids).forward r hr
  exact ⟨r', hr', hcarry.runId, hcarry.planDigest⟩

theorem forall_mem_none {α : Type} {P : α → Prop} : ∀ a ∈ (none : Option α), P a :=
  fun a ha => absurd ha (Option.not_mem_none a)

theorem forall_mem_some {α : Type} {P : α → Prop} {a : α} (h : P a) : ∀ a' ∈ some a, P a' := by
  rintro a' ha'
  rwa [← Option.mem_some_iff.mp ha']

theorem Sound.hasRun_read (h : s.Sound) {id : ℕ} {b : BrokerRequest} (hb : s.brokers id = some b)
    {phase : BrokerPhase} (hprogress : BrokerProgress s.plans ttl s.clock s.runs b phase) :
    (∀ run ∈ phase.run?, s.HasRun b.request.runId run.planDigest) ∧
      ∀ c ∈ phase.envelope?, c.runId = b.request.runId ∧ s.HasRun c.runId c.planDigest := by
  cases hprogress with
  | refused | crashed => exact ⟨forall_mem_none, forall_mem_none⟩
  | found run hphase hrun =>
    have hid : run.runId = b.request.runId := by simpa using List.find?_some hrun
    exact ⟨forall_mem_some ⟨run, List.mem_of_find?_eq_some hrun, hid, rfl⟩, forall_mem_none⟩
  | fenced run epoch hphase =>
    have hread := h.read id b hb
    rw [hphase] at hread
    exact ⟨hread, forall_mem_none⟩
  | signed run epoch plan permission hphase hplan =>
    have hread := h.read id b hb
    rw [hphase] at hread
    have hrun : s.HasRun b.request.runId run.planDigest := hread run rfl
    rw [← planDigest_of_getPlan hplan] at hrun
    exact ⟨forall_mem_none, forall_mem_some ⟨rfl, hrun⟩⟩

theorem Sound.moves (h : s.Sound) (hmove : Moves sha256 ttl s s') : s'.Sound := by
  have hids := hmove.ids h.ids
  have hrun {runId planDigest : String} (hrun : s.HasRun runId planDigest) :
      s'.HasRun runId planDigest := hmove.hasRun h.ids hrun
  have hread : ∀ id b, s.brokers id = some b → ∀ run ∈ b.phase.run?,
      s'.HasRun b.request.runId run.planDigest := fun id b hb run hb' => hrun (h.read id b hb run hb')
  have henvelopes : ∀ c ∈ s.envelopes, s'.HasRun c.runId c.planDigest :=
    fun c hc => hrun (h.envelopes c hc)
  cases hmove with
  | run op now hlease => exact ⟨hids, hread, h.signed, henvelopes, h.claims, h.accepted⟩
  | advance clock => exact ⟨hids, hread, h.signed, henvelopes, h.claims, h.accepted⟩
  | admitPlan plan =>
    exact ⟨hids, hread, h.signed, henvelopes, h.claims, fun id q hq ha => (h.accepted id q hq ha).append _⟩
  | present id grant request hnone =>
    have harrival : (brokerArrival grant request).run? = none ∧
        (brokerArrival grant request).envelope? = none := by
      unfold brokerArrival
      split
      · exact ⟨rfl, rfl⟩
      · split <;> exact ⟨rfl, rfl⟩
    refine ⟨hids, forall_update_some (fun i b hb _ => hread i b hb) ?_,
      forall_update_some (fun i b hb _ => h.signed i b hb) ?_, henvelopes, h.claims, h.accepted⟩
    · rw [harrival.1]
      exact forall_mem_none
    · rw [harrival.2]
      exact forall_mem_none
  | broker id b phase hb hprogress =>
    obtain ⟨hphase, henvelope⟩ := h.hasRun_read hb hprogress
    refine ⟨hids, forall_update_some (fun i b hb _ => hread i b hb) fun run hrun' => hrun (hphase run hrun'),
      forall_update_some (fun i b hb _ => h.signed i b hb) fun c hc => (henvelope c hc).1, ?_, ?_, h.accepted⟩
    · refine List.forall_mem_append.mpr ⟨henvelopes, fun c hc => ?_⟩
      exact hrun (henvelope c (Option.mem_toList.mp hc)).2
    · exact fun i q hq => List.mem_append_left _ (h.claims i q hq)
  | receive id claims invocation hnone hclaims =>
    refine ⟨hids, hread, h.signed, henvelopes, forall_update_some (fun i q hq _ => h.claims i q hq) hclaims,
      forall_update_some (fun i q hq _ => h.accepted i q hq) fun ha => ?_⟩
    rcases arrival_cases claims invocation with hphase | ⟨code, hphase⟩ <;> rw [hphase] at ha <;>
      exact ha.elim
  | request id q event phase t hq hstep =>
    refine ⟨hids, hread, h.signed, henvelopes,
      forall_update_some (fun i q hq _ => h.claims i q hq) (h.claims id q hq),
      forall_update_some (fun i q hq _ => h.accepted i q hq) fun ha => ?_⟩
    exact (Request.accepted_step hstep ha).elim (h.accepted id q hq) fun hpermits => hpermits

theorem sound_start (clock : Time) : (start clock).Sound := by
  constructor <;> simp [start, RunSystem.start]

theorem Sound.steps (h : s.Sound) (hsteps : Steps sha256 ttl s s') : s'.Sound := by
  induction hsteps with
  | refl => exact h
  | tail _ hstep ih => exact ih.moves hstep.moves

/-! ## The fence of an envelope -/

/-- A run is running at an epoch. -/
def InForce (s : Chain) (runId : String) (epoch : ℕ) : Prop :=
  ∃ r ∈ s.runs, r.runId = runId ∧ r.status = .running ∧ r.fencingEpoch = epoch

/-- Between two moments the broker had been asked, and the run was running at the epoch. -/
def SeenInForce (sha256 : List Char → String) (ttl : Option ℤ) (s₀ s : Chain) (id : ℕ) (runId : String)
    (epoch : ℕ) : Prop :=
  ∃ s', Steps sha256 ttl s₀ s' ∧ Steps sha256 ttl s' s ∧ s'.brokers id ≠ none ∧ s'.InForce runId epoch

theorem SeenInForce.step {s₀ : Chain} {id : ℕ} {runId : String} {epoch : ℕ}
    (h : SeenInForce sha256 ttl s₀ s id runId epoch) (hstep : Step sha256 ttl s s') :
    SeenInForce sha256 ttl s₀ s' id runId epoch := by
  obtain ⟨s'', hbefore, hafter, hseen⟩ := h
  exact ⟨s'', hbefore, hafter.tail hstep, hseen⟩

end Chain

/-- The epoch that a request to the broker has compared. -/
def BrokerPhase.epoch? : BrokerPhase → Option ℕ
  | .fenced _ epoch => some epoch
  | .signed claims => some claims.fencingEpoch
  | _ => none

namespace Chain

variable {sha256 : List Char → String} {ttl : Option ℤ} {s₀ s : Chain}

/-- The epoch of a request to the broker is the one of its grant, and was in force since it came. -/
theorem seenInForce (hsteps : Steps sha256 ttl s₀ s) {id : ℕ} (hnone : s₀.brokers id = none) :
    ∀ b, s.brokers id = some b → ∀ epoch ∈ b.phase.epoch?, epoch = b.grant.fencingEpoch ∧
      SeenInForce sha256 ttl s₀ s id b.request.runId epoch := by
  induction hsteps with
  | refl => rintro b hb; cases hnone.symm.trans hb
  | @tail s s' hbefore hstep ih =>
    have hold : ∀ b, s.brokers id = some b → ∀ epoch ∈ b.phase.epoch?, epoch = b.grant.fencingEpoch ∧
        SeenInForce sha256 ttl s₀ s' id b.request.runId epoch := fun b hb epoch hepoch =>
      ⟨(ih b hb epoch hepoch).1, (ih b hb epoch hepoch).2.step hstep⟩
    cases hstep.moves with
    | run | advance | admitPlan | receive | request => exact hold
    | present i grant request hi =>
      intro b hb
      by_cases hid : id = i
      · subst hid
        dsimp only at hb
        rw [Function.update_self, Option.some.injEq] at hb
        subst hb
        have harrival : (brokerArrival grant request).epoch? = none := by
          unfold brokerArrival
          split
          · rfl
          · split <;> rfl
        rw [harrival]
        exact forall_mem_none
      · dsimp only at hb
        rw [Function.update_of_ne hid] at hb
        exact hold b hb
    | broker i b₀ phase hb₀ hprogress =>
      intro b hb
      by_cases hid : id = i
      · subst hid
        dsimp only [brokered] at hb
        rw [Function.update_self, Option.some.injEq] at hb
        subst hb
        cases hprogress with
        | refused | crashed | found => exact forall_mem_none
        | fenced run epoch hphase hcurrent hgrant =>
          have hasked : s.brokers id ≠ none := by simp [hb₀]
          exact forall_mem_some ⟨hgrant, s, hbefore, .single hstep, hasked,
            currentFencingEpoch_eq_some hcurrent⟩
        | signed run epoch plan permission hphase =>
          have hsigned := hold b₀ hb₀
          rw [hphase] at hsigned
          exact forall_mem_some (hsigned epoch rfl)
      · dsimp only [brokered] at hb
        rw [Function.update_of_ne hid] at hb
        exact hold b hb

/-- Requests and envelopes after actions, if they can happen. -/
def runAll (sha256 : List Char → String) (ttl : Option ℤ) : Chain → List ChainAction → Option Chain
  | s, [] => some s
  | s, action :: actions => (s.act sha256 ttl action).bind fun s => runAll sha256 ttl s actions

theorem steps_runAll {actions : List ChainAction} (h : s₀.runAll sha256 ttl actions = some s) :
    Steps sha256 ttl s₀ s := by
  induction actions generalizing s₀ with
  | nil => cases h; exact .refl
  | cons action actions ih =>
    obtain ⟨s₁, hact, h⟩ := Option.bind_eq_some_iff.mp h
    exact .head ⟨action, hact⟩ (ih h)

end Chain

namespace Sample

/-- A run is created and claimed, the broker signs an envelope, and the gateway accepts an invocation. -/
def exchange : List ChainAction :=
  plans.map .admitPlan ++
    [.run (.createRun "1" ⟨"plan", .null, "key", "tenant"⟩) 0, .run (.claimRun "worker" 60 []) 0,
      .present 0 ⟨"RUN-1", 1, "worker", "plan", 1⟩ ⟨"RUN-1", "node", 1, "INV-1"⟩, .broker 0 .readRun,
      .broker 0 .readEpoch, .broker 0 .readPlan, .receive 0 claims ⟨"INV-1", "lookup", .read, none⟩,
      .request 0 .readEpoch, .request 0 .readPlan, .request 0 .readRun]

/-- What the broker has signed, and what the gateway has accepted. -/
def exchanged (s : Chain) : Option ExecutionEnvelopeClaims × Option String :=
  ((s.brokers 0).bind fun b => b.phase.envelope?, (s.requests 0).bind fun q => match q.phase with
    | .admitted _ capability => some capability.id
    | _ => none)

theorem runAll_exchange : ((Chain.start 0).runAll String.ofList none exchange).map exchanged =
    some (some claims, some "lookup") := by decide +kernel

end Sample

/-- **No capability is amplified.** Every invocation that the gateway has accepted is for a capability
and an effect that the plan of the run permits at the node of the envelope, and the effect is the one of
the capability. And the broker has signed an envelope for the epoch of the grant only, at which the run
was running at some moment after the broker was asked. -/
theorem no_amplification {sha256 : List Char → String} {ttl : Option ℤ} {clock : Time} {s₀ s : Chain}
    (hstart : Chain.Steps sha256 ttl (.start clock) s₀) (hsteps : Chain.Steps sha256 ttl s₀ s) :
    (∀ id q, s.requests id = some q → q.phase.Accepted →
      ∃ r ∈ s.runs, r.runId = q.claims.runId ∧
        Permits s.plans r.planDigest q.claims.nodeId q.invocation.capabilityId q.invocation.effect) ∧
    ∀ id b claims, s₀.brokers id = none → s.brokers id = some b → b.phase = .signed claims →
      claims.fencingEpoch = b.grant.fencingEpoch ∧
        Chain.SeenInForce sha256 ttl s₀ s id claims.runId claims.fencingEpoch := by
  have hsound : s.Sound := (Chain.sound_start clock).steps (hstart.trans hsteps)
  constructor
  · intro id q hq haccepted
    obtain ⟨r, hr, hid, hplan⟩ := hsound.envelopes _ (hsound.claims id q hq)
    refine ⟨r, hr, hid, ?_⟩
    rw [hplan]
    exact hsound.accepted id q hq haccepted
  · intro id b claims hnone hb hphase
    have hseen := Chain.seenInForce hsteps hnone b hb claims.fencingEpoch (by rw [hphase]; rfl)
    have hrun : claims.runId = b.request.runId := hsound.signed id b hb claims (by rw [hphase]; rfl)
    rwa [hrun]

/-- An envelope is signed for a run, and an invocation is accepted with it. -/
theorem no_amplification_sample : ∃ s, (Chain.start 0).runAll String.ofList none Sample.exchange = some s ∧
    Sample.exchanged s = (some Sample.claims, some "lookup") ∧
    ∃ q, s.requests 0 = some q ∧ ∃ r ∈ s.runs, r.runId = q.claims.runId ∧
      Permits s.plans r.planDigest q.claims.nodeId q.invocation.capabilityId q.invocation.effect := by
  obtain ⟨s, hrun, hexchanged⟩ := Option.map_eq_some_iff.mp Sample.runAll_exchange
  obtain ⟨q, hq, hphase⟩ := Option.bind_eq_some_iff.mp (Prod.mk.inj hexchanged).2
  have haccepted : q.phase.Accepted := by
    split at hphase
    · next plan capability heq =>
      rw [heq]
      trivial
    · cases hphase
  exact ⟨s, hrun, hexchanged, q, hq,
    (no_amplification .refl (Chain.steps_runAll hrun)).1 0 q hq haccepted⟩

end Gateway

end HarnessFramework
